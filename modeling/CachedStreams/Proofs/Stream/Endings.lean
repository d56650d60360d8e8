import CachedStreams.Proofs.Stream.Lifecycle

/-!
# What the end of a pump leaves behind

A pump ends because its stream ended or failed, because the stream could not be opened, because it
was asked to end, or because it broke off: the opening, the reader or the transform panicked, or the
transform named impossible positions. In all cases but the last the buffer does not count as
streaming any more. A pump that breaks off changes no phase, so that the buffer goes on to count as
streaming although nobody reads the stream (`streaming_iff_brokeOff`): those who read past the
visible content are told to come back, and those who ask for the stream are answered at once, until
the last consumer has released the buffer. If the last consumer left before the pump ever ran, the
call for the stream can still panic, in a buffer that is closed and stays so.
-/

set_option autoImplicit false

namespace CachedStreams.Buffer

/-- Whether an event makes a pump break off that waits for it. -/
def BreaksOff (b : Buffer) : PumpEvent → Prop
  | .openPanicked => True
  | .readPanicked => True
  | .received bytes => bytes ≠ [] ∧ (b.content.commit b.transform bytes).2 = false
  | _ => False

/-- A pump runs before a move and is over after it. -/
structure EndsPump (t : Move Buffer Event Notice) : Prop where
  before : t.before.isPumping = true
  after : t.after.isPumping = false

instance (t : Move Buffer Event Notice) : Decidable (EndsPump t) :=
  decidable_of_iff (t.before.isPumping = true ∧ t.after.isPumping = false)
    ⟨fun h => ⟨h.1, h.2⟩, fun h => ⟨h.before, h.after⟩⟩

/-- A pump has broken off, and the buffer counts as streaming all the same. -/
structure IsOrphaned (b : Buffer) : Prop where
  streaming : b.phase = .streaming
  brokeOff : ∃ p, b.pump = some p ∧ p.stage = .ended true

/-- How a buffer stands whose pump is over. -/
structure OverAccounted (b : Buffer) : Prop where
  /-- It counts as streaming just if the pump broke off and has not been asked to end since. -/
  streams : ∀ p panicked, b.pump = some p → p.stage = .ended panicked →
    (b.phase = .streaming ↔ panicked = true ∧ p.releaseAsked = false)
  /-- A buffer whose stream failed does not count as streaming. -/
  failed : b.failure ≠ none → b.phase ≠ .streaming

/-- No buffer counts as streaming after its last release. -/
theorem afterLastRelease_ne_streaming (phase : Phase) : phase.afterLastRelease ≠ .streaming := by
  cases phase <;> simp [Phase.afterLastRelease]

namespace OverAccounted

variable {b : Buffer}

/-- A new buffer has no pump that could be over. -/
theorem create (name : String) (options : BufferOptions) (transform : Option Transform) :
    OverAccounted (create name options transform) :=
  ⟨nofun, fun failed => absurd rfl failed⟩

/-- Of the pump only its stage matters, and whether it has been asked to end. -/
theorem with_pump (h : OverAccounted b) {p q : Pump} (hp : b.pump = some p)
    (stage : q.stage = p.stage) (asked : q.releaseAsked = p.releaseAsked)
    (calls : CallTable BufferCall) : OverAccounted { b with pump := some q, calls } := by
  refine ⟨?_, h.failed⟩
  rintro _ panicked ⟨⟩ gone
  rw [asked]
  exact h.streams p panicked hp (stage ▸ gone)

/-- Whatever a call does, a buffer whose pump is over stands as it should. -/
theorem callMove (h : OverAccounted b) (consistent : b.Consistent) {event : Event}
    {r : Buffer × List Notice} (move : CallMove b event r) : OverAccounted r.1 := by
  cases move with
  | joins | retains | refuses | releasesNothing | releasesOne | abandons => exact ⟨h.1, h.2⟩
  | starts call unused idle =>
      refine ⟨?_, fun failed => absurd idle (consistent.failed failed).1⟩
      rintro _ panicked ⟨⟩ gone
      cases gone
  | leaves call last free =>
      -- A buffer that streams has a pump to end, so this one did not stream.
      have still : b.phase ≠ .streaming := by
        intro streaming
        obtain ⟨-, held, p, hp, -⟩ := consistent.engaged (.inl streaming)
        simp [held, hp] at free
      refine ⟨fun p panicked hp gone => ?_, fun _ => afterLastRelease_ne_streaming _⟩
      simp only [afterLastRelease_ne_streaming, false_iff]
      exact fun broke => still ((h.streams p panicked hp gone).mpr broke)
  | leavesEnded | leavesRunning =>
      refine ⟨?_, fun _ => afterLastRelease_ne_streaming _⟩
      rintro _ panicked ⟨⟩ gone
      simp [afterLastRelease_ne_streaming]

end OverAccounted

/-- A buffer whose pump has been ended by an event. -/
structure EndedBy (b : Buffer) (p : Pump) (event : PumpEvent) (c : Buffer) : Prop where
  streams : c.phase = .streaming ↔ BreaksOff b event ∧ p.releaseAsked = false
  failed : c.failure ≠ none → c.phase ≠ .streaming
  pump : ∃ q, c.pump = some q ∧ q.releaseAsked = p.releaseAsked ∧
    (BreaksOff b event ∧ q.stage = .ended true ∨ ¬BreaksOff b event ∧ q.stage = .ended false)

/-- A pump that breaks off changes neither the phase nor the failure. -/
theorem endedBy_breakOff {b c : Buffer} {p : Pump} {event : PumpEvent} (broke : BreaksOff b event)
    (streams : c.phase = .streaming ↔ p.releaseAsked = false) (unfailed : c.failure = none) :
    EndedBy b p event (c.breakOff p).1 := by
  rw [breakOff_eq]
  exact ⟨by simp [broke, streams], fun failed => absurd unfailed failed, _, rfl, rfl,
    .inl ⟨broke, rfl⟩⟩

/-- A move of the pump to its end leaves the buffer streaming just if the pump broke off. -/
theorem endedBy_of_pumpMove {b : Buffer} (consistent : b.Consistent) {p : Pump}
    (hp : b.pump = some p) (running : p.stage.isOver = false) {event : PumpEvent}
    {r : Buffer × List Notice} (move : PumpMove b p event r) (gone : r.1.isPumping = false) :
    EndedBy b p event r.1 := by
  have streams := consistent.streaming_iff_unasked hp running
  have unfailed := consistent.failure_of_running hp running
  cases move with
  | ignores => simp [isPumping_eq_true_iff.mpr ⟨p, hp, running⟩] at gone
  | starts | opens => simp [isPumping, stage?, PumpStage.isOver] at gone
  | failsToOpen cause stage asked =>
      rw [failOpen_eq]
      exact ⟨by simp [BreaksOff], by simp, _, rfl, rfl, .inr ⟨by simp [BreaksOff], rfl⟩⟩
  | breaksCall | breaksOpening | breaksReading => exact endedBy_breakOff trivial streams unfailed
  | ends stage asked =>
      rw [reachEnd_eq]
      exact ⟨by simp [BreaksOff, streams.mpr asked], by simp, _, rfl, rfl,
        .inr ⟨by simp [BreaksOff], rfl⟩⟩
  | takes bytes nonempty stage asked fits =>
      cases hc : (b.content.commit b.transform bytes).2 with
      | true =>
          rw [take_of_published b p bytes hc] at gone
          simp [isPumping, stage?, stage, PumpStage.isOver] at gone
      | false =>
          rw [take_of_not_published b p bytes hc]
          exact endedBy_breakOff ⟨nonempty, hc⟩ streams unfailed
  | fails cause stage asked =>
      rw [fail_eq]
      exact ⟨by simp [BreaksOff, streams.mpr asked], by simp [streams.mpr asked], _, rfl, rfl,
        .inr ⟨by simp [BreaksOff], rfl⟩⟩
  | stops stage asked =>
      rw [stop_eq]
      exact ⟨by simp [BreaksOff, streams, asked], by simp [streams, asked], _, rfl, rfl,
        .inr ⟨by simp [BreaksOff], rfl⟩⟩

namespace OverAccounted

variable {b : Buffer}

/-- A pump that goes on has nothing to account for. -/
theorem of_pumping (consistent : b.Consistent) (pumping : b.isPumping = true) :
    OverAccounted b := by
  obtain ⟨q, hq, on⟩ := isPumping_eq_true_iff.mp pumping
  refine ⟨fun p panicked hp gone => ?_, fun failed => ?_⟩
  · rw [hq, Option.some.injEq] at hp
    rw [hp, gone] at on
    cases on
  · exact absurd (consistent.failure_of_running hq on) failed

/-- Whatever happens to the pump, a buffer whose pump is over stands as it should. -/
theorem pumpMove (h : OverAccounted b) (consistent : b.Consistent) {p : Pump}
    (hp : b.pump = some p) {event : PumpEvent} {r : Buffer × List Notice}
    (move : PumpMove b p event r) : OverAccounted r.1 := by
  cases running : p.stage.isOver with
  | true =>
      rw [move.of_isOver running]
      exact h
  | false =>
      cases gone : r.1.isPumping with
      | true => exact of_pumping (consistent.pumpMove hp move) gone
      | false =>
          obtain ⟨phase, failed, q, hq, asked, ended⟩ :=
            endedBy_of_pumpMove consistent hp running move gone
          refine ⟨fun q' panicked hq' gone => ?_, failed⟩
          rw [hq, Option.some.injEq] at hq'
          subst hq'
          rw [phase, asked]
          rcases ended with ⟨broke, stage⟩ | ⟨whole, stage⟩
          · rw [stage, PumpStage.ended.injEq] at gone
            simp [broke, ← gone]
          · rw [stage, PumpStage.ended.injEq] at gone
            simp [whole, ← gone]

/-- After every event a buffer whose pump is over stands as it should. -/
theorem apply (h : OverAccounted b) (consistent : b.Consistent) (now : Nat) (event : Event) :
    OverAccounted (b.apply now event).1 := by
  rcases apply_cases b now event with ⟨-, same⟩ | move | ⟨p, hp, ⟨done, -, move⟩ | ⟨-, move⟩⟩
  · rw [same]
    exact h
  · exact h.callMove consistent move
  · exact h.pumpMove consistent hp move
  · generalize b.apply now event = r at move
    cases move with
    | waits confirmation => exact h.with_pump (q := { p with confirmation }) hp rfl rfl b.calls
    | settles result =>
        exact h.with_pump (q := { p with confirmation := .over, settled := true }) hp rfl rfl _

end OverAccounted

namespace IsOrphaned

variable {b : Buffer}

/-- Only the last release ends it: until then the content and the pump stay as they are, and nobody
has the stream opened. -/
theorem apply (h : b.IsOrphaned) (now : Nat) (event : Event) :
    (b.apply now event).1.content = b.content ∧ Notice.openCalled ∉ (b.apply now event).2 ∧
      Notice.pumpStarted ∉ (b.apply now event).2 ∧
      ((b.apply now event).1.IsOrphaned ∨ event.isRelease = true ∧ b.refs = 1) := by
  obtain ⟨streaming, p, hp, stage⟩ := h
  have silent : ∀ result, Notice.openCalled ∉ b.verdict p result ∧
      Notice.pumpStarted ∉ b.verdict p result := by
    intro result
    unfold verdict
    split <;> simp
  rcases apply_cases b now event with ⟨-, same⟩ | move | ⟨q, hq, ⟨done, -, move⟩ | ⟨-, move⟩⟩
  · rw [same]
    exact ⟨rfl, by simp, by simp, .inl ⟨streaming, p, hp, stage⟩⟩
  · generalize b.apply now event = r at move
    cases move with
    | starts call unused idle => simp [streaming] at idle
    | joins | retains | refuses | releasesNothing | releasesOne | abandons =>
        exact ⟨rfl, by simp, by simp, .inl ⟨streaming, p, hp, stage⟩⟩
    | leaves call last | leavesEnded call q panicked last | leavesRunning call q last =>
        exact ⟨rfl, by simp, by simp, .inr ⟨rfl, last⟩⟩
  · rw [hp, Option.some.injEq] at hq
    subst hq
    rw [move.of_isOver (by rw [stage]; rfl)]
    exact ⟨rfl, by simp, by simp, .inl ⟨streaming, p, hp, stage⟩⟩
  · rw [hp, Option.some.injEq] at hq
    subst hq
    generalize b.apply now event = r at move
    cases move with
    | waits => exact ⟨rfl, by simp, by simp, .inl ⟨streaming, _, rfl, stage⟩⟩
    | settles result =>
        exact ⟨rfl, (silent result).1, (silent result).2, .inl ⟨streaming, _, rfl, stage⟩⟩

/-- Whoever reads past the content of an orphaned buffer is told to come back. -/
theorem readAt_eq (h : b.IsOrphaned) (accounted : b.OverAccounted) {length offset : Nat}
    (past : b.snapshot.length ≤ offset) :
    b.readAt length offset = .error ⟨.wouldBlock, none⟩ := by
  have unfailed : b.failure = none := by
    by_contra failed
    exact accounted.failed failed h.streaming
  simp [readAt, unfailed, Nat.not_lt.mpr past, isFinished, h.streaming]

/-- Whoever asks for the stream of an orphaned buffer is answered at once. -/
theorem join_eq (h : b.IsOrphaned) (call : CallId) :
    b.join call = ({ b with refs := b.refs + 1 }, [.answered call (.ok ())]) := by
  simp [join, h.streaming]

end IsOrphaned

/-- Past the visible content only an idle buffer and one that counts as streaming ask to come
back. -/
theorem phase_of_readAt_wouldBlock {b : Buffer} {length offset : Nat}
    (told : b.readAt length offset = .error ⟨.wouldBlock, none⟩) :
    b.phase = .idle ∨ b.phase = .streaming := by
  unfold readAt at told
  split at told
  · rename_i e _
    simp [StreamError.toIoError] at told
  · split at told
    · cases told
    · split at told
      · cases told
      · rename_i unfinished
        cases phase : b.phase <;> simp_all [isFinished]

namespace History

/-- The end of a pump leaves no buffer behind that counts as streaming. -/
def EndsStreaming (h : History) : Prop :=
  ∀ t ∈ h, EndsPump t → t.after.phase ≠ .streaming

instance (h : History) : Decidable h.EndsStreaming :=
  inferInstanceAs (Decidable (∀ t ∈ h, EndsPump t → t.after.phase ≠ .streaming))

/-- The end of a pump leaves the buffer behind as one that counts as streaming just if the pump
broke off and the last consumer had not left before. -/
def StreamsOnIfBrokeOff (h : History) : Prop :=
  ∀ t ∈ h, EndsPump t → ∃ cause, t.event = .pump cause ∧
    (t.after.phase = .streaming ↔ BreaksOff t.before cause ∧ t.before.phase ≠ .closed)

/-- A buffer that is orphaned by a move stays so, with the same content and without a stream, as
long as the last consumer has not released it. -/
def OrphansStay (h : History) : Prop :=
  ∀ past t mid u future, h = past ++ t :: (mid ++ u :: future) → IsOrphaned t.after →
    (∀ v ∈ mid, ¬(v.event.isRelease = true ∧ v.before.refs = 1)) →
      u.before.IsOrphaned ∧ u.before.content = t.after.content ∧
        ∀ v ∈ mid, Notice.openCalled ∉ v.notices ∧ Notice.pumpStarted ∉ v.notices

end History

section

variable {name : String} {options : BufferOptions} {transform : Option Transform}
  {events : List (Nat × Event)}

/-- In every run a buffer whose pump is over stands as it should. -/
theorem overAccounted_of_run (name : String) (options : BufferOptions)
    (transform : Option Transform) (events : List (Nat × Event)) :
    let b := Machine.final apply (create name options transform) events
    b.Consistent ∧ OverAccounted b :=
  Machine.final_induction apply (fun b => b.Consistent ∧ OverAccounted b)
    ⟨.create name options transform, .create name options transform⟩
    (fun _ now event h _ => ⟨h.1.apply now event, h.2.apply h.1 now event⟩)
    (Machine.allows_true apply _ events)

/-- In every run the end of a pump leaves the buffer streaming exactly if the pump broke off before
the buffer was closed. -/
theorem streamsOnIfBrokeOff_of_run :
    History.StreamsOnIfBrokeOff
      (Machine.history apply (create name options transform) events) := by
  intro t member ⟨before, gone⟩
  obtain ⟨earlier, now, event, later, -, rfl⟩ := Machine.exists_of_mem_history apply member
  obtain ⟨consistent, -⟩ := overAccounted_of_run name options transform earlier
  simp only [Machine.move] at before gone ⊢
  generalize Machine.final apply (create name options transform) earlier = b at *
  obtain ⟨p, hp, running⟩ := isPumping_eq_true_iff.mp before
  have kept : ∀ c : Buffer, c.stage? = b.stage? → c.isPumping = true := by
    intro c same
    unfold isPumping at before ⊢
    rw [same]
    exact before
  have move := stageMove_apply b now event
  -- Nobody but the pump changes the stage of a pump that runs.
  cases event with
  | pump cause =>
      have moved : PumpMove b p cause (b.apply now (.pump cause)) := by
        simp only [apply, hp]
        exact pumpMove_pumpStep b p cause
      have ended := endedBy_of_pumpMove consistent hp running moved gone
      exact ⟨cause, rfl, by rw [consistent.unclosed_iff_unasked hp running]; exact ended.streams⟩
  | join call =>
      generalize b.apply now _ = r at move gone
      cases move with
      | stays stage => simp [kept _ stage] at gone
      | starts idle =>
          have gone := consistent.isOver_of_idle idle hp
          rw [running] at gone
          cases gone
  | retain | release | abandon | watch =>
      generalize b.apply now _ = r at move gone
      cases move with
      | stays stage => simp [kept _ stage] at gone

/-- In every run an orphaned buffer stays so until its last consumer releases it. -/
theorem orphansStay_of_run (b : Buffer) :
    History.OrphansStay (Machine.history apply b events) := by
  intro past t mid u future split orphaned unreleased
  refine Machine.stretch_induction apply
    (fun seen c => c.IsOrphaned ∧ c.content = t.after.content ∧
      ∀ v ∈ seen, Notice.openCalled ∉ v.notices ∧ Notice.pumpStarted ∉ v.notices)
    split ⟨orphaned, rfl, by simp⟩ ?_
  rintro between v rest rfl here ⟨still, content, quiet⟩
  have moves := Machine.eq_move_of_history apply here
  obtain ⟨kept, unopened, unstarted, next⟩ := still.apply v.now v.event
  have after : v.after = (v.before.apply v.now v.event).1 := congrArg Move.after moves
  have notices : v.notices = (v.before.apply v.now v.event).2 := congrArg Move.notices moves
  refine ⟨?_, ?_, ?_⟩
  · rw [after]
    exact next.resolve_right (unreleased v (by simp))
  · rw [after, kept, content]
  · intro w member
    rcases List.mem_append.mp member with old | new
    · exact quiet w old
    · rw [List.mem_singleton.mp new, notices]
      exact ⟨unopened, unstarted⟩

end

/-- In every run of a buffer a pump that comes to its end leaves the buffer counting as streaming
just if it broke off before the last consumer left, and that lasts exactly until the last consumer
has released the buffer. Until then the content stays as it is, those who read past it are told to
come back, and those who ask for the stream are answered at once and start no pump. Once the pump is
over in any other way, a reader past the visible content is told to come back only by a buffer whose
stream could not be opened. -/
theorem streaming_iff_brokeOff (name : String) (options : BufferOptions)
    (transform : Option Transform) (events : List (Nat × Event)) :
    let h : History := Machine.history apply (create name options transform) events
    let b := Machine.final apply (create name options transform) events
    h.StreamsOnIfBrokeOff ∧ h.OrphansStay ∧
      ∀ p panicked, b.pump = some p → p.stage = .ended panicked →
        (b.phase = .streaming ↔ panicked = true ∧ p.releaseAsked = false) ∧
        (b.phase = .streaming →
          (∀ length offset, b.snapshot.length ≤ offset →
            b.readAt length offset = .error ⟨.wouldBlock, none⟩) ∧
          ∀ call, b.join call = ({ b with refs := b.refs + 1 }, [.answered call (.ok ())])) ∧
        (b.phase ≠ .streaming → ∀ length offset,
          b.readAt length offset = .error ⟨.wouldBlock, none⟩ → b.phase = .idle) := by
  intro h b
  obtain ⟨consistent, accounted⟩ : b.Consistent ∧ OverAccounted b :=
    overAccounted_of_run name options transform events
  refine ⟨streamsOnIfBrokeOff_of_run, orphansStay_of_run _, fun p panicked hp gone => ?_⟩
  have streams := accounted.streams p panicked hp gone
  refine ⟨streams, fun streaming => ?_, fun other length offset told => ?_⟩
  · have broke : p.stage = .ended true := by rw [gone, (streams.mp streaming).1]
    have orphaned : b.IsOrphaned := ⟨streaming, p, hp, broke⟩
    exact ⟨fun length offset past => orphaned.readAt_eq accounted past, orphaned.join_eq⟩
  · exact (phase_of_readAt_wouldBlock told).resolve_right other

/-- A reader that breaks off after two bytes. -/
def breaksOffReading : List (Nat × Event) :=
  [(0, .join 0), (0, .pump .started), (0, .pump .opened), (0, .watch .timers),
    (0, .pump (.received [104, 105])), (0, .pump .readPanicked)]

/-- When the reader breaks off, the pump is over and the buffer counts as streaming. -/
theorem not_endsStreaming_of_broken_reader :
    ¬History.EndsStreaming (Machine.history apply (create "b" {} none) breaksOffReading) := by
  decide

end CachedStreams.Buffer
