import CachedStreams.Proofs.Stream.BufferMoves

/-!
# Phases and pumps agree

A buffer keeps its phase, its count of consumers, the question whether a release still has a pump
to end, and the pump itself side by side. `Buffer.Consistent` says how they fit together, and
`Buffer.Consistent.apply` that nothing that can happen to a buffer breaks it, panics and calls that
are given up included: a pump that runs was asked to end exactly if the phase is closed, a buffer
that streams or has finished has consumers, and a failure is recorded only when the pump is over.
-/

set_option autoImplicit false

namespace CachedStreams.Buffer

/-- How phase, consumers and pump of a buffer fit together. -/
structure Consistent (b : Buffer) : Prop where
  /-- A running pump has been asked to end exactly if the buffer is closed, and it streams if not.
  -/
  running : ∀ p, b.pump = some p → p.stage.isOver = false →
    b.phase = if p.releaseAsked then .closed else .streaming
  /-- A buffer that streams or has finished has consumers, and a pump that the last of them ends. -/
  engaged : b.phase = .streaming ∨ b.phase = .finished →
    0 < b.refs ∧ b.pumpHeld = true ∧ ∃ p, b.pump = some p ∧ p.releaseAsked = false
  /-- No release has anything to end in an idle or a closed buffer. -/
  disengaged : b.phase = .idle ∨ b.phase = .closed → b.pumpHeld = false
  /-- A failure is there to stay: the pump is over and no other can start. -/
  failed : b.failure ≠ none →
    b.phase ≠ .idle ∧ ∃ p, b.pump = some p ∧ p.stage.isOver = true

namespace Consistent

variable {b : Buffer}

/-- In a new buffer phase, consumers and pump fit together. -/
theorem create (name : String) (options : BufferOptions) (transform : Option Transform) :
    Consistent (create name options transform) := by
  constructor <;> simp [Buffer.create]

/-- A buffer whose pump runs and has not been asked to end streams. -/
theorem streaming_of_running (h : Consistent b) {p : Pump} (hp : b.pump = some p)
    (stage : p.stage.isOver = false) (asked : p.releaseAsked = false) : b.phase = .streaming := by
  have := h.running p hp stage
  rwa [asked] at this

/-- A buffer whose pump runs counts as streaming just if the pump has not been asked to end. -/
theorem streaming_iff_unasked (h : Consistent b) {p : Pump} (hp : b.pump = some p)
    (stage : p.stage.isOver = false) : b.phase = .streaming ↔ p.releaseAsked = false := by
  rw [h.running p hp stage]
  cases p.releaseAsked <;> simp

/-- A buffer whose pump runs is closed just if the pump has been asked to end. -/
theorem unclosed_iff_unasked (h : Consistent b) {p : Pump} (hp : b.pump = some p)
    (stage : p.stage.isOver = false) : b.phase ≠ .closed ↔ p.releaseAsked = false := by
  rw [h.running p hp stage]
  cases p.releaseAsked <;> simp

/-- The pump of an idle buffer is over. -/
theorem isOver_of_idle (h : Consistent b) (idle : b.phase = .idle) {p : Pump}
    (hp : b.pump = some p) : p.stage.isOver = true := by
  cases hs : p.stage.isOver with
  | true => rfl
  | false =>
      have := h.running p hp hs
      rw [idle] at this
      cases ha : p.releaseAsked <;> simp [ha] at this

/-- A pump that still runs in a closed buffer has been asked to end. -/
theorem asked_of_closed (h : Consistent b) (closed : b.phase = .closed) {p : Pump}
    (hp : b.pump = some p) (stage : p.stage.isOver = false) : p.releaseAsked = true := by
  have := h.running p hp stage
  rw [closed] at this
  cases ha : p.releaseAsked <;> simp [ha] at this ⊢

/-- No failure is recorded while a pump runs. -/
theorem failure_of_running (h : Consistent b) {p : Pump} (hp : b.pump = some p)
    (stage : p.stage.isOver = false) : b.failure = none := by
  cases hf : b.failure with
  | none => rfl
  | some e =>
      obtain ⟨-, q, hq, gone⟩ := h.failed (by simp [hf])
      rw [hp, Option.some.injEq] at hq
      rw [hq, gone] at stage
      cases stage

/-- How many consumers there are does not matter, as long as there is one. -/
theorem with_refs (h : Consistent b) (refs : Nat) (pos : 0 < refs) :
    Consistent { b with refs } :=
  ⟨h.running, fun hp => ⟨pos, (h.engaged hp).2⟩, h.disengaged, h.failed⟩

/-- Which calls are in progress does not matter. -/
theorem with_calls (h : Consistent b) (calls : CallTable BufferCall) :
    Consistent { b with calls } := ⟨h.running, h.engaged, h.disengaged, h.failed⟩

/-- The end of a pump that was not asked to end leaves a buffer that streams. -/
theorem with_pump_over (h : Consistent b) {p q : Pump} (hp : b.pump = some p)
    (gone : q.stage.isOver = true) (asked : q.releaseAsked = p.releaseAsked) :
    Consistent { b with pump := some q } := by
  refine ⟨?_, ?_, h.disengaged, ?_⟩
  · rintro _ ⟨⟩ stage
    rw [gone] at stage
    cases stage
  · intro phase
    obtain ⟨refs, held, p', hp', ha⟩ := h.engaged phase
    rw [hp, Option.some.injEq] at hp'
    exact ⟨refs, held, q, rfl, by rw [asked, hp', ha]⟩
  · intro failed
    exact ⟨(h.failed failed).1, q, rfl, gone⟩

/-- Of the pump only two things matter: whether it is over, and whether it has been asked to end. -/
theorem with_pump (h : Consistent b) {p q : Pump} (hp : b.pump = some p)
    (stage : q.stage.isOver = p.stage.isOver) (asked : q.releaseAsked = p.releaseAsked) :
    Consistent { b with pump := some q } := by
  refine ⟨?_, ?_, h.disengaged, ?_⟩
  · rintro _ ⟨⟩ hs
    rw [asked]
    exact h.running p hp (stage ▸ hs)
  · intro phase
    obtain ⟨refs, held, p', hp', ha⟩ := h.engaged phase
    rw [hp, Option.some.injEq] at hp'
    exact ⟨refs, held, q, rfl, by rw [asked, hp', ha]⟩
  · intro failed
    obtain ⟨idle, p', hp', gone⟩ := h.failed failed
    rw [hp, Option.some.injEq] at hp'
    exact ⟨idle, q, rfl, by rw [stage, hp', gone]⟩

/-- What has been read does not matter. -/
theorem with_content (h : Consistent b) (content : Content) : Consistent { b with content } :=
  ⟨h.running, h.engaged, h.disengaged, h.failed⟩

/-- How often something was published does not matter. -/
theorem with_commits (h : Consistent b) (commits : Nat) : Consistent { b with commits } :=
  ⟨h.running, h.engaged, h.disengaged, h.failed⟩

/-- The end of the stream, with or without a failure, finishes a buffer that streams. -/
theorem with_end (h : Consistent b) {p : Pump} (hp : b.pump = some p)
    (stage : p.stage.isOver = false) (asked : p.releaseAsked = false)
    (content : Content) (failure : Option StreamError) :
    Consistent { b with
      content
      failure
      phase := if b.phase = .streaming then .finished else b.phase
      pump := some { p with stage := .ended false, settled := true } } := by
  have hs := h.streaming_of_running hp stage asked
  obtain ⟨refs, held, -⟩ := h.engaged (.inl hs)
  refine ⟨?_, ?_, ?_, ?_⟩
  · rintro _ ⟨⟩ gone
    simp [PumpStage.isOver] at gone
  · intro _
    exact ⟨refs, held, _, rfl, asked⟩
  · simp [hs]
  · intro _
    exact ⟨by simp [hs], _, rfl, rfl⟩

/-- A failure to open leaves phase, consumers and pump fitting together. -/
theorem failOpen (h : Consistent b) {p : Pump} (hp : b.pump = some p)
    (stage : p.stage.isOver = false) (cause : IoError) : Consistent (b.failOpen p cause).1 := by
  rw [failOpen_eq]
  refine ⟨?_, ?_, ?_, ?_⟩
  · rintro _ ⟨⟩ gone
    simp [PumpStage.isOver] at gone
  · simp
  · simp
  · simp [h.failure_of_running hp stage]

/-- So does a pump that breaks off. -/
theorem breakOff (h : Consistent b) {p : Pump} (hp : b.pump = some p) :
    Consistent (b.breakOff p).1 := by
  rw [breakOff_eq]
  exact (h.with_pump_over (q := { p with
    stage := .ended true
    settled := p.settled || isLastWord p true }) hp rfl rfl).with_calls _

/-- So does a piece that is taken, whether it can be published or not. -/
theorem take (h : Consistent b) {p : Pump} (hp : b.pump = some p) (bytes : List UInt8) :
    Consistent (b.take p bytes).1 := by
  cases hc : (b.content.commit b.transform bytes).2 with
  | true =>
      rw [take_of_published b p bytes hc]
      exact ((h.with_pump (q := { p with arrivals := p.arrivals + 1 }) hp rfl rfl).with_content
        _).with_commits _
  | false =>
      rw [take_of_not_published b p bytes hc]
      exact (h.with_content _).breakOff hp

/-- Whatever happens to the pump, phase, consumers and pump go on fitting together. -/
theorem pumpMove (h : Consistent b) {p : Pump} (hp : b.pump = some p) {event : PumpEvent}
    {r : Buffer × List Notice} (move : PumpMove b p event r) : Consistent r.1 := by
  cases move with
  | ignores => exact h
  | starts stage => exact h.with_pump hp (by rw [stage]; rfl) rfl
  | breaksCall stage => exact h.breakOff hp
  | opens stage asked =>
      exact (h.with_pump (q := { p with stage := .reading, confirmation := .fresh }) hp
        (by rw [stage]; rfl) rfl).with_content _
  | failsToOpen cause stage asked => exact h.failOpen hp (by rw [stage]; rfl) cause
  | breaksOpening stage asked => exact h.breakOff hp
  | ends stage asked =>
      rw [reachEnd_eq]
      exact (h.with_end hp (by rw [stage]; rfl) asked b.content none).with_calls _
  | takes bytes nonempty stage asked fits => exact h.take hp bytes
  | fails cause stage asked =>
      rw [fail_eq]
      exact (h.with_end hp (by rw [stage]; rfl) asked _ _).with_calls _
  | breaksReading stage asked => exact h.breakOff hp
  | stops stage asked =>
      rw [stop_eq]
      exact (h.with_pump_over (q := { p with stage := .ended false, settled := true }) hp rfl
        rfl).with_calls _

/-- Whatever the watch does, phase, consumers and pump go on fitting together. -/
theorem watchMove (h : Consistent b) {p : Pump} (hp : b.pump = some p)
    {r : Buffer × List Notice} (move : WatchMove b p r) : Consistent r.1 := by
  cases move with
  | waits confirmation watched still => exact h.with_pump hp rfl rfl
  | settles result watched reason =>
      exact (h.with_pump (q := { p with confirmation := .over, settled := true }) hp rfl
        rfl).with_calls _

/-- The last release closes a buffer that streams or has finished, and asks its pump to end. -/
theorem last_release (h : Consistent b) {p : Pump} (hp : b.pump = some p)
    (held : b.pumpHeld = true) (calls : CallTable BufferCall) :
    Consistent { b with
      refs := 0
      phase := b.phase.afterLastRelease
      pumpHeld := false
      pump := some { p with releaseAsked := true }
      calls } := by
  have hne : b.phase ≠ .idle := fun hi => by simp [h.disengaged (.inl hi)] at held
  have closed : b.phase.afterLastRelease = .closed := by
    cases hphase : b.phase <;> first | exact absurd hphase hne | rfl
  refine ⟨?_, by simp [closed], fun _ => rfl, ?_⟩
  · rintro _ ⟨⟩ _
    exact closed
  · intro failed
    obtain ⟨-, q, hq, gone⟩ := h.failed failed
    rw [hp, Option.some.injEq] at hq
    exact ⟨by simp [closed], _, rfl, hq ▸ gone⟩

/-- The last release of a buffer without a pump to end only changes the phase. -/
theorem last_release_unheld (h : Consistent b) (held : b.pumpHeld = false) :
    Consistent { b with refs := 0, phase := b.phase.afterLastRelease } := by
  have kept : b.phase.afterLastRelease = b.phase := by
    cases hphase : b.phase with
    | idle => rfl
    | streaming => simp [(h.engaged (.inl hphase)).2.1] at held
    | finished => simp [(h.engaged (.inr hphase)).2.1] at held
    | closed => rfl
  have hn : ¬(b.phase = .streaming ∨ b.phase = .finished) := by
    intro hp
    simp [(h.engaged hp).2.1] at held
  refine ⟨?_, ?_, fun _ => held, ?_⟩
  · intro p hp hs
    simpa [kept] using h.running p hp hs
  · intro hp
    rw [kept] at hp
    exact absurd hp hn
  · intro hf
    simpa [kept] using h.failed hf

/-- Whatever a call does, phase, consumers and pump go on fitting together. -/
theorem callMove (h : Consistent b) {event : Event} {r : Buffer × List Notice}
    (move : CallMove b event r) : Consistent r.1 := by
  cases move with
  | joins call shared => exact h.with_refs _ (Nat.succ_pos _)
  | starts call unused idle =>
      have hf : b.failure = none := by
        by_contra hne
        exact (h.failed hne).1 idle
      constructor <;> simp [hf]
  | retains used => exact h.with_refs _ (Nat.succ_pos _)
  | refuses unused => exact h
  | releasesNothing call unused => exact h
  | releasesOne call refs shared => exact h.with_refs _ (Nat.succ_pos _)
  | leaves call last free =>
      -- A buffer that streams or has finished has a pump to end, so this one does neither.
      refine h.last_release_unheld ?_
      by_contra held
      rw [Bool.not_eq_false] at held
      have phase : b.phase = .streaming ∨ b.phase = .finished := by
        cases hphase : b.phase <;> simp_all [h.disengaged]
      obtain ⟨-, -, p, hp, -⟩ := h.engaged phase
      simp [held, hp] at free
  | leavesEnded call p panicked last held pump stage => exact h.last_release pump held _
  | leavesRunning call p last held pump stage => exact h.last_release pump held _
  | abandons call => exact h.with_calls _

/-- Nothing that can happen to a buffer brings its phase and its pump apart. -/
theorem apply (h : Consistent b) (now : Nat) (event : Event) :
    Consistent (b.apply now event).1 := by
  rcases apply_cases b now event with ⟨-, same⟩ | move | ⟨p, hp, ⟨done, -, move⟩ | ⟨-, move⟩⟩
  · rw [same]
    exact h
  · exact h.callMove move
  · exact h.pumpMove hp move
  · exact h.watchMove hp move

end Consistent

/-- Whether the pump of a buffer that is not idle is over: then it stays so. -/
def IsDone (b : Buffer) : Prop := b.phase ≠ .idle ∧ ∃ p, b.pump = some p ∧ p.stage.isOver = true

/-- Once the pump is over, content, failure and the end of the pump are there to stay. -/
theorem IsDone.apply {b : Buffer} (h : b.IsDone) (now : Nat) (event : Event) :
    (b.apply now event).1.IsDone ∧ (b.apply now event).1.content = b.content ∧
      (b.apply now event).1.failure = b.failure := by
  obtain ⟨idle, p, hp, gone⟩ := h
  have left : b.phase.afterLastRelease ≠ .idle := by
    cases hphase : b.phase <;> simp_all [Phase.afterLastRelease]
  rcases apply_cases b now event with ⟨-, same⟩ | move | ⟨q, hq, ⟨done, -, move⟩ | ⟨-, move⟩⟩
  · rw [same]
    exact ⟨⟨idle, p, hp, gone⟩, rfl, rfl⟩
  · generalize b.apply now event = r at move
    cases move with
    | starts call unused hidle => exact absurd hidle idle
    | joins | retains | refuses | releasesNothing | releasesOne | abandons =>
        exact ⟨⟨idle, p, hp, gone⟩, rfl, rfl⟩
    | leaves => exact ⟨⟨left, p, hp, gone⟩, rfl, rfl⟩
    | leavesEnded call q panicked last held hq stage =>
        exact ⟨⟨left, _, rfl, by rw [stage]; rfl⟩, rfl, rfl⟩
    | leavesRunning call q last held hq stage =>
        rw [hp, Option.some.injEq] at hq
        rw [← hq, gone] at stage
        cases stage
  · rw [hp, Option.some.injEq] at hq
    subst hq
    rw [move.of_isOver gone]
    exact ⟨⟨idle, p, hp, gone⟩, rfl, rfl⟩
  · rw [hp, Option.some.injEq] at hq
    subst hq
    generalize b.apply now event = r at move
    cases move with
    | waits => exact ⟨⟨idle, _, rfl, gone⟩, rfl, rfl⟩
    | settles => exact ⟨⟨idle, _, rfl, gone⟩, rfl, rfl⟩

end CachedStreams.Buffer
