import CachedStreams.Proofs.Stream.Phases

/-!
# The stages of a pump

`Buffer.StageMove` says how the stage of a buffer's pump can change, who asks for the stream to be
opened and when an open stream is let go. A pump goes from `starting` to `opening` to `reading`, and
it can end from each of these; another pump starts only in an idle buffer. `Buffer.stageMove_apply`
reads this off the moves of a buffer, panics included.
-/

set_option autoImplicit false

namespace CachedStreams.Buffer

namespace Notice

/-- Whether a notice says that the stream is asked for. -/
@[reducible] def isOpenCalled : Notice → Bool
  | openCalled => true
  | _ => false

/-- Whether a notice says that the reader is dropped. -/
@[reducible] def isReaderDropped : Notice → Bool
  | readerDropped => true
  | _ => false

/-- Whether a notice says that a piece has arrived. -/
@[reducible] def isArrived : Notice → Bool
  | arrived => true
  | _ => false

/-- Whether a notice tells a call that the stream could not be opened. -/
@[reducible] def isOpenError : Notice → Bool
  | answered _ (.error (.openFailed _)) => true
  | _ => false

/-- Whether a notice tells a consumer that it has been registered beside others. -/
@[reducible] def isRetained : Notice → Bool
  | retained registered => registered
  | _ => false

/-- A stream is let go among some notices if one of them counts as such. -/
theorem readerDropped_mem_iff {ns : List Notice} :
    readerDropped ∈ ns ↔ 0 < ns.countP isReaderDropped := by
  rw [List.countP_pos_iff]
  constructor
  · exact fun member => ⟨_, member, rfl⟩
  · rintro ⟨notice, member, dropped⟩
    cases notice with
    | readerDropped => exact member
    | _ => cases dropped

/-- No stream is let go among some notices if none of them counts as such. -/
theorem readerDropped_not_mem_iff {ns : List Notice} :
    readerDropped ∉ ns ↔ ns.countP isReaderDropped = 0 := by
  rw [readerDropped_mem_iff, Nat.pos_iff_ne_zero, not_not]

end Notice

section

variable (b : Buffer) (p : Pump)

/-- A verdict makes nothing known but the answer of the opener. -/
@[simp] theorem countP_verdict {f : Notice → Bool} {result : Except StreamError Unit}
    (none_ : f (.answered p.opener result) = false) : (b.verdict p result).countP f = 0 := by
  unfold verdict
  split
  · simp [none_]
  · rfl

/-- The end of a pump makes nothing known but that, and the answers of those who waited for it. -/
@[simp] theorem countP_ending {f : Notice → Bool} {calls : CallTable BufferCall} {panicked : Bool}
    (ended : f .pumpEnded = false)
    (none_ : ∀ call, f (.answered call (releaseResult panicked)) = false) :
    (ending calls panicked).countP f = 0 := by
  rw [List.countP_eq_zero]
  intro notice member
  simp only [ending, List.mem_cons, List.mem_map] at member
  rcases member with rfl | ⟨call, -, rfl⟩
  · simp [ended]
  · simp [none_]

/-- A piece that is shown makes nothing known but what the transform was given. -/
@[simp] theorem countP_shown {f : Notice → Bool} {bytes : List UInt8}
    (none_ : ∀ length fresh, f (.transformed length fresh) = false) :
    (b.shown bytes).countP f = 0 := by
  unfold shown
  split
  · simp [none_]
  · rfl

/-- A pump that is over has let go of nothing but its stream. -/
@[simp] theorem countP_dropped {f : Notice → Bool} (none_ : f .readerDropped = false) :
    (dropped p).countP f = 0 := by
  unfold dropped
  split
  · simp [none_]
  · rfl

end

/-- Only a pump that reads has a stream to let go. -/
@[simp] theorem countP_isReaderDropped_dropped (p : Pump) :
    (dropped p).countP Notice.isReaderDropped = if p.stage = .reading then 1 else 0 := by
  unfold dropped
  split <;> rfl

/-- The answer of a release does not say that the stream could not be opened. -/
@[simp] theorem isOpenError_releaseResult (call : CallId) (panicked : Bool) :
    Notice.isOpenError (.answered call (releaseResult panicked)) = false := by
  cases panicked <;> rfl

/-- Whether an event is that a consumer closes the buffer. -/
def Event.isRelease : Event → Bool
  | .release _ => true
  | _ => false

/-- Why a pump ends at a stage. -/
inductive EndCause (b : Buffer) : PumpEvent → PumpStage → Prop where
  | asked (p : Pump) (pump : b.pump = some p) (asked : p.releaseAsked = true) (stage : PumpStage)
    (called : stage = .opening ∨ stage = .reading) : EndCause b .releaseSeen stage
  /-- The call for the stream panicked. -/
  | callBroke : EndCause b .openPanicked .starting
  | openFailed (cause : IoError) : EndCause b (.openFailed cause) .opening
  | openBroke : EndCause b .openPanicked .opening
  | streamEnded : EndCause b (.received []) .reading
  | readFailed (cause : IoError) : EndCause b (.readFailed cause) .reading
  | readBroke : EndCause b .readPanicked .reading
  | transformBroke (bytes : List UInt8)
    (unpublished : (b.content.commit b.transform bytes).2 = false) :
    EndCause b (.received bytes) .reading

/-- The ways in which the stage of a pump can change, and what becomes known then. -/
inductive StageMove (b : Buffer) : Event → Buffer × List Notice → Prop where
  | stays {event : Event} {r : Buffer × List Notice} (stage : r.1.stage? = b.stage?)
    (phase : r.1.phase = b.phase ∨
      event.isRelease = true ∧ b.refs = 1 ∧ r.1.refs = 0 ∧
        r.1.phase = b.phase.afterLastRelease)
    (called : r.2.countP Notice.isOpenCalled = 0)
    (dropped : r.2.countP Notice.isReaderDropped = 0) : StageMove b event r
  | starts {call : CallId} {r : Buffer × List Notice} (idle : b.phase = .idle)
    (stage : r.1.stage? = some .starting) (called : r.2.countP Notice.isOpenCalled = 0)
    (dropped : r.2.countP Notice.isReaderDropped = 0) : StageMove b (.join call) r
  | calls {r : Buffer × List Notice} (before : b.stage? = some .starting)
    (stage : r.1.stage? = some .opening) (phase : r.1.phase = b.phase)
    (called : r.2.countP Notice.isOpenCalled = 1)
    (dropped : r.2.countP Notice.isReaderDropped = 0) : StageMove b (.pump .started) r
  | opens {r : Buffer × List Notice} (before : b.stage? = some .opening)
    (unasked : ∀ p, b.pump = some p → p.releaseAsked = false)
    (stage : r.1.stage? = some .reading) (phase : r.1.phase = b.phase)
    (called : r.2.countP Notice.isOpenCalled = 0)
    (dropped : r.2.countP Notice.isReaderDropped = 0) : StageMove b (.pump .opened) r
  /-- Only the end of a pump lets an open stream go. A pump that ends in its first run has called
  for the stream. -/
  | ends {event : PumpEvent} {r : Buffer × List Notice} (stage : PumpStage) (panicked : Bool)
    (running : stage.isOver = false) (before : b.stage? = some stage)
    (after : r.1.stage? = some (.ended panicked))
    (phase : stage = .reading → b.phase ≠ .idle → r.1.phase ≠ .idle)
    (called : r.2.countP Notice.isOpenCalled = if stage = .starting then 1 else 0)
    (dropped : r.2.countP Notice.isReaderDropped = if stage = .reading then 1 else 0)
    (cause : EndCause b event stage) : StageMove b (.pump event) r

/-- Of the calls only one that starts a pump concerns its stage. -/
theorem stageMove_callMove {b : Buffer} {event : Event} {r : Buffer × List Notice}
    (move : CallMove b event r) : StageMove b event r := by
  cases move with
  | starts call unused idle => exact .starts idle rfl rfl rfl
  | retains | refuses => exact .stays rfl (.inl rfl) rfl rfl
  | joins | releasesNothing | releasesOne | abandons => exact .stays rfl (.inl rfl) rfl rfl
  | leaves call last => exact .stays rfl (.inr ⟨rfl, last, rfl, rfl⟩) rfl rfl
  | leavesEnded call p panicked last held pump stage =>
      exact .stays (by simp [stage?, pump]) (.inr ⟨rfl, last, rfl, rfl⟩) rfl rfl
  | leavesRunning call p last held pump stage =>
      exact .stays (by simp [stage?, pump]) (.inr ⟨rfl, last, rfl, rfl⟩) rfl rfl

/-- A pump that breaks off ends, and lets its stream go. -/
theorem stageMove_breakOff {b c : Buffer} {p : Pump} (hp : b.pump = some p)
    (running : p.stage.isOver = false) (phase : c.phase = b.phase) (front : List Notice)
    (called : front.countP Notice.isOpenCalled = if p.stage = .starting then 1 else 0)
    (dropped : front.countP Notice.isReaderDropped = 0) {event : PumpEvent}
    (cause : EndCause b event p.stage) :
    StageMove b (.pump event) ((c.breakOff p).1, front ++ (c.breakOff p).2) := by
  rw [breakOff_eq]
  have before : b.stage? = some p.stage := by simp [stage?, hp]
  refine .ends p.stage true running before rfl (fun _ idle => phase ▸ idle) ?_ ?_ cause
  · cases isLastWord p true <;> simp [called]
  · cases isLastWord p true <;> simp [dropped]

/-- Whatever happens to a pump keeps its stage, moves it on, or ends it. -/
theorem stageMove_pumpMove {b : Buffer} {p : Pump} (hp : b.pump = some p) {event : PumpEvent}
    {r : Buffer × List Notice} (move : PumpMove b p event r) : StageMove b (.pump event) r := by
  have before : b.stage? = some p.stage := by simp [stage?, hp]
  have unasked : p.releaseAsked = false → ∀ q, b.pump = some q → q.releaseAsked = false := by
    intro asked q hq
    rw [hp, Option.some.injEq] at hq
    exact hq ▸ asked
  cases move with
  | ignores => exact .stays rfl (.inl rfl) rfl rfl
  | starts stage => exact .calls (before.trans (congrArg _ stage)) rfl rfl rfl rfl
  | breaksCall stage =>
      exact stageMove_breakOff hp (by rw [stage]; rfl) rfl [.openCalled] (by rw [stage]; rfl) rfl
        (stage ▸ .callBroke)
  | opens stage asked =>
      exact .opens (before.trans (congrArg _ stage)) (unasked asked) rfl rfl rfl rfl
  | failsToOpen cause stage asked =>
      rw [failOpen_eq]
      rw [stage] at before
      refine .ends .opening false rfl before rfl ?_ (by simp) (by simp) (.openFailed cause)
      intro h
      cases h
  | breaksOpening stage asked =>
      exact stageMove_breakOff hp (by rw [stage]; rfl) rfl [] (by simp [stage]) rfl
        (stage ▸ .openBroke)
  | ends stage asked =>
      rw [reachEnd_eq]
      rw [stage] at before
      refine .ends .reading false rfl before rfl ?_ (by simp) (by simp) .streamEnded
      intro _ idle
      dsimp only
      split
      · simp
      · exact idle
  | takes bytes nonempty stage asked fits =>
      cases hc : (b.content.commit b.transform bytes).2 with
      | true =>
          rw [take_of_published b p bytes hc]
          exact .stays before.symm (.inl rfl) (by simp) (by simp)
      | false =>
          rw [take_of_not_published b p bytes hc]
          have cause : EndCause b (.received bytes) p.stage := stage ▸ .transformBroke bytes hc
          exact stageMove_breakOff (c := { b with content := (b.content.commit _ bytes).1 }) hp
            (by rw [stage]; rfl) rfl (b.shown bytes) (by simp [stage]) (by simp) cause
  | fails cause stage asked =>
      rw [fail_eq]
      rw [stage] at before
      refine .ends .reading false rfl before rfl ?_ (by simp) (by simp) (.readFailed cause)
      intro _ idle
      dsimp only
      split
      · simp
      · exact idle
  | breaksReading stage asked =>
      exact stageMove_breakOff hp (by rw [stage]; rfl) rfl [] (by simp [stage]) rfl
        (stage ▸ .readBroke)
  | stops stage asked =>
      rw [stop_eq]
      have called : p.stage ≠ .starting := by rcases stage with h | h <;> simp [h]
      exact .ends p.stage false (isOver_of_stops stage) before rfl (fun _ idle => idle)
        (by simp [called]) (by simp) (.asked p hp asked p.stage stage)

/-- Whatever happens to a buffer changes the stage of its pump in one of these ways. -/
theorem stageMove_apply (b : Buffer) (now : Nat) (event : Event) :
    StageMove b event (b.apply now event) := by
  rcases apply_cases b now event with ⟨-, same⟩ | move | ⟨p, hp, ⟨done, rfl, move⟩ | ⟨-, move⟩⟩
  · rw [same]
    exact .stays rfl (.inl rfl) rfl rfl
  · exact stageMove_callMove move
  · exact stageMove_pumpMove hp move
  · generalize b.apply now event = r at move ⊢
    cases move with
    | waits => exact .stays (by simp [stage?, hp]) (.inl rfl) rfl rfl
    | settles => exact .stays (by simp [stage?, hp]) (.inl rfl) (by simp) (by simp)

/-- An open stream is let go only by a pump that ends while it reads. -/
theorem ends_of_readerDropped {b : Buffer} {now : Nat} {event : Event}
    (member : Notice.readerDropped ∈ (b.apply now event).2) :
    b.stage? = some .reading ∧ ∃ cause, event = .pump cause ∧ EndCause b cause .reading := by
  have pos := Notice.readerDropped_mem_iff.mp member
  have move := stageMove_apply b now event
  generalize b.apply now event = r at move pos
  cases move with
  | stays stage phase called dropped => simp [dropped] at pos
  | starts idle stage called dropped => simp [dropped] at pos
  | calls before stage phase called dropped => simp [dropped] at pos
  | opens before unasked stage phase called dropped => simp [dropped] at pos
  | ends stage panicked running before after phase called dropped cause =>
      have reading : stage = .reading := by
        by_contra other
        simp [dropped, other] at pos
      subst reading
      exact ⟨before, _, rfl, cause⟩

/-- A buffer whose pump runs and has not been asked to end is not closed. -/
theorem unclosed_of_unasked {b : Buffer} (h : b.Consistent) {stage : PumpStage}
    (before : b.stage? = some stage) (running : stage.isOver = false)
    (unasked : ∀ p, b.pump = some p → p.releaseAsked = false) : b.phase ≠ .closed := by
  intro closed
  unfold stage? at before
  cases hp : b.pump with
  | none => simp [hp] at before
  | some p =>
      rw [hp, Option.map_some, Option.some.injEq] at before
      have asked := h.asked_of_closed closed hp (by rw [before]; exact running)
      rw [unasked p hp] at asked
      cases asked

/-- A closed buffer stays closed. -/
theorem closed_apply {b : Buffer} (h : b.Consistent) (closed : b.phase = .closed) (now : Nat)
    (event : Event) : (b.apply now event).1.phase = .closed := by
  rcases apply_cases b now event with ⟨-, same⟩ | move | ⟨p, hp, ⟨done, -, move⟩ | ⟨-, move⟩⟩
  · rw [same]
    exact closed
  · generalize b.apply now event = r at move
    cases move with
    | starts call unused idle => simp [closed] at idle
    | leaves | leavesEnded | leavesRunning => simp [closed, Phase.afterLastRelease]
    | _ => exact closed
  · -- The pump of a closed buffer has been asked to end: it calls for its stream at most.
    rcases move.of_asked (h.asked_of_closed closed hp) with same | stops | ⟨-, calls | breaks⟩
    · rw [same]
      exact closed
    · rw [stops, stop_eq]
      exact closed
    · rw [calls]
      exact closed
    · rw [breaks, breakOff_eq]
      exact closed
  · generalize b.apply now event = r at move
    cases move <;> exact closed

/-- Whether a pump has been started and is not over. -/
def isPumping (b : Buffer) : Bool :=
  match b.stage? with
  | some stage => !stage.isOver
  | none => false

/-- A buffer pumps if it has a pump that is not over. -/
theorem isPumping_eq_true_iff {b : Buffer} :
    b.isPumping = true ↔ ∃ p, b.pump = some p ∧ p.stage.isOver = false := by
  unfold isPumping stage?
  cases b.pump with
  | none => simp
  | some p => simp

/-- Whether the stream has been obtained and no other can be. -/
def HasRead (b : Buffer) : Prop :=
  b.phase ≠ .idle ∧ (b.stage? = some .reading ∨ ∃ panicked, b.stage? = some (.ended panicked))

/-- A buffer that was not idle is not idle after its last release. -/
theorem afterLastRelease_ne_idle {phase : Phase} (h : phase ≠ .idle) :
    phase.afterLastRelease ≠ .idle := by
  cases phase <;> simp_all [Phase.afterLastRelease]

/-- An idle buffer has no stream, and none is being opened. -/
theorem stage?_ne_opening_of_idle {b : Buffer} (h : b.Consistent) (idle : b.phase = .idle) :
    b.stage? ≠ some .opening ∧ b.stage? ≠ some .reading := by
  unfold stage?
  cases hp : b.pump with
  | none => simp
  | some p =>
      have gone := h.isOver_of_idle idle hp
      cases hs : p.stage <;> simp_all [PumpStage.isOver]

/-- Once the stream has been obtained, no other ever can be. -/
theorem HasRead.stageMove {b : Buffer} (h : b.HasRead) {event : Event}
    {r : Buffer × List Notice} (move : StageMove b event r) : r.1.HasRead := by
  obtain ⟨idle, read⟩ := h
  cases move with
  | stays stage phase called dropped =>
      refine ⟨?_, stage ▸ read⟩
      rcases phase with same | left
      · exact same ▸ idle
      · exact left.2.2.2 ▸ afterLastRelease_ne_idle idle
  | starts hidle => exact absurd hidle idle
  | calls before => simp [before] at read
  | opens before => simp [before] at read
  | ends stage panicked running before after phase =>
      have reading : stage = .reading := by
        rcases read with now_ | ⟨panicked', gone⟩
        · exact Option.some.inj (before.symm.trans now_)
        · rw [before, Option.some.injEq] at gone
          rw [gone] at running
          cases running
      exact ⟨phase reading idle, .inr ⟨panicked, after⟩⟩

end CachedStreams.Buffer
