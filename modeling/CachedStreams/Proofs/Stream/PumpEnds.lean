import CachedStreams.Proofs.Stream.Answers
import CachedStreams.Proofs.Stream.Lifecycle

/-!
# The end of a pump

A pump runs until its stream ends, or until a release asks it to end and it sees that. Who asks
waits for the end (`Buffer.AwaitsEnd`), so somebody waits for every pump that has been asked to end
and still runs, unless whoever asked is given up (`Buffer.EndAwaited`). Nothing but a release asks a
pump to end (`Buffer.pump_apply`).
-/

set_option autoImplicit false

namespace CachedStreams

namespace Buffer

/-- Whether the pump runs and nobody has asked it to end. -/
def runsUnasked (b : Buffer) : Bool :=
  match b.pump with
  | some p => !p.stage.isOver && !p.releaseAsked
  | none => false

/-- A buffer runs unasked if its pump runs and has not been asked to end. -/
theorem runsUnasked_eq_true_iff {b : Buffer} : b.runsUnasked = true ↔
    ∃ p, b.pump = some p ∧ p.stage.isOver = false ∧ p.releaseAsked = false := by
  unfold runsUnasked
  cases b.pump <;> simp

/-- Whether the pump has been asked to end and still runs. -/
def isEnding (b : Buffer) : Bool :=
  match b.pump with
  | some p => !p.stage.isOver && p.releaseAsked
  | none => false

/-- A buffer is ending if its pump runs and has been asked to end. -/
theorem isEnding_eq_true_iff {b : Buffer} : b.isEnding = true ↔
    ∃ p, b.pump = some p ∧ p.stage.isOver = false ∧ p.releaseAsked = true := by
  unfold isEnding
  cases b.pump <;> simp

/-- A call waits for the end of a pump that has been asked to end and still runs. -/
structure AwaitsEnd (b : Buffer) (call : CallId) : Prop where
  waits : b.calls.find? call = some .pumpEnd
  ending : b.isEnding = true

/-- Somebody waits for the end of a pump that has been asked to end and still runs. -/
def EndAwaited (b : Buffer) : Prop :=
  ∀ p, b.pump = some p → p.stage.isOver = false → p.releaseAsked = true →
    ∃ call, b.calls.find? call = some .pumpEnd

section

variable {b : Buffer} {now : Nat} {call : CallId} {event : Event}

/-! ## What becomes of a pump -/

/-- Only the first of its consumers starts a pump, and only a release asks it to end. -/
theorem pump_apply (other : event.isJoin = false) {q : Pump}
    (after : (b.apply now event).1.pump = some q) : ∃ p, b.pump = some p ∧
      (q.stage.isOver = false → p.stage.isOver = false) ∧
      (event.isRelease = false → q.releaseAsked = p.releaseAsked) := by
  have kept : b.pump = some q → ∃ p, b.pump = some p ∧
      (q.stage.isOver = false → p.stage.isOver = false) ∧
      (event.isRelease = false → q.releaseAsked = p.releaseAsked) := fun same =>
    ⟨q, same, id, fun _ => rfl⟩
  rcases apply_cases b now event with ⟨-, same⟩ | move | ⟨p, hp, ⟨done, rfl, move⟩ | ⟨-, move⟩⟩
  · rw [same] at after
    exact kept after
  · generalize b.apply now event = r at move after
    cases move with
    | joins | starts => cases other
    | retains | refuses | releasesNothing | releasesOne | leaves | abandons => exact kept after
    | leavesEnded call p panicked last held pump stage =>
        cases after
        exact ⟨p, pump, id, nofun⟩
    | leavesRunning call p last held pump stage =>
        cases after
        exact ⟨p, pump, id, nofun⟩
  · generalize b.apply now (.pump done) = r at move after
    cases move with
    | ignores => exact kept after
    | starts stage | opens stage =>
        cases after
        exact ⟨p, hp, fun _ => by rw [stage]; rfl, fun _ => rfl⟩
    | takes bytes nonempty stage asked fits =>
        refine ⟨p, hp, fun _ => by rw [stage]; rfl, fun _ => ?_⟩
        cases published : (b.content.commit b.transform bytes).2 with
        | true =>
            rw [take_of_published b p bytes published] at after
            cases after
            rfl
        | false =>
            rw [take_of_not_published b p bytes published, breakOff_eq] at after
            cases after
            rfl
    | failsToOpen | breaksCall | breaksOpening | ends | fails | breaksReading | stops =>
        simp only [failOpen_eq, breakOff_eq, reachEnd_eq, fail_eq, stop_eq,
          Option.some.injEq] at after
        subst after
        exact ⟨p, hp, nofun, fun _ => rfl⟩
  · generalize b.apply now event = r at move after
    cases move <;> cases after <;> exact ⟨p, hp, id, fun _ => rfl⟩

/-- Only a call for the stream starts a pump. -/
theorem isPumping_of_apply (other : event.isJoin = false)
    (after : (b.apply now event).1.isPumping = true) : b.isPumping = true := by
  obtain ⟨q, pump, running⟩ := isPumping_eq_true_iff.mp after
  obtain ⟨p, hp, ran, -⟩ := pump_apply other pump
  exact isPumping_eq_true_iff.mpr ⟨p, hp, ran running⟩

/-- A bad verdict comes with the end of the pump, or after it. -/
theorem over_of_error (calm : event.isCall = false) {call : CallId} {e : StreamError}
    (told : .error e ∈ answersTo call (b.apply now event).2) :
    (b.apply now event).1.isPumping = false := by
  have ended : ∀ {c : Buffer} {p : Pump}, c.pump = some p → p.stage.isOver = true →
      c.isPumping = false := fun pump isOver => by simp [isPumping, stage?, pump, isOver]
  rcases apply_cases b now event with ⟨-, same⟩ | move | ⟨p, hp, ⟨done, rfl, move⟩ | ⟨-, move⟩⟩
  · rw [same] at told
    cases told
  · generalize b.apply now event = r at move
    cases move <;> cases calm
  · generalize b.apply now (.pump done) = r at move told
    cases move with
    | ignores | starts | opens => cases told
    | takes bytes =>
        cases published : (b.content.commit b.transform bytes).2 with
        | true =>
            rw [take_of_published b p bytes published, answersTo_append, answersTo_shown] at told
            exact absurd told List.not_mem_nil
        | false =>
            rw [take_of_not_published b p bytes published, breakOff_eq]
            exact ended rfl rfl
    | failsToOpen | breaksCall | breaksOpening | ends | fails | breaksReading | stops =>
        simp only [failOpen_eq, breakOff_eq, reachEnd_eq, fail_eq, stop_eq]
        exact ended rfl rfl
  · generalize b.apply now event = r at move told
    cases move with
    | waits => cases told
    | settles result watched reason =>
        rw [answersTo_verdict] at told
        split at told
        · obtain rfl := List.mem_singleton.mp told
          rcases reason with ok | ⟨-, stage⟩
          · cases ok
          · exact ended rfl (by simp [stage, PumpStage.isOver])
        · cases told

/-! ## Who waits for the end -/

/-- Whoever waits for the end of a pump is told of it. -/
theorem answersTo_ending_of_find? {calls : CallTable BufferCall} {panicked : Bool}
    (waits : calls.find? call = some .pumpEnd) : answersTo call (ending calls panicked) ≠ [] := by
  have waiting := (mem_awaitingEnd call).mpr (CallTable.mem_rows_of_find? waits)
  intro none_
  have silent := List.filterMap_eq_nil_iff.mp none_ (.answered call (releaseResult panicked))
    (List.mem_cons_of_mem _ (List.mem_map_of_mem waiting))
  simp at silent

/-- Who waits for the end of a pump does not wait for its verdict. -/
theorem find?_callsAfterVerdict {p : Pump} (waits : b.calls.find? call = some .pumpEnd) :
    (b.callsAfterVerdict p).find? call = some .pumpEnd := by
  unfold callsAfterVerdict
  split
  · rename_i awaited
    have apart : call ≠ p.opener := by
      rintro rfl
      simp [isAwaited, waits] at awaited
    exact (CallTable.find?_erase_of_ne _ apart).trans waits
  · exact waits

/-- Whoever waits for the end of a pump still does when its verdict has been delivered. -/
theorem find?_callsAtEnd {p : Pump} {panicked : Bool}
    (waits : b.calls.find? call = some .pumpEnd) :
    (b.callsAtEnd p panicked).find? call = some .pumpEnd := by
  unfold callsAtEnd
  split
  · exact find?_callsAfterVerdict waits
  · exact waits

/-- It waits until the pump sees that it is to end, or breaks off as it calls for its stream, and is
answered then. -/
theorem AwaitsEnd.apply (awaits : b.AwaitsEnd call) (other : event.isJoin = false)
    (kept : event ≠ .abandon call) : (b.apply now event).1.AwaitsEnd call ∨
      event.isPump = true ∧ (b.apply now event).1.isPumping = false ∧
        answersTo call (b.apply now event).2 ≠ [] := by
  obtain ⟨waits, ending⟩ := awaits
  obtain ⟨p, pump, running, asked⟩ := isEnding_eq_true_iff.mp ending
  rcases apply_cases b now event with ⟨-, same⟩ | move | ⟨q, hq, ⟨done, rfl, move⟩ | ⟨-, move⟩⟩
  · rw [same]
    exact .inl ⟨waits, ending⟩
  · generalize b.apply now event = r at move
    cases move with
    | joins | starts => cases other
    | retains | refuses | releasesNothing | releasesOne | leaves =>
        exact .inl ⟨waits, ending⟩
    | leavesEnded name q panicked last held present stage =>
        obtain rfl := Option.some.inj (pump.symm.trans present)
        simp [stage, PumpStage.isOver] at running
    | leavesRunning name q last held present stage =>
        refine .inl ⟨?_, isEnding_eq_true_iff.mpr ⟨_, rfl, stage, rfl⟩⟩
        by_cases own : call = name
        · rw [own]
          exact CallTable.find?_set_self _ _ _
        · exact (CallTable.find?_set_of_ne _ own _).trans waits
    | abandons name =>
        have apart : call ≠ name := fun same => kept (same ▸ rfl)
        exact .inl ⟨(CallTable.find?_erase_of_ne _ apart).trans waits, ending⟩
  · obtain rfl := Option.some.inj (pump.symm.trans hq)
    rcases move.of_asked fun _ => asked with same | stops | ⟨-, calls | breaks⟩
    · rw [same]
      exact .inl ⟨waits, ending⟩
    · rw [stops, stop_eq]
      refine .inr ⟨rfl, rfl, ?_⟩
      rw [answersTo_append]
      exact List.append_ne_nil_of_right_ne_nil _
        (answersTo_ending_of_find? (find?_callsAfterVerdict waits))
    · rw [calls]
      exact .inl ⟨waits, isEnding_eq_true_iff.mpr ⟨_, rfl, rfl, asked⟩⟩
    · rw [breaks, breakOff_eq]
      refine .inr ⟨rfl, rfl, ?_⟩
      simp only [answersTo_append]
      have answered : answersTo call (Buffer.ending (b.callsAtEnd p true) true) ≠ [] :=
        answersTo_ending_of_find? (find?_callsAtEnd waits)
      exact List.append_ne_nil_of_right_ne_nil _
        (List.append_ne_nil_of_right_ne_nil _ (List.append_ne_nil_of_right_ne_nil _ answered))
  · obtain rfl := Option.some.inj (pump.symm.trans hq)
    generalize b.apply now event = r at move
    have ends : ∀ {c : Buffer} {confirmation settled}, c.pump = some { p with
        confirmation := confirmation, settled := settled } → c.isEnding = true := fun same =>
      isEnding_eq_true_iff.mpr ⟨_, same, running, asked⟩
    cases move with
    | waits => exact .inl ⟨waits, ends rfl⟩
    | settles => exact .inl ⟨find?_callsAfterVerdict waits, ends rfl⟩

/-- A release that is not answered at once has asked a running pump to end. -/
theorem awaitsEnd_of_release (unanswered : answersTo call (b.apply now (.release call)).2 = []) :
    (b.apply now (.release call)).1.AwaitsEnd call := by
  have move := callMove_release b call
  simp only [Buffer.apply] at unanswered ⊢
  generalize b.release call = r at move unanswered
  cases move with
  | releasesNothing | releasesOne | leaves | leavesEnded => simp at unanswered
  | leavesRunning _ p last held pump stage =>
      exact ⟨CallTable.find?_set_self _ _ _, isEnding_eq_true_iff.mpr ⟨_, rfl, stage, rfl⟩⟩

/-- Who asks a pump to end waits for that, and goes on to wait until the pump is over. -/
theorem EndAwaited.apply (awaited : b.EndAwaited) (other : event.isJoin = false)
    (kept : ∀ call, event = .abandon call → b.calls.find? call ≠ some .pumpEnd) :
    (b.apply now event).1.EndAwaited := by
  intro q after running asked
  obtain ⟨p, pump, ran, same⟩ := pump_apply other after
  cases release : event.isRelease with
  | true =>
      cases event with
      | release name =>
          have move := callMove_release b name
          simp only [Buffer.apply] at after ⊢
          generalize b.release name = r at move after
          cases move with
          | releasesNothing | releasesOne | leaves => exact awaited q after running asked
          | leavesEnded _ _ _ _ _ _ stage =>
              cases after
              simp [stage, PumpStage.isOver] at running
          | leavesRunning => exact ⟨name, CallTable.find?_set_self _ _ _⟩
      | _ => cases release
  | false =>
      have asked' := (same release).symm.trans asked
      obtain ⟨name, waits⟩ := awaited p pump (ran running) asked'
      have awaits : b.AwaitsEnd name :=
        ⟨waits, isEnding_eq_true_iff.mpr ⟨p, pump, ran running, asked'⟩⟩
      rcases awaits.apply other fun gone => kept name gone waits with awaits | ⟨-, isOver, -⟩
      · exact ⟨name, awaits.waits⟩
      · have still := isPumping_eq_true_iff.mpr ⟨q, after, running⟩
        rw [isOver] at still
        cases still

end

end Buffer

end CachedStreams
