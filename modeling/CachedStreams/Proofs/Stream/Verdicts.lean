import CachedStreams.Proofs.Stream.Awaiting

/-!
# What the call that started a pump is told

The call that starts a pump is told once what became of it, whoever brings the verdict and whatever
else happens meanwhile: that the stream could not be opened, if that is so; that the pump broke off,
if it did so before the stream was open, or later and the watch, when it ran next, did not end with
a timer; and in all other cases that the buffer is ready. As soon as the pump and its watch are
over, the call has been told (`told_once`).

So a pump that breaks off before anybody has delivered the verdict is not always reported as such:
a watch that finds one of its timers out at the same time, and heeds that first, says that the
buffer is ready (`not_tellsOfPanics_of_timer_out`).
-/

set_option autoImplicit false

namespace CachedStreams.Buffer

/-- The stream of a pump that was not asked to end cannot be opened. -/
def OpeningFails (call : CallId) (cause : IoError) (t : Move Buffer Event Notice) : Prop :=
  t.event = .pump (.openFailed cause) ∧
    ∃ p, t.before.pump = some p ∧ p.opener = call ∧ p.stage = .opening ∧ p.releaseAsked = false

/-- A pump breaks off before anybody has delivered the verdict on it. -/
structure BreaksUnsettled (call : CallId) (t : Move Buffer Event Notice) : Prop where
  broke : ∃ cause, t.event = .pump cause ∧ BreaksOff t.before cause
  ends : EndsPump t
  pump : ∃ p, t.before.pump = some p ∧ p.opener = call ∧ p.settled = false

/-- Whether there is a watch that is not over. -/
def isWatched (b : Buffer) : Bool := b.pump.any (·.confirmation.isWatch)

/-- The watch runs and does not end with a timer: none is out, or it heeds the pump first, which is
gone. -/
def HeedsNoTimer (t : Move Buffer Event Notice) : Prop :=
  ∃ heeding p, t.event = .watch heeding ∧ t.before.pump = some p ∧
    ¬EndsByTimer t.before p t.now heeding

namespace History

/-- The stream of the pump that a call started could not be opened. -/
def OpenFailed (call : CallId) (cause : IoError) (h : History) : Prop :=
  ∃ t ∈ h, OpeningFails call cause t

/-- The pump that a call started broke off before there was a watch. -/
def BrokeUnwatched (call : CallId) (h : History) : Prop :=
  ∃ t ∈ h, BreaksUnsettled call t ∧ t.before.isWatched = false

/-- The pump that a call started broke off, and the watch has not run since. -/
def Unnoticed (call : CallId) (h : History) : Prop :=
  ∃ past t rest, h = past ++ t :: rest ∧
    (BreaksUnsettled call t ∧ t.before.isWatched = true) ∧
      ∀ v ∈ rest, ∀ heeding, v.event ≠ .watch heeding

/-- The watch, when it ran for the first time after the pump had broken off, did not end with a
timer. -/
def FoundBroken (call : CallId) (h : History) : Prop :=
  ∃ past w rest, h = past ++ w :: rest ∧ Unnoticed call past ∧ HeedsNoTimer w

variable {call : CallId} {cause : IoError} {h : History} {t : Move Buffer Event Notice}

/-- The stream could not be opened after a move if that was so before or is what the move is. -/
theorem openFailed_snoc :
    OpenFailed call cause (h ++ [t]) ↔ OpenFailed call cause h ∨ OpeningFails call cause t := by
  simp [OpenFailed, or_and_right, exists_or]

/-- The pump broke off unwatched after a move if it had done so before or does so in the move. -/
theorem brokeUnwatched_snoc :
    BrokeUnwatched call (h ++ [t]) ↔
      BrokeUnwatched call h ∨ BreaksUnsettled call t ∧ t.before.isWatched = false := by
  simp [BrokeUnwatched, or_and_right, exists_or]

/-- The panic is unnoticed after a move if that is the panic itself, or if it was unnoticed before
and the watch has not run. -/
theorem unnoticed_snoc :
    Unnoticed call (h ++ [t]) ↔
      BreaksUnsettled call t ∧ t.before.isWatched = true ∨
        Unnoticed call h ∧ ∀ heeding, t.event ≠ .watch heeding :=
  exists_last_snoc (P := fun (_ : History) u => BreaksUnsettled call u ∧ u.before.isWatched = true)
    (Q := fun v => ∀ heeding, v.event ≠ .watch heeding)

/-- The watch has found the pump broken after a move if it does so in the move or had done so
before. -/
theorem foundBroken_snoc :
    FoundBroken call (h ++ [t]) ↔ Unnoticed call h ∧ HeedsNoTimer t ∨ FoundBroken call h := by
  have last := exists_last_snoc (P := fun past w => Unnoticed call past ∧ HeedsNoTimer w)
    (Q := fun _ => True) (h := h) (t := t)
  simpa [FoundBroken] using last

end History

/-- What the moves that follow the beginning of a call tell it, and how they leave its buffer. -/
structure ToldOnce (call : CallId) (h : History) (b : Buffer) : Prop where
  /-- It is told at most one thing. -/
  once : (answersTo call (Machine.noticesOf h)).length ≤ 1
  openFailed : ∀ cause, .error (.openFailed cause) ∈ answersTo call (Machine.noticesOf h) ↔
    h.OpenFailed call cause
  panicked : .error .pumpPanicked ∈ answersTo call (Machine.noticesOf h) ↔
    h.BrokeUnwatched call ∨ h.FoundBroken call
  known : ∀ result ∈ answersTo call (Machine.noticesOf h), result = .ok () ∨
    result = .error .pumpPanicked ∨ ∃ cause, result = .error (.openFailed cause)
  /-- Once its pump and the watch for it are over, it has been told. -/
  due : (∀ p, b.pump = some p → p.opener = call →
    p.stage.isOver = true ∧ p.confirmation.isWatch = false) →
      (answersTo call (Machine.noticesOf h)).length = 1
  /-- If its pump is over and it has not been told, it will be when the watch runs. -/
  soon : ∀ p now heeding, b.pump = some p → p.opener = call → p.stage.isOver = true →
    answersTo call (Machine.noticesOf h) = [] →
      ∃ result, answersTo call (b.apply now (.watch heeding)).2 = [result]

namespace Awaiting

variable {call : CallId} {b : Buffer} {p q : Pump} {now : Nat} {event : Event} {arrived : Bool}

/-- Whether a call is watched is what its pump says. -/
theorem isWatched_eq (h : Awaiting call b p) : b.isWatched = p.confirmation.isWatch := by
  rw [isWatched, h.pump]
  rfl

/-- Whoever waits for a pump is told when its stream cannot be opened. -/
theorem answersTo_openFailed (h : Awaiting call b p) (stage : p.stage = .opening)
    (unasked : p.releaseAsked = false) (now : Nat) (cause : IoError) :
    answersTo call (b.apply now (.pump (.openFailed cause))).2 = [.error (.openFailed cause)] := by
  simp [Buffer.apply, h.pump, pumpStep, stage, unasked, failOpen_eq, h.answersTo_verdict,
    h.answersTo_ending_after]

/-- A call that goes on to wait has not been kept waiting by a stream that cannot be opened. -/
theorem not_openingFails (h : Awaiting call b p)
    (silent : answersTo call (b.apply now event).2 = []) (cause : IoError) :
    ¬OpeningFails call cause (Machine.move Buffer.apply b now event) := by
  rintro ⟨failed, q, hq, -, stage, unasked⟩
  obtain rfl := Option.some.inj (h.pump.symm.trans hq)
  obtain rfl : event = .pump (.openFailed cause) := failed
  rw [h.answersTo_openFailed stage unasked] at silent
  cases silent

/-- A pump that breaks off without an answer to its call was being read. -/
theorem reading_of_breaks (h : Awaiting call b p) (step : WaitStep b p now event arrived q)
    (next : Awaiting call (b.apply now event).1 q)
    (breaks : BreaksUnsettled call (Machine.move Buffer.apply b now event)) :
    p.stage = .reading ∧ q.stage = .ended true := by
  obtain ⟨p', hp', running⟩ := isPumping_eq_true_iff.mp breaks.ends.before
  obtain rfl := Option.some.inj (h.pump.symm.trans hp')
  have gone : q.stage.isOver = true := by
    by_contra on
    rw [Bool.not_eq_true] at on
    have pumping := isPumping_eq_true_iff.mpr ⟨q, next.pump, on⟩
    exact Bool.false_ne_true (breaks.ends.after.symm.trans pumping)
  cases step with
  | breaks cause stage => exact ⟨stage, rfl⟩
  | rests => simp [running] at gone
  | starts | opens => simp [PumpStage.isOver] at gone
  | takes bytes stage | watches heeding stage => simp [stage, PumpStage.isOver] at gone

/-- A pump that has broken off did so by this move, or before it and the watch has not run. -/
theorem broken_iff (h : Awaiting call b p) (step : WaitStep b p now event arrived q)
    (next : Awaiting call (b.apply now event).1 q) :
    q.stage = .ended true ↔
      BreaksUnsettled call (Machine.move Buffer.apply b now event) ∧ b.isWatched = true ∨
        p.stage = .ended true ∧ ∀ heeding, event ≠ .watch heeding := by
  constructor
  · intro broken
    cases step with
    | breaks cause stage unasked broke =>
        refine .inl ⟨⟨⟨cause, rfl, broke⟩, ⟨?_, ?_⟩, p, h.pump, h.opener, h.unsettled⟩, ?_⟩
        · exact isPumping_eq_true_iff.mpr ⟨p, h.pump, by rw [stage]; rfl⟩
        · have gone : (b.apply now (.pump cause)).1.isPumping = false := by
            simp [isPumping, stage?, next.pump, PumpStage.isOver]
          exact gone
        · rw [h.isWatched_eq]
          exact h.pending.isWatch (.inl stage)
    | rests event releaseAsked unwatched =>
        refine .inr ⟨broken, fun heeding watch => ?_⟩
        have watched := h.pending.isWatch (.inr broken)
        simp [unwatched heeding watch, Confirmation.isWatch] at watched
    | starts | opens => cases broken
    | takes bytes stage | watches heeding stage => cases stage.symm.trans broken
  · rintro (⟨breaks, -⟩ | ⟨broken, unwatched⟩)
    · exact (h.reading_of_breaks step next breaks).2
    · cases step with
      | rests => exact broken
      | breaks => rfl
      | watches heeding => exact absurd rfl (unwatched heeding)
      | starts stage | opens stage | takes bytes stage => cases stage.symm.trans broken

variable {result : Except StreamError Unit}

/-- The verdict is a failure to open exactly if the stream could not be opened. -/
theorem openFailed_iff (h : Awaiting call b p) (verdict : Verdict b p now event result)
    (cause : IoError) : result = .error (.openFailed cause) ↔
      OpeningFails call cause (Machine.move Buffer.apply b now event) := by
  constructor
  · intro same
    cases verdict with
    | openFailed cause' stage unasked =>
        cases same
        exact ⟨rfl, p, h.pump, h.opener, stage, unasked⟩
    | _ => cases same
  · rintro ⟨failed, -⟩
    obtain rfl : event = .pump (.openFailed cause) := failed
    cases verdict
    rfl

/-- A pump that broke off is reported when it does so before there is a watch, and else by a watch
that does not end with a timer. -/
theorem panicked_iff (h : Awaiting call b p) (verdict : Verdict b p now event result) :
    result = .error .pumpPanicked ↔
      BreaksUnsettled call (Machine.move Buffer.apply b now event) ∧ b.isWatched = false ∨
        p.stage = .ended true ∧ HeedsNoTimer (Machine.move Buffer.apply b now event) := by
  constructor
  · intro same
    cases verdict with
    | openBroke stage =>
        have early : p.stage = .starting ∨ p.stage = .opening := stage.imp_right And.left
        have running : p.stage.isOver = false := by rcases early with s | s <;> rw [s] <;> rfl
        have gone : (b.apply now (.pump .openPanicked)).1.isPumping = false := by
          rcases stage with calls | ⟨opens, unasked⟩
          · simp [Buffer.apply, h.pump, pumpStep, calls, breakCall, breakOff_eq, isPumping, stage?,
              PumpStage.isOver]
          · simp [Buffer.apply, h.pump, pumpStep, opens, unasked, breakOff_eq, isPumping, stage?,
              PumpStage.isOver]
        refine .inl ⟨⟨⟨_, rfl, trivial⟩, ⟨?_, gone⟩, p, h.pump, h.opener, h.unsettled⟩, ?_⟩
        · exact isPumping_eq_true_iff.mpr ⟨p, h.pump, running⟩
        · rw [h.isWatched_eq, h.pending.eq_absent early]
          rfl
    | broken heeding stage calm => exact .inr ⟨stage, heeding, p, rfl, h.pump, calm⟩
    | _ => cases same
  · rintro (⟨⟨⟨cause, done, broke⟩, -, -⟩, -⟩ | ⟨broken, heeding, q, watch, hq, calm⟩)
    · obtain rfl : event = .pump cause := done
      cases verdict with
      | openBroke => rfl
      | released | openFailed | readFailed => exact broke.elim
      | ended => exact absurd rfl broke.1
    · obtain rfl : event = .watch heeding := watch
      obtain rfl := Option.some.inj (h.pump.symm.trans hq)
      cases verdict with
      | ready _ ends => exact absurd ends calm
      | broken => rfl

/-- A verdict leaves no pump behind that has broken off without the watch having seen it. -/
theorem noticed (h : Awaiting call b p) (verdict : Verdict b p now event result) :
    ¬(BreaksUnsettled call (Machine.move Buffer.apply b now event) ∧ b.isWatched = true ∨
      p.stage = .ended true ∧ ∀ heeding, event ≠ .watch heeding) := by
  rintro (⟨⟨⟨cause, done, broke⟩, -, -⟩, watched⟩ | ⟨broken, unwatched⟩)
  · obtain rfl : event = .pump cause := done
    cases verdict with
    | openBroke stage =>
        have early : p.stage = .starting ∨ p.stage = .opening := stage.imp_right And.left
        simp [h.isWatched_eq, h.pending.eq_absent early, Confirmation.isWatch] at watched
    | released | openFailed | readFailed => exact broke.elim
    | ended => exact absurd rfl broke.1
  · cases verdict with
    | ready heeding | broken heeding => exact unwatched heeding rfl
    | released stage | openBroke stage => simp [broken] at stage
    | openFailed _ stage | ended stage | readFailed _ stage => cases stage.symm.trans broken

end Awaiting

/-- A call has been told nothing, and nothing has happened that it should have been told of. -/
structure Untold (call : CallId) (h : History) (b : Buffer) (p : Pump) : Prop where
  awaiting : Awaiting call b p
  silent : answersTo call (Machine.noticesOf h) = []
  opened : ∀ cause, ¬h.OpenFailed call cause
  whole : ¬h.BrokeUnwatched call
  unfound : ¬h.FoundBroken call
  unnoticed : p.stage = .ended true ↔ h.Unnoticed call

/-- A call has been told what became of its pump. -/
structure Told (call : CallId) (h : History) (b : Buffer) (result : Except StreamError Unit) :
    Prop where
  served : Served call b
  answered : answersTo call (Machine.noticesOf h) = [result]
  openFailed : ∀ cause, result = .error (.openFailed cause) ↔ h.OpenFailed call cause
  panicked : result = .error .pumpPanicked ↔ h.BrokeUnwatched call ∨ h.FoundBroken call
  known : result = .ok () ∨ result = .error .pumpPanicked ∨
    ∃ cause, result = .error (.openFailed cause)
  noticed : ¬h.Unnoticed call

namespace Untold

variable {call : CallId} {h : History} {b : Buffer} {p q : Pump} {now : Nat} {event : Event}
  {arrived : Bool}

/-- While a call goes on to wait, nothing happens that it should be told of. -/
theorem waits (untold : Untold call h b p) (step : WaitStep b p now event arrived q)
    (next : Awaiting call (b.apply now event).1 q)
    (silent : answersTo call (b.apply now event).2 = []) :
    Untold call (h ++ [Machine.move apply b now event]) (b.apply now event).1 q := by
  have waiting := untold.awaiting
  refine ⟨next, ?_, fun cause => ?_, ?_, ?_, ?_⟩
  · rw [answersTo_snoc, untold.silent]
    exact silent
  · rw [History.openFailed_snoc, not_or]
    exact ⟨untold.opened cause, waiting.not_openingFails silent cause⟩
  · rw [History.brokeUnwatched_snoc, not_or]
    refine ⟨untold.whole, fun ⟨breaks, unwatched⟩ => ?_⟩
    obtain ⟨stage, -⟩ := waiting.reading_of_breaks step next breaks
    have watched := waiting.pending.isWatch (.inl stage)
    have unwatched : b.isWatched = false := unwatched
    simp [waiting.isWatched_eq, watched] at unwatched
  · rw [History.foundBroken_snoc, not_or]
    refine ⟨fun ⟨unnoticed, watches⟩ => ?_, untold.unfound⟩
    have broken := untold.unnoticed.mpr unnoticed
    have watched := waiting.pending.isWatch (.inr broken)
    obtain ⟨heeding, -, watch, -⟩ := watches
    obtain rfl : event = .watch heeding := watch
    cases step with
    | rests _ _ unwatched => simp [unwatched heeding rfl, Confirmation.isWatch] at watched
    | watches _ stage => cases stage.symm.trans broken
  · rw [History.unnoticed_snoc, ← untold.unnoticed]
    exact waiting.broken_iff step next

/-- A verdict tells a call what it should be told. -/
theorem told (untold : Untold call h b p) {result : Except StreamError Unit}
    (verdict : Verdict b p now event result) (served : Served call (b.apply now event).1)
    (answered : answersTo call (b.apply now event).2 = [result]) :
    Told call (h ++ [Machine.move apply b now event]) (b.apply now event).1 result := by
  have waiting := untold.awaiting
  refine ⟨served, ?_, fun cause => ?_, ?_, ?_, ?_⟩
  · rw [answersTo_snoc, untold.silent]
    exact answered
  · rw [History.openFailed_snoc, or_iff_right (untold.opened cause)]
    exact waiting.openFailed_iff verdict cause
  · rw [History.brokeUnwatched_snoc, or_iff_right untold.whole, History.foundBroken_snoc,
      or_iff_left untold.unfound, ← untold.unnoticed]
    exact waiting.panicked_iff verdict
  · cases verdict with
    | openFailed cause => exact .inr (.inr ⟨cause, rfl⟩)
    | openBroke | broken => exact .inr (.inl rfl)
    | released | ended | readFailed | ready => exact .inl rfl
  · rw [History.unnoticed_snoc, ← untold.unnoticed]
    exact waiting.noticed verdict

end Untold

/-- A call that has been told is told nothing more, and there is nothing more to tell. -/
theorem Told.apply {call : CallId} {h : History} {b : Buffer} {result : Except StreamError Unit}
    (told : Told call h b result) (now : Nat) {event : Event} (other : event.begun? ≠ some call) :
    Told call (h ++ [Machine.move Buffer.apply b now event]) (b.apply now event).1 result := by
  obtain ⟨served, silent⟩ := told.served.apply now other
  have opened : ∀ cause, ¬OpeningFails call cause (Machine.move Buffer.apply b now event) :=
    fun cause ⟨_, p, hp, opener, stage, _⟩ => (told.served.settled p hp opener).opened stage
  have whole : ¬BreaksUnsettled call (Machine.move Buffer.apply b now event) := by
    rintro ⟨-, -, p, hp, opener, unsettled⟩
    exact Bool.false_ne_true (unsettled.symm.trans (told.served.settled p hp opener).settled)
  refine ⟨served, ?_, fun cause => ?_, ?_, told.known, ?_⟩
  · rw [answersTo_snoc, told.answered]
    exact congrArg (result :: ·) silent
  · rw [History.openFailed_snoc, or_iff_left (opened cause)]
    exact told.openFailed cause
  · rw [History.brokeUnwatched_snoc, History.foundBroken_snoc, or_iff_left (mt And.left whole),
      or_iff_right (mt And.left told.noticed)]
    exact told.panicked
  · rw [History.unnoticed_snoc, or_iff_right (mt And.left whole)]
    exact mt And.left told.noticed

/-- Either a call waits for its pump or it has been told. -/
def Accounted (call : CallId) (h : History) (b : Buffer) : Prop :=
  (∃ p, Untold call h b p) ∨ ∃ result, Told call h b result

/-- One move later a call still waits for its pump, or has been told what became of it. -/
theorem Accounted.apply {call : CallId} {h : History} {b : Buffer} (accounted : Accounted call h b)
    (now : Nat) {event : Event} (apart : event.concerns call = false) :
    Accounted call (h ++ [Machine.move Buffer.apply b now event]) (b.apply now event).1 := by
  rcases accounted with ⟨p, untold⟩ | ⟨result, told⟩
  · cases untold.awaiting.apply now apart with
    | waits arrived q step awaiting silent => exact .inl ⟨q, untold.waits step awaiting silent⟩
    | served result verdict served answered =>
        exact .inr ⟨result, untold.told verdict served answered⟩
  · exact .inr ⟨result, told.apply now (Event.begun?_ne apart)⟩

/-- A call that is accounted for has been told at most one thing, and the right one. -/
theorem Accounted.toldOnce {call : CallId} {h : History} {b : Buffer}
    (accounted : Accounted call h b) : ToldOnce call h b := by
  rcases accounted with ⟨p, untold⟩ | ⟨result, told⟩
  · have waiting := untold.awaiting
    refine ⟨by simp [untold.silent], fun cause => ?_, ?_, by simp [untold.silent], fun ended => ?_,
      ?_⟩
    · simp [untold.silent, untold.opened cause]
    · simp [untold.silent, untold.whole, untold.unfound]
    · obtain ⟨gone, unwatched⟩ := ended p waiting.pump waiting.opener
      exact absurd (waiting.pending.isWatch_of_isOver gone) (by simp [unwatched])
    · intro q now heeding hq _ gone _
      obtain rfl := Option.some.inj (waiting.pump.symm.trans hq)
      have watched := waiting.pending.isWatch_of_isOver gone
      have apart : Event.concerns call (.watch heeding) = false := rfl
      cases waiting.apply now apart with
      | served result _ _ answered => exact ⟨result, answered⟩
      | waits arrived q step =>
          cases step with
          | rests _ _ unwatched => simp [unwatched heeding rfl, Confirmation.isWatch] at watched
          | watches _ stage => simp [stage, PumpStage.isOver] at gone
  · refine ⟨by simp [told.answered], fun cause => ?_, ?_, ?_, fun _ => by simp [told.answered], ?_⟩
    · rw [told.answered, List.mem_singleton, eq_comm, told.openFailed]
    · rw [told.answered, List.mem_singleton, eq_comm, told.panicked]
    · intro other member
      rw [told.answered, List.mem_singleton] at member
      exact member ▸ told.known
    · simp [told.answered]

section

variable {name : String} {options : BufferOptions} {transform : Option Transform}
  {events : List (Nat × Event)} {call : CallId}

/-- In every run a call that has started a pump waits for it, or has been told what became of it. -/
theorem accounted_of_run {past later : History} {u : Move Buffer Event Notice}
    (split : Machine.history apply (create name options transform) events = past ++ u :: later)
    (joins : u.event = .join call) (starts : .pumpStarted ∈ u.notices)
    (apart : ∀ t ∈ later, t.event.concerns call = false) :
    answersTo call u.notices = [] ∧
      Accounted call later (Machine.final apply (create name options transform) events) := by
  obtain ⟨earlier, now, event, rest, rfl, rfl, rfl, rfl⟩ :=
    Machine.exists_of_history_eq_append apply split
  obtain rfl : event = .join call := joins
  rw [Machine.final_append]
  generalize Machine.final apply (create name options transform) earlier = b at *
  obtain ⟨p, awaiting, stage, silent⟩ := Awaiting.of_join starts
  have fresh : Untold call [] (b.join call).1 p :=
    ⟨awaiting, rfl, by simp [History.OpenFailed], by simp [History.BrokeUnwatched],
      by simp [History.FoundBroken], by simp [History.Unnoticed, stage]⟩
  exact ⟨silent, Machine.history_induction apply (Accounted call) (.inl ⟨p, fresh⟩)
    (fun past c now event accounted apart => accounted.apply now apart)
    (Machine.allows_of_history apply apart)⟩

end

/-- In every run of a buffer the call that starts a pump is told once what became of it, unless it
is given up. It is told nothing before. It is told that the stream could not be opened just if that
is so. It is told that the pump broke off just if the pump did so before anybody had delivered the
verdict, and either there was no watch yet or the watch did not end with a timer when it ran next,
because none was out or because it heeded first that the pump is gone. In all other cases it is told
that the buffer is ready, and it has been told once the pump and the watch are over. -/
theorem told_once (name : String) (options : BufferOptions) (transform : Option Transform)
    (events : List (Nat × Event)) :
    let h : History := Machine.history apply (create name options transform) events
    ∀ past u later call, h = past ++ u :: later → u.event = .join call →
      .pumpStarted ∈ u.notices → (∀ t ∈ past ++ later, t.event.concerns call = false) →
        answersTo call (Machine.noticesOf (past ++ [u])) = [] ∧
          ToldOnce call later (Machine.final apply (create name options transform) events) := by
  intro h past u later call split joins starts apart
  obtain ⟨silent, accounted⟩ := accounted_of_run split joins starts
    fun t member => apart t (List.mem_append_right _ member)
  obtain ⟨earlier, rfl, -⟩ := Machine.exists_run_before apply split
  have before := silent_of_absent rfl
    fun t member => Event.begun?_ne (apart t (List.mem_append_left _ member))
  refine ⟨?_, accounted.toldOnce⟩
  rw [answersTo_snoc, before, silent]
  rfl

/-- A reader that breaks off under the eyes of a watch that has time left. -/
def breaksOffWatched : List (Nat × Event) :=
  [(0, .join 0), (0, .pump .started), (0, .pump .opened), (0, .pump (.received [120])),
    (0, .watch .timers), (1000000, .pump .readPanicked), (1000000, .watch .timers)]

/-- A reader breaks off while a call waits for the verdict, and the call is told of that. -/
theorem told_once_of_broken_reader :
    let h : History := Machine.history apply (create "b" {} none) breaksOffWatched
    (∀ t ∈ h.tail, t.event.concerns 0 = false) ∧
      ToldOnce 0 h.tail (Machine.final apply (create "b" {} none) breaksOffWatched) ∧
      answersTo 0 (Machine.noticesOf h.tail) = [.error .pumpPanicked] :=
  have starts : Notice.pumpStarted ∈ ((create "b" {} none).join 0).2 := by simp [join, create]
  ⟨by decide,
    (told_once "b" {} none breaksOffWatched [] _ _ 0 rfl rfl starts (by decide)).2, by decide⟩

/-- Whenever the pump that a call started breaks off before anybody has delivered the verdict, the
call is told so. -/
def History.TellsOfPanics (call : CallId) (h : History) : Prop :=
  ∀ t ∈ h, BreaksUnsettled call t →
    .error .pumpPanicked ∈ answersTo call (Machine.noticesOf h)

/-- Both timers of the watch are out as soon as they are set. -/
def withoutWaiting : BufferOptions := { idleConfirm := 0, maxConfirm := 0 }

/-- A reader that breaks off before the watch runs for the first time. -/
def breaksOffUnwatched : List (Nat × Event) :=
  [(0, .join 0), (0, .pump .started), (0, .pump .opened), (0, .pump (.received [120])),
    (0, .pump .readPanicked), (0, .watch .timers)]

/-- A watch that finds its timers out when it runs after the pump has broken off, and heeds them
first, tells the call that the buffer is ready. -/
theorem not_tellsOfPanics_of_timer_out :
    ¬History.TellsOfPanics 0
      (Machine.history apply (create "b" withoutWaiting none) breaksOffUnwatched) := by
  intro tells
  have breaks := tells _ (List.getElem_mem (n := 4) (by decide))
    ⟨⟨.readPanicked, rfl, trivial⟩, ⟨by decide, by decide⟩, _, rfl, rfl, rfl⟩
  revert breaks
  decide

end CachedStreams.Buffer
