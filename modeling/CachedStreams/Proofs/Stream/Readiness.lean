import CachedStreams.Proofs.Stream.Feed
import CachedStreams.Proofs.Stream.Verdicts
import Mathlib.Order.Bounds.Defs

/-!
# When the call that started a pump is answered

If the watch runs whenever it has something to do and its timers go off when they are due, then the
call that started a pump is answered at an instant that can be read off the pieces of the stream
alone: when the pump ends, when the longest wait since the opening is over, or when for the first
time nothing has arrived for long enough since the opening or a piece, whichever comes first
(`answered_on_time`). Each piece starts the wait for silence anew and leaves the longest wait as it
is.

`Buffer.KeepsTime` is the invariant: what the watch waits for at an instant is what the pieces up to
then say. It survives the passing of time (`Buffer.KeepsTime.later`) and every event
(`Buffer.KeepsTime.apply`).
-/

set_option autoImplicit false

namespace CachedStreams.Buffer

/-- Whether a piece arrives in a move. -/
def hasArrival (t : Move Buffer Event Notice) : Bool := t.notices.any Notice.isArrived

/-- A piece arrives in a move if one of its notices says so. -/
theorem hasArrival_eq_true_iff {t : Move Buffer Event Notice} :
    hasArrival t = true ↔ .arrived ∈ t.notices := by
  rw [hasArrival, List.any_eq_true]
  constructor
  · rintro ⟨notice, member, arrived⟩
    cases notice with
    | arrived => exact member
    | _ => cases arrived
  · exact fun member => ⟨.arrived, member, rfl⟩

/-- The instants at which pieces arrive. -/
def History.arrivals (h : History) : List Nat := (h.filter hasArrival).map (·.now)

/-- The stream of the pump that a call started is opened. -/
structure OpeningSucceeds (call : CallId) (t : Move Buffer Event Notice) : Prop where
  event : t.event = .pump .opened
  pump : ∃ p, t.before.pump = some p ∧ p.opener = call ∧ p.stage = .opening ∧
    p.releaseAsked = false

/-- If a pump ends in a move, it does not break off. -/
def EndsWhole (t : Move Buffer Event Notice) : Prop :=
  EndsPump t → ∀ cause, t.event = .pump cause → ¬BreaksOff t.before cause

/-- When the watch is to run next as long as nobody has delivered the verdict: at once if it has not
run yet or a piece has arrived since it ran, and else when one of its timers is due. -/
def watchDue? (b : Buffer) (clock : Nat) : Option Nat :=
  match b.pump with
  | some p =>
    if p.settled then none
    else
      match p.confirmation with
      | .fresh => some clock
      | .watching deadline quiet seen =>
        some (if seen < p.arrivals then clock else min deadline quiet)
      | _ => none
  | none => none

/-- Time may pass from one instant to another: the watch need not run before. -/
def MayPass (b : Buffer) (clock now : Nat) : Prop :=
  clock ≤ now ∧ ∀ due ∈ b.watchDue? clock, now ≤ due

/-- Time passes only while the watch need not run. -/
def Prompt : Nat → History → Prop
  | _, [] => True
  | clock, t :: rest => t.before.MayPass clock t.now ∧ Prompt t.now rest

instance (b : Buffer) (clock now : Nat) : Decidable (b.MayPass clock now) :=
  inferInstanceAs (Decidable (clock ≤ now ∧ ∀ due ∈ b.watchDue? clock, now ≤ due))

instance decidablePrompt : ∀ (clock : Nat) (h : History), Decidable (Prompt clock h)
  | _, [] => isTrue trivial
  | clock, t :: rest =>
    have := decidablePrompt t.now rest
    inferInstanceAs (Decidable (t.before.MayPass clock t.now ∧ Prompt t.now rest))

section

variable (due : Nat → Nat) (cap o : Nat)

/-- The instants at which something happens that a call may be answered for that waits for a pump
whose stream was opened at an instant `o`; `due` says how long silence has to last, and `cap` is the
end of the longest wait. -/
inductive Release (h : History) : Nat → Prop
  /-- The pump ends. -/
  | ends (t : Move Buffer Event Notice) (member : t ∈ h) (ended : EndsPump t) : Release h t.now
  /-- The longest wait is over. -/
  | capped : Release h cap
  /-- Nothing has arrived for long enough. -/
  | quiet (c : Nat) (start : c ∈ o :: h.arrivals)
    (silent : ∀ a ∈ h.arrivals, ¬(c < a ∧ a ≤ due c)) : Release h (due c)

/-- As long as a call has not been answered, nothing arrives at the very instant at which nothing
would have arrived for long enough. -/
def Untied (call : CallId) (h : History) : Prop :=
  ∀ t ∈ h, hasArrival t = true → (∀ v ∈ h, answersTo call v.notices ≠ [] → t.now ≤ v.now) →
    ∀ c ∈ o :: h.arrivals, c < t.now → (∀ a ∈ h.arrivals, ¬(c < a ∧ a < t.now)) → due c ≠ t.now

instance (call : CallId) (h : History) : Decidable (Untied due o call h) :=
  inferInstanceAs (Decidable (∀ t ∈ h, hasArrival t = true →
    (∀ v ∈ h, answersTo call v.notices ≠ [] → t.now ≤ v.now) →
      ∀ c ∈ o :: h.arrivals, c < t.now → (∀ a ∈ h.arrivals, ¬(c < a ∧ a < t.now)) →
        due c ≠ t.now))

/-- What the watch waits for at an instant, if the latest piece, or else the opening, was at
`latest`. -/
inductive Stands (clock latest arrivals : Nat) : Confirmation → Prop
  | fresh (just : clock = o) : Stands clock latest arrivals .fresh
  | seen (long : latest < due latest) (early : clock ≤ due latest) (capped : clock ≤ cap) :
    Stands clock latest arrivals (.watching cap (due latest) arrivals)
  /-- A piece has arrived that the watch has not seen. -/
  | unseen (quiet known : Nat) (behind : known < arrivals) (just : clock = latest)
    (early : clock < quiet) (capped : clock ≤ cap) :
    Stands clock latest arrivals (.watching cap quiet known)

end

section

variable {h k : History} {t : Move Buffer Event Notice}

/-- The instants of arrival are those of the moves in which a piece arrives. -/
theorem mem_arrivals {a : Nat} :
    a ∈ h.arrivals ↔ ∃ t ∈ h, hasArrival t = true ∧ t.now = a := by
  simp [History.arrivals, and_assoc]

/-- The arrivals of two stretches are those of the first, followed by those of the second. -/
theorem arrivals_append : History.arrivals (h ++ k) = h.arrivals ++ History.arrivals k := by
  simp [History.arrivals]

/-- A move in which a piece arrives adds its instant. -/
theorem arrivals_snoc_of_hasArrival (arrives : hasArrival t = true) :
    History.arrivals (h ++ [t]) = h.arrivals ++ [t.now] := by
  simp [History.arrivals, arrives]

/-- Any other move adds no arrival. -/
theorem arrivals_snoc_of_not (quiet : hasArrival t = false) :
    History.arrivals (h ++ [t]) = h.arrivals := by
  simp [History.arrivals, quiet]

end

/-- How a call stands that waits for a pump whose stream was opened at `o`, after some moves, the
last of them at `clock`; the latest piece, or else the opening, was at `latest`. -/
structure KeepsTime (due : Nat → Nat) (cap o : Nat) (call : CallId) (h : History) (b : Buffer)
    (clock latest : Nat) (p : Pump) : Prop where
  awaiting : Awaiting call b p
  stage : p.stage = .reading
  running : ∀ t ∈ h, ¬EndsPump t
  silent : ∀ t ∈ h, answersTo call t.notices = []
  member : latest ∈ o :: h.arrivals
  after : ∀ c ∈ o :: h.arrivals, c ≤ latest
  past : latest ≤ clock
  stands : Stands due cap o clock latest p.arrivals p.confirmation
  /-- After all but the latest of them something arrived before it had been silent for long
  enough. -/
  overtaken : ∀ c ∈ o :: h.arrivals, c < latest → ∃ a ∈ h.arrivals, c < a ∧ a ≤ due c

/-- When the timers of the watch go off: the one for silence at `due c` if it is set at an instant
`c` at which something arrives or the stream is opened, the other one at `cap`. -/
structure Timers (due : Nat → Nat) (cap o : Nat) (h : History) (options : BufferOptions) :
    Prop where
  due : ∀ c ∈ o :: h.arrivals, Clock.timerDue c options.idleConfirm = due c
  cap : Clock.timerDue o options.maxConfirm = cap

/-- The timer for silence does not go off before it is set. -/
theorem Timers.le_due {due : Nat → Nat} {cap o : Nat} {h : History} {options : BufferOptions}
    (timers : Timers due cap o h options) {c : Nat} (start : c ∈ o :: h.arrivals) : c ≤ due c := by
  rw [← timers.due c start]
  exact Clock.le_timerDue c _

namespace KeepsTime

variable {due : Nat → Nat} {cap o clock latest now : Nat} {call : CallId} {h rest : History}
  {b : Buffer} {p : Pump}

/-- Time passes, and nothing becomes due meanwhile. -/
theorem later (keeps : KeepsTime due cap o call h b clock latest p)
    (passes : b.MayPass clock now) : KeepsTime due cap o call h b now latest p := by
  obtain ⟨onward, waits⟩ := passes
  refine { keeps with past := Nat.le_trans keeps.past onward, stands := ?_ }
  simp only [watchDue?, keeps.awaiting.pump, keeps.awaiting.unsettled] at waits
  have stands := keeps.stands
  generalize p.confirmation = confirmation at stands waits ⊢
  cases stands with
  | fresh just =>
      have same : now = clock := Nat.le_antisymm (waits clock rfl) onward
      exact .fresh (same.trans just)
  | seen long early capped =>
      have before : now ≤ min cap (due latest) := waits _ (by simp)
      exact .seen long (Nat.le_trans before (Nat.min_le_right _ _))
        (Nat.le_trans before (Nat.min_le_left _ _))
  | unseen quiet known behind just early capped =>
      have same : now = clock := Nat.le_antisymm (waits clock (by simp [behind])) onward
      subst same
      exact .unseen quiet known behind just early capped

/-- The timer for silence is set at the opening, at an arrival so far, or at one to come. -/
theorem mem_starts {c : Nat} :
    c ∈ o :: History.arrivals (h ++ rest) ↔ c ∈ o :: h.arrivals ∨ c ∈ History.arrivals rest := by
  rw [arrivals_append, List.mem_cons, List.mem_cons, List.mem_append, or_assoc]

section

variable (keeps : KeepsTime due cap o call h b now latest p)
  (timers : Timers due cap o (h ++ rest) b.options) (upcoming : ∀ t ∈ rest, now ≤ t.now)

include upcoming in
/-- What is still to arrive does not do so before now. -/
theorem le_arrival {a : Nat} (arrival : a ∈ History.arrivals rest) : now ≤ a := by
  obtain ⟨t, member, -, rfl⟩ := mem_arrivals.mp arrival
  exact upcoming t member

include upcoming keeps in
/-- Nothing arrives from the latest piece up to now, unless at this very instant. -/
theorem not_between {a : Nat} (arrival : a ∈ History.arrivals (h ++ rest)) :
    ¬(latest < a ∧ a < now) := by
  rintro ⟨newer, older⟩
  rcases mem_starts.mp (List.mem_cons_of_mem o arrival) with old | new
  · exact Nat.not_lt.mpr (keeps.after a old) newer
  · exact Nat.not_lt.mpr (le_arrival upcoming new) older

include upcoming keeps in
/-- Whatever arrives just now does not arrive when the silence has just lasted long enough. -/
theorem due_ne_now (untied : Untied due o call (h ++ rest)) {t : Move Buffer Event Notice}
    (member : t ∈ h ++ rest) (arrives : hasArrival t = true) (just : t.now = now)
    (newer : latest < now) : due latest ≠ now := by
  have unanswered : ∀ v ∈ h ++ rest, answersTo call v.notices ≠ [] → now ≤ v.now := by
    intro v answering answered
    rcases List.mem_append.mp answering with old | new
    · exact absurd (keeps.silent v old) answered
    · exact upcoming v new
  subst just
  exact untied t member arrives unanswered latest (mem_starts.mpr (.inl keeps.member)) newer
    fun a arrival => keeps.not_between upcoming arrival

include upcoming keeps in
/-- The silence since the latest piece has lasted long enough just now. -/
theorem release_of_quiet (untied : Untied due o call (h ++ rest)) (just : due latest = now) :
    Release due cap o (h ++ rest) now := by
  have start : latest ∈ o :: History.arrivals (h ++ rest) := mem_starts.mpr (.inl keeps.member)
  have quiet : ∀ a ∈ History.arrivals (h ++ rest), ¬(latest < a ∧ a ≤ due latest) := by
    rintro a arrival ⟨newer, within⟩
    rw [just] at within
    -- What comes up to this very instant is known; what comes at it would tie with the timer.
    rcases Nat.lt_or_eq_of_le within with older | rfl
    · exact keeps.not_between upcoming arrival ⟨newer, older⟩
    · obtain ⟨t, member, arrives, same⟩ := mem_arrivals.mp arrival
      exact keeps.due_ne_now upcoming untied member arrives same newer just
  have release : Release due cap o (h ++ rest) (due latest) := .quiet latest start quiet
  rwa [just] at release

include keeps timers

/-- The timer for the longest wait has not gone off before now. -/
theorem le_cap : now ≤ cap := by
  have stands := keeps.stands
  generalize p.confirmation = confirmation at stands
  cases stands with
  | fresh just =>
      rw [just, ← timers.cap]
      exact Clock.le_timerDue o _
  | seen _ _ capped | unseen _ _ _ _ _ capped => exact capped

/-- The timer for silence that was set last has not gone off before now. -/
theorem le_due_latest : now ≤ due latest := by
  have start := timers.le_due (mem_starts.mpr (.inl keeps.member))
  have stands := keeps.stands
  generalize p.confirmation = confirmation at stands
  cases stands with
  | fresh just => exact Nat.le_trans (just ▸ keeps.after o List.mem_cons_self) start
  | seen _ early => exact early
  | unseen _ _ _ just => exact just ▸ start

include upcoming

/-- While a call waits, the instant at which it should be answered has not passed. -/
theorem le_release {x : Nat} (release : Release due cap o (h ++ rest) x) : now ≤ x := by
  cases release with
  | ends t member ended =>
      rcases List.mem_append.mp member with old | new
      · exact absurd ended (keeps.running t old)
      · exact upcoming t new
  | capped => exact keeps.le_cap timers
  | quiet c origin silent =>
      -- A piece that is not the latest has been overtaken; one that is to come is due later.
      rcases mem_starts.mp origin with old | new
      · rcases Nat.lt_or_eq_of_le (keeps.after c old) with before | rfl
        · obtain ⟨a, arrival, between⟩ := keeps.overtaken c old before
          have member : a ∈ History.arrivals (h ++ rest) := by simp [arrivals_append, arrival]
          exact absurd between (silent a member)
        · exact keeps.le_due_latest timers
      · exact Nat.le_trans (le_arrival upcoming new) (timers.le_due origin)

/-- A timer of the watch is out only when the call should be answered. -/
theorem release_of_timerOut (untied : Untied due o call (h ++ rest)) {heeding : Heeding}
    (out : TimerOut b p now heeding) : Release due cap o (h ++ rest) now := by
  have capped : cap ≤ now → Release due cap o (h ++ rest) now := by
    intro out
    rw [Nat.le_antisymm (keeps.le_cap timers) out]
    exact .capped
  have quiet : due latest ≤ now → Release due cap o (h ++ rest) now := fun out =>
    keeps.release_of_quiet upcoming untied
      (Nat.le_antisymm out (keeps.le_due_latest timers))
  have set_due := timers.due latest (mem_starts.mpr (.inl keeps.member))
  have stands := keeps.stands
  replace out := out.2
  unfold deadlineFrom quietFrom at out
  generalize p.confirmation = confirmation at stands out
  cases stands with
  | fresh just =>
      have same : latest = o :=
        Nat.le_antisymm (just ▸ keeps.past) (keeps.after o List.mem_cons_self)
      rcases out with out | out
      · have cap_now : Clock.timerDue now b.options.maxConfirm = cap := by rw [just, timers.cap]
        exact capped (cap_now ▸ out)
      · have due_now : Clock.timerDue now b.options.idleConfirm = due latest := by
          rw [just, ← same, set_due]
        exact quiet (due_now ▸ out)
  | seen =>
      simp only [Nat.lt_irrefl, false_and, if_false] at out
      exact out.elim capped quiet
  | unseen wait known _ just early =>
      have due_now : Clock.timerDue now b.options.idleConfirm = due latest := by
        rw [just, set_due]
      rcases out with out | out
      · exact capped out
      · by_cases looks : known < p.arrivals ∧ (heeding = .pump ∨ ¬(cap ≤ now ∨ wait ≤ now))
        · simp only [if_pos looks, due_now] at out
          exact quiet out
        · simp only [if_neg looks] at out
          exact absurd early (Nat.not_lt.mpr out)

omit upcoming in
/-- A watch that runs and goes on to wait waits for what the pieces up to now say. -/
theorem stands_watching {heeding : Heeding} (calm : ¬TimerOut b p now heeding) :
    Stands due cap o now latest p.arrivals
      (.watching (b.deadlineFrom p now) (b.quietFrom p now heeding) p.arrivals) := by
  have set_due := timers.due latest (mem_starts.mpr (.inl keeps.member))
  have early := keeps.le_due_latest timers
  have capped := keeps.le_cap timers
  have stands := keeps.stands
  have watch := keeps.awaiting.pending.isWatch (.inl keeps.stage)
  have early_enough : ¬(b.deadlineFrom p now ≤ now ∨ b.quietFrom p now heeding ≤ now) :=
    fun out => calm ⟨watch, out⟩
  unfold deadlineFrom quietFrom at early_enough ⊢
  generalize p.confirmation = confirmation at stands early_enough ⊢
  cases stands with
  | fresh just =>
      have same : latest = o :=
        Nat.le_antisymm (just ▸ keeps.past) (keeps.after o List.mem_cons_self)
      have cap_now : Clock.timerDue now b.options.maxConfirm = cap := by rw [just, timers.cap]
      have due_now : Clock.timerDue now b.options.idleConfirm = due latest := by
        rw [just, ← same, set_due]
      simp only [cap_now, due_now, not_or, Nat.not_le] at early_enough ⊢
      exact .seen (Nat.lt_of_le_of_lt keeps.past early_enough.2) early capped
  | seen long =>
      simp only [Nat.lt_irrefl, false_and, if_false]
      exact .seen long early capped
  | unseen quiet known behind just unquiet =>
      have due_now : Clock.timerDue now b.options.idleConfirm = due latest := by
        rw [just, set_due]
      -- The old timer for silence is not out, so the watch sees the piece whatever it heeds first.
      have uncapped : ¬cap ≤ now := fun out => early_enough (.inl out)
      have looks : known < p.arrivals ∧ (heeding = .pump ∨ ¬(cap ≤ now ∨ quiet ≤ now)) :=
        ⟨behind, .inr (not_or.mpr ⟨uncapped, Nat.not_le.mpr unquiet⟩)⟩
      simp only [if_pos looks, due_now] at early_enough ⊢
      have long : ¬due latest ≤ now := fun out => early_enough (.inr out)
      exact .seen (Nat.lt_of_le_of_lt keeps.past (Nat.not_le.mp long)) early capped

/-- A piece that arrives leaves the watch with something to see. -/
theorem stands_arriving (untied : Untied due o call (h ++ rest)) {t : Move Buffer Event Notice}
    (member : t ∈ h ++ rest) (arrives : hasArrival t = true) (just : t.now = now) :
    Stands due cap o now now (p.arrivals + 1) p.confirmation := by
  have early := keeps.le_due_latest timers
  have tied := keeps.due_ne_now upcoming untied member arrives just
  have past := keeps.past
  have stands := keeps.stands
  generalize p.confirmation = confirmation at stands
  cases stands with
  | fresh just => exact .fresh just
  | seen long _ capped =>
      have before : now < due latest := by
        rcases Nat.lt_or_eq_of_le past with newer | rfl
        · exact Nat.lt_of_le_of_ne early (tied newer).symm
        · exact long
      exact .unseen _ _ (Nat.lt_succ_self _) rfl before capped
  | unseen quiet known behind _ early capped =>
      exact .unseen quiet known (Nat.lt_succ_of_lt behind) rfl early capped

end

section

variable {t : Move Buffer Event Notice} {q : Pump}
  (keeps : KeepsTime due cap o call h b now latest p)
  (next : Awaiting call t.after q) (stage : q.stage = .reading)
  (silent : answersTo call t.notices = [])

include next stage in
/-- As long as the watch waits and pieces arrive, the pump does not end. -/
theorem not_endsPump : ¬EndsPump t := by
  intro ends
  have pumping := isPumping_eq_true_iff.mpr ⟨q, next.pump, by rw [stage]; rfl⟩
  exact Bool.false_ne_true (ends.after.symm.trans pumping)

include keeps next stage silent

/-- Nothing arrives. -/
theorem quietly (quiet : hasArrival t = false)
    (stands : Stands due cap o now latest q.arrivals q.confirmation) :
    KeepsTime due cap o call (h ++ [t]) t.after now latest q := by
  have same : History.arrivals (h ++ [t]) = h.arrivals := arrivals_snoc_of_not quiet
  refine ⟨next, stage, ?_, ?_, ?_, ?_, keeps.past, stands, ?_⟩
  · exact List.forall_mem_append.mpr ⟨keeps.running, by simpa using not_endsPump next stage⟩
  · exact List.forall_mem_append.mpr ⟨keeps.silent, by simpa using silent⟩
  · rw [same]
    exact keeps.member
  · rw [same]
    exact keeps.after
  · rw [same]
    exact keeps.overtaken

/-- A piece arrives. -/
theorem arriving (arrives : hasArrival t = true) (instant : t.now = now)
    (intime : now ≤ due latest)
    (stands : Stands due cap o now now q.arrivals q.confirmation) :
    KeepsTime due cap o call (h ++ [t]) t.after now now q := by
  have more : History.arrivals (h ++ [t]) = h.arrivals ++ [now] := by
    rw [arrivals_snoc_of_hasArrival arrives, instant]
  have starts : ∀ c, c ∈ o :: History.arrivals (h ++ [t]) ↔ c ∈ o :: h.arrivals ∨ c = now := by
    intro c
    rw [more, List.mem_cons, List.mem_cons, List.mem_append, List.mem_singleton, or_assoc]
  refine ⟨next, stage, ?_, ?_, ?_, ?_, Nat.le_refl _, stands, ?_⟩
  · exact List.forall_mem_append.mpr ⟨keeps.running, by simpa using not_endsPump next stage⟩
  · exact List.forall_mem_append.mpr ⟨keeps.silent, by simpa using silent⟩
  · exact (starts now).mpr (.inr rfl)
  · intro c start
    rcases (starts c).mp start with old | rfl
    · exact Nat.le_trans (keeps.after c old) keeps.past
    · exact Nat.le_refl _
  · intro c start before
    rcases (starts c).mp start with old | rfl
    · rw [more]
      rcases Nat.lt_or_eq_of_le (keeps.after c old) with earlier | rfl
      · obtain ⟨a, arrival, between⟩ := keeps.overtaken c old earlier
        exact ⟨a, List.mem_append_left _ arrival, between⟩
      · exact ⟨now, by simp, before, intime⟩
    · exact absurd before (Nat.lt_irrefl _)

end

/-- Either a call goes on to wait, or it is answered when it should be. -/
inductive Outcome (due : Nat → Nat) (cap o : Nat) (call : CallId) (h rest : History)
    (t : Move Buffer Event Notice) : Prop where
  | waits (latest : Nat) (q : Pump)
    (keeps : KeepsTime due cap o call (h ++ [t]) t.after t.now latest q) :
    Outcome due cap o call h rest t
  | answered (served : Served call t.after) (ready : answersTo call t.notices = [.ok ()])
    (release : Release due cap o (h ++ t :: rest) t.now) :
    Outcome due cap o call h rest t

/-- Whatever happens at an instant, a call goes on to wait, or it is answered when it should be. -/
theorem apply (keeps : KeepsTime due cap o call h b now latest p) {event : Event}
    (apart : event.concerns call = false)
    (whole : EndsWhole (Machine.move Buffer.apply b now event))
    (timers : Timers due cap o (h ++ Machine.move Buffer.apply b now event :: rest) b.options)
    (upcoming : ∀ t ∈ Machine.move Buffer.apply b now event :: rest, now ≤ t.now)
    (untied : Untied due o call (h ++ Machine.move Buffer.apply b now event :: rest)) :
    Outcome due cap o call h rest (Machine.move Buffer.apply b now event) := by
  have waiting := keeps.awaiting
  cases waiting.apply now apart with
  | waits arrived q step next silent arrived_iff =>
      have arrives : hasArrival (Machine.move Buffer.apply b now event) = arrived :=
        Bool.eq_iff_iff.mpr (hasArrival_eq_true_iff.trans arrived_iff)
      cases step with
      | rests _ releaseAsked =>
          exact .waits latest _ (keeps.quietly next keeps.stage silent arrives keeps.stands)
      | starts stage | opens stage => cases stage.symm.trans keeps.stage
      | takes bytes stage =>
          have stands := keeps.stands_arriving timers upcoming untied (by simp) arrives rfl
          exact .waits now _ (keeps.arriving next stage silent arrives rfl
            (keeps.le_due_latest timers) stands)
      | breaks cause stage unasked broke =>
          rcases (waiting.broken_iff (.breaks cause stage unasked broke) next).mp rfl with
            ⟨breaks, -⟩ | ⟨broken, -⟩
          · exact absurd broke (whole breaks.ends cause rfl)
          · cases stage.symm.trans broken
      | watches heeding stage calm =>
          exact .waits latest _ (keeps.quietly next stage silent arrives
            (keeps.stands_watching timers calm))
  | served result verdict served answered ended =>
      cases verdict with
      | openFailed _ stage | broken _ stage => cases stage.symm.trans keeps.stage
      | openBroke stage => simp [keeps.stage] at stage
      | ready _ ends =>
          exact .answered served answered
            (keeps.release_of_timerOut timers upcoming untied ends.1)
      | released | ended | readFailed =>
          have pumping := isPumping_eq_true_iff.mpr ⟨p, waiting.pump, by rw [keeps.stage]; rfl⟩
          exact .answered served answered (.ends _ (by simp) ⟨pumping, ended.resolve_left nofun⟩)

end KeepsTime

/-- The watch of a stream that has just been opened has nothing to wait for but the opening. -/
theorem KeepsTime.of_opening (due : Nat → Nat) (cap : Nat) {call : CallId} {b : Buffer} {p : Pump}
    (awaiting : Awaiting call b p) (stage : p.stage = .opening) (unasked : p.releaseAsked = false)
    (now : Nat) :
    ∃ q, KeepsTime due cap now call [] (b.apply now (.pump .opened)).1 now now q ∧
      answersTo call (b.apply now (.pump .opened)).2 = [] := by
  have same : b.apply now (.pump .opened) =
      ({ b with
          content := b.content.reserve b.options
          pump := some { p with stage := .reading, confirmation := .fresh } },
        [.watchStarted]) := by
    simp [Buffer.apply, awaiting.pump, pumpStep, stage, unasked]
  rw [same]
  refine ⟨_, ⟨⟨awaiting.engaged, awaiting.waits, awaiting.only, rfl, awaiting.opener,
    awaiting.unsettled, .reading _ rfl, ?_⟩, rfl, by simp, by simp, List.mem_cons_self, ?_,
    Nat.le_refl _, .fresh rfl, ?_⟩, rfl⟩
  · intro deadline quiet seen watching
    cases watching
  · simp [History.arrivals]
  · simp [History.arrivals]

/-- What has become of a call in the last moves of a history: it waits, and no instant has passed at
which it should be answered, or it was answered once, at the first such instant. -/
inductive OnTime (due : Nat → Nat) (cap o : Nat) (call : CallId) (h later : History) : Prop where
  | waiting (silent : answersTo call (Machine.noticesOf later) = [])
    (early : ∀ x, Release due cap o h x → ∀ t ∈ later, t.now ≤ x) : OnTime due cap o call h later
  | answered (before : History) (t : Move Buffer Event Notice) (after : History)
    (split : later = before ++ t :: after) (least : IsLeast {x | Release due cap o h x} t.now)
    (ready : answersTo call t.notices = [.ok ()])
    (once : answersTo call (Machine.noticesOf (before ++ after)) = []) :
    OnTime due cap o call h later

/-- A call that is not answered in a move, and need not be, is answered on time if it is so from
then on. -/
theorem OnTime.cons {due : Nat → Nat} {cap o : Nat} {call : CallId} {h later : History}
    {t : Move Buffer Event Notice} (onTime : OnTime due cap o call h later)
    (silent : answersTo call t.notices = [])
    (early : ∀ x, Release due cap o h x → t.now ≤ x) : OnTime due cap o call h (t :: later) := by
  have unanswered : ∀ k : History, answersTo call (Machine.noticesOf k) = [] →
      answersTo call (Machine.noticesOf (t :: k)) = [] := by
    intro k none_
    rw [Machine.noticesOf_cons, answersTo_append, silent]
    exact none_
  cases onTime with
  | waiting none_ early_later =>
      refine .waiting (unanswered later none_) fun x release u member => ?_
      rcases List.mem_cons.mp member with rfl | tail
      · exact early x release
      · exact early_later x release u tail
  | answered before u after split least ready once =>
      exact .answered (t :: before) u after (by rw [split]; rfl) least ready (unanswered _ once)

/-- In a run that keeps pace with the clock nothing comes before the instant that the clock shows.
-/
theorem Prompt.le {clock : Nat} {h : History} (prompt : Prompt clock h) :
    ∀ t ∈ h, clock ≤ t.now := by
  induction h generalizing clock with
  | nil => simp
  | cons t rest ih =>
      intro u member
      rcases List.mem_cons.mp member with rfl | tail
      · exact prompt.1.1
      · exact Nat.le_trans prompt.1.1 (ih prompt.2 u tail)

/-- A call that keeps time at some instant is answered on time from then on. -/
theorem KeepsTime.onTime {due : Nat → Nat} {cap o clock latest : Nat} {call : CallId}
    {h : History} {b : Buffer} {p : Pump} {events : List (Nat × Event)}
    (keeps : KeepsTime due cap o call h b clock latest p)
    (apart : ∀ t ∈ Machine.history Buffer.apply b events, t.event.concerns call = false)
    (whole : ∀ t ∈ Machine.history Buffer.apply b events, EndsWhole t)
    (prompt : Prompt clock (Machine.history Buffer.apply b events))
    (timers : Timers due cap o (h ++ Machine.history Buffer.apply b events) b.options)
    (untied : Untied due o call (h ++ Machine.history Buffer.apply b events)) :
    OnTime due cap o call (h ++ Machine.history Buffer.apply b events)
      (Machine.history Buffer.apply b events) := by
  induction events generalizing h b clock latest p with
  | nil => exact .waiting rfl (by simp [Machine.history])
  | cons e rest ih =>
      obtain ⟨now, event⟩ := e
      simp only [Machine.history] at apart whole prompt timers untied ⊢
      have here := keeps.later prompt.1
      have upcoming : ∀ t ∈ Machine.move Buffer.apply b now event ::
          Machine.history Buffer.apply (b.apply now event).1 rest, now ≤ t.now := by
        intro t member
        rcases List.mem_cons.mp member with rfl | tail
        · exact Nat.le_refl _
        · exact prompt.2.le t tail
      have options : (b.apply now event).1.options = b.options := (fixed_apply b now event).2
      have apart_later := fun t member => apart t (List.mem_cons_of_mem _ member)
      cases here.apply (apart _ List.mem_cons_self) (whole _ List.mem_cons_self) timers upcoming
        untied with
      | waits latest q keeps =>
          have keeps : KeepsTime due cap o call (h ++ [Machine.move Buffer.apply b now event])
            (b.apply now event).1 now latest q := keeps
          have onward := ih keeps apart_later
            (fun t member => whole t (List.mem_cons_of_mem _ member)) prompt.2
            (by rw [List.append_assoc, options]; exact timers)
            (by rw [List.append_assoc]; exact untied)
          rw [List.append_assoc] at onward
          exact onward.cons (keeps.silent _ (by simp)) fun x release =>
            here.le_release timers upcoming release
      | answered served ready release =>
          refine .answered [] _ _ rfl ⟨release, fun x other => ?_⟩ ready ?_
          · exact here.le_release timers upcoming other
          · exact silent_of_absent served.gone fun t member =>
              Event.begun?_ne (apart_later t member)

section

variable {name : String} {options : BufferOptions} {transform : Option Transform}
  {events : List (Nat × Event)} {past mid later : History} {u s : Move Buffer Event Notice}
  {call : CallId} {due : Nat → Nat} {cap : Nat}

/-- Whatever the timers are set to, a call is answered when they say. -/
theorem onTime_of_run
    (split : Machine.history apply (create name options transform) events =
      past ++ u :: (mid ++ s :: later))
    (joins : u.event = .join call) (starts : .pumpStarted ∈ u.notices)
    (apart : ∀ t ∈ mid ++ later, t.event.concerns call = false) (opens : OpeningSucceeds call s)
    (whole : ∀ t ∈ later, EndsWhole t) (prompt : Prompt s.now later)
    (timers : Timers due cap s.now later options)
    (untied : Untied due s.now call later) :
    answersTo call (Machine.noticesOf (u :: (mid ++ [s]))) = [] ∧
      OnTime due cap s.now call later later := by
  have cut : Machine.history apply (create name options transform) events =
      (past ++ u :: mid) ++ s :: later := by simp [split]
  obtain ⟨earlier, now, event, rest, rfl, before, rfl, rfl⟩ :=
    Machine.exists_of_history_eq_append apply cut
  obtain ⟨unanswered, accounted⟩ := accounted_of_run before.symm joins starts fun t member =>
    apart t (List.mem_append_left _ member)
  have same := (fixed_of_run name options transform earlier).2
  generalize Machine.final apply (create name options transform) earlier = b at *
  obtain ⟨opened, p, hp, opener, stage, unasked⟩ := opens
  obtain rfl : event = .pump .opened := opened
  rcases accounted with ⟨q, untold⟩ | ⟨result, told⟩
  · obtain rfl := Option.some.inj (untold.awaiting.pump.symm.trans hp)
    obtain ⟨r, keeps, silent⟩ :=
      KeepsTime.of_opening due cap untold.awaiting stage unasked now
    have kept := (fixed_apply b now (.pump .opened)).2.trans same
    have timers_kept : Timers due cap now ([] ++ Machine.history apply _ rest) _ := kept ▸ timers
    refine ⟨?_, keeps.onTime (fun t member => apart t (List.mem_append_right _ member)) whole prompt
      timers_kept untied⟩
    rw [Machine.noticesOf_cons, answersTo_append, unanswered, answersTo_snoc, untold.silent]
    exact silent
  · exact absurd stage (told.served.settled p hp opener).opened

end

/-- In every run of a buffer whose watch runs whenever it has something to do, with timers that go
off exactly when they are due, the call that starts a pump is answered just once after its stream
has been opened, as long as the pump does not break off: it is told that the buffer is ready, at the
first instant at which the pump ends, or the longest wait since the opening is over, or nothing has
arrived for the length of the idle window since the opening or since a piece. Before that it is told
nothing, and that instant does not pass without an answer. -/
theorem answered_on_time (name : String) (options : BufferOptions) (transform : Option Transform)
    (events : List (Nat × Event)) :
    let h : History := Machine.history apply (create name options transform) events
    let due := fun c => c + options.idleConfirm
    ∀ past u mid s later call, h = past ++ u :: (mid ++ s :: later) → u.event = .join call →
      .pumpStarted ∈ u.notices → (∀ t ∈ past ++ mid ++ later, t.event.concerns call = false) →
      OpeningSucceeds call s →
      (∀ t ∈ later, EndsWhole t) → Prompt s.now later →
      Timers due (s.now + options.maxConfirm) s.now later options →
      Untied due s.now call later →
        answersTo call (Machine.noticesOf (past ++ u :: (mid ++ [s]))) = [] ∧
          OnTime due (s.now + options.maxConfirm) s.now call later later := by
  intro h due past u mid s later call split joins starts apart opens whole prompt timers untied
  rw [List.append_assoc] at apart
  obtain ⟨silent, onTime⟩ := onTime_of_run split joins starts
    (fun t member => apart t (List.mem_append_right _ member)) opens whole prompt timers untied
  refine ⟨?_, onTime⟩
  obtain ⟨earlier, rfl, -⟩ := Machine.exists_run_before apply split
  have before := silent_of_absent rfl
    fun t member => Event.begun?_ne (apart t (List.mem_append_left _ member))
  rw [Machine.noticesOf_append, answersTo_append, before, silent]
  rfl

/-- Two pieces, each before the stream has been silent for long enough, and then nothing. -/
def twoPieces : List (Nat × Event) :=
  [(0, .join 0), (0, .pump .started), (0, .pump .opened), (0, .watch .timers),
    (50000000, .pump (.received [104])), (50000000, .watch .timers),
    (120000000, .pump (.received [105])), (120000000, .watch .timers), (220000000, .watch .timers)]

/-- The call is answered when the silence after the second piece has lasted for the idle window of
a tenth of a second. -/
theorem answered_on_time_of_two_pieces :
    let h : History := Machine.history apply (create "b" {} none) twoPieces
    let later := h.drop 3
    Prompt 0 later ∧ (∀ t ∈ h.tail, t.event.concerns 0 = false) ∧
      OnTime (· + 100000000) 5000000000 0 0 later later ∧
      (later.filter fun t => answersTo 0 t.notices ≠ []).map (·.now) = [220000000] :=
  have starts : Notice.pumpStarted ∈ ((create "b" {} none).join 0).2 := by simp [join, create]
  have unended : ∀ t ∈ (Machine.history apply (create "b" {} none) twoPieces).drop 3,
    ¬EndsPump t := by decide
  ⟨by decide, by decide,
    (answered_on_time "b" {} none twoPieces [] _ [_] _ _ 0 rfl rfl starts (by decide)
      ⟨rfl, _, rfl, rfl, rfl, rfl⟩ (fun t member ends => absurd ends (unended t member)) (by decide)
      ⟨by decide, by decide⟩ (by decide)).2, by decide⟩

end CachedStreams.Buffer
