import CachedStreams.Proofs.Stream.Answers
import CachedStreams.Proofs.Stream.Endings

/-!
# The call that waits for a pump

The call that starts a pump waits until somebody delivers the verdict: the pump, when it ends, or
the watch, when one of its timers is out or it sees the pump gone; if both are so, it depends on
what the watch heeds first (`Buffer.EndsByTimer`). `Buffer.Awaiting` says how a
buffer stands in the meantime, `Buffer.WaitStep` lists what can happen to its pump without a
verdict, and `Buffer.Verdict` the reasons for each verdict. `Buffer.Awaiting.apply` says that there
is nothing else: whatever happens, the call goes on to wait for the same pump, or it is answered,
and then it is `Buffer.Served` for good.
-/

set_option autoImplicit false

namespace CachedStreams

/-- To remove some calls leaves every other as it is. -/
theorem CallTable.find?_foldl_erase {α : Type} {t : CallTable α} {calls : List CallId}
    {call : CallId} (absent : call ∉ calls) : (calls.foldl erase t).find? call = t.find? call := by
  induction calls generalizing t with
  | nil => rfl
  | cons first rest ih =>
      rw [List.mem_cons, not_or] at absent
      rw [List.foldl_cons, ih absent.2, find?_erase_of_ne t absent.1]

/-- The verdict on a pump has been delivered, and its stream is not about to be opened. -/
structure Pump.IsSettled (p : Pump) : Prop where
  settled : p.settled = true
  started : p.stage ≠ .starting
  opened : p.stage ≠ .opening

/-- Whether there is a watch that is not over. -/
def Confirmation.isWatch : Confirmation → Bool
  | fresh => true
  | watching _ _ _ => true
  | _ => false

namespace Buffer

/-- The call that an event begins, if that can be answered. -/
def Event.begun? : Event → Option CallId
  | .join call => some call
  | .release call => some call
  | _ => none

/-- Whether an event begins a call or gives it up. -/
def Event.concerns (call : CallId) : Event → Bool
  | .join name => name == call
  | .release name => name == call
  | .abandon name => name == call
  | _ => false

/-- An event that does not concern a call does not begin it. -/
theorem Event.begun?_ne {event : Event} {call : CallId} (apart : event.concerns call = false) :
    event.begun? ≠ some call := by
  cases event with
  | join name | release name => simpa [Event.concerns, Event.begun?] using apart
  | retain | abandon | pump | watch => nofun

/-- One more move adds what it answers a call. -/
theorem answersTo_snoc (call : CallId) (h : History) (t : Move Buffer Event Notice) :
    answersTo call (Machine.noticesOf (h ++ [t])) =
      answersTo call (Machine.noticesOf h) ++ answersTo call t.notices := by
  rw [Machine.noticesOf_append, answersTo_append, Machine.noticesOf_singleton]

/-- The stages at which the verdict on a pump is still to come, with what watches for it then: the
pump is on its way, or it broke off with the stream open and the watch has not seen that yet. -/
inductive Pending : PumpStage → Confirmation → Prop where
  | starting : Pending .starting .absent
  | opening : Pending .opening .absent
  | reading (confirmation : Confirmation) (watch : confirmation.isWatch = true) :
    Pending .reading confirmation
  | broken (confirmation : Confirmation) (watch : confirmation.isWatch = true) :
    Pending (.ended true) confirmation

/-- Before the stream is open there is no watch. -/
theorem Pending.eq_absent {stage : PumpStage} {confirmation : Confirmation}
    (h : Pending stage confirmation) (early : stage = .starting ∨ stage = .opening) :
    confirmation = .absent := by
  cases h with
  | starting | opening => rfl
  | reading | broken => simp at early

/-- Once the stream is open, and as long as the verdict is to come, there is a watch. -/
theorem Pending.isWatch {stage : PumpStage} {confirmation : Confirmation}
    (h : Pending stage confirmation) (late : stage = .reading ∨ stage = .ended true) :
    confirmation.isWatch = true := by
  cases h with
  | starting | opening => simp at late
  | reading _ watch | broken _ watch => exact watch

/-- A pump that is over with its verdict still to come has broken off, and is watched. -/
theorem Pending.broken_of_ended {panicked : Bool} {confirmation : Confirmation}
    (h : Pending (.ended panicked) confirmation) :
    panicked = true ∧ confirmation.isWatch = true := by
  cases h with
  | broken _ watch => exact ⟨rfl, watch⟩

/-- A pump that is over with its verdict still to come is watched. -/
theorem Pending.isWatch_of_isOver {stage : PumpStage} {confirmation : Confirmation}
    (h : Pending stage confirmation) (gone : stage.isOver = true) :
    confirmation.isWatch = true := by
  cases h with
  | broken _ watch => exact watch
  | starting | opening | reading => cases gone

/-- A watch that is not over is there. -/
theorem Confirmation.ne_absent_of_isWatch {confirmation : Confirmation}
    (watch : confirmation.isWatch = true) : confirmation ≠ .absent := by
  rintro rfl
  cases watch

/-- A call waits for the verdict on the pump that it started. -/
structure Awaiting (call : CallId) (b : Buffer) (p : Pump) : Prop where
  engaged : b.phase ≠ .idle
  waits : b.calls.find? call = some .readiness
  /-- It waits for nothing else. -/
  only : (call, .pumpEnd) ∉ b.calls.rows
  pump : b.pump = some p
  opener : p.opener = call
  unsettled : p.settled = false
  pending : Pending p.stage p.confirmation
  /-- The watch has seen no more than what has arrived. -/
  seen : ∀ deadline quiet seen, p.confirmation = .watching deadline quiet seen → seen ≤ p.arrivals

/-- A call has got the verdict on the pump that it started. -/
structure Served (call : CallId) (b : Buffer) : Prop where
  gone : b.calls.find? call = none
  settled : ∀ p, b.pump = some p → p.opener = call → p.IsSettled

/-- The deadline that the watch goes by when it runs at an instant. -/
def deadlineFrom (b : Buffer) (p : Pump) (now : Nat) : Nat :=
  match p.confirmation with
  | .watching deadline _ _ => deadline
  | _ => Clock.timerDue now b.options.maxConfirm

/-- The end of the silence that the watch goes by when it runs at an instant. The silence begins
anew if the watch sees a piece that has arrived, and it does not see that if it heeds its timers
first and one is out. -/
def quietFrom (b : Buffer) (p : Pump) (now : Nat) (heeding : Heeding) : Nat :=
  match p.confirmation with
  | .watching deadline quiet seen =>
    if seen < p.arrivals ∧ (heeding = .pump ∨ ¬(deadline ≤ now ∨ quiet ≤ now)) then
      Clock.timerDue now b.options.idleConfirm
    else quiet
  | _ => Clock.timerDue now b.options.idleConfirm

/-- A timer of the watch is out when it runs at an instant. -/
def TimerOut (b : Buffer) (p : Pump) (now : Nat) (heeding : Heeding) : Prop :=
  p.confirmation.isWatch = true ∧
    (b.deadlineFrom p now ≤ now ∨ b.quietFrom p now heeding ≤ now)

/-- The watch ends with a timer when it runs at an instant: one is out, and the watch does not heed
first that the pump is gone. -/
def EndsByTimer (b : Buffer) (p : Pump) (now : Nat) (heeding : Heeding) : Prop :=
  TimerOut b p now heeding ∧ (heeding = .pump → p.stage.isOver = false)

section

variable {b : Buffer} {p : Pump} {now : Nat} {heeding : Heeding} {deadline quiet seen : Nat}

/-- A timer that is out ends the watch, unless it heeds first that the pump is gone. -/
theorem awaitQuiet_of_out (out : deadline ≤ now ∨ quiet ≤ now)
    (heeds : heeding = .pump → p.stage.isOver = false) :
    b.awaitQuiet now p heeding deadline quiet seen = b.endWatch p (some (.ok ())) := by
  unfold awaitQuiet
  split
  · rename_i stage
    simp [stage, PumpStage.isOver] at heeds
  · rw [if_pos out]

/-- Otherwise the watch ends when it sees the pump gone. -/
theorem awaitQuiet_of_gone {panicked : Bool} (stage : p.stage = .ended panicked)
    (calm : heeding = .pump ∨ ¬(deadline ≤ now ∨ quiet ≤ now)) :
    b.awaitQuiet now p heeding deadline quiet seen = b.seePumpGone p panicked := by
  unfold awaitQuiet
  cases heeding with
  | pump => simp only [stage]
  | timers => simp only [stage, if_neg (calm.resolve_left nofun)]

/-- And it goes on to wait as long as the pump runs. -/
theorem awaitQuiet_of_running (running : p.stage.isOver = false)
    (calm : ¬(deadline ≤ now ∨ quiet ≤ now)) :
    b.awaitQuiet now p heeding deadline quiet seen =
      ({ b with pump := some { p with confirmation := .watching deadline quiet seen } }, []) := by
  unfold awaitQuiet
  cases stage : p.stage with
  | ended => simp [stage, PumpStage.isOver] at running
  | starting | opening | reading => cases heeding <;> simp only [if_neg calm]

/-- The watch goes by the latest piece, unless a timer is out that it heeds first. -/
theorem watchStep_eq (b : Buffer) (now : Nat) (heeding : Heeding) (unsettled : p.settled = false)
    (watch : p.confirmation.isWatch = true) :
    ∃ seen, b.watchStep now p heeding =
        b.awaitQuiet now p heeding (b.deadlineFrom p now) (b.quietFrom p now heeding) seen ∧
      (¬TimerOut b p now heeding →
        (∀ deadline quiet seen, p.confirmation = .watching deadline quiet seen →
          seen ≤ p.arrivals) → seen = p.arrivals) := by
  cases watched : p.confirmation with
  | fresh =>
      simp only [watchStep, watched, unsettled, Bool.false_eq_true, if_false, keepWatch,
        deadlineFrom, quietFrom, TimerOut, Confirmation.isWatch, true_and]
      split
      · exact ⟨_, rfl, fun _ _ => rfl⟩
      · rename_i unseen
        exact ⟨0, rfl, fun calm _ => by simpa [calm, eq_comm] using unseen⟩
  | watching deadline quiet seen =>
      simp only [watchStep, watched, unsettled, Bool.false_eq_true, if_false, keepWatch,
        deadlineFrom, quietFrom, TimerOut, Confirmation.isWatch, true_and]
      split
      · exact ⟨_, rfl, fun _ _ => rfl⟩
      · rename_i unseen
        refine ⟨seen, rfl, fun calm bounded => ?_⟩
        have known : seen ≤ p.arrivals := bounded deadline quiet seen rfl
        have caught_up : ¬seen < p.arrivals := fun behind => unseen ⟨behind, .inr calm⟩
        omega
  | _ => simp [watched, Confirmation.isWatch] at watch

/-- A timer that is out makes the watch say that the buffer is ready. -/
theorem watchStep_of_endsByTimer (unsettled : p.settled = false)
    (ends : EndsByTimer b p now heeding) :
    b.watchStep now p heeding = b.endWatch p (some (.ok ())) := by
  obtain ⟨⟨watch, out⟩, heeds⟩ := ends
  obtain ⟨seen, same, -⟩ := watchStep_eq b now heeding unsettled watch
  rw [same, awaitQuiet_of_out out heeds]

/-- A watch that finds the pump broken off says so, unless it ends with a timer. -/
theorem watchStep_of_gone (unsettled : p.settled = false) (watch : p.confirmation.isWatch = true)
    (calm : ¬EndsByTimer b p now heeding) (stage : p.stage = .ended true) :
    b.watchStep now p heeding = b.endWatch p (some (.error .pumpPanicked)) := by
  have heeds : heeding = .pump ∨
      ¬(b.deadlineFrom p now ≤ now ∨ b.quietFrom p now heeding ≤ now) := by
    by_contra hne
    rw [not_or, not_not] at hne
    exact calm ⟨⟨watch, hne.2⟩, fun first => absurd first hne.1⟩
  obtain ⟨seen, same, -⟩ := watchStep_eq b now heeding unsettled watch
  rw [same, awaitQuiet_of_gone stage heeds]
  rfl

/-- While the stream is read and no timer is out, the watch goes on to wait. -/
theorem watchStep_of_reading (unsettled : p.settled = false)
    (watch : p.confirmation.isWatch = true) (calm : ¬TimerOut b p now heeding)
    (stage : p.stage = .reading)
    (bounded : ∀ deadline quiet seen, p.confirmation = .watching deadline quiet seen →
      seen ≤ p.arrivals) :
    b.watchStep now p heeding = ({ b with pump := some { p with
      confirmation :=
        .watching (b.deadlineFrom p now) (b.quietFrom p now heeding) p.arrivals } }, []) := by
  obtain ⟨seen, same, caught_up⟩ := watchStep_eq b now heeding unsettled watch
  rw [same, caught_up calm bounded]
  exact awaitQuiet_of_running (by rw [stage]; rfl) fun out => calm ⟨watch, out⟩

end

/-- What an event does to a pump that leaves its opener waiting, and whether a piece arrives. -/
inductive WaitStep (b : Buffer) (p : Pump) (now : Nat) : Event → Bool → Pump → Prop where
  /-- Calls come and go; what does not fit the stage of the pump does nothing. -/
  | rests (event : Event) (releaseAsked : Bool)
    (unwatched : ∀ heeding, event = .watch heeding → p.confirmation = .absent) :
    WaitStep b p now event false { p with releaseAsked }
  | starts (stage : p.stage = .starting) :
    WaitStep b p now (.pump .started) false { p with stage := .opening }
  | opens (stage : p.stage = .opening) :
    WaitStep b p now (.pump .opened) false { p with stage := .reading, confirmation := .fresh }
  | takes (bytes : List UInt8) (stage : p.stage = .reading) :
    WaitStep b p now (.pump (.received bytes)) true { p with arrivals := p.arrivals + 1 }
  | breaks (event : PumpEvent) (stage : p.stage = .reading) (unasked : p.releaseAsked = false)
    (broke : BreaksOff b event) :
    WaitStep b p now (.pump event) false { p with stage := .ended true }
  | watches (heeding : Heeding) (stage : p.stage = .reading) (calm : ¬TimerOut b p now heeding) :
    WaitStep b p now (.watch heeding) false
      { p with
        confirmation :=
          .watching (b.deadlineFrom p now) (b.quietFrom p now heeding) p.arrivals }

/-- How a pump comes by its verdict. -/
inductive Verdict (b : Buffer) (p : Pump) (now : Nat) :
    Event → Except StreamError Unit → Prop where
  | released (stage : p.stage = .opening ∨ p.stage = .reading) (asked : p.releaseAsked = true) :
    Verdict b p now (.pump .releaseSeen) (.ok ())
  | openFailed (cause : IoError) (stage : p.stage = .opening) (unasked : p.releaseAsked = false) :
    Verdict b p now (.pump (.openFailed cause)) (.error (.openFailed cause))
  /-- The call for the stream panicked, or what it gave to wait for did. -/
  | openBroke (stage : p.stage = .starting ∨ p.stage = .opening ∧ p.releaseAsked = false) :
    Verdict b p now (.pump .openPanicked) (.error .pumpPanicked)
  | ended (stage : p.stage = .reading) (unasked : p.releaseAsked = false) :
    Verdict b p now (.pump (.received [])) (.ok ())
  | readFailed (cause : IoError) (stage : p.stage = .reading) (unasked : p.releaseAsked = false) :
    Verdict b p now (.pump (.readFailed cause)) (.ok ())
  | ready (heeding : Heeding) (ends : EndsByTimer b p now heeding) :
    Verdict b p now (.watch heeding) (.ok ())
  | broken (heeding : Heeding) (stage : p.stage = .ended true)
    (calm : ¬EndsByTimer b p now heeding) :
    Verdict b p now (.watch heeding) (.error .pumpPanicked)

/-- A verdict is not the arrival of a piece. -/
@[simp] theorem arrived_not_mem_verdict (b : Buffer) (p : Pump) (result : Except StreamError Unit) :
    .arrived ∉ b.verdict p result := by
  unfold verdict
  split <;> simp

/-- The end of a pump is not the arrival of a piece. -/
@[simp] theorem arrived_not_mem_ending (calls : CallTable BufferCall) (panicked : Bool) :
    .arrived ∉ ending calls panicked := by
  simp [ending]

/-- A stream that is let go is not the arrival of a piece. -/
@[simp] theorem arrived_not_mem_dropped (p : Pump) : .arrived ∉ dropped p := by
  unfold dropped
  split <;> simp

/-- What a transform is given is not the arrival of a piece. -/
@[simp] theorem arrived_not_mem_shown (b : Buffer) (bytes : List UInt8) :
    .arrived ∉ b.shown bytes := by
  unfold shown
  split <;> simp

/-- Either the call that waits for a pump goes on to wait, or it is answered. -/
inductive WaitsOrServed (call : CallId) (b : Buffer) (p : Pump) (now : Nat) (event : Event)
    (r : Buffer × List Notice) : Prop where
  | waits (arrived : Bool) (q : Pump) (step : WaitStep b p now event arrived q)
    (awaiting : Awaiting call r.1 q) (silent : answersTo call r.2 = [])
    (arrives : .arrived ∈ r.2 ↔ arrived = true)
  | served (result : Except StreamError Unit) (verdict : Verdict b p now event result)
    (served : Served call r.1) (answered : answersTo call r.2 = [result])
    (ended : (∃ heeding, event = .watch heeding) ∨ r.1.isPumping = false)

namespace Awaiting

variable {call : CallId} {b : Buffer} {p : Pump}

/-- Whoever waits for a pump is known to it. -/
theorem isAwaited (h : Awaiting call b p) : b.isAwaited p = true := by
  simp [Buffer.isAwaited, h.unsettled, h.opener, h.waits]

/-- Whoever waits for a pump is told its verdict. -/
theorem answersTo_verdict (h : Awaiting call b p) (result : Except StreamError Unit) :
    answersTo call (b.verdict p result) = [result] := by
  rw [Buffer.answersTo_verdict, if_pos ⟨h.isAwaited, h.opener⟩]

/-- Whoever waits for the verdict on a pump is not told of its end. -/
theorem answersTo_ending (h : Awaiting call b p) (panicked : Bool) :
    answersTo call (ending b.calls panicked) = [] :=
  answersTo_ending_of_no_pumpEnd h.only panicked

/-- The same holds once the verdict has been delivered. -/
theorem answersTo_ending_after (h : Awaiting call b p) (panicked : Bool) :
    answersTo call (ending (b.callsAfterVerdict p) panicked) = [] :=
  answersTo_ending_of_no_pumpEnd (fun member => h.only (mem_rows_callsAfterVerdict.mp member).1)
    panicked

/-- After its verdict a call is no longer in progress. -/
theorem find?_callsAfterVerdict (h : Awaiting call b p) :
    (b.callsAfterVerdict p).find? call = none := by
  rw [callsAfterVerdict, if_pos h.isAwaited, h.opener, CallTable.find?_erase_self]

/-- After its verdict and the end of the pump a call is no longer in progress. -/
theorem find?_callsAfterAll (h : Awaiting call b p) :
    (b.callsAfterAll p).find? call = none := by
  rw [CallTable.find?_eq_none_iff]
  intro row member same
  exact CallTable.find?_eq_none_iff.mp h.find?_callsAfterVerdict row
    (mem_rows_callsAfterEnd.mp member).1 same

/-- The end of the pump leaves the call waiting that waits for the verdict. -/
theorem find?_callsAfterEnd (h : Awaiting call b p) :
    (callsAfterEnd b.calls).find? call = some .readiness := by
  have absent : call ∉ awaitingEnd b.calls := mt (mem_awaitingEnd call).mp h.only
  rw [callsAfterEnd, CallTable.find?_foldl_erase absent, h.waits]

/-- A pump that ends with a verdict delivers it to the call. -/
theorem ends (h : Awaiting call b p) {now : Nat} {event : Event} {r : Buffer × List Notice}
    {result : Except StreamError Unit} {panicked : Bool} (verdict : Verdict b p now event result)
    (calls : r.1.calls = b.callsAfterAll p)
    (pump : r.1.pump = some { p with stage := .ended panicked, settled := true })
    (answered : answersTo call r.2 = [result]) : WaitsOrServed call b p now event r := by
  refine .served result verdict ⟨calls ▸ h.find?_callsAfterAll, fun q same _ => ?_⟩ answered
    (.inr (by simp [isPumping, stage?, pump, PumpStage.isOver]))
  obtain rfl := Option.some.inj (pump.symm.trans same)
  refine ⟨rfl, ?_, ?_⟩
  all_goals
    intro early
    cases early

/-- Nothing that others do changes what a call waits for. -/
theorem callMove (h : Awaiting call b p) {event : Event} (apart : event.concerns call = false)
    {r : Buffer × List Notice} (move : CallMove b event r) (now : Nat) :
    WaitsOrServed call b p now event r := by
  have left := afterLastRelease_ne_idle h.engaged
  cases move with
  | starts name unused idle => exact absurd idle h.engaged
  | joins name | releasesNothing name | releasesOne name =>
      have other : name ≠ call := by simpa [Event.concerns] using apart
      exact .waits false _ (.rests _ p.releaseAsked nofun) { h with } (by simp [other]) (by simp)
  | retains | refuses =>
      exact .waits false _ (.rests _ p.releaseAsked nofun) { h with } rfl (by simp)
  | leaves name =>
      have other : name ≠ call := by simpa [Event.concerns] using apart
      exact .waits false _ (.rests _ p.releaseAsked nofun)
        { h with engaged := left } (by simp [other]) (by simp)
  | leavesEnded name q panicked last held pump =>
      have other : name ≠ call := by simpa [Event.concerns] using apart
      obtain rfl := Option.some.inj (h.pump.symm.trans pump)
      exact .waits false _ (.rests _ true nofun)
        { h with engaged := left, pump := rfl } (by simp [other]) (by simp)
  | leavesRunning name q last held pump =>
      have other : name ≠ call := by simpa [Event.concerns] using apart
      obtain rfl := Option.some.inj (h.pump.symm.trans pump)
      refine .waits false _ (.rests _ true nofun)
        { h with engaged := left, waits := ?_, only := ?_, pump := rfl } rfl (by simp)
      · exact (CallTable.find?_set_of_ne _ other.symm _).trans h.waits
      · rw [CallTable.mem_rows_set]
        rintro (new | ⟨old, -⟩)
        · exact other (congrArg Prod.fst new).symm
        · exact h.only old
  | abandons name =>
      have other : name ≠ call := by simpa [Event.concerns] using apart
      refine .waits false _ (.rests _ p.releaseAsked nofun) { h with waits := ?_, only := ?_ } rfl
        (by simp)
      · exact (CallTable.find?_erase_of_ne _ other.symm).trans h.waits
      · exact fun member => h.only (CallTable.mem_rows_erase.mp member).1

/-- A call whose pump breaks off while the stream is being read goes on to wait for the watch. -/
theorem breakOff (h : Awaiting call b p) (stage : p.stage = .reading) :
    Awaiting call (b.breakOff p).1 { p with stage := .ended true } ∧
      answersTo call (b.breakOff p).2 = [] ∧ .arrived ∉ (b.breakOff p).2 := by
  have watch : p.confirmation.isWatch = true := h.pending.isWatch (.inl stage)
  have last : isLastWord p true = false := by
    simp [isLastWord, Confirmation.ne_absent_of_isWatch watch]
  refine ⟨⟨?_, ?_, ?_, ?_, h.opener, h.unsettled, .broken _ watch, h.seen⟩, ?_, ?_⟩
  · simp [breakOff_eq, h.engaged]
  · simp [breakOff_eq, callsAtEnd, last, h.find?_callsAfterEnd]
  · simp only [breakOff_eq, callsAtEnd, last]
    exact fun member => h.only (mem_rows_callsAfterEnd.mp member).1
  · simp [breakOff_eq, last]
  · simp [breakOff_eq, callsAtEnd, last, h.answersTo_ending]
  · simp [breakOff_eq, last]

/-- A pump that breaks off before there is a watch delivers the verdict itself. -/
theorem breaksUnwatched (h : Awaiting call b p) {now : Nat} {event : Event} (front : List Notice)
    (verdict : Verdict b p now event (.error .pumpPanicked))
    (early : p.stage = .starting ∨ p.stage = .opening) (quiet : answersTo call front = []) :
    WaitsOrServed call b p now event ((b.breakOff p).1, front ++ (b.breakOff p).2) := by
  have last : isLastWord p true = true := by simp [isLastWord, h.pending.eq_absent early]
  have pump : (b.breakOff p).1.pump = some { p with stage := .ended true, settled := true } := by
    simp [breakOff_eq, last]
  refine h.ends verdict ?_ pump ?_
  · simp [breakOff_eq, callsAtEnd, last, callsAfterAll]
  · simp [breakOff_eq, callsAtEnd, last, quiet, h.answersTo_verdict, h.answersTo_ending_after]

/-- Whatever a pump does, it goes on without a verdict or delivers one. -/
theorem pumpMove (h : Awaiting call b p) {event : PumpEvent} {r : Buffer × List Notice}
    (move : PumpMove b p event r) (now : Nat) :
    WaitsOrServed call b p now (.pump event) r := by
  cases move with
  | ignores =>
      exact .waits false _ (.rests _ p.releaseAsked nofun) h rfl (by simp)
  | starts stage =>
      refine .waits false _ (.starts stage) { h with pump := rfl, pending := ?_ } rfl (by simp)
      rw [h.pending.eq_absent (.inl stage)]
      exact .opening
  | opens stage unasked =>
      exact .waits false _ (.opens stage)
        { h with pump := rfl, pending := .reading _ rfl, seen := nofun } rfl (by simp)
  | failsToOpen cause stage unasked =>
      refine h.ends (.openFailed cause stage unasked) (by rw [failOpen_eq]) (by rw [failOpen_eq]) ?_
      simp [failOpen_eq, h.answersTo_verdict, h.answersTo_ending_after]
  | breaksCall stage =>
      exact h.breaksUnwatched [.openCalled] (.openBroke (.inl stage)) (.inl stage) rfl
  | breaksOpening stage unasked =>
      exact h.breaksUnwatched [] (.openBroke (.inr ⟨stage, unasked⟩)) (.inr stage) rfl
  | ends stage unasked =>
      refine h.ends (.ended stage unasked) (by rw [reachEnd_eq]) (by rw [reachEnd_eq]) ?_
      simp [reachEnd_eq, h.answersTo_verdict, h.answersTo_ending_after]
  | takes bytes nonempty stage unasked fits =>
      cases hc : (b.content.commit b.transform bytes).2 with
      | true =>
          rw [take_of_published b p bytes hc]
          refine .waits true _ (.takes bytes stage)
            { h with pump := rfl, seen := fun deadline quiet seen same =>
                Nat.le_succ_of_le (h.seen deadline quiet seen same) }
            ?_ (by simp)
          rw [answersTo_append, answersTo_shown]
          rfl
      | false =>
          rw [take_of_not_published b p bytes hc]
          have still :
              Awaiting call { b with content := (b.content.commit b.transform bytes).1 } p :=
            { h with }
          obtain ⟨awaiting, silent, unpublished⟩ := still.breakOff stage
          exact .waits false _ (.breaks _ stage unasked ⟨nonempty, hc⟩) awaiting
            (by simp [silent]) (by simp [unpublished])
  | fails cause stage unasked =>
      refine h.ends (.readFailed cause stage unasked) (by rw [fail_eq]) (by rw [fail_eq]) ?_
      simp [fail_eq, h.answersTo_verdict, h.answersTo_ending_after]
  | breaksReading stage unasked =>
      obtain ⟨awaiting, silent, unpublished⟩ := h.breakOff stage
      exact .waits false _ (.breaks _ stage unasked trivial) awaiting silent (by simp [unpublished])
  | stops stage asked =>
      refine h.ends (.released stage asked) (by rw [stop_eq]) (by rw [stop_eq]) ?_
      simp [stop_eq, h.answersTo_verdict, h.answersTo_ending_after]

/-- The verdict of the watch is an answer to the call that waits for it. -/
theorem endWatch (h : Awaiting call b p) (watch : p.confirmation.isWatch = true)
    (result : Except StreamError Unit) :
    Served call (b.endWatch p (some result)).1 ∧
      answersTo call (b.endWatch p (some result)).2 = [result] := by
  have same : b.endWatch p (some result) =
      ({ b with
          pump := some { p with confirmation := .over, settled := true }
          calls := b.callsAfterVerdict p },
        b.verdict p result) := by
    simp [Buffer.endWatch, settle_eq, callsAfterVerdict, verdict, Buffer.isAwaited]
  rw [same]
  refine ⟨⟨h.find?_callsAfterVerdict, ?_⟩, h.answersTo_verdict result⟩
  rintro _ ⟨⟩ _
  refine ⟨rfl, fun stage => ?_, fun stage => ?_⟩
  · simp [h.pending.eq_absent (.inl stage), Confirmation.isWatch] at watch
  · simp [h.pending.eq_absent (.inr stage), Confirmation.isWatch] at watch

/-- The watch says that the buffer is ready if it ends with a timer, and else that the pump has
broken off, if it has. -/
theorem watch (h : Awaiting call b p) (now : Nat) (heeding : Heeding) :
    WaitsOrServed call b p now (.watch heeding) (b.watchStep now p heeding) := by
  by_cases ends : EndsByTimer b p now heeding
  · rw [watchStep_of_endsByTimer h.unsettled ends]
    obtain ⟨served, answered⟩ := h.endWatch ends.1.1 (.ok ())
    exact .served _ (.ready heeding ends) served answered (.inl ⟨heeding, rfl⟩)
  have rests : p.confirmation = .absent →
      WaitsOrServed call b p now (.watch heeding) (b.watchStep now p heeding) := by
    intro absent
    have same : b.watchStep now p heeding = (b, []) := by simp [watchStep, absent]
    rw [same]
    exact .waits false _ (.rests _ p.releaseAsked fun _ _ => absent) h rfl (by simp)
  cases stage : p.stage with
  | starting => exact rests (h.pending.eq_absent (.inl stage))
  | opening => exact rests (h.pending.eq_absent (.inr stage))
  | reading =>
      have watch := h.pending.isWatch (.inl stage)
      have calm : ¬TimerOut b p now heeding := fun out =>
        ends ⟨out, fun _ => by rw [stage]; rfl⟩
      rw [watchStep_of_reading h.unsettled watch calm stage h.seen]
      refine .waits false _ (.watches heeding stage calm)
        { h with pump := rfl, pending := ?_, seen := ?_ } rfl (by simp)
      · rw [stage]
        exact .reading _ rfl
      · rintro _ _ _ ⟨⟩
        exact Nat.le_refl _
  | ended panicked =>
      obtain ⟨rfl, watch⟩ := (stage ▸ h.pending).broken_of_ended
      rw [watchStep_of_gone h.unsettled watch ends stage]
      obtain ⟨served, answered⟩ := h.endWatch watch (.error .pumpPanicked)
      exact .served _ (.broken heeding stage ends) served answered (.inl ⟨heeding, rfl⟩)

/-- Whatever happens, a call that waits for its pump goes on to wait for it, or is answered. -/
theorem apply (h : Awaiting call b p) (now : Nat) {event : Event}
    (apart : event.concerns call = false) :
    WaitsOrServed call b p now event (b.apply now event) := by
  have pumps : ∀ done, WaitsOrServed call b p now (.pump done) (b.apply now (.pump done)) := by
    intro done
    simp only [Buffer.apply, h.pump]
    exact h.pumpMove (pumpMove_pumpStep b p done) now
  have watches : ∀ heeding,
      WaitsOrServed call b p now (.watch heeding) (b.apply now (.watch heeding)) := by
    intro heeding
    simp only [Buffer.apply, h.pump]
    exact h.watch now heeding
  rcases apply_cases b now event with
    ⟨other, -⟩ | move | ⟨-, -, ⟨done, rfl, -⟩ | ⟨⟨heeding, rfl⟩, -⟩⟩
  · cases event with
    | pump done => exact pumps done
    | watch heeding => exact watches heeding
    | join | retain | release | abandon => cases other
  · exact h.callMove apart move now
  · exact pumps done
  · exact watches heeding

/-- The call that starts a pump waits for it. -/
theorem of_join {b : Buffer} {call : CallId} (starts : .pumpStarted ∈ (b.join call).2) :
    ∃ p, Awaiting call (b.join call).1 p ∧ p.stage = .starting ∧
      answersTo call (b.join call).2 = [] := by
  have move := callMove_join b call
  generalize b.join call = r at move starts
  cases move with
  | joins => simp at starts
  | starts =>
      refine ⟨_, ⟨nofun, CallTable.find?_set_self _ _ _, ?_, rfl, rfl, rfl, .starting, nofun⟩,
        rfl, rfl⟩
      rw [CallTable.mem_rows_set]
      rintro (new | ⟨-, other⟩)
      · cases new
      · exact other rfl

end Awaiting

/-- The pump of a buffer is that of an earlier state, with a verdict if it had one. -/
def Inherits (c b : Buffer) : Prop :=
  ∀ q, c.pump = some q → ∃ p, b.pump = some p ∧ q.opener = p.opener ∧ (p.IsSettled → q.IsSettled)

/-- Nobody tells a call anything that is not in progress, and it does not come to be in progress
unless somebody begins it. -/
theorem absent_apply {call : CallId} {b : Buffer} (absent : b.calls.find? call = none) (now : Nat)
    {event : Event} (other : event.begun? ≠ some call) :
    (b.apply now event).1.calls.find? call = none ∧
      answersTo call (b.apply now event).2 = [] := by
  cases called : event.isCall with
  | false =>
      obtain ⟨shrinks, waited, -⟩ := answers_apply b now called
      rw [CallTable.find?_eq_none_iff] at absent ⊢
      refine ⟨fun row member => absent row (shrinks row member), ?_⟩
      by_contra answered
      obtain ⟨kind, member⟩ := waited call answered
      exact absent _ member rfl
  | true =>
      rcases apply_cases b now event with
        ⟨pumps, -⟩ | move | ⟨-, -, ⟨done, rfl, -⟩ | ⟨⟨heeding, rfl⟩, -⟩⟩
      · simp [called] at pumps
      · generalize b.apply now event = r at move
        cases move with
        | retains | refuses => exact ⟨absent, rfl⟩
        | joins name | releasesNothing name | releasesOne name | leaves name | leavesEnded name =>
            have apart : name ≠ call := by simpa [Event.begun?] using other
            exact ⟨absent, by simp [apart]⟩
        | starts name | leavesRunning name =>
            have apart : name ≠ call := by simpa [Event.begun?] using other
            exact ⟨(CallTable.find?_set_of_ne _ apart.symm _).trans absent, rfl⟩
        | abandons name =>
            refine ⟨?_, rfl⟩
            by_cases same : call = name
            · rw [same]
              exact CallTable.find?_erase_self _ _
            · exact (CallTable.find?_erase_of_ne _ same).trans absent
      · cases called
      · cases called

/-- A call that is not in progress, and that nobody begins, is told nothing. -/
theorem silent_of_absent {call : CallId} {b : Buffer} (absent : b.calls.find? call = none)
    {events : List (Nat × Event)}
    (other : ∀ t ∈ Machine.history apply b events, t.event.begun? ≠ some call) :
    answersTo call (Machine.noticesOf (Machine.history apply b events)) = [] := by
  have allowed : Machine.Allows apply (fun _ event => event.begun? ≠ some call) b events :=
    Machine.allows_of_history apply other
  refine (Machine.history_induction apply
    (fun h c => c.calls.find? call = none ∧ answersTo call (Machine.noticesOf h) = [])
    ⟨absent, rfl⟩ ?_ allowed).2
  intro past c now event ⟨absent, silent⟩ other
  obtain ⟨gone, quiet⟩ := absent_apply absent now other
  refine ⟨gone, ?_⟩
  rw [answersTo_snoc, silent]
  exact quiet

section

variable {b c : Buffer} {p : Pump} (hp : b.pump = some p)

include hp

/-- A pump that breaks off is still the pump that it was. -/
theorem inherits_breakOff : (c.breakOff p).1.Inherits b := by
  rw [breakOff_eq]
  rintro _ ⟨⟩
  exact ⟨p, hp, rfl, fun h => ⟨by simp [h.settled], nofun, nofun⟩⟩

/-- The end of a pump comes with a verdict, if there was none. -/
theorem inherits_end (pump : c.pump = some { p with stage := .ended false, settled := true }) :
    c.Inherits b := by
  rw [Inherits, pump]
  rintro _ ⟨⟩
  exact ⟨p, hp, rfl, fun _ => ⟨rfl, nofun, nofun⟩⟩

/-- Whatever happens to a pump, it is still the pump that it was. -/
theorem inherits_pumpMove {event : PumpEvent} {r : Buffer × List Notice}
    (move : PumpMove b p event r) : r.1.Inherits b := by
  cases move with
  | ignores => exact fun q hq => ⟨q, hq, rfl, id⟩
  | starts stage =>
      rintro _ ⟨⟩
      exact ⟨p, hp, rfl, fun h => absurd stage h.started⟩
  | opens stage =>
      rintro _ ⟨⟩
      exact ⟨p, hp, rfl, fun h => absurd stage h.opened⟩
  | failsToOpen => exact inherits_end hp (by rw [failOpen_eq])
  | breaksCall | breaksOpening | breaksReading => exact inherits_breakOff hp
  | ends => exact inherits_end hp (by rw [reachEnd_eq])
  | takes bytes =>
      cases hc : (b.content.commit b.transform bytes).2 with
      | true =>
          rw [take_of_published b p bytes hc]
          rintro _ ⟨⟩
          exact ⟨p, hp, rfl, fun h => ⟨h.settled, h.started, h.opened⟩⟩
      | false =>
          rw [take_of_not_published b p bytes hc]
          exact inherits_breakOff hp
  | fails => exact inherits_end hp (by rw [fail_eq])
  | stops => exact inherits_end hp (by rw [stop_eq])

end

/-- Nobody but a call that joins brings in another pump. -/
theorem inherits_apply (b : Buffer) (now : Nat) {event : Event}
    (other : ∀ call, event ≠ .join call) : (b.apply now event).1.Inherits b := by
  rcases apply_cases b now event with ⟨-, same⟩ | move | ⟨p, hp, ⟨done, -, move⟩ | ⟨-, move⟩⟩
  · rw [same]
    exact fun q hq => ⟨q, hq, rfl, id⟩
  · generalize b.apply now event = r at move
    cases move with
    | starts call | joins call => exact absurd rfl (other call)
    | leavesEnded _ p _ _ _ hp | leavesRunning _ p _ _ hp =>
        rintro _ ⟨⟩
        exact ⟨p, hp, rfl, fun h => ⟨h.settled, h.started, h.opened⟩⟩
    | _ => exact fun q hq => ⟨q, hq, rfl, id⟩
  · exact inherits_pumpMove hp move
  · generalize b.apply now event = r at move
    cases move with
    | waits =>
        rintro _ ⟨⟩
        exact ⟨p, hp, rfl, fun h => ⟨h.settled, h.started, h.opened⟩⟩
    | settles =>
        rintro _ ⟨⟩
        exact ⟨p, hp, rfl, fun h => ⟨rfl, h.started, h.opened⟩⟩

namespace Served

variable {call : CallId} {b : Buffer}

/-- A call that has got its verdict gets nothing else. -/
theorem apply (h : Served call b) (now : Nat) {event : Event} (other : event.begun? ≠ some call) :
    Served call (b.apply now event).1 ∧ answersTo call (b.apply now event).2 = [] := by
  obtain ⟨gone, silent⟩ := absent_apply h.gone now other
  refine ⟨⟨gone, ?_⟩, silent⟩
  cases event with
  | join name =>
      have apart : name ≠ call := by simpa [Event.begun?] using other
      have move := callMove_join b name
      simp only [Buffer.apply]
      generalize b.join name = r at move
      cases move with
      | joins => exact h.settled
      | starts =>
          rintro _ ⟨⟩ opener
          exact absurd opener apart
  | retain | release | abandon | pump | watch =>
      intro q hq opener
      obtain ⟨p, hp, same, settled⟩ := inherits_apply b now (by simp) q hq
      exact settled (h.settled p hp (same.symm.trans opener))

end Served

end Buffer

end CachedStreams
