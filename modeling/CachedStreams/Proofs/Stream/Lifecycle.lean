import CachedStreams.Proofs.Stream.Stages

/-!
# The life of a buffer

A buffer among cooperative surroundings, where nothing panics and no call is given up, is followed
from its creation on. The counts are taken over the history of the run: how often the stream was
asked for and obtained, who registered and who released. `Buffer.LifeSoFar` is the invariant, and
what holds of every such history is read off from it: one attempt to open at a time and one stream
altogether, a count of consumers that adds up, a stream that is let go only when a read gave nothing
or failed or nobody is left, a last release that waits for that, and a closed buffer that stays
closed.

Three things that one would like to hold do not. A read that is offered no room gives nothing and is
taken for the end. Whoever joins a buffer while its first last release still waits for the pump is a
last consumer again, and the release of that one waits for nothing. And a pump that was started but
has not run before the buffer was closed still asks for the stream.
-/

set_option autoImplicit false

namespace CachedStreams.Buffer

/-- The moves of a run of a buffer. -/
abbrev History := List (Move Buffer Event Notice)

/-- What can happen among cooperative surroundings: a call has a name that no call in progress has
and is not given up, and neither the stream nor the transform panics. -/
def Cooperative (b : Buffer) : Event → Prop
  | .join call => b.calls.find? call = none
  | .release call => b.calls.find? call = none
  | .abandon _ => False
  | .pump (.received bytes) => (b.content.commit b.transform bytes).2 = true
  | .pump .openPanicked => False
  | .pump .readPanicked => False
  | _ => True

instance (b : Buffer) : ∀ event, Decidable (b.Cooperative event)
  | .join call => inferInstanceAs (Decidable (b.calls.find? call = none))
  | .release call => inferInstanceAs (Decidable (b.calls.find? call = none))
  | .abandon _ => inferInstanceAs (Decidable False)
  | .retain => inferInstanceAs (Decidable True)
  | .watch _ => inferInstanceAs (Decidable True)
  | .pump (.received bytes) =>
    inferInstanceAs (Decidable ((b.content.commit b.transform bytes).2 = true))
  | .pump .openPanicked => inferInstanceAs (Decidable False)
  | .pump .readPanicked => inferInstanceAs (Decidable False)
  | .pump .started => inferInstanceAs (Decidable True)
  | .pump .releaseSeen => inferInstanceAs (Decidable True)
  | .pump .opened => inferInstanceAs (Decidable True)
  | .pump (.openFailed _) => inferInstanceAs (Decidable True)
  | .pump (.readFailed _) => inferInstanceAs (Decidable True)

/-- Whether an event is that a consumer joins. -/
def Event.isJoin : Event → Bool
  | .join _ => true
  | _ => false

/-- Whether an event is one of the pump. -/
def Event.isPump : Event → Bool
  | .pump _ => true
  | _ => false

namespace History

/-- How often the stream was asked for. -/
def opensBegun (h : History) : Nat := (Machine.noticesOf h).countP Notice.isOpenCalled

/-- How often an attempt to open the stream came to an end. -/
def opensOver (h : History) : Nat :=
  h.countP fun t => t.event.isPump && t.before.stage? == some .opening &&
    t.after.stage? != some .opening

/-- How often an open stream was obtained. -/
def readersObtained (h : History) : Nat :=
  h.countP fun t => t.before.stage? != some .reading && t.after.stage? == some .reading

/-- How often an open stream was let go. -/
def readersDropped (h : History) : Nat := (Machine.noticesOf h).countP Notice.isReaderDropped

/-- How often consumers have joined in a run. -/
def joins (h : History) : Nat := h.countP (·.event.isJoin)

/-- How often a consumer registered beside others. -/
def retains (h : History) : Nat := (Machine.noticesOf h).countP Notice.isRetained

/-- How often a consumer was told that the stream could not be opened. -/
def openErrors (h : History) : Nat := (Machine.noticesOf h).countP Notice.isOpenError

/-- How many releases found a consumer. -/
def closes (h : History) : Nat := h.countP fun t => t.event.isRelease && t.before.refs != 0

end History

/-- One attempt to open the stream at a time, and one open stream altogether. -/
structure OneStream (h : History) (b : Buffer) : Prop where
  opens : h.opensBegun = h.opensOver + if b.stage? = some .opening then 1 else 0
  readers : h.readersObtained = h.readersDropped + if b.stage? = some .reading then 1 else 0
  once : h.readersObtained ≤ 1

/-- The count of consumers adds up, and a release without consumers changes nothing. -/
structure RefsAddUp (h : History) (b : Buffer) : Prop where
  balance : b.refs + h.closes + h.openErrors = h.joins + h.retains
  noop : ∀ t ∈ h, t.event.isRelease = true → t.before.refs = 0 → t.after = t.before

/-- Whether a move is the release of the last consumer. -/
def IsLastRelease (t : Move Buffer Event Notice) : Prop :=
  t.event.isRelease = true ∧ t.before.refs = 1 ∧ t.after.refs = 0

/-- An open stream is let go when a read has given nothing or failed, or after the last consumer has
left. -/
def DropsAreDue (h : History) : Prop :=
  ∀ past t future, h = past ++ t :: future → Notice.readerDropped ∈ t.notices →
    t.event = .pump (.received []) ∨ (∃ cause, t.event = .pump (.readFailed cause)) ∨
      ∃ r ∈ past, IsLastRelease r ∧ r.before.stage? = some .reading

/-- The release that ends the pump of a buffer is not answered before the pump is over and has let
the stream go. The last release of a buffer that was closed already, and joined again since, is
answered at once, and the pump that it finds still running is ended by the release before it. -/
def LastReleaseWaits (h : History) : Prop :=
  ∀ past r future call, h = past ++ r :: future → r.event = .release call →
    r.before.refs = 1 → r.before.isPumping = true →
      (r.before.phase ≠ .closed →
        (∀ result, Notice.answered call result ∉ r.notices) ∧
        ∀ t ∈ future, ∀ first result rest, t.notices = first ++ .answered call result :: rest →
          t.after.isPumping = false ∧ Notice.readerDropped ∉ rest) ∧
      (r.before.phase = .closed → r.notices = [.answered call (.ok ())] ∧
        ∃ first ∈ past, IsLastRelease first ∧ first.before.isPumping = true ∧
          first.before.phase ≠ .closed)

/-- A closed buffer stays closed. It asks for the stream again only if its pump had been started and
had not run, and then once. -/
def StaysClosed (h : History) : Prop :=
  ∀ past t future, h = past ++ t :: future → t.after.phase = .closed →
    (∀ u ∈ future, u.after.phase = .closed) ∧
      History.opensBegun future ≤ if t.after.stage? = some .starting then 1 else 0

namespace History

variable (h : History) (t : Move Buffer Event Notice)

/-- One more move adds the calls for the stream that it makes known. -/
theorem opensBegun_snoc :
    opensBegun (h ++ [t]) = h.opensBegun + t.notices.countP Notice.isOpenCalled := by
  simp [opensBegun]

/-- One more move ends an attempt to open if it leads the pump away from it. -/
theorem opensOver_snoc :
    opensOver (h ++ [t]) = h.opensOver +
      if t.event.isPump ∧ t.before.stage? = some .opening ∧ t.after.stage? ≠ some .opening
      then 1 else 0 := by
  simp [opensOver, List.countP_append, List.countP_singleton, and_assoc]

/-- One more move obtains a stream if it leads the pump to reading. -/
theorem readersObtained_snoc :
    readersObtained (h ++ [t]) = h.readersObtained +
      if t.before.stage? ≠ some .reading ∧ t.after.stage? = some .reading then 1 else 0 := by
  simp [readersObtained, List.countP_append, List.countP_singleton]

/-- One more move adds the streams that it lets go. -/
theorem readersDropped_snoc :
    readersDropped (h ++ [t]) = h.readersDropped + t.notices.countP Notice.isReaderDropped := by
  simp [readersDropped]

/-- One more move is a registration if it is that of a call for the stream. -/
theorem joins_snoc :
    joins (h ++ [t]) = h.joins + if t.event.isJoin then 1 else 0 := by
  simp [joins, List.countP_append, List.countP_singleton]

/-- One more move adds the registrations beside others that it makes known. -/
theorem retains_snoc :
    retains (h ++ [t]) = h.retains + t.notices.countP Notice.isRetained := by
  simp [retains]

/-- One more move adds the failures to open that it tells of. -/
theorem openErrors_snoc :
    openErrors (h ++ [t]) = h.openErrors + t.notices.countP Notice.isOpenError := by
  simp [openErrors]

/-- One more move is a release that counts if there was a consumer. -/
theorem closes_snoc :
    closes (h ++ [t]) = h.closes +
      if t.event.isRelease ∧ t.before.refs ≠ 0 then 1 else 0 := by
  simp [closes, List.countP_append, List.countP_singleton]

end History

/-- In a move that is no panic of an opening, as many openings begin as end or are under way after
it and were not before. -/
theorem StageMove.opens_eq {b : Buffer} (consistent : b.Consistent) {event : Event}
    {r : Buffer × List Notice} (move : StageMove b event r)
    (calm : event ≠ .pump .openPanicked) :
    r.2.countP Notice.isOpenCalled + (if b.stage? = some .opening then 1 else 0) =
      (if event.isPump ∧ b.stage? = some .opening ∧ r.1.stage? ≠ some .opening then 1 else 0) +
        if r.1.stage? = some .opening then 1 else 0 := by
  cases move with
  | stays stage phase called => simp [stage, called]
  | starts idle stage called =>
      simp [(stage?_ne_opening_of_idle consistent idle).1, stage, called]
  | calls before stage phase called => simp [before, stage, called]
  | opens before unasked stage phase called => simp [before, stage, called, Event.isPump]
  | ends stage panicked running before after phase called dropped cause =>
      have late : stage ≠ .starting := by
        rintro rfl
        cases cause with
        | asked p hp asked stage past => rcases past with past | past <;> cases past
        | callBroke => exact calm rfl
      simp [before, after, called, late, Event.isPump]

/-- In a move as many streams are obtained as are let go or held after it and were not before. -/
theorem StageMove.readers_eq {b : Buffer} (consistent : b.Consistent) {event : Event}
    {r : Buffer × List Notice} (move : StageMove b event r) :
    (if b.stage? ≠ some .reading ∧ r.1.stage? = some .reading then 1 else 0) +
        (if b.stage? = some .reading then 1 else 0) =
      r.2.countP Notice.isReaderDropped + if r.1.stage? = some .reading then 1 else 0 := by
  cases move with
  | stays stage phase called dropped => simp [stage, dropped]
  | starts idle stage called dropped =>
      simp [(stage?_ne_opening_of_idle consistent idle).2, stage, dropped]
  | calls before stage phase called dropped => simp [before, stage, dropped]
  | opens before unasked stage phase called dropped => simp [before, stage, dropped]
  | ends stage panicked running before after phase called dropped =>
      simp [before, after, dropped]

/-- The invariant behind `OneStream`: as long as no stream has been obtained, one still can be. -/
structure OneStreamSoFar (h : History) (b : Buffer) : Prop extends OneStream h b where
  read : h.readersObtained = 0 ∨ b.HasRead

/-- One open stream altogether is all that a move leaves possible. -/
theorem OneStreamSoFar.stageMove {h : History} {b : Buffer} (consistent : b.Consistent)
    (so_far : OneStreamSoFar h b) (now : Nat) {event : Event} {r : Buffer × List Notice}
    (move : StageMove b event r) (calm : event ≠ .pump .openPanicked) :
    OneStreamSoFar (h ++ [⟨b, now, event, r.2, r.1⟩]) r.1 := by
  have opens := move.opens_eq consistent calm
  have readers := move.readers_eq consistent
  have opens_before := so_far.opens
  have readers_before := so_far.readers
  have read : (b.stage? ≠ some .reading ∧ r.1.stage? = some .reading →
        h.readersObtained = 0 ∧ r.1.HasRead) ∧ (h.readersObtained = 0 ∨ r.1.HasRead) := by
    refine ⟨?_, so_far.read.imp_right fun hr => hr.stageMove move⟩
    rintro ⟨other, reading⟩
    cases move with
    | stays stage => exact absurd (stage.symm.trans reading) other
    | starts idle stage => simp [stage] at reading
    | calls before stage => simp [stage] at reading
    | opens before unasked stage phase =>
        have idle : b.phase ≠ .idle := fun hi =>
          (stage?_ne_opening_of_idle consistent hi).1 before
        refine ⟨?_, phase ▸ idle, .inl stage⟩
        rcases so_far.read with none_ | ⟨-, hr⟩
        · exact none_
        · simp [before] at hr
    | ends stage panicked running before after => simp [after] at reading
  refine ⟨⟨?_, ?_, ?_⟩, ?_⟩
  · rw [History.opensBegun_snoc, History.opensOver_snoc]
    dsimp only
    omega
  · rw [History.readersObtained_snoc, History.readersDropped_snoc]
    dsimp only
    omega
  · rw [History.readersObtained_snoc]
    dsimp only
    split
    · rename_i obtained
      have none_ := (read.1 obtained).1
      omega
    · exact so_far.once
  · rw [History.readersObtained_snoc]
    dsimp only
    split
    · rename_i obtained
      exact .inr (read.1 obtained).2
    · exact read.2

/-- Until the stream is open, the call that started the pump waits and nothing watches. -/
def OpenerWaits (b : Buffer) : Prop :=
  ∀ p, b.pump = some p → p.stage = .starting ∨ p.stage = .opening →
    b.isAwaited p = true ∧ p.confirmation = .absent

/-- Past the opening there is nobody who has to wait for the stream. -/
theorem openerWaits_of_stage {b : Buffer} (stage : PumpStage) (h : b.stage? = some stage)
    (past : stage ≠ .starting ∧ stage ≠ .opening) : b.OpenerWaits := by
  intro p hp early
  rw [stage?, hp, Option.map_some, Option.some.injEq] at h
  rw [h] at early
  rcases early with he | he
  · exact absurd he past.1
  · exact absurd he past.2

namespace OpenerWaits

variable {b : Buffer}

/-- Whatever a call does, the opener goes on waiting for the stream. -/
theorem callMove (h : b.OpenerWaits) {event : Event} (cooperative : b.Cooperative event)
    {r : Buffer × List Notice} (move : CallMove b event r) : r.1.OpenerWaits := by
  cases move with
  | joins | retains | refuses | releasesNothing | releasesOne | leaves => exact h
  | starts call unused idle =>
      rintro _ ⟨⟩ -
      simp [isAwaited]
  | leavesEnded call p panicked last held pump stage =>
      exact openerWaits_of_stage (.ended panicked) (by simp [stage?, stage]) (by simp)
  | leavesRunning call p last held pump stage =>
      rintro _ ⟨⟩ early
      obtain ⟨awaited, absent⟩ := h p pump early
      refine ⟨?_, absent⟩
      -- The release has a name of its own, so it does not take the place of the opener.
      have fresh : b.calls.find? call = none := cooperative
      simp only [isAwaited, Bool.and_eq_true, decide_eq_true_eq] at awaited ⊢
      have other : p.opener ≠ call := by
        intro same
        rw [same, fresh] at awaited
        cases awaited.2
      rw [CallTable.find?_set_of_ne _ other]
      exact awaited
  | abandons => exact cooperative.elim

/-- Whatever happens to the pump, the opener waits until the stream is open. -/
theorem pumpMove (h : b.OpenerWaits) {p : Pump} (hp : b.pump = some p) {event : PumpEvent}
    {r : Buffer × List Notice} (move : PumpMove b p event r) : r.1.OpenerWaits := by
  have ended : ∀ (c : Buffer) (panicked : Bool), c.stage? = some (.ended panicked) →
      c.OpenerWaits := fun c panicked hc => openerWaits_of_stage _ hc (by simp)
  cases move with
  | ignores => exact h
  | starts stage =>
      rintro _ ⟨⟩ -
      exact h p hp (.inl stage)
  | opens => exact openerWaits_of_stage .reading rfl (by simp)
  | failsToOpen => exact ended _ false (by rw [failOpen_eq]; rfl)
  | breaksCall | breaksOpening | breaksReading => exact ended _ true (by rw [breakOff_eq]; rfl)
  | ends => exact ended _ false (by rw [reachEnd_eq]; rfl)
  | takes bytes nonempty stage =>
      cases hc : (b.content.commit b.transform bytes).2 with
      | true =>
          rw [take_of_published b p bytes hc]
          exact openerWaits_of_stage .reading (congrArg _ stage) (by simp)
      | false =>
          rw [take_of_not_published b p bytes hc]
          exact ended _ true (by rw [breakOff_eq]; rfl)
  | fails => exact ended _ false (by rw [fail_eq]; rfl)
  | stops => exact ended _ false (by rw [stop_eq]; rfl)

/-- There is no watch as long as the stream is not open. -/
theorem watchMove (h : b.OpenerWaits) {p : Pump} (hp : b.pump = some p)
    {r : Buffer × List Notice} (move : WatchMove b p r) : r.1.OpenerWaits := by
  cases move with
  | waits confirmation watched still =>
      rintro _ ⟨⟩ early
      exact absurd (h p hp early).2 watched
  | settles result watched reason =>
      rintro _ ⟨⟩ early
      exact absurd (h p hp early).2 watched

/-- Among cooperative surroundings the opener waits until the stream is open. -/
theorem apply (h : b.OpenerWaits) (now : Nat) {event : Event}
    (cooperative : b.Cooperative event) : (b.apply now event).1.OpenerWaits := by
  rcases apply_cases b now event with ⟨-, same⟩ | move | ⟨p, hp, ⟨done, -, move⟩ | ⟨-, move⟩⟩
  · rw [same]
    exact h
  · exact h.callMove cooperative move
  · exact h.pumpMove hp move
  · exact h.watchMove hp move

end OpenerWaits

/-- What a call does to the count of consumers is what it adds to the history. -/
theorem refs_callMove {b : Buffer} {event : Event} {r : Buffer × List Notice}
    (move : CallMove b event r) :
    r.1.refs + (if event.isRelease ∧ b.refs ≠ 0 then 1 else 0) +
        r.2.countP Notice.isOpenError =
      b.refs + (if event.isJoin then 1 else 0) + r.2.countP Notice.isRetained := by
  cases move with
  | joins | retains | refuses => simp [Event.isRelease, Event.isJoin]
  | abandons => simp [Event.isRelease, Event.isJoin, abandon]
  | starts call unused idle => simp [Event.isRelease, Event.isJoin, unused]
  | releasesNothing call unused => simp [Event.isRelease, Event.isJoin, unused]
  | releasesOne call refs shared => simp [Event.isRelease, Event.isJoin, shared]
  | leaves call last free => simp [Event.isRelease, Event.isJoin, last]
  | leavesEnded call p panicked last => simp [Event.isRelease, Event.isJoin, last]
  | leavesRunning call p last => simp [Event.isRelease, Event.isJoin, last]

/-- The pump lowers the count of consumers only when it tells its opener of a failure. -/
theorem refs_pumpMove {b : Buffer} (consistent : b.Consistent) (waits : b.OpenerWaits) {p : Pump}
    (hp : b.pump = some p) {event : PumpEvent} {r : Buffer × List Notice}
    (move : PumpMove b p event r) :
    r.1.refs + r.2.countP Notice.isOpenError = b.refs + r.2.countP Notice.isRetained := by
  have broken : ∀ c : Buffer, (c.breakOff p).1.refs + (c.breakOff p).2.countP Notice.isOpenError =
      c.refs + (c.breakOff p).2.countP Notice.isRetained := by
    intro c
    rw [breakOff_eq]
    cases isLastWord p true <;> simp
  cases move with
  | ignores | starts | opens => rfl
  | failsToOpen cause stage asked =>
      -- A buffer that streams has a consumer, so there is a registration to undo.
      have streaming := consistent.streaming_of_running hp (by rw [stage]; rfl) asked
      have used : 0 < b.refs := (consistent.engaged (.inl streaming)).1
      have awaited := (waits p hp (.inr stage)).1
      rw [failOpen_eq]
      simp [verdict, awaited]
      omega
  | breaksCall => simpa using broken b
  | breaksOpening | breaksReading => exact broken b
  | ends => simp [reachEnd_eq]
  | takes bytes nonempty stage asked fits =>
      cases hc : (b.content.commit b.transform bytes).2 with
      | true =>
          rw [take_of_published b p bytes hc]
          simp
      | false =>
          rw [take_of_not_published b p bytes hc]
          have := broken { b with content := (b.content.commit b.transform bytes).1 }
          simp only [List.countP_append]
          simpa using this
  | fails => simp [fail_eq]
  | stops => simp [stop_eq]

/-- What an event does to the count of consumers is what it adds to the history. -/
theorem refs_apply {b : Buffer} (consistent : b.Consistent) (waits : b.OpenerWaits) (now : Nat)
    (event : Event) :
    (b.apply now event).1.refs + (if event.isRelease ∧ b.refs ≠ 0 then 1 else 0) +
        (b.apply now event).2.countP Notice.isOpenError =
      b.refs + (if event.isJoin then 1 else 0) +
        (b.apply now event).2.countP Notice.isRetained := by
  rcases apply_cases b now event with
    ⟨other, same⟩ | move | ⟨p, hp, ⟨done, rfl, move⟩ | ⟨⟨heeding, rfl⟩, move⟩⟩
  · rw [same]
    cases event <;> simp_all [Event.isCall, Event.isRelease, Event.isJoin]
  · exact refs_callMove move
  · simpa [Event.isRelease, Event.isJoin] using refs_pumpMove consistent waits hp move
  · generalize b.apply now (.watch heeding) = r at move ⊢
    cases move with
    | waits => simp [Event.isRelease, Event.isJoin]
    | settles result watched reason =>
        have other : Notice.isOpenError (.answered p.opener result) = false := by
          rcases reason with rfl | ⟨rfl, -⟩ <;> rfl
        simp [Event.isRelease, Event.isJoin, other]

/-- A release without consumers changes nothing. -/
theorem apply_of_release_unused {b : Buffer} (unused : b.refs = 0) (now : Nat) {event : Event}
    (released : event.isRelease = true) : (b.apply now event).1 = b := by
  cases event with
  | release call => simp [apply, release, unused]
  | _ => cases released

/-- The count of consumers adds up after a move if it did before. -/
theorem RefsAddUp.step {h : History} {b : Buffer} (consistent : b.Consistent)
    (waits : b.OpenerWaits) (refs : RefsAddUp h b) (now : Nat) (event : Event) :
    RefsAddUp (h ++ [Machine.move apply b now event]) (b.apply now event).1 := by
  have balance := refs_apply consistent waits now event
  have before := refs.balance
  refine ⟨?_, ?_⟩
  · rw [History.closes_snoc, History.openErrors_snoc, History.joins_snoc, History.retains_snoc]
    show (b.apply now event).1.refs +
          (h.closes + if event.isRelease ∧ b.refs ≠ 0 then 1 else 0) +
          (h.openErrors + (b.apply now event).2.countP Notice.isOpenError) =
        (h.joins + if event.isJoin then 1 else 0) +
          (h.retains + (b.apply now event).2.countP Notice.isRetained)
    omega
  · intro t member released unused
    rw [List.mem_append, List.mem_singleton] at member
    rcases member with old | rfl
    · exact refs.noop t old released unused
    · exact apply_of_release_unused unused now released

/-- A pump that runs in a closed buffer was as far when the last consumer left, or has only called
for the stream since. -/
def RunningWhenLeft (h : History) (b : Buffer) : Prop :=
  ∀ stage, b.stage? = some stage → stage.isOver = false → b.phase = .closed →
    ∃ r ∈ h, IsLastRelease r ∧ r.before.phase ≠ .closed ∧
      (r.before.stage? = some stage ∨ stage = .opening ∧ r.before.stage? = some .starting)

/-- Whoever joins an idle buffer does not close it. -/
theorem unclosed_join {b : Buffer} (idle : b.phase = .idle) (now : Nat) (call : CallId) :
    (b.apply now (.join call)).1.phase ≠ .closed := by
  simp only [apply, join]
  split <;> simp [idle]

/-- A pump that runs in a closed buffer was running when that was closed, one move later too. -/
theorem RunningWhenLeft.step {h : History} {b : Buffer} (consistent : b.Consistent)
    (left : RunningWhenLeft h b) (now : Nat) (event : Event) :
    RunningWhenLeft (h ++ [Machine.move apply b now event]) (b.apply now event).1 := by
  intro stage running gone closed
  have move := stageMove_apply b now event
  have old : b.stage? = some stage → b.phase = .closed →
      ∃ r ∈ h ++ [Machine.move apply b now event], IsLastRelease r ∧ r.before.phase ≠ .closed ∧
        (r.before.stage? = some stage ∨ stage = .opening ∧ r.before.stage? = some .starting) := by
    intro running closed
    obtain ⟨r, member, last, before⟩ := left stage running gone closed
    exact ⟨r, List.mem_append_left _ member, last, before⟩
  generalize hr : b.apply now event = r at move running closed
  cases move with
  | stays same phase =>
      rcases phase with still | ⟨released, one, zero, -⟩
      · exact old (same ▸ running) (still ▸ closed)
      · -- Whoever joined a closed buffer and leaves it again is not the one who closed it.
        by_cases before : b.phase = .closed
        · exact old (same ▸ running) before
        · refine ⟨Machine.move apply b now event, by simp, ⟨released, one, ?_⟩, before,
            .inl (same ▸ running)⟩
          simpa [Machine.move, hr] using zero
  | starts idle => exact absurd (hr ▸ closed) (unclosed_join idle now _)
  | calls before after phase =>
      rw [after, Option.some.injEq] at running
      obtain ⟨r, member, last, unclosed, stage⟩ := left .starting before rfl (phase ▸ closed)
      exact ⟨r, List.mem_append_left _ member, last, unclosed,
        .inr ⟨running.symm, stage.resolve_right (by simp)⟩⟩
  | opens before unasked _ phase =>
      exact absurd (phase ▸ closed) (unclosed_of_unasked consistent before rfl unasked)
  | ends _ panicked _ before after =>
      rw [after, Option.some.injEq] at running
      rw [← running] at gone
      cases gone

/-- Among cooperative surroundings an open stream is let go when a read has given nothing or failed,
or in a closed buffer. -/
theorem drop_due {b : Buffer} (consistent : b.Consistent) (now : Nat) {event : Event}
    (cooperative : b.Cooperative event) (member : Notice.readerDropped ∈ (b.apply now event).2) :
    event = .pump (.received []) ∨ (∃ cause, event = .pump (.readFailed cause)) ∨
      b.stage? = some .reading ∧ b.phase = .closed := by
  obtain ⟨reading, event, rfl, cause⟩ := ends_of_readerDropped member
  cases cause with
  | asked p hp asked =>
      refine .inr (.inr ⟨reading, ?_⟩)
      have stage : p.stage = .reading := by simpa [stage?, hp] using reading
      have phase := consistent.running p hp (by rw [stage]; rfl)
      rwa [asked] at phase
  | streamEnded => exact .inl rfl
  | readFailed cause => exact .inr (.inl ⟨cause, rfl⟩)
  | readBroke => exact cooperative.elim
  | transformBroke bytes unpublished =>
      have published : (b.content.commit b.transform bytes).2 = true := cooperative
      rw [unpublished] at published
      cases published

/-- A call that waits for the end of the pump of a closed buffer. -/
structure Waits (call : CallId) (b : Buffer) : Prop where
  consistent : b.Consistent
  closed : b.phase = .closed
  pumping : b.isPumping = true
  waiting : b.calls.find? call = some .pumpEnd

/-- A closed buffer whose pump is over. -/
structure Over (b : Buffer) : Prop where
  consistent : b.Consistent
  closed : b.phase = .closed
  gone : b.isPumping = false

/-- A closed buffer whose pump is over stays so, and has no stream to let go. -/
theorem Over.apply {b : Buffer} (h : b.Over) (now : Nat) (event : Event) :
    (b.apply now event).1.Over ∧ Notice.readerDropped ∉ (b.apply now event).2 := by
  have consistent := h.consistent.apply now event
  have closed := closed_apply h.consistent h.closed now event
  have hover := h.gone
  unfold isPumping at hover
  have move := stageMove_apply b now event
  generalize b.apply now event = r at move consistent closed
  cases move with
  | stays stage phase called dropped =>
      exact ⟨⟨consistent, closed, by rw [isPumping, stage]; exact hover⟩,
        Notice.readerDropped_not_mem_iff.mpr dropped⟩
  | starts idle => simp [h.closed] at idle
  | calls before => simp [before, PumpStage.isOver] at hover
  | opens before => simp [before, PumpStage.isOver] at hover
  | ends stage panicked running before => simp [before, running] at hover

/-- What is waited for: the call is answered when the pump is over and the stream let go. -/
def AnswersWhenOver (call : CallId) (r : Buffer × List Notice) : Prop :=
  ∀ first result rest, r.2 = first ++ .answered call result :: rest →
    r.1.isPumping = false ∧ Notice.readerDropped ∉ rest

/-- A call that is not answered is not answered too early. -/
theorem answersWhenOver_of_not_mem {call : CallId} {r : Buffer × List Notice}
    (none_ : ∀ result, Notice.answered call result ∉ r.2) : AnswersWhenOver call r := by
  intro first result rest split
  exact absurd (split ▸ by simp) (none_ result)

/-- A pump that ends lets its stream go before it answers. -/
theorem readerDropped_not_mem_of_dropped_append {p : Pump} {later first rest : List Notice}
    (quiet : Notice.readerDropped ∉ later) {call : CallId} {result : Except StreamError Unit}
    (split : dropped p ++ later = first ++ .answered call result :: rest) :
    Notice.readerDropped ∉ rest := by
  intro member
  unfold dropped at split
  split at split
  · cases first with
    | nil => simp at split
    | cons notice first =>
        simp only [List.cons_append, List.nil_append, List.cons.injEq] at split
        exact quiet (split.2 ▸ by simp [member])
  · rw [List.nil_append] at split
    exact quiet (split ▸ by simp [member])

namespace Waits

variable {call : CallId} {b : Buffer}

/-- Whatever another call does, one that waits for the end of the pump goes on waiting. -/
theorem callMove (h : Waits call b) {event : Event} (cooperative : b.Cooperative event)
    {r : Buffer × List Notice} (move : CallMove b event r) (consistent : r.1.Consistent)
    (closed : r.1.phase = .closed) : Waits call r.1 ∧ AnswersWhenOver call r := by
  have other : ∀ call', b.calls.find? call' = none → ∀ result result',
      Notice.answered call result ∉ [Notice.answered call' result'] := by
    intro call' fresh result result' member
    simp only [List.mem_singleton, Notice.answered.injEq] at member
    rw [← member.1, h.waiting] at fresh
    cases fresh
  cases move with
  | joins call' shared =>
      exact ⟨⟨consistent, closed, h.pumping, h.waiting⟩,
        answersWhenOver_of_not_mem fun result => other call' cooperative result _⟩
  | starts call' unused idle => simp [h.closed] at idle
  | retains used =>
      exact ⟨⟨consistent, closed, h.pumping, h.waiting⟩,
        answersWhenOver_of_not_mem fun result => by simp⟩
  | refuses unused => exact ⟨h, answersWhenOver_of_not_mem fun result => by simp⟩
  | releasesNothing call' unused =>
      exact ⟨h, answersWhenOver_of_not_mem fun result => other call' cooperative result _⟩
  | releasesOne call' refs shared =>
      exact ⟨⟨consistent, closed, h.pumping, h.waiting⟩,
        answersWhenOver_of_not_mem fun result => other call' cooperative result _⟩
  | leaves call' last free =>
      exact ⟨⟨consistent, closed, h.pumping, h.waiting⟩,
        answersWhenOver_of_not_mem fun result => other call' cooperative result _⟩
  | leavesEnded call' p panicked last held pump stage =>
      rw [h.consistent.disengaged (.inr h.closed)] at held
      cases held
  | leavesRunning call' p last held pump stage =>
      rw [h.consistent.disengaged (.inr h.closed)] at held
      cases held
  | abandons call' => exact cooperative.elim

/-- Only the end of the pump answers a call that waits for it. -/
theorem pumpMove (h : Waits call b) {p : Pump} (hp : b.pump = some p) {event : PumpEvent}
    {r : Buffer × List Notice} (move : PumpMove b p event r) (consistent : r.1.Consistent)
    (closed : r.1.phase = .closed) : (Waits call r.1 ∨ r.1.Over) ∧ AnswersWhenOver call r := by
  rcases move.of_asked (h.consistent.asked_of_closed h.closed hp) with
    rfl | rfl | ⟨stage, rfl | rfl⟩
  · exact ⟨.inl h, answersWhenOver_of_not_mem fun result => by simp⟩
  · rw [stop_eq] at consistent closed ⊢
    refine ⟨.inr ⟨consistent, closed, rfl⟩, ?_⟩
    intro first result rest split
    refine ⟨rfl, ?_⟩
    rw [List.append_assoc] at split
    refine readerDropped_not_mem_of_dropped_append ?_ split
    exact Notice.readerDropped_not_mem_iff.mpr (by simp)
  · exact ⟨.inl ⟨consistent, closed, rfl, h.waiting⟩,
      answersWhenOver_of_not_mem fun result => by simp⟩
  · -- There is no stream to let go yet.
    have quiet : ([Notice.openCalled] ++ (b.breakOff p).2).countP Notice.isReaderDropped = 0 := by
      rw [breakOff_eq, List.countP_append]
      cases isLastWord p true <;> simp [stage]
    have gone : (b.breakOff p).1.isPumping = false := by
      rw [breakOff_eq]
      rfl
    refine ⟨.inr ⟨consistent, closed, gone⟩, fun first result rest split => ⟨gone, ?_⟩⟩
    intro member
    refine Notice.readerDropped_not_mem_iff.mpr quiet ?_
    rw [show [Notice.openCalled] ++ (b.breakOff p).2 = _ from split]
    simp [member]

/-- The watch does not answer a call that waits for the end of the pump. -/
theorem watchMove (h : Waits call b) {p : Pump} (hp : b.pump = some p)
    {r : Buffer × List Notice} (move : WatchMove b p r) (consistent : r.1.Consistent)
    (closed : r.1.phase = .closed) : Waits call r.1 ∧ AnswersWhenOver call r := by
  have pumping : p.stage.isOver = false := by
    obtain ⟨q, hq, running⟩ := isPumping_eq_true_iff.mp h.pumping
    rw [hp, Option.some.injEq] at hq
    exact hq ▸ running
  have other : b.isAwaited p = true → call ≠ p.opener := by
    intro awaited same
    simp only [isAwaited, Bool.and_eq_true, decide_eq_true_eq] at awaited
    rw [← same, h.waiting] at awaited
    cases awaited.2
  cases move with
  | waits confirmation watched still =>
      exact ⟨⟨consistent, closed, isPumping_eq_true_iff.mpr ⟨_, rfl, pumping⟩, h.waiting⟩,
        answersWhenOver_of_not_mem fun result => by simp⟩
  | settles result watched reason =>
      refine ⟨⟨consistent, closed, isPumping_eq_true_iff.mpr ⟨_, rfl, pumping⟩, ?_⟩,
        answersWhenOver_of_not_mem fun result' => ?_⟩
      · unfold callsAfterVerdict
        split
        · rename_i awaited
          show (b.calls.erase p.opener).find? call = some .pumpEnd
          rw [CallTable.find?_erase_of_ne _ (other awaited)]
          exact h.waiting
        · exact h.waiting
      · unfold verdict
        split
        · rename_i awaited
          simp [other awaited]
        · simp

/-- A call that waits for the end of the pump waits on, or the pump is over. -/
theorem apply (h : Waits call b) (now : Nat) {event : Event} (cooperative : b.Cooperative event) :
    (Waits call (b.apply now event).1 ∨ (b.apply now event).1.Over) ∧
      AnswersWhenOver call (b.apply now event) := by
  have consistent := h.consistent.apply now event
  have closed := closed_apply h.consistent h.closed now event
  rcases apply_cases b now event with ⟨-, same⟩ | move | ⟨p, hp, ⟨done, -, move⟩ | ⟨-, move⟩⟩
  · rw [same]
    exact ⟨.inl h, answersWhenOver_of_not_mem fun result => by simp⟩
  · exact (h.callMove cooperative move consistent closed).imp_left .inl
  · exact h.pumpMove hp move consistent closed
  · exact (h.watchMove hp move consistent closed).imp_left .inl

end Waits

section

variable {name : String} {options : BufferOptions} {transform : Option Transform}
  {events : List (Nat × Event)}

/-- In every run phase, consumers and pump go on fitting together. -/
theorem consistent_final (b : Buffer) (h : b.Consistent) (events : List (Nat × Event)) :
    (Machine.final apply b events).Consistent :=
  Machine.final_induction apply Consistent h (fun _ now event hb _ => hb.apply now event)
    (Machine.allows_true apply b events)

/-- What is true of the past of a buffer and of the buffer itself at any time. -/
structure LifeSoFar (h : History) (b : Buffer) : Prop where
  consistent : b.Consistent
  stream : OneStreamSoFar h b
  waits : b.OpenerWaits
  refs : RefsAddUp h b
  left : RunningWhenLeft h b

/-- A new buffer has no past. -/
theorem lifeSoFar_create : LifeSoFar [] (create name options transform) where
  consistent := .create name options transform
  stream := ⟨⟨rfl, rfl, Nat.zero_le _⟩, .inl rfl⟩
  waits := by
    rintro _ ⟨⟩
  refs := ⟨rfl, by simp⟩
  left := fun _ running => by
    cases running

/-- In every run among cooperative surroundings the past and the buffer agree. -/
theorem lifeSoFar_of_run
    (h : Machine.Allows apply Cooperative (create name options transform) events) :
    LifeSoFar (Machine.history apply (create name options transform) events)
      (Machine.final apply (create name options transform) events) := by
  refine Machine.history_induction apply LifeSoFar lifeSoFar_create ?_ h
  intro past b now event before cooperative
  exact ⟨before.consistent.apply now event,
    before.stream.stageMove before.consistent now (stageMove_apply b now event)
      (by rintro rfl; exact cooperative),
    before.waits.apply now cooperative, before.refs.step before.consistent before.waits now event,
    before.left.step before.consistent now event⟩

/-- In every run among cooperative surroundings an open stream is let go only when that is due. -/
theorem dropsAreDue_of_run
    (h : Machine.Allows apply Cooperative (create name options transform) events) :
    DropsAreDue (Machine.history apply (create name options transform) events) := by
  intro past t future split member
  obtain ⟨earlier, now, event, later, rfl, rfl, rfl, rfl⟩ :=
    Machine.exists_of_history_eq_append apply split
  obtain ⟨before, cooperative, -⟩ := (Machine.allows_append apply _ _ _).mp h
  have so_far := lifeSoFar_of_run before
  rcases drop_due so_far.consistent now cooperative member with
    ended | failed | ⟨reading, closed⟩
  · exact .inl ended
  · exact .inr (.inl failed)
  · obtain ⟨r, first, last, -, stage⟩ := so_far.left _ reading rfl closed
    exact .inr (.inr ⟨r, first, last, stage.resolve_right (by simp)⟩)

/-- From the moment when a call waits for the end of the pump, it is answered only when that is
over. -/
theorem answersWhenOver_of_waits {b : Buffer} {call : CallId} (waits : Waits call b)
    (h : Machine.Allows apply Cooperative b events) :
    ∀ t ∈ Machine.history apply b events, AnswersWhenOver call (t.after, t.notices) := by
  refine (Machine.history_induction apply
    (fun past c => (Waits call c ∨ c.Over) ∧
      ∀ t ∈ past, AnswersWhenOver call (t.after, t.notices))
    ⟨.inl waits, by simp⟩ ?_ h).2
  rintro past c now event ⟨state, old⟩ cooperative
  have step : (Waits call (c.apply now event).1 ∨ (c.apply now event).1.Over) ∧
      AnswersWhenOver call (c.apply now event) := by
    rcases state with waiting | gone
    · exact waiting.apply now cooperative
    · obtain ⟨still, quiet⟩ := gone.apply now event
      refine ⟨.inr still, ?_⟩
      intro first result rest split
      exact ⟨still.gone, fun member => quiet (split ▸ by simp [member])⟩
  refine ⟨step.1, ?_⟩
  intro t member
  rw [List.mem_append, List.mem_singleton] at member
  rcases member with before | rfl
  · exact old t before
  · exact step.2

/-- The release that closes a buffer whose pump runs begins to wait for the end of the pump. -/
theorem waits_of_last_release {b : Buffer} (consistent : b.Consistent) {call : CallId}
    (last : b.refs = 1) (pumping : b.isPumping = true) (unclosed : b.phase ≠ .closed) (now : Nat) :
    Waits call (b.apply now (.release call)).1 ∧
      ∀ result, Notice.answered call result ∉ (b.apply now (.release call)).2 := by
  obtain ⟨p, hp, running⟩ := isPumping_eq_true_iff.mp pumping
  -- Of the phases with a running pump only `streaming` is left, and there the pump is held.
  have streaming : b.phase = .streaming := by
    have hphase := consistent.running p hp running
    cases ha : p.releaseAsked with
    | false => simpa [ha] using hphase
    | true => exact absurd (by simpa [ha] using hphase) unclosed
  have held := (consistent.engaged (.inl streaming)).2.1
  have after := consistent.apply now (.release call)
  have move : CallMove b (.release call) (b.apply now (.release call)) :=
    callMove_release b call
  generalize b.apply now (.release call) = r at move after
  cases move with
  | releasesNothing call unused => omega
  | releasesOne call refs shared => omega
  | leaves call last free => simp [held, hp] at free
  | leavesEnded call q panicked last held hq stage =>
      rw [hp, Option.some.injEq] at hq
      rw [hq, stage] at running
      cases running
  | leavesRunning call q last held hq stage =>
      refine ⟨⟨after, by simp [streaming, Phase.afterLastRelease],
        isPumping_eq_true_iff.mpr ⟨_, rfl, stage⟩, by simp⟩, by simp⟩

/-- The last release of a buffer that is closed already finds no pump that it has to end. -/
theorem notices_release_of_closed {b : Buffer} (consistent : b.Consistent)
    (closed : b.phase = .closed) (last : b.refs = 1) (call : CallId) :
    (b.release call).2 = [.answered call (.ok ())] := by
  have held := consistent.disengaged (.inr closed)
  unfold release
  rw [last]
  dsimp only
  rw [held]

/-- In every run among cooperative surroundings the release that closes a buffer waits for its pump,
and one that comes after it is answered at once. -/
theorem lastReleaseWaits_of_run
    (h : Machine.Allows apply Cooperative (create name options transform) events) :
    LastReleaseWaits (Machine.history apply (create name options transform) events) := by
  intro past r future call split released last pumping
  obtain ⟨earlier, now, event, later, rfl, rfl, rfl, rfl⟩ :=
    Machine.exists_of_history_eq_append apply split
  obtain ⟨before, -, after⟩ := (Machine.allows_append apply _ _ _).mp h
  have hevent : event = .release call := released
  subst hevent
  have so_far := lifeSoFar_of_run before
  refine ⟨fun unclosed => ?_, fun closed => ?_⟩
  · obtain ⟨waits, unanswered⟩ :=
      waits_of_last_release so_far.consistent last pumping unclosed now
    exact ⟨unanswered, answersWhenOver_of_waits waits after⟩
  · obtain ⟨p, hp, running⟩ := isPumping_eq_true_iff.mp pumping
    have stage : (Machine.final apply (create name options transform) earlier).stage? =
        some p.stage := congrArg (Option.map _) hp
    obtain ⟨first, member, left, unclosed, same⟩ := so_far.left _ stage running closed
    refine ⟨notices_release_of_closed so_far.consistent closed last call, first, member, left, ?_,
      unclosed⟩
    rcases same with same | ⟨-, same⟩
    · simp [isPumping, same, running]
    · simp [isPumping, same, PumpStage.isOver]

/-- In a closed buffer the pump that has not run yet is the only one that can still ask for the
stream, and it is never followed by another. -/
theorem opensBegun_apply_of_closed {b : Buffer} (closed : b.phase = .closed) (now : Nat)
    (event : Event) :
    ((b.apply now event).2.countP Notice.isOpenCalled +
        if (b.apply now event).1.stage? = some .starting then 1 else 0) ≤
      if b.stage? = some .starting then 1 else 0 := by
  have move := stageMove_apply b now event
  generalize b.apply now event = r at move
  cases move with
  | stays stage phase called => simp [stage, called]
  | starts idle => simp [closed] at idle
  | calls before stage phase called => simp [before, stage, called]
  | opens before unasked stage phase called => simp [stage, called]
  | ends stage panicked running before after phase called => simp [before, after, called]

/-- From a closed buffer on, the buffer stays closed and its pump asks for the stream at most once,
in its first run. -/
theorem closed_of_run {b : Buffer} (consistent : b.Consistent) (closed : b.phase = .closed) :
    (∀ u ∈ Machine.history apply b events, u.after.phase = .closed) ∧
      History.opensBegun (Machine.history apply b events) ≤
        if b.stage? = some .starting then 1 else 0 := by
  have stays := Machine.history_induction apply
    (fun (past : History) c => c.Consistent ∧ c.phase = .closed ∧
      (∀ u ∈ past, u.after.phase = .closed) ∧
      past.opensBegun + (if c.stage? = some .starting then 1 else 0) ≤
        if b.stage? = some .starting then 1 else 0)
    ⟨consistent, closed, by simp, by simp [History.opensBegun, Machine.noticesOf]⟩
    ?_ (Machine.allows_true apply b events)
  · exact ⟨stays.2.2.1, Nat.le_trans (Nat.le_add_right _ _) stays.2.2.2⟩
  rintro past c now event ⟨hc, closed, old, begun⟩ -
  have still := closed_apply hc closed now event
  refine ⟨hc.apply now event, still, ?_, ?_⟩
  · intro u member
    rw [List.mem_append, List.mem_singleton] at member
    rcases member with before | rfl
    · exact old u before
    · exact still
  · have step := opensBegun_apply_of_closed closed now event
    rw [History.opensBegun_snoc]
    dsimp only [Machine.move]
    omega

/-- In every run a closed buffer stays closed. -/
theorem staysClosed_of_run (b : Buffer) (consistent : b.Consistent) :
    StaysClosed (Machine.history apply b events) := by
  intro past t future split closed
  obtain ⟨earlier, now, event, later, rfl, rfl, rfl, rfl⟩ :=
    Machine.exists_of_history_eq_append apply split
  exact closed_of_run ((consistent_final b consistent earlier).apply now event) closed

/-- In every run among cooperative surroundings, however calls, pump and watch take turns: one
attempt to open the stream is under way at a time and one stream is obtained at most; the count of
consumers is that of registrations less failed openings less releases, and a release without
consumers is void; an open stream is let go only when a read has given nothing or failed or after
the last release; the release that ends a running pump is answered only when the pump is over, and
one that finds the buffer closed already is answered at once and comes after it; and a closed buffer
stays closed and asks for the stream only in the first run of a pump that it had started before. -/
theorem lifecycle (name : String) (options : BufferOptions) (transform : Option Transform)
    (events : List (Nat × Event))
    (cooperative : Machine.Allows apply Cooperative (create name options transform) events) :
    let h : History := Machine.history apply (create name options transform) events
    let b := Machine.final apply (create name options transform) events
    OneStream h b ∧ RefsAddUp h b ∧ DropsAreDue h ∧ LastReleaseWaits h ∧ StaysClosed h := by
  intro h b
  have so_far : LifeSoFar h b := lifeSoFar_of_run cooperative
  exact ⟨so_far.stream.toOneStream, so_far.refs, dropsAreDue_of_run cooperative,
    lastReleaseWaits_of_run cooperative, staysClosed_of_run _ (.create name options transform)⟩

/-- The first opening fails while another consumer has joined; the second succeeds, two releases
end it, and one more finds nobody. -/
theorem lifecycle_of_two_openings :
    let events : List (Nat × Event) :=
      [(0, .join 0), (0, .pump .started), (1, .join 1),
        (2, .pump (.openFailed ⟨.notFound, none⟩)), (3, .release 2), (4, .join 3),
        (4, .pump .started), (5, .pump .opened), (5, .watch .timers), (6, .pump (.received [1, 2])),
        (6, .retain), (7, .release 4), (8, .release 5), (8, .join 6), (9, .pump .releaseSeen),
        (10, .release 7), (11, .release 8)]
    let start := create "twice" {} none
    let h : History := Machine.history apply start events
    Machine.Allows apply Cooperative start events ∧
      (h.joins, h.retains, h.closes, h.openErrors) = (4, 1, 4, 1) ∧
      (Machine.final apply start events).refs = 0 := by
  intro events start h
  have cooperative : Machine.Allows apply Cooperative start events := by decide
  have counts : (h.joins, h.retains, h.closes, h.openErrors) = (4, 1, 4, 1) := by decide
  refine ⟨cooperative, counts, ?_⟩
  have balance : (Machine.final apply start events).refs + h.closes + h.openErrors =
      h.joins + h.retains :=
    (lifecycle "twice" {} none events cooperative).2.1.balance
  simp only [Prod.mk.injEq] at counts
  obtain ⟨joins, retains, closes, errors⟩ := counts
  rw [joins, retains, closes, errors] at balance
  omega

end

/-! ## What does not hold -/

/-- An open stream is let go only when a read that was offered room has given nothing, when a read
has failed, or after the last consumer has left. -/
def DropsAtTheEnd (h : History) : Prop :=
  ∀ past t future, h = past ++ t :: future → Notice.readerDropped ∈ t.notices →
    (t.event = .pump (.received []) ∧ 0 < t.before.content.room) ∨
      (∃ cause, t.event = .pump (.readFailed cause)) ∨ ∃ r ∈ past, IsLastRelease r

/-- Every release of the last consumer that finds the pump running is answered only when the pump is
over. -/
def EveryLastReleaseWaits (h : History) : Prop :=
  ∀ past r future call, h = past ++ r :: future → r.event = .release call → IsLastRelease r →
    r.before.isPumping = true →
      ∀ t ∈ r :: future, ∀ result, Notice.answered call result ∈ t.notices →
        t.after.isPumping = false

/-- A closed buffer asks for no stream. -/
def NeverOpensAgain (h : History) : Prop :=
  ∀ past t future, h = past ++ t :: future → t.after.phase = .closed →
    ∀ u ∈ future, Notice.openCalled ∉ u.notices

/-- A buffer of four bytes that grows by nothing is given a stream of five. -/
def outgrowing : List (Nat × Event) :=
  [(0, .join 0), (0, .pump .started), (0, .pump .opened), (0, .watch .timers),
    (0, .pump (.received [104, 101, 108, 108])), (0, .pump (.received []))]

/-- Without room for the next read a stream is let go that has neither ended nor failed, and that a
consumer still uses. -/
theorem not_dropsAtTheEnd_of_outgrowing :
    ¬DropsAtTheEnd (Machine.history apply
      (create "b" { initialCapacity := 4, slowGrowth := 0 } none) outgrowing) := by
  intro drops
  let b := create "b" { initialCapacity := 4, slowGrowth := 0 } none
  have stayed : ∀ r ∈ Machine.history apply b (outgrowing.take 5), r.event.isRelease = false := by
    decide
  obtain ⟨-, room⟩ | ⟨cause, failed⟩ | ⟨r, member, left, -⟩ :=
    drops (Machine.history apply b (outgrowing.take 5)) _ [] rfl
      (Notice.readerDropped_mem_iff.mpr (by decide))
  · exact absurd room (by decide)
  · cases failed
  · rw [stayed r member] at left
    cases left

/-- While the first of two last releases waits for the pump, a consumer joins and leaves again. -/
def rejoining : List (Nat × Event) :=
  [(0, .join 0), (0, .pump .started), (0, .pump .opened), (0, .release 1), (0, .join 2),
    (0, .release 3)]

/-- The release of one who joined a closed buffer is answered while the stream is still open. -/
theorem not_everyLastReleaseWaits_of_rejoining :
    ¬EveryLastReleaseWaits (Machine.history apply (create "b" {} none) rejoining) := by
  intro waits
  have early := waits (Machine.history apply (create "b" {} none) (rejoining.take 5)) _ [] 3 rfl
    rfl ⟨rfl, rfl, rfl⟩ rfl _ (List.mem_singleton_self _) (.ok ())
    (List.mem_of_getElem? (i := 0) rfl)
  exact absurd early (by decide)

/-- The only consumer leaves before the pump has run for the first time. -/
def leavingAtOnce : List (Nat × Event) :=
  [(0, .join 0), (0, .release 1), (0, .pump .started)]

/-- The first run of a pump in a closed buffer asks for the stream. -/
theorem not_neverOpensAgain_of_leavingAtOnce :
    ¬NeverOpensAgain (Machine.history apply (create "b" {} none) leavingAtOnce) := by
  intro never
  exact never (Machine.history apply (create "b" {} none) (leavingAtOnce.take 1)) _ [_] rfl rfl _
    (List.mem_singleton_self _) (List.mem_of_getElem? (i := 0) rfl)

/-- None of the three holds of every run among cooperative surroundings. -/
theorem not_lifecycle_of_still_rejoined_or_left :
    let still : BufferOptions := { initialCapacity := 4, slowGrowth := 0 }
    (Machine.Allows apply Cooperative (create "b" still none) outgrowing ∧
      ¬DropsAtTheEnd (Machine.history apply (create "b" still none) outgrowing)) ∧
    (Machine.Allows apply Cooperative (create "b" {} none) rejoining ∧
      ¬EveryLastReleaseWaits (Machine.history apply (create "b" {} none) rejoining)) ∧
    Machine.Allows apply Cooperative (create "b" {} none) leavingAtOnce ∧
      ¬NeverOpensAgain (Machine.history apply (create "b" {} none) leavingAtOnce) :=
  ⟨⟨by decide, not_dropsAtTheEnd_of_outgrowing⟩,
    ⟨by decide, not_everyLastReleaseWaits_of_rejoining⟩,
    by decide, not_neverOpensAgain_of_leavingAtOnce⟩

end CachedStreams.Buffer
