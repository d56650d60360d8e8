import CachedStreams.Proofs.KeyedCache.FlushAccounts
import CachedStreams.Proofs.KeyedCache.SingleFlight

/-!
# A flush works on its snapshot

From its first step to its answer a flush has a list of what it has not come to, and its books are
in order (`Underway`); whatever happens, it goes on with the list (`Underway.apply`). What it has
passed to the hook, what it spares and what it leaves can be read off at any moment
(`WorksOnSnapshot`). Nobody can keep it from its end either: a flush whose hooks end goes through
its turns and is answered (`EmptiesAlone`).
-/

set_option autoImplicit false

namespace CachedStreams.KeyedCache

variable {V E : Type}

/-! ## A flush under way -/

/-- Number and key of some entries, as a sweep has them on its list. -/
def listOf (rows : List (String × Entry V E)) : List (Nat × String) :=
  rows.map fun row => (row.2.seq, row.1)

/-- A call at this stage is a flush that has begun, with a list of what it has not come to. -/
inductive Stage.HasListed (rest : List (Nat × String)) : Stage V E → Prop where
  | sweeping (count : Nat) : HasListed rest (.sweeping rest count .flush)
  | evicting (count : Nat) : HasListed rest (.evicting (.sweep rest count .flush))

/-- A flush has been through `turned`, its books are in order, and it has `waiting` on its list,
unless it has been given up; it is answered only when nothing is waiting. -/
structure Underway (call : CallId) (number : Nat) (mid : History V E) (c : KeyedCache V E)
    (turned waiting : List (String × Entry V E)) : Prop where
  accounts : Accounts call number mid c turned waiting
  listed : ∀ stage, c.stage? call = some stage → stage.HasListed (listOf waiting)
  complete : (∃ reply, .answered call reply ∈ Machine.noticesOf mid) → waiting = []

namespace Underway

variable {call : CallId} {number : Nat} {mid : History V E} {c : KeyedCache V E}
  {turned waiting : List (String × Entry V E)}

/-- A move that removes nothing in the name of the flush leaves it where it was. -/
theorem stays (underway : Underway call number mid c turned waiting) (now : Nat)
    {event : Event V E}
    (other : event.subject = call → evictedIn (c.apply now event).2 = [])
    (listed : ∀ stage, (c.apply now event).1.stage? call = some stage →
      stage.HasListed (listOf waiting))
    (complete : ∀ reply, .answered call reply ∈ (c.apply now event).2 → waiting = []) :
    Underway call number (mid ++ [Machine.move apply c now event]) (c.apply now event).1
      turned waiting := by
  refine ⟨underway.accounts.frame now event other, listed, ?_⟩
  rintro ⟨reply, member⟩
  rw [Machine.noticesOf_append, Machine.noticesOf_singleton, List.mem_append] at member
  rcases member with before | here
  · exact underway.complete ⟨reply, before⟩
  · exact complete reply here

/-- The list of a sweep that is under way is what it has still to go through. -/
theorem of_sweeping (underway : Underway call number mid c turned waiting)
    {rest : List (Nat × String)} {count : Nat} {sweep : Sweep}
    (stage : c.stage? call = some (.sweeping rest count sweep)) :
    listOf waiting = rest ∧ sweep = .flush := by
  cases underway.listed _ stage
  exact ⟨rfl, rfl⟩

/-- A flush with something on its list has not been answered. -/
theorem unanswered {row : String × Entry V E} {rest : List (String × Entry V E)}
    (underway : Underway call number mid c turned (row :: rest)) {now : Nat} {event : Event V E}
    (silent : ∀ reply, .answered call reply ∉ (c.apply now event).2) :
    ¬∃ reply, .answered call reply ∈
      Machine.noticesOf (mid ++ [Machine.move KeyedCache.apply c now event]) := by
  rintro ⟨reply, member⟩
  rw [Machine.noticesOf_append, Machine.noticesOf_singleton, List.mem_append] at member
  rcases member with before | here
  · cases underway.complete ⟨reply, before⟩
  · exact silent reply here

/-- Whatever the flush does next, it goes on with its list. -/
theorem own_turn {event : Event V E} {turned waiting : List (String × Entry V E)}
    (underway : Underway event.subject number mid c turned waiting) (now : Nat)
    (goesOn : ∀ request, event ≠ .call event.subject request)
    (away : ∀ taken ∈ takenFrom event.subject mid, ∀ key entry,
      c.table.find? key = some entry → taken.2.seq ≠ entry.seq) :
    ∃ turned' waiting', turned ++ waiting = turned' ++ waiting' ∧
      Underway event.subject number (mid ++ [Machine.move KeyedCache.apply c now event])
        (c.apply now event).1 turned' waiting' := by
  have turn := turn_apply c now event
  obtain ⟨r, same⟩ : ∃ r, c.apply now event = r := ⟨_, rfl⟩
  rw [same] at turn
  cases turn with
  | begins call request => exact absurd rfl (goesOn request)
  | gets _ _ stage | misses _ _ _ stage | queues _ _ _ stage | generates _ _ _ stage
  | makes _ _ _ _ stage | replies _ _ stage => cases underway.listed _ stage
  | beginsSweep _ sweep stage => cases underway.listed _ stage
  | hits _ _ _ _ _ stage looks => cases looks <;> cases underway.listed _ stage
  | stores _ _ _ _ _ _ stage brings => cases brings <;> cases underway.listed _ stage
  | removes _ _ _ _ _ stage drops | removesNothing _ _ _ _ stage drops =>
      cases drops <;> cases underway.listed _ stage
  | givesUp call =>
      refine ⟨turned, waiting, rfl, underway.stays now (fun _ => ?_) (fun stage reached => ?_)
        fun reply member => ?_⟩
      · rw [same]
        exact evictedIn_map_admitted _
      · simp [same, Event.subject] at reached
      · simp [same, leave] at member
  | waits | ignoresResult | ignoresHook =>
      refine ⟨turned, waiting, rfl, underway.stays now (fun _ => ?_) (fun stage reached => ?_)
        fun reply member => ?_⟩
      · rw [same]
        rfl
      · rw [same] at reached
        exact underway.listed stage reached
      · simp [same] at member
  | endsSweep call count sweep stage =>
      have none_left : waiting = [] := List.map_eq_nil_iff.mp (underway.of_sweeping stage).1
      refine ⟨turned, waiting, rfl, underway.stays now (fun _ => ?_) (fun stage reached => ?_)
        fun _ _ => none_left⟩
      · rw [same]
        exact evictedIn_answer c call _
      · simp [same, Event.subject] at reached
  | sweepsOn call rest count sweep stage =>
      refine ⟨turned, waiting, rfl, underway.stays now (fun _ => ?_) (fun stage reached => ?_)
        fun reply member => ?_⟩
      · rw [same]
        rfl
      · rw [same] at reached
        obtain rfl := eq_of_stage?_moveTo reached
        cases underway.listed _ stage
        exact .sweeping count
      · simp [same] at member
  | passes call number key rest count sweep stage gone =>
      obtain ⟨list, rfl⟩ := underway.of_sweeping stage
      obtain ⟨row, later, rfl, next, rfl⟩ := List.map_eq_cons_iff.mp list
      cases next
      have frame := underway.accounts.frame now (.resume call) fun _ => by
        rw [same]
        rfl
      refine ⟨turned ++ [row], later, by simp, frame.pass fun held => ?_,
        fun stage reached => ?_, fun answered => ?_⟩
      · rw [same] at held
        exact gone row.2 held rfl
      · rw [same] at reached
        obtain rfl := eq_of_stage?_moveTo reached
        exact .sweeping count
      · exact absurd answered (underway.unanswered (by simp [same]))
  | sweeps call key entry rest count sweep stage present =>
      obtain ⟨list, rfl⟩ := underway.of_sweeping stage
      obtain ⟨row, later, rfl, next, rfl⟩ := List.map_eq_cons_iff.mp list
      obtain ⟨number, rfl⟩ := Prod.mk.inj next
      obtain rfl := congrArg Prod.snd
        (underway.accounts.eq_of_seq List.mem_cons_self present number.symm)
      refine ⟨turned ++ [row], later, by simp,
        underway.accounts.fire now rfl present ?_ ?_ ?_ ?_ fun taken member =>
          away taken member _ _ present, fun stage reached => ?_, fun answered => ?_⟩
      · rw [same]
        rfl
      · rw [same]
        rfl
      · rw [same]
        rfl
      · rw [same]
        rfl
      · rw [same] at reached
        obtain rfl := eq_of_stage?_moveTo reached
        exact .evicting _
      · exact absurd answered (underway.unanswered (by simp [same, evict]))

/-- Whatever happens, the flush goes on with its list. -/
theorem apply (underway : Underway call number mid c turned waiting) (now : Nat)
    {event : Event V E} (goesOn : ∀ request, event ≠ .call call request)
    (away : ∀ taken ∈ takenFrom call mid, ∀ key entry, c.table.find? key = some entry →
      taken.2.seq ≠ entry.seq) :
    ∃ turned' waiting', turned ++ waiting = turned' ++ waiting' ∧
      Underway call number (mid ++ [Machine.move KeyedCache.apply c now event])
        (c.apply now event).1 turned' waiting' := by
  by_cases own : call = event.subject
  · subst own
    exact underway.own_turn now goesOn away
  · refine ⟨turned, waiting, rfl, underway.stays now (fun same => absurd same.symm own) ?_ ?_⟩
    · rw [stage?_apply_of_ne c now own]
      exact underway.listed
    · exact fun reply member => absurd (subject?_of_mem c now member rfl) own

end Underway

/-! ## Steps of a flush -/

section

variable (c : KeyedCache V E) (now : Nat) {call : CallId}

/-- A flush begins by listing everything that the table holds. -/
theorem apply_resume_of_requested_flush (stage : c.stage? call = some (.requested .flush)) :
    c.apply now (.resume call) =
      (c.moveTo call (.sweeping (listOf (c.table.flushOrder now)) 0 .flush), []) := by
  have known : c.calls.find? call = some (.requested .flush) := stage
  simp [apply, resume, known, begin, Table.liveThenExpired_eq, listOf]

/-- A flush takes the next entry of its list out of the table if it is still there. -/
theorem apply_resume_of_sweeping_held {row : String × Entry V E} {rest : List (Nat × String)}
    {count : Nat} {sweep : Sweep}
    (stage : c.stage? call = some (.sweeping ((row.2.seq, row.1) :: rest) count sweep))
    (held : c.table.find? row.1 = some row.2) :
    c.apply now (.resume call) = ({ c with table := c.table.erase row.1 } : KeyedCache V E).evict
      call row.1 row.2 (.sweep rest (count + 1) sweep) := by
  have known : c.calls.find? call = some (.sweeping ((row.2.seq, row.1) :: rest) count sweep) :=
    stage
  simp [apply, resume, known, sweepNext, held, Option.filter_some]

/-- A sweep whose list is empty is answered. -/
theorem apply_resume_of_swept {count : Nat} {sweep : Sweep}
    (stage : c.stage? call = some (.sweeping [] count sweep)) :
    c.apply now (.resume call) = c.answer call (sweep.reply count) := by
  have known : c.calls.find? call = some (.sweeping [] count sweep) := stage
  simp [apply, resume, known, sweepNext]

/-- When the hook returns, a sweep goes on with its list. -/
theorem apply_evicted_of_sweep {rest : List (Nat × String)} {count : Nat} {sweep : Sweep}
    (stage : c.stage? call = some (.evicting (.sweep rest count sweep))) :
    c.apply now (.evicted call) = (c.moveTo call (.sweeping rest count sweep), []) := by
  have known : c.calls.find? call = some (.evicting (.sweep rest count sweep)) := stage
  simp [apply, known]

end

/-! ## Flushes in a run -/

/-- A flush takes its first step with a move. -/
structure BeginsFlush (call : CallId) (u : Move (KeyedCache V E) (Event V E) (Notice V E)) :
    Prop where
  resumed : u.event = .resume call
  requested : u.before.stage? call = some (.requested .flush)

/-- All that a cache holds: first what is live at an instant and then what has expired, each in the
order of the numbers. -/
def InFlushOrder (c : KeyedCache V E) (now : Nat) (order : List (String × Entry V E)) : Prop :=
  ∃ live expired, order = live ++ expired ∧
    (live.map (·.2.seq)).Pairwise (· < ·) ∧ (expired.map (·.2.seq)).Pairwise (· < ·) ∧
    (∀ key entry, (key, entry) ∈ live ↔
      c.table.find? key = some entry ∧ entry.isLive now = true) ∧
    ∀ key entry, (key, entry) ∈ expired ↔
      c.table.find? key = some entry ∧ entry.isLive now = false

/-- What a flush that began with the move `u` has done when `mid` has happened since and led to
`c`: of the entries that it found it has been through `turned`, and `waiting` is to come. -/
structure WorksOnSnapshot (call : CallId) (u : Move (KeyedCache V E) (Event V E) (Notice V E))
    (mid : History V E) (c : KeyedCache V E) (turned waiting : List (String × Entry V E)) :
    Prop where
  order : InFlushOrder u.before u.now (turned ++ waiting)
  /-- It has passed to the hook what nobody else took; what it has been through cannot be taken
  any more, so that others can only have been there before its turn. -/
  fired : firedBy call mid = turned.filter (untaken call mid)
  gone : ∀ row ∈ turned, ∀ key entry, c.table.find? key = some entry → entry.seq ≠ row.2.seq
  /-- What was stored since is still there, unless others took it, and was not passed to the hook
  by the flush. -/
  spared : ∀ row ∈ storedIn (Machine.noticesOf mid),
    (c.table.find? row.1 = some row.2 ∨ row ∈ takenFrom call mid) ∧
      ∀ fired ∈ firedBy call mid, fired.2.seq ≠ row.2.seq
  complete : (∃ reply, .answered call reply ∈ Machine.noticesOf mid) → waiting = []
  /-- If nothing was stored meanwhile, a flush leaves nothing. -/
  empties : (∃ reply, .answered call reply ∈ Machine.noticesOf mid) →
    storedIn (Machine.noticesOf mid) = [] → c.table.rows = []

/-- The steps of a flush that finds as many entries as it has turns, when it was called and begins,
when each turn comes and its hook ends, and when the flush ends. -/
def flushing (call : CallId) (called began : Nat) (turns : List (Nat × Nat)) (ended : Nat) :
    List (Nat × Event V E) :=
  (called, .call call .flush) :: (began, .resume call) ::
    (turns.flatMap fun turn => [(turn.1, .resume call), (turn.2, .evicted call)]) ++
      [(ended, .resume call)]

/-- A flush that is left alone passes all that the cache holds to the hook, is answered, and leaves
the cache empty. -/
def EmptiesAlone (c : KeyedCache V E) : Prop :=
  ∀ call, c.stage? call = none → ∀ called began turns ended, turns.length = c.table.size →
    let alone := flushing call called began turns ended
    (∃ order, InFlushOrder c began order ∧ Machine.noticesOf (Machine.history apply c alone) =
      (order.map fun row => .evict call row.1 row.2) ++ [.answered call .flushed]) ∧
    (Machine.final apply c alone).table.rows = []

/-- A flush lists all that the cache holds, in the order in which it is to go through it. -/
theorem inFlushOrder_flushOrder {c : KeyedCache V E} (keyed : c.table.Keyed)
    (numbered : c.table.Numbered c.nextSeq) (now : Nat) :
    InFlushOrder c now (c.table.flushOrder now) := by
  refine ⟨_, _, rfl, numbered.ordered.sublist (List.filter_sublist.map _),
    numbered.ordered.sublist (List.filter_sublist.map _), fun key entry => ?_, fun key entry => ?_⟩
  · rw [List.mem_filter, Table.find?_eq_some_iff keyed]
  · rw [List.mem_filter, Table.find?_eq_some_iff keyed, Bool.not_eq_true']

/-- When a flush begins, the whole of its snapshot waits for its turn. -/
theorem accounts_of_snapshot {c : KeyedCache V E} (keyed : c.table.Keyed)
    (numbered : c.table.Numbered c.nextSeq) (call : CallId) (now : Nat) :
    Accounts call c.nextSeq [] c [] (c.table.flushOrder now) := by
  have same := c.table.flushOrder_perm now
  refine ⟨⟨?_, fun row member => numbered.below row (same.mem_iff.mp member)⟩, Nat.le_refl _, rfl,
    nofun, fun row member => .inl ?_, fun key entry held => ?_, nofun⟩
  · exact (same.map _).nodup_iff.mpr numbered.ordered.nodup
  · have row_mem : row ∈ c.table.flushOrder now := by
      simpa [Machine.noticesOf, storedIn] using member
    exact (Table.find?_eq_some_iff keyed).mpr (same.mem_iff.mp row_mem)
  · simpa [Machine.noticesOf, storedIn] using same.mem_iff.mpr (Table.mem_rows_of_find? held)

/-- From the move with which it begins, a flush is under way. -/
theorem underway_of_run {lanes : Nat} {events : List (Nat × Event V E)}
    (named : Named (Machine.history apply (create lanes) events)) {past mid : History V E}
    {u : Move (KeyedCache V E) (Event V E) (Notice V E)}
    (split : Machine.history apply (create lanes) events = past ++ u :: mid) {call : CallId}
    (begins : BeginsFlush call u) :
    ∃ turned waiting, u.before.table.flushOrder u.now = turned ++ waiting ∧
      Underway call u.before.nextSeq mid (Machine.final apply (create lanes) events)
        turned waiting := by
  have silent : call ∉ (begunIn mid).map (·.1) := by
    rw [split] at named
    refine Named.not_again (h := past ++ [u]) (by simpa using named) ?_
    obtain ⟨earlier, rfl, same⟩ := Machine.exists_run_before apply split
    have told := (recorded_of_run lanes named.of_append).told call _ (same ▸ begins.requested)
    rw [begunIn_append, List.map_append]
    exact List.mem_append_left _ told.begun
  obtain ⟨earlier, now, event, later, rfl, rfl, rfl, rfl⟩ :=
    Machine.exists_of_history_eq_append apply split
  obtain ⟨resumed, requested⟩ := begins
  cases resumed
  simp only [Machine.move] at requested ⊢
  rw [Machine.final_append, Machine.final]
  have ledger := ledger_of_run (V := V) (E := E) lanes earlier
  generalize Machine.history apply (create lanes) earlier = past at ledger
  have numbered := numbered_of_run (V := V) (E := E) lanes earlier
  generalize Machine.final apply (create lanes) earlier = c at ledger numbered requested silent ⊢
  rw [apply_resume_of_requested_flush c now requested] at silent ⊢
  refine (Machine.history_induction apply (fun mid d => call ∉ (begunIn mid).map (·.1) →
    Ledger (storedIn (Machine.noticesOf (past ++ mid)))
      (evictedIn (Machine.noticesOf (past ++ mid))) d ∧
    ∃ turned waiting, c.table.flushOrder now = turned ++ waiting ∧
      Underway call c.nextSeq mid d turned waiting) (fun _ => ⟨?_, [], _, rfl, ?_⟩) ?_
    (Machine.allows_true apply _ later) silent).2
  · rw [List.append_nil]
    exact ⟨ledger.keyed, ledger.numbered, ledger.balance⟩
  · refine ⟨accounts_of_snapshot (c := c.moveTo call _) ledger.keyed numbered call now,
      fun stage reached => ?_, ?_⟩
    · obtain rfl := eq_of_stage?_moveTo reached
      exact .sweeping 0
    · rintro ⟨_, member⟩
      exact absurd member List.not_mem_nil
  · intro mid d now event before _ silent
    rw [begunIn_snoc, List.map_append, List.mem_append, not_or] at silent
    obtain ⟨ledger, turned, waiting, order, underway⟩ := before silent.1
    refine ⟨?_, ?_⟩
    · simpa [Machine.move, ← List.append_assoc] using ledger_step ledger now event
    · obtain ⟨turned', waiting', same, underway'⟩ := underway.apply now
        (fun request (begins : event = _) =>
          silent.2 (by simp [Machine.move, begins, Event.begun?]))
        fun taken member key entry held => ledger.seq_ne (Table.mem_rows_of_find? held) (by
          rw [Machine.noticesOf_append, evictedIn_append]
          exact List.mem_append_right _ (takenFrom_subset member))
      exact ⟨turned', waiting', order.trans same, underway'⟩

/-- A flush whose books are in order has done with its snapshot what it should have by then. -/
theorem Underway.worksOnSnapshot {call : CallId}
    {u : Move (KeyedCache V E) (Event V E) (Notice V E)} {mid : History V E} {c : KeyedCache V E}
    {turned waiting : List (String × Entry V E)} (keyed : c.table.Keyed)
    (order : InFlushOrder u.before u.now (turned ++ waiting))
    (underway : Underway call u.before.nextSeq mid c turned waiting) :
    WorksOnSnapshot call u mid c turned waiting := by
  have accounts := underway.accounts
  refine ⟨order, accounts.fired, accounts.gone, fun row stored => ⟨?_, fun fired member => ?_⟩,
    underway.complete, fun answered nothing =>
      List.eq_nil_iff_forall_not_mem.mpr fun row present => ?_⟩
  · exact accounts.kept row (List.mem_append_right _ stored)
  · rw [accounts.fired] at member
    have old := accounts.found.below fired
      (List.mem_append_left _ (List.mem_filter.mp member).1)
    have new := accounts.later row stored
    omega
  · have held := accounts.held row.1 row.2 ((Table.find?_eq_some_iff keyed).mpr present)
    rw [underway.complete answered, nothing] at held
    cases held

/-! ## A flush that is left alone -/

/-- One turn of a sweep that is left alone, with the hook that it waits for. -/
theorem turn_of_sweep {c : KeyedCache V E} {call : CallId} {row : String × Entry V E}
    {rest : List (Nat × String)} {count : Nat} {sweep : Sweep}
    (stage : c.stage? call = some (.sweeping ((row.2.seq, row.1) :: rest) count sweep))
    (held : c.table.find? row.1 = some row.2) (turn : Nat × Nat) :
    let alone := [(turn.1, Event.resume call), (turn.2, .evicted call)]
    let after := Machine.final apply c alone
    Machine.noticesOf (Machine.history apply c alone) = [.evict call row.1 row.2] ∧
      after.table = c.table.erase row.1 ∧ after.lanes = c.lanes ∧
      after.stage? call = some (.sweeping rest (count + 1) sweep) := by
  have second := fun d : KeyedCache V E => apply_evicted_of_sweep
    (d.moveTo call (.evicting (.sweep rest (count + 1) sweep))) turn.2 (stage?_moveTo_self _ _)
  simp only [Machine.final, Machine.history, Machine.move,
    apply_resume_of_sweeping_held c turn.1 stage held, evict, second]
  exact ⟨rfl, rfl, rfl, stage?_moveTo_self _ _⟩

/-- Turn by turn, a sweep that is left alone passes what it has on its list to the hook. -/
theorem turns_of_sweep {call : CallId} (turns : List (Nat × Nat)) {c : KeyedCache V E}
    {waiting : List (String × Entry V E)} {count : Nat} {sweep : Sweep}
    (length : turns.length = waiting.length) (keyed : c.table.Keyed)
    (held : ∀ row ∈ waiting, row ∈ c.table.rows) (distinct : (waiting.map (·.1)).Nodup)
    (stage : c.stage? call = some (.sweeping (listOf waiting) count sweep)) :
    let alone := turns.flatMap fun turn => [(turn.1, Event.resume call), (turn.2, .evicted call)]
    let after := Machine.final apply c alone
    Machine.noticesOf (Machine.history apply c alone) =
        waiting.map (fun row => .evict call row.1 row.2) ∧
      after.table.rows =
        c.table.rows.filter (fun row => !(waiting.map (·.1)).contains row.1) ∧
      after.lanes = c.lanes ∧
      after.stage? call = some (.sweeping [] (count + waiting.length) sweep) := by
  induction turns generalizing c waiting count with
  | nil =>
      obtain rfl := List.length_eq_zero_iff.mp length.symm
      exact ⟨rfl, (List.filter_eq_self.mpr fun _ _ => rfl).symm, rfl, stage⟩
  | cons turn turns ih =>
      obtain _ | ⟨row, waiting⟩ := waiting
      · cases length
      rw [List.map_cons, List.nodup_cons] at distinct
      obtain ⟨notices, table, lanes, next⟩ := turn_of_sweep stage
        ((Table.find?_eq_some_iff keyed).mpr (held row List.mem_cons_self)) turn
      -- What is left on the list is under other keys, so it is still there.
      have others : ∀ other ∈ waiting, other ∈ (c.table.erase row.1).rows := by
        refine fun other member => List.mem_filter.mpr ⟨held other (by simp [member]), ?_⟩
        exact bne_iff_ne.mpr fun same => distinct.1 (same ▸ List.mem_map_of_mem member)
      obtain ⟨notices', rows, lanes', ends⟩ := ih (Nat.succ.inj length)
        (table ▸ Table.keyed_erase keyed row.1) (table ▸ others) distinct.2 next
      simp only [List.flatMap_cons, Machine.final_append, Machine.history_append,
        Machine.noticesOf_append, notices, notices']
      refine ⟨rfl, ?_, lanes'.trans lanes, ?_⟩
      · rw [rows, table]
        simp only [Table.erase, List.filter_filter, List.map_cons, List.contains_cons, Bool.not_or]
        exact List.filter_congr fun other _ => Bool.and_comm _ _
      · rw [ends, List.length_cons, Nat.add_right_comm, Nat.add_assoc]

/-- What a flush has on its list is all that there is. -/
theorem turns_of_flush {call : CallId} (turns : List (Nat × Nat)) {c : KeyedCache V E}
    {waiting : List (String × Entry V E)} {count : Nat} (length : turns.length = waiting.length)
    (keyed : c.table.Keyed) (same : c.table.rows.Perm waiting)
    (stage : c.stage? call = some (.sweeping (listOf waiting) count .flush)) :
    let alone := turns.flatMap fun turn => [(turn.1, Event.resume call), (turn.2, .evicted call)]
    let after := Machine.final apply c alone
    Machine.noticesOf (Machine.history apply c alone) =
        waiting.map (fun row => .evict call row.1 row.2) ∧
      after.table.rows = [] ∧ after.lanes = c.lanes ∧
      ∃ count, after.stage? call = some (.sweeping [] count .flush) := by
  obtain ⟨notices, rows, lanes, ends⟩ := turns_of_sweep turns length keyed
    (fun row member => same.mem_iff.mpr member) ((same.map _).nodup_iff.mp keyed) stage
  refine ⟨notices, rows.trans (List.filter_eq_nil_iff.mpr fun row member => ?_), lanes, _, ends⟩
  simpa using ⟨row.2, same.mem_iff.mp member⟩

/-- A sweep that has been through its list is answered, and admits nobody, as it stands in no
queue. -/
theorem last_step_of_sweep {c : KeyedCache V E} {call : CallId} {count : Nat} {sweep : Sweep}
    (apart : ∀ r ∈ c.lanes.requests, r.1 ≠ call)
    (stage : c.stage? call = some (.sweeping [] count sweep)) (ended : Nat) :
    let alone := [(ended, Event.resume call)]
    Machine.noticesOf (Machine.history apply c alone) = [.answered call (sweep.reply count)] ∧
      (Machine.final apply c alone).table = c.table := by
  have none_ : c.lanes.requests.filter (·.1 == call) = [] :=
    List.filter_eq_nil_iff.mpr fun r member own => apart r member (eq_of_beq own)
  simp only [Machine.final, Machine.history, Machine.move, apply_resume_of_swept c ended stage]
  exact ⟨by simp [answer, leave, Lanes.admittedBy, none_], rfl⟩

/-- A flush that is called and takes its first step has everything on its list. -/
theorem first_steps_of_flush (c : KeyedCache V E) (call : CallId) (called began : Nat) :
    let alone := [(called, Event.call call .flush), (began, .resume call)]
    let after := Machine.final apply c alone
    Machine.noticesOf (Machine.history apply c alone) = [] ∧ after.table = c.table ∧
      after.lanes = c.lanes ∧
      after.stage? call = some (.sweeping (listOf (c.table.flushOrder began)) 0 .flush) := by
  have begins := apply_resume_of_requested_flush (c.moveTo call (.requested .flush)) began
    (stage?_moveTo_self _ _)
  have calls : c.apply called (.call call .flush) = (c.moveTo call (.requested .flush), []) := rfl
  simp only [Machine.final, Machine.history, Machine.move, calls, begins]
  exact ⟨rfl, rfl, rfl, stage?_moveTo_self _ _⟩

/-- After every run a flush that is left alone empties the cache. -/
theorem emptiesAlone_of_run (lanes : Nat) (events : List (Nat × Event V E)) :
    EmptiesAlone (Machine.final apply (create lanes : KeyedCache V E) events) := by
  have keyed := (ledger_of_run (V := V) (E := E) lanes events).keyed
  have numbered := numbered_of_run (V := V) (E := E) lanes events
  have orderly := orderly_of_run (V := V) (E := E) lanes events
  generalize Machine.final apply (create lanes) events = c at keyed numbered orderly ⊢
  intro call fresh called began turns ended length alone
  have same := c.table.flushOrder_perm began
  obtain ⟨silent, table, before, begun⟩ := first_steps_of_flush c call called began
  obtain ⟨notices, finished, after, count, ends⟩ := turns_of_flush turns
    (length.trans same.length_eq.symm) (table ▸ keyed) (table ▸ same.symm) begun
  have apart : ∀ r ∈ c.lanes.requests, r.1 ≠ call := fun r member own =>
    orderly.present r member (own ▸ fresh)
  rw [← before, ← after] at apart
  obtain ⟨answered, table'⟩ := last_step_of_sweep apart ends ended
  have parts : alone = [(called, .call call .flush), (began, .resume call)] ++
      ((turns.flatMap fun turn => [(turn.1, .resume call), (turn.2, .evicted call)]) ++
        [(ended, .resume call)]) := by simp [alone, flushing]
  simp only [parts, Machine.final_append, Machine.history_append, Machine.noticesOf_append, silent,
    notices, answered, List.nil_append, table', finished]
  exact ⟨⟨_, inFlushOrder_flushOrder keyed numbered began, rfl⟩, trivial⟩

/-- Flushes work on their snapshots. However a flush interleaves with other calls, at every moment
the entries that it has passed to the hook are those it has been through and nobody else took
first, in the order of the snapshot: what was live when it began and then what had expired, each in
the order of storing. What is stored after it began it neither removes nor reports. When it is
answered it has been through the whole snapshot, of which nothing is left. A flush that is left
alone ends, and leaves the cache empty. -/
theorem flushes_work_on_snapshots (lanes : Nat) (events : List (Nat × Event V E))
    (named : Named (Machine.history apply (create lanes) events)) :
    let c := Machine.final apply (create lanes : KeyedCache V E) events
    (∀ past u mid call, Machine.history apply (create lanes) events = past ++ u :: mid →
      BeginsFlush call u → ∃ turned waiting, WorksOnSnapshot call u mid c turned waiting) ∧
    EmptiesAlone c := by
  refine ⟨fun past u mid call split begins => ?_, emptiesAlone_of_run lanes events⟩
  obtain ⟨turned, waiting, order, underway⟩ := underway_of_run named split begins
  obtain ⟨earlier, -, same⟩ := Machine.exists_run_before apply split
  refine ⟨turned, waiting,
    underway.worksOnSnapshot (ledger_of_run lanes events).keyed (order ▸ ?_)⟩
  rw [same]
  exact inFlushOrder_flushOrder (ledger_of_run lanes earlier).keyed (numbered_of_run lanes earlier)
    u.now

/-- Four entries are stored, of which one has expired when a flush is called. -/
def beforeFlush : List (Nat × Event Nat String) :=
  [(0, .call 1 (.set "a" 5 1)), (0, .resume 1), (0, .call 2 (.set "b" 100 2)), (0, .resume 2),
    (0, .call 3 (.set "c" 100 3)), (0, .resume 3), (0, .call 4 (.set "d" 100 4)), (0, .resume 4),
    (10, .call 5 .flush)]

/-- While the hook of its first entry runs, others remove one entry of its snapshot, replace
another, and store a new one under the key of the first. -/
def duringFlush : List (Nat × Event Nat String) :=
  [(10, .resume 5), (11, .call 6 (.remove "c")), (11, .resume 6), (12, .evicted 6),
    (12, .call 7 (.set "a" 100 7)), (12, .resume 7), (13, .evicted 7),
    (13, .call 8 (.set "b" 100 8)), (13, .resume 8), (20, .evicted 5), (20, .resume 5),
    (20, .resume 5), (30, .evicted 5), (30, .resume 5), (30, .resume 5)]

/-- Of four entries the flush passes on the two that others have left. -/
theorem flushes_work_on_snapshots_overtaken :
    let run := beforeFlush ++ (10, .resume 5) :: duringFlush
    let u := Machine.move apply (Machine.final apply (create 4) beforeFlush) 10 (.resume 5)
    let mid := Machine.history apply u.after duringFlush
    let c := Machine.final apply (create 4 : KeyedCache Nat String) run
    Named (Machine.history apply (create 4) run) ∧ BeginsFlush 5 u ∧
      (firedBy 5 mid).map (·.1) = ["b", "d"] ∧
      c.table.rows.map (·.1) = ["a", "b"] ∧
      (∃ turned waiting, WorksOnSnapshot 5 u mid c turned waiting) ∧ EmptiesAlone c := by
  have named : Named (Machine.history apply (create 4 : KeyedCache Nat String)
      (beforeFlush ++ (10, .resume 5) :: duringFlush)) := by decide
  have begins : BeginsFlush 5 (Machine.move apply (Machine.final apply
      (create 4 : KeyedCache Nat String) beforeFlush) 10 (.resume 5)) := ⟨rfl, rfl⟩
  have works := flushes_work_on_snapshots 4 _ named
  exact ⟨named, begins, by decide +kernel, by decide +kernel,
    works.1 _ _ _ 5 (Machine.history_append apply _ _ _) begins, works.2⟩

end CachedStreams.KeyedCache
