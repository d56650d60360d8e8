import CachedStreams.Proofs.KeyedCache.Flush
import CachedStreams.Proofs.KeyedCache.SingleFlight

/-!
# A keyed cache is a map with lifetimes

However the steps of its calls interleave, a keyed cache shows its users a `TtlMap`: lookups find
what the map has in force (`LooksUp`), calls are answered from it (`AnswersFromMap`), and it changes
as the calls asked (`ChangesAsAsked`). That expired entries are still there, and that they are
displaced, removed and swept like others, cannot be seen.

A call that nobody else disturbs follows the map to the letter: it lets its generator run exactly
if the map has nothing in force, and the lifetime of the result counts from the end of the
generator.
-/

set_option autoImplicit false

namespace CachedStreams.KeyedCache

variable {V E : Type}

/-! ## What users see of the map -/

/-- A lookup finds the latest store under a key that has not been removed since, as long as its
lifetime is not over; one that ends later than the clock can tell never is. -/
def LooksUp (h : History V E) (c : KeyedCache V E) : Prop :=
  ∀ now, Follows now h → ∀ key result, c.table.lookup now key = some result ↔
    ∃ lease, Latest h key lease ∧ lease.result = result ∧
      (now < lease.since + lease.ttl ∨ Clock.last < lease.since + lease.ttl)

/-- Calls are answered from the map, and generators are started for want of anything in it. -/
def AnswersFromMap (h : History V E) : Prop :=
  ∀ past t future, h = past ++ t :: future → ∀ call key,
    (.generate call key ∈ t.notices → (leases past).lookup t.now key = none) ∧
    ∀ reply, .answered call reply ∈ t.notices →
      ((call, .get key) ∈ begunIn past → reply = .found ((leases past).lookup t.now key)) ∧
      ∀ ttl, (call, .getOrUpdate key ttl) ∈ begunIn past → ∃ result, reply = .result result ∧
        (Gave past call key result ∨ (leases past).lookup t.now key = some result)

/-- What a call may do to the map, given what it asked for. -/
inductive MayChange (past : History V E) (call : CallId) : Request V E → Change V E → Prop where
  | set (key : String) (ttl : Nat) (value : V) :
    MayChange past call (.set key ttl value) (.store key (.ok value) ttl)
  | made (key : String) (ttl : Nat) (result : Except E V) (gave : Gave past call key result) :
    MayChange past call (.getOrUpdate key ttl) (.store key result ttl)
  | remove (key : String) : MayChange past call (.remove key) (.remove key fun _ => true)
  | removeIf (key : String) (test : Except E V → Bool) :
    MayChange past call (.removeIf key test) (.remove key test)
  | flush (key : String) (number : Nat) : MayChange past call .flush (.evict key number)

/-- The map changes only as a call in progress asked for. -/
def ChangesAsAsked (h : History V E) : Prop :=
  ∀ past t future, h = past ++ t :: future → ∀ change,
    changeOf t.before t.event = some change → ∃ call request, t.event = .resume call ∧
      (call, request) ∈ begunIn past ∧ MayChange past call request change

/-- A store under one key does not change what is found under the others. -/
def StoresApart (h : History V E) : Prop :=
  ∀ t ∈ h, ∀ call key entry, .stored call key entry ∈ t.notices →
    ∀ other, other ≠ key → ∀ now,
      t.after.table.lookup now other = t.before.table.lookup now other

/-- Nothing that was stored before a flush was called is found once the flush is answered. -/
def FlushesAll (h : History V E) : Prop :=
  ∀ early u mid t late, h = early ++ u :: (mid ++ t :: late) →
    ∀ call reply, u.event = .call call .flush → .answered call reply ∈ t.notices →
      ∀ now, Follows now (early ++ u :: (mid ++ [t])) → ∀ key lease,
        Latest (early ++ u :: (mid ++ [t])) key lease → lease.inForce now = true →
          (leases early).stores ≤ lease.number

/-- The steps of a call that asks for a result, up to its generator. -/
def asking (call : CallId) (key : String) (ttl t₀ t₁ t₂ t₃ : Nat) : List (Nat × Event V E) :=
  [(t₀, .call call (.getOrUpdate key ttl)), (t₁, .resume call), (t₂, .resume call),
    (t₃, .resume call)]

/-- The steps of a call whose generator ends. -/
def making (call : CallId) (result : Except E V) (done : Nat) : List (Nat × Event V E) :=
  [(done, .generated call result), (done, .resume call)]

/-- While no other call is in progress, a call that asks for a result has its generator started
exactly if the map has nothing in force, and is answered from the map otherwise. What the generator
gives is good from then on. -/
def AsksAlone (h : History V E) (c : KeyedCache V E) : Prop :=
  (∀ other, c.stage? other = none) → ∀ call key ttl t₀ t₁ t₂ t₃, Follows t₁ h → t₁ ≤ t₃ →
    let asked := Machine.history apply c (asking call key ttl t₀ t₁ t₂ t₃)
    match (leases h).lookup t₁ key with
    | some result => Machine.noticesOf asked = [.answered call (.result result)]
    | none => Machine.noticesOf asked = [.generate call key] ∧ ∀ result done,
        (leases (h ++ Machine.history apply c
          (asking call key ttl t₀ t₁ t₂ t₃ ++ making call result done))).lease key =
            some ⟨result, done, ttl, (leases h).stores⟩

/-! ## Every run keeps to the map -/

section

variable {lanes : Nat} {events : List (Nat × Event V E)}

/-- After every run a lookup finds the latest store that is still in force. -/
theorem looksUp_of_run (ordered : Ordered (Machine.history apply (create lanes) events)) :
    LooksUp (Machine.history apply (create lanes) events)
      (Machine.final apply (create lanes : KeyedCache V E) events) := by
  intro now follows key result
  have tracks := tracks_of_run lanes events ordered follows
  rw [tracks.agrees.lookup, TtlMap.lookup_eq_some_iff]
  exact exists_congr fun lease => and_congr_left' lease_iff_latest

/-- In every run calls are answered from the map. -/
theorem answersFromMap_of_run (named : Named (Machine.history apply (create lanes) events))
    (ordered : Ordered (Machine.history apply (create lanes) events)) :
    AnswersFromMap (Machine.history apply (create lanes : KeyedCache V E) events) := by
  intro past t future split call key
  have namedPast : Named past := Named.of_append (split ▸ named)
  have orderedPast : Ordered past := Ordered.of_append (split ▸ ordered)
  have follows : Follows t.now past := Ordered.follows (split ▸ ordered)
  obtain ⟨earlier, now, event, later, rfl, rfl, rfl, -⟩ :=
    Machine.exists_of_history_eq_append apply split
  have recorded := recorded_of_run lanes namedPast
  have tracks := tracks_of_run lanes earlier orderedPast follows
  have looks : ∀ name, (Machine.final apply (create lanes) earlier).table.lookup now name =
      (leases (Machine.history apply (create lanes) earlier)).lookup now name :=
    tracks.agrees.lookup
  refine ⟨fun starts => ?_, fun reply answered => ?_⟩
  · exact (looks key).symm.trans (starts_of_mem starts).absent
  · obtain ⟨request, asked, answer⟩ := answer_of_mem recorded answered
    refine ⟨fun get => ?_, fun ttl asks => ?_⟩
    · have same := namedPast.unique asked get
      cases answer with
      | looked =>
          cases same
          exact congrArg Reply.found (looks key)
      | held => cases same
      | earned _ _ earned => subst same; cases earned
      | refused _ _ _ _ drops => subst same; cases drops
      | swept sweep => cases sweep <;> cases same
    · have same := namedPast.unique asked asks
      cases answer with
      | looked => cases same
      | held _ _ result found =>
          cases same
          exact ⟨result, rfl, .inr ((looks key).symm.trans found)⟩
      | earned _ _ earned =>
          subst same
          cases earned with
          | made _ _ result gave => exact ⟨result, rfl, .inl gave⟩
      | refused _ _ _ _ drops => subst same; cases drops
      | swept sweep => cases sweep <;> cases same

/-- What a call is about to change is something that its request allows. -/
theorem mayChange_of_told {past : History V E} {call : CallId} {stage : Stage V E}
    (told : Told past call stage) {change : Change V E} (changes : stage.change? = some change) :
    ∃ request, (call, request) ∈ begunIn past ∧ MayChange past call request change := by
  cases stage with
  | requested request =>
      cases request with
      | set key ttl value => cases changes; exact ⟨_, told.1, .set key ttl value⟩
      | remove key => cases changes; exact ⟨_, told.1, .remove key⟩
      | removeIf key test => cases changes; exact ⟨_, told.1, .removeIf key test⟩
      | get | getOrUpdate | flush | purge => cases changes
  | generated key ttl result => cases changes; exact ⟨_, told.1, .made key ttl result told.2⟩
  | sweeping rest count sweep =>
      cases rest with
      | nil => cases changes
      | cons row rest =>
          cases sweep with
          | flush => cases changes; exact ⟨_, told, .flush row.2 row.1⟩
          | purge => cases changes
  | missed | queued | generating | evicting => cases changes

/-- In every run the map changes only as a call in progress asked for. -/
theorem changesAsAsked_of_run (named : Named (Machine.history apply (create lanes) events)) :
    ChangesAsAsked (Machine.history apply (create lanes : KeyedCache V E) events) := by
  intro past t future split change changes
  have namedPast : Named past := Named.of_append (split ▸ named)
  obtain ⟨earlier, now, event, later, rfl, rfl, rfl, -⟩ :=
    Machine.exists_of_history_eq_append apply split
  have recorded := recorded_of_run lanes namedPast
  cases event with
  | resume call =>
      obtain ⟨stage, at_, changes⟩ := Option.bind_eq_some_iff.mp changes
      obtain ⟨request, asked, may⟩ := mayChange_of_told (recorded.told call stage at_) changes
      exact ⟨call, request, rfl, asked, may⟩
  | call | generated | evicted | abort => cases changes

/-- In every run a store leaves what is found under other keys. -/
theorem storesApart_of_run (lanes : Nat) (events : List (Nat × Event V E)) :
    StoresApart (Machine.history apply (create lanes : KeyedCache V E) events) := by
  intro t member call key entry stored other ne later
  obtain ⟨earlier, now, event, _, -, rfl⟩ := Machine.exists_of_mem_history apply member
  simp only [Machine.move] at stored ⊢
  generalize Machine.final apply (create lanes) earlier = c at stored ⊢
  have known : (key, entry) ∈ storedIn (c.apply now event).2 := mem_storedIn.mpr ⟨call, stored⟩
  cases effect_apply c now event with
  | keeps _ _ none_ => exact absurd (none_ ▸ known) List.not_mem_nil
  | removes _ _ _ _ _ none_ => exact absurd (none_ ▸ known) List.not_mem_nil
  | stores name new fresh table _ one =>
      obtain ⟨rfl, -⟩ := Prod.mk.inj (List.mem_singleton.mp (one ▸ known))
      rw [table, Table.lookup, Table.lookup, Table.find?_insert_of_ne _ ne]

/-- In every run a flush that has been answered has left nothing of what was stored before it. -/
theorem flushesAll_of_run (named : Named (Machine.history apply (create lanes) events))
    (ordered : Ordered (Machine.history apply (create lanes) events)) :
    FlushesAll (Machine.history apply (create lanes : KeyedCache V E) events) := by
  intro early u mid t late split call reply called answered now follows key lease latest inForce
  have through : early ++ u :: (mid ++ t :: late) = (early ++ u :: (mid ++ [t])) ++ late := by simp
  have orderedThrough : Ordered (early ++ u :: (mid ++ [t])) :=
    Ordered.of_append (through ▸ split ▸ ordered)
  -- The flush has left no older entry, and what is in force has an entry.
  have older : ∀ entry, t.after.table.find? key = some entry → u.before.nextSeq ≤ entry.seq :=
    fun entry held => flush_removes_older named split called answered held
  have numbers : (leases early).stores = u.before.nextSeq := by
    obtain ⟨before, rfl, same⟩ := Machine.exists_run_before apply split
    rw [same]
    exact (tracks_of_run lanes before orderedThrough.of_append
      fun v member => follows v (by simp [member])).stores
  have tracks : Tracks t.after (leases (early ++ u :: (mid ++ [t]))) now := by
    have cut : Machine.history apply (create lanes) events = (early ++ u :: mid) ++ t :: late := by
      simp [split]
    obtain ⟨earlier, history, same⟩ := Machine.exists_run_after apply cut
    rw [List.append_assoc, List.cons_append] at history
    rw [history] at orderedThrough follows ⊢
    rw [same]
    exact tracks_of_run lanes earlier orderedThrough follows
  have known := lease_iff_latest.mpr latest
  cases held : t.after.table.find? key with
  | none => simp [tracks.agrees.gone key lease known held] at inForce
  | some entry =>
      obtain ⟨own, known', rfl⟩ := tracks.agrees.held key entry held
      obtain rfl : own = lease := Option.some.inj (known'.symm.trans known)
      exact numbers ▸ older _ held

end

/-! ## A call that nobody disturbs -/

section

variable {c : KeyedCache V E} {key : String} {t₁ : Nat}

/-- A call that finds a result is answered with it. -/
theorem asking_of_found (free : c.lanes.requests = []) {result : Except E V}
    (found : c.table.lookup t₁ key = some result) (call : CallId) (ttl t₀ t₂ t₃ : Nat) :
    Machine.noticesOf (Machine.history apply c (asking call key ttl t₀ t₁ t₂ t₃)) =
      [.answered call (.result result)] := by
  obtain ⟨d, hd⟩ : ∃ d, d = c.moveTo call (.requested (.getOrUpdate key ttl)) := ⟨_, rfl⟩
  have begins : c.apply t₀ (.call call (.getOrUpdate key ttl)) = (d, []) := by rw [hd]; rfl
  have looks : d.apply t₁ (.resume call) = d.answer call (.result result) :=
    apply_resume_of_found d t₁ (hd ▸ stage?_moveTo_self c _) (hd ▸ found)
  have ended : ∀ now, (d.answer call (.result result)).1.apply now (.resume call) =
      ((d.answer call (.result result)).1, []) := fun now =>
    apply_resume_of_gone _ now (stage?_answer_self d (.result result))
  have alone : d.lanes.admittedBy call = [] := by simp [hd, moveTo, Lanes.admittedBy, free]
  simp [asking, Machine.history, Machine.move, Machine.noticesOf, begins, looks, ended]
  simp [answer, leave, alone]

/-- A call that finds nothing, and whom nobody disturbs, has its generator started. -/
theorem asking_of_absent (free : c.lanes.requests = []) (absent : c.table.lookup t₁ key = none)
    {t₃ : Nat} (le : t₁ ≤ t₃) (call : CallId) (ttl t₀ t₂ : Nat) :
    Machine.noticesOf (Machine.history apply c (asking call key ttl t₀ t₁ t₂ t₃)) =
        [.generate call key] ∧
      (Machine.final apply c (asking call key ttl t₀ t₁ t₂ t₃)).stage? call =
        some (.generating key ttl) ∧
      ∀ m, (Machine.history apply c (asking call key ttl t₀ t₁ t₂ t₃)).foldl leasesAfter m = m := by
  obtain ⟨d, hd⟩ : ∃ d, d = c.moveTo call (.requested (.getOrUpdate key ttl)) := ⟨_, rfl⟩
  obtain ⟨e, he⟩ : ∃ e, e = d.moveTo call (.missed key ttl) := ⟨_, rfl⟩
  obtain ⟨f, hf⟩ : ∃ f, f = ({ e with lanes := e.lanes.request call (e.laneOf key) } :
    KeyedCache V E).moveTo call (.queued key ttl) := ⟨_, rfl⟩
  have requested : d.stage? call = some (.requested (.getOrUpdate key ttl)) :=
    hd ▸ stage?_moveTo_self c _
  have missed : e.stage? call = some (.missed key ttl) := he ▸ stage?_moveTo_self d _
  have queued : f.stage? call = some (.queued key ttl) := hf ▸ stage?_moveTo_self _ _
  have holder : f.lanes.holder (f.laneOf key) = some call := by
    rw [hf, he, hd]
    exact Lanes.holder_request_of_none (Lanes.holder_eq_none_of_nil free _) call
  have begins : c.apply t₀ (.call call (.getOrUpdate key ttl)) = (d, []) := by rw [hd]; rfl
  have misses : d.apply t₁ (.resume call) = (e, []) :=
    he ▸ apply_resume_of_absent d t₁ requested (hd ▸ absent)
  have queues : e.apply t₂ (.resume call) = (f, []) := hf ▸ apply_resume_of_missed e t₂ missed
  have same : f.table = c.table := by rw [hf, he, hd]; rfl
  have starts : f.apply t₃ (.resume call) =
      (f.moveTo call (.generating key ttl), [.generate call key]) :=
    apply_resume_of_queued f t₃ queued (by simp [Lanes.holds, holder])
      (same ▸ Table.lookup_later le absent)
  refine ⟨?_, ?_, fun m => ?_⟩
  · simp [asking, Machine.history, Machine.move, Machine.noticesOf, begins, misses, queues, starts]
  · simp [asking, Machine.final, begins, misses, queues, starts]
  · simp [asking, Machine.history, Machine.move, begins, misses, queues, leasesAfter, changeOf,
      requested, missed, queued, Stage.change?]

end

section

variable {lanes : Nat} {events : List (Nat × Event V E)}

/-- After every run a call that is alone has its generator started exactly if nothing is in force.
-/
theorem asksAlone_of_run (ordered : Ordered (Machine.history apply (create lanes) events)) :
    AsksAlone (Machine.history apply (create lanes) events)
      (Machine.final apply (create lanes : KeyedCache V E) events) := by
  intro quiet call key ttl t₀ t₁ t₂ t₃ follows le
  have free := (orderly_of_run lanes events).requests_eq_nil quiet
  have looks := (tracks_of_run lanes events ordered follows).agrees.lookup key
  generalize Machine.history apply (KeyedCache.create lanes) events = h at looks ⊢
  generalize Machine.final apply (KeyedCache.create lanes) events = c at free looks ⊢
  rw [← looks]
  cases found : c.table.lookup t₁ key with
  | some result => exact asking_of_found free found call ttl t₀ t₂ t₃
  | none =>
      obtain ⟨notices, stage, silent⟩ := asking_of_absent free found le call ttl t₀ t₂
      refine ⟨notices, fun result done => ?_⟩
      rw [leases_append, Machine.history_append, List.foldl_append, silent]
      generalize Machine.final apply c (asking call key ttl t₀ t₁ t₂ t₃) = d at stage ⊢
      have ends := apply_generated_of_generating d done result stage
      simp [making, Machine.history, Machine.move, ends, leasesAfter, changeOf, Stage.change?,
        TtlMap.change]

/-- Whatever calls are made on a cache at instants that do not decrease, and however their steps
interleave, the cache is a map with lifetimes: lookups find the latest store that has not been
removed since until its lifetime is over, calls are answered from the map and change it as they
asked, a store leaves the other keys alone, a flush leaves nothing older behind, and a call that
nobody disturbs has its generator started exactly if the map has nothing in force. -/
theorem refines_ttl_map (lanes : Nat) (events : List (Nat × Event V E))
    (named : Named (Machine.history apply (create lanes) events))
    (ordered : Ordered (Machine.history apply (create lanes) events)) :
    let h := Machine.history apply (create lanes : KeyedCache V E) events
    let c := Machine.final apply (create lanes : KeyedCache V E) events
    LooksUp h c ∧ AnswersFromMap h ∧ ChangesAsAsked h ∧ StoresApart h ∧ FlushesAll h ∧
      AsksAlone h c :=
  ⟨looksUp_of_run ordered, answersFromMap_of_run named ordered, changesAsAsked_of_run named,
    storesApart_of_run lanes events, flushesAll_of_run named ordered, asksAlone_of_run ordered⟩

/-- A failure is kept for ten units of time, found, looked up in vain when these are over, removed
all the same, and replaced by a value that never expires. -/
def failureThenValue : List (Nat × Event Nat String) :=
  asking 1 "k" 10 0 0 0 0 ++ making 1 (.error "no") 5 ++
    [(14, .call 2 (.get "k")), (14, .resume 2), (15, .call 3 (.get "k")), (15, .resume 3),
      (15, .call 4 (.remove "k")), (15, .resume 4), (15, .evicted 4),
      (20, .call 5 (.set "k" Clock.last 7)), (20, .resume 5)]

/-- The failure expires at 15, and the value is still found at the last instant of the clock. -/
theorem refines_ttl_map_of_failure_then_value :
    let h := Machine.history apply (create 4 : KeyedCache Nat String) failureThenValue
    let c := Machine.final apply (create 4 : KeyedCache Nat String) failureThenValue
    (Named h ∧ Ordered h) ∧ (c.table.lookup Clock.last "k").isSome = true ∧
      LooksUp h c ∧ AnswersFromMap h ∧ ChangesAsAsked h ∧ StoresApart h ∧ FlushesAll h ∧
        AsksAlone h c := by
  have named : Named (Machine.history apply (create 4 : KeyedCache Nat String) failureThenValue) :=
    by decide +kernel
  have ordered :
      Ordered (Machine.history apply (create 4 : KeyedCache Nat String) failureThenValue) := by
    decide +kernel
  exact ⟨⟨named, ordered⟩, by decide +kernel, refines_ttl_map 4 failureThenValue named ordered⟩

end

end CachedStreams.KeyedCache
