import Mathlib.Data.List.Induction
import CachedStreams.Proofs.KeyedCache.Ledger
import CachedStreams.Proofs.KeyedCache.Records

/-!
# One generator at a time

A call whose generator runs holds the lane of its key, and a lane has one holder. The invariant is
`KeyedCache.Orderly`; `orderly_of_run` says that it holds after every run. Since a call looks again
once it holds the lane, a generator is only ever started for a key that has nothing live in the
table (`StartsOnMiss`), and every answer is either what the call's own generator gave or what was
found live under the key (`AnswersFromKey`).
-/

set_option autoImplicit false

namespace CachedStreams

namespace Lanes

/-- Whoever holds a lane goes on holding it when another call withdraws. -/
theorem holder_withdraw_of_holder {l : Lanes} {lane : Nat} {owner call : CallId}
    (holder : l.holder lane = some owner) (ne : owner ≠ call) :
    (l.withdraw call).holder lane = some owner := by
  obtain ⟨requests⟩ := l
  induction requests with
  | nil => cases holder
  | cons r rest ih =>
      simp only [Lanes.holder, withdraw, List.find?_cons, List.filter_cons] at holder ih ⊢
      by_cases first : r.2 = lane
      · have own : r.1 = owner := by simpa [first] using holder
        simp [own, ne, first]
      · have passed : (r.2 == lane) = false := beq_eq_false_iff_ne.mpr first
        have later := ih (by simpa [passed] using holder)
        by_cases gone : r.1 = call
        · simpa [gone] using later
        · simpa [gone, passed] using later

/-- Where nobody has asked for a lane nobody holds one. -/
theorem holder_eq_none_of_nil {l : Lanes} (empty : l.requests = []) (lane : Nat) :
    l.holder lane = none := by
  simp [holder, empty]

/-- Whoever asks for a free lane holds it. -/
theorem holder_request_of_none {l : Lanes} {lane : Nat} (free : l.holder lane = none)
    (call : CallId) : (l.request call lane).holder lane = some call := by
  simp only [holder, Option.map_eq_none_iff] at free
  simp [holder, request, List.find?_append, free]

end Lanes

namespace KeyedCache

variable {V E : Type}

/-! ## Lanes are held in order -/

/-- Whether a call at this stage has a generator that runs, or that has just ended. -/
inductive Stage.Generates (key : String) : Stage V E → Prop where
  | generating (ttl : Nat) : Generates key (.generating key ttl)
  | generated (ttl : Nat) (result : Except E V) : Generates key (.generated key ttl result)

/-- What a call can do to the lanes. -/
inductive LaneMove (c : KeyedCache V E) (call : CallId) (d : KeyedCache V E) : Prop where
  | keeps (lanes : d.lanes = c.lanes) (stays : d.stage? call = none → c.stage? call = none)
  | asks (lane : Nat) (lanes : d.lanes = c.lanes.request call lane)
    (stays : d.stage? call ≠ none)
  | withdraws (lanes : d.lanes = c.lanes.withdraw call)

/-- Lanes are held in order. -/
structure Orderly (lanes : Nat) (c : KeyedCache V E) : Prop where
  laneCount : c.laneCount = lanes
  /-- Only calls in progress stand in a queue. -/
  present : ∀ r ∈ c.lanes.requests, c.stage? r.1 ≠ none
  /-- A call whose generator runs holds the lane of its key. -/
  holding : ∀ call key stage, c.stage? call = some stage → stage.Generates key →
    c.lanes.holder (c.laneOf key) = some call

section

variable {c : KeyedCache V E} {now : Nat} {event : Event V E}
  {r : KeyedCache V E × List (Notice V E)}

/-- A store does not change how many lanes there are. -/
theorem laneCount_store (c : KeyedCache V E) (now : Nat) (call : CallId) (key : String) (ttl : Nat)
    (result : Except E V) (reply : Reply V E) :
    (c.store now call key ttl result reply).1.laneCount = c.laneCount := by
  cases displaced : c.table.find? key with
  | none => rw [store_of_absent c now call displaced]; rfl
  | some old => rw [store_of_present c now call displaced]; rfl

/-- A cache keeps the number of its lanes. -/
theorem laneCount_turn (turn : Turn c now event r) : r.1.laneCount = c.laneCount := by
  cases turn with
  | stores => exact laneCount_store c ..
  | _ => rfl

/-- What a turn does to the lanes it does in the name of its own call. -/
theorem laneMove_turn (turn : Turn c now event r) : LaneMove c event.subject r.1 := by
  cases turn with
  | begins | misses | generates | removes | beginsSweep | sweeps | passes | makes | sweepsOn =>
      exact .keeps rfl fun gone => by simp [Event.subject, evict] at gone
  | waits | ignoresResult | ignoresHook => exact .keeps rfl id
  | queues call key ttl => exact .asks _ rfl (by simp [Event.subject])
  | givesUp | gets | hits | removesNothing | endsSweep | replies => exact .withdraws rfl
  | stores call key ttl at_ result reply =>
      cases displaced : c.table.find? key with
      | none =>
          rw [store_of_absent c now call displaced]
          exact .withdraws rfl
      | some old =>
          rw [store_of_present c now call displaced]
          exact .keeps rfl fun gone => by simp [Event.subject] at gone

/-- A call comes to run a generator when it is started, and otherwise ran it before. -/
theorem generates_turn (turn : Turn c now event r) {key : String} {stage : Stage V E}
    (reached : r.1.stage? event.subject = some stage) (generates : stage.Generates key) :
    r.1.lanes = c.lanes ∧ (Starts c now event event.subject key ∨
      ∃ earlier, c.stage? event.subject = some earlier ∧ earlier.Generates key) := by
  cases turn with
  | begins | misses | queues | beginsSweep | passes | sweepsOn | removes | sweeps =>
      obtain rfl := eq_of_stage?_moveTo reached
      cases generates
  | givesUp | gets | hits | removesNothing | endsSweep | replies =>
      simp [Event.subject] at reached
  | waits | ignoresResult | ignoresHook => exact ⟨rfl, .inr ⟨stage, reached, generates⟩⟩
  | generates call key ttl before holds absent =>
      obtain rfl := eq_of_stage?_moveTo reached
      cases generates
      exact ⟨rfl, .inl ⟨rfl, ⟨ttl, before⟩, holds, absent⟩⟩
  | stores =>
      simp only [Event.subject, stage?_store_self, Option.map_eq_some_iff] at reached
      obtain ⟨old, -, rfl⟩ := reached
      cases generates
  | makes call key ttl result before =>
      obtain rfl := eq_of_stage?_moveTo reached
      cases generates
      exact ⟨rfl, .inr ⟨_, before, .generating ttl⟩⟩

end

namespace Orderly

variable {lanes : Nat} {c : KeyedCache V E}

/-- In a new cache all lanes are free. -/
theorem create (lanes : Nat) : Orderly lanes (create lanes : KeyedCache V E) :=
  ⟨rfl, nofun, nofun⟩

/-- Whoever holds a lane goes on to hold it whatever another call does. -/
theorem holder_kept {call owner : CallId} {d : KeyedCache V E} (moves : LaneMove c call d)
    (ne : owner ≠ call) {lane : Nat} (holder : c.lanes.holder lane = some owner) :
    d.lanes.holder lane = some owner := by
  cases moves with
  | keeps same => rw [same, holder]
  | asks _ asked => rw [asked, Lanes.holder_request_of_holder holder]
  | withdraws withdrawn => rw [withdrawn, Lanes.holder_withdraw_of_holder holder ne]

/-- Every event leaves the lanes in order. -/
theorem apply (orderly : Orderly lanes c) (now : Nat) (event : Event V E) :
    Orderly lanes (c.apply now event).1 := by
  have turn := turn_apply c now event
  have others : ∀ {other}, other ≠ event.subject →
      (c.apply now event).1.stage? other = c.stage? other := stage?_apply_of_ne c now
  have sameLane : ∀ key, (c.apply now event).1.laneOf key = c.laneOf key := fun key => by
    rw [laneOf, laneOf, laneCount_turn turn]
  have moves := laneMove_turn turn
  refine ⟨(laneCount_turn turn).trans orderly.laneCount, fun r member => ?_,
    fun call key stage reached generates => ?_⟩
  · by_cases own : r.1 = event.subject
    · rw [own]
      cases moves with
      | keeps same stays =>
          rw [same] at member
          exact fun gone => orderly.present r member (own ▸ stays gone)
      | asks lane asked stays => exact stays
      | withdraws withdrawn =>
          rw [withdrawn] at member
          simp [Lanes.withdraw, own] at member
    · rw [others own]
      cases moves with
      | keeps same => exact orderly.present r (same ▸ member)
      | asks lane asked =>
          rw [asked] at member
          rcases List.mem_append.mp member with before | here
          · exact orderly.present r before
          · exact absurd (congrArg Prod.fst (List.mem_singleton.mp here)) own
      | withdraws withdrawn =>
          rw [withdrawn] at member
          exact orderly.present r (List.mem_filter.mp member).1
  · rw [sameLane]
    by_cases own : call = event.subject
    · subst own
      obtain ⟨same, starts | ⟨earlier, before, ran⟩⟩ := generates_turn turn reached generates
      · rw [same, eq_of_beq starts.holds]
      · rw [same, orderly.holding _ key earlier before ran]
    · rw [others own] at reached
      exact holder_kept moves own (orderly.holding call key stage reached generates)

/-- Where no call is in progress nobody has asked for a lane. -/
theorem requests_eq_nil (orderly : Orderly lanes c) (quiet : ∀ call, c.stage? call = none) :
    c.lanes.requests = [] :=
  List.eq_nil_iff_forall_not_mem.mpr fun r member => orderly.present r member (quiet r.1)

end Orderly

/-- In every run lanes are held in order. -/
theorem orderly_of_run (lanes : Nat) (events : List (Nat × Event V E)) :
    Orderly lanes (Machine.final apply (create lanes : KeyedCache V E) events) :=
  Machine.final_induction apply (Orderly lanes) (.create lanes)
    (fun _ now event orderly _ => orderly.apply now event) (Machine.allows_true apply _ events)

/-! ## What this says of runs -/

/-- A generator runs only after it was started. -/
theorem running_sublist_started (h : History V E) : (running h).Sublist (started h) := by
  induction h using List.reverseRecOn with
  | nil => exact .slnil
  | append_singleton past t ih =>
      rw [running_snoc, started_snoc]
      exact (List.filter_sublist.trans ih).append_right _

/-- No two generators run for one key, nor for two keys of one lane. -/
def OnePerLane (lanes : Nat) (h : History V E) : Prop :=
  ((running h).map (·.2)).Nodup ∧ ((running h).map fun g => KeyHash.lane lanes g.2).Nodup

/-- Whenever a generator is started, the table holds nothing live under its key. -/
def StartsOnMiss (h : History V E) : Prop :=
  ∀ t ∈ h, ∀ call key, .generate call key ∈ t.notices →
    ∀ entry, t.before.table.find? key = some entry → entry.isLive t.now = false

/-- No call has its generator started twice, and only a call that asked for it has. -/
def StartsOnce (h : History V E) : Prop :=
  ((started h).map (·.1)).Nodup ∧
    ∀ call key, (call, key) ∈ started h → ∃ ttl, (call, .getOrUpdate key ttl) ∈ begunIn h

/-- A result that is found live under a key, where it was stored. -/
structure HeldLive (past : History V E) (c : KeyedCache V E) (now : Nat) (key : String)
    (result : Except E V) (entry : Entry V E) : Prop where
  held : c.table.find? key = some entry
  live : entry.isLive now = true
  same : entry.result = result
  stored : (key, entry) ∈ storedIn (Machine.noticesOf past)

/-- A call that asks for a result is answered with what its own generator gave for the key, or with
what was stored under the key and is found live. -/
def AnswersFromKey (h : History V E) : Prop :=
  ∀ past t future, h = past ++ t :: future →
    ∀ call key ttl reply, (call, .getOrUpdate key ttl) ∈ begunIn past →
      .answered call reply ∈ t.notices →
        ∃ result, reply = .result result ∧
          (Gave past call key result ∨ ∃ entry, HeldLive past t.before t.now key result entry)

/-- In every run at most one generator runs for each lane. -/
theorem onePerLane_of_run {lanes : Nat} {events : List (Nat × Event V E)}
    (named : Named (Machine.history apply (create lanes) events)) :
    OnePerLane lanes (Machine.history apply (create lanes : KeyedCache V E) events) := by
  have recorded := recorded_of_run lanes named
  have orderly := orderly_of_run lanes events
  generalize Machine.history apply (KeyedCache.create lanes) events = h at recorded ⊢
  have once : ((running h).map (·.1)).Nodup :=
    recorded.once.sublist ((running_sublist_started h).map _)
  -- Two generators in one lane have the same holder, so they belong to one call.
  have apart : ∀ g ∈ running h, ∀ g' ∈ running h,
      KeyHash.lane lanes g.2 = KeyHash.lane lanes g'.2 → g = g' := by
    intro g member g' member' same
    obtain ⟨ttl, stage⟩ := (recorded.runs g.1 g.2).mp member
    obtain ⟨ttl', stage'⟩ := (recorded.runs g'.1 g'.2).mp member'
    have holder := orderly.holding _ _ _ stage (.generating ttl)
    have holder' := orderly.holding _ _ _ stage' (.generating ttl')
    rw [laneOf, orderly.laneCount] at holder holder'
    rw [same, holder'] at holder
    exact List.inj_on_of_nodup_map once member member' (Option.some.inj holder).symm
  have perLane : ((running h).map fun g => KeyHash.lane lanes g.2).Nodup :=
    once.of_map.map_on apart
  have perKey : ((running h).map (·.2)).Nodup :=
    .of_map (KeyHash.lane lanes) (by simpa [List.map_map, Function.comp_def] using perLane)
  exact ⟨perKey, perLane⟩

/-- In every run generators are started only where nothing live is found. -/
theorem startsOnMiss_of_run (lanes : Nat) (events : List (Nat × Event V E)) :
    StartsOnMiss (Machine.history apply (create lanes : KeyedCache V E) events) := by
  intro t member call key starts entry held
  obtain ⟨earlier, now, event, later, -, rfl⟩ := Machine.exists_of_mem_history apply member
  have absent := (starts_of_mem starts).absent
  simp only [Machine.move] at held ⊢
  simpa [Table.lookup, held] using absent

/-- In every run a call is answered with its own result or with what was stored under its key. -/
theorem answersFromKey_of_run {lanes : Nat} {events : List (Nat × Event V E)}
    (named : Named (Machine.history apply (create lanes) events)) :
    AnswersFromKey (Machine.history apply (create lanes : KeyedCache V E) events) := by
  intro past t future split call key ttl reply asked answered
  have namedPast : Named past := Named.of_append (split ▸ named)
  obtain ⟨earlier, now, event, later, rfl, rfl, rfl, -⟩ :=
    Machine.exists_of_history_eq_append apply split
  have recorded := recorded_of_run lanes namedPast
  have ledger := ledger_of_run (V := V) (E := E) lanes earlier
  obtain ⟨request, asked', answer⟩ := answer_of_mem recorded answered
  have same := namedPast.unique asked' asked
  cases answer with
  | looked => cases same
  | held _ _ result found =>
      cases same
      simp only [Table.lookup, Option.map_eq_some_iff, Option.filter_eq_some_iff] at found
      obtain ⟨entry, ⟨held, live⟩, same⟩ := found
      have stored := ledger.balance.mem_iff.mpr
        (List.mem_append_left _ (Table.mem_rows_of_find? held))
      exact ⟨result, rfl, .inr ⟨entry, held, live, same, stored⟩⟩
  | earned _ _ earned =>
      subst same
      cases earned with
      | made _ _ result gave => exact ⟨result, rfl, .inl gave⟩
  | refused _ _ _ _ drops =>
      subst same
      cases drops
  | swept sweep count => cases sweep <;> cases same

/-- However calls on a cache overlap, are given up or have generators that fail: no two generators
run in one lane, a generator is only started for a key without a live entry, no call has its
generator started twice, and a call is answered with its own generator's result or with one that is
stored under its key and is live. -/
theorem single_flight (lanes : Nat) (events : List (Nat × Event V E))
    (named : Named (Machine.history apply (create lanes) events)) :
    let h := Machine.history apply (create lanes : KeyedCache V E) events
    OnePerLane lanes h ∧ StartsOnMiss h ∧ StartsOnce h ∧ AnswersFromKey h := by
  have recorded := recorded_of_run lanes named
  exact ⟨onePerLane_of_run named, startsOnMiss_of_run lanes events,
    ⟨recorded.once, recorded.asked⟩, answersFromKey_of_run named⟩

/-- Two calls ask for one key; the second waits for the generator of the first. -/
def twoCallers : List (Nat × Event Nat String) :=
  [(0, .call 1 (.getOrUpdate "k" 100)), (0, .resume 1), (0, .resume 1), (0, .resume 1),
    (1, .call 2 (.getOrUpdate "k" 100)), (1, .resume 2), (1, .resume 2), (1, .resume 2),
    (5, .generated 1 (.ok 7)), (5, .resume 1), (5, .resume 2)]

/-- Two calls ask for one result, and one generator is started. -/
theorem single_flight_of_two_callers :
    let h := Machine.history apply (create 4 : KeyedCache Nat String) twoCallers
    Named h ∧ started h = [(1, "k")] ∧
      OnePerLane 4 h ∧ StartsOnMiss h ∧ StartsOnce h ∧ AnswersFromKey h := by
  have named : Named (Machine.history apply (create 4 : KeyedCache Nat String) twoCallers) := by
    decide
  exact ⟨named, by decide +kernel, single_flight 4 twoCallers named⟩

end KeyedCache

end CachedStreams
