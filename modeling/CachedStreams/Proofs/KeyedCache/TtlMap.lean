import Mathlib.Data.List.Induction
import Mathlib.Logic.Function.Basic
import CachedStreams.Proofs.KeyedCache.Records

/-!
# A map with lifetimes

What a keyed cache is to those who use it: a map that remembers, for each key, the latest result
stored under it, when that was, and for how long the result is good. `TtlMap` knows nothing of
calls, of lanes or of a table that still holds what has expired. `KeyedCache.leases` reads off the
history of a run what its calls have done to the map, each at the step with which it touches the
table; purging is not among it, since it only removes what nobody can find any more.

`Table.Agrees` relates a table to the map at an instant. `KeyedCache.Tracks` extends the relation to
the whole cache, and `tracks_of_run` says that it holds after every run in which time goes forward.
-/

set_option autoImplicit false

namespace CachedStreams

/-- An entry that has expired stays so. -/
theorem Entry.not_isLive_later {V E : Type} {entry : Entry V E} {now later : Nat}
    (le : now ≤ later) (lapsed : entry.isLive now = false) : entry.isLive later = false := by
  cases expiry : entry.expiresAt with
  | none => simp [Entry.isLive, expiry] at lapsed
  | some instant =>
      simp only [Entry.isLive, expiry, decide_eq_false_iff_not] at lapsed ⊢
      omega

/-- A key that has no live entry has none later, as long as nothing is stored. -/
theorem Table.lookup_later {V E : Type} {t : Table V E} {key : String} {now later : Nat}
    (le : now ≤ later) (absent : t.lookup now key = none) : t.lookup later key = none := by
  simp only [Table.lookup, Option.map_eq_none_iff, Option.filter_eq_none_iff,
    Bool.not_eq_true] at absent ⊢
  exact fun entry held => Entry.not_isLive_later le (absent entry held)

/-- A result that was stored, and the lifetime it was given. -/
structure Lease (V E : Type) where
  result : Except E V
  since : Nat
  ttl : Nat
  /-- The lease's number in the sequence of all stores. -/
  number : Nat

namespace Lease

variable {V E : Type}

/-- Whether a lifetime is not over yet; one that ends later than the clock can tell never is. -/
def inForce (l : Lease V E) (now : Nat) : Bool :=
  decide (now < l.since + l.ttl) || decide (Clock.last < l.since + l.ttl)

/-- A lease is in force until its lifetime is over, and for ever if that lies past the last instant
of the clock. -/
theorem inForce_iff {l : Lease V E} {now : Nat} :
    l.inForce now = true ↔ now < l.since + l.ttl ∨ Clock.last < l.since + l.ttl := by
  simp [inForce]

/-- A lease that has lapsed stays so. -/
theorem not_inForce_later {l : Lease V E} {now later : Nat} (le : now ≤ later)
    (lapsed : l.inForce now = false) : l.inForce later = false := by
  simp only [inForce, Bool.or_eq_false_iff, decide_eq_false_iff_not] at lapsed ⊢
  exact ⟨by omega, lapsed.2⟩

/-- The entry that a table holds for a lease. -/
def entry (l : Lease V E) : Entry V E := ⟨l.result, Clock.add? l.since l.ttl, l.number⟩

/-- The entry of a lease is live as long as the lease is in force. -/
theorem isLive_entry (l : Lease V E) (now : Nat) : l.entry.isLive now = l.inForce now := by
  simp only [entry, Entry.isLive, Clock.add?, inForce]
  split
  · rename_i never
    have past : Clock.last < l.since + l.ttl := by
      by_contra within
      simp [Nat.le_of_not_lt within] at never
    simp [past]
  · rename_i instant some_
    obtain ⟨within, rfl⟩ : l.since + l.ttl ≤ Clock.last ∧ l.since + l.ttl = instant := by
      simpa using some_
    simp [Nat.not_lt.mpr within]

end Lease

/-! ## The map -/

/-- The latest store under each key that has not been removed since. -/
structure TtlMap (V E : Type) where
  lease : String → Option (Lease V E)
  /-- How many stores there have been. -/
  stores : Nat

/-- What a call does to a map with lifetimes. -/
inductive Change (V E : Type) where
  | store (key : String) (result : Except E V) (ttl : Nat)
  /-- Remove a result if a test accepts it. -/
  | remove (key : String) (test : Except E V → Bool)
  /-- Remove the store of this number, if it has not been replaced. -/
  | evict (key : String) (number : Nat)

/-- Whether a change replaces or removes the lease of a key. -/
def Change.Ends {V E : Type} (key : String) (lease : Lease V E) : Change V E → Prop
  | store name _ _ => name = key
  | remove name test => name = key ∧ test lease.result = true
  | evict name number => name = key ∧ lease.number = number

namespace TtlMap

variable {V E : Type}

/-- A map without entries. -/
def empty : TtlMap V E := ⟨fun _ => none, 0⟩

/-- The result that is in force for a key. -/
def lookup (m : TtlMap V E) (now : Nat) (key : String) : Option (Except E V) :=
  ((m.lease key).filter (·.inForce now)).map (·.result)

/-- Drop the lease of a key if a test accepts it. -/
def drop (m : TtlMap V E) (key : String) (test : Lease V E → Bool) : TtlMap V E :=
  { m with lease := Function.update m.lease key ((m.lease key).filter fun l => !test l) }

/-- What a change makes of a map. -/
def change (m : TtlMap V E) (now : Nat) : Change V E → TtlMap V E
  | .store key result ttl =>
    ⟨Function.update m.lease key (some ⟨result, now, ttl, m.stores⟩), m.stores + 1⟩
  | .remove key test => m.drop key fun l => test l.result
  | .evict key number => m.drop key (·.number == number)

/-- A lookup gives the result of the lease of the key, as long as that is in force. -/
theorem lookup_eq_some_iff {m : TtlMap V E} {now : Nat} {key : String} {result : Except E V} :
    m.lookup now key = some result ↔ ∃ lease, m.lease key = some lease ∧ lease.result = result ∧
      (now < lease.since + lease.ttl ∨ Clock.last < lease.since + lease.ttl) := by
  simp only [lookup, Option.map_eq_some_iff, Option.filter_eq_some_iff, ← Lease.inForce_iff]
  exact exists_congr fun lease => by rw [and_assoc, and_comm (a := lease.inForce now = true)]

/-- A drop takes the lease of its key if that passes the test. -/
theorem lease_drop_self (m : TtlMap V E) (key : String) (test : Lease V E → Bool) :
    (m.drop key test).lease key = (m.lease key).filter fun l => !test l := by
  simp [drop]

/-- A drop leaves the leases of other keys. -/
theorem lease_drop_of_ne (m : TtlMap V E) {key other : String} (ne : other ≠ key)
    (test : Lease V E → Bool) : (m.drop key test).lease other = m.lease other := by
  simp [drop, ne]

/-- What is left after a drop was there before. -/
theorem lease_of_drop {m : TtlMap V E} {key other : String} {test : Lease V E → Bool}
    {lease : Lease V E} (kept : (m.drop key test).lease other = some lease) :
    m.lease other = some lease := by
  by_cases same : other = key
  · subst same
    rw [lease_drop_self] at kept
    exact (Option.filter_eq_some_iff.mp kept).1
  · rwa [lease_drop_of_ne m same] at kept

/-- Left after a drop is every lease but that of its key, if that passes the test. -/
theorem lease_drop_eq_some_iff {m : TtlMap V E} {key other : String} {test : Lease V E → Bool}
    {lease : Lease V E} : (m.drop key test).lease other = some lease ↔
      m.lease other = some lease ∧ ¬(key = other ∧ test lease = true) := by
  by_cases same : other = key
  · subst same
    simp [lease_drop_self, Option.filter_eq_some_iff]
  · simp [lease_drop_of_ne m same, Ne.symm same]

/-- The lease of a key after a change is a new one, or one that the change does not end. -/
theorem lease_change_eq_some_iff {m : TtlMap V E} {now : Nat} {change : Change V E} {key : String}
    {lease : Lease V E} : (m.change now change).lease key = some lease ↔
      (∃ result ttl, change = .store key result ttl ∧ lease = ⟨result, now, ttl, m.stores⟩) ∨
        (m.lease key = some lease ∧ ¬change.Ends key lease) := by
  cases change with
  | store name result ttl =>
      by_cases same : key = name
      · subst same
        simp [TtlMap.change, Change.Ends, eq_comm]
      · simp [TtlMap.change, Change.Ends, same, Ne.symm same]
  | remove name test => simp [TtlMap.change, Change.Ends, lease_drop_eq_some_iff]
  | evict name number => simp [TtlMap.change, Change.Ends, lease_drop_eq_some_iff]

end TtlMap

/-! ## A table agrees with a map -/

namespace Table

variable {V E : Type}

/-- A table agrees with a map: it holds entries of leases, and the leases that it lacks are over. -/
structure Agrees (t : Table V E) (m : TtlMap V E) (now : Nat) : Prop where
  held : ∀ key entry, t.find? key = some entry →
    ∃ lease, m.lease key = some lease ∧ lease.entry = entry
  gone : ∀ key lease, m.lease key = some lease → t.find? key = none → lease.inForce now = false

namespace Agrees

variable {t : Table V E} {m : TtlMap V E} {now : Nat}

/-- An empty table agrees with an empty map. -/
theorem empty (now : Nat) : (Table.empty : Table V E).Agrees .empty now := ⟨nofun, nofun⟩

/-- A table and a map that agree go on agreeing as time passes. -/
theorem later (agrees : t.Agrees m now) {later : Nat} (le : now ≤ later) : t.Agrees m later :=
  ⟨agrees.held, fun key lease known absent =>
    Lease.not_inForce_later le (agrees.gone key lease known absent)⟩

/-- A table and a map that agree give the same answer to every lookup. -/
theorem lookup (agrees : t.Agrees m now) (key : String) : t.lookup now key = m.lookup now key := by
  cases found : t.find? key with
  | some entry =>
      obtain ⟨lease, known, rfl⟩ := agrees.held key entry found
      simp only [Table.lookup, TtlMap.lookup, found, known, Option.filter_some, Lease.isLive_entry]
      cases lease.inForce now <;> rfl
  | none =>
      cases known : m.lease key with
      | none => simp [Table.lookup, TtlMap.lookup, found, known]
      | some lease =>
          have lapsed := agrees.gone key lease known found
          simp [Table.lookup, TtlMap.lookup, found, known, Option.filter_some, lapsed]

/-- Where nothing else changes it is enough to look at one key. -/
theorem alter (agrees : t.Agrees m now) {u : Table V E} {n : TtlMap V E} (key : String)
    (table : ∀ other, other ≠ key → u.find? other = t.find? other)
    (map : ∀ other, other ≠ key → n.lease other = m.lease other)
    (held : ∀ entry, u.find? key = some entry →
      ∃ lease, n.lease key = some lease ∧ lease.entry = entry)
    (gone : ∀ lease, n.lease key = some lease → u.find? key = none →
      lease.inForce now = false) : u.Agrees n now where
  held other entry found := by
    by_cases same : other = key
    · subst same
      exact held entry found
    · rw [table other same] at found
      rw [map other same]
      exact agrees.held other entry found
  gone other lease known absent := by
    by_cases same : other = key
    · subst same
      exact gone lease known absent
    · rw [map other same] at known
      rw [table other same] at absent
      exact agrees.gone other lease known absent

/-- A store in both keeps them in agreement. -/
theorem store (agrees : t.Agrees m now) (key : String) (result : Except E V) (ttl : Nat) :
    (t.insert key ⟨result, Clock.add? now ttl, m.stores⟩).Agrees
      (m.change now (.store key result ttl)) now := by
  refine agrees.alter key (fun _ ne => find?_insert_of_ne t ne _)
    (fun _ ne => by simp [TtlMap.change, ne]) (fun entry found => ?_) (fun lease known absent => ?_)
  · rw [find?_insert_self] at found
    cases found
    exact ⟨⟨result, now, ttl, m.stores⟩, by simp [TtlMap.change], rfl⟩
  · simp at absent

/-- A lease is dropped together with the entry that the table holds for it. -/
theorem drop_erase (agrees : t.Agrees m now) {key : String} {entry : Entry V E}
    (present : t.find? key = some entry) {test : Lease V E → Bool}
    (accepted : ∀ lease, lease.entry = entry → test lease = true) :
    (t.erase key).Agrees (m.drop key test) now := by
  refine agrees.alter key (fun _ ne => find?_erase_of_ne t ne)
    (fun _ ne => m.lease_drop_of_ne ne test) (fun entry' found => ?_) (fun lease known absent => ?_)
  · simp at found
  · obtain ⟨old, known', own⟩ := agrees.held key entry present
    rw [TtlMap.lease_drop_self, known', Option.filter_some] at known
    simp [accepted old own] at known

/-- A test that accepts nothing held drops at most a lease that is over. -/
theorem drop_refused (agrees : t.Agrees m now) {key : String} {test : Lease V E → Bool}
    (refused : ∀ lease, t.find? key = some lease.entry → test lease = false) :
    t.Agrees (m.drop key test) now := by
  refine agrees.alter key (fun _ _ => rfl) (fun _ ne => m.lease_drop_of_ne ne test)
    (fun entry found => ?_) (fun lease known absent => ?_)
  · obtain ⟨lease, known, rfl⟩ := agrees.held key entry found
    exact ⟨lease, by simp [TtlMap.lease_drop_self, known, refused lease found], rfl⟩
  · exact agrees.gone key lease (TtlMap.lease_of_drop known) absent

/-- To remove an entry that has expired keeps a table in agreement with the map as it is. -/
theorem erase_expired (agrees : t.Agrees m now) {key : String} {entry : Entry V E}
    (present : t.find? key = some entry) (lapsed : entry.isLive now = false) :
    (t.erase key).Agrees m now := by
  refine agrees.alter key (fun _ ne => find?_erase_of_ne t ne) (fun _ _ => rfl)
    (fun entry' found => ?_) (fun lease known absent => ?_)
  · simp at found
  · obtain ⟨old, known', rfl⟩ := agrees.held key entry present
    rw [known'] at known
    cases known
    rwa [Lease.isLive_entry] at lapsed

end Agrees

/-- The entries of a selection are those that the table holds and that pass the test. -/
theorem mem_select {t : Table V E} (keyed : t.Keyed) {test : Entry V E → Bool} {number : Nat}
    {key : String} : (number, key) ∈ t.select test ↔
      ∃ entry, t.find? key = some entry ∧ entry.seq = number ∧ test entry = true := by
  simp only [select, List.mem_map, List.mem_filter, Prod.mk.injEq, find?_eq_some_iff keyed]
  constructor
  · rintro ⟨⟨name, entry⟩, ⟨member, passes⟩, same, rfl⟩
    exact ⟨entry, member, same, passes⟩
  · rintro ⟨entry, member, same, passes⟩
    exact ⟨(key, entry), ⟨member, passes⟩, same, rfl⟩

end Table

namespace KeyedCache

variable {V E : Type}

/-! ## What a run makes of the map -/

/-- What a call at this stage does to the map when it takes its next step. -/
def Stage.change? : Stage V E → Option (Change V E)
  | .requested (.set key ttl value) => some (.store key (.ok value) ttl)
  | .requested (.remove key) => some (.remove key fun _ => true)
  | .requested (.removeIf key test) => some (.remove key test)
  | .generated key ttl result => some (.store key result ttl)
  | .sweeping ((number, key) :: _) _ .flush => some (.evict key number)
  | _ => none

/-- What an event does to the map. -/
def changeOf (c : KeyedCache V E) : Event V E → Option (Change V E)
  | .resume call => (c.stage? call).bind Stage.change?
  | _ => none

/-- What a move of the cache makes of the map. -/
def leasesAfter (m : TtlMap V E) (t : Move (KeyedCache V E) (Event V E) (Notice V E)) :
    TtlMap V E :=
  match changeOf t.before t.event with
  | some change => m.change t.now change
  | none => m

/-- What a history makes of an empty map. -/
def leases (h : History V E) : TtlMap V E := h.foldl leasesAfter .empty

/-- The leases after a history are those after its beginning, changed by the rest. -/
theorem leases_append (h k : History V E) : leases (h ++ k) = k.foldl leasesAfter (leases h) :=
  List.foldl_append

/-- The leases after one more move are those before it, changed by that move. -/
@[simp] theorem leases_snoc (h : History V E) (t : Move (KeyedCache V E) (Event V E) (Notice V E)) :
    leases (h ++ [t]) = leasesAfter (leases h) t := by
  simp [leases]

/-- A move gives a key a new lease. -/
def GivenBy (past : History V E) (t : Move (KeyedCache V E) (Event V E) (Notice V E))
    (key : String) (lease : Lease V E) : Prop :=
  ∃ result ttl, changeOf t.before t.event = some (.store key result ttl) ∧
    lease = ⟨result, t.now, ttl, (leases past).stores⟩

/-- A move neither replaces nor removes the lease of a key. -/
def Spares (t : Move (KeyedCache V E) (Event V E) (Notice V E)) (key : String)
    (lease : Lease V E) : Prop :=
  ∀ change, changeOf t.before t.event = some change → ¬change.Ends key lease

/-- The latest store under a key, if it has not been removed since. -/
def Latest (h : History V E) (key : String) (lease : Lease V E) : Prop :=
  ∃ past t future, h = past ++ t :: future ∧ GivenBy past t key lease ∧
    ∀ u ∈ future, Spares u key lease

/-- The lease of a key is the one that the last move gives, or the one before it that the move has
spared. -/
theorem latest_snoc {h : History V E} {t : Move (KeyedCache V E) (Event V E) (Notice V E)}
    {key : String} {lease : Lease V E} : Latest (h ++ [t]) key lease ↔
      GivenBy h t key lease ∨ (Latest h key lease ∧ Spares t key lease) :=
  exists_last_snoc

/-- The map has for each key what was stored under it last and not removed since. -/
theorem lease_iff_latest {h : History V E} {key : String} {lease : Lease V E} :
    (leases h).lease key = some lease ↔ Latest h key lease := by
  induction h using List.reverseRecOn with
  | nil => simp [leases, TtlMap.empty, Latest]
  | append_singleton past t ih =>
      rw [leases_snoc, latest_snoc, ← ih, leasesAfter]
      cases touches : changeOf t.before t.event with
      | none => simp [GivenBy, Spares, touches]
      | some change =>
          simp only [TtlMap.lease_change_eq_some_iff, GivenBy, Spares, touches, Option.some.injEq,
            forall_eq']

/-- Time does not go backwards in the course of a history. -/
def Ordered (h : History V E) : Prop := (h.map (·.now)).Pairwise (· ≤ ·)

instance (h : History V E) : Decidable (Ordered h) :=
  inferInstanceAs (Decidable ((h.map (·.now)).Pairwise (· ≤ ·)))

/-- An instant is no earlier than any move of a history. -/
def Follows (now : Nat) (h : History V E) : Prop := ∀ t ∈ h, t.now ≤ now

/-- The beginning of a history whose clock goes forward has a clock that goes forward. -/
theorem Ordered.of_append {h k : History V E} (ordered : Ordered (h ++ k)) : Ordered h := by
  unfold Ordered at *
  rw [List.map_append] at ordered
  exact (List.pairwise_append.mp ordered).1

/-- Where the clock goes forward, no move comes after those that follow it. -/
theorem Ordered.follows {h : History V E} {t : Move (KeyedCache V E) (Event V E) (Notice V E)}
    {k : History V E} (ordered : Ordered (h ++ t :: k)) : Follows t.now h := by
  unfold Ordered at ordered
  rw [List.map_append] at ordered
  intro u member
  exact (List.pairwise_append.mp ordered).2.2 _ (List.mem_map_of_mem member) _ (by simp)

/-- Where the clock goes forward, a move does not come after a later one. -/
theorem Ordered.le {h : History V E} {t u : Move (KeyedCache V E) (Event V E) (Notice V E)}
    {k : History V E} (ordered : Ordered (h ++ t :: k)) (member : u ∈ k) : t.now ≤ u.now := by
  unfold Ordered at ordered
  rw [List.map_append, List.map_cons] at ordered
  exact List.rel_of_pairwise_cons (List.pairwise_append.mp ordered).2.1 (List.mem_map_of_mem member)

/-! ## A cache keeps track of the map -/

/-- What a sweep of a kind still has to remove when its call is at this stage. -/
def Stage.pending (sweep : Sweep) : Stage V E → List (Nat × String)
  | .sweeping rest _ kind => if kind = sweep then rest else []
  | .evicting (.sweep rest _ kind) => if kind = sweep then rest else []
  | _ => []

section

variable (c : KeyedCache V E) (now : Nat) (event : Event V E)

/-- A store puts its entry into the table, whether it replaces another or not. -/
theorem table_store (call : CallId) (key : String) (ttl : Nat) (result : Except E V)
    (reply : Reply V E) : (c.store now call key ttl result reply).1.table =
      c.table.insert key ⟨result, Clock.add? now ttl, c.nextSeq⟩ := by
  cases displaced : c.table.find? key with
  | none => rw [store_of_absent c now call displaced]; rfl
  | some old => rw [store_of_present c now call displaced]; rfl

/-- A store uses up one number. -/
theorem nextSeq_store (call : CallId) (key : String) (ttl : Nat) (result : Except E V)
    (reply : Reply V E) : (c.store now call key ttl result reply).1.nextSeq = c.nextSeq + 1 := by
  cases displaced : c.table.find? key with
  | none => rw [store_of_absent c now call displaced]; rfl
  | some old => rw [store_of_present c now call displaced]; rfl

/-- Numbers are used in ascending order. -/
theorem nextSeq_le_apply : c.nextSeq ≤ (c.apply now event).1.nextSeq := by
  cases effect_apply c now event with
  | keeps _ same => omega
  | stores _ _ _ _ same => omega
  | removes _ _ _ _ same => omega

/-- After every event each key has one row. -/
theorem keyed_apply (keyed : c.table.Keyed) : (c.apply now event).1.table.Keyed := by
  cases effect_apply c now event with
  | keeps table => rwa [table]
  | stores key entry _ table => exact table ▸ Table.keyed_insert keyed key entry
  | removes key entry _ table => exact table ▸ Table.keyed_erase keyed key

/-- An entry that the table holds after an event was there before or is new. -/
theorem find?_apply {key : String} {entry : Entry V E}
    (found : (c.apply now event).1.table.find? key = some entry) :
    c.table.find? key = some entry ∨
      (entry.seq = c.nextSeq ∧ c.nextSeq < (c.apply now event).1.nextSeq) := by
  refine (held_before_or_stored c now event found).imp_right fun stored => ?_
  obtain ⟨-, fresh, more⟩ := held_of_stored c now event stored
  exact ⟨fresh, by omega⟩

/-- What a sweep has to remove it had to remove before, or it has just begun. -/
theorem pending_apply {r : KeyedCache V E × List (Notice V E)} (turn : Turn c now event r)
    {sweep : Sweep} {stage : Stage V E} (reached : r.1.stage? event.subject = some stage)
    {row : Nat × String} (member : row ∈ stage.pending sweep) :
    (∃ before, c.stage? event.subject = some before ∧ row ∈ before.pending sweep) ∨
      row ∈ c.snapshot now sweep := by
  cases turn with
  | begins | misses | queues | generates | makes | removes =>
      obtain rfl := eq_of_stage?_moveTo reached
      cases member
  | givesUp | gets | hits | removesNothing | endsSweep | replies =>
      simp [Event.subject] at reached
  | waits | ignoresResult | ignoresHook => exact .inl ⟨stage, reached, member⟩
  | stores =>
      simp only [Event.subject, stage?_store_self, Option.map_eq_some_iff] at reached
      obtain ⟨old, -, rfl⟩ := reached
      cases member
  | beginsSweep call kind =>
      obtain rfl := eq_of_stage?_moveTo reached
      simp only [Stage.pending] at member
      split at member
      · rename_i same
        exact .inr (same ▸ member)
      · cases member
  | sweeps call key entry rest count kind before
  | passes call number key rest count kind before =>
      obtain rfl := eq_of_stage?_moveTo reached
      simp only [Stage.pending] at member
      split at member
      · rename_i same
        exact .inl ⟨_, before, by simp [Stage.pending, same, member]⟩
      · cases member
  | sweepsOn call rest count kind before =>
      obtain rfl := eq_of_stage?_moveTo reached
      exact .inl ⟨_, before, member⟩

end

/-- A cache keeps track of a map: its table agrees with it, the stores are numbered alike, and a
call that purges is only going to remove what has expired. -/
structure Tracks (c : KeyedCache V E) (m : TtlMap V E) (now : Nat) : Prop where
  agrees : c.table.Agrees m now
  stores : m.stores = c.nextSeq
  keyed : c.table.Keyed
  numbered : ∀ key entry, c.table.find? key = some entry → entry.seq < c.nextSeq
  purges : ∀ call stage, c.stage? call = some stage → ∀ row ∈ stage.pending .purge,
    row.1 < c.nextSeq ∧
      ∀ entry, c.table.find? row.2 = some entry → entry.seq = row.1 → entry.isLive now = false

namespace Tracks

variable {c : KeyedCache V E} {m : TtlMap V E} {now : Nat}

/-- A new cache is tracked by an empty map. -/
theorem create (lanes now : Nat) : Tracks (create lanes : KeyedCache V E) .empty now :=
  ⟨.empty now, rfl, Table.keyed_empty, nofun, nofun⟩

/-- A cache goes on being tracked as time passes. -/
theorem later (tracks : Tracks c m now) {later : Nat} (le : now ≤ later) : Tracks c m later :=
  ⟨tracks.agrees.later le, tracks.stores, tracks.keyed, tracks.numbered,
    fun call stage at_ row member => ⟨(tracks.purges call stage at_ row member).1,
      fun entry found same => Entry.not_isLive_later le
        ((tracks.purges call stage at_ row member).2 entry found same)⟩⟩

/-- What an event does to the table is what it does to the map. -/
theorem agrees_turn (tracks : Tracks c m now) {event : Event V E}
    {r : KeyedCache V E × List (Notice V E)} (turn : Turn c now event r) :
    r.1.table.Agrees (leasesAfter m ⟨c, now, event, r.2, r.1⟩) now ∧
      (leasesAfter m ⟨c, now, event, r.2, r.1⟩).stores = r.1.nextSeq := by
  have agrees := tracks.agrees
  have stores := tracks.stores
  cases turn with
  | begins | givesUp | makes | ignoresResult | replies | sweepsOn | ignoresHook =>
      exact ⟨agrees, stores⟩
  | waits call stuck =>
      have idle : changeOf c (.resume call) = none := by
        cases stuck with
        | gone stage => simp [changeOf, stage]
        | behind _ _ stage => simp [changeOf, stage, Stage.change?]
        | generating _ _ stage => simp [changeOf, stage, Stage.change?]
        | evicting _ stage => simp [changeOf, stage, Stage.change?]
      simp only [leasesAfter, idle]
      exact ⟨agrees, stores⟩
  | gets _ _ stage | misses _ _ _ stage | queues _ _ _ stage | generates _ _ _ stage
  | endsSweep _ _ _ stage =>
      simp only [leasesAfter, changeOf, stage, Option.bind_some, Stage.change?]
      exact ⟨agrees, stores⟩
  | hits call key ttl at_ result stage looks =>
      have idle : at_.change? = none := by cases looks <;> rfl
      simp only [leasesAfter, changeOf, stage, Option.bind_some, idle]
      exact ⟨agrees, stores⟩
  | beginsSweep call sweep stage =>
      have idle : (Stage.requested sweep.request : Stage V E).change? = none := by
        cases sweep <;> rfl
      simp only [leasesAfter, changeOf, stage, Option.bind_some, idle]
      exact ⟨agrees, stores⟩
  | stores call key ttl at_ result reply stage brings =>
      have brought : at_.change? = some (.store key result ttl) := by cases brings <;> rfl
      simp only [leasesAfter, changeOf, stage, Option.bind_some, brought, table_store,
        nextSeq_store, ← stores]
      exact ⟨agrees.store key result ttl, rfl⟩
  | removes call key test at_ entry stage drops present accepted =>
      have dropped : at_.change? = some (.remove key test) := by cases drops <;> rfl
      simp only [leasesAfter, changeOf, stage, Option.bind_some, dropped]
      refine ⟨agrees.drop_erase present ?_, stores⟩
      rintro lease rfl
      exact accepted
  | removesNothing call key test at_ stage drops refused =>
      have dropped : at_.change? = some (.remove key test) := by cases drops <;> rfl
      simp only [leasesAfter, changeOf, stage, Option.bind_some, dropped]
      exact ⟨agrees.drop_refused fun lease found => refused _ found, stores⟩
  | sweeps call key entry rest count sweep stage present =>
      simp only [leasesAfter, changeOf, stage, Option.bind_some]
      cases sweep with
      | flush =>
          refine ⟨agrees.drop_erase present ?_, stores⟩
          rintro lease rfl
          exact beq_self_eq_true _
      | purge =>
          have lapsed := (tracks.purges call _ stage (entry.seq, key) (by simp [Stage.pending])).2
            entry present rfl
          exact ⟨agrees.erase_expired present lapsed, stores⟩
  | passes call number key rest count sweep stage gone =>
      simp only [leasesAfter, changeOf, stage, Option.bind_some]
      cases sweep with
      | flush =>
          exact ⟨agrees.drop_refused fun lease found =>
            beq_eq_false_iff_ne.mpr (gone _ found), stores⟩
      | purge => exact ⟨agrees, stores⟩

/-- Every event keeps the cache on the track of the map. -/
theorem apply (tracks : Tracks c m now) (event : Event V E) :
    Tracks (c.apply now event).1 (leasesAfter m (Machine.move KeyedCache.apply c now event))
      now := by
  have turn := turn_apply c now event
  obtain ⟨agrees, stores⟩ := tracks.agrees_turn turn
  have more := nextSeq_le_apply c now event
  refine ⟨agrees, stores, keyed_apply c now event tracks.keyed, fun key entry found => ?_,
    fun call stage reached row member => ?_⟩
  · rcases find?_apply c now event found with before | ⟨fresh, less⟩
    · exact Nat.lt_of_lt_of_le (tracks.numbered key entry before) more
    · exact fresh ▸ less
  · -- What is to be purged had expired before, or has just been found expired.
    obtain ⟨number, key⟩ := row
    have before : number < c.nextSeq ∧ ∀ entry, c.table.find? key = some entry →
        entry.seq = number → entry.isLive now = false := by
      have known : (∃ before, c.stage? call = some before ∧
          (number, key) ∈ before.pending .purge) ∨ (number, key) ∈ c.snapshot now .purge := by
        by_cases own : call = event.subject
        · subst own
          exact pending_apply c now event turn reached member
        · exact .inl ⟨stage, (stage?_apply_of_ne c now own) ▸ reached, member⟩
      rcases known with ⟨earlier, at_, pending⟩ | expired
      · exact tracks.purges call earlier at_ _ pending
      · have chosen : (number, key) ∈ c.table.select fun e => !e.isLive now := expired
        obtain ⟨old, held, same, lapsed⟩ := (Table.mem_select tracks.keyed).mp chosen
        refine ⟨same ▸ tracks.numbered _ _ held, fun entry found _ => ?_⟩
        rw [held] at found
        cases found
        simpa using lapsed
    refine ⟨Nat.lt_of_lt_of_le before.1 more, fun entry found same => ?_⟩
    rcases find?_apply c now event found with held | ⟨fresh, -⟩
    · exact before.2 entry held same
    · omega

end Tracks

/-- After a run in which time goes forward, the cache is on the track of the map. -/
theorem tracks_of_run (lanes : Nat) (events : List (Nat × Event V E))
    (ordered : Ordered (Machine.history apply (create lanes) events)) {now : Nat}
    (follows : Follows now (Machine.history apply (create lanes : KeyedCache V E) events)) :
    Tracks (Machine.final apply (create lanes : KeyedCache V E) events)
      (leases (Machine.history apply (create lanes) events)) now := by
  refine Machine.history_induction apply (fun past c => Ordered past →
    ∀ now, Follows now past → Tracks c (leases past) now) (fun _ now _ => .create lanes now) ?_
    (Machine.allows_true apply _ events) ordered now follows
  intro past c instant event before _ ordered now follows
  have tracks := before ordered.of_append instant ordered.follows
  rw [leases_snoc]
  have last : instant ≤ now := follows _ (List.mem_append_right past (List.mem_singleton_self _))
  exact (tracks.apply event).later last

end KeyedCache

end CachedStreams
