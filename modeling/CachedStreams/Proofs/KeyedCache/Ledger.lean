import Mathlib.Data.List.Nodup
import CachedStreams.Proofs.KeyedCache.Effect

/-!
# Every stored entry is accounted for

The books of a keyed cache balance after every run, whatever calls were made, given up or broken
off on the way: what has been stored is what the table holds together with what has been passed to
the eviction hook. Entries are told apart by their numbers, which are given out in the order of
storing, so the balance says of each entry that it is either still held, under its own key, or has
been passed to the hook exactly once.

`Ledger` is the balance, and `ledger_step` says that every move keeps it.
-/

set_option autoImplicit false

namespace CachedStreams.KeyedCache

open scoped List

variable {V E : Type}

/-- The books after a run: `stored` and `evicted` are what was stored and what was passed to the
hook on the way, with keys and in order. -/
structure Ledger (stored evicted : List (String × Entry V E)) (c : KeyedCache V E) : Prop where
  keyed : c.table.Keyed
  /-- The numbers of the stored entries count up from zero. -/
  numbered : stored.map (·.2.seq) = List.range c.nextSeq
  /-- What was stored is held or has been passed to the hook. -/
  balance : stored.Perm (c.table.rows ++ evicted)

/-- A new cache has stored and handed out nothing. -/
theorem ledger_create (lanes : Nat) : Ledger [] [] (create lanes : KeyedCache V E) :=
  ⟨Table.keyed_empty, rfl, .refl _⟩

/-- A store keeps the books: the new entry is entered, and what it replaces goes to the entries that
were handed out. -/
theorem ledger_stores {stored evicted : List (String × Entry V E)} {c c' : KeyedCache V E}
    (h : Ledger stored evicted c) (key : String) (entry : Entry V E)
    (fresh : entry.seq = c.nextSeq) (table : c'.table = c.table.insert key entry)
    (nextSeq : c'.nextSeq = c.nextSeq + 1) :
    Ledger (stored ++ [(key, entry)]) (evicted ++ (c.table.find? key).toList.map (key, ·)) c' := by
  refine ⟨table ▸ Table.keyed_insert h.keyed key entry, ?_, ?_⟩
  · rw [nextSeq, List.range_succ, ← h.numbered, List.map_append, List.map_singleton, fresh]
  · have hrows := Table.perm_rows_insert h.keyed key entry
    rw [table]
    calc stored ++ [(key, entry)]
        _ ~ (c.table.rows ++ evicted) ++ [(key, entry)] := h.balance.append_right _
        _ ~ ((key, entry) :: c.table.rows) ++ evicted := List.perm_append_singleton _ _
        _ ~ ((c.table.insert key entry).rows ++ (c.table.find? key).toList.map (key, ·)) ++
              evicted := hrows.append_right _
        _ ~ (c.table.insert key entry).rows ++
              (evicted ++ (c.table.find? key).toList.map (key, ·)) := by
          rw [List.append_assoc]
          exact List.perm_append_comm.append_left _

/-- A removal keeps the books: what it takes out of the table goes to the entries that were handed
out. -/
theorem ledger_removes {stored evicted : List (String × Entry V E)} {c c' : KeyedCache V E}
    (h : Ledger stored evicted c) (key : String) (entry : Entry V E)
    (present : c.table.find? key = some entry) (table : c'.table = c.table.erase key)
    (nextSeq : c'.nextSeq = c.nextSeq) : Ledger stored (evicted ++ [(key, entry)]) c' := by
  refine ⟨table ▸ Table.keyed_erase h.keyed key, by rw [nextSeq, h.numbered], ?_⟩
  have hrows := Table.perm_rows_erase h.keyed key
  rw [present] at hrows
  simp only [Option.toList_some, List.map_singleton, List.singleton_append] at hrows
  rw [table]
  calc stored
      _ ~ c.table.rows ++ evicted := h.balance
      _ ~ ((key, entry) :: (c.table.erase key).rows) ++ evicted := hrows.append_right _
      _ ~ (c.table.erase key).rows ++ (evicted ++ [(key, entry)]) := by
        rw [← List.append_assoc]
        exact (List.perm_append_singleton _ _).symm

/-- Every move of the cache keeps the books balanced. -/
theorem ledger_step {stored evicted : List (String × Entry V E)} {c : KeyedCache V E}
    (h : Ledger stored evicted c) (now : Nat) (event : Event V E) :
    Ledger (stored ++ storedIn (c.apply now event).2) (evicted ++ evictedIn (c.apply now event).2)
      (c.apply now event).1 := by
  cases effect_apply c now event with
  | keeps table nextSeq hs he =>
      rw [hs, he, List.append_nil, List.append_nil]
      exact ⟨table ▸ h.keyed, nextSeq ▸ h.numbered, table ▸ h.balance⟩
  | stores key entry fresh table nextSeq hs he =>
      rw [hs, he]
      exact ledger_stores h key entry fresh table nextSeq
  | removes key entry present table nextSeq hs he =>
      rw [hs, he, List.append_nil]
      exact ledger_removes h key entry present table nextSeq

/-- In every run of a new cache the books are right: what was stored is held or was handed out. -/
theorem ledger_of_run (lanes : Nat) (events : List (Nat × Event V E)) :
    Ledger (storedIn (Machine.noticesOf (Machine.history apply (create lanes) events)))
      (evictedIn (Machine.noticesOf (Machine.history apply (create lanes) events)))
      (Machine.final apply (create lanes : KeyedCache V E) events) := by
  have step : ∀ (past : List (Move (KeyedCache V E) (Event V E) (Notice V E))) c now event,
      Ledger (storedIn (Machine.noticesOf past)) (evictedIn (Machine.noticesOf past)) c → True →
        Ledger (storedIn (Machine.noticesOf (past ++ [Machine.move apply c now event])))
          (evictedIn (Machine.noticesOf (past ++ [Machine.move apply c now event])))
          (c.apply now event).1 := by
    intro past c now event h _
    simpa [Machine.move] using ledger_step h now event
  exact Machine.history_induction apply (fun past c =>
    Ledger (storedIn (Machine.noticesOf past)) (evictedIn (Machine.noticesOf past)) c)
    (ledger_create lanes) step (Machine.allows_true _ _ _)

/-- Where numbers are not used twice, an entry is the only one of its number. -/
theorem filter_seq_eq_singleton {l : List (String × Entry V E)} {p : String × Entry V E}
    (h : (l.map (·.2.seq)).Nodup) (hp : p ∈ l) : l.filter (·.2.seq == p.2.seq) = [p] := by
  induction l with
  | nil => simp at hp
  | cons q rest ih =>
      simp only [List.map_cons, List.nodup_cons] at h
      rcases List.mem_cons.mp hp with rfl | hp
      · have hrest : rest.filter (·.2.seq == p.2.seq) = [] := by
          refine List.filter_eq_nil_iff.mpr fun r hr he => h.1 ?_
          exact List.mem_map.mpr ⟨r, hr, by simpa using he⟩
        simp [hrest]
      · have hne : q.2.seq ≠ p.2.seq := fun he => h.1 (List.mem_map.mpr ⟨p, hp, he.symm⟩)
        simp [hne, ih h.2 hp]

namespace Ledger

variable {stored evicted : List (String × Entry V E)} {c : KeyedCache V E}

/-- No two stores have the same number. -/
theorem nodup_stored (h : Ledger stored evicted c) : (stored.map (·.2.seq)).Nodup := by
  rw [h.numbered]
  exact List.nodup_range

/-- No number occurs twice among what is held and what was handed out. -/
theorem nodup_seq (h : Ledger stored evicted c) :
    ((c.table.rows ++ evicted).map (·.2.seq)).Nodup :=
  (h.balance.map _).nodup_iff.mp h.nodup_stored

/-- What is held has another number than what was handed out. -/
theorem seq_ne (h : Ledger stored evicted c) {p q : String × Entry V E} (hp : p ∈ c.table.rows)
    (hq : q ∈ evicted) : q.2.seq ≠ p.2.seq := by
  have hn := h.nodup_seq
  rw [List.map_append] at hn
  intro he
  exact (List.nodup_append.mp hn).2.2 _ (List.mem_map_of_mem hp) _ (List.mem_map_of_mem hq) he.symm

/-- Two entries that are held are the same if their numbers are. -/
theorem eq_of_seq_eq (h : Ledger stored evicted c) {p q : String × Entry V E}
    (hp : p ∈ c.table.rows) (hq : q ∈ c.table.rows) (he : q.2.seq = p.2.seq) : q = p := by
  have hn := h.nodup_seq
  rw [List.map_append] at hn
  exact List.inj_on_of_nodup_map (List.nodup_append.mp hn).1 hq hp he

end Ledger

/-- Whatever happens to a cache, an entry that was ever stored is either still held, under the key
it was stored with and no other, and was never passed to the eviction hook, or it is held no longer
and was passed to the hook exactly once, with the key and the result it was stored with. Nothing
else is held or was passed to the hook, and no two stores have the same number. -/
theorem held_or_evicted_once (lanes : Nat) (events : List (Nat × Event V E)) :
    let c := Machine.final apply (create lanes) events
    let notices := Machine.noticesOf (Machine.history apply (create lanes) events)
    (∀ p ∈ storedIn notices,
      (c.table.find? p.1 = some p.2 ∧
          (∀ key entry, c.table.find? key = some entry → entry.seq = p.2.seq → key = p.1) ∧
          ∀ q ∈ evictedIn notices, q.2.seq ≠ p.2.seq) ∨
        ((∀ key entry, c.table.find? key = some entry → entry.seq ≠ p.2.seq) ∧
          (evictedIn notices).filter (·.2.seq == p.2.seq) = [p])) ∧
      (∀ q ∈ evictedIn notices, q ∈ storedIn notices) ∧
      (∀ key entry, c.table.find? key = some entry → (key, entry) ∈ storedIn notices) ∧
      ((storedIn notices).map (·.2.seq)).Nodup := by
  intro c notices
  have h : Ledger (storedIn notices) (evictedIn notices) c := ledger_of_run lanes events
  refine ⟨fun p hp => ?_, fun q hq => ?_, fun key entry hf => ?_, h.nodup_stored⟩
  · rcases List.mem_append.mp (h.balance.mem_iff.mp hp) with held | gone
    · refine .inl ⟨(Table.find?_eq_some_iff h.keyed).mpr held, ?_, fun q hq => h.seq_ne held hq⟩
      intro key entry hf he
      exact congrArg Prod.fst (h.eq_of_seq_eq held (Table.mem_rows_of_find? hf) he)
    · refine .inr ⟨fun key entry hf he => ?_, ?_⟩
      · exact h.seq_ne (Table.mem_rows_of_find? hf) gone he.symm
      · have hn := h.nodup_seq
        rw [List.map_append] at hn
        exact filter_seq_eq_singleton (List.nodup_append.mp hn).2.1 gone
  · exact h.balance.mem_iff.mpr (List.mem_append_right _ hq)
  · exact h.balance.mem_iff.mpr (List.mem_append_left _ (Table.mem_rows_of_find? hf))

end CachedStreams.KeyedCache
