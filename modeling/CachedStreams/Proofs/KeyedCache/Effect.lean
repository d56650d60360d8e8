import CachedStreams.KeyedCache.Basic
import CachedStreams.Proofs.Run

/-!
# What a move does to the stored entries

Whatever happens to a keyed cache, its table changes in one of three ways: not at all, by storing
one new entry under a key, or by removing the entry of one key. `KeyedCache.Effect` lists them with
the notices that go with each, and `KeyedCache.effect_apply` says that there is no other. Proofs
about what the cache holds start from there and never look at the stages of a call.
-/

set_option autoImplicit false

namespace CachedStreams

namespace Table

variable {V E : Type}

/-- No key has two entries. -/
def Keyed (t : Table V E) : Prop := (t.rows.map (·.1)).Nodup

/-- An empty table has one row for each of its keys. -/
theorem keyed_empty : (empty : Table V E).Keyed := List.nodup_nil

/-- After a row has been removed every key still has one row. -/
theorem keyed_erase {t : Table V E} (h : t.Keyed) (key : String) : (t.erase key).Keyed :=
  h.sublist (List.filter_sublist.map _)

/-- A key that has been removed has no row any more. -/
theorem key_not_mem_erase (t : Table V E) (key : String) :
    key ∉ (t.erase key).rows.map (·.1) := by
  simp [erase]

/-- After an entry has been stored every key still has one row. -/
theorem keyed_insert {t : Table V E} (h : t.Keyed) (key : String) (entry : Entry V E) :
    (t.insert key entry).Keyed := by
  have hk := key_not_mem_erase t key
  simp only [Keyed, insert, List.map_append, List.map_cons, List.map_nil]
  refine List.nodup_append.mpr ⟨keyed_erase h key, by simp, ?_⟩
  rintro a ha b hb rfl
  rw [List.mem_singleton.mp hb] at ha
  exact hk ha

/-- What is found for a key is one of the rows. -/
theorem mem_rows_of_find? {t : Table V E} {key : String} {entry : Entry V E}
    (h : t.find? key = some entry) : (key, entry) ∈ t.rows := by
  simp only [find?, Option.map_eq_some_iff] at h
  obtain ⟨row, hr, rfl⟩ := h
  have hk : row.1 = key := by simpa using List.find?_some hr
  rw [← hk]
  exact List.mem_of_find?_eq_some hr

/-- Where every key has one row, to be found is to be one of the rows. -/
theorem find?_eq_some_iff {t : Table V E} (h : t.Keyed) {key : String} {entry : Entry V E} :
    t.find? key = some entry ↔ (key, entry) ∈ t.rows := by
  refine ⟨mem_rows_of_find?, fun hm => ?_⟩
  obtain ⟨rows⟩ := t
  induction rows with
  | nil => simp at hm
  | cons row rest ih =>
      simp only [Keyed, List.map_cons, List.nodup_cons] at h
      rcases List.mem_cons.mp hm with rfl | hm
      · simp [find?]
      · have hne : row.1 ≠ key := by
          rintro rfl
          exact h.1 (List.mem_map.mpr ⟨_, hm, rfl⟩)
        have := ih h.2 hm
        simpa [find?, List.find?_cons, hne] using this

/-- The rows are those that are left after a removal and the one that was removed. -/
theorem perm_rows_erase {t : Table V E} (h : t.Keyed) (key : String) :
    t.rows.Perm ((t.find? key).toList.map (key, ·) ++ (t.erase key).rows) := by
  obtain ⟨rows⟩ := t
  induction rows with
  | nil => simp [find?, erase]
  | cons row rest ih =>
      simp only [Keyed, List.map_cons, List.nodup_cons] at h
      by_cases hk : row.1 = key
      · have hrest : rest.filter (·.1 != key) = rest := by
          refine List.filter_eq_self.mpr fun r hr => ?_
          simp only [bne_iff_ne, ne_eq]
          intro he
          exact h.1 (by rw [hk, ← he]; exact List.mem_map.mpr ⟨r, hr, rfl⟩)
        obtain ⟨k, e⟩ := row
        simp only at hk
        subst hk
        simp [find?, erase, hrest]
      · have hb : (row.1 == key) = false := by simpa using hk
        have := ih h.2
        simp only [find?, erase, List.find?_cons, hb, List.filter_cons, bne, Bool.not_false,
          if_true] at this ⊢
        exact (this.cons row).trans List.perm_middle.symm

/-- A new row and the rows before it are the rows after it and the one that it replaced. -/
theorem perm_rows_insert {t : Table V E} (h : t.Keyed) (key : String) (entry : Entry V E) :
    ((key, entry) :: t.rows).Perm
      ((t.insert key entry).rows ++ (t.find? key).toList.map (key, ·)) := by
  have hsplit := (perm_rows_erase h key).cons (key, entry)
  refine hsplit.trans ?_
  simp only [insert, List.append_assoc, List.singleton_append]
  exact (List.perm_append_comm.cons _).trans List.perm_middle.symm

end Table

namespace KeyedCache

variable {V E : Type}

/-- The entry that a notice reports as stored, with its key. -/
def Notice.stored? : Notice V E → Option (String × Entry V E)
  | .stored _ key entry => some (key, entry)
  | _ => none

/-- The entry that a notice passes to the eviction hook, with the key it is passed under. -/
def Notice.evicted? : Notice V E → Option (String × Entry V E)
  | .evict _ key entry => some (key, entry)
  | _ => none

/-- The entries that notices make known as stored, each with its key. -/
def storedIn (notices : List (Notice V E)) : List (String × Entry V E) :=
  notices.filterMap Notice.stored?

/-- The entries that notices make known as evicted, each with its key. -/
def evictedIn (notices : List (Notice V E)) : List (String × Entry V E) :=
  notices.filterMap Notice.evicted?

/-- An entry is stored among some notices if one of them says so. -/
theorem mem_storedIn {notices : List (Notice V E)} {key : String} {entry : Entry V E} :
    (key, entry) ∈ storedIn notices ↔ ∃ call, .stored call key entry ∈ notices := by
  simp only [storedIn, List.mem_filterMap]
  constructor
  · rintro ⟨notice, member, same⟩
    cases notice <;> simp only [Notice.stored?, Option.some.injEq, reduceCtorEq] at same
    cases same
    exact ⟨_, member⟩
  · exact fun ⟨call, member⟩ => ⟨_, member, rfl⟩

/-- An entry is handed out among some notices if one of them says so. -/
theorem mem_evictedIn {notices : List (Notice V E)} {key : String} {entry : Entry V E} :
    (key, entry) ∈ evictedIn notices ↔ ∃ call, .evict call key entry ∈ notices := by
  simp only [evictedIn, List.mem_filterMap]
  constructor
  · rintro ⟨notice, member, same⟩
    cases notice <;> simp only [Notice.evicted?, Option.some.injEq, reduceCtorEq] at same
    cases same
    exact ⟨_, member⟩
  · exact fun ⟨call, member⟩ => ⟨_, member, rfl⟩

/-- What two stretches of notices store is what they store one after the other. -/
@[simp] theorem storedIn_append (l k : List (Notice V E)) :
    storedIn (l ++ k) = storedIn l ++ storedIn k := List.filterMap_append

/-- What two stretches of notices hand out is what they hand out one after the other. -/
@[simp] theorem evictedIn_append (l k : List (Notice V E)) :
    evictedIn (l ++ k) = evictedIn l ++ evictedIn k := List.filterMap_append

/-- A notice of a store adds its entry to what is stored. -/
@[simp] theorem storedIn_stored (call : CallId) (key : String) (entry : Entry V E)
    (rest : List (Notice V E)) :
    storedIn (.stored call key entry :: rest) = (key, entry) :: storedIn rest := rfl

/-- A notice of a store hands nothing out. -/
@[simp] theorem evictedIn_stored (call : CallId) (key : String) (entry : Entry V E)
    (rest : List (Notice V E)) : evictedIn (.stored call key entry :: rest) = evictedIn rest := rfl

/-- The three ways in which a move can change what is stored, and what it makes known of that. -/
inductive Effect (c : KeyedCache V E) (r : KeyedCache V E × List (Notice V E)) : Prop where
  /-- Nothing is stored or removed. -/
  | keeps (table : r.1.table = c.table) (nextSeq : r.1.nextSeq = c.nextSeq)
    (stored : storedIn r.2 = []) (evicted : evictedIn r.2 = [])
  /-- An entry with a new number is stored; one that it displaces goes to the hook. -/
  | stores (key : String) (entry : Entry V E) (fresh : entry.seq = c.nextSeq)
    (table : r.1.table = c.table.insert key entry) (nextSeq : r.1.nextSeq = c.nextSeq + 1)
    (stored : storedIn r.2 = [(key, entry)])
    (evicted : evictedIn r.2 = (c.table.find? key).toList.map (key, ·))
  /-- The entry of a key is removed and goes to the hook. -/
  | removes (key : String) (entry : Entry V E) (present : c.table.find? key = some entry)
    (table : r.1.table = c.table.erase key) (nextSeq : r.1.nextSeq = c.nextSeq)
    (stored : storedIn r.2 = []) (evicted : evictedIn r.2 = [(key, entry)])

/-- To admit calls to their lanes stores nothing. -/
theorem storedIn_map_admitted (l : List CallId) :
    storedIn (l.map (.admitted : CallId → Notice V E)) = [] := by
  simp [storedIn, Notice.stored?, List.filterMap_map, Function.comp_def]

/-- To admit calls to their lanes hands nothing out. -/
theorem evictedIn_map_admitted (l : List CallId) :
    evictedIn (l.map (.admitted : CallId → Notice V E)) = [] := by
  simp [evictedIn, Notice.evicted?, List.filterMap_map, Function.comp_def]

/-- A call that ends leaves the table as it is. -/
theorem effect_leave (c : KeyedCache V E) (call : CallId) : Effect c (c.leave call) :=
  .keeps rfl rfl (storedIn_map_admitted _) (evictedIn_map_admitted _)

/-- An answer stores nothing. -/
theorem storedIn_answer (c : KeyedCache V E) (call : CallId) (reply : Reply V E) :
    storedIn (c.answer call reply).2 = [] := by
  simp only [answer, leave, storedIn_append, storedIn_map_admitted]
  rfl

/-- An answer hands nothing out. -/
theorem evictedIn_answer (c : KeyedCache V E) (call : CallId) (reply : Reply V E) :
    evictedIn (c.answer call reply).2 = [] := by
  simp only [answer, leave, evictedIn_append, evictedIn_map_admitted]
  rfl

/-- A call that is answered leaves the table as it is. -/
theorem effect_answer (c : KeyedCache V E) (call : CallId) (reply : Reply V E) :
    Effect c (c.answer call reply) :=
  .keeps rfl rfl (storedIn_answer c call reply) (evictedIn_answer c call reply)

/-- To record how far a call has come leaves the table as it is. -/
theorem effect_moveTo (c : KeyedCache V E) (call : CallId) (stage : Stage V E) :
    Effect c (c.moveTo call stage, []) := .keeps rfl rfl rfl rfl

/-- A store adds one entry and hands out the one that it replaces, if there is one. -/
theorem effect_store (c : KeyedCache V E) (now : Nat) (call : CallId) (key : String) (ttl : Nat)
    (result : Except E V) (reply : Reply V E) :
    Effect c (c.store now call key ttl result reply) := by
  refine .stores key ⟨result, Clock.add? now ttl, c.nextSeq⟩ rfl ?_ ?_ ?_ ?_ <;>
    cases hd : c.table.find? key <;>
    simp [store, hd, evict, moveTo, answer, leave, storedIn_map_admitted,
      evictedIn_map_admitted] <;>
    rfl

/-- A removal under a test takes out one entry at most, and hands that out. -/
theorem effect_removeWhen (c : KeyedCache V E) (call : CallId) (key : String)
    (test : Entry V E → Bool) : Effect c (c.removeWhen call key test) := by
  unfold removeWhen
  split
  · rename_i entry h
    exact .removes key entry (Option.filter_eq_some_iff.mp h).1 rfl rfl rfl rfl
  · exact effect_answer c call _

/-- A turn of a sweep takes out one entry at most, and hands that out. -/
theorem effect_sweepNext (c : KeyedCache V E) (call : CallId) (rest : List (Nat × String))
    (count : Nat) (sweep : Sweep) : Effect c (c.sweepNext call rest count sweep) := by
  unfold sweepNext
  split
  · exact effect_answer c call _
  · rename_i seq key rest
    split
    · rename_i entry h
      exact .removes key entry (Option.filter_eq_some_iff.mp h).1 rfl rfl rfl rfl
    · exact effect_moveTo c call _

/-- Whatever a request begins with stores, removes or keeps. -/
theorem effect_begin (c : KeyedCache V E) (now : Nat) (call : CallId) (request : Request V E) :
    Effect c (c.begin now call request) := by
  cases request with
  | get key => exact effect_answer c call _
  | getOrUpdate key ttl =>
      simp only [begin]
      split
      · exact effect_answer c call _
      · exact effect_moveTo c call _
  | set key ttl value => exact effect_store c now call key ttl _ _
  | remove key => exact effect_removeWhen c call key _
  | removeIf key test => exact effect_removeWhen c call key _
  | flush => exact effect_moveTo c call _
  | purge => exact effect_moveTo c call _

/-- Whatever a call does in one step stores, removes or keeps. -/
theorem effect_resume {c : KeyedCache V E} {now : Nat} {call : CallId}
    {r : KeyedCache V E × List (Notice V E)} (h : c.resume now call = some r) : Effect c r := by
  unfold resume at h
  split at h
  · cases h
  · cases h; exact effect_begin c now call _
  · cases h; exact .keeps rfl rfl rfl rfl
  · split at h
    · split at h
      · cases h; exact effect_answer c call _
      · cases h; exact .keeps rfl rfl rfl rfl
    · cases h
  · cases h
  · cases h; exact effect_store c now call _ _ _ _
  · cases h; exact effect_sweepNext c call _ _ _
  · cases h

/-- Whatever happens to the cache changes what is stored in one of the three ways. -/
theorem effect_apply (c : KeyedCache V E) (now : Nat) (event : Event V E) :
    Effect c (c.apply now event) := by
  cases event with
  | call call request => exact effect_moveTo c call _
  | resume call =>
      cases h : c.resume now call with
      | none => simpa [apply, h] using (.keeps rfl rfl rfl rfl : Effect c (c, []))
      | some r => simpa [apply, h] using effect_resume h
  | generated call result =>
      simp only [apply]
      split
      · exact effect_moveTo c call _
      · exact .keeps rfl rfl rfl rfl
  | evicted call =>
      simp only [apply]
      split
      · exact effect_answer c call _
      · exact effect_moveTo c call _
      · exact .keeps rfl rfl rfl rfl
  | abort call => exact effect_leave c call

/-! ## Entries that come and go -/

section

variable (c : KeyedCache V E) (now : Nat) (event : Event V E)

/-- What the table holds it goes on to hold, unless the entry goes to the hook. -/
theorem held_or_evicted {key : String} {entry : Entry V E}
    (held : c.table.find? key = some entry) :
    (c.apply now event).1.table.find? key = some entry ∨
      (key, entry) ∈ evictedIn (c.apply now event).2 := by
  cases effect_apply c now event with
  | keeps table => exact .inl (table ▸ held)
  | stores name new _ table _ _ evicted =>
      by_cases same : key = name
      · subst same
        exact .inr (by simp [evicted, held])
      · exact .inl (by rw [table, Table.find?_insert_of_ne _ same, held])
  | removes name old present table _ _ evicted =>
      by_cases same : key = name
      · subst same
        cases held.symm.trans present
        exact .inr (by simp [evicted])
      · exact .inl (by rw [table, Table.find?_erase_of_ne _ same, held])

/-- Only what the table holds goes to the hook. -/
theorem held_of_evicted {key : String} {entry : Entry V E}
    (evicted : (key, entry) ∈ evictedIn (c.apply now event).2) :
    c.table.find? key = some entry := by
  cases effect_apply c now event with
  | keeps _ _ _ none_ => exact absurd (none_ ▸ evicted) List.not_mem_nil
  | stores name new _ _ _ _ displaced =>
      rw [displaced, List.mem_map] at evicted
      obtain ⟨old, present, same⟩ := evicted
      cases same
      exact Option.mem_toList.mp present
  | removes name old present _ _ _ one =>
      rw [one, List.mem_singleton] at evicted
      cases evicted
      exact present

/-- What has just been stored is in the table, under a number that is new. -/
theorem held_of_stored {key : String} {entry : Entry V E}
    (stored : (key, entry) ∈ storedIn (c.apply now event).2) :
    (c.apply now event).1.table.find? key = some entry ∧ entry.seq = c.nextSeq ∧
      (c.apply now event).1.nextSeq = c.nextSeq + 1 := by
  cases effect_apply c now event with
  | keeps _ _ none_ | removes _ _ _ _ _ none_ => exact absurd (none_ ▸ stored) List.not_mem_nil
  | stores name new fresh table nextSeq one =>
      rw [one, List.mem_singleton] at stored
      cases stored
      exact ⟨by rw [table, Table.find?_insert_self], fresh, nextSeq⟩

/-- What the table holds it held before, or it has just been stored. -/
theorem held_before_or_stored {key : String} {entry : Entry V E}
    (held : (c.apply now event).1.table.find? key = some entry) :
    c.table.find? key = some entry ∨ (key, entry) ∈ storedIn (c.apply now event).2 := by
  cases effect_apply c now event with
  | keeps table => exact .inl (table ▸ held)
  | stores name new _ table _ one =>
      rw [table] at held
      by_cases same : key = name
      · subst same
        rw [Table.find?_insert_self] at held
        cases held
        exact .inr (by simp [one])
      · exact .inl (by rwa [Table.find?_insert_of_ne _ same] at held)
  | removes name old _ table =>
      rw [table] at held
      by_cases same : key = name
      · subst same
        simp at held
      · exact .inl (by rwa [Table.find?_erase_of_ne _ same] at held)

end

end KeyedCache

end CachedStreams
