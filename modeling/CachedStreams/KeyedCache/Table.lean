import CachedStreams.Time

/-!
# Stored results

The table behind a keyed cache: at most one entry for each key, in the order in which they were
stored. An entry holds a result, a value or a failure alike, the instant it expires, and its number
in the sequence of all stores. An expired entry stays in the table until something removes it, but
a lookup does not see it.
-/

set_option autoImplicit false

namespace CachedStreams

/-- A stored result. -/
structure Entry (V E : Type) where
  result : Except E V
  /-- When the entry expires; `none` means never. -/
  expiresAt : Option Nat
  /-- The entry's number in the sequence of all stores. -/
  seq : Nat

/-- Whether an entry has not expired yet. -/
def Entry.isLive {V E : Type} (e : Entry V E) (now : Nat) : Bool :=
  match e.expiresAt with
  | none => true
  | some instant => now < instant

/-- Entries by key, in the order in which they were stored. -/
structure Table (V E : Type) where
  rows : List (String × Entry V E)

namespace Table

variable {V E : Type}

/-- A table without entries. -/
def empty : Table V E := ⟨[]⟩

/-- The number of entries, expired ones included. -/
def size (t : Table V E) : Nat := t.rows.length

/-- The entry stored under a key. -/
def find? (t : Table V E) (key : String) : Option (Entry V E) :=
  (t.rows.find? (·.1 == key)).map (·.2)

/-- Remove the entry stored under a key. -/
def erase (t : Table V E) (key : String) : Table V E :=
  ⟨t.rows.filter (·.1 != key)⟩

/-- Store an entry under a key, in place of one that is there. -/
def insert (t : Table V E) (key : String) (entry : Entry V E) : Table V E :=
  ⟨(t.erase key).rows ++ [(key, entry)]⟩

/-- The result stored under a key, if it has not expired. -/
def lookup (t : Table V E) (now : Nat) (key : String) : Option (Except E V) :=
  ((t.find? key).filter (·.isLive now)).map (·.result)

/-- Number and key of the entries that pass a test, in the order in which they were stored. -/
def select (t : Table V E) (test : Entry V E → Bool) : List (Nat × String) :=
  (t.rows.filter fun row => test row.2).map fun row => (row.2.seq, row.1)

/-- The live entries, and then the expired ones. -/
def liveThenExpired (t : Table V E) (now : Nat) : List (Nat × String) :=
  t.select (·.isLive now) ++ t.select fun e => !e.isLive now

/-- The expired entries. -/
def expired (t : Table V E) (now : Nat) : List (Nat × String) :=
  t.select fun e => !e.isLive now

/-- An empty table holds nothing for any key. -/
@[simp] theorem find?_empty (key : String) : (empty : Table V E).find? key = none := rfl

/-- An entry that has been removed is not found any more. -/
@[simp] theorem find?_erase_self (t : Table V E) (key : String) :
    (t.erase key).find? key = none := by
  simp [find?, erase, List.find?_filter]

/-- To remove an entry leaves those of other keys as they are. -/
theorem find?_erase_of_ne (t : Table V E) {key other : String} (h : other ≠ key) :
    (t.erase key).find? other = t.find? other := by
  simp only [find?, erase, List.find?_filter]
  congr 1
  apply congrArg (fun p => List.find? p t.rows)
  funext row
  by_cases hr : row.1 = other
  · subst hr; simp [h]
  · simp [hr]

/-- The entry that was stored last for a key is the one that is found. -/
@[simp] theorem find?_insert_self (t : Table V E) (key : String) (entry : Entry V E) :
    (t.insert key entry).find? key = some entry := by
  have h : List.find? (fun x => x.1 == key) (t.erase key).rows = none := by
    simpa [find?] using find?_erase_self t key
  simp [find?, insert, List.find?_append, h]

/-- To store an entry leaves those of other keys as they are. -/
theorem find?_insert_of_ne (t : Table V E) {key other : String} (h : other ≠ key)
    (entry : Entry V E) : (t.insert key entry).find? other = t.find? other := by
  rw [← find?_erase_of_ne t h]
  simp [find?, insert, List.find?_append, Ne.symm h]

end Table

end CachedStreams
