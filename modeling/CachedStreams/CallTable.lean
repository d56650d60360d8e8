import CachedStreams.Lanes

/-!
# Calls in progress

A table from call names to what each call is doing. A call that is not in the table is not in
progress: it has not begun, has been answered, or was given up.
-/

set_option autoImplicit false

namespace CachedStreams

/-- What each call in progress is doing. -/
structure CallTable (α : Type) where
  rows : List (CallId × α)

namespace CallTable

variable {α : Type}

/-- No call is in progress. -/
def empty : CallTable α := ⟨[]⟩

/-- What `call` is doing, if it is in progress. -/
def find? (t : CallTable α) (call : CallId) : Option α :=
  (t.rows.find? (·.1 == call)).map (·.2)

/-- Forget `call`. -/
def erase (t : CallTable α) (call : CallId) : CallTable α :=
  ⟨t.rows.filter (·.1 != call)⟩

/-- Record what `call` is doing now. -/
def set (t : CallTable α) (call : CallId) (a : α) : CallTable α :=
  ⟨(call, a) :: (t.erase call).rows⟩

/-- No call is in progress at the beginning. -/
@[simp] theorem find?_empty (call : CallId) : (empty : CallTable α).find? call = none := rfl

/-- A call that has been removed is not found any more. -/
@[simp] theorem find?_erase_self (t : CallTable α) (call : CallId) :
    (t.erase call).find? call = none := by
  simp [find?, erase, List.find?_filter]

/-- To remove a call leaves every other as it is. -/
theorem find?_erase_of_ne (t : CallTable α) {call other : CallId} (h : other ≠ call) :
    (t.erase call).find? other = t.find? other := by
  simp only [find?, erase, List.find?_filter]
  congr 1
  apply congrArg (fun p => List.find? p t.rows)
  funext r
  by_cases hr : r.1 = other
  · subst hr; simp [h]
  · simp [hr]

/-- What was recorded last for a call is what is found. -/
@[simp] theorem find?_set_self (t : CallTable α) (call : CallId) (a : α) :
    (t.set call a).find? call = some a := by
  simp [find?, set]

/-- To record something for a call leaves every other as it is. -/
theorem find?_set_of_ne (t : CallTable α) {call other : CallId} (h : other ≠ call) (a : α) :
    (t.set call a).find? other = t.find? other := by
  rw [← find?_erase_of_ne t h]
  simp [find?, set, Ne.symm h]

end CallTable

end CachedStreams
