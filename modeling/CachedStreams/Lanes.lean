/-!
# Lanes

Exclusive lanes with fair queues. All requests stand in one list in the order they were made; the
oldest request for a lane holds it, the others wait. Withdrawing a request, whether it holds its
lane or still waits, lets the next one in without any further bookkeeping, so a lane is never left
held by nobody while someone waits for it.
-/

set_option autoImplicit false

namespace CachedStreams

/-- Names one call in progress. -/
abbrev CallId := Nat

/-- Requests for lanes, oldest first. -/
structure Lanes where
  requests : List (CallId × Nat)
  deriving Repr, DecidableEq

namespace Lanes

/-- No request at all. -/
def empty : Lanes := ⟨[]⟩

/-- The call that holds `lane`. -/
def holder (l : Lanes) (lane : Nat) : Option CallId :=
  (l.requests.find? (·.2 == lane)).map (·.1)

/-- Whether `call` holds `lane`. -/
def holds (l : Lanes) (call : CallId) (lane : Nat) : Bool :=
  l.holder lane == some call

/-- Put `call` at the end of the queue for `lane`. -/
def request (l : Lanes) (call : CallId) (lane : Nat) : Lanes :=
  ⟨l.requests ++ [(call, lane)]⟩

/-- Take back whatever `call` asked for. -/
def withdraw (l : Lanes) (call : CallId) : Lanes :=
  ⟨l.requests.filter (·.1 != call)⟩

/-- The calls that come to hold a lane when `call` withdraws. -/
def admittedBy (l : Lanes) (call : CallId) : List CallId :=
  ((l.requests.filter (·.1 == call)).map (·.2)).filterMap fun lane =>
    if l.holds call lane then (l.withdraw call).holder lane else none

/-- Nobody holds a lane at the beginning. -/
@[simp] theorem holder_empty (lane : Nat) : empty.holder lane = none := rfl

/-- A lane that somebody holds is not taken over by a later request. -/
theorem holder_request_of_holder {l : Lanes} {lane : Nat} {owner : CallId}
    (h : l.holder lane = some owner) (call : CallId) (other : Nat) :
    (l.request call other).holder lane = some owner := by
  simp only [holder, request, Option.map_eq_some_iff] at h ⊢
  obtain ⟨r, hr, rfl⟩ := h
  exact ⟨r, by rw [List.find?_append, hr]; rfl, rfl⟩

/-- After a call withdraws it holds nothing. -/
theorem holder_withdraw_ne (l : Lanes) (call : CallId) (lane : Nat) :
    (l.withdraw call).holder lane ≠ some call := by
  intro h
  simp only [holder, withdraw, Option.map_eq_some_iff] at h
  obtain ⟨r, hr, he⟩ := h
  have hm := List.mem_of_find?_eq_some hr
  simp only [List.mem_filter, bne_iff_ne, ne_eq] at hm
  exact hm.2 he

end Lanes

end CachedStreams
