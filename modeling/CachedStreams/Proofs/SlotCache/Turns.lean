import CachedStreams.Proofs.Run
import CachedStreams.SlotCache

/-!
# Every turn of a cache of one value

`SlotCache.Turn` lists what an event can do to a cache of one value, each with how far the call has
come and with what decides between them: whether the call holds the lane, and whether the value is
fresh. `SlotCache.turn_apply` says that there is nothing else.
-/

set_option autoImplicit false

namespace CachedStreams.SlotCache

variable {T E : Type}

/-- The call that an event concerns. -/
def Event.subject? : Event T E → Option CallId
  | .update name => some name
  | .resume name => some name
  | .computed name _ => some name
  | .abort name => some name
  | _ => none

/-- How far a call has come, if it is in progress. -/
def stage? (c : SlotCache T E) (call : CallId) : Option (Stage T E) := c.calls.find? call

/-- Record how far a call has come. -/
def moveTo (c : SlotCache T E) (call : CallId) (stage : Stage T E) : SlotCache T E :=
  { c with calls := c.calls.set call stage }

/-- A call is about to look for a value: at the beginning, or again once it holds the lane. -/
inductive Looks (c : SlotCache T E) (call : CallId) : Prop where
  | first (stage : c.stage? call = some .requested)
  | again (stage : c.stage? call = some .queued) (holds : c.lanes.holds call 0 = true)

/-- A call cannot take a step by itself. -/
inductive Stuck (c : SlotCache T E) (call : CallId) : Prop where
  | gone (stage : c.stage? call = none)
  | behind (stage : c.stage? call = some .queued) (waits : c.lanes.holds call 0 = false)
  | computing (stage : c.stage? call = some .computing)

/-- What an event can do to a cache of one value. -/
inductive Turn (c : SlotCache T E) (now : Nat) :
    Event T E → SlotCache T E × List (Notice T E) → Prop where
  | finds (value : T) (fresh : c.fresh now = some value) :
    Turn c now .get (c, [.found (some value)])
  /-- Nothing fresh is found; what is stale is dropped. -/
  | findsNone (stale : c.fresh now = none) :
    Turn c now .get ({ c with slot := none }, [.found none])
  | sets (value : T) : Turn c now (.set value) (c.store now value, [])
  | clears : Turn c now .clear ({ c with slot := none }, [])
  | begins (call : CallId) : Turn c now (.update call) (c.moveTo call .requested, [])
  | givesUp (call : CallId) : Turn c now (.abort call) (c.leave call)
  | waits (call : CallId) (stuck : c.Stuck call) : Turn c now (.resume call) (c, [])
  | hits (call : CallId) (value : T) (looks : c.Looks call) (fresh : c.fresh now = some value) :
    Turn c now (.resume call) (c.answer call (.ok value))
  | misses (call : CallId) (stage : c.stage? call = some .requested)
    (stale : c.fresh now = none) : Turn c now (.resume call) (c.moveTo call .missed, [])
  | queues (call : CallId) (stage : c.stage? call = some .missed) :
    Turn c now (.resume call)
      ({ c with lanes := c.lanes.request call 0 }.moveTo call .queued, [])
  | computes (call : CallId) (stage : c.stage? call = some .queued)
    (holds : c.lanes.holds call 0 = true) (stale : c.fresh now = none) :
    Turn c now (.resume call) (c.moveTo call .computing, [.compute call])
  | stores (call : CallId) (value : T) (stage : c.stage? call = some (.computed (.ok value))) :
    Turn c now (.resume call) ((c.store now value).answer call (.ok value))
  | fails (call : CallId) (e : E) (stage : c.stage? call = some (.computed (.error e))) :
    Turn c now (.resume call) (c.answer call (.error e))
  | ends (call : CallId) (result : Except E T) (stage : c.stage? call = some .computing) :
    Turn c now (.computed call result) (c.moveTo call (.computed result), [])
  | ignores (call : CallId) (result : Except E T) (idle : c.stage? call ≠ some .computing) :
    Turn c now (.computed call result) (c, [])

/-- A step of a call is one of the turns, or the call has to wait. -/
theorem turn_resume (c : SlotCache T E) (now : Nat) (call : CallId) :
    Turn c now (.resume call) ((c.resume now call).getD (c, [])) := by
  unfold resume
  split
  · rename_i stage
    exact .waits call (.gone stage)
  · rename_i stage
    split
    · rename_i value fresh
      exact .hits call value (.first stage) fresh
    · rename_i stale
      exact .misses call stage stale
  · rename_i stage
    exact .queues call stage
  · rename_i stage
    split
    · rename_i holds
      split
      · rename_i value fresh
        exact .hits call value (.again stage holds) fresh
      · rename_i stale
        exact .computes call stage holds stale
    · rename_i waits
      exact .waits call (.behind stage (by simpa using waits))
  · rename_i stage
    exact .waits call (.computing stage)
  · rename_i value stage
    exact .stores call value stage
  · rename_i e stage
    exact .fails call e stage

/-- Whatever happens to a cache of one value is one of these turns. -/
theorem turn_apply (c : SlotCache T E) (now : Nat) (event : Event T E) :
    Turn c now event (c.apply now event) := by
  cases event with
  | get =>
      simp only [apply, get]
      split
      · rename_i value fresh
        exact .finds value fresh
      · rename_i stale
        exact .findsNone stale
  | set value => exact .sets value
  | clear => exact .clears
  | update call => exact .begins call
  | resume call => exact turn_resume c now call
  | computed call result =>
      simp only [apply]
      split
      · rename_i stage
        exact .ends call result stage
      · rename_i idle
        exact .ignores call result idle
  | abort call => exact .givesUp call

section

variable (c : SlotCache T E) {call other : CallId}

/-- A call is at the stage that was recorded for it. -/
@[simp] theorem stage?_moveTo_self (stage : Stage T E) :
    (c.moveTo call stage).stage? call = some stage := CallTable.find?_set_self c.calls call stage

/-- What is recorded for a call does not concern any other. -/
theorem stage?_moveTo_of_ne (ne : other ≠ call) (stage : Stage T E) :
    (c.moveTo call stage).stage? other = c.stage? other :=
  CallTable.find?_set_of_ne c.calls ne stage

/-- A call that has ended is at no stage. -/
@[simp] theorem stage?_leave_self : (c.leave call).1.stage? call = none :=
  CallTable.find?_erase_self c.calls call

/-- The end of a call does not concern any other. -/
theorem stage?_leave_of_ne (ne : other ≠ call) : (c.leave call).1.stage? other = c.stage? other :=
  CallTable.find?_erase_of_ne c.calls ne

/-- A call that has been answered is at no stage. -/
@[simp] theorem stage?_answer_self (result : Except E T) :
    (c.answer call result).1.stage? call = none := stage?_leave_self c

/-- The answer of a call does not concern any other. -/
theorem stage?_answer_of_ne (ne : other ≠ call) (result : Except E T) :
    (c.answer call result).1.stage? other = c.stage? other := stage?_leave_of_ne c ne

end

/-- An event leaves every call but its subject at its stage. -/
theorem stage?_turn_of_ne {c : SlotCache T E} {now : Nat} {event : Event T E}
    {r : SlotCache T E × List (Notice T E)} (turn : Turn c now event r) {other : CallId}
    (ne : event.subject? ≠ some other) : r.1.stage? other = c.stage? other := by
  have apart : ∀ call : CallId, event.subject? = some call → other ≠ call := by
    rintro call subject rfl
    exact ne subject
  cases turn with
  | finds | findsNone | sets | clears | waits | ignores => rfl
  | begins call | misses call | computes call | ends call =>
      exact stage?_moveTo_of_ne c (apart call rfl) _
  | queues call => exact stage?_moveTo_of_ne _ (apart call rfl) _
  | givesUp call => exact stage?_leave_of_ne c (apart call rfl)
  | hits call | fails call => exact stage?_answer_of_ne c (apart call rfl) _
  | stores call value => exact stage?_answer_of_ne (c.store now value) (apart call rfl) _

/-- The moves of a run of a cache of one value. -/
abbrev History (T E : Type) := List (Move (SlotCache T E) (Event T E) (Notice T E))

/-- A notice is an answer to the call that an event concerns. -/
theorem subject?_of_answered {c : SlotCache T E} {now : Nat} {event : Event T E}
    {r : SlotCache T E × List (Notice T E)} (turn : Turn c now event r) {call : CallId}
    {result : Except E T} (answered : .answered call result ∈ r.2) :
    event = .resume call ∧ r.1.stage? call = none := by
  have told : ∀ (d : SlotCache T E) (name : CallId) (given : Except E T),
      .answered call result ∈ (d.answer name given).2 → name = call := by
    intro d name given member
    have same : call = name ∧ result = given := by simpa [answer, leave] using member
    exact same.1.symm
  cases turn with
  | finds | findsNone | computes => simp at answered
  | sets | clears | begins | waits | misses | queues | ends | ignores => cases answered
  | givesUp => simp [leave] at answered
  | hits name value =>
      obtain rfl := told c name _ answered
      exact ⟨rfl, stage?_answer_self c _⟩
  | stores name value =>
      obtain rfl := told (c.store now value) name _ answered
      exact ⟨rfl, stage?_answer_self _ _⟩
  | fails name e =>
      obtain rfl := told c name _ answered
      exact ⟨rfl, stage?_answer_self c _⟩

end CachedStreams.SlotCache
