import Mathlib.Data.List.Nodup
import CachedStreams.Proofs.SlotCache.LastWrite

/-!
# The queue of calls to update

Calls to update that find nothing fresh stand in one queue. `SlotCache.Orderly` says that only the
first of it computes, and `orderly_apply` that this survives every event. So one computation runs at
a time (`Runs`), and a call only starts one after it has looked again in vain (`StartsComputing`).
-/

set_option autoImplicit false

namespace CachedStreams.SlotCache

variable {T E : Type}

/-! ## The queue -/

/-- Whether a call at this stage stands in the queue. -/
def Stage.isInLine : Stage T E → Bool
  | .queued => true
  | .computing => true
  | .computed _ => true
  | _ => false

/-- Whether the computation of a call at this stage runs or has just ended. -/
def Stage.computes : Stage T E → Bool
  | .computing => true
  | .computed _ => true
  | _ => false

/-- The calls that wait for the lane, after the one that holds it. -/
def queue (c : SlotCache T E) : List CallId := c.lanes.requests.map (·.1)

/-- A call is at a stage at which it stands in the queue. -/
def inLine (c : SlotCache T E) (call : CallId) : Bool := (c.stage? call).any Stage.isInLine

/-- Only the first in the queue computes. -/
structure Orderly (c : SlotCache T E) : Prop where
  lane : ∀ r ∈ c.lanes.requests, r.2 = 0
  distinct : c.queue.Nodup
  waiting : ∀ call, call ∈ c.queue ↔ c.inLine call = true
  first : ∀ call stage, c.stage? call = some stage → stage.computes = true →
    c.queue.head? = some call

/-- What can happen to a cache of one value: the name of a new call is one that no call in progress
has. -/
def Permits (c : SlotCache T E) : Event T E → Prop
  | .update call => c.stage? call = none
  | _ => True

instance (c : SlotCache T E) : ∀ event, Decidable (c.Permits event)
  | .update call => inferInstanceAs (Decidable (c.stage? call = none))
  | .get => inferInstanceAs (Decidable True)
  | .set _ => inferInstanceAs (Decidable True)
  | .clear => inferInstanceAs (Decidable True)
  | .resume _ => inferInstanceAs (Decidable True)
  | .computed _ _ => inferInstanceAs (Decidable True)
  | .abort _ => inferInstanceAs (Decidable True)

/-- A call that ends leaves the queue, and the others stay in order. -/
theorem queue_leave (c : SlotCache T E) (call : CallId) :
    (c.leave call).1.queue = c.queue.filter (· != call) := by
  simp only [queue, leave, Lanes.withdraw, List.filter_map]
  rfl

/-- The first in the queue stays first when another leaves. -/
theorem head?_filter {queue : List CallId} {first call : CallId} (head : queue.head? = some first)
    (ne : first ≠ call) : (queue.filter (· != call)).head? = some first := by
  cases queue with
  | nil => cases head
  | cons a rest =>
      obtain rfl : a = first := Option.some.inj head
      simp [ne]

namespace Orderly

variable {c d : SlotCache T E} {call : CallId}

/-- Whether the queue is in order depends on the lane and the calls alone. -/
theorem congr (orderly : Orderly c) (lanes : d.lanes = c.lanes) (calls : d.calls = c.calls) :
    Orderly d := by
  have queues : d.queue = c.queue := by simp [queue, lanes]
  have stages : ∀ other, d.stage? other = c.stage? other := fun other => by simp [stage?, calls]
  refine ⟨lanes ▸ orderly.lane, queues ▸ orderly.distinct, fun other => ?_,
    fun other stage at_ => ?_⟩
  · rw [queues, inLine, stages]
    exact orderly.waiting other
  · rw [queues]
    exact orderly.first other stage (stages other ▸ at_)

/-- The call that holds the lane is the first in the queue. -/
theorem holds_iff (orderly : Orderly c) :
    c.lanes.holds call 0 = true ↔ c.queue.head? = some call := by
  have lane := orderly.lane
  simp only [queue, Lanes.holds, Lanes.holder, beq_iff_eq] at lane ⊢
  cases requests : c.lanes.requests with
  | nil => simp
  | cons r rest =>
      rw [requests] at lane
      simp [lane r List.mem_cons_self]

/-- The first in the queue stands in the queue. -/
theorem mem_queue_of_head (head : c.queue.head? = some call) : call ∈ c.queue :=
  List.mem_of_mem_head? head

/-- A call that goes on neither enters nor leaves the queue. -/
theorem moveTo (orderly : Orderly c) (stage : Stage T E) (same : stage.isInLine = c.inLine call)
    (first : stage.computes = true → c.queue.head? = some call) :
    Orderly (c.moveTo call stage) := by
  refine ⟨orderly.lane, orderly.distinct, fun other => ?_, fun other next at_ computes => ?_⟩
  · by_cases own : other = call
    · subst own
      rw [inLine, stage?_moveTo_self, Option.any_some, same]
      exact orderly.waiting other
    · rw [inLine, stage?_moveTo_of_ne c own]
      exact orderly.waiting other
  · by_cases own : other = call
    · subst own
      rw [stage?_moveTo_self, Option.some.injEq] at at_
      exact first (at_ ▸ computes)
    · rw [stage?_moveTo_of_ne c own] at at_
      exact orderly.first other next at_ computes

/-- The queue stays in order when a call ends. -/
theorem leave (orderly : Orderly c) (call : CallId) : Orderly (c.leave call).1 := by
  refine ⟨fun r member => orderly.lane r (List.mem_filter.mp member).1, ?_, fun other => ?_,
    fun other stage at_ computes => ?_⟩
  · rw [queue_leave]
    exact orderly.distinct.filter _
  · rw [queue_leave, List.mem_filter, bne_iff_ne, orderly.waiting other]
    by_cases own : other = call
    · subst own
      simp [inLine]
    · simp [inLine, stage?_leave_of_ne c own, own]
  · have ne : other ≠ call := by
      rintro rfl
      rw [stage?_leave_self] at at_
      cases at_
    rw [stage?_leave_of_ne c ne] at at_
    rw [queue_leave]
    exact head?_filter (orderly.first other stage at_ computes) ne

/-- The queue stays in order when a call joins it. -/
theorem queues (orderly : Orderly c) (stage : c.stage? call = some .missed) :
    Orderly ({ c with lanes := c.lanes.request call 0 }.moveTo call .queued) := by
  have outside : call ∉ c.queue := by simp [orderly.waiting, inLine, stage, Stage.isInLine]
  have longer : ({ c with lanes := c.lanes.request call 0 }.moveTo call .queued).queue =
      c.queue ++ [call] := by simp [queue, SlotCache.moveTo, Lanes.request]
  refine ⟨fun r member => ?_, ?_, fun other => ?_, fun other next at_ computes => ?_⟩
  · rcases List.mem_append.mp member with before | here
    · exact orderly.lane r before
    · rw [List.mem_singleton.mp here]
  · rw [longer]
    exact List.Nodup.append orderly.distinct (List.nodup_singleton call)
      (List.disjoint_singleton.mpr outside)
  · rw [longer, List.mem_append, List.mem_singleton, orderly.waiting other, inLine, inLine]
    by_cases own : other = call
    · subst own
      simp [Stage.isInLine]
    · rw [stage?_moveTo_of_ne _ own]
      simp [own, stage?]
  · have ne : other ≠ call := by
      rintro rfl
      rw [stage?_moveTo_self, Option.some.injEq] at at_
      rw [← at_] at computes
      cases computes
    rw [stage?_moveTo_of_ne _ ne] at at_
    have head := orderly.first other next at_ computes
    rw [longer, List.head?_append, head]
    rfl

end Orderly

/-- Every event leaves the queue in order. -/
theorem orderly_apply {c : SlotCache T E} (orderly : Orderly c) (now : Nat) {event : Event T E}
    (permits : c.Permits event) : Orderly (c.apply now event).1 := by
  have turn := turn_apply c now event
  generalize c.apply now event = r at turn ⊢
  cases turn with
  | finds | waits | ignores => exact orderly
  | findsNone | sets | clears => exact orderly.congr rfl rfl
  | begins call =>
      have new : c.stage? call = none := permits
      exact orderly.moveTo _ (by simp [inLine, new, Stage.isInLine]) nofun
  | misses call stage => exact orderly.moveTo _ (by simp [inLine, stage, Stage.isInLine]) nofun
  | queues call stage => exact orderly.queues stage
  | computes call stage holds =>
      exact orderly.moveTo _ (by simp [inLine, stage, Stage.isInLine])
        fun _ => orderly.holds_iff.mp holds
  | ends call result stage =>
      exact orderly.moveTo _ (by simp [inLine, stage, Stage.isInLine])
        fun _ => orderly.first call _ stage rfl
  | givesUp call | hits call | fails call => exact orderly.leave call
  | stores call value => exact (orderly.congr rfl rfl : Orderly (c.store now value)).leave call

/-! ## Computations -/

/-- Whether an event ends the computation of a call, or gives the call up. -/
def Event.endsComputation (call : CallId) : Event T E → Bool
  | .computed name _ => name == call
  | .abort name => name == call
  | _ => false

/-- The call whose computation a notice starts. -/
def Notice.computing? : Notice T E → Option CallId
  | .compute call => some call
  | _ => none

/-- The computations that run after a move, given those that ran before it. -/
def runningAfter (before : List CallId) (t : Move (SlotCache T E) (Event T E) (Notice T E)) :
    List CallId :=
  (before.filter fun call => !t.event.endsComputation call) ++ t.notices.filterMap Notice.computing?

/-- The calls whose computations run after a history: they were started, and have neither ended nor
been given up since. -/
def running (h : History T E) : List CallId := h.foldl runningAfter []

/-- One more move changes which computations run as its event and its notices say. -/
@[simp] theorem running_snoc (h : History T E)
    (t : Move (SlotCache T E) (Event T E) (Notice T E)) :
    running (h ++ [t]) = runningAfter (running h) t := by
  simp [running]

/-- A call comes to compute in one way only. -/
inductive StartsComputing (c : SlotCache T E) (now : Nat) (event : Event T E) (call : CallId) :
    Prop where
  | mk (resumed : event = .resume call) (stage : c.stage? call = some .queued)
    (holds : c.lanes.holds call 0 = true) (stale : c.fresh now = none)

section

variable {c : SlotCache T E} {now : Nat} {event : Event T E}
  {r : SlotCache T E × List (Notice T E)} {call : CallId}

/-- The end of a call starts no computation. -/
theorem computing?_leave (c : SlotCache T E) (call : CallId) :
    (c.leave call).2.filterMap Notice.computing? = [] := by
  simp [leave, List.filterMap_map, Function.comp_def, Notice.computing?]

/-- An answer starts no computation. -/
theorem computing?_answer (c : SlotCache T E) (call : CallId) (result : Except E T) :
    (c.answer call result).2.filterMap Notice.computing? = [] := by
  have left := computing?_leave c call
  simp [answer, left, Notice.computing?]

/-- A move starts no computation, or that of the call whose step it is. -/
theorem computing?_turn (turn : Turn c now event r) :
    r.2.filterMap Notice.computing? = [] ∨
      ∃ call, r.2.filterMap Notice.computing? = [call] ∧ StartsComputing c now event call ∧
        r.1.stage? call = some .computing := by
  cases turn with
  | finds | findsNone | sets | clears | begins | waits | misses | queues | ends | ignores =>
      exact .inl rfl
  | givesUp call => exact .inl (computing?_leave c call)
  | hits call | fails call => exact .inl (computing?_answer c call _)
  | stores call value => exact .inl (computing?_answer (c.store now value) call _)
  | computes call stage holds stale =>
      exact .inr ⟨call, rfl, ⟨rfl, stage, holds, stale⟩, stage?_moveTo_self c _⟩

/-- A computation is started among some notices if one of them says so. -/
theorem mem_computing? {notices : List (Notice T E)} :
    call ∈ notices.filterMap Notice.computing? ↔ .compute call ∈ notices := by
  rw [List.mem_filterMap]
  constructor
  · rintro ⟨notice, member, started⟩
    cases notice with
    | compute name =>
        obtain rfl : name = call := Option.some.inj started
        exact member
    | _ => cases started
  · exact fun member => ⟨_, member, rfl⟩

/-- Where a computation is started, its call holds the lane and has found nothing fresh. -/
theorem starts_of_mem (turn : Turn c now event r) (member : .compute call ∈ r.2) :
    StartsComputing c now event call := by
  have started := mem_computing?.mpr member
  rcases computing?_turn turn with none_ | ⟨name, one, starts, -⟩
  · rw [none_] at started
    cases started
  · rw [one] at started
    rw [List.mem_singleton.mp started]
    exact starts

/-- The end of a computation concerns the call that it belongs to. -/
theorem subject?_of_ends (ends : event.endsComputation call = true) :
    event.subject? = some call := by
  cases event with
  | computed name | abort name => exact congrArg some (eq_of_beq ends)
  | _ => cases ends

/-- A call computes after a turn if it did before and did not end, or if it has been started. -/
theorem computing_turn (turn : Turn c now event r) (permits : c.Permits event) :
    r.1.stage? call = some .computing ↔
      c.stage? call = some .computing ∧ event.endsComputation call = false ∨
        .compute call ∈ r.2 := by
  by_cases own : event.subject? = some call
  · have quiet : ∀ (d : SlotCache T E) result, .compute call ∉ (d.answer call result).2 := by
      intro d result member
      have started := mem_computing?.mpr member
      rw [computing?_answer] at started
      cases started
    cases turn with
    | finds | findsNone | sets | clears => cases own
    | waits => simp [Event.endsComputation]
    | ignores name result idle =>
        cases own
        simp [idle]
    | begins name =>
        cases own
        have new : c.stage? call = none := permits
        simp [new]
    | givesUp name =>
        cases own
        have started := computing?_leave c call
        simp [Event.endsComputation, ← mem_computing?, started]
    | hits name value looks =>
        cases own
        have idle : c.stage? call ≠ some .computing := by
          cases looks with
          | first stage | again stage => simp [stage]
        simp [idle, quiet]
    | misses name stage | queues name stage | computes name stage =>
        cases own
        simp [stage]
    | stores name value stage =>
        cases own
        simp [stage, quiet]
    | fails name e stage =>
        cases own
        simp [stage, quiet]
    | ends name result =>
        cases own
        simp [Event.endsComputation]
  · have goesOn : event.endsComputation call = false := by
      by_contra ends
      exact own (subject?_of_ends (by simpa using ends))
    have silent : .compute call ∉ r.2 := fun member => by
      obtain ⟨rfl, -, -, -⟩ := starts_of_mem turn member
      exact own rfl
    simp [stage?_turn_of_ne turn own, goesOn, silent]

end

/-- The computations that run are those of the calls that wait for theirs, and there is at most one
of them. -/
structure Runs (h : History T E) (c : SlotCache T E) : Prop where
  orderly : Orderly c
  one : (running h).length ≤ 1
  mem_iff : ∀ call, call ∈ running h ↔ c.stage? call = some .computing

/-- After every event those computations run whose calls are computing, and at most one. -/
theorem Runs.apply {h : History T E} {c : SlotCache T E} (runs : Runs h c) (now : Nat)
    {event : Event T E} (permits : c.Permits event) :
    Runs (h ++ [Machine.move SlotCache.apply c now event]) (c.apply now event).1 := by
  have turn := turn_apply c now event
  refine ⟨orderly_apply runs.orderly now permits, ?_, fun call => ?_⟩
  · rw [running_snoc, runningAfter, List.length_append]
    rcases computing?_turn turn with none_ | ⟨call, started, starts, -⟩
    · have fewer := List.length_filter_le (fun call => !event.endsComputation call) (running h)
      have one := runs.one
      simp only [Machine.move, none_, List.length_nil]
      omega
    · -- Whoever computes is the first in the queue, and so is the call that starts.
      have nobody : running h = [] := by
        refine List.eq_nil_iff_forall_not_mem.mpr fun other member => ?_
        obtain ⟨-, stage, holds, -⟩ := starts
        have computing := (runs.mem_iff other).mp member
        have head := runs.orderly.first other _ computing rfl
        rw [runs.orderly.holds_iff.mp holds] at head
        rw [Option.some.inj head, computing] at stage
        cases stage
      simp [Machine.move, nobody, started]
  · rw [running_snoc, runningAfter, List.mem_append, List.mem_filter, Bool.not_eq_true',
      runs.mem_iff call, mem_computing?]
    exact (computing_turn turn permits).symm

end CachedStreams.SlotCache
