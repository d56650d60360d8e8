import CachedStreams.Proofs.SlotCache.Queue

/-!
# Updates that collapse into one

What becomes of those who wait in the queue depends on how the computation at its head ends. If it
succeeds, its value keeps everybody from computing until that is cleared or too old (`Landed`):
whoever comes to the head of the queue is answered at once (`SharesValue`). If it fails, or is given
up, the next in the queue stands at the head and computes in its turn, and nobody else does before
it (`RetriesNext`).
-/

set_option autoImplicit false

namespace CachedStreams.SlotCache

variable {T E : Type}

/-! ## After a success -/

/-- A call is answered in a move with the value that is fresh then. -/
def AnsweredFresh (call : CallId) (t : Move (SlotCache T E) (Event T E) (Notice T E)) : Prop :=
  ∃ value, t.before.fresh t.now = some value ∧ .answered call (.ok value) ∈ t.notices

/-- A value was stored at an instant or later, and nobody computes. -/
structure Landed (since : Nat) (c : SlotCache T E) : Prop where
  held : ∃ value instant, c.slot = some ⟨value, instant⟩ ∧ since ≤ instant
  idle : ∀ call stage, c.stage? call = some stage → stage.computes = false

/-- A call that waits in the queue still does, or has come to an end. -/
def WaitsOrEnds (call : CallId) (h : History T E) (c : SlotCache T E) : Prop :=
  c.stage? call = some .queued ∨ ∃ t ∈ h, AnsweredFresh call t ∨ t.event = .abort call

namespace Landed

variable {since : Nat} {c d : SlotCache T E} {now : Nat} {event : Event T E}
  {r : SlotCache T E × List (Notice T E)} {call : CallId}

/-- What has landed can be found until it is too old. -/
theorem exists_fresh (landed : Landed since c) (later : since ≤ now)
    (young : now < since + c.ttl) :
    ∃ value, c.fresh now = some value := by
  obtain ⟨value, instant, slot, le⟩ := landed.held
  exact ⟨value, fresh_eq_some_iff.mpr ⟨instant, slot, by omega⟩⟩

/-- What has landed stays landed when a call moves to a stage at which it does not compute. -/
theorem moveTo (landed : Landed since c) {stage : Stage T E} (idle : stage.computes = false) :
    Landed since (c.moveTo call stage) := by
  refine ⟨landed.held, fun other next at_ => ?_⟩
  by_cases own : other = call
  · subst own
    rw [stage?_moveTo_self, Option.some.injEq] at at_
    exact at_ ▸ idle
  · rw [stage?_moveTo_of_ne c own] at at_
    exact landed.idle other next at_

/-- What has landed stays landed when a call ends. -/
theorem leave (landed : Landed since c) (call : CallId) : Landed since (c.leave call).1 := by
  refine ⟨landed.held, fun other next at_ => ?_⟩
  by_cases own : other = call
  · subst own
    rw [stage?_leave_self] at at_
    cases at_
  · rw [stage?_leave_of_ne c own] at at_
    exact landed.idle other next at_

/-- As long as the value is not cleared or too old, it stays, and nobody starts to compute. -/
theorem turn (landed : Landed since c) (turn : Turn c now event r) (kept : event ≠ .clear)
    (later : since ≤ now) (young : now < since + c.ttl) :
    Landed since r.1 ∧ ∀ call, .compute call ∉ r.2 := by
  obtain ⟨value, found⟩ := landed.exists_fresh later young
  have quiet : ∀ call, .compute call ∉ r.2 := fun call member => by
    obtain ⟨-, -, -, stale⟩ := starts_of_mem turn member
    rw [found] at stale
    cases stale
  refine ⟨?_, quiet⟩
  cases turn with
  | finds | waits | ignores => exact landed
  | findsNone stale | misses _ _ stale | computes _ _ _ stale =>
      rw [found] at stale
      cases stale
  | sets value => exact ⟨⟨value, now, rfl, later⟩, landed.idle⟩
  | clears => exact absurd rfl kept
  | begins call => exact landed.moveTo rfl
  | queues call =>
      have same : Landed since { c with lanes := c.lanes.request call 0 } :=
        ⟨landed.held, landed.idle⟩
      exact same.moveTo rfl
  | givesUp call | hits call | fails call => exact landed.leave call
  | stores call value stage => cases landed.idle call _ stage
  | ends call result stage => cases landed.idle call _ stage

/-- Whoever waits goes on to wait until it is answered with what is fresh, or given up. -/
theorem waits {h : History T E} (landed : Landed since c) (later : since ≤ now)
    (young : now < since + c.ttl) (waits : WaitsOrEnds call h c) (permits : c.Permits event) :
    WaitsOrEnds call (h ++ [Machine.move SlotCache.apply c now event]) (c.apply now event).1 := by
  rcases waits with queued | ⟨t, member, ended⟩
  · have turn := turn_apply c now event
    obtain ⟨value, found⟩ := landed.exists_fresh later young
    by_cases own : event.subject? = some call
    · have here : (AnsweredFresh call (Machine.move SlotCache.apply c now event) ∨
          event = .abort call) ∨ (c.apply now event).1.stage? call = some .queued := by
        generalize same : c.apply now event = r at turn ⊢
        cases turn with
        | finds | findsNone | sets | clears => cases own
        | begins name =>
            cases own
            have new : c.stage? call = none := permits
            rw [queued] at new
            cases new
        | givesUp name =>
            cases own
            exact .inl (.inr rfl)
        | waits | ignores => exact .inr queued
        | hits name value _ fresh =>
            cases own
            refine .inl (.inl ⟨value, fresh, ?_⟩)
            simp [Machine.move, same, answer]
        | misses name stage | queues name stage | stores name _ stage | fails name _ stage
        | ends name _ stage =>
            cases own
            rw [queued] at stage
            cases stage
        | computes name _ _ stale =>
            rw [found] at stale
            cases stale
      rcases here with ended | queued
      · exact .inr ⟨_, List.mem_append_right _ (List.mem_singleton_self _), ended⟩
      · exact .inl queued
    · exact .inl ((stage?_turn_of_ne turn own).trans queued)
  · exact .inr ⟨t, List.mem_append_left _ member, ended⟩

end Landed

/-- Of those in the queue behind the one that computes, each only waits. -/
theorem Orderly.queued {c : SlotCache T E} (orderly : Orderly c) {first other : CallId}
    (head : c.queue.head? = some first) (member : other ∈ c.queue) (ne : other ≠ first) :
    c.stage? other = some .queued := by
  have waiting := (orderly.waiting other).mp member
  cases at_ : c.stage? other with
  | none => simp [inLine, at_] at waiting
  | some stage =>
      cases stage with
      | queued => rfl
      | requested | missed => simp [inLine, at_, Stage.isInLine] at waiting
      | computing | computed =>
          have foremost := orderly.first other _ at_ rfl
          rw [head] at foremost
          exact absurd (Option.some.inj foremost).symm ne

/-- Where a value has landed, the step of the one at the head of the queue is its answer. -/
theorem Landed.answers {c : SlotCache T E} {since now : Nat} {call : CallId}
    (landed : Landed since c) (orderly : Orderly c) (later : since ≤ now)
    (young : now < since + c.ttl) (head : c.queue.head? = some call) :
    AnsweredFresh call (Machine.move apply c now (.resume call)) := by
  obtain ⟨value, found⟩ := landed.exists_fresh later young
  have holds := orderly.holds_iff.mpr head
  have stage : c.calls.find? call = some .queued := by
    have waiting := (orderly.waiting call).mp (Orderly.mem_queue_of_head head)
    cases at_ : c.stage? call with
    | none => simp [inLine, at_] at waiting
    | some stage =>
        have idle := landed.idle call stage at_
        cases stage with
        | queued => exact at_
        | requested | missed => simp [inLine, at_, Stage.isInLine] at waiting
        | computing | computed => cases idle
  exact ⟨value, found, by simp [Machine.move, SlotCache.apply, resume, stage, holds, found, answer]⟩

/-- The computation of a call comes to nothing: it has failed and the call ends, or the call is
given up before it has ended, as when the computation panics. -/
def ComesToNothing (call : CallId) (t : Move (SlotCache T E) (Event T E) (Notice T E)) : Prop :=
  (t.event = .resume call ∧ ∃ e, t.before.stage? call = some (.computed (.error e))) ∨
    t.event = .abort call ∧ ∃ stage, t.before.stage? call = some stage ∧ stage.computes = true

/-- What the call at the head of the queue does when its turn comes: it computes if there is nothing
fresh, and is answered with what is fresh otherwise. -/
def LooksAgain (call : CallId) (t : Move (SlotCache T E) (Event T E) (Notice T E)) : Prop :=
  (t.before.fresh t.now = none → t.notices = [.compute call]) ∧
    ∀ value, t.before.fresh t.now = some value → .answered call (.ok value) ∈ t.notices

section

variable {c : SlotCache T E} {now : Nat} {event : Event T E} {call : CallId}

/-- A call that is answered leaves the queue, and the others stay in order. -/
theorem queue_answer (c : SlotCache T E) (call : CallId) (result : Except E T) :
    (c.answer call result).1.queue = c.queue.filter (· != call) := queue_leave c call

/-- The first in the queue looks again in its next step. -/
theorem Orderly.looksAgain (orderly : Orderly c) (head : c.queue.head? = some call)
    (stage : c.stage? call = some .queued) :
    LooksAgain call (Machine.move apply c now (.resume call)) := by
  have holds := orderly.holds_iff.mpr head
  have known : c.calls.find? call = some .queued := stage
  refine ⟨fun stale => ?_, fun value fresh => ?_⟩
  · have none_ : c.fresh now = none := stale
    simp [Machine.move, SlotCache.apply, resume, known, holds, none_]
  · have some_ : c.fresh now = some value := fresh
    simp [Machine.move, SlotCache.apply, resume, known, holds, some_, answer]

end

/-- When the computation of the first in the queue comes to nothing, the next becomes the first and
still waits. -/
theorem Orderly.next {c : SlotCache T E} (orderly : Orderly c) {now : Nat} {event : Event T E}
    {call next : CallId} {rest : List CallId}
    (fails : ComesToNothing call (Machine.move apply c now event))
    (queue : c.queue = call :: next :: rest) :
    (c.apply now event).1.queue.head? = some next ∧
      (c.apply now event).1.stage? next = some .queued := by
  have distinct := orderly.distinct
  rw [queue] at distinct
  have ne : next ≠ call := by
    rintro rfl
    simp at distinct
  have waits : c.stage? next = some .queued :=
    orderly.queued (by rw [queue]; rfl) (by simp [queue]) ne
  have left : (c.queue.filter (· != call)).head? = some next := by
    simp [queue, ne]
  rcases fails with ⟨rfl, e, stage⟩ | ⟨rfl, -⟩
  · have known : c.calls.find? call = some (.computed (.error e)) := stage
    have same : c.apply now (.resume call) = c.answer call (.error e) := by
      simp [SlotCache.apply, resume, known]
    rw [same, queue_answer, stage?_answer_of_ne c ne]
    exact ⟨left, waits⟩
  · have same : c.apply now (.abort call) = c.leave call := rfl
    rw [same, queue_leave, stage?_leave_of_ne c ne]
    exact ⟨left, waits⟩

/-- The computation of a call gave a result while it ran, and no other call of its name has begun
since. -/
def Gave (h : History T E) (call : CallId) (result : Except E T) : Prop :=
  ∃ past t future, h = past ++ t :: future ∧
    (t.event = .computed call result ∧ call ∈ running past) ∧ ∀ u ∈ future, u.event ≠ .update call

end CachedStreams.SlotCache
