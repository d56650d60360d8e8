import CachedStreams.Proofs.KeyedCache.Collapse
import CachedStreams.Proofs.Stream.References
import CachedStreams.Proofs.Stream.Turns

/-!
# What calls to open are doing

A call to open has an errand on the buffers and a stage in the keyed cache. `OpenCall.Doing` says
which of them go together with how far the call has come. A step of one call leaves the others alone
(`apart_turn`), and what a buffer makes known only tells a call how its errand has gone
(`Doing.hear`).
-/

set_option autoImplicit false

namespace CachedStreams

/-- Whether an errand is one of a hook. -/
def Errand.isHook : Errand → Bool
  | starting _ _ => false
  | releasing _ _ => true
  | idle => true

namespace OpenCall

/-- What a call to open has as an errand, and how far it has come in the keyed cache. -/
inductive Doing (o : OpenCall) :
    Option Errand → Option (KeyedCache.Stage BufferId StreamError) → Prop where
  /-- It looks for the buffer of its key. -/
  | looks (ttl : Nat) (stage : KeyedCache.Stage BufferId StreamError)
    (fetching : o.stage = .fetching) (unused : o.unused = true)
    (waits : stage.Waits o.key ttl) : Doing o none (some stage)
  /-- It has created a buffer and waits for the verdict. -/
  | generates (ttl : Nat) (id : BufferId) (result : Option (Except StreamError Unit))
    (fetching : o.stage = .fetching) (used : o.unused = false) :
    Doing o (some (.starting id result)) (some (.generating o.key ttl))
  | brings (ttl : Nat) (result : Except StreamError BufferId) (fetching : o.stage = .fetching)
    (used : o.unused = false) : Doing o none (some (.generated o.key ttl result))
  /-- What it brought is stored, and it waits for the hook of the entry that this displaced. -/
  | displaces (e : Errand) (result : Except StreamError BufferId) (fetching : o.stage = .fetching)
    (used : o.unused = false) (hook : e.isHook = true) :
    Doing o (some e) (some (.evicting (.reply (.result result))))
  | holds (id : BufferId) (holding : o.stage = .holding id) : Doing o none none
  /-- It is about to remove the buffer that nobody uses any more. -/
  | unlinks (id : BufferId) (unlinking : o.stage = .unlinking) :
    Doing o none (some (.requested (.removeIf o.key (StreamCache.isBuffer id))))
  /-- It has removed it and waits for the hook. -/
  | unlinked (e : Errand) (unlinking : o.stage = .unlinking) (hook : e.isHook = true) :
    Doing o (some e) (some (.evicting (.reply (.removed true))))

/-- An answer that its buffer gives leaves a call to open doing what fits how far it has come. -/
theorem Doing.hear {o : OpenCall} {e : Option Errand}
    {stage : Option (KeyedCache.Stage BufferId StreamError)} (doing : o.Doing e stage)
    (id : BufferId) (result : Except StreamError Unit) :
    o.Doing (StreamCache.hear id e result) stage := by
  cases doing with
  | looks ttl stage fetching unused waits => exact .looks ttl stage fetching unused waits
  | generates ttl _ _ fetching used => exact .generates ttl id _ fetching used
  | brings ttl given fetching used => exact .brings ttl given fetching used
  | displaces e given fetching used hook =>
      cases e with
      | starting => cases hook
      | releasing => exact .displaces _ given fetching used rfl
      | idle => exact .displaces _ given fetching used rfl
  | holds id holding => exact .holds id holding
  | unlinks id unlinking => exact .unlinks id unlinking
  | unlinked e unlinking hook =>
      cases e with
      | starting => cases hook
      | releasing => exact .unlinked _ unlinking rfl
      | idle => exact .unlinked _ unlinking rfl

/-- Any answers that its buffer gives leave a call to open doing what fits how far it has come. -/
theorem Doing.foldl_hear {o : OpenCall} {e : Option Errand}
    {stage : Option (KeyedCache.Stage BufferId StreamError)} (doing : o.Doing e stage)
    (id : BufferId) (results : List (Except StreamError Unit)) :
    o.Doing (results.foldl (StreamCache.hear id) e) stage := by
  induction results generalizing e with
  | nil => exact doing
  | cons result rest ih => exact ih (doing.hear id result)

section

variable {o : OpenCall} {e : Option Errand} {at_ : KeyedCache.Stage BufferId StreamError}
  {key : String} {ttl : Nat}

/-- What a call to open looks up is the result of its key. -/
theorem Doing.looks_up (doing : o.Doing e (some at_)) (looks : at_.Looks key ttl) :
    key = o.key ∧ o.stage = .fetching ∧ o.unused = true := by
  cases doing with
  | looks _ _ fetching unused waits =>
      refine ⟨?_, fetching, unused⟩
      cases looks <;> cases waits <;> rfl
  | generates | brings | displaces | unlinks | unlinked => cases looks

/-- What a call to open stores is the result of its key, and it sets nothing. -/
theorem Doing.stores {result : Except StreamError BufferId}
    {reply : KeyedCache.Reply BufferId StreamError} (doing : o.Doing e (some at_))
    (brings : at_.Brings key ttl result reply) :
    key = o.key ∧ at_ = .generated key ttl result ∧ reply = .result result ∧
      o.stage = .fetching ∧ o.unused = false := by
  cases doing with
  | looks _ _ _ _ waits => cases brings <;> cases waits
  | brings _ _ fetching used =>
      cases brings
      exact ⟨rfl, rfl, rfl, fetching, used⟩
  | generates | displaces | unlinks | unlinked => cases brings

/-- What a call to open removes is a buffer of its key. -/
theorem Doing.removes {test : Except StreamError BufferId → Bool} (doing : o.Doing e (some at_))
    (drops : at_.Drops key test) :
    ∃ id, key = o.key ∧ test = StreamCache.isBuffer id ∧
      at_ = .requested (.removeIf key (StreamCache.isBuffer id)) ∧ o.stage = .unlinking := by
  cases doing with
  | looks _ _ _ _ waits => cases drops <;> cases waits
  | unlinks id unlinking =>
      cases drops
      exact ⟨id, rfl, rfl, rfl, unlinking⟩
  | generates | brings | displaces | unlinked => cases drops

end

end OpenCall

/-- A call that releases a buffer has nobody else answered. -/
theorem Buffer.answersTo_release_of_ne (b : Buffer) (now : Nat) {call other : CallId}
    (ne : other ≠ call) : Buffer.answersTo other (b.apply now (.release call)).2 = [] := by
  have move := Buffer.callMove_release b call
  have told : ∀ result : Except StreamError Unit,
      Buffer.answersTo other [.answered call result] = [] := by
    intro result
    simp [Ne.symm ne]
  show Buffer.answersTo other (b.release call).2 = []
  generalize b.release call = r at move ⊢
  cases move with
  | releasesNothing | releasesOne | leaves | leavesEnded => exact told _
  | leavesRunning => rfl

namespace StreamCache

/-- The call that an event concerns, if it is an event of a call. -/
def Event.subject? : Event → Option CallId
  | .open name _ _ => some name
  | .call name _ => some name
  | .resume name => some name
  | .abort name => some name
  | .buffer _ _ => none

/-! ## A step of a call leaves the others alone -/

/-- Two caches that differ in what one call is doing. -/
structure Apart (call : CallId) (c d : StreamCache) : Prop where
  opens : ∀ other, other ≠ call → d.opens.find? other = c.opens.find? other
  stages : ∀ other, other ≠ call → d.keyed.stage? other = c.keyed.stage? other
  errands : ∀ other, other ≠ call → d.errands.find? other = c.errands.find? other

section

variable {c d e : StreamCache} {now : Nat} {call : CallId}

/-- A cache does not differ from itself. -/
theorem Apart.refl (call : CallId) (c : StreamCache) : Apart call c c :=
  ⟨fun _ _ => rfl, fun _ _ => rfl, fun _ _ => rfl⟩

/-- Two caches that differ from a third only in what one call is doing differ from each other only
in that. -/
theorem Apart.trans (h : Apart call c d) (k : Apart call d e) : Apart call c e :=
  ⟨fun other ne => (k.opens other ne).trans (h.opens other ne),
    fun other ne => (k.stages other ne).trans (h.stages other ne),
    fun other ne => (k.errands other ne).trans (h.errands other ne)⟩

/-- A hook that begins changes what its own call is doing and nothing of the others. -/
theorem apart_evict (c : StreamCache) (now : Nat) (call : CallId)
    (result : Except StreamError BufferId) : Apart call c (c.evict now call result).1 := by
  cases result with
  | error e => exact ⟨fun _ _ => rfl, fun _ _ => rfl, fun _ ne => CallTable.find?_set_of_ne _ ne _⟩
  | ok id =>
      have held : Apart call c { c with errands := c.errands.set call (.releasing id false) } :=
        ⟨fun _ _ => rfl, fun _ _ => rfl, fun _ ne => CallTable.find?_set_of_ne _ ne _⟩
      refine held.trans ?_
      simp only [StreamCache.evict]
      generalize ({ c with errands := c.errands.set call (.releasing id false) } : StreamCache) = d
      cases hb : d.buffers[id]? with
      | none =>
          simp only [applyBuffer, hb]
          exact .refl call d
      | some b =>
          have m := moved_applyBuffer d now hb (.release call)
          exact ⟨fun _ _ => by rw [m.opens], fun _ _ => by rw [m.keyed], fun _ ne =>
            m.errand_of_unanswered (Buffer.answersTo_release_of_ne b now ne)⟩

/-- What a call does with its answer changes nothing of the others. -/
theorem apart_reaction {reply : KeyedCache.Reply BufferId StreamError}
    {r : StreamCache × List Notice} (reacts : Reaction c now call reply r) : Apart call c r.1 := by
  cases reacts with
  | passesOn | ignores => exact .refl call c
  | finds => exact ⟨fun _ ne => CallTable.find?_set_of_ne _ ne _, fun _ _ => rfl, fun _ _ => rfl⟩
  | fails | endsUsed =>
      exact ⟨fun _ ne => CallTable.find?_erase_of_ne _ ne, fun _ _ => rfl, fun _ _ => rfl⟩
  | retries =>
      exact ⟨fun _ ne => CallTable.find?_set_of_ne _ ne _,
        fun _ ne => KeyedCache.stage?_moveTo_of_ne _ ne _, fun _ _ => rfl⟩

/-- An event of a call leaves every other call alone. -/
theorem apart_turn {event : Event} {r : StreamCache × List Notice} (turn : Turn c now event r)
    (subject : event.subject? = some call) : Apart call c r.1 := by
  have answered : ∀ (k : KeyedCache BufferId StreamError) reply,
      (∀ other, other ≠ call → k.stage? other = c.keyed.stage? other) →
        Apart call c { c with keyed := (k.answer call reply).1 } := fun k reply same =>
    ⟨fun _ _ => rfl,
      fun other ne => (KeyedCache.stage?_answer_of_ne k ne reply).trans (same other ne),
      fun _ _ => rfl⟩
  have moved : ∀ (k : KeyedCache BufferId StreamError) stage,
      (∀ other, other ≠ call → k.stage? other = c.keyed.stage? other) →
        Apart call c { c with keyed := k.moveTo call stage } := fun k stage same =>
    ⟨fun _ _ => rfl,
      fun other ne => (KeyedCache.stage?_moveTo_of_ne k ne stage).trans (same other ne),
      fun _ _ => rfl⟩
  cases turn with
  | opens name key transform =>
      cases subject
      exact ⟨fun _ ne => CallTable.find?_set_of_ne _ ne _,
        fun _ ne => KeyedCache.stage?_moveTo_of_ne _ ne _, fun _ _ => rfl⟩
  | begins name request =>
      cases subject
      exact moved _ _ fun _ _ => rfl
  | givesUp name =>
      cases subject
      exact ⟨fun _ ne => CallTable.find?_erase_of_ne _ ne,
        fun _ ne => KeyedCache.stage?_leave_of_ne _ ne,
        fun _ ne => CallTable.find?_erase_of_ne _ ne⟩
  | stirs => cases subject
  | waits => exact .refl call c
  | learns name | sweepsOn name =>
      cases subject
      exact ⟨fun _ _ => rfl, fun _ ne => KeyedCache.stage?_moveTo_of_ne _ ne _,
        fun _ ne => CallTable.find?_erase_of_ne _ ne⟩
  | dropsResult name | dropsHook name =>
      cases subject
      exact ⟨fun _ _ => rfl, fun _ _ => rfl, fun _ ne => CallTable.find?_erase_of_ne _ ne⟩
  | replies name e reply r ready _ _ _ reacts =>
      cases subject
      have reacted := apart_reaction reacts
      refine Apart.trans ?_ reacted
      exact ⟨fun _ _ => rfl, fun _ ne => KeyedCache.stage?_answer_of_ne _ ne reply,
        fun _ ne => CallTable.find?_erase_of_ne _ ne⟩
  | registers name =>
      cases subject
      exact ⟨fun _ ne => CallTable.find?_erase_of_ne _ ne, fun _ _ => rfl, fun _ _ => rfl⟩
  | refuses name =>
      cases subject
      exact ⟨fun _ ne => CallTable.find?_set_of_ne _ ne _,
        fun _ ne => KeyedCache.stage?_moveTo_of_ne _ ne _, fun _ _ => rfl⟩
  | gets name _ _ _ _ _ reacts | hits name _ _ _ _ _ _ _ _ _ _ reacts
  | removesNothing name _ _ _ _ _ _ _ _ _ reacts | endsSweep name _ _ _ _ _ _ reacts =>
      cases subject
      have reacted := apart_reaction reacts
      exact (answered c.keyed _ fun _ _ => rfl).trans reacted
  | stores name _ _ _ _ _ _ _ _ _ _ _ reacts =>
      cases subject
      have reacted := apart_reaction reacts
      refine Apart.trans ?_ reacted
      exact answered (c.keyed.put _ _) _ fun _ _ => rfl
  | misses name | queues name | generates name | beginsSweep name | passes name =>
      cases subject
      exact moved _ _ fun _ _ => rfl
  | startsNothing name key ttl =>
      cases subject
      exact moved _ _ fun _ ne => KeyedCache.stage?_moveTo_of_ne _ ne _
  | starts name =>
      cases subject
      exact ⟨fun _ ne => CallTable.find?_set_of_ne _ ne _,
        fun _ ne => KeyedCache.stage?_moveTo_of_ne _ ne _,
        fun _ ne => CallTable.find?_set_of_ne _ ne _⟩
  | displaces name | removes name | sweeps name =>
      cases subject
      refine Apart.trans ?_ (apart_evict _ now call _)
      exact moved _ _ fun _ _ => rfl

end

/-- An event that does not concern a call leaves it alone, except that a buffer may answer it. -/
theorem apart_apply (c : StreamCache) (now : Nat) {event : Event} {call : CallId}
    (other : event.subject? ≠ some call) :
    (c.apply now event).1.opens.find? call = c.opens.find? call ∧
      (c.apply now event).1.keyed.stage? call = c.keyed.stage? call ∧
      ∃ id results, (c.apply now event).1.errands.find? call =
        List.foldl (hear id) (c.errands.find? call) results := by
  cases subject : event.subject? with
  | some name =>
      have ne : call ≠ name := fun same => other (same ▸ subject)
      have apart := apart_turn (turn_apply c now event) subject
      exact ⟨apart.opens call ne, apart.stages call ne, 0, [], apart.errands call ne⟩
  | none =>
      cases event with
      | buffer id inner =>
          cases hb : c.buffers[id]? with
          | none =>
              have same : c.apply now (.buffer id inner) = (c, []) := by
                simp [StreamCache.apply, applyBuffer, hb]
              rw [same]
              exact ⟨rfl, rfl, 0, [], rfl⟩
          | some b =>
              have m := moved_applyBuffer c now hb inner
              exact ⟨congrArg (·.find? call) m.opens, congrArg (·.stage? call) m.keyed, id, _,
                m.errands call⟩
      | _ => cases subject

/-! ## Hooks and permits -/

section

variable {c : StreamCache} {now : Nat} {call : CallId}

/-- The start of a hook leaves the calls to open where they are. -/
theorem opens_evict (c : StreamCache) (now : Nat) (call : CallId)
    (result : Except StreamError BufferId) : (c.evict now call result).1.opens = c.opens := by
  cases result with
  | error e => rfl
  | ok id =>
      simp only [StreamCache.evict, applyBuffer]
      split
      · rfl
      · rw [relay_fst]

/-- A call to open does what fits how far it has come while the hook of a displaced entry runs. -/
theorem doing_evict {k : KeyedCache BufferId StreamError} {result : Except StreamError BufferId}
    {stage : KeyedCache.Stage BufferId StreamError} {o : OpenCall}
    (doing : ∀ e : Errand, e.isHook = true → o.Doing (some e) (some stage)) :
    o.Doing ((StreamCache.evict { c with keyed := k.moveTo call stage } now call result).1
        |>.errands.find? call)
      ((StreamCache.evict { c with keyed := k.moveTo call stage } now call result).1
        |>.keyed.stage? call) := by
  have stays : (StreamCache.evict { c with keyed := k.moveTo call stage } now call
      result).1.keyed.stage? call = some stage := by
    rw [keyed_evict]
    exact KeyedCache.stage?_moveTo_self k stage
  rw [stays]
  cases result with
  | error e =>
      simp only [StreamCache.evict, CallTable.find?_set_self]
      exact doing .idle rfl
  | ok id =>
      simp only [StreamCache.evict]
      generalize hd : ({ c with
        keyed := k.moveTo call stage
        errands := c.errands.set call (.releasing id false) } : StreamCache) = d
      have released : d.errands.find? call = some (.releasing id false) := by
        rw [← hd]
        exact CallTable.find?_set_self _ _ _
      have hook := doing (.releasing id false) rfl
      rw [← released] at hook
      cases hb : d.buffers[id]? with
      | none =>
          simp only [applyBuffer, hb]
          exact hook
      | some b =>
          rw [(moved_applyBuffer d now hb (.release call)).errands]
          exact hook.foldl_hear id _

/-- A call may only begin under a name that is free. -/
theorem isFree_of_permits {request : KeyedCache.Request BufferId StreamError}
    (permits : c.Permits (.call call request)) : c.IsFree call := by
  cases request with
  | remove | flush | purge => exact permits
  | get | getOrUpdate | set | removeIf => exact permits.elim

end

/-- Every call to open does what fits how far it has come. -/
def Opens (c : StreamCache) : Prop :=
  ∀ call o, c.opens.find? call = some o →
    o.Doing (c.errands.find? call) (c.keyed.stage? call)

/-- No call to open is in progress in a new cache. -/
theorem opens_create (lanes ttl : Nat) (options : BufferOptions) :
    Opens (create lanes ttl options) := by
  intro call o found
  cases found

end StreamCache

end CachedStreams
