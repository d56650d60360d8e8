import CachedStreams.Proofs.KeyedCache.Steps

/-!
# Every turn of a keyed cache

`KeyedCache.Turn` lists what an event can do to a keyed cache, each with the stage that its call is
at and the look at the table that decides between them. `KeyedCache.turn_apply` says that there is
nothing else, so that proofs about runs need not open the steps again.

An event concerns one call, its subject. `stage?_apply_of_ne` says that it leaves the others at
their stages, and `subject?_of_mem` that it speaks of no other, except to admit one to a lane.
-/

set_option autoImplicit false

namespace CachedStreams.KeyedCache

variable {V E : Type}

/-- The call that an event concerns. -/
def Event.subject : Event V E → CallId
  | .call name _ => name
  | .resume name => name
  | .generated name _ => name
  | .evicted name => name
  | .abort name => name

/-- What a call asked for that carries out a sweep. -/
def Sweep.request : Sweep → Request V E
  | flush => .flush
  | purge => .purge

/-- The entries that a sweep which begins now sets out to remove. -/
def snapshot (c : KeyedCache V E) (now : Nat) : Sweep → List (Nat × String)
  | .flush => c.table.liveThenExpired now
  | .purge => c.table.expired now

/-- How far a call has come, if it is in progress. -/
def stage? (c : KeyedCache V E) (call : CallId) : Option (Stage V E) := c.calls.find? call

/-- Whether a call at this stage is about to look a result up: at the beginning, or again once it
holds the lane. -/
inductive Stage.Looks (key : String) (ttl : Nat) : Stage V E → Prop where
  | first : Looks key ttl (.requested (.getOrUpdate key ttl))
  | again : Looks key ttl (.queued key ttl)

/-- What a call at this stage is about to store, and its answer after that. -/
inductive Stage.Brings (key : String) (ttl : Nat) : Except E V → Reply V E → Stage V E → Prop where
  | given (value : V) : Brings key ttl (.ok value) .stored (.requested (.set key ttl value))
  | made (result : Except E V) :
    Brings key ttl result (.result result) (.generated key ttl result)

/-- Which result under a key a call at this stage is about to remove. -/
inductive Stage.Drops (key : String) : (Except E V → Bool) → Stage V E → Prop where
  | any : Drops key (fun _ => true) (.requested (.remove key))
  | accepted (test : Except E V → Bool) : Drops key test (.requested (.removeIf key test))

/-- Whether a call at this stage cannot take a step by itself. -/
inductive Stuck (c : KeyedCache V E) (call : CallId) : Prop where
  | gone (stage : c.stage? call = none)
  | behind (key : String) (ttl : Nat) (stage : c.stage? call = some (.queued key ttl))
    (waits : c.lanes.holds call (c.laneOf key) = false)
  | generating (key : String) (ttl : Nat) (stage : c.stage? call = some (.generating key ttl))
  | evicting (next : Next V E) (stage : c.stage? call = some (.evicting next))

/-! ## The turns -/

/-- What an event can do to a cache. -/
inductive Turn (c : KeyedCache V E) (now : Nat) :
    Event V E → KeyedCache V E × List (Notice V E) → Prop where
  | begins (call : CallId) (request : Request V E) :
    Turn c now (.call call request) (c.moveTo call (.requested request), [])
  | givesUp (call : CallId) : Turn c now (.abort call) (c.leave call)
  | waits (call : CallId) (stuck : c.Stuck call) : Turn c now (.resume call) (c, [])
  | gets (call : CallId) (key : String) (stage : c.stage? call = some (.requested (.get key))) :
    Turn c now (.resume call) (c.answer call (.found (c.table.lookup now key)))
  | hits (call : CallId) (key : String) (ttl : Nat) (at_ : Stage V E) (result : Except E V)
    (stage : c.stage? call = some at_) (looks : at_.Looks key ttl)
    (found : c.table.lookup now key = some result) :
    Turn c now (.resume call) (c.answer call (.result result))
  | misses (call : CallId) (key : String) (ttl : Nat)
    (stage : c.stage? call = some (.requested (.getOrUpdate key ttl)))
    (absent : c.table.lookup now key = none) :
    Turn c now (.resume call) (c.moveTo call (.missed key ttl), [])
  | queues (call : CallId) (key : String) (ttl : Nat)
    (stage : c.stage? call = some (.missed key ttl)) :
    Turn c now (.resume call)
      ({ c with lanes := c.lanes.request call (c.laneOf key) }.moveTo call (.queued key ttl), [])
  | generates (call : CallId) (key : String) (ttl : Nat)
    (stage : c.stage? call = some (.queued key ttl))
    (holds : c.lanes.holds call (c.laneOf key) = true)
    (absent : c.table.lookup now key = none) :
    Turn c now (.resume call) (c.moveTo call (.generating key ttl), [.generate call key])
  | stores (call : CallId) (key : String) (ttl : Nat) (at_ : Stage V E) (result : Except E V)
    (reply : Reply V E) (stage : c.stage? call = some at_)
    (brings : at_.Brings key ttl result reply) :
    Turn c now (.resume call) (c.store now call key ttl result reply)
  | removes (call : CallId) (key : String) (test : Except E V → Bool) (at_ : Stage V E)
    (entry : Entry V E) (stage : c.stage? call = some at_) (drops : at_.Drops key test)
    (present : c.table.find? key = some entry) (accepted : test entry.result = true) :
    Turn c now (.resume call)
      ({ c with table := c.table.erase key }.evict call key entry (.reply (.removed true)))
  | removesNothing (call : CallId) (key : String) (test : Except E V → Bool) (at_ : Stage V E)
    (stage : c.stage? call = some at_) (drops : at_.Drops key test)
    (refused : ∀ entry, c.table.find? key = some entry → test entry.result = false) :
    Turn c now (.resume call) (c.answer call (.removed false))
  | beginsSweep (call : CallId) (sweep : Sweep)
    (stage : c.stage? call = some (.requested sweep.request)) :
    Turn c now (.resume call) (c.moveTo call (.sweeping (c.snapshot now sweep) 0 sweep), [])
  | sweeps (call : CallId) (key : String) (entry : Entry V E) (rest : List (Nat × String))
    (count : Nat) (sweep : Sweep)
    (stage : c.stage? call = some (.sweeping ((entry.seq, key) :: rest) count sweep))
    (present : c.table.find? key = some entry) :
    Turn c now (.resume call)
      ({ c with table := c.table.erase key }.evict call key entry (.sweep rest (count + 1) sweep))
  /-- The entry of the snapshot has been removed or replaced. -/
  | passes (call : CallId) (number : Nat) (key : String) (rest : List (Nat × String)) (count : Nat)
    (sweep : Sweep) (stage : c.stage? call = some (.sweeping ((number, key) :: rest) count sweep))
    (gone : ∀ entry, c.table.find? key = some entry → entry.seq ≠ number) :
    Turn c now (.resume call) (c.moveTo call (.sweeping rest count sweep), [])
  | endsSweep (call : CallId) (count : Nat) (sweep : Sweep)
    (stage : c.stage? call = some (.sweeping [] count sweep)) :
    Turn c now (.resume call) (c.answer call (sweep.reply count))
  | makes (call : CallId) (key : String) (ttl : Nat) (result : Except E V)
    (stage : c.stage? call = some (.generating key ttl)) :
    Turn c now (.generated call result) (c.moveTo call (.generated key ttl result), [])
  | ignoresResult (call : CallId) (result : Except E V)
    (idle : ∀ key ttl, c.stage? call ≠ some (.generating key ttl)) :
    Turn c now (.generated call result) (c, [])
  | replies (call : CallId) (reply : Reply V E)
    (stage : c.stage? call = some (.evicting (.reply reply))) :
    Turn c now (.evicted call) (c.answer call reply)
  | sweepsOn (call : CallId) (rest : List (Nat × String)) (count : Nat) (sweep : Sweep)
    (stage : c.stage? call = some (.evicting (.sweep rest count sweep))) :
    Turn c now (.evicted call) (c.moveTo call (.sweeping rest count sweep), [])
  | ignoresHook (call : CallId) (idle : ∀ next, c.stage? call ≠ some (.evicting next)) :
    Turn c now (.evicted call) (c, [])

section

variable (c : KeyedCache V E) (now : Nat) (call : CallId)

/-- A call that is to drop an entry drops it if it is there and passes the test. -/
theorem turn_removeWhen {key : String} {test : Except E V → Bool} {at_ : Stage V E}
    (stage : c.stage? call = some at_) (drops : at_.Drops key test) :
    Turn c now (.resume call) (c.removeWhen call key fun entry => test entry.result) := by
  unfold removeWhen
  split
  · rename_i entry found
    obtain ⟨present, accepted⟩ := Option.filter_eq_some_iff.mp found
    exact .removes call key test at_ entry stage drops present accepted
  · rename_i none_
    refine .removesNothing call key test at_ stage drops fun entry present => ?_
    simpa [present] using none_

/-- A request begins with one of the turns. -/
theorem turn_begin {request : Request V E} (stage : c.stage? call = some (.requested request)) :
    Turn c now (.resume call) (c.begin now call request) := by
  cases request with
  | get key => exact .gets call key stage
  | getOrUpdate key ttl =>
      simp only [begin]
      split
      · rename_i result found
        exact .hits call key ttl _ result stage .first found
      · rename_i absent
        exact .misses call key ttl stage absent
  | set key ttl value => exact .stores call key ttl _ _ _ stage (.given value)
  | remove key => exact turn_removeWhen c now call stage .any
  | removeIf key test => exact turn_removeWhen c now call stage (.accepted test)
  | flush => exact .beginsSweep call .flush stage
  | purge => exact .beginsSweep call .purge stage

/-- A sweep goes on with one of the turns. -/
theorem turn_sweepNext {rest : List (Nat × String)} {count : Nat} {sweep : Sweep}
    (stage : c.stage? call = some (.sweeping rest count sweep)) :
    Turn c now (.resume call) (c.sweepNext call rest count sweep) := by
  unfold sweepNext
  split
  · exact .endsSweep call count sweep stage
  · rename_i number key rest
    split
    · rename_i entry found
      obtain ⟨present, same⟩ := Option.filter_eq_some_iff.mp found
      rw [← eq_of_beq same] at stage
      exact .sweeps call key entry rest count sweep stage present
    · rename_i none_
      refine .passes call number key rest count sweep stage fun entry present => ?_
      simpa [present] using none_

/-- A step of a call is one of the turns, or the call has to wait. -/
theorem turn_resume : Turn c now (.resume call) ((c.resume now call).getD (c, [])) := by
  unfold resume
  split
  · rename_i stage
    exact .waits call (.gone stage)
  · rename_i request stage
    exact turn_begin c now call stage
  · rename_i key ttl stage
    exact .queues call key ttl stage
  · rename_i key ttl stage
    split
    · rename_i holds
      split
      · rename_i result found
        exact .hits call key ttl _ result stage .again found
      · rename_i absent
        exact .generates call key ttl stage holds absent
    · rename_i waits
      exact .waits call (.behind key ttl stage (by simpa using waits))
  · rename_i key ttl stage
    exact .waits call (.generating key ttl stage)
  · rename_i key ttl result stage
    exact .stores call key ttl _ result _ stage (.made result)
  · rename_i rest count sweep stage
    exact turn_sweepNext c now call stage
  · rename_i next stage
    exact .waits call (.evicting next stage)

/-- A call that cannot take a step has a reason to wait. -/
theorem stuck_of_resume_eq_none {c : KeyedCache V E} {now : Nat} {call : CallId}
    (waits : c.resume now call = none) : c.Stuck call := by
  unfold resume at waits
  split at waits
  · rename_i stage
    exact .gone stage
  · cases waits
  · cases waits
  · rename_i key ttl stage
    split at waits
    · split at waits <;> cases waits
    · rename_i free
      exact .behind key ttl stage (by simpa using free)
  · rename_i key ttl stage
    exact .generating key ttl stage
  · cases waits
  · cases waits
  · rename_i next stage
    exact .evicting next stage

/-- Whatever happens to a cache is one of these turns. -/
theorem turn_apply (event : Event V E) : Turn c now event (c.apply now event) := by
  cases event with
  | call call request => exact .begins call request
  | resume call => exact turn_resume c now call
  | generated call result =>
      simp only [apply]
      split
      · rename_i key ttl stage
        exact .makes call key ttl result stage
      · rename_i idle
        exact .ignoresResult call result idle
  | evicted call =>
      simp only [apply]
      split
      · rename_i reply stage
        exact .replies call reply stage
      · rename_i rest count sweep stage
        exact .sweepsOn call rest count sweep stage
      · rename_i notReply notSweep
        refine .ignoresHook call fun next stage => ?_
        cases next with
        | reply reply => exact notReply reply stage
        | sweep rest count sweep => exact notSweep rest count sweep stage
  | abort call => exact .givesUp call

end

/-! ## Stages after a turn -/

section

variable (c : KeyedCache V E) {call other : CallId}

/-- A call is at the stage that was recorded for it. -/
@[simp] theorem stage?_moveTo_self (stage : Stage V E) :
    (c.moveTo call stage).stage? call = some stage :=
  CallTable.find?_set_self c.calls call stage

/-- A call is at no other stage than the one that was recorded for it. -/
theorem eq_of_stage?_moveTo {c : KeyedCache V E} {stage next : Stage V E}
    (reached : (c.moveTo call next).stage? call = some stage) : next = stage :=
  Option.some.inj ((stage?_moveTo_self c next).symm.trans reached)

/-- What is recorded for a call does not concern any other. -/
theorem stage?_moveTo_of_ne (ne : other ≠ call) (stage : Stage V E) :
    (c.moveTo call stage).stage? other = c.stage? other :=
  CallTable.find?_set_of_ne c.calls ne stage

/-- A call that has ended is at no stage. -/
@[simp] theorem stage?_leave_self : (c.leave call).1.stage? call = none :=
  CallTable.find?_erase_self c.calls call

/-- The end of a call does not concern any other. -/
theorem stage?_leave_of_ne (ne : other ≠ call) : (c.leave call).1.stage? other = c.stage? other :=
  CallTable.find?_erase_of_ne c.calls ne

/-- A call that has been answered is at no stage. -/
@[simp] theorem stage?_answer_self (reply : Reply V E) :
    (c.answer call reply).1.stage? call = none :=
  stage?_leave_self c

/-- The answer of a call does not concern any other. -/
theorem stage?_answer_of_ne (ne : other ≠ call) (reply : Reply V E) :
    (c.answer call reply).1.stage? other = c.stage? other :=
  stage?_leave_of_ne c ne

/-- A call that stores a result is answered, unless it waits for the hook of an entry that this
displaces. -/
theorem stage?_store_self (now : Nat) (key : String) (ttl : Nat) (result : Except E V)
    (reply : Reply V E) :
    (c.store now call key ttl result reply).1.stage? call =
      (c.table.find? key).map fun _ => .evicting (.reply reply) := by
  cases displaced : c.table.find? key with
  | none =>
      rw [store_of_absent c now call displaced]
      exact stage?_answer_self _ reply
  | some old =>
      rw [store_of_present c now call displaced]
      exact stage?_moveTo_self _ _

/-- What a call stores does not concern how far any other has come. -/
theorem stage?_store_of_ne (ne : other ≠ call) (now : Nat) (key : String) (ttl : Nat)
    (result : Except E V) (reply : Reply V E) :
    (c.store now call key ttl result reply).1.stage? other = c.stage? other := by
  cases displaced : c.table.find? key with
  | none =>
      rw [store_of_absent c now call displaced]
      exact stage?_answer_of_ne _ ne reply
  | some old =>
      rw [store_of_present c now call displaced]
      exact stage?_moveTo_of_ne _ ne _

end

/-- An event leaves every call but its subject at its stage. -/
theorem stage?_apply_of_ne (c : KeyedCache V E) (now : Nat) {event : Event V E} {other : CallId}
    (ne : other ≠ event.subject) : (c.apply now event).1.stage? other = c.stage? other := by
  have turn := turn_apply c now event
  generalize c.apply now event = r at turn ⊢
  cases turn with
  | begins | misses | queues | generates | beginsSweep | passes | makes | sweepsOn =>
      exact stage?_moveTo_of_ne _ ne _
  | removes | sweeps => exact stage?_moveTo_of_ne _ ne _
  | givesUp => exact stage?_leave_of_ne c ne
  | gets | hits | removesNothing | endsSweep | replies => exact stage?_answer_of_ne c ne _
  | stores => exact stage?_store_of_ne c ne ..
  | waits | ignoresResult | ignoresHook => rfl

/-! ## Steps of a call that asks for a result -/

section

variable (c : KeyedCache V E) (now : Nat) {call : CallId} {key : String} {ttl : Nat}

/-- A call that finds a live result at the beginning answers with it. -/
theorem apply_resume_of_found {result : Except E V}
    (stage : c.stage? call = some (.requested (.getOrUpdate key ttl)))
    (found : c.table.lookup now key = some result) :
    c.apply now (.resume call) = c.answer call (.result result) := by
  have known : c.calls.find? call = some (.requested (.getOrUpdate key ttl)) := stage
  simp [apply, resume, known, begin, found]

/-- A call that finds nothing live at the beginning is about to queue. -/
theorem apply_resume_of_absent
    (stage : c.stage? call = some (.requested (.getOrUpdate key ttl)))
    (absent : c.table.lookup now key = none) :
    c.apply now (.resume call) = (c.moveTo call (.missed key ttl), []) := by
  have known : c.calls.find? call = some (.requested (.getOrUpdate key ttl)) := stage
  simp [apply, resume, known, begin, absent]

/-- A call that has found nothing queues for the lane of its key. -/
theorem apply_resume_of_missed (stage : c.stage? call = some (.missed key ttl)) :
    c.apply now (.resume call) = (({ c with lanes := c.lanes.request call (c.laneOf key) } :
      KeyedCache V E).moveTo call (.queued key ttl), []) := by
  have known : c.calls.find? call = some (.missed key ttl) := stage
  simp [apply, resume, known]

/-- A call that holds its lane and finds nothing live starts its generator. -/
theorem apply_resume_of_queued (stage : c.stage? call = some (.queued key ttl))
    (holds : c.lanes.holds call (c.laneOf key) = true) (absent : c.table.lookup now key = none) :
    c.apply now (.resume call) = (c.moveTo call (.generating key ttl), [.generate call key]) := by
  have known : c.calls.find? call = some (.queued key ttl) := stage
  simp [apply, resume, known, holds, absent]

/-- A call that holds its lane and finds a live result answers with it. -/
theorem apply_resume_of_held {result : Except E V} (stage : c.stage? call = some (.queued key ttl))
    (holds : c.lanes.holds call (c.laneOf key) = true)
    (found : c.table.lookup now key = some result) :
    c.apply now (.resume call) = c.answer call (.result result) := by
  have known : c.calls.find? call = some (.queued key ttl) := stage
  simp [apply, resume, known, holds, found]

/-- Nothing comes of a step of a call that is not in progress. -/
theorem apply_resume_of_gone (gone : c.stage? call = none) :
    c.apply now (.resume call) = (c, []) := by
  have known : c.calls.find? call = none := gone
  simp [apply, resume, known]

/-- The end of a generator gives its call the result. -/
theorem apply_generated_of_generating (result : Except E V)
    (stage : c.stage? call = some (.generating key ttl)) :
    c.apply now (.generated call result) = (c.moveTo call (.generated key ttl result), []) := by
  have known : c.calls.find? call = some (.generating key ttl) := stage
  simp [apply, known]

end

/-! ## Notices and answers -/

/-- The call in whose name a notice speaks; a call is admitted to a lane by what others do. -/
def Notice.subject? : Notice V E → Option CallId
  | .generate call _ => some call
  | .stored call _ _ => some call
  | .evict call _ _ => some call
  | .admitted _ => none
  | .answered call _ => some call

/-- The notices of an answer: lanes pass on, and then the answer itself. -/
theorem mem_answer {c : KeyedCache V E} {call : CallId} {reply : Reply V E} {notice : Notice V E} :
    notice ∈ (c.answer call reply).2 ↔
      (∃ other ∈ c.lanes.admittedBy call, notice = .admitted other) ∨
        notice = .answered call reply := by
  simp [answer, leave, eq_comm]

/-- A store makes known the new entry, the one that it replaces, and otherwise the answer. -/
theorem mem_store {c : KeyedCache V E} {now : Nat} {call : CallId} {key : String} {ttl : Nat}
    {result : Except E V} {reply : Reply V E} {notice : Notice V E} :
    notice ∈ (c.store now call key ttl result reply).2 ↔
      notice = .stored call key ⟨result, Clock.add? now ttl, c.nextSeq⟩ ∨
        (∃ old, c.table.find? key = some old ∧ notice = .evict call key old) ∨
        c.table.find? key = none ∧ notice ∈ (c.answer call reply).2 := by
  cases displaced : c.table.find? key with
  | none =>
      rw [store_of_absent c now call displaced]
      simp [mem_answer, put]
  | some old =>
      rw [store_of_present c now call displaced]
      simp

/-- Where a call is answered, no other is spoken of. -/
theorem subject?_of_mem_answer {c : KeyedCache V E} {call : CallId} {reply : Reply V E}
    {notice : Notice V E} (member : notice ∈ (c.answer call reply).2) {other : CallId}
    (speaks : notice.subject? = some other) : other = call := by
  rcases mem_answer.mp member with ⟨admitted, -, rfl⟩ | rfl
  · cases speaks
  · exact (Option.some.inj speaks).symm

/-- Every notice of an event speaks in the name of its subject. -/
theorem subject?_of_mem (c : KeyedCache V E) (now : Nat) {event : Event V E}
    {notice : Notice V E} (member : notice ∈ (c.apply now event).2) {call : CallId}
    (speaks : notice.subject? = some call) : call = event.subject := by
  have turn := turn_apply c now event
  generalize c.apply now event = r at turn member
  cases turn with
  | begins | misses | queues | beginsSweep | passes | makes | sweepsOn => cases member
  | waits | ignoresResult | ignoresHook => cases member
  | generates | removes | sweeps =>
      obtain rfl := List.mem_singleton.mp member
      exact (Option.some.inj speaks).symm
  | givesUp =>
      obtain ⟨admitted, -, rfl⟩ := List.mem_map.mp member
      cases speaks
  | gets | hits | removesNothing | endsSweep | replies =>
      exact subject?_of_mem_answer member speaks
  | stores =>
      rcases mem_store.mp member with rfl | ⟨old, -, rfl⟩ | ⟨-, member⟩
      · exact (Option.some.inj speaks).symm
      · exact (Option.some.inj speaks).symm
      · exact subject?_of_mem_answer member speaks

/-- How a call comes by its answer. -/
inductive Answering (c : KeyedCache V E) (now : Nat) (call : CallId) : Reply V E → Prop where
  | gets (key : String) (stage : c.stage? call = some (.requested (.get key))) :
    Answering c now call (.found (c.table.lookup now key))
  | hits (key : String) (ttl : Nat) (at_ : Stage V E) (result : Except E V)
    (stage : c.stage? call = some at_) (looks : at_.Looks key ttl)
    (found : c.table.lookup now key = some result) : Answering c now call (.result result)
  | stores (key : String) (ttl : Nat) (at_ : Stage V E) (result : Except E V) (reply : Reply V E)
    (stage : c.stage? call = some at_) (brings : at_.Brings key ttl result reply) :
    Answering c now call reply
  | removesNothing (key : String) (test : Except E V → Bool) (at_ : Stage V E)
    (stage : c.stage? call = some at_) (drops : at_.Drops key test)
    (refused : ∀ entry, c.table.find? key = some entry → test entry.result = false) :
    Answering c now call (.removed false)
  | endsSweep (count : Nat) (sweep : Sweep)
    (stage : c.stage? call = some (.sweeping [] count sweep)) :
    Answering c now call (sweep.reply count)
  | replies (reply : Reply V E) (stage : c.stage? call = some (.evicting (.reply reply))) :
    Answering c now call reply

/-- Whoever is answered was about to be: with what it had found, stored or handed out. -/
theorem answering_of_mem {c : KeyedCache V E} {now : Nat} {event : Event V E} {call : CallId}
    {reply : Reply V E} (member : .answered call reply ∈ (c.apply now event).2) :
    Answering c now call reply := by
  have only : ∀ {d : KeyedCache V E} {name : CallId} {given : Reply V E},
      Notice.answered call reply ∈ (d.answer name given).2 → call = name ∧ reply = given := by
    intro d name given member
    simpa [mem_answer] using member
  have turn := turn_apply c now event
  generalize c.apply now event = r at turn member
  cases turn with
  | begins | misses | queues | beginsSweep | passes | makes | sweepsOn => cases member
  | waits | ignoresResult | ignoresHook => cases member
  | generates | removes | sweeps => simp [evict] at member
  | givesUp => simp [leave] at member
  | gets name key stage =>
      obtain ⟨rfl, rfl⟩ := only member
      exact .gets key stage
  | hits name key ttl at_ result stage looks found =>
      obtain ⟨rfl, rfl⟩ := only member
      exact .hits key ttl at_ result stage looks found
  | stores name key ttl at_ result given stage brings =>
      rcases mem_store.mp member with stored | ⟨old, -, evicted⟩ | ⟨-, member⟩
      · cases stored
      · cases evicted
      · obtain ⟨rfl, rfl⟩ := only member
        exact .stores key ttl at_ result _ stage brings
  | removesNothing name key test at_ stage drops refused =>
      obtain ⟨rfl, rfl⟩ := only member
      exact .removesNothing key test at_ stage drops refused
  | endsSweep name count sweep stage =>
      obtain ⟨rfl, rfl⟩ := only member
      exact .endsSweep count sweep stage
  | replies name given stage =>
      obtain ⟨rfl, rfl⟩ := only member
      exact .replies _ stage

end CachedStreams.KeyedCache
