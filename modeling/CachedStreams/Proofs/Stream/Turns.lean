import CachedStreams.Proofs.KeyedCache.Turns
import CachedStreams.Proofs.Stream.Relay

/-!
# Every turn of a cache of buffers

`StreamCache.Turn` lists what an event can do to a cache of buffers, each with what decides between
them: what the call is doing, how far it has come in the keyed cache, and what the table holds.
`StreamCache.turn_apply` says that there is nothing else. A call that the keyed cache answers reacts
at once, in one of the ways of `StreamCache.Reaction`.
-/

set_option autoImplicit false

namespace CachedStreams

/-- Whether the hook that a call waits for is over. -/
def Errand.isOver : Errand → Bool
  | starting _ _ => false
  | releasing _ ended => ended
  | idle => true

namespace StreamCache

/-- What a call does once the keyed cache has answered it. -/
inductive Reaction (c : StreamCache) (now : Nat) (call : CallId) :
    KeyedCache.Reply BufferId StreamError → StreamCache × List Notice → Prop where
  /-- It is not a call to open. -/
  | passesOn (reply : KeyedCache.Reply BufferId StreamError)
    (opening : c.opens.find? call = none) : Reaction c now call reply (c, [.answered call reply])
  | finds (o : OpenCall) (id : BufferId) (opening : c.opens.find? call = some o)
    (fetching : o.stage = .fetching) :
    Reaction c now call (.result (.ok id))
      ({ c with opens := c.opens.set call { o with stage := .holding id } }, [])
  | fails (o : OpenCall) (e : StreamError) (opening : c.opens.find? call = some o)
    (fetching : o.stage = .fetching) :
    Reaction c now call (.result (.error e)) (c.finishOpen call (.error e))
  | retries (o : OpenCall) (reply : KeyedCache.Reply BufferId StreamError)
    (opening : c.opens.find? call = some o) (unlinking : o.stage = .unlinking)
    (unused : o.unused = true) : Reaction c now call reply (c.fetch now call o, [])
  | endsUsed (o : OpenCall) (reply : KeyedCache.Reply BufferId StreamError)
    (opening : c.opens.find? call = some o) (unlinking : o.stage = .unlinking)
    (used : o.unused = false) :
    Reaction c now call reply (c.finishOpen call (.error .released))
  | ignores (o : OpenCall) (reply : KeyedCache.Reply BufferId StreamError)
    (opening : c.opens.find? call = some o) (linked : o.stage ≠ .unlinking)
    (mismatch : o.stage = .fetching → ∀ result, reply ≠ .result result) :
    Reaction c now call reply (c, [])

/-- What is done with an answer of the keyed cache is a reaction to it. -/
theorem reaction_answer (c : StreamCache) (now : Nat) (call : CallId)
    (reply : KeyedCache.Reply BufferId StreamError) :
    Reaction c now call reply (c.answer now call reply) := by
  unfold answer
  split
  · rename_i opening
    exact .passesOn reply opening
  · rename_i o opening
    split
    · rename_i id fetching
      exact .finds o id opening fetching
    · rename_i e fetching
      exact .fails o e opening fetching
    · rename_i unlinking
      split
      · rename_i unused
        exact .retries o _ opening unlinking unused
      · rename_i used
        exact .endsUsed o _ opening unlinking (by simpa using used)
    · rename_i linked found failed
      refine .ignores o _ opening linked ?_
      rintro fetching (e | id) rfl
      · exact failed e fetching rfl
      · exact found id fetching rfl

/-- The next step of a call is one of the keyed cache: it waits for no buffer and holds none. -/
structure Travels (c : StreamCache) (call : CallId) : Prop where
  errand : c.errands.find? call = none
  unheld : ∀ o id, c.opens.find? call = some o → o.stage ≠ .holding id

/-- A call cannot take a step by itself: it waits for the verdict on its buffer, for the end of a
pump or in the keyed cache, or it holds a buffer that is not there. -/
inductive Stuck (c : StreamCache) (call : CallId) : Prop where
  | awaitsVerdict (id : BufferId) (errand : c.errands.find? call = some (.starting id none))
  | awaitsPump (id : BufferId) (errand : c.errands.find? call = some (.releasing id false))
  | lost (o : OpenCall) (id : BufferId) (errand : c.errands.find? call = none)
    (opening : c.opens.find? call = some o) (holding : o.stage = .holding id)
    (absent : c.buffers[id]? = none)
  | travels (travels : c.Travels call) (stuck : c.keyed.Stuck call)

/-- A buffer whose pump a call has started. -/
def startedBuffer (c : StreamCache) (call : CallId) (key : String) (o : OpenCall) : Buffer :=
  ((Buffer.create key c.options o.transform).join call).1

/-- The state after a generator has started a buffer. -/
def started (c : StreamCache) (call : CallId) (key : String) (ttl : Nat) (o : OpenCall) :
    StreamCache :=
  { c with
    keyed := c.keyed.moveTo call (.generating key ttl)
    buffers := c.buffers ++ [c.startedBuffer call key o]
    opens := c.opens.set call { o with unused := false }
    errands := c.errands.set call (.starting c.buffers.length none) }

/-- What an event can do to a cache of buffers. -/
inductive Turn (c : StreamCache) (now : Nat) : Event → StreamCache × List Notice → Prop where
  | opens (call : CallId) (key : String) (transform : Option Transform) :
    Turn c now (.open call key transform)
      (c.fetch now call ⟨key, transform, true, .fetching⟩, [])
  | begins (call : CallId) (request : KeyedCache.Request BufferId StreamError) :
    Turn c now (.call call request)
      ({ c with keyed := c.keyed.moveTo call (.requested request) }, [])
  | givesUp (call : CallId) :
    Turn c now (.abort call)
      ({ c with
          buffers := c.buffers.map (Buffer.abandon · call)
          opens := c.opens.erase call
          errands := c.errands.erase call
          keyed := (c.keyed.leave call).1 },
        (c.keyed.lanes.admittedBy call).map .ready)
  | stirs (id : BufferId) (event : Buffer.Event) :
    Turn c now (.buffer id event) (c.applyBuffer now id event)
  | waits (call : CallId) (stuck : c.Stuck call) : Turn c now (.resume call) (c, [])
  /-- A generator has heard how its buffer has come out. -/
  | learns (call : CallId) (id : BufferId) (result : Except StreamError Unit) (key : String)
    (ttl : Nat) (errand : c.errands.find? call = some (.starting id (some result)))
    (stage : c.keyed.stage? call = some (.generating key ttl)) :
    Turn c now (.resume call)
      ({ c with
          errands := c.errands.erase call
          keyed := c.keyed.moveTo call (.generated key ttl (result.map fun _ => id)) }, [])
  /-- Nobody waits for what a generator has heard. -/
  | dropsResult (call : CallId) (id : BufferId) (result : Except StreamError Unit)
    (errand : c.errands.find? call = some (.starting id (some result)))
    (unheard : ∀ key ttl, c.keyed.stage? call ≠ some (.generating key ttl)) :
    Turn c now (.resume call) ({ c with errands := c.errands.erase call }, [])
  /-- Nobody waits for a hook that has ended. -/
  | dropsHook (call : CallId) (e : Errand) (errand : c.errands.find? call = some e)
    (done : e.isOver = true) (unheard : ∀ next, c.keyed.stage? call ≠ some (.evicting next)) :
    Turn c now (.resume call) ({ c with errands := c.errands.erase call }, [])
  | sweepsOn (call : CallId) (e : Errand) (rest : List (Nat × String)) (count : Nat)
    (sweep : KeyedCache.Sweep) (errand : c.errands.find? call = some e) (done : e.isOver = true)
    (stage : c.keyed.stage? call = some (.evicting (.sweep rest count sweep))) :
    Turn c now (.resume call)
      ({ c with
          errands := c.errands.erase call
          keyed := c.keyed.moveTo call (.sweeping rest count sweep) }, [])
  | replies (call : CallId) (e : Errand) (reply : KeyedCache.Reply BufferId StreamError)
    (r : StreamCache × List Notice) (ready : List CallId)
    (errand : c.errands.find? call = some e) (done : e.isOver = true)
    (stage : c.keyed.stage? call = some (.evicting (.reply reply)))
    (reacts : Reaction { c with
      errands := c.errands.erase call
      keyed := (c.keyed.answer call reply).1 } now call reply r) :
    Turn c now (.resume call) (r.1, ready.map .ready ++ r.2)
  | registers (call : CallId) (o : OpenCall) (id : BufferId) (b : Buffer)
    (errand : c.errands.find? call = none) (opening : c.opens.find? call = some o)
    (holding : o.stage = .holding id) (present : c.buffers[id]? = some b) (used : 0 < b.refs) :
    Turn c now (.resume call)
      ({ c with
          buffers := c.buffers.set id { b with refs := b.refs + 1 }
          opens := c.opens.erase call }, [.opened call (.ok id)])
  | refuses (call : CallId) (o : OpenCall) (id : BufferId) (b : Buffer)
    (errand : c.errands.find? call = none) (opening : c.opens.find? call = some o)
    (holding : o.stage = .holding id) (present : c.buffers[id]? = some b) (unused : b.refs = 0) :
    Turn c now (.resume call)
      ({ c with
          opens := c.opens.set call { o with stage := .unlinking }
          keyed := c.keyed.moveTo call (.requested (.removeIf o.key (isBuffer id))) }, [])
  | gets (call : CallId) (key : String) (r : StreamCache × List Notice) (ready : List CallId)
    (travels : c.Travels call) (stage : c.keyed.stage? call = some (.requested (.get key)))
    (reacts : Reaction
      { c with keyed := (c.keyed.answer call (.found (c.keyed.table.lookup now key))).1 } now call
        (.found (c.keyed.table.lookup now key)) r) :
    Turn c now (.resume call) (r.1, ready.map .ready ++ r.2)
  | hits (call : CallId) (key : String) (ttl : Nat)
    (at_ : KeyedCache.Stage BufferId StreamError) (result : Except StreamError BufferId)
    (r : StreamCache × List Notice) (ready : List CallId) (travels : c.Travels call)
    (stage : c.keyed.stage? call = some at_) (looks : at_.Looks key ttl)
    (found : c.keyed.table.lookup now key = some result)
    (reacts : Reaction { c with keyed := (c.keyed.answer call (.result result)).1 } now call
      (.result result) r) :
    Turn c now (.resume call) (r.1, ready.map .ready ++ r.2)
  | misses (call : CallId) (key : String) (ttl : Nat) (travels : c.Travels call)
    (stage : c.keyed.stage? call = some (.requested (.getOrUpdate key ttl)))
    (absent : c.keyed.table.lookup now key = none) :
    Turn c now (.resume call) ({ c with keyed := c.keyed.moveTo call (.missed key ttl) }, [])
  | queues (call : CallId) (key : String) (ttl : Nat) (travels : c.Travels call)
    (stage : c.keyed.stage? call = some (.missed key ttl)) :
    Turn c now (.resume call)
      ({ c with
          keyed := { c.keyed with
            lanes := c.keyed.lanes.request call (c.keyed.laneOf key) }.moveTo call
              (.queued key ttl) }, [])
  | starts (call : CallId) (key : String) (ttl : Nat) (o : OpenCall) (travels : c.Travels call)
    (stage : c.keyed.stage? call = some (.queued key ttl))
    (holds : c.keyed.lanes.holds call (c.keyed.laneOf key) = true)
    (absent : c.keyed.table.lookup now key = none) (opening : c.opens.find? call = some o)
    (unused : o.unused = true) :
    Turn c now (.resume call)
      (c.started call key ttl o, [.buffer c.buffers.length .pumpStarted])
  /-- The generator runs for a call that has used its way to open the stream. -/
  | startsNothing (call : CallId) (key : String) (ttl : Nat) (o : OpenCall)
    (travels : c.Travels call) (stage : c.keyed.stage? call = some (.queued key ttl))
    (opening : c.opens.find? call = some o) (used : o.unused = false) :
    Turn c now (.resume call)
      ({ c with
          keyed := (c.keyed.moveTo call (.generating key ttl)).moveTo call
            (.generated key ttl (.error .released)) }, [])
  /-- The generator runs for a call that is not one to open. -/
  | generates (call : CallId) (key : String) (ttl : Nat) (travels : c.Travels call)
    (stage : c.keyed.stage? call = some (.queued key ttl))
    (opening : c.opens.find? call = none) :
    Turn c now (.resume call) ({ c with keyed := c.keyed.moveTo call (.generating key ttl) }, [])
  | stores (call : CallId) (key : String) (ttl : Nat)
    (at_ : KeyedCache.Stage BufferId StreamError) (result : Except StreamError BufferId)
    (reply : KeyedCache.Reply BufferId StreamError) (r : StreamCache × List Notice)
    (ready : List CallId) (travels : c.Travels call) (stage : c.keyed.stage? call = some at_)
    (brings : at_.Brings key ttl result reply) (absent : c.keyed.table.find? key = none)
    (reacts : Reaction { c with
      keyed := ((c.keyed.put key ⟨result, Clock.add? now ttl, c.keyed.nextSeq⟩).answer call
        reply).1 } now call reply r) :
    Turn c now (.resume call) (r.1, ready.map .ready ++ r.2)
  | displaces (call : CallId) (key : String) (ttl : Nat)
    (at_ : KeyedCache.Stage BufferId StreamError) (result : Except StreamError BufferId)
    (reply : KeyedCache.Reply BufferId StreamError) (old : Entry BufferId StreamError)
    (travels : c.Travels call) (stage : c.keyed.stage? call = some at_)
    (brings : at_.Brings key ttl result reply) (present : c.keyed.table.find? key = some old) :
    Turn c now (.resume call)
      (StreamCache.evict { c with
        keyed := (c.keyed.put key ⟨result, Clock.add? now ttl, c.keyed.nextSeq⟩).moveTo call
          (.evicting (.reply reply)) } now call old.result)
  | removes (call : CallId) (key : String) (test : Except StreamError BufferId → Bool)
    (at_ : KeyedCache.Stage BufferId StreamError) (entry : Entry BufferId StreamError)
    (travels : c.Travels call) (stage : c.keyed.stage? call = some at_)
    (drops : at_.Drops key test) (present : c.keyed.table.find? key = some entry)
    (accepted : test entry.result = true) :
    Turn c now (.resume call)
      (StreamCache.evict { c with
        keyed := { c.keyed with table := c.keyed.table.erase key }.moveTo call
          (.evicting (.reply (.removed true))) } now call entry.result)
  | removesNothing (call : CallId) (key : String) (test : Except StreamError BufferId → Bool)
    (at_ : KeyedCache.Stage BufferId StreamError) (r : StreamCache × List Notice)
    (ready : List CallId) (travels : c.Travels call) (stage : c.keyed.stage? call = some at_)
    (drops : at_.Drops key test)
    (refused : ∀ entry, c.keyed.table.find? key = some entry → test entry.result = false)
    (reacts : Reaction { c with keyed := (c.keyed.answer call (.removed false)).1 } now call
      (.removed false) r) :
    Turn c now (.resume call) (r.1, ready.map .ready ++ r.2)
  | beginsSweep (call : CallId) (sweep : KeyedCache.Sweep) (travels : c.Travels call)
    (stage : c.keyed.stage? call = some (.requested sweep.request)) :
    Turn c now (.resume call)
      ({ c with keyed := c.keyed.moveTo call (.sweeping (c.keyed.snapshot now sweep) 0 sweep) },
        [])
  | sweeps (call : CallId) (key : String) (entry : Entry BufferId StreamError)
    (rest : List (Nat × String)) (count : Nat) (sweep : KeyedCache.Sweep)
    (travels : c.Travels call)
    (stage : c.keyed.stage? call = some (.sweeping ((entry.seq, key) :: rest) count sweep))
    (present : c.keyed.table.find? key = some entry) :
    Turn c now (.resume call)
      (StreamCache.evict { c with
        keyed := { c.keyed with table := c.keyed.table.erase key }.moveTo call
          (.evicting (.sweep rest (count + 1) sweep)) } now call entry.result)
  /-- The entry of the snapshot has been removed or replaced. -/
  | passes (call : CallId) (number : Nat) (key : String) (rest : List (Nat × String))
    (count : Nat) (sweep : KeyedCache.Sweep) (travels : c.Travels call)
    (stage : c.keyed.stage? call = some (.sweeping ((number, key) :: rest) count sweep))
    (gone : ∀ entry, c.keyed.table.find? key = some entry → entry.seq ≠ number) :
    Turn c now (.resume call)
      ({ c with keyed := c.keyed.moveTo call (.sweeping rest count sweep) }, [])
  | endsSweep (call : CallId) (count : Nat) (sweep : KeyedCache.Sweep)
    (r : StreamCache × List Notice) (ready : List CallId) (travels : c.Travels call)
    (stage : c.keyed.stage? call = some (.sweeping [] count sweep))
    (reacts : Reaction { c with keyed := (c.keyed.answer call (sweep.reply count)).1 } now call
      (sweep.reply count) r) :
    Turn c now (.resume call) (r.1, ready.map .ready ++ r.2)

section

variable (c : StreamCache) (now : Nat) (call : CallId)

/-- An answer of the keyed cache is heeded by a reaction of the call. -/
theorem reaction_heed_answer (k : KeyedCache BufferId StreamError)
    (reply : KeyedCache.Reply BufferId StreamError) :
    ∃ (ready : List CallId) (r : StreamCache × List Notice), Reaction c now call reply r ∧
      heed now c (k.answer call reply).2 = (r.1, ready.map .ready ++ r.2) := by
  obtain ⟨ready, heard⟩ := heed_answer now c k call reply
  exact ⟨ready, _, reaction_answer c now call reply, heard⟩

/-- A call that holds its lane and finds nothing live starts its generator. -/
theorem turn_heed_generates {key : String} {ttl : Nat} (travels : c.Travels call)
    (stage : c.keyed.stage? call = some (.queued key ttl))
    (holds : c.keyed.lanes.holds call (c.keyed.laneOf key) = true)
    (absent : c.keyed.table.lookup now key = none) :
    Turn c now (.resume call)
      (heed now { c with keyed := c.keyed.moveTo call (.generating key ttl) }
        [.generate call key]) := by
  have heard : ∀ d : StreamCache, heed now d [.generate call key] = d.generate now call key :=
    fun d => by simp [heed]
  rw [heard]
  cases opening : c.opens.find? call with
  | none =>
      simp only [generate, opening]
      exact .generates call key ttl travels stage opening
  | some o =>
      cases unused : o.unused with
      | true =>
          have turn : Turn c now (.resume call) _ :=
            .starts call key ttl o travels stage holds absent opening unused
          have created : ({ c with keyed := c.keyed.moveTo call (.generating key ttl) } :
              StreamCache).generate now call key =
                (c.started call key ttl o, [.buffer c.buffers.length .pumpStarted]) := by
            simp [generate, opening, unused, applyBuffer, Buffer.apply, Buffer.join,
              Buffer.create, relay, started, startedBuffer]
          rw [created]
          exact turn
      | false =>
          have generating : (c.keyed.moveTo call (.generating key ttl)).calls.find? call =
              some (.generating key ttl) := CallTable.find?_set_self _ _ _
          simp only [generate, opening, unused, KeyedCache.apply, generating, Bool.false_eq_true,
            if_false]
          exact .startsNothing call key ttl o travels stage opening unused

/-- A call that brings a result stores it, and begins the hook of the entry that this displaces. -/
theorem turn_heed_store {key : String} {ttl : Nat} {at_ : KeyedCache.Stage BufferId StreamError}
    {result : Except StreamError BufferId} {reply : KeyedCache.Reply BufferId StreamError}
    (travels : c.Travels call) (stage : c.keyed.stage? call = some at_)
    (brings : at_.Brings key ttl result reply) :
    let k := c.keyed.store now call key ttl result reply
    Turn c now (.resume call) (heed now { c with keyed := k.1 } k.2) := by
  intro k
  cases displaced : c.keyed.table.find? key with
  | none =>
      have stored : k = _ := KeyedCache.store_of_absent c.keyed now call displaced ttl result reply
      rw [stored]
      simp only [heed, List.nil_append]
      obtain ⟨ready, r, reacts, heard⟩ := reaction_heed_answer { c with
        keyed := ((c.keyed.put key ⟨result, Clock.add? now ttl, c.keyed.nextSeq⟩).answer call
          reply).1 } now call
        (c.keyed.put key ⟨result, Clock.add? now ttl, c.keyed.nextSeq⟩) reply
      rw [heard]
      exact .stores call key ttl at_ result reply r ready travels stage brings displaced reacts
  | some old =>
      have stored : k = _ := KeyedCache.store_of_present c.keyed now call displaced ttl result reply
      rw [stored]
      simp only [heed, List.nil_append, List.append_nil]
      exact .displaces call key ttl at_ result reply old travels stage brings displaced

/-- A step of a call in the keyed cache, put into effect. -/
theorem turn_heed {k : KeyedCache BufferId StreamError ×
      List (KeyedCache.Notice BufferId StreamError)}
    (travels : c.Travels call) (turn : KeyedCache.Turn c.keyed now (.resume call) k) :
    Turn c now (.resume call) (heed now { c with keyed := k.1 } k.2) := by
  have answered : ∀ reply, ∃ (ready : List CallId) (r : StreamCache × List Notice),
      Reaction { c with keyed := (c.keyed.answer call reply).1 } now call reply r ∧
        heed now { c with keyed := (c.keyed.answer call reply).1 } (c.keyed.answer call reply).2 =
          (r.1, ready.map .ready ++ r.2) := fun reply => reaction_heed_answer _ now call _ reply
  cases turn with
  | waits _ stuck => exact .waits call (.travels travels stuck)
  | gets _ key stage =>
      obtain ⟨ready, r, reacts, heard⟩ := answered (.found (c.keyed.table.lookup now key))
      rw [heard]
      exact .gets call key r ready travels stage reacts
  | hits _ key ttl at_ result stage looks found =>
      obtain ⟨ready, r, reacts, heard⟩ := answered (.result result)
      rw [heard]
      exact .hits call key ttl at_ result r ready travels stage looks found reacts
  | misses _ key ttl stage absent => exact .misses call key ttl travels stage absent
  | queues _ key ttl stage => exact .queues call key ttl travels stage
  | generates _ key ttl stage holds absent =>
      exact turn_heed_generates c now call travels stage holds absent
  | stores _ key ttl at_ result reply stage brings =>
      exact turn_heed_store c now call travels stage brings
  | removes _ key test at_ entry stage drops present accepted =>
      simp only [KeyedCache.evict, heed, List.append_nil]
      exact .removes call key test at_ entry travels stage drops present accepted
  | removesNothing _ key test at_ stage drops refused =>
      obtain ⟨ready, r, reacts, heard⟩ := answered (.removed false)
      rw [heard]
      exact .removesNothing call key test at_ r ready travels stage drops refused reacts
  | beginsSweep _ sweep stage => exact .beginsSweep call sweep travels stage
  | sweeps _ key entry rest count sweep stage present =>
      simp only [KeyedCache.evict, heed, List.append_nil]
      exact .sweeps call key entry rest count sweep travels stage present
  | passes _ number key rest count sweep stage gone =>
      exact .passes call number key rest count sweep travels stage gone
  | endsSweep _ count sweep stage =>
      obtain ⟨ready, r, reacts, heard⟩ := answered (sweep.reply count)
      rw [heard]
      exact .endsSweep call count sweep r ready travels stage reacts

/-- The hook of a call has ended. -/
theorem turn_evicted {e : Errand} (errand : c.errands.find? call = some e)
    (done : e.isOver = true) :
    Turn c now (.resume call)
      (StreamCache.applyKeyed { c with errands := c.errands.erase call } now (.evicted call)) := by
  simp only [applyKeyed, KeyedCache.apply]
  split
  · rename_i reply stage
    obtain ⟨ready, r, reacts, heard⟩ := reaction_heed_answer
      { c with errands := c.errands.erase call, keyed := (c.keyed.answer call reply).1 } now call
      c.keyed reply
    rw [heard]
    exact .replies call e reply r ready errand done stage reacts
  · rename_i rest count sweep stage
    exact .sweepsOn call e rest count sweep errand done stage
  · rename_i notReply notSweep
    refine .dropsHook call e errand done fun next => ?_
    cases next with
    | reply reply => exact notReply reply
    | sweep rest count sweep => exact notSweep rest count sweep

/-- The generator of a call has heard how its buffer has come out. -/
theorem turn_generated {id : BufferId} {result : Except StreamError Unit}
    (errand : c.errands.find? call = some (.starting id (some result))) :
    Turn c now (.resume call)
      (StreamCache.applyKeyed { c with errands := c.errands.erase call } now
        (.generated call (result.map fun _ => id))) := by
  simp only [applyKeyed, KeyedCache.apply]
  split
  · rename_i key ttl stage
    exact .learns call id result key ttl errand stage
  · rename_i other
    exact .dropsResult call id result errand other

/-- A call to open that holds a buffer registers with it. -/
theorem turn_register {o : OpenCall} {id : BufferId} (errand : c.errands.find? call = none)
    (opening : c.opens.find? call = some o) (holding : o.stage = .holding id) :
    Turn c now (.resume call) (c.register now call o id) := by
  unfold register
  split
  · rename_i absent
    exact .waits call (.lost o id errand opening holding absent)
  · rename_i b present
    by_cases unused : b.refs = 0
    · simp only [Buffer.retain, unused, if_true]
      exact .refuses call o id b errand opening holding present unused
    · simp only [Buffer.retain, unused, if_false]
      exact .registers call o id b errand opening holding present (Nat.pos_of_ne_zero unused)

/-- A step of a call is one of the turns. -/
theorem turn_resume : Turn c now (.resume call) ((c.resume now call).getD (c, [])) := by
  unfold resume
  split
  · rename_i id result errand
    exact turn_generated c now call errand
  · rename_i id errand
    exact .waits call (.awaitsVerdict id errand)
  · rename_i errand
    exact turn_evicted c now call errand rfl
  · rename_i id errand
    exact .waits call (.awaitsPump id errand)
  · rename_i errand
    exact turn_evicted c now call errand rfl
  · rename_i errand
    split
    · rename_i opening
      exact turn_register c now call errand opening rfl
    · rename_i unheld
      have travels : c.Travels call := by
        refine ⟨errand, ?_⟩
        rintro ⟨key, transform, unused, _⟩ id opening rfl
        exact unheld key transform unused id opening
      cases taken : c.keyed.resume now call with
      | none => exact .waits call (.travels travels (KeyedCache.stuck_of_resume_eq_none taken))
      | some k =>
          have turn := KeyedCache.turn_resume c.keyed now call
          rw [taken] at turn
          exact turn_heed c now call travels turn

/-- Whatever happens to a cache of buffers is one of these turns. -/
theorem turn_apply (event : Event) : Turn c now event (c.apply now event) := by
  cases event with
  | «open» call key transform => exact .opens call key transform
  | call call request => exact .begins call request
  | resume call => exact turn_resume c now call
  | abort call =>
      have struck : c.apply now (.abort call) = _ := abort_eq now c call
      rw [struck]
      exact .givesUp call
  | buffer id event => exact .stirs id event

end

end StreamCache

end CachedStreams
