import CachedStreams.Proofs.KeyedCache.Effect

/-!
# The steps of a call

`KeyedCache.CallStep` lists what a call on a keyed cache can do when it takes its next step: it is
answered, it goes on to a stage in which it has nothing in hand, it lets its generator run, it
stores a result, or it removes an entry and hands it to the hook. `KeyedCache.callStep_resume` says
that there is nothing else.
-/

set_option autoImplicit false

namespace CachedStreams.KeyedCache

variable {V E : Type}

/-- Whether a call at this stage has neither a result nor an entry in hand. -/
def Stage.isPlain : Stage V E → Bool
  | missed _ _ => true
  | queued _ _ => true
  | sweeping _ _ _ => true
  | _ => false

/-- What a call can do when it takes its next step from a stage. -/
inductive CallStep (c : KeyedCache V E) (now : Nat) (call : CallId) :
    Stage V E → KeyedCache V E × List (Notice V E) → Prop where
  /-- A value that is found is one that the table holds. -/
  | answers (stage : Stage V E) (reply : Reply V E)
    (known : ∀ value, reply = .result (.ok value) →
      ∃ key entry, c.table.find? key = some entry ∧ entry.result = .ok value) :
    CallStep c now call stage (c.answer call reply)
  | goesOn (stage next : Stage V E) (lanes : Lanes) (plain : next.isPlain = true) :
    CallStep c now call stage ({ c with lanes }.moveTo call next, [])
  | generates (key : String) (ttl : Nat) :
    CallStep c now call (.queued key ttl)
      (c.moveTo call (.generating key ttl), [.generate call key])
  | stores (key : String) (ttl : Nat) (result : Except E V) :
    CallStep c now call (.generated key ttl result)
      (c.store now call key ttl result (.result result))
  | sets (key : String) (ttl : Nat) (value : V) :
    CallStep c now call (.requested (.set key ttl value))
      (c.store now call key ttl (.ok value) .stored)
  | removes (stage : Stage V E) (key : String) (entry : Entry V E) (next : Next V E)
    (present : c.table.find? key = some entry)
    (plain : ∀ result, next ≠ .reply (.result result)) :
    CallStep c now call stage
      ({ c with table := c.table.erase key }.evict call key entry next)

section

variable (c : KeyedCache V E) (now : Nat) (call : CallId)

/-- The cache with one more entry in its table. -/
def put (key : String) (entry : Entry V E) : KeyedCache V E :=
  { c with table := c.table.insert key entry, nextSeq := c.nextSeq + 1 }

/-- To store a result for a key that has none is to add an entry and to answer. -/
theorem store_of_absent {key : String} (absent : c.table.find? key = none) (ttl : Nat)
    (result : Except E V) (reply : Reply V E) :
    c.store now call key ttl result reply =
      let entry : Entry V E := ⟨result, Clock.add? now ttl, c.nextSeq⟩
      (((c.put key entry).answer call reply).1,
        .stored call key entry :: ((c.put key entry).answer call reply).2) := by
  simp only [store, absent, put]

/-- To store a result for a key that has one is to replace the entry and to hand out the old one. -/
theorem store_of_present {key : String} {old : Entry V E} (present : c.table.find? key = some old)
    (ttl : Nat) (result : Except E V) (reply : Reply V E) :
    c.store now call key ttl result reply =
      let entry : Entry V E := ⟨result, Clock.add? now ttl, c.nextSeq⟩
      ((c.put key entry).moveTo call (.evicting (.reply reply)),
        [.stored call key entry, .evict call key old]) := by
  simp only [store, present, put, evict]

/-- A call that finds a live result can answer with it. -/
theorem callStep_answer_of_lookup {key : String} {result : Except E V}
    (found : c.table.lookup now key = some result) (stage : Stage V E) :
    CallStep c now call stage (c.answer call (.result result)) := by
  refine .answers stage _ ?_
  rintro value ⟨⟩
  simp only [Table.lookup, Option.map_eq_some_iff, Option.filter_eq_some_iff] at found
  obtain ⟨entry, ⟨held, -⟩, same⟩ := found
  exact ⟨key, entry, held, same⟩

/-- To remove the entry of a key under a test is one of the steps of a call. -/
theorem callStep_removeWhen (stage : Stage V E) (key : String) (test : Entry V E → Bool) :
    CallStep c now call stage (c.removeWhen call key test) := by
  unfold removeWhen
  split
  · rename_i entry found
    exact .removes stage key entry _ (Option.filter_eq_some_iff.mp found).1 nofun
  · exact .answers stage _ nofun

/-- To go on with what is left of a sweep is one of the steps of a call. -/
theorem callStep_sweepNext (stage : Stage V E) (rest : List (Nat × String)) (count : Nat)
    (sweep : Sweep) : CallStep c now call stage (c.sweepNext call rest count sweep) := by
  unfold sweepNext
  split
  · refine .answers stage _ ?_
    intro value
    cases sweep <;> nofun
  · rename_i seq key rest
    split
    · rename_i entry found
      exact .removes stage key entry _ (Option.filter_eq_some_iff.mp found).1 nofun
    · exact .goesOn stage _ c.lanes rfl

/-- Whatever a request begins with is one of the steps of a call. -/
theorem callStep_begin (request : Request V E) :
    CallStep c now call (.requested request) (c.begin now call request) := by
  cases request with
  | get key => exact .answers _ _ nofun
  | getOrUpdate key ttl =>
      simp only [begin]
      split
      · rename_i result found
        exact callStep_answer_of_lookup c now call found _
      · exact .goesOn _ _ c.lanes rfl
  | set key ttl value => exact .sets key ttl value
  | remove key => exact callStep_removeWhen c now call _ key _
  | removeIf key test => exact callStep_removeWhen c now call _ key _
  | flush => exact .goesOn _ _ c.lanes rfl
  | purge => exact .goesOn _ _ c.lanes rfl

/-- A call that can take its next step is in progress and takes one of the steps of its stage. -/
theorem callStep_resume {r : KeyedCache V E × List (Notice V E)}
    (h : c.resume now call = some r) :
    ∃ stage, c.calls.find? call = some stage ∧ CallStep c now call stage r := by
  unfold resume at h
  split at h
  · cases h
  · rename_i request found
    cases h
    exact ⟨_, found, callStep_begin c now call request⟩
  · rename_i key ttl found
    cases h
    exact ⟨_, found, .goesOn _ _ _ rfl⟩
  · rename_i key ttl found
    split at h
    · split at h
      · rename_i result hit
        cases h
        exact ⟨_, found, callStep_answer_of_lookup c now call hit _⟩
      · cases h
        exact ⟨_, found, .generates key ttl⟩
    · cases h
  · cases h
  · rename_i key ttl result found
    cases h
    exact ⟨_, found, .stores key ttl result⟩
  · rename_i rest count sweep found
    cases h
    exact ⟨_, found, callStep_sweepNext c now call _ rest count sweep⟩
  · cases h

end

end CachedStreams.KeyedCache
