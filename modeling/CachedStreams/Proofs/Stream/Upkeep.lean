import CachedStreams.Proofs.Stream.Holdings

/-!
# Every step keeps the books

What a call of a cache of buffers does in one step, it does through a few operations: a result is
stored, an entry removed, a hook run, a buffer started, a consumer registered, a call to open
answered or given up. Each of them keeps the cache sound; `StreamCache.Sound.apply` puts them
together for every event that the surroundings can cause.
-/

set_option autoImplicit false

namespace CachedStreams.StreamCache

variable {a : Account} {c d : StreamCache} {call : CallId}

/-- Two calls for which the same new buffer stands ready are one call. -/
theorem Fresh.eq_of_ready {stored : BufferId → Prop} {buffers : List Buffer} {other : CallId}
    {id : BufferId} (h : Fresh stored buffers call id) (k : Fresh stored buffers other id) :
    other = call := by
  obtain ⟨-, b, hb, ready⟩ := h
  obtain ⟨-, b', hb', ready'⟩ := k
  rw [hb, Option.some.injEq] at hb'
  subst hb'
  obtain ⟨p, hp, opener⟩ := ready.opener
  obtain ⟨q, hq, opener'⟩ := ready'.opener
  rw [hp, Option.some.injEq] at hq
  rw [← opener, ← opener', hq]

/-- What a call has in hand is still fresh after another call has stored its buffer. -/
theorem Fresh.of_stored {stored : BufferId → Prop} {buffers : List Buffer} {other : CallId}
    {id : BufferId} {result : Except StreamError BufferId} (h : Fresh stored buffers other id)
    (ne : other ≠ call) (new : ∀ id, result = .ok id → Fresh stored buffers call id) :
    Fresh (fun id => stored id ∨ result = .ok id) buffers other id := by
  refine ⟨?_, h.2⟩
  rintro (old | stores)
  · exact h.1 old
  · exact ne ((new id stores).eq_of_ready h)

section

variable {stored : BufferId → Prop} {buffers : List Buffer} {other : CallId}
  {result : Except StreamError BufferId}

/-- What a call has in hand stays sound when another call stores a result. -/
theorem StageSound.of_stored {s : KeyedCache.Stage BufferId StreamError}
    (h : StageSound stored buffers other s) (ne : other ≠ call)
    (new : ∀ id, result = .ok id → Fresh stored buffers call id) :
    StageSound (fun id => stored id ∨ result = .ok id) buffers other s := by
  unfold StageSound at h ⊢
  split
  · exact h
  · exact Fresh.of_stored h ne new
  · exact .inl h
  · trivial

/-- The errand of a call stays sound when another call stores a result. -/
theorem ErrandSound.of_stored {e : Errand} (h : ErrandSound stored buffers other e)
    (ne : other ≠ call) (new : ∀ id, result = .ok id → Fresh stored buffers call id) :
    ErrandSound (fun id => stored id ∨ result = .ok id) buffers other e := by
  unfold ErrandSound at h ⊢
  split
  · obtain ⟨unstored, b, hb, starting⟩ := h
    refine ⟨?_, b, hb, starting⟩
    rintro (old | stores)
    · exact unstored old
    · -- The call that stores it has seen it ready, so nobody waits for the verdict any more.
      obtain ⟨-, b', hb', ready⟩ := new _ stores
      rw [hb, Option.some.injEq] at hb'
      have waiting := starting.waiting
      rw [hb', ready.idle] at waiting
      cases waiting
  · exact Fresh.of_stored h ne new
  · trivial

end

section

variable (h : Sound a c) (key : String) (entry : Entry BufferId StreamError)
  (new : ∀ id, entry.result = .ok id → Fresh a.stored c.buffers call id)
include h new

/-- A buffer that was never cached is not in the table. -/
theorem Sound.not_mem_of_fresh {id : BufferId} (stores : entry.result = .ok id) :
    id ∉ buffersIn c.keyed.table :=
  fun member => (new id stores).1 (h.cached id member)

/-- No buffer is twice in the table after a new one is stored. -/
theorem Sound.nodup_insert : (buffersIn (c.keyed.table.insert key entry)).Nodup := by
  have distinct : (bufferOf entry.result ++ buffersIn c.keyed.table).Nodup := by
    refine List.nodup_append.mpr ⟨?_, h.distinct, ?_⟩
    · cases entry.result <;> simp [bufferOf]
    · rintro id stores _ held rfl
      exact h.not_mem_of_fresh entry new (mem_bufferOf.mp stores) held
  have split := perm_buffersIn_insert h.keyed key entry
  exact (List.nodup_append.mp (split.nodup_iff.mp distinct)).1

/-- The entry is the one consumer of a buffer that it is the first to hold; the others keep theirs,
and one of them may be owed the release of its own. -/
theorem Sound.kept_insert (settled : a.owed = []) {id : BufferId}
    (stored : a.stored id ∨ entry.result = .ok id) :
    ∃ b, c.buffers[id]? = some b ∧
      Kept { a with
        stored := fun id => a.stored id ∨ entry.result = .ok id
        owed := bufferAt c.keyed.table key } (c.keyed.table.insert key entry) id b := by
  have count := (perm_buffersIn_insert h.keyed key entry).count_eq id
  simp only [List.count_append] at count
  rcases Classical.em (a.stored id) with old | unstored
  · obtain ⟨b, hb, kept⟩ := h.kept id old
    refine ⟨b, hb, kept.consistent, kept.read, kept.closed, ?_⟩
    have other : (bufferOf entry.result).count id = 0 := by
      rw [List.count_eq_zero, mem_bufferOf]
      exact fun stores => (new id stores).1 old
    have balance := kept.balance
    simp only [settled, List.count_nil] at balance
    show b.refs + a.closed id = (buffersIn (c.keyed.table.insert key entry)).count id +
      a.opened id + (bufferAt c.keyed.table key).count id
    omega
  · have stores : entry.result = .ok id := stored.resolve_left unstored
    obtain ⟨-, b, hb, ready⟩ := new id stores
    obtain ⟨opened, closed⟩ := h.untouched id unstored
    refine ⟨b, hb, ready.consistent, ready.read, ?_, ?_⟩
    · simp [ready.unclosed, ready.refs]
    · have one : (bufferOf entry.result).count id = 1 := by simp [stores, bufferOf]
      have none_ := List.count_eq_zero.mpr (h.not_mem_of_fresh entry new stores)
      have refs := ready.refs
      show b.refs + a.closed id = (buffersIn (c.keyed.table.insert key entry)).count id +
        a.opened id + (bufferAt c.keyed.table key).count id
      omega

/-- A result that is stored makes its buffer one that was ever cached, and leaves the release of the
buffer that it displaces to be done. -/
theorem Sound.insert (settled : a.owed = []) (errand : c.errands.find? call = none)
    (stage : c.keyed.calls.find? call = none) :
    Sound { a with
        stored := fun id => a.stored id ∨ entry.result = .ok id
        owed := bufferAt c.keyed.table key }
      { c with keyed := c.keyed.put key entry } := by
  refine ⟨Table.keyed_insert h.keyed key entry, h.nodup_insert key entry new, ?_, ?_,
    fun id => h.kept_insert key entry new settled, ?_, ?_, ?_, ?_⟩
  · intro id member
    have either := (perm_buffersIn_insert h.keyed key entry).mem_iff.mpr
      (List.mem_append_left _ member)
    rcases List.mem_append.mp either with stores | old
    · exact .inr (mem_bufferOf.mp stores)
    · exact .inl (h.cached id old)
  · exact fun id unstored => h.untouched id fun old => unstored (.inl old)
  · intro id b hb row member
    refine RowSound.of_eq ?_ ?_ ?_ (h.rows id b hb row member) <;> rfl
  · intro other e found
    have ne : other ≠ call := by
      rintro rfl
      rw [errand] at found
      cases found
    exact (h.errands other e found).of_stored ne new
  · intro other s found
    have before : c.keyed.calls.find? other = some s := found
    have ne : other ≠ call := by
      rintro rfl
      rw [stage] at before
      cases before
    exact (h.stages other s before).of_stored ne new
  · exact fun other o id found holding => .inl (h.opens other o id found holding)

end

/-- A generator that creates a buffer waits for it. -/
theorem Sound.start (h : Sound a c) (free : NoRows c call) (same : SameBut call c d) {b : Buffer}
    (starting : b.Starting call) (buffers : d.buffers = c.buffers ++ [b])
    (errand : d.errands.find? call = some (.starting c.buffers.length none))
    (stage : d.keyed.calls.find? call = c.keyed.calls.find? call)
    (opening : ∀ o id, d.opens.find? call = some o → o.stage = .holding id → a.stored id) :
    Sound a d := by
  have grown : ∀ (id : BufferId) b', c.buffers[id]? = some b' → d.buffers[id]? = some b' := by
    intro id b' hb'
    rw [buffers, List.getElem?_append_left (List.getElem?_eq_some_iff.mp hb').1]
    exact hb'
  have last : d.buffers[c.buffers.length]? = some b := by
    rw [buffers, List.getElem?_concat_length]
  have new : ¬a.stored c.buffers.length := by
    intro stored
    obtain ⟨b', hb', -⟩ := h.kept _ stored
    exact Nat.lt_irrefl _ (List.getElem?_eq_some_iff.mp hb').1
  refine h.step same ⟨?_, ?_, opening⟩ rfl h.untouched ?_ ?_ ?_
  · intro e found
    rw [errand, Option.some.injEq] at found
    exact found ▸ ⟨new, b, last, starting⟩
  · intro s found
    rw [stage] at found
    exact (h.stages call s found).mono fun id b' _ hb' ready => ⟨b', grown id b' hb', ready⟩
  · exact fun id b' _ hb' kept => ⟨b', grown id b' hb', kept⟩
  · intro id b' _ hb'
    exact ⟨b', grown id b' hb', fun _ _ => ⟨fun hs => hs, fun hr => hr⟩⟩
  · intro id b' hb' row member
    by_cases old : id < c.buffers.length
    · rw [buffers, List.getElem?_append_left old] at hb'
      exact h.rowSound same free hb' member
    · have bound := (List.getElem?_eq_some_iff.mp hb').1
      rw [buffers, List.length_append, List.length_singleton] at bound
      obtain rfl : id = c.buffers.length :=
        Nat.le_antisymm (Nat.le_of_lt_succ bound) (Nat.le_of_not_lt old)
      rw [last, Option.some.injEq] at hb'
      rw [← hb', starting.waiting, List.mem_singleton] at member
      subst member
      exact errand

/-- A call of which nothing is left can be dropped from the cache and from its buffers. -/
theorem Sound.forget (h : Sound a c) (call : CallId) (same : SameBut call c d)
    (buffers : d.buffers = c.buffers.map (Buffer.abandon · call))
    (errand : d.errands.find? call = none) (stage : d.keyed.calls.find? call = none)
    (opening : d.opens.find? call = none) : Sound a d := by
  have lookup : ∀ id : BufferId,
      d.buffers[id]? = (c.buffers[id]?).map (Buffer.abandon · call) := by
    intro id
    rw [buffers, List.getElem?_map]
  refine h.step same ⟨?_, ?_, ?_⟩ rfl h.untouched ?_ ?_ ?_
  · simp [errand]
  · simp [stage]
  · simp [opening]
  · intro id b _ hb kept
    refine ⟨b.abandon call, by rw [lookup, hb, Option.map_some], kept.consistent.with_calls _,
      kept.read, kept.closed, kept.balance⟩
  · intro id b _ hb
    refine ⟨b.abandon call, by rw [lookup, hb, Option.map_some], fun other ne => ⟨?_, ?_⟩⟩
    · intro starting
      refine ⟨starting.consistent.with_calls _, starting.refs, starting.streaming, ?_,
        starting.pump⟩
      simp [Buffer.abandon, CallTable.erase, starting.waiting, ne]
    · intro ready
      refine ⟨ready.consistent.with_calls _, ready.read, ready.refs, ready.unclosed, ?_,
        ready.opener⟩
      simp [Buffer.abandon, CallTable.erase, ready.idle]
  · intro id b' hb' row member
    rw [lookup, Option.map_eq_some_iff] at hb'
    obtain ⟨b, hb, rfl⟩ := hb'
    obtain ⟨old, ne⟩ := CallTable.mem_rows_erase.mp member
    exact same.rowSound ne (h.rows id b hb row old)

section

variable (h : Sound a c) (free : NoRows c call)
include h free

/-- A call that waits for nothing may come to any stage that is sound. -/
theorem Sound.moveTo {s : KeyedCache.Stage BufferId StreamError}
    (sound : StageSound a.stored c.buffers call s) {k : KeyedCache BufferId StreamError}
    (table : k.table = c.keyed.table) (calls : k.calls = c.keyed.calls.set call s) :
    Sound a { c with keyed := k } := by
  refine h.sameBut free ⟨table, fun _ _ => rfl, ?_, fun _ _ => rfl⟩ rfl
    ⟨h.errands call, ?_, h.opens call⟩
  · intro other ne
    rw [calls]
    exact CallTable.find?_set_of_ne _ ne s
  · intro s' found
    rw [calls, CallTable.find?_set_self, Option.some.injEq] at found
    exact found ▸ sound

/-- A call that waits for nothing may leave the keyed cache. -/
theorem Sound.leave {k : KeyedCache BufferId StreamError}
    (table : k.table = c.keyed.table) (calls : k.calls = c.keyed.calls.erase call) :
    Sound a { c with keyed := k } := by
  refine h.sameBut free ⟨table, fun _ _ => rfl, ?_, fun _ _ => rfl⟩ rfl
    ⟨h.errands call, ?_, h.opens call⟩
  · intro other ne
    rw [calls]
    exact CallTable.find?_erase_of_ne _ ne
  · simp [calls]

/-- A call that waits for nothing may give up its errand. -/
theorem Sound.dropErrand : Sound a { c with errands := c.errands.erase call } := by
  refine h.sameBut free ⟨rfl, ?_, fun _ _ => rfl, fun _ _ => rfl⟩ rfl
    ⟨?_, h.stages call, h.opens call⟩
  · exact fun other ne => CallTable.find?_erase_of_ne _ ne
  · simp

/-- A call to open may come to hold a buffer that was cached. -/
theorem Sound.setOpen (o : OpenCall) (held : ∀ id, o.stage = .holding id → a.stored id) :
    Sound a { c with opens := c.opens.set call o } := by
  refine h.sameBut free ⟨rfl, fun _ _ => rfl, fun _ _ => rfl, ?_⟩ rfl
    ⟨h.errands call, h.stages call, ?_⟩
  · exact fun other ne => CallTable.find?_set_of_ne _ ne o
  · intro o' id found holding
    rw [CallTable.find?_set_self, Option.some.injEq] at found
    exact held id (found ▸ holding)

/-- A call to open may end. -/
theorem Sound.finishOpen (result : Except StreamError BufferId) :
    Sound a (c.finishOpen call result).1 := by
  refine h.sameBut free ⟨rfl, fun _ _ => rfl, fun _ _ => rfl, ?_⟩ rfl
    ⟨h.errands call, h.stages call, ?_⟩
  · exact fun other ne => CallTable.find?_erase_of_ne _ ne
  · simp [StreamCache.finishOpen]

/-- A call to open may ask the keyed cache for its key. -/
theorem Sound.fetch (now : Nat) (o : OpenCall) : Sound a (c.fetch now call o) :=
  (h.setOpen free { o with stage := .fetching } nofun).moveTo
    (s := .requested (.getOrUpdate o.key c.ttl)) free trivial rfl rfl

/-- A call to open that has got its answer from the keyed cache holds what is cached, starts again
or is over. -/
theorem Sound.answer (now : Nat) (reply : KeyedCache.Reply BufferId StreamError)
    (known : ∀ id, reply = .result (.ok id) → a.stored id) :
    Sound a (c.answer now call reply).1 := by
  unfold StreamCache.answer
  split
  · exact h
  · rename_i o _
    split
    · rename_i id _
      refine h.setOpen free { o with stage := .holding id } ?_
      rintro _ ⟨⟩
      exact known id rfl
    · exact h.finishOpen free _
    · split
      · exact h.fetch free now o
      · exact h.finishOpen free _
    · exact h

end

/-- A generator that is let run starts a buffer, unless the call has used its way to open one. -/
theorem Sound.generate (h : Sound a c) (free : NoRows c call) (now : Nat) (key : String) :
    Sound a (c.generate now call key).1 := by
  unfold StreamCache.generate
  split
  · rename_i o found
    split
    · have m := moved_applyBuffer
        { c with
          buffers := c.buffers ++ [Buffer.create key c.options o.transform]
          opens := c.opens.set call { o with unused := false }
          errands := c.errands.set call (.starting c.buffers.length none) }
        now List.getElem?_concat_length (.join call)
      dsimp only
      generalize (StreamCache.applyBuffer _ now c.buffers.length (.join call)).1 = d at m ⊢
      have errands : ∀ other, d.errands.find? other =
          (c.errands.set call (.starting c.buffers.length none)).find? other :=
        fun other => m.errand_of_unanswered rfl
      refine h.start free ⟨m.keyed ▸ rfl, ?_, ?_, ?_⟩
        (Buffer.starting_join key c.options o.transform call) ?_ ?_ ?_ ?_
      · intro other ne
        rw [errands, CallTable.find?_set_of_ne _ ne]
      · exact fun other _ => by rw [m.keyed]
      · intro other ne
        rw [m.opens, CallTable.find?_set_of_ne _ ne]
      · rw [m.buffers, List.set_append_right _ _ (Nat.le_refl _), Nat.sub_self]
        rfl
      · rw [errands, CallTable.find?_set_self]
      · exact congrArg (·.calls.find? call) m.keyed
      · intro o' id hs holding
        rw [m.opens, CallTable.find?_set_self, Option.some.injEq] at hs
        subst hs
        exact h.opens call o id found holding
    · simp only [KeyedCache.apply]
      split
      · rename_i key ttl running
        exact h.moveTo (s := .generated key ttl (.error .released)) free trivial rfl rfl
      · exact h
  · exact h

section

variable (c : StreamCache) (now : Nat)

/-- Nobody is handed a buffer when a generator starts. -/
@[simp] theorem handedIn_generate (call : CallId) (key : String) :
    handedIn (c.generate now call key).2 = [] := by
  unfold StreamCache.generate
  split
  · split
    · exact handedIn_applyBuffer _ _ _ _
    · rfl
  · rfl

/-- Nobody is handed a buffer when a hook starts. -/
@[simp] theorem handedIn_evict (call : CallId) (result : Except StreamError BufferId) :
    handedIn (c.evict now call result).2 = [] := by
  cases result with
  | ok id => exact handedIn_applyBuffer _ _ _ _
  | error e => rfl

/-- Nobody is handed a buffer by what the keyed cache answers: a call to open has to register first.
-/
@[simp] theorem handedIn_answer (call : CallId)
    (reply : KeyedCache.Reply BufferId StreamError) :
    handedIn (c.answer now call reply).2 = [] := by
  unfold StreamCache.answer
  split
  · rfl
  · split
    · rfl
    · rfl
    · split <;> rfl
    · rfl

/-- What happens to a buffer leaves the keyed cache alone. -/
theorem keyed_applyBuffer (id : BufferId) (event : Buffer.Event) :
    (c.applyBuffer now id event).1.keyed = c.keyed := by
  unfold StreamCache.applyBuffer
  split
  · rfl
  · rw [relay_fst]

/-- The start of a hook leaves the keyed cache alone. -/
theorem keyed_evict (call : CallId) (result : Except StreamError BufferId) :
    (c.evict now call result).1.keyed = c.keyed := by
  cases result with
  | ok id => exact keyed_applyBuffer _ _ _ _
  | error e => rfl

/-- What is done with an answer of the keyed cache leaves its table alone. -/
theorem table_answer (call : CallId) (reply : KeyedCache.Reply BufferId StreamError) :
    (c.answer now call reply).1.keyed.table = c.keyed.table := by
  unfold StreamCache.answer
  split
  · rfl
  · split
    · rfl
    · rfl
    · split <;> rfl
    · rfl

end

/-- The books after a step that closes no buffer for a consumer. -/
def Account.after (a : Account) (r : StreamCache × List Notice) : Account where
  stored id := a.stored id ∨ id ∈ buffersIn r.1.keyed.table
  opened id := a.opened id + (handedIn r.2).count id
  closed := a.closed
  owed := []

/-- Books that balance after a step are the books after that step, if they differ as the step says.
-/
theorem Sound.settle {a' : Account} {r : StreamCache × List Notice} (h : Sound a' r.1)
    (stored : ∀ id, a'.stored id ↔ a.stored id ∨ id ∈ buffersIn r.1.keyed.table)
    (opened : ∀ id, a'.opened id = a.opened id + (handedIn r.2).count id)
    (closed : a'.closed = a.closed) (settled : a'.owed = []) : Sound (a.after r) r.1 := by
  have same : a' = a.after r :=
    Account.ext (funext fun id => propext (stored id)) (funext opened) closed settled
  exact same ▸ h

/-- The books balance after a step that stores a result and hands out nothing. -/
theorem Sound.settle_stored {r : StreamCache × List Notice} {key : String}
    {t : Table BufferId StreamError} {entry : Entry BufferId StreamError}
    {result : Except StreamError BufferId}
    (h : Sound { a with stored := fun id => a.stored id ∨ result = .ok id, owed := [] } r.1)
    (same : entry.result = result) (table : r.1.keyed.table = t.insert key entry)
    (none_ : handedIn r.2 = []) : Sound (a.after r) r.1 := by
  refine h.settle (fun id => ⟨?_, ?_⟩) (fun id => ?_) rfl rfl
  · refine Or.imp_right fun stores => ?_
    rw [table]
    exact mem_buffersIn_of_find? (Table.find?_insert_self _ key entry) (same.trans stores)
  · exact fun either => either.elim .inl (h.cached id)
  · rw [none_, List.count_nil, Nat.add_zero]

/-- A step that stores nothing new and hands out nothing leaves the books as they are. -/
theorem Sound.quiet {r : StreamCache × List Notice} (h : Sound a r.1) (settled : a.owed = [])
    (none_ : handedIn r.2 = []) : Sound (a.after r) r.1 := by
  refine h.settle (fun id => ?_) (fun id => ?_) rfl settled
  · exact ⟨.inl, fun either => either.elim (fun old => old) (h.cached id)⟩
  · rw [none_, List.count_nil, Nat.add_zero]

/-- The books after such a step, corrected where a buffer was closed too often. -/
def SoundAfter (a : Account) (r : StreamCache × List Notice) : Prop :=
  ∃ closed, a.Corrects closed ∧ Sound { a.after r with closed } r.1

/-- Books that balance as they are need no correction. -/
theorem Sound.uncorrected {r : StreamCache × List Notice} (h : Sound (a.after r) r.1) :
    SoundAfter a r :=
  ⟨a.closed, fun _ _ => rfl, h⟩

/-- A call at a stage at which it brings nothing has nothing in hand that could be unsound. -/
theorem stageSound_of_isPlain {s : KeyedCache.Stage BufferId StreamError}
    (plain : s.isPlain = true) (stored : BufferId → Prop) (buffers : List Buffer) :
    StageSound stored buffers call s := by
  cases s with
  | missed | queued | sweeping => trivial
  | requested | generating | generated | evicting => cases plain

/-- A call that waits for a hook has nothing in hand, unless it is going to answer a result. -/
theorem stageSound_evicting {next : KeyedCache.Next BufferId StreamError}
    (plain : ∀ result, next ≠ .reply (.result result)) (stored : BufferId → Prop)
    (buffers : List Buffer) : StageSound stored buffers call (.evicting next) := by
  cases next with
  | sweep => trivial
  | reply reply =>
      cases reply with
      | result result => exact absurd rfl (plain result)
      | _ => trivial

/-- A call that is under way in the keyed cache and has no errand waits on no buffer. -/
theorem Sound.noRows_of_stage (h : Sound a c) (errand : c.errands.find? call = none)
    {s : KeyedCache.Stage BufferId StreamError} (found : c.keyed.calls.find? call = some s) :
    NoRows c call := by
  refine h.noRows (fun unknown => ?_) (fun id => ?_) (fun id => ?_)
  · simp [unknown.stage] at found
  · simp [errand]
  · simp [errand]

/-- The books stay as they are when the keyed cache answers a call with a result that was stored. -/
theorem Sound.heed_answer (h : Sound a c) (free : NoRows c call) (now : Nat)
    (k : KeyedCache BufferId StreamError) (reply : KeyedCache.Reply BufferId StreamError)
    (known : ∀ id, reply = .result (.ok id) → a.stored id) :
    let r := heed now c (k.answer call reply).2
    Sound a r.1 ∧ r.1.keyed.table = c.keyed.table ∧ handedIn r.2 = [] := by
  intro r
  obtain ⟨ready, heard⟩ := StreamCache.heed_answer now c k call reply
  have answered : r = _ := heard
  rw [answered]
  exact ⟨h.answer free now reply known, table_answer c now call reply, by simp⟩

/-- The call that stores a result has nothing in hand in the meantime. -/
theorem Sound.insert_own (h : Sound a c) (settled : a.owed = []) (free : NoRows c call)
    (errand : c.errands.find? call = none) (key : String) {entry : Entry BufferId StreamError}
    (new : ∀ id, entry.result = .ok id → Fresh a.stored c.buffers call id) :
    Sound { a with
        stored := fun id => a.stored id ∨ entry.result = .ok id
        owed := bufferAt c.keyed.table key }
      { c with keyed := { c.keyed with calls := c.keyed.calls.erase call }.put key entry } := by
  have left : Sound a { c with keyed := { c.keyed with calls := c.keyed.calls.erase call } } :=
    h.leave free rfl rfl
  exact left.insert key entry new settled errand (CallTable.find?_erase_self _ _)

section

variable (h : Sound a c) (settled : a.owed = []) (free : NoRows c call)
  (errand : c.errands.find? call = none) (now : Nat) {key : String}
  {entry : Entry BufferId StreamError}
  (new : ∀ id, entry.result = .ok id → Fresh a.stored c.buffers call id)
include h settled free errand new

/-- The books balance after a call has stored its result where there was no entry. -/
theorem Sound.heed_puts (absent : c.keyed.table.find? key = none) :
    let k := (c.keyed.put key entry).answer call (.result entry.result)
    let r := heed now { c with keyed := k.1 } k.2
    Sound (a.after r) r.1 := by
  intro k r
  have inserted := h.insert_own settled free errand key new
  have nothing : bufferAt c.keyed.table key = [] := by simp [bufferAt, absent]
  rw [nothing] at inserted
  have gone : Sound _ { c with keyed := k.1 } := inserted.sameBut free
    ⟨rfl, fun _ _ => rfl, fun _ _ => rfl, fun _ _ => rfl⟩ rfl
    ⟨inserted.errands call, inserted.stages call, inserted.opens call⟩
  obtain ⟨sound, table, none_⟩ := gone.heed_answer free now (c.keyed.put key entry)
    (.result entry.result) (fun id same => .inr (by simpa using same))
  exact sound.settle_stored rfl table none_

/-- The books balance after a call has stored its result in place of another entry, and has begun
the hook of that one. -/
theorem Sound.heed_displaces {old : Entry BufferId StreamError}
    (present : c.keyed.table.find? key = some old) :
    let k := (c.keyed.put key entry).moveTo call (.evicting (.reply (.result entry.result)))
    let r := StreamCache.evict { c with keyed := k } now call old.result
    SoundAfter a r := by
  intro k r
  have inserted := h.insert_own settled free errand key new
  have owed : bufferAt c.keyed.table key = bufferOf old.result := by
    simp [bufferAt, present]
  rw [owed] at inserted
  let books : Account :=
    { a with stored := fun id => a.stored id ∨ entry.result = .ok id, owed := [] }
  have moved : Sound { books with owed := bufferOf old.result } { c with keyed := k } := by
    refine inserted.sameBut free ⟨rfl, fun _ _ => rfl, ?_, fun _ _ => rfl⟩ rfl
      ⟨inserted.errands call, ?_, inserted.opens call⟩
    · intro other ne
      exact (CallTable.find?_set_of_ne _ ne _).trans (CallTable.find?_erase_of_ne _ ne).symm
    · intro s found
      have stage : some (KeyedCache.Stage.evicting (.reply (.result entry.result))) = some s :=
        (CallTable.find?_set_self _ _ _).symm.trans found
      rw [Option.some.injEq] at stage
      subst stage
      cases entry.result with
      | ok id => exact .inr rfl
      | error e => trivial
  obtain ⟨closed, corrects, evicted⟩ := moved.evict free
    (fun id holds => .inl (h.cached id (mem_buffersIn_of_find? present holds))) now
  have table : r.1.keyed.table = c.keyed.table.insert key entry :=
    congrArg (·.table) (keyed_evict _ now call old.result)
  refine ⟨closed, corrects, ?_⟩
  exact Sound.settle_stored (a := { a with closed }) evicted rfl table (handedIn_evict _ _ _ _)

end

section

variable (h : Sound a c) (settled : a.owed = []) (free : NoRows c call)
include h settled free

/-- A removed entry is handed to the hook, which releases its buffer. -/
theorem Sound.heed_removes (now : Nat) {key : String} {entry : Entry BufferId StreamError}
    (present : c.keyed.table.find? key = some entry) {next : KeyedCache.Next BufferId StreamError}
    (plain : ∀ result, next ≠ .reply (.result result)) :
    let k := KeyedCache.evict { c.keyed with table := c.keyed.table.erase key } call key entry next
    SoundAfter a (heed now { c with keyed := k.1 } k.2) := by
  intro k
  have erased := h.erase settled present
  have moved : Sound { a with owed := bufferOf entry.result } { c with keyed := k.1 } :=
    erased.moveTo (s := .evicting next) free (stageSound_evicting plain _ _) rfl rfl
  have stored : ∀ id, entry.result = .ok id → a.stored id := fun id holds =>
    h.cached id (mem_buffersIn_of_find? present holds)
  obtain ⟨closed, corrects, evicted⟩ := moved.evict free stored now
  have heard : heed now { c with keyed := k.1 } k.2 =
      StreamCache.evict { c with keyed := k.1 } now call entry.result := by
    simp [k, KeyedCache.evict, heed]
  rw [heard]
  exact ⟨closed, corrects, evicted.quiet rfl (handedIn_evict _ _ _ _)⟩

/-- A generator's result is stored, and the entry that it displaces is handed to the hook. -/
theorem Sound.heed_stores (errand : c.errands.find? call = none) (now : Nat) {key : String}
    {ttl : Nat} {result : Except StreamError BufferId}
    (new : ∀ id, result = .ok id → Fresh a.stored c.buffers call id) :
    let k := c.keyed.store now call key ttl result (.result result)
    SoundAfter a (heed now { c with keyed := k.1 } k.2) := by
  intro k
  let entry : Entry BufferId StreamError := ⟨result, Clock.add? now ttl, c.keyed.nextSeq⟩
  have fresh : ∀ id, entry.result = .ok id → Fresh a.stored c.buffers call id := new
  cases displaced : c.keyed.table.find? key with
  | none =>
      have stores : k = (((c.keyed.put key entry).answer call (.result result)).1,
          .stored call key entry :: ((c.keyed.put key entry).answer call (.result result)).2) :=
        KeyedCache.store_of_absent c.keyed now call displaced ttl result _
      have heard : heed now { c with keyed := k.1 } k.2 = heed now { c with keyed := k.1 }
          ((c.keyed.put key entry).answer call (.result result)).2 := by
        simp [stores, heed]
      rw [heard, stores]
      exact (h.heed_puts settled free errand now fresh displaced).uncorrected
  | some old =>
      have stores : k = ((c.keyed.put key entry).moveTo call (.evicting (.reply (.result result))),
          [.stored call key entry, .evict call key old]) :=
        KeyedCache.store_of_present c.keyed now call displaced ttl result _
      have heard : heed now { c with keyed := k.1 } k.2 =
          StreamCache.evict { c with keyed := k.1 } now call old.result := by
        simp [stores, heed]
      rw [heard, stores]
      exact h.heed_displaces settled free errand now fresh displaced

/-- A step of the keyed cache that a call takes keeps the books. -/
theorem Sound.heed_callStep (errand : c.errands.find? call = none) (now : Nat)
    {stage : KeyedCache.Stage BufferId StreamError}
    (found : c.keyed.calls.find? call = some stage)
    {k : KeyedCache BufferId StreamError × List (KeyedCache.Notice BufferId StreamError)}
    (step : KeyedCache.CallStep c.keyed now call stage k) :
    SoundAfter a (heed now { c with keyed := k.1 } k.2) := by
  have sound := h.stages call stage found
  cases step with
  | answers _ reply known =>
      have left : Sound a { c with keyed := (c.keyed.answer call reply).1 } :=
        h.leave free rfl rfl
      obtain ⟨kept, -, none_⟩ := left.heed_answer free now c.keyed reply fun id same => by
        obtain ⟨key, entry, held, holds⟩ := known id same
        exact h.cached id (mem_buffersIn_of_find? held holds)
      exact (kept.quiet settled none_).uncorrected
  | goesOn _ next lanes plain =>
      have moved := h.moveTo (s := next) (k := { c.keyed with lanes }.moveTo call next) free
        (stageSound_of_isPlain plain _ _) rfl rfl
      exact Sound.uncorrected (r := (_, _)) (moved.quiet settled rfl)
  | generates key ttl =>
      have moved := h.moveTo (s := .generating key ttl) (k := c.keyed.moveTo call _) free
        trivial rfl rfl
      simp only [heed, List.append_nil]
      exact ((moved.generate free now key).quiet settled (handedIn_generate _ _ _ _)).uncorrected
  | stores key ttl result =>
      exact h.heed_stores settled free errand now fun id holds => by
        subst holds
        exact sound
  | sets => exact sound.elim
  | removes _ key entry next present plain =>
      exact h.heed_removes settled free now present plain

end

/-- A call to open registers with the buffer that it holds, or begins to unlink it if nobody is left
there. -/
theorem Sound.register (h : Sound a c) (settled : a.owed = []) (free : NoRows c call)
    (errand : c.errands.find? call = none) {id : BufferId} (stored : a.stored id) (now : Nat)
    (o : OpenCall) :
    Sound (a.after (c.register now call o id)) (c.register now call o id).1 := by
  obtain ⟨b, hb, kept⟩ := h.kept id stored
  -- Between the lookup and this step the entry may have gone, and with it the last reference.
  by_cases unused : b.refs = 0
  · have refused : c.register now call o id =
        StreamCache.applyKeyed { c with opens := c.opens.set call { o with stage := .unlinking } }
          now (.call call (.removeIf o.key (isBuffer id))) := by
      simp [StreamCache.register, hb, Buffer.retain, unused]
    rw [refused]
    have unlinking : Sound a { c with opens := c.opens.set call { o with stage := .unlinking } } :=
      h.setOpen free { o with stage := .unlinking } (by simp)
    have moved := unlinking.moveTo (s := .requested (.removeIf o.key (isBuffer id)))
      (k := c.keyed.moveTo call _) free trivial rfl rfl
    exact moved.quiet settled rfl
  · have registered : c.register now call o id =
        StreamCache.finishOpen { c with buffers := c.buffers.set id { b with refs := b.refs + 1 } }
          call (.ok id) := by
      simp [StreamCache.register, hb, Buffer.retain, unused]
    rw [registered]
    have sound : Sound { a with opened := fun other => a.opened other + [id].count other }
        (StreamCache.finishOpen { c with
          buffers := c.buffers.set id { b with refs := b.refs + 1 } } call (.ok id)).1 := by
      refine h.setStored free ⟨rfl, fun _ _ => rfl, fun _ _ => rfl, ?_⟩ stored hb rfl
        rfl ?_ ⟨kept.consistent.with_refs _ (Nat.succ_pos _), kept.read, ?_, ?_⟩
        (fun row member => .inl member) ⟨?_, ?_, ?_⟩
      · exact fun other ne => CallTable.find?_erase_of_ne _ ne
      · intro other ne
        simp [Ne.symm ne]
      · simp [kept.closed, unused]
      · have balance := kept.balance
        simp only [List.count_singleton_self]
        omega
      · simp [StreamCache.finishOpen, errand]
      · intro s found
        exact (h.stages call s found).mono fun other b' new hb' ready => by
          have ne : other ≠ id := fun he => new (he ▸ stored)
          exact ⟨b', (getElem?_set hb other).trans ((if_neg ne).trans hb'), ready⟩
      · simp [StreamCache.finishOpen]
    refine sound.settle (fun other => ⟨.inl, ?_⟩) (fun other => rfl) rfl settled
    exact fun either => either.elim (fun old => old) (h.cached other)

/-- The books balance after a generator has brought a result that is new. -/
theorem Sound.generated (h : Sound a c) (settled : a.owed = []) (free : NoRows c call) (now : Nat)
    {result : Except StreamError BufferId}
    (fresh : ∀ id, result = .ok id → Fresh a.stored c.buffers call id) :
    let r := c.applyKeyed now (.generated call result)
    Sound (a.after r) r.1 := by
  intro r
  simp only [r, applyKeyed, KeyedCache.apply]
  split
  · rename_i key ttl found
    refine Sound.quiet (r := (_, _)) ?_ settled rfl
    refine h.moveTo (s := .generated key ttl result) free ?_ rfl rfl
    cases holds : result with
    | ok id => exact fresh id holds
    | error e => trivial
  · exact Sound.quiet (r := (_, _)) h settled rfl

/-- The books balance after a hook is over. -/
theorem Sound.evicted (h : Sound a c) (settled : a.owed = []) (free : NoRows c call) (now : Nat) :
    let r := c.applyKeyed now (.evicted call)
    Sound (a.after r) r.1 := by
  intro r
  simp only [r, applyKeyed, KeyedCache.apply]
  split
  · rename_i reply found
    have left : Sound a { c with keyed := (c.keyed.answer call reply).1 } := h.leave free rfl rfl
    obtain ⟨kept, -, none_⟩ := left.heed_answer free now c.keyed reply fun id same => by
      subst same
      exact h.stages call _ found
    exact kept.quiet settled none_
  · rename_i rest count sweep found
    refine Sound.quiet (r := (_, _)) ?_ settled rfl
    exact h.moveTo (s := .sweeping rest count sweep) free trivial rfl rfl
  · exact Sound.quiet (r := (_, _)) h settled rfl

/-- The next step of a call keeps the books. -/
theorem Sound.resume (h : Sound a c) (settled : a.owed = []) (now : Nat)
    {r : StreamCache × List Notice} (step : c.resume now call = some r) : SoundAfter a r := by
  have busy : ∀ e, c.errands.find? call = some e → (∀ id, e ≠ .starting id none) →
      (∀ id, e ≠ .releasing id false) → NoRows c call := by
    intro e found notStarting notReleasing
    refine h.noRows (fun unknown => ?_) (fun id waits => ?_) (fun id waits => ?_)
    · simp [unknown.errand] at found
    · rw [found, Option.some.injEq] at waits
      exact notStarting id waits
    · rw [found, Option.some.injEq] at waits
      exact notReleasing id waits
  unfold StreamCache.resume at step
  split at step
  · rename_i id result found
    have free := busy _ found nofun nofun
    cases step
    refine ((h.dropErrand free).generated settled free now ?_).uncorrected
    intro other holds
    cases result with
    | ok _ =>
        cases holds
        exact h.errands call _ found
    | error e => cases holds
  · cases step
  · rename_i id found
    have free := busy _ found nofun nofun
    cases step
    exact ((h.dropErrand free).evicted settled free now).uncorrected
  · cases step
  · rename_i found
    have free := busy _ found nofun nofun
    cases step
    exact ((h.dropErrand free).evicted settled free now).uncorrected
  · rename_i errand
    split at step
    · rename_i key transform unused id found
      have free : NoRows c call := by
        refine h.noRows (fun unknown => ?_) (fun id => ?_) (fun id => ?_)
        · simp [unknown.opening] at found
        · simp [errand]
        · simp [errand]
      cases step
      exact (h.register settled free errand (h.opens call _ id found rfl) now _).uncorrected
    · rw [Option.map_eq_some_iff] at step
      obtain ⟨k, taken, rfl⟩ := step
      obtain ⟨stage, found, move⟩ := KeyedCache.callStep_resume c.keyed now call taken
      have free := h.noRows_of_stage errand found
      exact h.heed_callStep settled free errand now found move

/-- The books balance after a call has been given up. -/
theorem Sound.abort (h : Sound a c) (settled : a.owed = []) (now : Nat) (call : CallId) :
    Sound (a.after (c.abort now call)) (c.abort now call).1 := by
  rw [abort_eq]
  refine Sound.quiet (r := (_, _)) ?_ settled (handedIn_map_ready _)
  refine h.forget call ⟨rfl, ?_, ?_, ?_⟩ rfl (CallTable.find?_erase_self _ _)
    (CallTable.find?_erase_self _ _) (CallTable.find?_erase_self _ _)
  · exact fun other ne => CallTable.find?_erase_of_ne _ ne
  · exact fun other ne => CallTable.find?_erase_of_ne _ ne
  · exact fun other ne => CallTable.find?_erase_of_ne _ ne

/-- No call of this name is in progress, neither on the cache nor on any buffer. -/
def IsFree (c : StreamCache) (call : CallId) : Prop :=
  c.errands.find? call = none ∧ c.keyed.calls.find? call = none ∧ c.opens.find? call = none ∧
    ∀ b ∈ c.buffers, b.calls.find? call = none

instance (c : StreamCache) (call : CallId) : Decidable (c.IsFree call) :=
  inferInstanceAs (Decidable (_ ∧ _ ∧ _ ∧ _))

/-- A name that no call in progress has is unknown to the cache. -/
theorem IsFree.unknown (h : c.IsFree call) : c.Unknown call := ⟨h.1, h.2.1, h.2.2.1⟩

/-- A name that no call in progress has is on no buffer. -/
theorem IsFree.noRows (h : c.IsFree call) : NoRows c call := by
  intro id b hb kind member
  have absent := h.2.2.2 b (List.mem_of_getElem? hb)
  exact CallTable.find?_eq_none_iff.mp absent _ member rfl

/-- What can happen among consumers who use a cache of buffers as it is meant: the name of a call is
one that no call in progress has, nobody stores a buffer or registers with one past the cache, and a
consumer can only release a buffer. -/
def Permits (c : StreamCache) : Event → Prop
  | .open call _ _ => c.IsFree call
  | .call call (.remove _) => c.IsFree call
  | .call call .flush => c.IsFree call
  | .call call .purge => c.IsFree call
  | .call _ _ => False
  | .resume _ => True
  | .abort _ => True
  | .buffer _ (.release call) => c.IsFree call
  | .buffer _ (.pump _) => True
  | .buffer _ (.watch _) => True
  | .buffer _ _ => False

instance (c : StreamCache) : ∀ event, Decidable (c.Permits event)
  | .open call _ _ => inferInstanceAs (Decidable (c.IsFree call))
  | .call call (.remove _) => inferInstanceAs (Decidable (c.IsFree call))
  | .call call .flush => inferInstanceAs (Decidable (c.IsFree call))
  | .call call .purge => inferInstanceAs (Decidable (c.IsFree call))
  | .call _ (.get _) => inferInstanceAs (Decidable False)
  | .call _ (.getOrUpdate _ _) => inferInstanceAs (Decidable False)
  | .call _ (.set _ _ _) => inferInstanceAs (Decidable False)
  | .call _ (.removeIf _ _) => inferInstanceAs (Decidable False)
  | .resume _ => inferInstanceAs (Decidable True)
  | .abort _ => inferInstanceAs (Decidable True)
  | .buffer _ (.release call) => inferInstanceAs (Decidable (c.IsFree call))
  | .buffer _ (.pump _) => inferInstanceAs (Decidable True)
  | .buffer _ (.watch _) => inferInstanceAs (Decidable True)
  | .buffer _ (.join _) => inferInstanceAs (Decidable False)
  | .buffer _ .retain => inferInstanceAs (Decidable False)
  | .buffer _ (.abandon _) => inferInstanceAs (Decidable False)

/-- The buffer that an event closes for a consumer. -/
def closedBy : Event → List BufferId
  | .buffer id (.release _) => [id]
  | _ => []

/-- An event closes a buffer at most once for a consumer. -/
theorem count_closedBy_le (event : Event) (id : BufferId) : (closedBy event).count id ≤ 1 := by
  unfold closedBy
  split
  · exact List.count_le_length
  · exact Nat.zero_le 1

/-- The books after any event. -/
def Account.next (a : Account) (event : Event) (r : StreamCache × List Notice) : Account :=
  { a.after r with closed := fun id => a.closed id + (closedBy event).count id }

/-- A consumer who closes a buffer takes one of the references, if there are any left. -/
theorem Sound.close (h : Sound a c) (settled : a.owed = []) (free : c.IsFree call) {id : BufferId}
    (handed : 0 < a.opened id) (now : Nat) :
    let event : Event := .buffer id (.release call)
    ∃ closed, (∀ other, a.closed other + (closedBy event).count other ≤ a.opened other →
        closed other = a.closed other + (closedBy event).count other) ∧
      Sound { a.next event (c.apply now event) with closed } (c.apply now event).1 := by
  intro event
  -- Only what was ever cached is handed out, so only that can be closed.
  have stored : a.stored id := by
    by_contra new
    have opened := (h.untouched id new).1
    omega
  obtain ⟨b, hb, kept⟩ := h.kept id stored
  have balance := kept.balance
  rw [settled, List.count_nil] at balance
  let closed := fun other => a.closed other + if other = id ∧ b.refs ≠ 0 then 1 else 0
  have sound : Sound { a with closed } (c.applyBuffer now id (.release call)).1 := by
    refine h.release free.noRows stored hb (.inr free.unknown) ?_ ?_ ?_ ?_ now
    · rfl
    · exact fun other ne => ⟨rfl, by simp [closed, ne], rfl⟩
    · rfl
    · by_cases unused : b.refs = 0
      · simp [closed, unused]
      · simp only [closed, unused, ne_eq, not_false_eq_true, and_self, if_true]
        omega
  refine ⟨closed, fun other fair => ?_, sound.quiet settled (handedIn_applyBuffer _ _ _ _)⟩
  by_cases same : other = id
  · subst same
    simp only [event, closedBy, List.count_singleton_self] at fair
    have used : b.refs ≠ 0 := by omega
    simp [closed, event, closedBy, used]
  · simp [closed, event, closedBy, same, Ne.symm same]

/-- The books balance after a call has begun that stores nothing itself. -/
theorem Sound.begin (h : Sound a c) (settled : a.owed = []) (free : c.IsFree call) (now : Nat)
    {request : KeyedCache.Request BufferId StreamError}
    (upkeep : ∀ key ttl value, request ≠ .set key ttl value) :
    Sound (a.after (c.applyKeyed now (.call call request)))
      (c.applyKeyed now (.call call request)).1 := by
  refine Sound.quiet (r := (_, _)) ?_ settled rfl
  refine h.moveTo (s := .requested request) free.noRows ?_ rfl rfl
  cases request with
  | set key ttl value => exact upkeep key ttl value rfl
  | _ => trivial

/-- Whatever can happen among such consumers, the cache stays sound, with the books corrected where
a buffer was closed more often than it was handed out. -/
theorem Sound.apply_corrected (h : Sound a c) (settled : a.owed = []) (now : Nat) {event : Event}
    (permitted : c.Permits event) (handed : ∀ id ∈ closedBy event, 0 < a.opened id) :
    ∃ closed, (∀ id, a.closed id + (closedBy event).count id ≤ a.opened id →
        closed id = a.closed id + (closedBy event).count id) ∧
      Sound { a.next event (c.apply now event) with closed } (c.apply now event).1 := by
  have calm : closedBy event = [] → SoundAfter a (c.apply now event) →
      ∃ closed, (∀ id, a.closed id + (closedBy event).count id ≤ a.opened id →
          closed id = a.closed id + (closedBy event).count id) ∧
        Sound { a.next event (c.apply now event) with closed } (c.apply now event).1 := by
    rintro none_ ⟨closed, corrects, sound⟩
    rw [none_]
    exact ⟨closed, corrects, sound⟩
  have unasked : ∀ id {event : Buffer.Event}, event.isCall = false →
      SoundAfter a (c.applyBuffer now id event) := fun id _ other =>
    ((h.applyBuffer now id other).quiet settled (handedIn_applyBuffer _ _ _ _)).uncorrected
  cases event with
  | «open» call key transform =>
      have free : c.IsFree call := permitted
      refine calm rfl (Sound.uncorrected (Sound.quiet (r := (_, _)) ?_ settled rfl))
      exact h.fetch free.noRows now ⟨key, transform, true, .fetching⟩
  | call call request =>
      refine calm rfl ?_
      cases request with
      | remove | flush | purge =>
          refine Sound.uncorrected (h.begin settled permitted now ?_)
          rintro _ _ _ ⟨⟩
      | get | getOrUpdate | set | removeIf => exact permitted.elim
  | resume call =>
      refine calm rfl ?_
      simp only [StreamCache.apply]
      cases step : c.resume now call with
      | none => exact Sound.uncorrected (Sound.quiet (r := (_, _)) h settled rfl)
      | some r => exact h.resume settled now step
  | abort call => exact calm rfl (h.abort settled now call).uncorrected
  | buffer id event =>
      cases event with
      | release call => exact h.close settled permitted (handed id (by simp [closedBy])) now
      | pump event => exact calm rfl (unasked id rfl)
      | watch => exact calm rfl (unasked id rfl)
      | join | retain | abandon => exact permitted.elim

/-- Among consumers who close no buffer more often than they were handed it, there is nothing to
correct. -/
theorem Sound.apply (h : Sound a c) (settled : a.owed = [])
    (fair : ∀ id, a.closed id ≤ a.opened id) (now : Nat) {event : Event}
    (permitted : c.Permits event)
    (owned : ∀ id ∈ closedBy event, a.closed id < a.opened id) :
    Sound (a.next event (c.apply now event)) (c.apply now event).1 := by
  obtain ⟨closed, counted, sound⟩ := h.apply_corrected settled now permitted
    fun id member => Nat.lt_of_le_of_lt (Nat.zero_le _) (owned id member)
  have same : { a.next event (c.apply now event) with closed } =
      a.next event (c.apply now event) := by
    refine Account.ext rfl rfl (funext fun id => counted id ?_) rfl
    by_cases member : id ∈ closedBy event
    · have once : (closedBy event).count id ≤ 1 := count_closedBy_le event id
      have := owned id member
      omega
    · rw [List.count_eq_zero.mpr member]
      exact fair id
  rwa [same] at sound

end CachedStreams.StreamCache
