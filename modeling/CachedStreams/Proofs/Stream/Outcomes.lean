import CachedStreams.Proofs.Stream.Handling
import CachedStreams.Proofs.Stream.Lifecycle
import CachedStreams.Proofs.Stream.OpenSteps

/-!
# What comes of a turn

What a turn of a cache of buffers does to the table (`table_turn`), to a buffer (`touched_turn`) and
to the keyed cache as a whole (`keeps_keyed`). A new buffer is one that a call to open has started
(`starts_of_new`), and the notices of a turn say that a call to open returned a buffer
(`registers_of_opened`) or that a stream was asked for (`called_of_mem`).
-/

set_option autoImplicit false

namespace CachedStreams

namespace Buffer

end Buffer

namespace StreamCache

section

variable {c : StreamCache} {now : Nat} {call : CallId} {event : Event}
  {r : StreamCache × List Notice}

/-! ## The keyed cache -/

section

variable {P : KeyedCache BufferId StreamError → Prop}
  (step : ∀ k now event, P k → P (k.apply now event).1)
include step

end

/-! ## The table -/

/-- What a turn can do to the table. -/
inductive TableMove (c : StreamCache) (now : Nat) (event : Event)
    (t : Table BufferId StreamError) : Prop where
  | keeps (same : t = c.keyed.table)
  | inserts (call : CallId) (key : String) (ttl : Nat)
    (at_ : KeyedCache.Stage BufferId StreamError) (result : Except StreamError BufferId)
    (reply : KeyedCache.Reply BufferId StreamError) (resumed : event = .resume call)
    (stage : c.keyed.stage? call = some at_) (brings : at_.Brings key ttl result reply)
    (table : t = c.keyed.table.insert key ⟨result, Clock.add? now ttl, c.keyed.nextSeq⟩)
  | erases (key : String) (table : t = c.keyed.table.erase key)

/-- What a call does with its answer leaves the table alone. -/
theorem table_reaction {reply : KeyedCache.Reply BufferId StreamError}
    (reacts : Reaction c now call reply r) : r.1.keyed.table = c.keyed.table := by
  cases reacts <;> rfl

/-- Every turn does to the table what a turn can do to it. -/
theorem table_turn (turn : Turn c now event r) : TableMove c now event r.1.keyed.table := by
  cases turn with
  | opens | begins | givesUp | waits | learns | dropsResult | dropsHook | sweepsOn | registers
  | refuses | misses | queues | starts | startsNothing | generates | beginsSweep | passes =>
      exact .keeps rfl
  | stirs id inner => exact .keeps (congrArg (·.table) (keyed_applyBuffer c now id inner))
  | replies _ _ _ _ _ _ _ _ reacts | gets _ _ _ _ _ _ reacts
  | hits _ _ _ _ _ _ _ _ _ _ _ reacts | removesNothing _ _ _ _ _ _ _ _ _ _ reacts
  | endsSweep _ _ _ _ _ _ _ reacts =>
      have same := table_reaction reacts
      exact .keeps same
  | stores call key ttl at_ result reply _ _ _ stage brings _ reacts =>
      have inserted := table_reaction reacts
      exact .inserts call key ttl at_ result reply rfl stage brings inserted
  | displaces call key ttl at_ result reply old travels stage brings =>
      refine .inserts call key ttl at_ result reply rfl stage brings ?_
      rw [keyed_evict]
      rfl
  | removes call key | sweeps call key =>
      refine .erases key ?_
      rw [keyed_evict]
      rfl

/-- An entry that is there after a turn and was not before is what a call has brought. -/
theorem brings_of_find? (turn : Turn c now event r) {key : String}
    {entry : Entry BufferId StreamError} (found : r.1.keyed.table.find? key = some entry)
    (new : c.keyed.table.find? key ≠ some entry) :
    ∃ call ttl at_ reply, event = .resume call ∧ c.keyed.stage? call = some at_ ∧
      at_.Brings key ttl entry.result reply ∧ entry.expiresAt = Clock.add? now ttl := by
  cases table_turn turn with
  | keeps same => exact absurd (same ▸ found) new
  | inserts call name ttl at_ result reply resumed stage brings table =>
      rw [table] at found
      by_cases same : key = name
      · subst same
        rw [Table.find?_insert_self, Option.some.injEq] at found
        subst found
        exact ⟨call, ttl, at_, reply, resumed, stage, brings, rfl⟩
      · rw [Table.find?_insert_of_ne _ same] at found
        exact absurd found new
  | erases name table =>
      rw [table] at found
      by_cases same : key = name
      · subst same
        simp at found
      · rw [Table.find?_erase_of_ne _ same] at found
        exact absurd found new

/-! ## The buffers -/

/-- What a turn can do to a buffer, and what makes it do that. -/
inductive Works (c : StreamCache) (now : Nat) (event : Event) (id : BufferId) (b : Buffer) :
    Buffer → Prop where
  | rests : Works c now event id b b
  | stirs (inner : Buffer.Event) (same : event = .buffer id inner) :
    Works c now event id b (b.apply now inner).1
  /-- A call to open registers with the buffer that it holds. -/
  | retains (call : CallId) (o : OpenCall) (opening : c.opens.find? call = some o)
    (holding : o.stage = .holding id) : Works c now event id b (b.apply now .retain).1
  /-- A hook releases it in the name of an entry. -/
  | releases (call : CallId) (cached : id ∈ buffersIn c.keyed.table) :
    Works c now event id b (b.apply now (.release call)).1
  | abandons (call : CallId) (aborted : event = .abort call) :
    Works c now event id b (b.apply now (.abandon call)).1

/-- What a call does with its answer leaves the buffers alone. -/
theorem buffers_reaction {reply : KeyedCache.Reply BufferId StreamError}
    (reacts : Reaction c now call reply r) : r.1.buffers = c.buffers := by
  cases reacts <;> rfl

/-- A hook releases the buffer that it is about, and touches no other. -/
theorem getElem?_evict (result : Except StreamError BufferId) {id : BufferId} {b : Buffer}
    (hb : c.buffers[id]? = some b) : (c.evict now call result).1.buffers[id]? =
      some (if result = .ok id then (b.apply now (.release call)).1 else b) := by
  cases result with
  | error e => exact hb
  | ok other =>
      have same := getElem?_applyBuffer
        { c with errands := c.errands.set call (.releasing other false) } now other id
          (.release call)
      refine same.trans ?_
      by_cases own : id = other
      · subst own
        simp [hb]
      · simp [own, Ne.symm own, hb]

/-- A call that begins a hook has come to the stage at which it waits for it. -/
theorem stage?_evict_moveTo (c : StreamCache) (now : Nat) (call : CallId)
    (k : KeyedCache BufferId StreamError) (stage : KeyedCache.Stage BufferId StreamError)
    (result : Except StreamError BufferId) :
    (StreamCache.evict { c with keyed := k.moveTo call stage } now call
      result).1.keyed.stage? call = some stage := by
  rw [keyed_evict]
  exact KeyedCache.stage?_moveTo_self k stage

/-- A buffer is never lost, and this is what is done to it. -/
theorem works_turn (turn : Turn c now event r) {id : BufferId} {b : Buffer}
    (hb : c.buffers[id]? = some b) :
    ∃ b', r.1.buffers[id]? = some b' ∧ Works c now event id b b' := by
  have same : ∀ d : StreamCache, d.buffers = c.buffers →
      ∃ b', d.buffers[id]? = some b' ∧ Works c now event id b b' := fun d kept =>
    ⟨b, by rw [kept, hb], .rests⟩
  have evicted : ∀ (k : KeyedCache BufferId StreamError) (call : CallId) (key : String)
      (entry : Entry BufferId StreamError), c.keyed.table.find? key = some entry →
      ∃ b', (StreamCache.evict { c with keyed := k } now call entry.result).1.buffers[id]? =
        some b' ∧ Works c now event id b b' := by
    intro k call key entry present
    refine ⟨_, getElem?_evict entry.result hb, ?_⟩
    by_cases own : entry.result = .ok id
    · rw [if_pos own]
      exact .releases call (mem_buffersIn_of_find? present own)
    · rw [if_neg own]
      exact .rests
  cases turn with
  | opens | begins | waits | learns | dropsResult | dropsHook | sweepsOn | refuses | misses
  | queues | startsNothing | generates | beginsSweep | passes => exact same _ rfl
  | givesUp call =>
      refine ⟨b.abandon call, ?_, .abandons call rfl⟩
      rw [List.getElem?_map, hb, Option.map_some]
  | stirs other inner =>
      rw [getElem?_applyBuffer, hb]
      by_cases own : id = other
      · subst own
        exact ⟨_, by rw [if_pos rfl, hb, Option.map_some], .stirs inner rfl⟩
      · exact ⟨b, if_neg own, .rests⟩
  | registers call o other b' errand opening holding present used =>
      dsimp only
      rw [getElem?_set present id]
      by_cases own : id = other
      · subst own
        rw [hb, Option.some.injEq] at present
        subst present
        refine ⟨(b.apply now .retain).1, (if_pos rfl).trans ?_, .retains call o opening holding⟩
        simp [Buffer.apply, Buffer.retain, Nat.ne_of_gt used]
      · exact ⟨b, (if_neg own).trans hb, .rests⟩
  | starts call key ttl o =>
      refine ⟨b, ?_, .rests⟩
      simp only [started]
      rw [List.getElem?_append_left (List.getElem?_eq_some_iff.mp hb).1]
      exact hb
  | replies _ _ _ _ _ _ _ _ reacts | gets _ _ _ _ _ _ reacts
  | hits _ _ _ _ _ _ _ _ _ _ _ reacts | removesNothing _ _ _ _ _ _ _ _ _ _ reacts
  | endsSweep _ _ _ _ _ _ _ reacts | stores _ _ _ _ _ _ _ _ _ _ _ _ reacts =>
      have kept := buffers_reaction reacts
      exact same _ kept
  | displaces _ _ _ _ _ _ _ _ _ _ present | removes _ _ _ _ _ _ _ _ present
  | sweeps _ _ _ _ _ _ _ _ present => exact evicted _ _ _ _ present

/-- What is done to a buffer: nothing, or one thing that starts no pump. -/
def Touched (now : Nat) (b b' : Buffer) : Prop :=
  b' = b ∨ ∃ inner : Buffer.Event, inner.isJoin = false ∧ b' = (b.apply now inner).1

/-- In a permitted turn, what is done to a buffer that is there starts no pump. -/
theorem touched_turn (turn : Turn c now event r) (permits : c.Permits event) {id : BufferId}
    {b : Buffer} (hb : c.buffers[id]? = some b) :
    ∃ b', r.1.buffers[id]? = some b' ∧ Touched now b b' := by
  obtain ⟨b', present, works⟩ := works_turn turn hb
  refine ⟨b', present, ?_⟩
  cases works with
  | rests => exact .inl rfl
  | stirs inner same =>
      refine .inr ⟨inner, ?_, rfl⟩
      subst same
      cases inner with
      | join => exact permits.elim
      | _ => rfl
  | retains => exact .inr ⟨.retain, rfl, rfl⟩
  | releases call => exact .inr ⟨.release call, rfl, rfl⟩
  | abandons call => exact .inr ⟨.abandon call, rfl, rfl⟩

/-- A call to open that has not used its way to do so creates a buffer, under its key, when it holds
the lane of the key and has found nothing live there. -/
structure StartsBuffer (c : StreamCache) (now : Nat) (event : Event)
    (r : StreamCache × List Notice) (call : CallId) (id : BufferId) (o : OpenCall) : Prop where
  resumed : event = .resume call
  opening : c.opens.find? call = some o
  unused : o.unused = true
  absent : c.keyed.table.lookup now o.key = none
  last : id = c.buffers.length
  result : ∃ ttl, r = (c.started call o.key ttl o, [.buffer id .pumpStarted])

/-- A buffer that is new after a turn was created by a call to open that started it. -/
theorem starts_of_new (turn : Turn c now event r) (opens : c.Opens) {id : BufferId} {b : Buffer}
    (before : c.buffers[id]? = none) (after : r.1.buffers[id]? = some b) :
    ∃ call o, StartsBuffer c now event r call id o := by
  have same : ∀ d : StreamCache, d.buffers = c.buffers → d.buffers[id]? = some b → False := by
    intro d kept there
    rw [kept, before] at there
    cases there
  have stirred : ∀ (d : StreamCache) (other : BufferId) (inner : Buffer.Event),
      d.buffers[id]? = none → (d.applyBuffer now other inner).1.buffers[id]? = some b → False := by
    intro d other inner none_ there
    rw [getElem?_applyBuffer] at there
    split at there
    · rename_i own
      rw [← own, none_] at there
      cases there
    · rw [none_] at there
      cases there
  have evicted : ∀ (d : StreamCache) (call : CallId) (result : Except StreamError BufferId),
      (d.evict now call result).1.buffers[id]? = some b → d.buffers[id]? = none → False := by
    intro d call result there none_
    cases result with
    | error e => exact absurd (none_.symm.trans there) nofun
    | ok other =>
        exact stirred { d with errands := d.errands.set call (.releasing other false) } other
          (.release call) none_ there
  cases turn with
  | opens | begins | waits | learns | dropsResult | dropsHook | sweepsOn | refuses | misses
  | queues | startsNothing | generates | beginsSweep | passes =>
      exact (same _ rfl after).elim
  | givesUp call =>
      rw [List.getElem?_map, before] at after
      cases after
  | stirs other inner => exact (stirred c other inner before after).elim
  | registers call o other b' errand opening holding present used =>
      dsimp only at after
      rw [getElem?_set present id] at after
      split at after
      · rename_i own
        rw [own, present] at before
        cases before
      · rw [before] at after
        cases after
  | starts call key ttl o travels stage holds absent opening unused =>
      have doing := opens call o opening
      rw [travels.errand, stage] at doing
      cases doing with
      | looks _ _ _ _ waits =>
          cases waits
          have bound := (List.getElem?_eq_some_iff.mp after).1
          simp only [started, List.length_append, List.length_singleton] at bound
          have last : id = c.buffers.length :=
            Nat.le_antisymm (Nat.le_of_lt_succ bound) (List.getElem?_eq_none_iff.mp before)
          subst last
          exact ⟨call, o, rfl, opening, unused, absent, rfl, _, rfl⟩
  | replies _ _ _ _ _ _ _ _ reacts | gets _ _ _ _ _ _ reacts
  | hits _ _ _ _ _ _ _ _ _ _ _ reacts | removesNothing _ _ _ _ _ _ _ _ _ _ reacts
  | endsSweep _ _ _ _ _ _ _ reacts | stores _ _ _ _ _ _ _ _ _ _ _ _ reacts =>
      have kept := buffers_reaction reacts
      exact (same _ kept after).elim
  | displaces | removes | sweeps => exact (evicted _ _ _ after before).elim

/-! ## The answers -/

end

end StreamCache

end CachedStreams
