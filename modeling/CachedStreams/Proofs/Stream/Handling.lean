import CachedStreams.Proofs.Stream.Upkeep

/-!
# How a cache handles its buffers

Whatever happens to a cache of buffers, apart from what pump and watch of a buffer do, reaches each
buffer as calls on it: a generator joins the buffer that it creates, a hook releases one, a call to
open registers with one, and a call that is given up is abandoned. `StreamCache.Handles` says so of
two states of a cache, and `StreamCache.handles_apply` of every event but those of a buffer. So what
calls on a buffer keep, a cache keeps of each of its buffers (`StreamCache.Handles.keeps`).
-/

set_option autoImplicit false

namespace CachedStreams.StreamCache

/-- Nothing but calls is done to a buffer. -/
abbrev OnlyCalls (b : Buffer) (calls : List (Nat × Buffer.Event)) : Prop :=
  Machine.Allows Buffer.apply (fun _ event => event.isCall = true) b calls

/-- A buffer after some calls on it. -/
def AfterCalls (b b' : Buffer) : Prop :=
  ∃ calls, OnlyCalls b calls ∧ b' = Machine.final Buffer.apply b calls

/-- A buffer is what it is after no calls on it. -/
theorem AfterCalls.refl (b : Buffer) : AfterCalls b b := ⟨[], trivial, rfl⟩

/-- One call on a buffer. -/
theorem AfterCalls.single (b : Buffer) (now : Nat) {event : Buffer.Event}
    (called : event.isCall = true) : AfterCalls b (b.apply now event).1 :=
  ⟨[(now, event)], ⟨called, trivial⟩, rfl⟩

/-- Calls on a buffer, and then some more. -/
theorem AfterCalls.trans {b b' b'' : Buffer} (h : AfterCalls b b') (k : AfterCalls b' b'') :
    AfterCalls b b'' := by
  obtain ⟨first, only, rfl⟩ := h
  obtain ⟨later, only', rfl⟩ := k
  exact ⟨first ++ later, (Machine.allows_append _ _ _ _).mpr ⟨only, only'⟩,
    (Machine.final_append _ _ _ _).symm⟩

/-- What every call on a buffer keeps is kept by any number of them. -/
theorem AfterCalls.keeps {P : Buffer → Prop} {b b' : Buffer} (h : AfterCalls b b')
    (calls : ∀ b now event, Buffer.Event.isCall event = true → P b → P (b.apply now event).1)
    (holds : P b) : P b' := by
  obtain ⟨events, only, rfl⟩ := h
  exact Machine.final_induction Buffer.apply P holds
    (fun b now event before called => calls b now event called before) only

/-- All that happens to the buffers of a cache is that new ones are created and that there are calls
on them. -/
structure Handles (c d : StreamCache) : Prop where
  options : d.options = c.options
  old : ∀ (id : BufferId) b, c.buffers[id]? = some b →
    ∃ b', d.buffers[id]? = some b' ∧ AfterCalls b b'
  new : ∀ (id : BufferId) b', c.buffers[id]? = none → d.buffers[id]? = some b' →
    ∃ key transform, AfterCalls (.create key c.options transform) b'

namespace Handles

variable {c d e : StreamCache}

/-- A step that leaves the buffers as they are handles them. -/
theorem of_eq (options : d.options = c.options) (buffers : d.buffers = c.buffers) :
    Handles c d := by
  refine ⟨options, fun id b hb => ⟨b, buffers ▸ hb, .refl b⟩, fun id b' none_ some_ => ?_⟩
  rw [buffers, none_] at some_
  cases some_

/-- Two steps that handle the buffers, one after the other, are one that does. -/
theorem trans (h : Handles c d) (k : Handles d e) : Handles c e := by
  refine ⟨k.options.trans h.options, fun id b hb => ?_, fun id b'' none_ some_ => ?_⟩
  · obtain ⟨b', hb', calls⟩ := h.old id b hb
    obtain ⟨b'', hb'', calls'⟩ := k.old id b' hb'
    exact ⟨b'', hb'', calls.trans calls'⟩
  · cases between : d.buffers[id]? with
    | none =>
        obtain ⟨key, transform, calls⟩ := k.new id b'' between some_
        exact ⟨key, transform, h.options ▸ calls⟩
    | some b' =>
        obtain ⟨key, transform, calls⟩ := h.new id b' none_ between
        obtain ⟨b₂, hb₂, calls'⟩ := k.old id b' between
        rw [some_, Option.some.injEq] at hb₂
        exact ⟨key, transform, hb₂ ▸ calls.trans calls'⟩

/-- A step that leaves the buffers alone may come before one that handles them. -/
theorem after_eq (h : Handles d e) (options : d.options = c.options)
    (buffers : d.buffers = c.buffers) : Handles c e :=
  (of_eq options buffers).trans h

/-- What every new buffer has and calls on a buffer keep, a cache keeps of each of its buffers. -/
theorem keeps {P : Buffer → Prop} (h : Handles c d) {id : BufferId}
    (calls : ∀ b now event, Buffer.Event.isCall event = true → P b → P (b.apply now event).1)
    (new : c.buffers[id]? = none → ∀ key transform, P (.create key c.options transform))
    (holds : ∀ b, c.buffers[id]? = some b → P b) {b' : Buffer} (hb' : d.buffers[id]? = some b') :
    P b' := by
  cases before : c.buffers[id]? with
  | none =>
      obtain ⟨key, transform, after⟩ := h.new id b' before hb'
      exact after.keeps calls (new before key transform)
  | some b =>
      obtain ⟨b₂, hb₂, after⟩ := h.old id b before
      rw [hb', Option.some.injEq] at hb₂
      exact hb₂ ▸ after.keeps calls (holds b before)

end Handles

/-- What happens to a buffer leaves the options of the cache alone. -/
theorem options_applyBuffer (c : StreamCache) (now : Nat) (id : BufferId)
    (event : Buffer.Event) : (c.applyBuffer now id event).1.options = c.options := by
  unfold StreamCache.applyBuffer
  split
  · rfl
  · rw [relay_fst]

section

variable (c : StreamCache) (now : Nat)

/-- To put a buffer back after some calls on it is to handle the buffers. -/
theorem handles_set {id : BufferId} {b b' : Buffer} (hb : c.buffers[id]? = some b)
    (after : AfterCalls b b') {d : StreamCache} (options : d.options = c.options)
    (buffers : d.buffers = c.buffers.set id b') : Handles c d := by
  have lookup : ∀ other : BufferId,
      d.buffers[other]? = if other = id then some b' else c.buffers[other]? := by
    intro other
    rw [buffers]
    exact getElem?_set hb other
  refine ⟨options, fun other b₀ hb₀ => ?_, fun other b₀ none_ some_ => ?_⟩
  · rw [lookup other]
    by_cases same : other = id
    · subst same
      rw [hb, Option.some.injEq] at hb₀
      exact ⟨b', if_pos rfl, hb₀ ▸ after⟩
    · exact ⟨b₀, (if_neg same).trans hb₀, .refl b₀⟩
  · rw [lookup other] at some_
    by_cases same : other = id
    · subst same
      rw [hb] at none_
      cases none_
    · rw [if_neg same, none_] at some_
      cases some_

/-- A call on a buffer handles the buffers. -/
theorem handles_applyBuffer (id : BufferId) {event : Buffer.Event}
    (called : event.isCall = true) : Handles c (c.applyBuffer now id event).1 := by
  cases hb : c.buffers[id]? with
  | none =>
      simp only [StreamCache.applyBuffer, hb]
      exact .of_eq rfl rfl
  | some b =>
      have m := moved_applyBuffer c now hb event
      exact handles_set c hb (.single b now called) (options_applyBuffer c now id event) m.buffers

/-- A generator creates a buffer behind all others. -/
theorem handles_concat {d : StreamCache} (key : String) (transform : Option Transform)
    (options : d.options = c.options)
    (buffers : d.buffers = c.buffers ++ [.create key c.options transform]) : Handles c d := by
  refine ⟨options, fun id b hb => ⟨b, ?_, .refl b⟩, fun id b' none_ some_ => ?_⟩
  · rw [buffers, List.getElem?_append_left (List.getElem?_eq_some_iff.mp hb).1]
    exact hb
  · rw [buffers, List.getElem?_append_right (List.getElem?_eq_none_iff.mp none_)] at some_
    have last := List.mem_singleton.mp (List.mem_of_getElem? some_)
    exact ⟨key, transform, last ▸ .refl _⟩

/-- A generator handles the buffers. -/
theorem handles_generate (call : CallId) (key : String) :
    Handles c (c.generate now call key).1 := by
  unfold StreamCache.generate
  split
  · rename_i o _
    split
    · have created : Handles c { c with
          buffers := c.buffers ++ [Buffer.create key c.options o.transform]
          opens := c.opens.set call { o with unused := false }
          errands := c.errands.set call (.starting c.buffers.length none) } :=
        handles_concat c key o.transform rfl rfl
      exact created.trans (handles_applyBuffer _ now _ rfl)
    · exact .of_eq rfl rfl
  · exact .of_eq rfl rfl

/-- A hook handles the buffers. -/
theorem handles_evict (call : CallId) (result : Except StreamError BufferId) :
    Handles c (c.evict now call result).1 := by
  cases result with
  | ok id =>
      exact (handles_applyBuffer _ now id rfl).after_eq rfl rfl
  | error e => exact .of_eq rfl rfl

/-- What is done with an answer of the keyed cache handles the buffers. -/
theorem handles_answer (call : CallId) (reply : KeyedCache.Reply BufferId StreamError) :
    Handles c (c.answer now call reply).1 := by
  unfold StreamCache.answer
  split
  · exact .of_eq rfl rfl
  · split
    · exact .of_eq rfl rfl
    · exact .of_eq rfl rfl
    · split <;> exact .of_eq rfl rfl
    · exact .of_eq rfl rfl

/-- What is done with notices of the keyed cache handles the buffers. -/
theorem handles_heed (notices : List (KeyedCache.Notice BufferId StreamError)) :
    Handles c (heed now c notices).1 := by
  induction notices generalizing c with
  | nil => exact .of_eq rfl rfl
  | cons notice rest ih =>
      cases notice with
      | generate call key => exact (handles_generate c now call key).trans (ih _)
      | stored => exact ih c
      | evict call key entry => exact (handles_evict c now call entry.result).trans (ih _)
      | admitted => exact ih c
      | answered call reply => exact (handles_answer c now call reply).trans (ih _)

/-- What happens in the keyed cache handles the buffers. -/
theorem handles_applyKeyed (event : KeyedCache.Event BufferId StreamError) :
    Handles c (c.applyKeyed now event).1 :=
  (handles_heed _ now _).after_eq rfl rfl

/-- A call to open that registers handles the buffers. -/
theorem handles_register (call : CallId) (o : OpenCall) (id : BufferId) :
    Handles c (c.register now call o id).1 := by
  unfold StreamCache.register
  split
  · exact .of_eq rfl rfl
  · rename_i b hb
    cases unused : decide (b.refs = 0) with
    | true =>
        have refused : b.retain = (b, false) := by
          simp [Buffer.retain, of_decide_eq_true unused]
        simp only [refused]
        exact (handles_applyKeyed _ now _).after_eq rfl rfl
    | false =>
        have registered : b.retain = ((b.apply now .retain).1, true) := by
          simp [Buffer.apply, Buffer.retain, of_decide_eq_false unused]
        simp only [registered]
        exact handles_set c hb (.single b now rfl) rfl rfl

/-- A call that takes a step handles the buffers. -/
theorem handles_resume {call : CallId} {r : StreamCache × List Notice}
    (step : c.resume now call = some r) : Handles c r.1 := by
  unfold StreamCache.resume at step
  split at step
  · cases step
    exact (handles_applyKeyed _ now _).after_eq rfl rfl
  · cases step
  · cases step
    exact (handles_applyKeyed _ now _).after_eq rfl rfl
  · cases step
  · cases step
    exact (handles_applyKeyed _ now _).after_eq rfl rfl
  · split at step
    · cases step
      exact handles_register c now call _ _
    · rw [Option.map_eq_some_iff] at step
      obtain ⟨k, -, rfl⟩ := step
      exact (handles_heed _ now _).after_eq rfl rfl

/-- A call that is given up handles the buffers. -/
theorem handles_abort (call : CallId) : Handles c (c.abort now call).1 := by
  have abandoned : Handles c { c with
      buffers := c.buffers.map (Buffer.abandon · call)
      opens := c.opens.erase call
      errands := c.errands.erase call } := by
    refine ⟨rfl, fun id b hb => ⟨b.abandon call, ?_, ?_⟩, fun id b' none_ some_ => ?_⟩
    · rw [List.getElem?_map, hb, Option.map_some]
    · show AfterCalls b (b.apply now (.abandon call)).1
      exact .single b now rfl
    · rw [List.getElem?_map, none_] at some_
      cases some_
  exact abandoned.trans (handles_applyKeyed _ now (.abort call))

/-- Whatever happens to a cache, but for what happens to a buffer on its own, is calls on its
buffers. -/
theorem handles_apply {event : Event} (other : ∀ id inner, event ≠ .buffer id inner) :
    Handles c (c.apply now event).1 := by
  cases event with
  | «open» => exact .of_eq rfl rfl
  | call call request => exact handles_applyKeyed c now (.call call request)
  | resume call =>
      simp only [StreamCache.apply]
      cases step : c.resume now call with
      | none => exact .of_eq rfl rfl
      | some r => exact handles_resume c now step
  | abort call => exact handles_abort c now call
  | buffer id inner => exact absurd rfl (other id inner)

/-- The buffers after something has happened to one of them. -/
theorem getElem?_applyBuffer (id other : BufferId) (event : Buffer.Event) :
    (c.applyBuffer now id event).1.buffers[other]? =
      if other = id then (c.buffers[id]?).map fun b => (b.apply now event).1
      else c.buffers[other]? := by
  cases hb : c.buffers[id]? with
  | none =>
      simp only [StreamCache.applyBuffer, hb, Option.map_none]
      split
      · rename_i same
        rw [same, hb]
      · rfl
  | some b => exact (moved_applyBuffer c now hb event).getElem? other

/-- No buffer is ever lost. -/
theorem getElem?_eq_none_of_apply {event : Event} {id : BufferId}
    (after : (c.apply now event).1.buffers[id]? = none) : c.buffers[id]? = none := by
  by_cases own : ∃ other inner, event = .buffer other inner
  · obtain ⟨other, inner, rfl⟩ := own
    have lookup := getElem?_applyBuffer c now other id inner
    change (c.applyBuffer now other inner).1.buffers[id]? = none at after
    rw [after] at lookup
    split at lookup
    · rename_i same
      rw [same]
      exact Option.map_eq_none_iff.mp lookup.symm
    · exact lookup.symm
  · have handles := handles_apply c now fun other inner same => own ⟨other, inner, same⟩
    cases hb : c.buffers[id]? with
    | none => rfl
    | some b =>
        obtain ⟨b', hb', -⟩ := handles.old id b hb
        rw [after] at hb'
        cases hb'

/-- The options of a cache never change. -/
theorem options_apply (event : Event) : (c.apply now event).1.options = c.options := by
  by_cases own : ∃ id inner, event = .buffer id inner
  · obtain ⟨id, inner, rfl⟩ := own
    exact options_applyBuffer c now id inner
  · exact (handles_apply c now fun id inner same => own ⟨id, inner, same⟩).options

end

end CachedStreams.StreamCache
