import CachedStreams.Proofs.Stream.Openings

/-!
# The steps of a call to open

`StreamCache.OpenStep` lists what a call to open can do when it takes a step, each with what brought
it there: how it came by the result of its key (`Obtains`), or how the buffer that it could not use
has left the cache (`Unlinked`). `StreamCache.openStep_turn` says that there is nothing else, as
long as every call to open does what fits how far it has come; and no step breaks that up
(`OpenStep.doing`, `Opens.apply`).
-/

set_option autoImplicit false

namespace CachedStreams.StreamCache

/-- How a call to open comes by the result of its key, and the table after that. -/
inductive Obtains (c : StreamCache) (now : Nat) (call : CallId) (o : OpenCall) :
    Except StreamError BufferId → Table BufferId StreamError → Prop where
  /-- It finds the result in the table. -/
  | found (ttl : Nat) (at_ : KeyedCache.Stage BufferId StreamError)
    (result : Except StreamError BufferId) (errand : c.errands.find? call = none)
    (stage : c.keyed.stage? call = some at_) (looks : at_.Looks o.key ttl)
    (hit : c.keyed.table.lookup now o.key = some result) :
    Obtains c now call o result c.keyed.table
  /-- It has brought the result, and stores it where nothing was. -/
  | brought (ttl : Nat) (result : Except StreamError BufferId)
    (errand : c.errands.find? call = none)
    (stage : c.keyed.stage? call = some (.generated o.key ttl result))
    (absent : c.keyed.table.find? o.key = none) :
    Obtains c now call o result
      (c.keyed.table.insert o.key ⟨result, Clock.add? now ttl, c.keyed.nextSeq⟩)
  /-- It has stored the result, and the hook of the entry that this displaced is over. -/
  | displaced (e : Errand) (result : Except StreamError BufferId)
    (errand : c.errands.find? call = some e) (isOver : e.isOver = true)
    (stage : c.keyed.stage? call = some (.evicting (.reply (.result result)))) :
    Obtains c now call o result c.keyed.table

/-- How the buffer that a call to open could not use has left the cache. -/
inductive Unlinked (c : StreamCache) (call : CallId) (o : OpenCall) : Prop where
  /-- It is not there any more. -/
  | gone (id : BufferId) (errand : c.errands.find? call = none)
    (stage : c.keyed.stage? call = some (.requested (.removeIf o.key (isBuffer id))))
    (refused : ∀ entry, c.keyed.table.find? o.key = some entry → entry.result ≠ .ok id)
  /-- The call has removed it, and the hook is over. -/
  | dropped (e : Errand) (errand : c.errands.find? call = some e) (isOver : e.isOver = true)
    (stage : c.keyed.stage? call = some (.evicting (.reply (.removed true))))

/-- What a call to open can do when it takes a step. -/
inductive OpenStep (c : StreamCache) (now : Nat) (call : CallId) (o : OpenCall) :
    StreamCache × List Notice → Prop where
  | waits (stuck : c.Stuck call) : OpenStep c now call o (c, [])
  | misses (ttl : Nat) (stage : c.keyed.stage? call = some (.requested (.getOrUpdate o.key ttl)))
    (absent : c.keyed.table.lookup now o.key = none) :
    OpenStep c now call o ({ c with keyed := c.keyed.moveTo call (.missed o.key ttl) }, [])
  | queues (ttl : Nat) (stage : c.keyed.stage? call = some (.missed o.key ttl)) :
    OpenStep c now call o
      ({ c with
          keyed := { c.keyed with
            lanes := c.keyed.lanes.request call (c.keyed.laneOf o.key) }.moveTo call
              (.queued o.key ttl) }, [])
  | starts (ttl : Nat) (stage : c.keyed.stage? call = some (.queued o.key ttl))
    (absent : c.keyed.table.lookup now o.key = none) (unused : o.unused = true) :
    OpenStep c now call o (c.started call o.key ttl o, [.buffer c.buffers.length .pumpStarted])
  | learns (ttl : Nat) (id : BufferId) (result : Except StreamError Unit)
    (errand : c.errands.find? call = some (.starting id (some result)))
    (stage : c.keyed.stage? call = some (.generating o.key ttl)) :
    OpenStep c now call o
      ({ c with
          errands := c.errands.erase call
          keyed := c.keyed.moveTo call (.generated o.key ttl (result.map fun _ => id)) }, [])
  | displaces (ttl : Nat) (result : Except StreamError BufferId)
    (old : Entry BufferId StreamError) (errand : c.errands.find? call = none)
    (stage : c.keyed.stage? call = some (.generated o.key ttl result))
    (present : c.keyed.table.find? o.key = some old) :
    OpenStep c now call o
      (StreamCache.evict { c with
        keyed := (c.keyed.put o.key ⟨result, Clock.add? now ttl, c.keyed.nextSeq⟩).moveTo call
          (.evicting (.reply (.result result))) } now call old.result)
  | finds (id : BufferId) (r : StreamCache × List Notice)
    (obtains : Obtains c now call o (.ok id) r.1.keyed.table)
    (opening : r.1.opens.find? call = some { o with stage := .holding id })
    (errand : r.1.errands.find? call = none) (stage : r.1.keyed.stage? call = none) :
    OpenStep c now call o r
  | fails (e : StreamError) (r : StreamCache × List Notice)
    (obtains : Obtains c now call o (.error e) r.1.keyed.table)
    (opening : r.1.opens.find? call = none) (stage : r.1.keyed.stage? call = none)
    (told : .opened call (.error e) ∈ r.2) : OpenStep c now call o r
  | registers (id : BufferId) (b : Buffer) (errand : c.errands.find? call = none)
    (holding : o.stage = .holding id) (present : c.buffers[id]? = some b) (used : 0 < b.refs) :
    OpenStep c now call o
      ({ c with
          buffers := c.buffers.set id { b with refs := b.refs + 1 }
          opens := c.opens.erase call }, [.opened call (.ok id)])
  | refuses (id : BufferId) (b : Buffer) (errand : c.errands.find? call = none)
    (holding : o.stage = .holding id) (present : c.buffers[id]? = some b) (unused : b.refs = 0) :
    OpenStep c now call o
      ({ c with
          opens := c.opens.set call { o with stage := .unlinking }
          keyed := c.keyed.moveTo call (.requested (.removeIf o.key (isBuffer id))) }, [])
  | unlinks (id : BufferId) (entry : Entry BufferId StreamError)
    (stage : c.keyed.stage? call = some (.requested (.removeIf o.key (isBuffer id))))
    (present : c.keyed.table.find? o.key = some entry) (own : entry.result = .ok id) :
    OpenStep c now call o
      (StreamCache.evict { c with
        keyed := { c.keyed with table := c.keyed.table.erase o.key }.moveTo call
          (.evicting (.reply (.removed true))) } now call entry.result)
  /-- It begins again, since it can still open the stream. -/
  | retries (r : StreamCache × List Notice) (unlinked : Unlinked c call o)
    (unused : o.unused = true)
    (opening : r.1.opens.find? call = some { o with stage := .fetching })
    (stage : r.1.keyed.stage? call = some (.requested (.getOrUpdate o.key c.ttl)))
    (table : r.1.keyed.table = c.keyed.table) (errand : r.1.errands.find? call = none) :
    OpenStep c now call o r
  | endsUsed (r : StreamCache × List Notice) (unlinked : Unlinked c call o)
    (used : o.unused = false) (opening : r.1.opens.find? call = none)
    (stage : r.1.keyed.stage? call = none) (told : .opened call (.error .released) ∈ r.2)
    (table : r.1.keyed.table = c.keyed.table) :
    OpenStep c now call o r

/-- A result is a buffer exactly if it is the success with its id. -/
theorem isBuffer_iff {id : BufferId} {result : Except StreamError BufferId} :
    isBuffer id result = true ↔ result = .ok id := by
  cases result with
  | error e => simp [isBuffer]
  | ok other => simp [isBuffer]

/-- A removal is of one buffer only. -/
theorem eq_of_isBuffer_eq {id other : BufferId} (same : isBuffer other = isBuffer id) :
    other = id := by
  have own : isBuffer other (.ok other) = isBuffer id (.ok other) := congrFun same _
  simpa [isBuffer] using own

section

variable {c d : StreamCache} {now : Nat} {call : CallId} {o : OpenCall}
  {r : StreamCache × List Notice}

/-- A call to open that has obtained the result of its key holds that buffer, or ends with that
failure. -/
theorem openStep_of_obtains {result : Except StreamError BufferId}
    (reacts : Reaction d now call (.result result) r)
    (obtains : Obtains c now call o result d.keyed.table)
    (opening : d.opens.find? call = some o) (fetching : o.stage = .fetching)
    (errand : d.errands.find? call = none) (stage : d.keyed.stage? call = none)
    (ready : List CallId) : OpenStep c now call o (r.1, ready.map .ready ++ r.2) := by
  have known : ∀ o', d.opens.find? call = some o' → o' = o := fun o' found =>
    Option.some.inj (found.symm.trans opening)
  cases reacts with
  | passesOn _ none_ =>
      rw [opening] at none_
      cases none_
  | finds o' id found _ =>
      obtain rfl := known o' found
      exact .finds id _ obtains (CallTable.find?_set_self _ _ _) errand stage
  | fails o' e found _ =>
      exact .fails e _ obtains (CallTable.find?_erase_self _ _) stage (by simp [finishOpen])
  | retries o' _ found unlinking | endsUsed o' _ found unlinking =>
      rw [known o' found, fetching] at unlinking
      cases unlinking
  | ignores o' _ found _ mismatch =>
      obtain rfl := known o' found
      exact absurd rfl (mismatch fetching result)

/-- A call to open that knows the buffer gone begins again, or ends. -/
theorem openStep_of_unlinked {reply : KeyedCache.Reply BufferId StreamError}
    (reacts : Reaction d now call reply r) (unlinked : Unlinked c call o)
    (opening : d.opens.find? call = some o) (unlinking : o.stage = .unlinking)
    (errand : d.errands.find? call = none) (stage : d.keyed.stage? call = none)
    (lifetime : d.ttl = c.ttl) (table : d.keyed.table = c.keyed.table) (ready : List CallId) :
    OpenStep c now call o (r.1, ready.map .ready ++ r.2) := by
  have known : ∀ o', d.opens.find? call = some o' → o' = o := fun o' found =>
    Option.some.inj (found.symm.trans opening)
  cases reacts with
  | passesOn _ none_ =>
      rw [opening] at none_
      cases none_
  | finds o' id found fetching | fails o' e found fetching =>
      rw [known o' found, unlinking] at fetching
      cases fetching
  | retries o' _ found _ unused =>
      obtain rfl := known o' found
      refine .retries _ unlinked unused (CallTable.find?_set_self _ _ _) ?_ table errand
      rw [← lifetime]
      exact KeyedCache.stage?_moveTo_self _ _
  | endsUsed o' _ found _ used =>
      obtain rfl := known o' found
      exact .endsUsed _ unlinked used (CallTable.find?_erase_self _ _) stage
        (by simp [finishOpen]) table
  | ignores o' _ found linked =>
      obtain rfl := known o' found
      exact absurd unlinking linked

/-- A step of a call to open is one of these. -/
theorem openStep_turn (turn : Turn c now (.resume call) r) (opens : c.Opens)
    (opening : c.opens.find? call = some o) : OpenStep c now call o r := by
  have doing := opens call o opening
  have answered : ∀ (k : KeyedCache BufferId StreamError) reply,
      (k.answer call reply).1.stage? call = none := fun k reply => KeyedCache.stage?_answer_self k _
  have unanswered : ∀ stage, c.Travels call → c.keyed.stage? call = some stage →
      o.Doing none (some stage) := fun stage travels at_ => by
    rwa [travels.errand, at_] at doing
  have known : ∀ o', c.opens.find? call = some o' → o' = o := fun o' found =>
    Option.some.inj (found.symm.trans opening)
  cases turn with
  | waits _ stuck => exact .waits stuck
  | learns _ id result key ttl errand stage =>
      rw [errand, stage] at doing
      cases doing with
      | generates => exact .learns ttl id result errand stage
  | dropsResult _ id result errand unheard =>
      rw [errand] at doing
      generalize stage : c.keyed.stage? call = s at doing
      cases doing with
      | generates => exact absurd stage (unheard _ _)
      | displaces _ _ _ _ hook | unlinked _ _ hook => cases hook
  | dropsHook _ e errand done unheard =>
      rw [errand] at doing
      generalize stage : c.keyed.stage? call = s at doing
      cases doing with
      | generates => cases done
      | displaces | unlinked => exact absurd stage (unheard _)
  | sweepsOn _ e rest count sweep errand done stage =>
      rw [errand, stage] at doing
      cases doing
  | replies _ e reply r ready errand done stage reacts =>
      rw [errand, stage] at doing
      cases doing with
      | displaces _ result fetching =>
          have obtains : Obtains c now call o result c.keyed.table :=
            .displaced e result errand done stage
          exact openStep_of_obtains reacts obtains opening fetching
            (CallTable.find?_erase_self _ _) (answered _ (.result result)) ready
      | unlinked _ unlinking =>
          exact openStep_of_unlinked reacts (.dropped e errand done stage) opening unlinking
            (CallTable.find?_erase_self _ _) (answered _ (.removed true)) rfl rfl ready
  | registers _ o' id b errand opening' holding present used =>
      obtain rfl := known o' opening'
      exact .registers id b errand holding present used
  | refuses _ o' id b errand opening' holding present unused =>
      obtain rfl := known o' opening'
      exact .refuses id b errand holding present unused
  | gets _ key r ready travels stage =>
      cases unanswered _ travels stage with
      | looks _ _ _ _ waits => cases waits
  | hits _ key ttl at_ result r ready travels stage looks found reacts =>
      obtain ⟨rfl, fetching, -⟩ := (unanswered _ travels stage).looks_up looks
      have obtains : Obtains c now call o result c.keyed.table :=
        .found ttl at_ result travels.errand stage looks found
      exact openStep_of_obtains reacts obtains opening fetching travels.errand
        (answered _ (.result result)) ready
  | misses _ key ttl travels stage absent =>
      obtain ⟨rfl, -⟩ := (unanswered _ travels stage).looks_up .first
      exact .misses _ stage absent
  | queues _ key ttl travels stage =>
      cases unanswered _ travels stage with
      | looks _ _ _ _ waits =>
          cases waits
          exact .queues _ stage
  | starts _ key ttl o' travels stage _ absent opening' unused =>
      obtain rfl := known o' opening'
      obtain ⟨rfl, -⟩ := (unanswered _ travels stage).looks_up .again
      exact .starts _ stage absent unused
  | startsNothing _ key ttl o' travels stage opening' used =>
      obtain rfl := known o' opening'
      obtain ⟨-, -, unused⟩ := (unanswered _ travels stage).looks_up .again
      rw [used] at unused
      cases unused
  | generates _ _ _ _ _ none_ =>
      rw [opening] at none_
      cases none_
  | stores _ key ttl at_ result reply r ready travels stage brings absent reacts =>
      obtain ⟨rfl, rfl, rfl, fetching, -⟩ := (unanswered _ travels stage).stores brings
      have obtains : Obtains c now call o result _ :=
        .brought ttl result travels.errand stage absent
      exact openStep_of_obtains reacts obtains opening fetching travels.errand
        (answered _ (.result result)) ready
  | displaces _ key ttl at_ result reply old travels stage brings present =>
      obtain ⟨rfl, rfl, rfl, -⟩ := (unanswered _ travels stage).stores brings
      exact .displaces ttl result old travels.errand stage present
  | removes _ key test at_ entry travels stage drops present accepted =>
      obtain ⟨id, rfl, rfl, rfl, -⟩ := (unanswered _ travels stage).removes drops
      exact .unlinks id entry stage present (isBuffer_iff.mp accepted)
  | removesNothing _ key test at_ r ready travels stage drops refused reacts =>
      obtain ⟨id, rfl, rfl, rfl, unlinking⟩ := (unanswered _ travels stage).removes drops
      refine openStep_of_unlinked reacts (.gone id travels.errand stage ?_) opening
        unlinking travels.errand (answered _ (.removed false)) rfl rfl ready
      intro entry found own
      have no := refused entry found
      rw [isBuffer_iff.mpr own] at no
      cases no
  | beginsSweep _ sweep travels stage =>
      cases sweep <;>
        cases unanswered _ travels stage with
        | looks _ _ _ _ waits => cases waits
  | sweeps _ key entry rest count sweep travels stage
  | passes _ number key rest count sweep travels stage
  | endsSweep _ count sweep r ready travels stage =>
      cases unanswered _ travels stage with
      | looks _ _ _ _ waits => cases waits

/-- A call that is not one to open does not become one by its answer. -/
theorem opens_reaction {reply : KeyedCache.Reply BufferId StreamError}
    (reacts : Reaction d now call reply r) (none_ : d.opens.find? call = none) :
    r.1.opens.find? call = none := by
  cases reacts with
  | passesOn => exact none_
  | finds _ _ opening | fails _ _ opening | retries _ _ opening | endsUsed _ _ opening
  | ignores _ _ opening =>
      rw [none_] at opening
      cases opening

/-- A step of another call does not make it one to open. -/
theorem not_opening_turn (turn : Turn c now (.resume call) r)
    (none_ : c.opens.find? call = none) : r.1.opens.find? call = none := by
  cases turn with
  | waits | learns | dropsResult | dropsHook | sweepsOn | misses | queues | startsNothing
  | generates | beginsSweep | passes => exact none_
  | registers _ _ _ _ _ opening | refuses _ _ _ _ _ opening | starts _ _ _ _ _ _ _ _ opening =>
      rw [none_] at opening
      cases opening
  | replies _ _ _ _ _ _ _ _ reacts | gets _ _ _ _ _ _ reacts
  | hits _ _ _ _ _ _ _ _ _ _ _ reacts | removesNothing _ _ _ _ _ _ _ _ _ _ reacts
  | endsSweep _ _ _ _ _ _ _ reacts | stores _ _ _ _ _ _ _ _ _ _ _ _ reacts =>
      have gone := opens_reaction reacts none_
      exact gone
  | displaces | removes | sweeps =>
      rw [opens_evict]
      exact none_

variable {event : Event}

/-- The event of a call to open that goes on is a step of it. -/
theorem resumed_of_subject (permits : c.Permits event) (opening : c.opens.find? call = some o)
    (subject : event.subject? = some call) (kept : event ≠ .abort call) :
    event = .resume call := by
  cases event with
  | «open» name =>
      cases subject
      have free : c.IsFree call := permits
      have none_ := free.unknown.opening
      rw [opening] at none_
      cases none_
  | call name request =>
      cases subject
      have none_ := (isFree_of_permits permits).unknown.opening
      rw [opening] at none_
      cases none_
  | resume name =>
      cases subject
      rfl
  | abort name =>
      cases subject
      exact absurd rfl kept
  | buffer => cases subject

/-- After an event of its own, a call to open has begun or taken a step. -/
theorem resumed_or_opened (permits : c.Permits event) (subject : event.subject? = some call)
    (opening : (c.apply now event).1.opens.find? call = some o) :
    event = .resume call ∨
      ∃ key transform, event = .open call key transform ∧
        o = ⟨key, transform, true, .fetching⟩ := by
  cases event with
  | «open» name key transform =>
      cases subject
      refine .inr ⟨key, transform, rfl, ?_⟩
      exact Option.some.inj (opening.symm.trans (CallTable.find?_set_self _ _ _))
  | call name request =>
      cases subject
      have none_ := (isFree_of_permits permits).unknown.opening
      have same : (c.apply now (.call call request)).1.opens = c.opens := rfl
      rw [same, none_] at opening
      cases opening
  | resume name =>
      cases subject
      exact .inl rfl
  | abort name =>
      cases subject
      have gone : (c.apply now (.abort call)).1.opens.find? call = none := by
        have turn := turn_apply c now (.abort call)
        generalize c.apply now (.abort call) = r at turn ⊢
        cases turn with
        | givesUp => exact CallTable.find?_erase_self _ _
      rw [gone] at opening
      cases opening
  | buffer => cases subject

/-! ## What a call to open is doing after a step -/

/-- Whatever a call to open does next, its errand and its stage fit how far it has come. -/
theorem OpenStep.doing (step : OpenStep c now call o r)
    (doing : o.Doing (c.errands.find? call) (c.keyed.stage? call))
    (before : c.opens.find? call = some o) {o' : OpenCall}
    (after : r.1.opens.find? call = some o') :
    o'.Doing (r.1.errands.find? call) (r.1.keyed.stage? call) := by
  have same : ∀ {next : OpenCall}, r.1.opens.find? call = some next → o' = next := fun found =>
    Option.some.inj (after.symm.trans found)
  cases step with
  | waits =>
      obtain rfl := same before
      exact doing
  | misses ttl stage =>
      obtain rfl := same before
      dsimp only
      rw [KeyedCache.stage?_moveTo_self]
      rw [stage] at doing
      generalize c.errands.find? call = e at doing
      cases doing with
      | looks _ _ fetching unused => exact .looks ttl _ fetching unused .missed
  | queues ttl stage =>
      obtain rfl := same before
      dsimp only
      rw [KeyedCache.stage?_moveTo_self]
      rw [stage] at doing
      generalize c.errands.find? call = e at doing
      cases doing with
      | looks _ _ fetching unused => exact .looks ttl _ fetching unused .queued
  | starts ttl stage =>
      obtain rfl := same (CallTable.find?_set_self _ _ _)
      simp only [started, CallTable.find?_set_self, KeyedCache.stage?_moveTo_self]
      rw [stage] at doing
      obtain ⟨-, fetching, -⟩ := doing.looks_up .again
      exact .generates ttl _ _ fetching rfl
  | learns ttl id result errand stage =>
      obtain rfl := same before
      dsimp only
      rw [CallTable.find?_erase_self, KeyedCache.stage?_moveTo_self]
      rw [errand, stage] at doing
      cases doing with
      | generates ttl id _ fetching used => exact .brings ttl _ fetching used
  | displaces ttl result old errand stage =>
      rw [opens_evict] at after
      obtain rfl := Option.some.inj (after.symm.trans before)
      rw [stage] at doing
      obtain ⟨-, -, -, fetching, used⟩ := doing.stores (.made result)
      exact doing_evict fun e hook => .displaces e result fetching used hook
  | finds id r _ opening errand stage =>
      obtain rfl := same opening
      rw [errand, stage]
      exact .holds id rfl
  | refuses id b errand =>
      obtain rfl := same (CallTable.find?_set_self _ _ _)
      dsimp only
      rw [errand, KeyedCache.stage?_moveTo_self]
      exact .unlinks id rfl
  | unlinks id entry stage =>
      rw [opens_evict] at after
      obtain rfl := Option.some.inj (after.symm.trans before)
      rw [stage] at doing
      obtain ⟨_, -, -, -, unlinking⟩ := doing.removes (.accepted (isBuffer id))
      exact doing_evict fun e hook => .unlinked e unlinking hook
  | retries r _ unused opening stage _ errand =>
      obtain rfl := same opening
      rw [errand, stage]
      exact .looks c.ttl _ rfl unused .requested
  | fails _ _ _ gone | endsUsed _ _ _ gone => cases gone.symm.trans after
  | registers => simp at after

end

/-- Every call to open does what fits how far it has come, after any event as before. -/
theorem Opens.apply {c : StreamCache} (opens : c.Opens) (now : Nat) {event : Event}
    (permits : c.Permits event) : (c.apply now event).1.Opens := by
  intro call o found
  by_cases own : event.subject? = some call
  · rcases resumed_or_opened permits own found with rfl | ⟨key, transform, rfl, rfl⟩
    · have turn := turn_apply c now (.resume call)
      cases before : c.opens.find? call with
      | none =>
          rw [not_opening_turn turn before] at found
          cases found
      | some o₀ =>
          exact (openStep_turn turn opens before).doing (opens call o₀ before) before found
    · have free : c.IsFree call := permits
      simp only [StreamCache.apply, fetch, free.unknown.errand, KeyedCache.apply,
        KeyedCache.stage?_moveTo_self]
      exact .looks c.ttl _ rfl rfl .requested
  · obtain ⟨same, stages, id, results, errands⟩ := apart_apply c now own
    rw [same] at found
    rw [errands, stages]
    exact (opens call o found).foldl_hear id results

/-! ## Runs -/

section

variable {lanes ttl : Nat} {options : BufferOptions} {events : List (Nat × Event)}

/-- Every call to open does what fits how far it has come, at any time of a run. -/
theorem opens_of_run
    (permitted : Machine.Allows apply Permits (create lanes ttl options) events) :
    Opens (Machine.final apply (create lanes ttl options) events) :=
  Machine.final_induction apply Opens (opens_create lanes ttl options)
    (fun _ now _ opens permits => opens.apply now permits) permitted

/-- In a permitted run, what every call to open does fits how far it has come, before each move. -/
theorem opens_before
    (permitted : Machine.Allows apply Permits (create lanes ttl options) events)
    {past future : History} {t : Move StreamCache Event Notice}
    (split : Machine.history apply (create lanes ttl options) events = past ++ t :: future) :
    Opens t.before ∧ t.before.Permits t.event := by
  obtain ⟨earlier, -, same, allowed, permits⟩ :=
    Machine.exists_allowed_before apply permitted split
  exact ⟨same ▸ opens_of_run allowed, permits⟩

/-- An induction over runs among consumers who only close what was handed out: in each step the
books balance, and what every call to open does fits how far it has come. -/
theorem sound_induction (P : History → StreamCache → Prop)
    (start : P [] (create lanes ttl options))
    (step : ∀ (past : History) c now event closed, Sound { past.books with closed } c →
      c.Opens → P past c → c.Permits event →
        P (past ++ [Machine.move apply c now event]) (c.apply now event).1)
    (permitted : Machine.Allows apply Permits (create lanes ttl options) events)
    (handed : History.ClosesHanded (Machine.history apply (create lanes ttl options) events)) :
    P (Machine.history apply (create lanes ttl options) events)
      (Machine.final apply (create lanes ttl options) events) := by
  induction events using List.reverseRecOn with
  | nil => exact start
  | append_singleton events last ih =>
      obtain ⟨now, event⟩ := last
      obtain ⟨allowed, permits, -⟩ := (Machine.allows_append apply _ _ _).mp permitted
      rw [Machine.history_append] at handed ⊢
      rw [Machine.final_append]
      obtain ⟨closed, -, sound⟩ := corrected_of_run allowed handed.of_append
      exact step _ _ now event closed sound (opens_of_run allowed)
        (ih allowed handed.of_append) permits

end

end CachedStreams.StreamCache
