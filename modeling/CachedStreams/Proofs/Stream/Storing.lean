import CachedStreams.Proofs.Stream.OpenSteps
import CachedStreams.Proofs.Stream.Outcomes

/-!
# Who stores entries

Only calls to open store anything in a cache of buffers (`StreamCache.OnlyOpensStore`): whoever
else uses it removes entries, one or all of them. So an entry that is new in the table is one that a
call to open has brought (`StreamCache.brings_of_new`).
-/

set_option autoImplicit false

namespace CachedStreams

/-- Whether a call at this stage removes entries, or waits for a hook, and stores nothing. -/
def KeyedCache.Stage.isUpkeep {V E : Type} : KeyedCache.Stage V E → Bool
  | requested (.remove _) => true
  | requested .flush => true
  | requested .purge => true
  | sweeping _ _ _ => true
  | evicting _ => true
  | _ => false

namespace StreamCache

section

variable {c : StreamCache} {now : Nat} {call : CallId} {event : Event}
  {r : StreamCache × List Notice}

/-- A call that is not one to open stores nothing. -/
def OnlyOpensStore (c : StreamCache) : Prop :=
  ∀ call stage, c.opens.find? call = none → c.keyed.stage? call = some stage →
    stage.isUpkeep = true

/-- Nobody is about to store anything in a new cache. -/
theorem onlyOpensStore_create (lanes ttl : Nat) (options : BufferOptions) :
    OnlyOpensStore (create lanes ttl options) := by
  intro call stage _ reached
  cases reached

/-- A call to open that ends is no longer in progress in the keyed cache either. -/
theorem stage?_of_ended {o : OpenCall} (step : OpenStep c now call o r)
    (doing : o.Doing (c.errands.find? call) (c.keyed.stage? call))
    (opening : c.opens.find? call = some o) (ended : r.1.opens.find? call = none) :
    r.1.keyed.stage? call = none := by
  have goesOn : c.opens.find? call ≠ none := by
    rw [opening]
    nofun
  cases step with
  | waits | misses | queues | learns => exact absurd ended goesOn
  | starts => simp [started] at ended
  | displaces | unlinks =>
      rw [opens_evict] at ended
      exact absurd ended goesOn
  | finds _ _ _ found | retries _ _ _ found =>
      rw [found] at ended
      cases ended
  | refuses => simp at ended
  | fails _ _ _ _ gone | endsUsed _ _ _ _ gone => exact gone
  | registers id b errand holding =>
      generalize c.errands.find? call = e, stage : c.keyed.stage? call = s at doing
      cases doing with
      | holds => rfl
      | looks _ _ fetching | generates _ _ _ fetching | brings _ _ fetching
      | displaces _ _ fetching =>
          rw [holding] at fetching
          cases fetching
      | unlinks _ unlinking | unlinked _ unlinking =>
          rw [holding] at unlinking
          cases unlinking

/-- The answer to a call that is not one to open is passed on as it is. -/
theorem reaction_of_unopened {reply : KeyedCache.Reply BufferId StreamError}
    (reacts : Reaction c now call reply r) (none_ : c.opens.find? call = none) : r.1 = c := by
  cases reacts with
  | passesOn => rfl
  | finds _ _ opening | fails _ _ opening | retries _ _ opening | endsUsed _ _ opening
  | ignores _ _ opening => cases none_.symm.trans opening

/-- A call that only does upkeep goes on with that. -/
theorem isUpkeep_turn (turn : Turn c now (.resume call) r)
    (none_ : c.opens.find? call = none)
    (upkeep : ∀ stage, c.keyed.stage? call = some stage → stage.isUpkeep = true)
    {stage : KeyedCache.Stage BufferId StreamError}
    (reached : r.1.keyed.stage? call = some stage) : stage.isUpkeep = true := by
  cases turn with
  | waits | dropsResult | dropsHook => exact upkeep _ reached
  | sweepsOn | beginsSweep | passes =>
      obtain rfl := KeyedCache.eq_of_stage?_moveTo reached
      rfl
  | replies _ _ _ _ _ _ _ _ reacts | removesNothing _ _ _ _ _ _ _ _ _ _ reacts
  | endsSweep _ _ _ _ _ _ _ reacts =>
      simp [reaction_of_unopened reacts none_] at reached
  | registers _ _ _ _ _ opening | refuses _ _ _ _ _ opening | starts _ _ _ _ _ _ _ _ opening
  | startsNothing _ _ _ _ _ _ opening =>
      rw [none_] at opening
      cases opening
  | learns _ _ _ _ _ _ before | gets _ _ _ _ _ before | misses _ _ _ _ before
  | queues _ _ _ _ before | generates _ _ _ _ before => cases upkeep _ before
  | hits _ _ _ _ _ _ _ _ before looks => cases looks <;> cases upkeep _ before
  | stores _ _ _ _ _ _ _ _ _ before brings | displaces _ _ _ _ _ _ _ _ before brings =>
      cases brings <;> cases upkeep _ before
  | removes | sweeps =>
      rw [stage?_evict_moveTo, Option.some.injEq] at reached
      subst reached
      rfl

/-- Only calls to open store anything, after any event as before. -/
theorem OnlyOpensStore.apply (only : c.OnlyOpensStore) (opens : c.Opens) (now : Nat)
    (permits : c.Permits event) : (c.apply now event).1.OnlyOpensStore := by
  intro call stage ended reached
  by_cases own : event.subject? = some call
  · cases event with
    | «open» name key transform =>
        cases own
        simp [StreamCache.apply, fetch] at ended
    | call name request =>
        cases own
        obtain rfl := KeyedCache.eq_of_stage?_moveTo reached
        cases request with
        | remove | flush | purge => rfl
        | get | getOrUpdate | set | removeIf => exact permits.elim
    | resume name =>
        cases own
        have turn := turn_apply c now (.resume call)
        cases opening : c.opens.find? call with
        | none => exact isUpkeep_turn turn opening (fun s at_ => only call s opening at_) reached
        | some o =>
            have gone := stage?_of_ended (openStep_turn turn opens opening) (opens call o opening)
              opening ended
            rw [gone] at reached
            cases reached
    | abort name =>
        cases own
        have turn := turn_apply c now (.abort call)
        generalize c.apply now (.abort call) = r at turn reached
        cases turn with
        | givesUp =>
            rw [KeyedCache.stage?_leave_self] at reached
            cases reached
    | buffer => cases own
  · obtain ⟨same, at_, -⟩ := apart_apply c now own
    exact only call stage (same ▸ ended) (at_ ▸ reached)

/-- An entry that is new in the table is one that a call to open has brought. -/
theorem brings_of_new (only : c.OnlyOpensStore) (opens : c.Opens) (turn : Turn c now event r)
    {key : String} {entry : Entry BufferId StreamError}
    (found : r.1.keyed.table.find? key = some entry)
    (new : c.keyed.table.find? key ≠ some entry) :
    ∃ call o ttl, event = .resume call ∧ c.opens.find? call = some o ∧
      c.keyed.stage? call = some (.generated key ttl entry.result) ∧
      entry.expiresAt = Clock.add? now ttl := by
  obtain ⟨call, ttl, at_, reply, resumed, stage, brings, expires⟩ := brings_of_find? turn found new
  generalize entry.result = result at brings ⊢
  cases opening : c.opens.find? call with
  | none => cases brings <;> cases only call _ opening stage
  | some o =>
      have doing := opens call o opening
      rw [stage] at doing
      obtain ⟨-, rfl, -, -⟩ := doing.stores brings
      exact ⟨call, o, ttl, resumed, opening, stage, expires⟩

end

section

variable {lanes ttl : Nat} {options : BufferOptions} {events : List (Nat × Event)}

/-- Only calls to open store anything, at any time of a run. -/
theorem onlyOpensStore_of_run
    (permitted : Machine.Allows apply Permits (create lanes ttl options) events) :
    OnlyOpensStore (Machine.final apply (create lanes ttl options) events) :=
  (Machine.final_induction apply (fun c => Opens c ∧ OnlyOpensStore c)
    ⟨opens_create lanes ttl options, onlyOpensStore_create lanes ttl options⟩
    (fun _ now _ ⟨opens, only⟩ permits => ⟨opens.apply now permits, only.apply opens now permits⟩)
    permitted).2

end

end StreamCache

end CachedStreams
