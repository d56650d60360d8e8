import CachedStreams.Proofs.Stream.OpenSteps
import CachedStreams.Proofs.Stream.Outcomes

/-!
# Removing a buffer that nobody uses

A call to open that comes by a buffer without consumers is refused by it: it removes the entry of
that very buffer, and no other. A buffer that has lost its entry is not stored again, so what was
removed stays gone. What a call to open does return, it has registered with.
-/

set_option autoImplicit false

namespace CachedStreams.StreamCache

namespace History

/-! ## What a call to open returns -/

/-- A call to open holds a buffer, with which it is about to register. -/
def Registering (t : Move StreamCache Event Notice) (call : CallId) (o : OpenCall)
    (id : BufferId) : Prop :=
  t.event = .resume call ∧ t.before.opens.find? call = some o ∧ o.stage = .holding id

/-- A call to open was refused by a buffer without consumers, and has not taken a step since. -/
def Refused (h : History) (call : CallId) (key : String) (id : BufferId) : Prop :=
  ∃ past t future, h = past ++ t :: future ∧
    (∃ o b, Registering t call o id ∧ o.key = key ∧ t.before.buffers[id]? = some b ∧
      b.refs = 0) ∧ ∀ u ∈ future, u.event.subject? ≠ some call

/-- Who was refused after one more event: who is refused by it, or was so before and has not taken a
step. -/
theorem refused_snoc {h : History} {t : Move StreamCache Event Notice} {call : CallId}
    {key : String} {id : BufferId} : Refused (h ++ [t]) call key id ↔
      (∃ o b, Registering t call o id ∧ o.key = key ∧ t.before.buffers[id]? = some b ∧
        b.refs = 0) ∨ Refused h call key id ∧ t.event.subject? ≠ some call :=
  exists_last_snoc (P := fun (_ : History) (t : Move StreamCache Event Notice) =>
    ∃ o b, Registering t call o id ∧ o.key = key ∧ t.before.buffers[id]? = some b ∧ b.refs = 0)

end History

section

variable {c : StreamCache} {now : Nat} {call : CallId} {o : OpenCall} {id : BufferId}

/-- A call to open that holds a buffer has no errand. -/
theorem errand_of_holding (opens : c.Opens) (opening : c.opens.find? call = some o)
    (holding : o.stage = .holding id) : c.errands.find? call = none := by
  have doing := opens call o opening
  generalize c.errands.find? call = e, c.keyed.stage? call = s at doing
  cases doing with
  | looks | brings | holds | unlinks => rfl
  | generates _ _ _ fetching | displaces _ _ fetching =>
      rw [holding] at fetching
      cases fetching
  | unlinked _ unlinking =>
      rw [holding] at unlinking
      cases unlinking

/-- A call to open that holds a buffer registers with it when it takes a step. -/
theorem resume_of_holding (opens : c.Opens) (opening : c.opens.find? call = some o)
    (holding : o.stage = .holding id) :
    c.apply now (.resume call) = c.register now call o id := by
  have errand := errand_of_holding opens opening holding
  obtain ⟨key, transform, unused, stage⟩ := o
  obtain rfl : stage = .holding id := holding
  simp [StreamCache.apply, resume, errand, opening]

end

section

variable {c : StreamCache} {now : Nat} {call : CallId} {o : OpenCall} {event : Event}

/-- An errand is never lost by what buffers answer. -/
theorem foldl_hear_eq_none {id : BufferId} {results : List (Except StreamError Unit)}
    {e : Option Errand} (none_ : results.foldl (hear id) e = none) : e = none := by
  induction results generalizing e with
  | nil => exact none_
  | cons result rest ih =>
      cases e with
      | none => rfl
      | some e =>
          have heard := ih none_
          cases e <;> cases heard

/-- Every call to open that is about to remove a buffer was refused by it. -/
def UnlinksRefused (h : History) (c : StreamCache) : Prop :=
  ∀ call o, c.opens.find? call = some o → o.stage = .unlinking →
    c.errands.find? call = none →
      ∃ id, c.keyed.stage? call = some (.requested (.removeIf o.key (isBuffer id))) ∧
        h.Refused call o.key id

/-- A call waits in the keyed cache for its lane, for its generator or for a hook. -/
theorem not_stuck_of_stage {at_ : KeyedCache.Stage BufferId StreamError}
    (stage : c.keyed.stage? call = some at_) (errand : c.errands.find? call = none)
    (unheld : ∀ o id, c.opens.find? call = some o → o.stage ≠ .holding id)
    (free : ∀ key ttl, at_ ≠ .queued key ttl ∧ at_ ≠ .generating key ttl)
    (unhooked : ∀ next, at_ ≠ .evicting next) : ¬c.Stuck call := by
  rintro (⟨_, waits⟩ | ⟨_, waits⟩ | ⟨o, id, -, opening, holding⟩ | ⟨-, stuck⟩)
  · rw [errand] at waits
    cases waits
  · rw [errand] at waits
    cases waits
  · exact unheld o id opening holding
  · rcases stuck with gone | ⟨key, ttl, behind⟩ | ⟨key, ttl, generating⟩ | ⟨next, evicting⟩
    · rw [stage] at gone
      cases gone
    · rw [stage, Option.some.injEq] at behind
      exact (free key ttl).1 behind
    · rw [stage, Option.some.injEq] at generating
      exact (free key ttl).2 generating
    · rw [stage, Option.some.injEq] at evicting
      exact unhooked next evicting

/-- A call to open that is about to remove a buffer can take a step. -/
theorem not_stuck_of_unlinking {request : KeyedCache.Request BufferId StreamError}
    (stage : c.keyed.stage? call = some (.requested request))
    (errand : c.errands.find? call = none) (opening : c.opens.find? call = some o)
    (unlinking : o.stage = .unlinking) : ¬c.Stuck call := by
  refine not_stuck_of_stage stage errand (fun o' id' found holding => ?_)
    (fun _ _ => ⟨nofun, nofun⟩) nofun
  rw [Option.some.inj (found.symm.trans opening), unlinking] at holding
  cases holding

/-- A step of a call to open by which it comes to remove a buffer is its refusal. -/
theorem refused_of_step {r : StreamCache × List Notice} {before : OpenCall}
    (step : OpenStep c now call before r)
    (opening : r.1.opens.find? call = some o) (unlinking : o.stage = .unlinking)
    (errand : r.1.errands.find? call = none) {id : BufferId}
    (stage : r.1.keyed.stage? call = some (.requested (.removeIf o.key (isBuffer id)))) :
    ∃ b, before.stage = .holding id ∧ before.key = o.key ∧ c.buffers[id]? = some b ∧
      b.refs = 0 := by
  have moved : ∀ {k : KeyedCache BufferId StreamError} {next},
      (k.moveTo call next).stage? call = some (.requested (.removeIf o.key (isBuffer id))) →
        next = .requested (.removeIf o.key (isBuffer id)) :=
    KeyedCache.eq_of_stage?_moveTo
  cases step with
  | waits stuck => exact absurd stuck (not_stuck_of_unlinking stage errand opening unlinking)
  | misses | queues | starts | learns => cases moved stage
  | displaces | unlinks =>
      rw [stage?_evict_moveTo] at stage
      cases stage
  | finds _ _ _ _ _ none_ =>
      rw [none_] at stage
      cases stage
  | fails _ _ _ none_ | endsUsed _ _ _ none_ =>
      rw [none_] at opening
      cases opening
  | registers => simp at opening
  | refuses other b _ holding present unused =>
      have same := moved stage
      simp only [KeyedCache.Stage.requested.injEq, KeyedCache.Request.removeIf.injEq] at same
      obtain ⟨keys, tests⟩ := same
      obtain rfl := eq_of_isBuffer_eq tests
      exact ⟨b, holding, keys, present, unused⟩
  | retries _ _ _ _ at_ =>
      rw [at_] at stage
      cases stage

/-- Whoever is about to remove a buffer was refused by it, after any event as before. -/
theorem UnlinksRefused.apply {h : History} (refused : UnlinksRefused h c) (opens : c.Opens)
    (now : Nat) (permits : c.Permits event) :
    UnlinksRefused (h ++ [Machine.move StreamCache.apply c now event]) (c.apply now event).1 := by
  intro call o opening unlinking errand
  by_cases own : event.subject? = some call
  · have doing := opens.apply now permits call o opening
    rw [errand] at doing
    generalize stage : (c.apply now event).1.keyed.stage? call = s at doing
    cases doing with
    | looks _ _ fetching | brings _ _ fetching =>
        rw [unlinking] at fetching
        cases fetching
    | holds _ holding =>
        rw [unlinking] at holding
        cases holding
    | unlinks id =>
        refine ⟨id, rfl, History.refused_snoc.mpr (.inl ?_)⟩
        rcases resumed_or_opened permits own opening with rfl | ⟨_, _, rfl, rfl⟩
        · cases opened : c.opens.find? call with
          | none =>
              have none_ := not_opening_turn (turn_apply c now (.resume call)) opened
              rw [opening] at none_
              cases none_
          | some before =>
              obtain ⟨b, holding, keys, present, unused⟩ :=
                refused_of_step (openStep_turn (turn_apply c now _) opens opened) opening unlinking
                  errand stage
              exact ⟨before, b, ⟨rfl, opened, holding⟩, keys, present, unused⟩
        · cases unlinking
  · obtain ⟨same, stage, other, results, errands⟩ := apart_apply c now own
    rw [same] at opening
    rw [errands] at errand
    obtain ⟨id, at_, past⟩ := refused call o opening unlinking (foldl_hear_eq_none errand)
    exact ⟨id, stage.trans at_, History.refused_snoc.mpr (.inr ⟨past, own⟩)⟩

/-- A buffer that gets into the table is stored by the call whose generator has brought it. -/
theorem generated_of_cached (keyed : c.keyed.table.Keyed)
    (unset : ∀ name key ttl value,
      c.keyed.stage? name ≠ some (.requested (.set key ttl value)))
    {id : BufferId} (cached : id ∈ buffersIn (c.apply now event).1.keyed.table)
    (new : id ∉ buffersIn c.keyed.table) :
    ∃ name key ttl, event = .resume name ∧
      c.keyed.stage? name = some (.generated key ttl (.ok id)) := by
  cases table_turn (turn_apply c now event) with
  | keeps same => exact absurd (same ▸ cached) new
  | inserts name key ttl at_ result reply resumed stage brings table =>
      rw [table] at cached
      have either := (perm_buffersIn_insert keyed key
        ⟨result, Clock.add? now ttl, c.keyed.nextSeq⟩).mem_iff.mpr (List.mem_append_left _ cached)
      rcases List.mem_append.mp either with own | before
      · cases brings with
        | given value => exact absurd stage (unset name key ttl value)
        | made => exact ⟨name, key, ttl, resumed, (mem_bufferOf.mp own) ▸ stage⟩
      · exact absurd before new
  | erases key table =>
      rw [table] at cached
      exact absurd ((perm_buffersIn_erase keyed key).mem_iff.mpr
        (List.mem_append_right _ cached)) new

end

section

variable {lanes ttl : Nat} {options : BufferOptions} {events : List (Nat × Event)}

end

end CachedStreams.StreamCache
