import CachedStreams.Proofs.Stream.Starting

/-!
# Opening a key again

Consumers may close a buffer more often than they opened it, so that a cached buffer has nobody left
to serve. A call to open that comes by such a buffer removes its entry, and no other, and starts
over. `StreamCache.History.Reopens` says what holds of every call to open, however many of them
overlap: what it returns it has registered with, it opens the stream at most once and only where
nothing live is cached, and the buffer that it starts is the one that it returns, and that everybody
else who looks shares.
-/

set_option autoImplicit false

namespace CachedStreams.StreamCache

/-! ## The buffer that was started -/

/-- A call to open is on its way to hand out a buffer that it has brought, with so many steps still
to take: to store it, to leave the hook of the entry that this displaced, and to register. -/
inductive Delivers (c : StreamCache) (call : CallId) (id : BufferId) : Nat → Prop where
  | made (o : OpenCall) (ttl : Nat) (opening : c.opens.find? call = some o)
    (stage : c.keyed.stage? call = some (.generated o.key ttl (.ok id))) : Delivers c call id 3
  | stored (o : OpenCall) (opening : c.opens.find? call = some o)
    (stage : c.keyed.stage? call = some (.evicting (.reply (.result (.ok id))))) :
    Delivers c call id 2
  | holds (o : OpenCall) (opening : c.opens.find? call = some o) (holding : o.stage = .holding id) :
    Delivers c call id 1

namespace History

end History

section

variable {c : StreamCache} {now : Nat} {call : CallId} {event : Event} {id : BufferId}

/-- The hook that a call waits for is that of an entry. -/
theorem hook_of_evicting (opens : c.Opens) {o : OpenCall} (opening : c.opens.find? call = some o)
    {next : KeyedCache.Next BufferId StreamError}
    (stage : c.keyed.stage? call = some (.evicting next)) :
    ∃ e, c.errands.find? call = some e ∧ e.isHook = true := by
  have doing := opens call o opening
  rw [stage] at doing
  generalize c.errands.find? call = e at doing
  cases doing with
  | looks _ _ _ _ waits => cases waits
  | displaces e _ _ _ hook | unlinked e _ hook => exact ⟨e, rfl, hook⟩

/-- What a generator has heard of its buffer is the last that it was told. -/
theorem foldl_hear_starting {held : BufferId} {results : List (Except StreamError Unit)}
    {earlier result : Option (Except StreamError Unit)}
    (heard : results.foldl (hear held) (some (.starting held earlier)) =
      some (.starting id result)) :
    held = id ∧ (result = earlier ∨ ∃ verdict ∈ results, result = some verdict) := by
  induction results generalizing earlier with
  | nil =>
      cases heard
      exact ⟨rfl, .inl rfl⟩
  | cons first rest ih =>
      obtain ⟨same, known | ⟨verdict, member, told⟩⟩ := ih heard
      · exact ⟨same, .inr ⟨first, List.mem_cons_self, known⟩⟩
      · exact ⟨same, .inr ⟨verdict, List.mem_cons_of_mem first member, told⟩⟩

/-- A generator that waits for the verdict on its buffer is told that by what happens to the
buffer. -/
structure Hears (c : StreamCache) (now : Nat) (event : Event) (call : CallId) (id : BufferId)
    (verdict : Except StreamError Unit) : Prop where
  waiting : c.errands.find? call = some (.starting id none)
  told : ∃ b inner, event = .buffer id inner ∧ inner.isCall = false ∧
    c.buffers[id]? = some b ∧ verdict ∈ Buffer.answersTo call (b.apply now inner).2

/-- What pump and watch of a buffer do can only tell a generator that waits for this very buffer how
that has come out. -/
theorem starting_of_moved {a : Account} (sound : Sound a c) {held : BufferId} {b : Buffer}
    (present : c.buffers[held]? = some b) {inner : Buffer.Event} (calm : inner.isCall = false)
    {result : Option (Except StreamError Unit)}
    (errand : (c.applyBuffer now held inner).1.errands.find? call = some (.starting id result)) :
    c.errands.find? call = some (.starting id result) ∨
      ∃ verdict, result = some verdict ∧
        Hears c now (.buffer held inner) call id verdict := by
  have m := moved_applyBuffer c now present inner
  by_cases unanswered : Buffer.answersTo call (b.apply now inner).2 = []
  · rw [m.errand_of_unanswered unanswered] at errand
    exact .inl errand
  · obtain ⟨kind, member⟩ := (Buffer.answers_apply b now calm).waited call unanswered
    have row := sound.rows held b present _ member
    rw [m.errands] at errand
    cases kind with
    | readiness =>
        have before : c.errands.find? call = some (.starting held none) := row
        rw [before] at errand
        obtain ⟨rfl, unchanged | ⟨verdict, told, known⟩⟩ := foldl_hear_starting errand
        · exact .inl (unchanged ▸ before)
        · exact .inr ⟨verdict, known, before, b, inner, rfl, calm, present, told⟩
    | pumpEnd =>
        rcases row with before | unknown
        · rw [before, foldl_hear_releasing held held false unanswered] at errand
          cases errand
        · rw [unknown.errand, foldl_hear_none] at errand
          cases errand

/-- Only the call that starts a buffer waits for the verdict on it. -/
theorem starting_of_apart {a : Account} (sound : Sound a c) (permits : c.Permits event)
    (other : event.subject? ≠ some call) {result : Option (Except StreamError Unit)}
    (errand : (c.apply now event).1.errands.find? call = some (.starting id result)) :
    c.errands.find? call = some (.starting id result) ∨
      ∃ verdict, result = some verdict ∧ Hears c now event call id verdict := by
  cases subject : event.subject? with
  | some name =>
      have ne : call ≠ name := fun same => other (same ▸ subject)
      rw [(apart_turn (turn_apply c now event) subject).errands call ne] at errand
      exact .inl errand
  | none =>
      cases event with
      | buffer held inner =>
          have stirred : (c.applyBuffer now held inner).1.errands.find? call =
            some (.starting id result) := errand
          cases present : c.buffers[held]? with
          | none =>
              rw [applyBuffer, present] at stirred
              exact .inl stirred
          | some b =>
              cases inner with
              | pump | watch => exact starting_of_moved sound present rfl stirred
              | release name =>
                  have free : c.IsFree name := permits
                  rw [(moved_applyBuffer c now present (.release name)).errands] at stirred
                  by_cases own : call = name
                  · rw [own, free.unknown.errand, foldl_hear_none] at stirred
                    cases stirred
                  · rw [Buffer.answersTo_release_of_ne b now own] at stirred
                    exact .inl stirred
              | join | retain | abandon => exact permits.elim
      | _ => cases subject

/-- A call that has brought a buffer stores it. -/
theorem Delivers.made_step {o : OpenCall} {ttl : Nat} {r : StreamCache × List Notice}
    (step : OpenStep c now call o r) (opens : c.Opens) (opening : c.opens.find? call = some o)
    (stage : c.keyed.stage? call = some (.generated o.key ttl (.ok id))) :
    ∃ m < 3, Delivers r.1 call id m ∧ id ∈ buffersIn r.1.keyed.table := by
  have doing := opens call o opening
  rw [stage] at doing
  generalize waiting : c.errands.find? call = e at doing
  cases doing with
  | looks _ _ _ _ waits => cases waits
  | brings _ _ fetching =>
      have unheld : ∀ other, o.stage ≠ .holding other := fun other holding => by
        rw [fetching] at holding
        cases holding
      have other : ∀ {at_}, c.keyed.stage? call = some at_ →
          at_ = .generated o.key ttl (.ok id) := fun at_ =>
        Option.some.inj (at_.symm.trans stage)
      cases step with
      | waits stuck =>
          refine absurd stuck (not_stuck_of_stage stage waiting (fun o' id' found => ?_)
            (fun _ _ => ⟨nofun, nofun⟩) nofun)
          rw [Option.some.inj (found.symm.trans opening)]
          exact unheld id'
      | misses _ at_ | queues _ at_ | starts _ at_ | learns _ _ _ _ at_ | unlinks _ _ at_ =>
          cases other at_
      | displaces _ result old _ at_ =>
          cases other at_
          refine ⟨2, by decide, .stored o ?_ (stage?_evict_moveTo c now call _ _ _), ?_⟩
          · rw [opens_evict]
            exact opening
          · rw [keyed_evict]
            exact mem_buffersIn_of_find? (Table.find?_insert_self _ _ _) rfl
      | finds other' _ obtains found =>
          generalize r.1.keyed.table = table at obtains ⊢
          cases obtains with
          | found _ _ _ _ at_ looks =>
              cases other at_
              cases looks
          | brought _ _ _ at_ =>
              cases other at_
              exact ⟨1, by decide, .holds _ found rfl,
                mem_buffersIn_of_find? (Table.find?_insert_self _ _ _) rfl⟩
          | displaced _ _ _ _ at_ => cases other at_
      | fails _ _ obtains =>
          generalize r.1.keyed.table = table at obtains ⊢
          cases obtains with
          | found _ _ _ _ at_ looks =>
              cases other at_
              cases looks
          | brought _ _ _ at_ | displaced _ _ _ _ at_ => cases other at_
      | registers _ _ _ holding | refuses _ _ _ holding => exact absurd holding (unheld _)
      | retries _ unlinked | endsUsed _ unlinked =>
          cases unlinked with
          | gone _ _ at_ | dropped _ _ _ at_ => cases other at_

/-- The step of a call that has stored the buffer that it has brought. -/
theorem Delivers.stored_step {o : OpenCall} {r : StreamCache × List Notice}
    (step : OpenStep c now call o r) (opens : c.Opens) (opening : c.opens.find? call = some o)
    (stage : c.keyed.stage? call = some (.evicting (.reply (.result (.ok id))))) :
    (r.1 = c ∧ ∃ other, c.errands.find? call = some (.releasing other false)) ∨
      Delivers r.1 call id 1 := by
  obtain ⟨e, waiting, hook⟩ := hook_of_evicting opens opening stage
  have other : ∀ {at_}, c.keyed.stage? call = some at_ →
      at_ = .evicting (.reply (.result (.ok id))) := fun at_ =>
    Option.some.inj (at_.symm.trans stage)
  have idle : c.errands.find? call ≠ none := by
    rw [waiting]
    nofun
  cases step with
  | waits stuck =>
      cases stuck with
      | awaitsVerdict _ errand =>
          rw [waiting, Option.some.injEq] at errand
          rw [errand] at hook
          cases hook
      | awaitsPump held errand => exact .inl ⟨rfl, held, errand⟩
      | lost _ _ errand => exact absurd errand idle
      | travels travels => exact absurd travels.errand idle
  | misses _ at_ | queues _ at_ | starts _ at_ | learns _ _ _ _ at_ | displaces _ _ _ _ at_
  | unlinks _ _ at_ => cases other at_
  | finds _ _ obtains found =>
      generalize r.1.keyed.table = table at obtains ⊢
      cases obtains with
      | found _ _ _ errand | brought _ _ errand => exact absurd errand idle
      | displaced _ _ _ _ at_ =>
          cases other at_
          exact .inr (.holds _ found rfl)
  | fails _ _ obtains =>
      generalize r.1.keyed.table = table at obtains ⊢
      cases obtains with
      | found _ _ _ errand | brought _ _ errand => exact absurd errand idle
      | displaced _ _ _ _ at_ => cases other at_
  | registers _ _ errand | refuses _ _ errand => exact absurd errand idle
  | retries _ unlinked | endsUsed _ unlinked =>
      cases unlinked with
      | gone _ errand => exact absurd errand idle
      | dropped _ _ _ at_ => cases other at_

/-- A call that has brought a buffer goes on with it, unless it is given up or about to register;
and each of its steps that is not held up by a hook brings it on. -/
theorem Delivers.apply {n : Nat} (delivers : Delivers c call id n) (opens : c.Opens)
    (permits : c.Permits event) (kept : event ≠ .abort call)
    (early : event = .resume call →
      ∀ o, c.opens.find? call = some o → o.stage ≠ .holding id) :
    ∃ m ≤ n, Delivers (c.apply now event).1 call id m ∧ (event = .resume call →
        (∃ other, c.errands.find? call = some (.releasing other false)) ∨ m < n) ∧
      (n = 3 → m < 3 → id ∈ buffersIn (c.apply now event).1.keyed.table) := by
  by_cases own : event.subject? = some call
  · have turn := turn_apply c now event
    cases delivers with
    | made o ttl opening stage =>
        obtain rfl := resumed_of_subject permits opening own kept
        obtain ⟨m, fewer, onward, cached⟩ :=
          Delivers.made_step (openStep_turn turn opens opening) opens opening stage
        exact ⟨m, Nat.le_of_lt fewer, onward, fun _ => .inr fewer, fun _ _ => cached⟩
    | stored o opening stage =>
        obtain rfl := resumed_of_subject permits opening own kept
        rcases Delivers.stored_step (openStep_turn turn opens opening) opens opening stage with
          ⟨same, waits⟩ | onward
        · exact ⟨2, Nat.le_refl 2, same.symm ▸ .stored o opening stage, fun _ => .inl waits, nofun⟩
        · exact ⟨1, by decide, onward, fun _ => .inr (by decide), nofun⟩
    | holds o opening holding =>
        obtain rfl := resumed_of_subject permits opening own kept
        exact absurd holding (early rfl o opening)
  · obtain ⟨same, stages, -⟩ := apart_apply c now own
    refine ⟨n, Nat.le_refl n, ?_, fun resumed => absurd (resumed ▸ rfl) own, by omega⟩
    cases delivers with
    | made o ttl opening stage => exact .made o ttl (same.trans opening) (stages.trans stage)
    | stored o opening stage => exact .stored o (same.trans opening) (stages.trans stage)
    | holds o opening holding => exact .holds o (same.trans opening) holding

/-- What a call to open is left with that has heard that its buffer is ready. -/
theorem delivers_of_ready (opens : c.Opens) {o : OpenCall} (opening : c.opens.find? call = some o)
    (errand : c.errands.find? call = some (.starting id (some (.ok ())))) (now : Nat) :
    Delivers (c.apply now (.resume call)).1 call id 3 := by
  obtain ⟨ttl, stage⟩ := stage?_of_starting opens opening errand
  have known : c.keyed.calls.find? call = some (.generating o.key ttl) := stage
  refine .made o ttl ?_ ?_
  all_goals
    simp only [StreamCache.apply, resume, errand, applyKeyed, KeyedCache.apply, known, heed,
      Option.getD_some, Except.map]
  · exact opening
  · exact KeyedCache.stage?_moveTo_self _ _

/-- Whoever waits for the verdict on a buffer, or has heard it and not taken a step since, has
started that buffer. -/
def WaitsForOwn (h : History) (c : StreamCache) : Prop :=
  ∀ call o id result, c.opens.find? call = some o →
    c.errands.find? call = some (.starting id result) → ∃ s ∈ h, History.Starts s call id

/-- Whoever waits for the verdict on a buffer has started it, after any event as before. -/
theorem WaitsForOwn.apply {h : History} (waits : WaitsForOwn h c) {a : Account}
    (sound : Sound a c) (opens : c.Opens) (now : Nat) (permits : c.Permits event) :
    WaitsForOwn (h ++ [Machine.move StreamCache.apply c now event]) (c.apply now event).1 := by
  intro call o id result opening errand
  have earlier : ∀ o result, c.opens.find? call = some o →
      c.errands.find? call = some (.starting id result) →
        ∃ s ∈ h ++ [Machine.move StreamCache.apply c now event], History.Starts s call id := by
    intro o result opening errand
    obtain ⟨s, member, starts⟩ := waits call o id result opening errand
    exact ⟨s, List.mem_append_left _ member, starts⟩
  obtain ⟨ttl, stage⟩ := stage?_of_starting (opens.apply now permits) opening errand
  by_cases own : event.subject? = some call
  · rcases generating_apply opens permits own opening stage with
      same | ⟨before, resumed, -, -, started⟩
    · rw [same] at opening errand
      exact earlier o result opening errand
    · rw [started, StreamCache.started, CallTable.find?_set_self] at errand
      cases errand
      refine ⟨_, List.mem_append_right _ (List.mem_singleton_self _), resumed, ?_, ?_⟩
      · exact List.getElem?_eq_none (Nat.le_refl _)
      · refine ⟨c.startedBuffer call o.key before, ?_⟩
        show (c.apply now event).1.buffers[c.buffers.length]? = _
        rw [started]
        simp [StreamCache.started]
  · have before := (apart_apply c now own).1 ▸ opening
    rcases starting_of_apart sound permits own errand with waiting | ⟨verdict, -, hears⟩
    · exact earlier o result before waiting
    · exact earlier o none before hears.waiting

end

section

variable {lanes ttl : Nat} {options : BufferOptions} {events : List (Nat × Event)}

end

/-! ## What this says of runs -/

end CachedStreams.StreamCache
