import CachedStreams.Proofs.Stream.PumpEnds
import CachedStreams.Proofs.Stream.Storing

/-!
# Sweeps of a cache of buffers

A flush or a purge removes the entries of a snapshot one by one while other calls go on. Of the
entries that are due, those that the table still holds stand on the list of what the sweep has yet
to remove, as long as no such entry is stored in the meantime (`StreamCache.Sweeping.apply`); so
none of them is left when the sweep is over (`StreamCache.Sweeping.none_left`).

A sweep can always take its next step, except while a hook of it waits for the end of a pump that
has been asked to end and still runs. So a sweep that cannot take a step is over if no such pump is
left (`StreamCache.Sweeping.isOver`).
-/

set_option autoImplicit false

namespace CachedStreams

namespace KeyedCache

variable {V E : Type}

/-- A sweep lists every entry that is due for it. -/
theorem mem_snapshot {c : KeyedCache V E} (keyed : c.table.Keyed) {key : String}
    {entry : Entry V E} (held : c.table.find? key = some entry) (now : Nat) {sweep : Sweep}
    (due : sweep = .flush ∨ entry.isLive now = false) :
    (entry.seq, key) ∈ c.snapshot now sweep := by
  have expired : entry.isLive now = false → (entry.seq, key) ∈ c.table.expired now := fun gone =>
    (Table.mem_select keyed).mpr ⟨entry, held, rfl, by simp [gone]⟩
  cases sweep with
  | flush =>
      cases live : entry.isLive now with
      | true =>
          exact List.mem_append_left _ ((Table.mem_select keyed).mpr ⟨entry, held, rfl, live⟩)
      | false => exact List.mem_append_right _ (expired live)
  | purge =>
      rcases due with no | gone
      · cases no
      · exact expired gone

end KeyedCache

namespace StreamCache

section

variable {c : StreamCache} {now : Nat} {call : CallId} {event : Event}
  {r : StreamCache × List Notice}

/-! ## What is on the list of a sweep -/

/-- A list names every entry of the table that is due. -/
def Lists (c : StreamCache) (due : Entry BufferId StreamError → Prop)
    (rest : List (Nat × String)) : Prop :=
  ∀ key entry, c.keyed.table.find? key = some entry → due entry → (entry.seq, key) ∈ rest

section

variable {sweep : KeyedCache.Sweep} {due : Entry BufferId StreamError → Prop}

/-- A list still names all that is due if the turn has left nothing new that is. -/
theorem Lists.turn {rest : List (Nat × String)} (lists : c.Lists due rest)
    (kept : ∀ key entry, r.1.keyed.table.find? key = some entry → due entry →
      c.keyed.table.find? key = some entry) : r.1.Lists due rest :=
  fun key entry found dueEntry => lists key entry (kept key entry found dueEntry) dueEntry

/-- The first of the list is struck off once it is not in the table any more. -/
theorem Lists.strike {number : Nat} {key : String} {rest : List (Nat × String)}
    (lists : c.Lists due ((number, key) :: rest))
    (kept : ∀ key entry, r.1.keyed.table.find? key = some entry → due entry →
      c.keyed.table.find? key = some entry)
    (gone : ∀ entry, r.1.keyed.table.find? key = some entry → entry.seq ≠ number) :
    r.1.Lists due rest := by
  intro other entry found dueEntry
  rcases List.mem_cons.mp (lists other entry (kept other entry found dueEntry) dueEntry) with
    same | later
  · cases same
    exact absurd rfl (gone entry found)
  · exact later

/-! ## How far a sweep has come -/

/-- What a call that carries out a sweep has in hand, and how far it has come. All that is due is on
its list, and nothing is due once it is over; a hook of it that waits does so for a pump that has
been asked to end and still runs. -/
inductive SweepDuty (c : StreamCache) (sweep : KeyedCache.Sweep)
    (due : Entry BufferId StreamError → Prop) (call : CallId) :
    Option Errand → Option (KeyedCache.Stage BufferId StreamError) → Prop where
  | idle (listed : c.Lists due []) : SweepDuty c sweep due call none none
  | asks : SweepDuty c sweep due call none (some (.requested sweep.request))
  | removes (rest : List (Nat × String)) (count : Nat) (listed : c.Lists due rest) :
    SweepDuty c sweep due call none (some (.sweeping rest count sweep))
  | releases (id : BufferId) (ended : Bool) (rest : List (Nat × String)) (count : Nat)
    (listed : c.Lists due rest)
    (awaits : ended = false → ∃ b, c.buffers[id]? = some b ∧ b.AwaitsEnd call) :
    SweepDuty c sweep due call (some (.releasing id ended))
      (some (.evicting (.sweep rest count sweep)))
  | drops (rest : List (Nat × String)) (count : Nat) (listed : c.Lists due rest) :
    SweepDuty c sweep due call (some .idle) (some (.evicting (.sweep rest count sweep)))

/-- A call carries out a sweep of what is due, or has done so. -/
structure Sweeping (c : StreamCache) (sweep : KeyedCache.Sweep)
    (due : Entry BufferId StreamError → Prop) (call : CallId) : Prop where
  unopened : c.opens.find? call = none
  duty : c.SweepDuty sweep due call (c.errands.find? call) (c.keyed.stage? call)

/-- An idle errand stays so, whatever the answers are. -/
theorem foldl_hear_idle (id : BufferId) (results : List (Except StreamError Unit)) :
    results.foldl (hear id) (some .idle) = some .idle := by
  induction results with
  | nil => rfl
  | cons result rest ih => exact ih

/-- The hook that is run on an entry releases the buffer of the entry. -/
theorem SweepDuty.evict {result : Except StreamError BufferId} {rest : List (Nat × String)}
    {count : Nat} (present : ∀ id, result = .ok id → ∃ b, c.buffers[id]? = some b)
    (stage : c.keyed.stage? call = some (.evicting (.sweep rest count sweep)))
    (listed : (c.evict now call result).1.Lists due rest) :
    (c.evict now call result).1.SweepDuty sweep due call
      ((c.evict now call result).1.errands.find? call)
      ((c.evict now call result).1.keyed.stage? call) := by
  rw [keyed_evict, stage]
  cases result with
  | error e =>
      show SweepDuty _ sweep due call ((c.errands.set call .idle).find? call) _
      rw [CallTable.find?_set_self]
      exact .drops rest count listed
  | ok id =>
      obtain ⟨b, held⟩ := present id rfl
      have m := moved_applyBuffer { c with errands := c.errands.set call (.releasing id false) } now
        held (.release call)
      have errand := m.errands call
      simp only [CallTable.find?_set_self] at errand
      show SweepDuty (applyBuffer _ now id (.release call)).1 sweep due call
        ((applyBuffer _ now id (.release call)).1.errands.find? call) _
      rw [errand]
      by_cases unanswered : Buffer.answersTo call (b.apply now (.release call)).2 = []
      · rw [unanswered]
        have awaits := Buffer.awaitsEnd_of_release unanswered
        refine .releases id false rest count listed fun _ => ⟨_, ?_, awaits⟩
        rw [m.getElem?, if_pos rfl]
      · rw [foldl_hear_releasing id id false unanswered]
        exact .releases id true rest count listed nofun

namespace Sweeping

/-- A call that is about to carry out a sweep. -/
theorem of_asked (unopened : c.opens.find? call = none) (errand : c.errands.find? call = none)
    (stage : c.keyed.stage? call = some (.requested sweep.request)) :
    c.Sweeping sweep due call :=
  ⟨unopened, by rw [errand, stage]; exact .asks⟩

/-- A step of the call itself. -/
theorem step {a : Account} (sound : Sound a c) (sweeping : c.Sweeping sweep due call)
    (turn : Turn c now (.resume call) r)
    (all : ∀ key entry, c.keyed.table.find? key = some entry → due entry →
      sweep = .flush ∨ entry.isLive now = false)
    (kept : ∀ key entry, r.1.keyed.table.find? key = some entry → due entry →
      c.keyed.table.find? key = some entry) :
    r.1.SweepDuty sweep due call (r.1.errands.find? call) (r.1.keyed.stage? call) := by
  obtain ⟨none_, duty⟩ := sweeping
  generalize errand : c.errands.find? call = e, stage : c.keyed.stage? call = s at duty
  have known : ∀ {s'}, c.keyed.stage? call = some s' → s = some s' := fun at_ =>
    stage.symm.trans at_
  cases turn with
  | waits => exact errand ▸ stage ▸ duty
  | registers _ _ _ _ _ opening | refuses _ _ _ _ _ opening | starts _ _ _ _ _ _ _ _ opening
  | startsNothing _ _ _ _ _ _ opening =>
      rw [none_] at opening
      cases opening
  | learns _ _ _ _ _ _ at_ | queues _ _ _ _ at_ | generates _ _ _ _ at_ =>
      obtain rfl := known at_
      cases duty
  | replies _ _ _ _ _ _ _ at_ =>
      obtain rfl := known at_
      cases duty
  | gets _ _ _ _ _ at_ | misses _ _ _ _ at_ =>
      obtain rfl := known at_
      cases sweep <;> cases duty
  | hits _ _ _ _ _ _ _ _ at_ looks =>
      obtain rfl := known at_
      cases looks <;> cases sweep <;> cases duty
  | stores _ _ _ _ _ _ _ _ _ at_ brings | displaces _ _ _ _ _ _ _ _ at_ brings =>
      obtain rfl := known at_
      cases brings <;> cases sweep <;> cases duty
  | removes _ _ _ _ _ _ at_ drops | removesNothing _ _ _ _ _ _ _ at_ drops =>
      obtain rfl := known at_
      cases drops <;> cases sweep <;> cases duty
  | dropsResult _ _ _ before =>
      rw [errand] at before
      subst before
      cases duty
  | dropsHook _ _ before done unheard =>
      rw [errand] at before
      subst before
      cases duty with
      | releases | drops => exact absurd stage (unheard _)
  | sweepsOn _ _ rest count other _ _ at_ =>
      obtain rfl := known at_
      simp only [CallTable.find?_erase_self, KeyedCache.stage?_moveTo_self]
      cases duty with
      | releases _ _ _ _ listed | drops _ _ listed => exact .removes rest count (listed.turn kept)
  | beginsSweep _ other travels at_ =>
      obtain rfl := known at_
      have same : other = sweep := by cases other <;> cases sweep <;> cases duty <;> rfl
      subst same
      simp only [travels.errand, KeyedCache.stage?_moveTo_self]
      refine .removes _ 0 fun key entry found dueEntry => ?_
      have before := kept key entry found dueEntry
      exact KeyedCache.mem_snapshot sound.keyed before now (all key entry before dueEntry)
  | sweeps _ key entry rest count other travels at_ present =>
      obtain rfl := known at_
      cases duty with
      | removes _ _ listed =>
          refine .evict (fun id own => ?_) (KeyedCache.stage?_moveTo_self _ _)
            (listed.strike kept fun left found => ?_)
          · obtain ⟨b, held, -⟩ :=
              sound.kept id (sound.cached id (mem_buffersIn_of_find? present own))
            exact ⟨b, held⟩
          · rw [keyed_evict] at found
            have erased : (c.keyed.table.erase key).find? key = some left := found
            simp at erased
  | passes _ number key rest count other travels at_ gone =>
      obtain rfl := known at_
      simp only [travels.errand, KeyedCache.stage?_moveTo_self]
      cases duty with
      | removes _ _ listed => exact .removes rest count (listed.strike kept gone)
  | endsSweep _ count other _ _ travels at_ reacts =>
      obtain rfl := known at_
      cases duty with
      | removes _ _ listed =>
          have left := listed.turn kept
          have same := reaction_of_unopened reacts none_
          rw [same] at left ⊢
          simp only [travels.errand, KeyedCache.stage?_answer_self]
          exact .idle left

/-- Nobody else disturbs the call, except that the buffer that it waits for answers it. -/
theorem apart (sweeping : c.Sweeping sweep due call) (permits : c.Permits event)
    (other : event.subject? ≠ some call)
    (kept : ∀ key entry, (c.apply now event).1.keyed.table.find? key = some entry → due entry →
      c.keyed.table.find? key = some entry) : (c.apply now event).1.Sweeping sweep due call := by
  obtain ⟨none_, duty⟩ := sweeping
  obtain ⟨opening, same, held, results, errand'⟩ := apart_apply c now other
  refine ⟨opening.trans none_, ?_⟩
  rw [same]
  generalize errand : c.errands.find? call = e, stage : c.keyed.stage? call = s at duty
  rw [errand] at errand'
  cases duty with
  | idle listed =>
      rw [errand', foldl_hear_none]
      exact .idle (listed.turn kept)
  | asks =>
      rw [errand', foldl_hear_none]
      exact .asks
  | removes rest count listed =>
      rw [errand', foldl_hear_none]
      exact .removes rest count (listed.turn kept)
  | drops rest count listed =>
      rw [errand', foldl_hear_idle]
      exact .drops rest count (listed.turn kept)
  | releases id ended rest count listed awaits =>
      by_cases unanswered : results = []
      · rw [unanswered] at errand'
        rw [errand']
        refine .releases id ended rest count (listed.turn kept) fun pending => ?_
        subst pending
        obtain ⟨b, present, awaits⟩ := awaits rfl
        obtain ⟨b', present', works⟩ := works_turn (turn_apply c now event) present
        refine ⟨b', present', ?_⟩
        have kept : ∀ inner : Buffer.Event, inner.isJoin = false → inner ≠ .abandon call →
            inner.isPump = false → (b.apply now inner).1.AwaitsEnd call :=
          fun inner other kept calm => (awaits.apply other kept).resolve_right fun no =>
            absurd no.1 (by simp [calm])
        cases works with
        | rests => exact awaits
        | stirs inner same =>
            subst same
            have other : inner.isJoin = false := by
              cases inner with
              | join => exact permits.elim
              | _ => rfl
            have kept : inner ≠ .abandon call := by
              rintro rfl
              exact permits.elim
            rcases awaits.apply other kept with awaits | ⟨-, -, answered⟩
            · exact awaits
            · have heard := (moved_applyBuffer c now present inner).errands call
              rw [errand, foldl_hear_releasing id id false answered] at heard
              cases errand'.symm.trans heard
        | retains => exact kept .retain rfl nofun rfl
        | releases name => exact kept (.release name) rfl nofun rfl
        | abandons name aborted =>
            refine kept (.abandon name) rfl ?_ rfl
            rintro same
            cases same
            exact other (aborted ▸ rfl)
      · rw [errand', foldl_hear_releasing held id ended unanswered]
        exact .releases held true rest count (listed.turn kept) nofun

/-- Whatever happens, the sweep stays on its way, as long as its call does nothing but take steps
and nothing that is due is stored. -/
theorem apply {a : Account} (sound : Sound a c) (sweeping : c.Sweeping sweep due call)
    (permits : c.Permits event) (steps : event.subject? = some call → event = .resume call)
    (all : event = .resume call → ∀ key entry, c.keyed.table.find? key = some entry → due entry →
      sweep = .flush ∨ entry.isLive now = false)
    (kept : ∀ key entry, (c.apply now event).1.keyed.table.find? key = some entry → due entry →
      c.keyed.table.find? key = some entry) : (c.apply now event).1.Sweeping sweep due call := by
  by_cases own : event.subject? = some call
  · obtain rfl := steps own
    have turn := turn_apply c now (.resume call)
    exact ⟨not_opening_turn turn sweeping.unopened, sweeping.step sound turn (all rfl) kept⟩
  · exact sweeping.apart permits own kept

/-- When the sweep is over, nothing is left of what was due. -/
theorem none_left (sweeping : c.Sweeping sweep due call) (isOver : c.keyed.stage? call = none)
    {key : String} {entry : Entry BufferId StreamError}
    (found : c.keyed.table.find? key = some entry) : ¬due entry := by
  intro dueEntry
  have duty := sweeping.duty
  rw [isOver] at duty
  generalize c.errands.find? call = e at duty
  cases duty with
  | idle listed => cases listed key entry found dueEntry

/-- A sweep that cannot take a step, while no pump that has been asked to end still runs, is over.
-/
theorem isOver (sweeping : c.Sweeping sweep due call) (still : c.resume now call = none)
    (released : ∀ b ∈ c.buffers, b.isEnding = false) : c.keyed.stage? call = none := by
  obtain ⟨none_, duty⟩ := sweeping
  generalize errand : c.errands.find? call = e, stage : c.keyed.stage? call = s at duty
  have stuck : c.errands.find? call = none → c.keyed.resume now call = none := fun free => by
    simpa [StreamCache.resume, free, none_] using still
  cases duty with
  | idle => rfl
  | asks | removes =>
      have at_ : c.keyed.calls.find? call = some _ := stage
      have no := stuck errand
      simp [KeyedCache.resume, at_] at no
  | drops => simp [StreamCache.resume, errand] at still
  | releases id ended rest count listed awaits =>
      cases ended with
      | true => simp [StreamCache.resume, errand] at still
      | false =>
          obtain ⟨b, present, -, ending⟩ := awaits rfl
          rw [released b (List.mem_of_getElem? present)] at ending
          cases ending

end Sweeping

end

/-! ## The answer -/

/-- Only the call that is answered has its answer made known, and that changes nothing. -/
theorem eq_of_answered_reaction {other : CallId}
    {reply reply' : KeyedCache.Reply BufferId StreamError}
    (reacts : Reaction c now other reply' r) (ready : List CallId)
    (answered : Notice.answered call reply ∈ ready.map .ready ++ r.2) :
    call = other ∧ r.1 = c := by
  rcases List.mem_append.mp answered with told | told
  · obtain ⟨_, -, same⟩ := List.mem_map.mp told
    cases same
  · cases reacts with
    | passesOn =>
        cases List.mem_singleton.mp told
        exact ⟨rfl, rfl⟩
    | fails | endsUsed => cases List.mem_singleton.mp told
    | finds | retries | ignores => cases told

/-- A call that is answered has taken its last step. -/
theorem ends_of_answered {reply : KeyedCache.Reply BufferId StreamError} (turn : Turn c now event r)
    (answered : Notice.answered call reply ∈ r.2) :
    event = .resume call ∧ c.keyed.stage? call ≠ none ∧ r.1.keyed.stage? call = none := by
  have busy : ∀ {other stage}, c.keyed.stage? other = some stage → c.keyed.stage? other ≠ none :=
    fun at_ gone => by
      rw [at_] at gone
      cases gone
  have evicted : ∀ (d : StreamCache) (other : CallId) (result : Except StreamError BufferId),
      Notice.answered call reply ∉ (d.evict now other result).2 := by
    intro d other result member
    rcases mem_evict d now member with ⟨_, same⟩ | ⟨_, _, _, -, -, same⟩ <;> cases same
  cases turn with
  | opens | begins | waits | learns | dropsResult | dropsHook | sweepsOn | refuses | misses
  | queues | startsNothing | generates | beginsSweep | passes => cases answered
  | givesUp =>
      obtain ⟨_, -, same⟩ := List.mem_map.mp answered
      cases same
  | stirs id inner =>
      rcases mem_applyBuffer c now answered with ⟨_, same⟩ | ⟨_, _, -, -, same⟩ <;> cases same
  | starts | registers => cases List.mem_singleton.mp answered
  | displaces | removes | sweeps => exact absurd answered (evicted _ _ _)
  | replies _ _ _ _ ready _ _ stage reacts | gets _ _ _ ready _ stage reacts
  | hits _ _ _ _ _ _ ready _ stage _ _ reacts
  | stores _ _ _ _ _ _ _ ready _ stage _ _ reacts
  | removesNothing _ _ _ _ _ ready _ stage _ _ reacts
  | endsSweep _ _ _ _ ready _ stage reacts =>
      obtain ⟨rfl, same⟩ := eq_of_answered_reaction reacts ready answered
      exact ⟨rfl, busy stage, by simp [same]⟩

end

end StreamCache

end CachedStreams
