import CachedStreams.Proofs.Stream.Flushing
import CachedStreams.Proofs.Stream.Reopening

/-!
# Streams that nobody can close

A call to open starts a pump while it waits for the verdict on the buffer, and only then stores the
buffer. If the call is given up in between, nobody else knows of the buffer: its pump runs on, and
neither a flush nor any consumer can end it. That is the only way in which a stream is left behind
once no call to open is in progress, the cache has been flushed and all buffers have been closed
(`StreamCache.leaks_iff_abandoned`); wherever else a call is given up, the stream goes.
-/

set_option autoImplicit false

namespace CachedStreams

namespace StreamCache

/-! ## Buffers that are not stored yet -/

/-- A call has in its hands a buffer that it has started and that has not failed: it waits for the
verdict, has heard a good one, or is about to store the buffer. -/
inductive Carries (c : StreamCache) (call : CallId) (id : BufferId) : Prop where
  | waits (errand : c.errands.find? call = some (.starting id none))
  | hears (errand : c.errands.find? call = some (.starting id (some (.ok ()))))
  | brings (key : String) (ttl : Nat)
    (stage : c.keyed.stage? call = some (.generated key ttl (.ok id)))

section

variable {c : StreamCache} {now : Nat} {call : CallId} {event : Event} {o : OpenCall}
  {id : BufferId} {a : Account}

/-- A buffer in the hands of a call was never cached, and that call has started its pump. -/
structure Fledgling (a : Account) (call : CallId) (id : BufferId) (b : Buffer) : Prop where
  unstored : ¬a.stored id
  consistent : b.Consistent
  unclosed : b.phase ≠ .closed
  opener : ∃ p, b.pump = some p ∧ p.opener = call

/-- Nobody asks a pump to end whose buffer is still in the hands of its opener. -/
theorem Fledgling.unasked {b : Buffer} (fledgling : Fledgling a call id b) :
    ∀ p, b.pump = some p → p.stage.isOver = false → p.releaseAsked = false := by
  intro p pump running
  have phase := fledgling.consistent.running p pump running
  cases asked : p.releaseAsked with
  | true =>
      rw [asked, if_pos rfl] at phase
      exact absurd phase fledgling.unclosed
  | false => rfl

/-- A buffer that a call has in its hands was never cached. -/
theorem Carries.fledgling (carries : Carries c call id) (sound : Sound a c) :
    ∃ b, c.buffers[id]? = some b ∧ Fledgling a call id b := by
  have ready : Fresh a.stored c.buffers call id →
      ∃ b, c.buffers[id]? = some b ∧ Fledgling a call id b :=
    fun ⟨unstored, b, present, ready⟩ =>
      ⟨b, present, unstored, ready.consistent, ready.unclosed, ready.opener⟩
  cases carries with
  | waits errand =>
      obtain ⟨unstored, b, present, starting⟩ := sound.errands call _ errand
      obtain ⟨p, pump, opener, -⟩ := starting.pump
      exact ⟨b, present, unstored, starting.consistent, by rw [starting.streaming]; nofun, p, pump,
        opener⟩
  | hears errand => exact ready (sound.errands call _ errand)
  | brings key ttl stage => exact ready (sound.stages call _ stage)

/-- A buffer is in the hands of one call at most. -/
theorem Carries.unique (carries : Carries c call id) {other : CallId}
    (also : Carries c other id) (sound : Sound a c) : other = call := by
  obtain ⟨b, present, -, -, -, p, pump, opener⟩ := carries.fledgling sound
  obtain ⟨b', present', -, -, -, q, pump', opener'⟩ := also.fledgling sound
  rw [present, Option.some.injEq] at present'
  subst present'
  rw [pump, Option.some.injEq] at pump'
  rw [← opener, ← opener', pump']

/-- What a call has brought, it has learned in its last step. -/
theorem carries_of_generated {r : StreamCache × List Notice} {before : OpenCall} {key : String}
    {ttl : Nat} (step : OpenStep c now call before r) (opening : r.1.opens.find? call = some o)
    (stage : r.1.keyed.stage? call = some (.generated key ttl (.ok id))) : Carries c call id := by
  have moved : ∀ {k : KeyedCache BufferId StreamError} {next},
      (k.moveTo call next).stage? call = some (.generated key ttl (.ok id)) →
        next = .generated key ttl (.ok id) := KeyedCache.eq_of_stage?_moveTo
  cases step with
  | waits => exact .brings key ttl stage
  | misses | queues | starts | refuses => cases moved stage
  | learns ttl' other result errand =>
      have same := moved stage
      simp only [KeyedCache.Stage.generated.injEq] at same
      obtain ⟨-, -, verdict⟩ := same
      cases result with
      | error e => cases verdict
      | ok =>
          cases verdict
          exact .hears errand
  | displaces | unlinks =>
      rw [stage?_evict_moveTo] at stage
      cases stage
  | finds _ _ _ _ _ none_ =>
      rw [none_] at stage
      cases stage
  | fails _ _ _ gone | endsUsed _ _ _ gone =>
      rw [gone] at opening
      cases opening
  | registers => simp at opening
  | retries _ _ _ _ at_ =>
      rw [at_] at stage
      cases stage

/-- Only the call that starts a buffer comes to have it in its hands. -/
theorem carries_before (sound : Sound a c) (opens : c.Opens) (permits : c.Permits event)
    (opening : (c.apply now event).1.opens.find? call = some o)
    (carries : Carries (c.apply now event).1 call id) :
    c.buffers[id]? = none ∨ (∃ o, c.opens.find? call = some o) ∧ Carries c call id := by
  by_cases own : event.subject? = some call
  · have starting : ∀ {result}, (c.apply now event).1.errands.find? call =
        some (.starting id result) → c.buffers[id]? = none ∨ c.apply now event = (c, []) := by
      intro result errand
      obtain ⟨ttl, stage⟩ := stage?_of_starting (opens.apply now permits) opening errand
      rcases generating_apply opens permits own opening stage with same | ⟨before, -, -, -, started⟩
      · exact .inr same
      · rw [started, StreamCache.started, CallTable.find?_set_self] at errand
        cases errand
        exact .inl (List.getElem?_eq_none (Nat.le_refl _))
    cases carries with
    | waits errand | hears errand =>
        rcases starting errand with new | same
        · exact .inl new
        · rw [same] at opening errand
          exact .inr ⟨⟨o, opening⟩, by first | exact .waits errand | exact .hears errand⟩
    | brings key ttl stage =>
        rcases resumed_or_opened permits own opening with rfl | ⟨_, _, rfl, rfl⟩
        · have turn := turn_apply c now (.resume call)
          cases opened : c.opens.find? call with
          | none =>
              rw [not_opening_turn turn opened] at opening
              cases opening
          | some before =>
              exact .inr ⟨⟨before, rfl⟩,
                carries_of_generated (openStep_turn turn opens opened) opening stage⟩
        · cases KeyedCache.eq_of_stage?_moveTo stage
  · obtain ⟨same, stages, -⟩ := apart_apply c now own
    refine .inr ⟨⟨o, same ▸ opening⟩, ?_⟩
    cases carries with
    | waits errand =>
        rcases starting_of_apart sound permits own errand with before | ⟨verdict, no, -⟩
        · exact .waits before
        · cases no
    | hears errand =>
        rcases starting_of_apart sound permits own errand with before | ⟨verdict, -, hears⟩
        · exact .hears before
        · exact .waits hears.waiting
    | brings key ttl stage => exact .brings key ttl (stages ▸ stage)

/-- A generator goes on to wait for some buffer, whatever it hears. -/
theorem foldl_hear_of_starting (held id : BufferId) (results : List (Except StreamError Unit))
    (earlier : Option (Except StreamError Unit)) : ∃ other result,
      results.foldl (hear held) (some (.starting id earlier)) = some (.starting other result) := by
  induction results generalizing id earlier with
  | nil => exact ⟨id, earlier, rfl⟩
  | cons first rest ih => exact ih held (some first)

/-- A step of a call that has a buffer in its hands: it keeps it, or stores it. -/
theorem Carries.step (carries : Carries c call id) (opens : c.Opens)
    (opening : c.opens.find? call = some o) (now : Nat) :
    (∃ o, (c.apply now (.resume call)).1.opens.find? call = some o) ∧
        Carries (c.apply now (.resume call)).1 call id ∨
      id ∈ buffersIn (c.apply now (.resume call)).1.keyed.table := by
  cases carries with
  | waits errand =>
      have still : c.apply now (.resume call) = (c, []) := by
        simp [StreamCache.apply, resume, errand]
      exact .inl (still ▸ ⟨⟨o, opening⟩, .waits errand⟩)
  | hears errand =>
      cases delivers_of_ready opens opening errand now with
      | made o' ttl opening' stage => exact .inl ⟨⟨o', opening'⟩, .brings o'.key ttl stage⟩
  | brings key ttl stage =>
      have doing := opens call o opening
      rw [stage] at doing
      obtain ⟨rfl, -⟩ := doing.stores (.made (.ok id))
      have step := openStep_turn (turn_apply c now (.resume call)) opens opening
      obtain ⟨_, -, -, cached⟩ := Delivers.made_step step opens opening stage
      exact .inr cached

/-- Nobody takes from a call what it has in its hands, unless the pump of that is over. -/
theorem Carries.apart (carries : Carries c call id) (sound : Sound a c)
    (permits : c.Permits event) (apart : event.subject? ≠ some call) (now : Nat) :
    Carries (c.apply now event).1 call id ∨
      ∃ b, (c.apply now event).1.buffers[id]? = some b ∧ b.isPumping = false := by
  obtain ⟨-, stages, held, results, errands⟩ := apart_apply c now apart
  cases carries with
  | waits errand =>
      rw [errand] at errands
      obtain ⟨other, result, heard⟩ := foldl_hear_of_starting held id results none
      rw [heard] at errands
      rcases starting_of_apart sound permits apart errands with before | ⟨verdict, told, hears⟩
      · rw [errand, Option.some.injEq, Errand.starting.injEq] at before
        obtain ⟨rfl, rfl⟩ := before
        exact .inl (.waits errands)
      · have waiting := hears.waiting
        rw [errand, Option.some.injEq, Errand.starting.injEq] at waiting
        obtain ⟨rfl, -⟩ := waiting
        subst told
        cases verdict with
        | ok => exact .inl (.hears errands)
        | error e =>
            obtain ⟨b, inner, rfl, calm, present, told⟩ := hears.told
            refine .inr ⟨_, ?_, Buffer.over_of_error calm told⟩
            show (c.applyBuffer now id inner).1.buffers[id]? = _
            rw [getElem?_applyBuffer, if_pos rfl, present, Option.map_some]
  | hears errand =>
      rw [errand] at errands
      obtain ⟨other, result, heard⟩ := foldl_hear_of_starting held id results (some (.ok ()))
      rw [heard] at errands
      rcases starting_of_apart sound permits apart errands with before | ⟨verdict, told, hears⟩
      · rw [errand, Option.some.injEq, Errand.starting.injEq] at before
        obtain ⟨rfl, rfl⟩ := before
        exact .inl (.hears errands)
      · have waiting := hears.waiting
        rw [errand] at waiting
        cases waiting
  | brings key ttl stage => exact .inl (.brings key ttl (stages.trans stage))

/-- A call that is not given up keeps what it has in its hands, until it stores it or its pump is
over. -/
theorem Carries.apply (carries : Carries c call id) (sound : Sound a c) (opens : c.Opens)
    (permits : c.Permits event) (opening : c.opens.find? call = some o)
    (kept : event ≠ .abort call) (now : Nat) :
    (∃ o, (c.apply now event).1.opens.find? call = some o) ∧
        Carries (c.apply now event).1 call id ∨
      id ∈ buffersIn (c.apply now event).1.keyed.table ∨
      ∃ b, (c.apply now event).1.buffers[id]? = some b ∧ b.isPumping = false := by
  by_cases own : event.subject? = some call
  · obtain rfl := resumed_of_subject permits opening own kept
    exact (carries.step opens opening now).imp_right .inl
  · rcases carries.apart sound permits own now with carries | ended
    · exact .inl ⟨⟨o, (apart_apply c now own).1.trans opening⟩, carries⟩
    · exact .inr (.inr ended)

end

/-! ## What is left behind -/

namespace History

/-- The call to open that had a buffer in its hands was given up. -/
def Abandoned (h : History) (id : BufferId) : Prop :=
  ∃ t ∈ h, ∃ call, t.event = .abort call ∧ (∃ o, t.before.opens.find? call = some o) ∧
    Carries t.before call id

/-- A call was given up that waited for the end of the pump of a buffer. -/
def EndForsaken (h : History) (id : BufferId) : Prop :=
  ∃ t ∈ h, ∃ call b, t.event = .abort call ∧ t.before.buffers[id]? = some b ∧
    b.calls.find? call = some .pumpEnd

/-- A buffer whose opener was given up: it is not cached, nobody has it in hand, and nobody asks its
pump to end unless a consumer closes it. -/
structure Stranded (h : History) (c : StreamCache) (id : BufferId) : Prop where
  uncached : ¬h.EverCached id
  uncarried : ∀ call o, c.opens.find? call = some o → ¬Carries c call id
  unasked : ∃ b, c.buffers[id]? = some b ∧ (h.closes id = 0 → ∀ p, b.pump = some p →
    p.stage.isOver = false → p.releaseAsked = false)

/-- Where the buffers have come from whose pumps run, and who waits for their end. -/
structure Traced (h : History) (c : StreamCache) : Prop where
  only : c.OnlyOpensStore
  known : ∀ id b, c.buffers[id]? = some b → b.isPumping = true →
    h.EverCached id ∨ (∃ call o, c.opens.find? call = some o ∧ Carries c call id) ∨
      h.Abandoned id
  stranded : ∀ id, h.Abandoned id → h.Stranded c id
  awaited : ∀ id b, c.buffers[id]? = some b → b.EndAwaited ∨ h.EndForsaken id

/-- A buffer is abandoned after a move if it was before, or if the move gives its opener up. -/
theorem abandoned_snoc {h : History} {t : Move StreamCache Event Notice} {id : BufferId} :
    Abandoned (h ++ [t]) id ↔ h.Abandoned id ∨ ∃ call, t.event = .abort call ∧
      (∃ o, t.before.opens.find? call = some o) ∧ Carries t.before call id := by
  simp [Abandoned, or_and_right, exists_or]

/-- Who waited for the end of a pump and was given up stays given up. -/
theorem EndForsaken.snoc {h : History} {id : BufferId} (forsaken : h.EndForsaken id)
    (t : Move StreamCache Event Notice) : EndForsaken (h ++ [t]) id := by
  obtain ⟨u, member, rest⟩ := forsaken
  exact ⟨u, List.mem_append_left _ member, rest⟩

/-- A buffer that no consumer has closed after a move was not closed before it or in it. -/
theorem unclosed_of_snoc {h : History} {c : StreamCache} {now : Nat} {event : Event}
    {id : BufferId} (unclosed : closes (h ++ [Machine.move apply c now event]) id = 0) :
    h.closes id = 0 ∧ id ∉ closedBy event := by
  rw [closes_snoc] at unclosed
  refine ⟨by omega, fun member => ?_⟩
  have := List.count_pos_iff.mpr member
  simp only [Machine.move] at unclosed
  omega

/-- A buffer was ever cached after a move if it was before, or is in the table then. -/
theorem everCached_snoc {h : History} {t : Move StreamCache Event Notice} {id : BufferId} :
    EverCached (h ++ [t]) id ↔ h.EverCached id ∨ id ∈ buffersIn t.after.keyed.table := by
  simp [EverCached, or_and_right, exists_or]

end History

section

variable {c : StreamCache} {now : Nat} {event : Event} {id : BufferId} {b b' : Buffer}

/-- Unless it is cached or closed by a consumer, nobody asks the pump of a buffer to end. -/
theorem Works.unasked {a : Account} (works : Works c now event id b b') (sound : Sound a c)
    (permits : c.Permits event) (unstored : ¬a.stored id) (unclosed : id ∉ closedBy event)
    (unasked : ∀ p, b.pump = some p → p.stage.isOver = false → p.releaseAsked = false) :
    ∀ q, b'.pump = some q → q.stage.isOver = false → q.releaseAsked = false := by
  have kept : ∀ inner : Buffer.Event, inner.isJoin = false → inner.isRelease = false →
      ∀ q, (b.apply now inner).1.pump = some q → q.stage.isOver = false →
        q.releaseAsked = false := by
    intro inner other unreleased q after running
    obtain ⟨p, pump, ran, same⟩ := Buffer.pump_apply other after
    rw [same unreleased]
    exact unasked p pump (ran running)
  cases works with
  | rests => exact unasked
  | stirs inner same =>
      subst same
      cases inner with
      | join | retain | abandon => exact permits.elim
      | release => exact absurd List.mem_cons_self unclosed
      | pump | watch => exact kept _ rfl rfl
  | retains call o opening holding => exact absurd (sound.opens call o id opening holding) unstored
  | releases call cached => exact absurd (sound.cached id cached) unstored
  | abandons call => exact kept _ rfl rfl

/-- Who asks for the end of a pump waits for it, unless he is given up. -/
theorem Works.awaited {h : History} (works : Works c now event id b b')
    (present : c.buffers[id]? = some b) (permits : c.Permits event)
    (awaited : b.EndAwaited ∨ h.EndForsaken id) :
    b'.EndAwaited ∨ History.EndForsaken (h ++ [Machine.move apply c now event]) id := by
  rcases awaited with awaited | forsaken
  · cases works with
    | rests => exact .inl awaited
    | stirs inner same =>
        subst same
        refine .inl (awaited.apply ?_ ?_)
        · cases inner with
          | join => exact permits.elim
          | _ => rfl
        · rintro call rfl
          exact permits.elim
    | retains | releases => exact .inl (awaited.apply rfl nofun)
    | abandons call aborted =>
        by_cases waits : b.calls.find? call = some .pumpEnd
        · exact .inr ⟨_, List.mem_append_right _ (List.mem_singleton_self _), call, b, aborted,
            present, waits⟩
        · refine .inl (awaited.apply rfl ?_)
          rintro other same
          cases same
          exact waits
  · exact .inr (forsaken.snoc _)

namespace History

namespace Traced

variable {h : History} {closed : BufferId → Nat}

/-- After an event a pump that runs is that of a buffer that was cached, is in the hands of its
opener, or was abandoned. -/
theorem known_apply (traced : h.Traced c) (sound : Sound { h.books with closed } c)
    (opens : c.Opens) (permits : c.Permits event)
    (present : (c.apply now event).1.buffers[id]? = some b') (pumping : b'.isPumping = true) :
    EverCached (h ++ [Machine.move apply c now event]) id ∨
      (∃ call o, (c.apply now event).1.opens.find? call = some o ∧
        Carries (c.apply now event).1 call id) ∨
      Abandoned (h ++ [Machine.move apply c now event]) id := by
  have turn := turn_apply c now event
  cases before : c.buffers[id]? with
  | none =>
      obtain ⟨call, o, starts⟩ := starts_of_new turn opens before present
      obtain ⟨ttl, same⟩ := starts.result
      obtain rfl := starts.last
      rw [same]
      exact .inr (.inl ⟨call, _, CallTable.find?_set_self _ _ _,
        .waits (CallTable.find?_set_self _ _ _)⟩)
  | some b =>
      have earlier : b.isPumping = true := by
        obtain ⟨_, present', touched⟩ := touched_turn turn permits before
        obtain rfl := Option.some.inj (present.symm.trans present')
        rcases touched with rfl | ⟨inner, calm, rfl⟩
        · exact pumping
        · exact Buffer.isPumping_of_apply calm pumping
      rcases traced.known id b before earlier with cached | ⟨call, o, opening, carries⟩ | abandoned
      · exact .inl (everCached_snoc.mpr (.inl cached))
      · by_cases given : event = .abort call
        · exact .inr (.inr (abandoned_snoc.mpr (.inr ⟨call, given, ⟨o, opening⟩, carries⟩)))
        · rcases carries.apply sound opens permits opening given now with
            ⟨⟨o', opening'⟩, onward⟩ | cached | ⟨b'', present'', isOver⟩
          · exact .inr (.inl ⟨call, o', opening', onward⟩)
          · exact .inl (everCached_snoc.mpr (.inr cached))
          · rw [present, Option.some.injEq] at present''
            subst present''
            rw [isOver] at pumping
            cases pumping
      · exact .inr (.inr (abandoned_snoc.mpr (.inl abandoned)))

/-- A buffer that is not in the hands of a call to open is not stored. -/
theorem uncached_apply (traced : h.Traced c) (sound : Sound { h.books with closed } c)
    (uncached : ¬h.EverCached id)
    (uncarried : ∀ call o, event = .resume call → c.opens.find? call = some o →
      ¬Carries c call id) : ¬EverCached (h ++ [Machine.move apply c now event]) id := by
  intro cached
  rcases everCached_snoc.mp cached with before | here
  · exact uncached before
  · have unset : ∀ name key ttl value,
        c.keyed.stage? name ≠ some (.requested (.set key ttl value)) :=
      fun name key ttl value at_ => sound.stages name _ at_
    obtain ⟨name, key, ttl, resumed, stage⟩ :=
      generated_of_cached sound.keyed unset here fun before => uncached (sound.cached id before)
    cases opening : c.opens.find? name with
    | none => cases traced.only name _ opening stage
    | some o => exact uncarried name o resumed opening (.brings key ttl stage)

/-- A buffer that was abandoned stays without an owner, one event later too. -/
theorem stranded_apply (traced : h.Traced c) (sound : Sound { h.books with closed } c)
    (opens : c.Opens) (permits : c.Permits event)
    (abandoned : Abandoned (h ++ [Machine.move apply c now event]) id) :
    Stranded (h ++ [Machine.move apply c now event]) (c.apply now event).1 id := by
  have turn := turn_apply c now event
  rcases abandoned_snoc.mp abandoned with before | ⟨call, given, ⟨o, opening⟩, carries⟩
  · obtain ⟨uncached, uncarried, b, present, unasked⟩ := traced.stranded id before
    refine ⟨traced.uncached_apply sound uncached fun call o _ => uncarried call o, ?_, ?_⟩
    · intro call o opening carries
      rcases carries_before sound opens permits opening carries with none_ | ⟨⟨o', opened⟩, held⟩
      · rw [present] at none_
        cases none_
      · exact uncarried call o' opened held
    · obtain ⟨b', present', works⟩ := works_turn turn present
      refine ⟨b', present', fun none_ => ?_⟩
      obtain ⟨none_, out⟩ := unclosed_of_snoc none_
      exact works.unasked sound permits uncached out (unasked none_)
  · have carries : Carries c call id := carries
    obtain ⟨b, present, fledgling⟩ := carries.fledgling sound
    obtain rfl : event = .abort call := given
    refine ⟨traced.uncached_apply sound fledgling.unstored fun _ _ resumed => ?_, ?_, ?_⟩
    · cases resumed
    · intro other o' opening' again
      rcases carries_before sound opens permits opening' again with none_ | ⟨-, held⟩
      · rw [present] at none_
        cases none_
      · obtain rfl := carries.unique held sound
        cases (unknown_abort c now other).opening.symm.trans opening'
    · obtain ⟨b', present', works⟩ := works_turn turn present
      exact ⟨b', present', fun _ => works.unasked sound permits fledgling.unstored List.not_mem_nil
        fledgling.unasked⟩

/-- After every event it is known of each running pump where it comes from. -/
theorem apply (traced : h.Traced c) (sound : Sound { h.books with closed } c) (opens : c.Opens)
    (now : Nat) (permits : c.Permits event) :
    Traced (h ++ [Machine.move StreamCache.apply c now event]) (c.apply now event).1 where
  only := traced.only.apply opens now permits
  known _ _ present pumping := traced.known_apply sound opens permits present pumping
  stranded _ abandoned := traced.stranded_apply sound opens permits abandoned
  awaited id b' present := by
    have turn := turn_apply c now event
    cases before : c.buffers[id]? with
    | none =>
        obtain ⟨call, o, starts⟩ := starts_of_new turn opens before present
        obtain ⟨ttl, same⟩ := starts.result
        obtain rfl := starts.last
        rw [same] at present
        simp only [started, List.getElem?_concat_length, Option.some.injEq] at present
        subst present
        obtain ⟨q, started, -, unasked, -⟩ :=
          (Buffer.starting_join o.key c.options o.transform call).pump
        refine .inl fun p pump _ asked => ?_
        obtain rfl := Option.some.inj (started.symm.trans pump)
        cases unasked.symm.trans asked
    | some b =>
        obtain ⟨_, present', works⟩ := works_turn turn before
        obtain rfl := Option.some.inj (present.symm.trans present')
        exact works.awaited before permits (traced.awaited id b before)

end Traced

end History

end

section

variable {lanes ttl : Nat} {options : BufferOptions} {events : List (Nat × Event)}

/-- In every run it is known of each running pump where it comes from. -/
theorem traced_of_run
    (permitted : Machine.Allows apply Permits (create lanes ttl options) events)
    (handed : History.ClosesHanded (Machine.history apply (create lanes ttl options) events)) :
    History.Traced (Machine.history apply (create lanes ttl options) events)
      (Machine.final apply (create lanes ttl options) events) := by
  refine sound_induction History.Traced ?_ ?_ permitted handed
  · refine ⟨onlyOpensStore_create lanes ttl options, ?_, ?_, ?_⟩
    · intro id b present
      cases present
    · rintro id ⟨t, member, -⟩
      cases member
    · intro id b present
      cases present
  · intro past c now event closed sound opens traced permits
    exact traced.apply sound opens now permits

end

/-! ## What this says of runs -/

/-- A pump that still runs in a buffer that is torn down has been asked to end. -/
theorem IsTornDown.asked {b : Buffer} (ending : IsTornDown b) {p : Pump} (pump : b.pump = some p)
    (running : p.stage.isOver = false) : p.releaseAsked = true := by
  obtain ⟨-, q, pump', isOver | ⟨-, asked, -⟩⟩ := ending
  all_goals obtain rfl := Option.some.inj (pump.symm.trans pump')
  · obtain ⟨panicked, stage⟩ := isOver
    simp [stage, PumpStage.isOver] at running
  · exact asked

namespace History

/-- No call to open is in progress, the cache has been flushed since the last of them ended, and
every buffer has been closed as often as it was returned. -/
structure LeftAlone (h : History) (c : StreamCache) : Prop where
  idle : c.opens.rows = []
  flushed : h.Flushed
  closed : ∀ id, h.closes id = h.opens id

/-- In a cache that is left alone, every pump that still runs has been asked to end. -/
def LeavesNothing (h : History) (c : StreamCache) : Prop :=
  h.LeftAlone c → ∀ (id : BufferId) b, c.buffers[id]? = some b → b.runsUnasked = false

/-- If the opener of a buffer was given up with the buffer in its hands, the pump runs on until its
stream ends: nobody asks it to end. -/
def AbandonedRunOn (h : History) (c : StreamCache) : Prop :=
  ∀ (id : BufferId) b, c.buffers[id]? = some b → h.Abandoned id → b.isPumping = true →
    b.runsUnasked = true

/-- In a cache that is left alone, the pump of every other buffer is over, or has been asked to end
and can do nothing but let its stream go; whoever has asked it waits for that, or was given up. -/
def LeavesOnlyAbandoned (h : History) (c : StreamCache) : Prop :=
  h.LeftAlone c → ∀ (id : BufferId) b, c.buffers[id]? = some b → ¬h.Abandoned id →
    b.isPumping = true →
      IsTornDown b ∧ ((∃ call, b.calls.find? call = some .pumpEnd) ∨ h.EndForsaken id)

end History

namespace History.Traced

variable {h : History} {c : StreamCache}

/-- Nobody asks the pump of an abandoned buffer to end. -/
theorem abandonedRunOn (traced : h.Traced c) (sound : Sound h.books c) : h.AbandonedRunOn c := by
  intro id b present abandoned pumping
  obtain ⟨uncached, -, b', present', unasked⟩ := traced.stranded id abandoned
  obtain rfl := Option.some.inj (present.symm.trans present')
  obtain ⟨p, pump, running⟩ := Buffer.isPumping_eq_true_iff.mp pumping
  have unclosed : h.closes id = 0 := (sound.untouched id uncached).2
  exact Buffer.runsUnasked_eq_true_iff.mpr ⟨p, pump, running, unasked unclosed p pump running⟩

/-- In a cache that is left alone only the pumps of abandoned buffers run on. -/
theorem leavesOnlyAbandoned (traced : h.Traced c) (sound : Sound h.books c)
    (emptied : h.Flushed → c.IsEmpty) : h.LeavesOnlyAbandoned c := by
  intro alone id b present attended pumping
  have cached : h.EverCached id := by
    rcases traced.known id b present pumping with cached | ⟨call, o, opening, -⟩ | abandoned
    · exact cached
    · rw [find?_of_rows_eq_nil alone.idle] at opening
      cases opening
    · exact absurd abandoned attended
  have unheld : ¬h.Held c id := by
    rintro (held | owed)
    · rw [(emptied alone.flushed).buffersIn] at held
      cases held
    · exact absurd (alone.closed id) (Nat.ne_of_lt owed)
  obtain ⟨b', present', addsUp⟩ := addsUp_of_sound sound cached (Nat.le_of_eq (alone.closed id))
  obtain rfl := Option.some.inj (present.symm.trans present')
  have ending := addsUp.ended unheld
  refine ⟨ending, (traced.awaited id b present).imp_left fun awaited => ?_⟩
  obtain ⟨p, pump, running⟩ := Buffer.isPumping_eq_true_iff.mp pumping
  exact awaited p pump running (ending.asked pump running)

end History.Traced

/-- In every run among consumers who close no buffer more often than it was returned, with calls
given up at any point: once the cache is left alone, a pump runs unasked only if the call to open
that started it was given up with the buffer in its hands, and then it does. Wherever else a call
was given up, the stream is let go. -/
theorem leaks_iff_abandoned (lanes ttl : Nat) (options : BufferOptions)
    (events : List (Nat × Event))
    (permitted : Machine.Allows apply Permits (create lanes ttl options) events)
    (fair : History.Fair (Machine.history apply (create lanes ttl options) events)) :
    let h : History := Machine.history apply (create lanes ttl options) events
    let c := Machine.final apply (create lanes ttl options) events
    h.AbandonedRunOn c ∧ h.LeavesOnlyAbandoned c ∧
      ((∀ id, ¬h.Abandoned id) → h.LeavesNothing c) := by
  intro h c
  have sound : Sound h.books c := sound_of_run permitted fair
  have traced : h.Traced c := traced_of_run permitted (closesHanded_of_fair _ fair)
  have only : h.LeavesOnlyAbandoned c := traced.leavesOnlyAbandoned sound
    (fun flushed => isEmpty_of_flushed permitted (closesHanded_of_fair _ fair) flushed)
  refine ⟨traced.abandonedRunOn sound, only, fun attended alone id b present => ?_⟩
  by_contra unasked
  obtain ⟨p, pump, running, unasked⟩ := Buffer.runsUnasked_eq_true_iff.mp (by simpa using unasked)
  have pumping := Buffer.isPumping_eq_true_iff.mpr ⟨p, pump, running⟩
  have ending := (only alone id b present (attended id) pumping).1
  cases unasked.symm.trans (ending.asked pump running)

/-- A call is given up that holds a buffer which another call has opened and closed, and another
call while it waits for the verdict on the buffer that it has started. -/
def twoGivenUp : List (Nat × Event) :=
  let ready := Duration.ofMillis 5000
  [(0, .open 0 "a" none), (0, .resume 0), (0, .resume 0), (0, .resume 0),
    (0, .buffer 0 (.pump .started)), (0, .buffer 0 (.pump .opened)),
    (0, .buffer 0 (.watch .timers)),
    (ready, .buffer 0 (.watch .timers)), (ready, .resume 0), (ready, .resume 0), (ready, .resume 0),
    (ready, .open 1 "a" none), (ready, .resume 1), (ready, .abort 1),
    (ready, .buffer 0 (.release 2)),
    (ready, .open 3 "b" none), (ready, .resume 3), (ready, .resume 3), (ready, .resume 3),
    (ready, .buffer 1 (.pump .started)), (ready, .buffer 1 (.pump .opened)), (ready, .abort 3)]

/-- Of the two buffers one is torn down, and the pump of the other runs on after five seconds. -/
theorem leaks_iff_abandoned_of_two_given_up :
    let now := Duration.ofMillis 5001
    let events : List (Nat × Event) := twoGivenUp ++ (now, .call 4 .flush) ::
      ([(now, .resume 4), (now, .resume 4), (now, .buffer 0 (.pump .releaseSeen)),
        (now, .resume 4)] ++ [(now, .resume 4)])
    let start := create 4 (Duration.ofMillis 60000) {}
    let h : History := Machine.history apply start events
    let c := Machine.final apply start events
    Machine.Allows apply Permits start events ∧ h.Fair ∧ h.LeftAlone c ∧
      c.buffers.map (fun b => (b.isPumping, b.runsUnasked)) = [(false, false), (true, true)] ∧
      h.AbandonedRunOn c ∧ h.LeavesOnlyAbandoned c := by
  intro now events start h c
  have permitted : Machine.Allows apply Permits start events := by decide +kernel
  have fair : h.Fair := by decide +kernel
  have balanced : h.closed = handedIn (Machine.noticesOf h) := by decide +kernel
  have alone : h.LeftAlone c := {
    idle := by decide +kernel
    flushed := History.flushed_of_run (by decide +kernel) (by decide +kernel) (by decide +kernel)
    closed := fun id => congrArg (List.count id) balanced }
  have leaks := leaks_iff_abandoned 4 (Duration.ofMillis 60000) {} events permitted fair
  exact ⟨permitted, fair, alone, by decide +kernel, leaks.1, leaks.2.1⟩

/-- Given up while it waits for the verdict, the only call to open leaves its pump running through
the flush that follows. -/
theorem leaves_pump_of_given_up_opener :
    let earlier : List (Nat × Event) :=
      [(0, .open 0 "a" none), (0, .resume 0), (0, .resume 0), (0, .resume 0),
        (0, .buffer 0 (.pump .started)), (0, .buffer 0 (.pump .opened)), (1, .abort 0)]
    let events : List (Nat × Event) :=
      earlier ++ (2, .call 1 .flush) :: ([(2, .resume 1)] ++ [(2, .resume 1)])
    let start := create 4 (Duration.ofMillis 60000) {}
    let h : History := Machine.history apply start events
    let c := Machine.final apply start events
    Machine.Allows apply Permits start events ∧ h.Fair ∧ h.LeftAlone c ∧ ¬h.LeavesNothing c := by
  intro earlier events start h c
  have permitted : Machine.Allows apply Permits start events := by decide +kernel
  have fair : h.Fair := by decide +kernel
  have balanced : h.closed = handedIn (Machine.noticesOf h) := by decide +kernel
  have alone : h.LeftAlone c := {
    idle := by decide +kernel
    flushed := History.flushed_of_run (by decide +kernel) (by decide +kernel) (by decide +kernel)
    closed := fun id => congrArg (List.count id) balanced }
  refine ⟨permitted, fair, alone, fun nothing => ?_⟩
  have running : (c.buffers[0]?).map Buffer.runsUnasked = some true := by decide +kernel
  obtain ⟨b, present, unasked⟩ := Option.map_eq_some_iff.mp running
  cases (nothing alone 0 b present).symm.trans unasked

end StreamCache

end CachedStreams
