import CachedStreams.Proofs.Stream.Unlinking

/-!
# Starting a buffer

A call to open hands its way to open the stream over once, to the pump of the buffer that it starts,
and only where nothing live is cached under its key. Nothing live is stored there by anybody else
either while it waits for the verdict, since it holds the lane of the key.
-/

set_option autoImplicit false

namespace CachedStreams.StreamCache

namespace History

/-- A call to open starts a buffer: it hands its way to open the stream to the pump of the buffer.
-/
structure Starts (t : Move StreamCache Event Notice) (call : CallId) (id : BufferId) : Prop where
  resumed : t.event = .resume call
  new : t.before.buffers[id]? = none
  created : ∃ b, t.after.buffers[id]? = some b

/-- A call to open starts a buffer only while it can still open the stream and nothing live is
cached under its key, and the pump of that buffer is to be run then. -/
def StartsOnMiss (h : History) : Prop :=
  ∀ t ∈ h, ∀ call id, Starts t call id → ∃ o, t.before.opens.find? call = some o ∧
    o.unused = true ∧ t.before.keyed.table.lookup t.now o.key = none ∧
    t.notices = [.buffer id .pumpStarted]

/-- From its beginning on, a call to open starts one buffer at most. -/
def StartsOnce (h : History) : Prop :=
  ∀ past s mid u future call id other, h = past ++ s :: (mid ++ u :: future) →
    Starts s call id → (∀ v ∈ mid, ∀ key transform, v.event ≠ .open call key transform) →
      ¬Starts u call other

/-- The stream of a buffer is asked for once at most. -/
def AsksOnce (h : History) : Prop :=
  ∀ past s mid u future id, h = past ++ s :: (mid ++ u :: future) →
    .buffer id .openCalled ∈ s.notices → .buffer id .openCalled ∉ u.notices

end History

section

variable {c : StreamCache} {now : Nat} {call : CallId} {event : Event}

/-- A call to open comes to where its generator runs by a step that starts a buffer. -/
theorem generating_apply (opens : c.Opens) (permits : c.Permits event)
    (own : event.subject? = some call) {o : OpenCall} {ttl : Nat}
    (opening : (c.apply now event).1.opens.find? call = some o)
    (stage : (c.apply now event).1.keyed.stage? call = some (.generating o.key ttl)) :
    c.apply now event = (c, []) ∨ ∃ before, event = .resume call ∧ before.key = o.key ∧
      c.keyed.table.lookup now o.key = none ∧
      c.apply now event =
        (c.started call o.key ttl before, [.buffer c.buffers.length .pumpStarted]) := by
  have moved : ∀ {k : KeyedCache BufferId StreamError} {next},
      (k.moveTo call next).stage? call = some (.generating o.key ttl) →
        next = .generating o.key ttl := KeyedCache.eq_of_stage?_moveTo
  rcases resumed_or_opened permits own opening with rfl | ⟨key, transform, rfl, rfl⟩
  · have turn := turn_apply c now (.resume call)
    cases opened : c.opens.find? call with
    | none =>
        rw [not_opening_turn turn opened] at opening
        cases opening
    | some before =>
        have step := openStep_turn turn opens opened
        generalize c.apply now (.resume call) = r at step opening stage ⊢
        cases step with
        | waits => exact .inl rfl
        | misses | queues | learns | refuses => cases moved stage
        | starts _ _ absent =>
            have same := moved stage
            simp only [KeyedCache.Stage.generating.injEq] at same
            obtain ⟨keys, rfl⟩ := same
            exact .inr ⟨before, rfl, keys, keys ▸ absent, by rw [keys]⟩
        | displaces | unlinks =>
            rw [stage?_evict_moveTo] at stage
            cases stage
        | finds _ _ _ _ _ none_ =>
            rw [none_] at stage
            cases stage
        | fails _ _ _ gone | endsUsed _ _ _ gone =>
            rw [gone] at opening
            cases opening
        | registers => simp at opening
        | retries _ _ _ _ at_ =>
            rw [at_] at stage
            cases stage
  · cases moved stage

/-- While a call to open has its generator run, the table has nothing live under its key, at any
time from now on. -/
def Misses (h : History) (c : StreamCache) : Prop :=
  ∀ now, (∀ t ∈ h, t.now ≤ now) → ∀ call o ttl, c.opens.find? call = some o →
    c.keyed.stage? call = some (.generating o.key ttl) →
      c.keyed.table.lookup now o.key = none

/-- While a generator runs nothing live is under its key, after any event as before. -/
theorem Misses.apply {h : History} (misses : Misses h c) (opens : c.Opens) {lanes : Nat}
    (orderly : c.keyed.Orderly lanes)
    (unset : ∀ name key ttl value,
      c.keyed.stage? name ≠ some (.requested (.set key ttl value)))
    (now : Nat) (permits : c.Permits event) :
    Misses (h ++ [Machine.move StreamCache.apply c now event]) (c.apply now event).1 := by
  intro later bound call o ttl opening stage
  have le : now ≤ later := bound _ (List.mem_append_right _ (List.mem_singleton_self _))
  -- Whoever's generator ran before still misses; nobody else can store under its key.
  have kept : c.opens.find? call = some o → c.keyed.stage? call = some (.generating o.key ttl) →
      (c.apply now event).1.keyed.table.lookup later o.key = none := by
    intro opened at_
    have absent := misses later (fun t member => bound t (List.mem_append_left _ member)) call o
      ttl opened at_
    cases table_turn (turn_apply c now event) with
    | keeps same => rw [same, absent]
    | inserts name key _ at' result _ _ reached brings table =>
        have ne : o.key ≠ key := by
          rintro rfl
          cases brings with
          | given value => exact unset name _ _ value reached
          | made =>
              -- The lane of a key has one holder, and that is the call whose generator runs.
              have mine := orderly.holding call _ _ at_ (.generating ttl)
              rw [orderly.holding name _ _ reached (.generated _ _)] at mine
              rw [Option.some.inj mine, at_] at reached
              cases reached
        simp only [table, Table.lookup, Table.find?_insert_of_ne _ ne]
        exact absent
    | erases key table =>
        by_cases own : o.key = key
        · simp [table, Table.lookup, own]
        · simp only [table, Table.lookup, Table.find?_erase_of_ne _ own]
          exact absent
  by_cases own : event.subject? = some call
  · rcases generating_apply opens permits own opening stage with
      same | ⟨before, -, -, absent, started⟩
    · rw [same] at opening stage
      exact kept opening stage
    · rw [started]
      exact Table.lookup_later le absent
  · obtain ⟨same, at_, -⟩ := apart_apply c now own
    exact kept (same ▸ opening) (at_ ▸ stage)

/-- The stage of a call whose errand is to wait for the verdict on its buffer. -/
theorem stage?_of_starting (opens : c.Opens) {o : OpenCall}
    (opening : c.opens.find? call = some o) {id : BufferId}
    {result : Option (Except StreamError Unit)}
    (errand : c.errands.find? call = some (.starting id result)) :
    ∃ ttl, c.keyed.stage? call = some (.generating o.key ttl) := by
  have doing := opens call o opening
  rw [errand] at doing
  generalize c.keyed.stage? call = s at doing
  cases doing with
  | generates ttl => exact ⟨ttl, rfl⟩
  | displaces _ _ _ _ hook | unlinked _ _ hook => cases hook

end

section

variable {lanes ttl : Nat} {options : BufferOptions} {events : List (Nat × Event)}

/-- What a call to open that starts a buffer is left with. -/
theorem starting_of_starts
    (permitted : Machine.Allows apply Permits (create lanes ttl options) events)
    {past future : History} {t : Move StreamCache Event Notice} {call : CallId} {id : BufferId}
    (split : Machine.history apply (create lanes ttl options) events = past ++ t :: future)
    (starts : History.Starts t call id) :
    ∃ o, StartsBuffer t.before t.now t.event (t.before.apply t.now t.event) call id o := by
  obtain ⟨opens, -⟩ := opens_before permitted split
  obtain ⟨resumed, new, b, created⟩ := starts
  have after : t.after = (t.before.apply t.now t.event).1 :=
    Machine.after_of_history apply split
  obtain ⟨name, o, starts⟩ :=
    starts_of_new (turn_apply t.before t.now t.event) opens new (after ▸ created)
  obtain rfl : name = call := by
    have same := starts.resumed
    rw [resumed] at same
    exact (Event.resume.inj same).symm
  exact ⟨o, starts⟩

/-- A call to open starts a buffer only on a miss, in every run. -/
theorem startsOnMiss_of_run
    (permitted : Machine.Allows apply Permits (create lanes ttl options) events) :
    History.StartsOnMiss (Machine.history apply (create lanes ttl options) events) := by
  intro t member call id starts
  obtain ⟨past, future, split⟩ := List.append_of_mem member
  obtain ⟨o, starts⟩ := starting_of_starts permitted split starts
  obtain ⟨_, same⟩ := starts.result
  have told : t.notices = (t.before.apply t.now t.event).2 :=
    Machine.notices_of_history apply split
  exact ⟨o, starts.opening, starts.unused, starts.absent, by rw [told, same]⟩

end

end CachedStreams.StreamCache
