import Mathlib.Data.List.Nodup
import CachedStreams.Proofs.KeyedCache.Turns

/-!
# What the past says of a call

The history of a run records what each call asked for, which generators were started and which of
them run. In a run in which every call has a name of its own, the stage that a call is at agrees
with these records: `KeyedCache.Recorded` is that invariant and `recorded_of_run` says that it holds
after every run. Answers can then be traced back to requests: `answer_of_mem` lists the reasons
that a call can have for its answer.
-/

set_option autoImplicit false

namespace CachedStreams.KeyedCache

variable {V E : Type}

/-- The moves of a run of a keyed cache. -/
abbrev History (V E : Type) := List (Move (KeyedCache V E) (Event V E) (Notice V E))

/-- The call that an event begins, with what it asks for. -/
def Event.begun? : Event V E → Option (CallId × Request V E)
  | .call name request => some (name, request)
  | _ => none

/-- Whether an event ends the generator of a call, or gives the call up and its generator too. -/
def Event.endsGenerator (call : CallId) : Event V E → Bool
  | .generated name _ => name == call
  | .abort name => name == call
  | _ => false

/-- The generator that a notice starts: its call and the key. -/
def Notice.started? : Notice V E → Option (CallId × String)
  | .generate call key => some (call, key)
  | _ => none

/-- The calls of a history, in the order in which they began, with what they asked for. -/
def begunIn (h : History V E) : List (CallId × Request V E) := h.filterMap (·.event.begun?)

/-- The generators started by some notices, each with its call and the key. -/
def startedIn (notices : List (Notice V E)) : List (CallId × String) :=
  notices.filterMap Notice.started?

/-- The generators started in the course of a history. -/
def started (h : History V E) : List (CallId × String) := startedIn (Machine.noticesOf h)

/-- The generators that run after a move, given those that ran before it. -/
def runningAfter (before : List (CallId × String))
    (t : Move (KeyedCache V E) (Event V E) (Notice V E)) : List (CallId × String) :=
  (before.filter fun g => !t.event.endsGenerator g.1) ++ startedIn t.notices

/-- The generators that run after a history: they were started, and have neither ended nor been
given up since. -/
def running (h : History V E) : List (CallId × String) := h.foldl runningAfter []

/-- Every call of a history has a name of its own. -/
def Named (h : History V E) : Prop := ((begunIn h).map (·.1)).Nodup

instance (h : History V E) : Decidable (Named h) :=
  inferInstanceAs (Decidable ((begunIn h).map (·.1)).Nodup)

/-- The generator of a call gave a result for a key: it ended with that while it ran. -/
def Gave (h : History V E) (call : CallId) (key : String) (result : Except E V) : Prop :=
  ∃ past t future, h = past ++ t :: future ∧ (call, key) ∈ running past ∧
    t.event = .generated call result

/-- The answer that a call has earned when it only waits for the eviction hook. -/
inductive Earned (h : History V E) (call : CallId) : Request V E → Reply V E → Prop where
  | made (key : String) (ttl : Nat) (result : Except E V) (gave : Gave h call key result) :
    Earned h call (.getOrUpdate key ttl) (.result result)
  | set (key : String) (ttl : Nat) (value : V) : Earned h call (.set key ttl value) .stored
  | removed (key : String) : Earned h call (.remove key) (.removed true)
  | removedIf (key : String) (test : Except E V → Bool) :
    Earned h call (.removeIf key test) (.removed true)

/-- What a history has to say of a call that is at a stage. -/
def Told (h : History V E) (call : CallId) : Stage V E → Prop
  | .requested request => (call, request) ∈ begunIn h ∧ call ∉ (started h).map (·.1)
  | .missed key ttl => (call, .getOrUpdate key ttl) ∈ begunIn h ∧ call ∉ (started h).map (·.1)
  | .queued key ttl => (call, .getOrUpdate key ttl) ∈ begunIn h ∧ call ∉ (started h).map (·.1)
  | .generating key ttl => (call, .getOrUpdate key ttl) ∈ begunIn h
  | .generated key ttl result => (call, .getOrUpdate key ttl) ∈ begunIn h ∧ Gave h call key result
  | .sweeping _ _ sweep => (call, sweep.request) ∈ begunIn h
  | .evicting (.sweep _ _ sweep) => (call, sweep.request) ∈ begunIn h
  | .evicting (.reply reply) => ∃ request, (call, request) ∈ begunIn h ∧ Earned h call request reply

/-- The stages of the calls agree with the past. -/
structure Recorded (h : History V E) (c : KeyedCache V E) : Prop where
  told : ∀ call stage, c.stage? call = some stage → Told h call stage
  runs : ∀ call key, (call, key) ∈ running h ↔ ∃ ttl, c.stage? call = some (.generating key ttl)
  once : ((started h).map (·.1)).Nodup
  /-- Only a call that asked for it has its generator started. -/
  asked : ∀ call key, (call, key) ∈ started h → ∃ ttl, (call, .getOrUpdate key ttl) ∈ begunIn h

/-! ## Histories that grow -/

section

variable (h : History V E) (t : Move (KeyedCache V E) (Event V E) (Notice V E))

/-- The calls of two stretches are those of the first, followed by those of the second. -/
theorem begunIn_append (k : History V E) : begunIn (h ++ k) = begunIn h ++ begunIn k :=
  List.filterMap_append

/-- One more move adds the call that begins with it, if it is the beginning of one. -/
@[simp] theorem begunIn_snoc : begunIn (h ++ [t]) = begunIn h ++ t.event.begun?.toList := by
  rw [begunIn_append]
  cases hb : t.event.begun? <;> simp [begunIn, hb]

/-- One more move adds the generators that it starts. -/
@[simp] theorem started_snoc : started (h ++ [t]) = started h ++ startedIn t.notices := by
  simp [started, startedIn]

/-- One more move changes which generators run as its event and its notices say. -/
@[simp] theorem running_snoc : running (h ++ [t]) = runningAfter (running h) t := by
  simp [running]

/-- A generator is started among some notices if one of them says so. -/
theorem mem_startedIn {notices : List (Notice V E)} {call : CallId} {key : String} :
    (call, key) ∈ startedIn notices ↔ .generate call key ∈ notices := by
  simp only [startedIn, List.mem_filterMap]
  constructor
  · rintro ⟨notice, member, same⟩
    cases notice <;> simp only [Notice.started?, Option.some.injEq, reduceCtorEq] at same
    cases same
    exact member
  · exact fun member => ⟨_, member, rfl⟩

/-- After a move those generators run that ran before and have not ended, and those that it starts.
-/
theorem mem_runningAfter {before : List (CallId × String)} {call : CallId} {key : String} :
    (call, key) ∈ runningAfter before t ↔
      ((call, key) ∈ before ∧ t.event.endsGenerator call = false) ∨
        Notice.generate call key ∈ t.notices := by
  simp [runningAfter, mem_startedIn]

variable {h}

/-- What a generator has given it has given at every later time. -/
theorem Gave.snoc {call : CallId} {key : String} {result : Except E V}
    (gave : Gave h call key result) : Gave (h ++ [t]) call key result := by
  obtain ⟨past, u, future, rfl, ran, ended⟩ := gave
  exact ⟨past, u, future ++ [t], by simp, ran, ended⟩

/-- What a call has earned it has earned at every later time. -/
theorem Earned.snoc {call : CallId} {request : Request V E} {reply : Reply V E}
    (earned : Earned h call request reply) : Earned (h ++ [t]) call request reply := by
  cases earned with
  | made key ttl result gave => exact .made key ttl result (gave.snoc t)
  | set key ttl value => exact .set key ttl value
  | removed key => exact .removed key
  | removedIf key test => exact .removedIf key test

/-- A call that has begun has begun at every later time. -/
theorem mem_begunIn_snoc {asked : CallId × Request V E} (member : asked ∈ begunIn h) :
    asked ∈ begunIn (h ++ [t]) := by
  rw [begunIn_snoc]
  exact List.mem_append_left _ member

/-- A call has begun if one of the moves is its beginning. -/
theorem mem_begunIn {call : CallId} {request : Request V E} :
    (call, request) ∈ begunIn h ↔ ∃ u ∈ h, u.event = .call call request := by
  simp only [begunIn, List.mem_filterMap]
  refine exists_congr fun u => and_congr_right fun _ => ?_
  cases u.event <;> simp [Event.begun?]

/-- A generator that has not been started before a move nor in it has not been started after it. -/
theorem not_mem_started_snoc {call : CallId} (before : call ∉ (started h).map (·.1))
    (other : call ∉ (startedIn t.notices).map (·.1)) :
    call ∉ (started (h ++ [t])).map (·.1) := by
  rw [started_snoc, List.map_append, List.mem_append]
  exact not_or.mpr ⟨before, other⟩

/-- A move that does not start the generator of a call leaves what is told of it true. -/
theorem Told.snoc {call : CallId} {stage : Stage V E} (told : Told h call stage)
    (other : call ∉ (startedIn t.notices).map (·.1)) : Told (h ++ [t]) call stage := by
  cases stage with
  | requested | missed | queued =>
      exact ⟨mem_begunIn_snoc t told.1, not_mem_started_snoc t told.2 other⟩
  | generating | sweeping => exact mem_begunIn_snoc t told
  | generated => exact ⟨mem_begunIn_snoc t told.1, told.2.snoc t⟩
  | evicting next =>
      cases next with
      | reply reply =>
          obtain ⟨request, asked, earned⟩ := told
          exact ⟨request, mem_begunIn_snoc t asked, earned.snoc t⟩
      | sweep => exact mem_begunIn_snoc t told

/-- Only a call that has begun is at a stage. -/
theorem Told.begun {call : CallId} {stage : Stage V E} (told : Told h call stage) :
    call ∈ (begunIn h).map (·.1) := by
  have named : ∀ {request}, (call, request) ∈ begunIn h → call ∈ (begunIn h).map (·.1) :=
    fun asked => List.mem_map_of_mem asked
  cases stage with
  | requested | missed | queued | generated => exact named told.1
  | generating | sweeping => exact named told
  | evicting next =>
      cases next with
      | reply reply =>
          obtain ⟨request, asked, -⟩ := told
          exact named asked
      | sweep => exact named told

/-- What a call asked for, if calls have names of their own. -/
theorem Named.unique (named : Named h) {call : CallId} {request other : Request V E}
    (asked : (call, request) ∈ begunIn h) (again : (call, other) ∈ begunIn h) :
    request = other :=
  congrArg Prod.snd (List.inj_on_of_nodup_map named asked again rfl)

/-- If the calls of a history have names of their own, so have those of its beginning. -/
theorem Named.of_append {k : History V E} (named : Named (h ++ k)) : Named h := by
  rw [Named, begunIn_append, List.map_append] at named
  exact (List.nodup_append.mp named).1

/-- A call that has begun does not begin again. -/
theorem Named.not_again {k : History V E} (named : Named (h ++ k)) {call : CallId}
    (begun : call ∈ (begunIn h).map (·.1)) : call ∉ (begunIn k).map (·.1) := by
  rw [Named, begunIn_append, List.map_append] at named
  exact fun again => (List.nodup_append.mp named).2.2 call begun call again rfl

variable {t}

/-- The name of a call that begins is new. -/
theorem Named.new (named : Named (h ++ [t])) {call : CallId} {request : Request V E}
    (begins : t.event = .call call request) : call ∉ (begunIn h).map (·.1) :=
  fun old => named.not_again old (by simp [begunIn, begins, Event.begun?])

end

/-! ## The past and the stages agree -/

/-- A generator that an event starts: its call holds the lane of the key and has found nothing
live. -/
structure Starts (c : KeyedCache V E) (now : Nat) (event : Event V E) (call : CallId)
    (key : String) : Prop where
  resumed : event = .resume call
  queued : ∃ ttl, c.stage? call = some (.queued key ttl)
  holds : c.lanes.holds call (c.laneOf key) = true
  absent : c.table.lookup now key = none

/-- An answer starts no generator. -/
theorem startedIn_answer (c : KeyedCache V E) (call : CallId) (reply : Reply V E) :
    startedIn (c.answer call reply).2 = [] := by
  simp [startedIn, answer, leave, Notice.started?]

/-- A store starts no generator. -/
theorem startedIn_store (c : KeyedCache V E) (now : Nat) (call : CallId) (key : String) (ttl : Nat)
    (result : Except E V) (reply : Reply V E) :
    startedIn (c.store now call key ttl result reply).2 = [] := by
  cases displaced : c.table.find? key with
  | none =>
      rw [store_of_absent c now call displaced]
      exact startedIn_answer (c.put key _) call reply
  | some old =>
      rw [store_of_present c now call displaced]
      rfl

/-- A turn starts no generator, or that of the call whose turn it is. -/
theorem startedIn_turn {c : KeyedCache V E} {now : Nat} {event : Event V E}
    {r : KeyedCache V E × List (Notice V E)} (turn : Turn c now event r) :
    startedIn r.2 = [] ∨
      ∃ call key, Starts c now event call key ∧ startedIn r.2 = [(call, key)] := by
  cases turn with
  | generates call key ttl stage holds absent =>
      exact .inr ⟨call, key, ⟨rfl, ⟨ttl, stage⟩, holds, absent⟩, rfl⟩
  | gets | hits | removesNothing | endsSweep | replies => exact .inl (startedIn_answer c _ _)
  | stores => exact .inl (startedIn_store c ..)
  | givesUp => exact .inl (by simp [startedIn, leave, Notice.started?])
  | _ => exact .inl rfl

/-- Where a generator is started, its call holds the lane and has found nothing live. -/
theorem starts_of_mem {c : KeyedCache V E} {now : Nat} {event : Event V E} {call : CallId}
    {key : String} (member : .generate call key ∈ (c.apply now event).2) :
    Starts c now event call key := by
  have known := mem_startedIn.mpr member
  rcases startedIn_turn (turn_apply c now event) with none_ | ⟨other, key', starts, one⟩
  · simp [none_] at known
  · rw [one, List.mem_singleton, Prod.mk.injEq] at known
    obtain ⟨rfl, rfl⟩ := known
    exact starts

namespace Recorded

variable {h : History V E} {c : KeyedCache V E}

/-- The past of a new cache is empty, and no call is at any stage. -/
theorem create (lanes : Nat) : Recorded [] (create lanes : KeyedCache V E) :=
  ⟨nofun, by simp [running, stage?, KeyedCache.create], List.nodup_nil, nofun⟩

/-- What a turn leads its own call to is told by the past together with the turn. -/
theorem told_subject (recorded : Recorded h c) {now : Nat} {event : Event V E}
    {r : KeyedCache V E × List (Notice V E)} (turn : Turn c now event r)
    (fresh : ∀ call request, event = .call call request → call ∉ (started h).map (·.1))
    {after : Stage V E} (reached : r.1.stage? event.subject = some after) :
    Told (h ++ [⟨c, now, event, r.2, r.1⟩]) event.subject after := by
  cases turn with
  | begins call request =>
      obtain rfl := eq_of_stage?_moveTo reached
      exact ⟨by simp [Event.begun?, Event.subject],
        by simpa [startedIn, Event.subject] using fresh call request rfl⟩
  | givesUp call => simp [Event.subject] at reached
  | gets | hits | removesNothing | endsSweep | replies => simp [Event.subject] at reached
  | waits | ignoresResult | ignoresHook =>
      exact (recorded.told _ _ reached).snoc _ List.not_mem_nil
  | misses call key ttl stage =>
      obtain rfl := eq_of_stage?_moveTo reached
      have told := recorded.told _ _ stage
      exact ⟨mem_begunIn_snoc _ told.1, not_mem_started_snoc _ told.2 List.not_mem_nil⟩
  | queues call key ttl stage =>
      obtain rfl := eq_of_stage?_moveTo reached
      have told := recorded.told _ _ stage
      exact ⟨mem_begunIn_snoc _ told.1, not_mem_started_snoc _ told.2 List.not_mem_nil⟩
  | generates call key ttl stage =>
      obtain rfl := eq_of_stage?_moveTo reached
      exact mem_begunIn_snoc _ (recorded.told _ _ stage).1
  | stores call key ttl at_ result reply stage brings =>
      have told := recorded.told _ _ stage
      simp only [Event.subject, stage?_store_self, Option.map_eq_some_iff] at reached
      obtain ⟨old, -, rfl⟩ := reached
      cases brings with
      | given value => exact ⟨_, mem_begunIn_snoc _ told.1, .set key ttl value⟩
      | made => exact ⟨_, mem_begunIn_snoc _ told.1, .made key ttl result (told.2.snoc _)⟩
  | removes call key test at_ entry stage drops present accepted =>
      obtain rfl := eq_of_stage?_moveTo reached
      have asked := recorded.told _ _ stage
      cases drops with
      | any => exact ⟨_, mem_begunIn_snoc _ asked.1, .removed key⟩
      | accepted => exact ⟨_, mem_begunIn_snoc _ asked.1, .removedIf key test⟩
  | beginsSweep call sweep stage =>
      obtain rfl := eq_of_stage?_moveTo reached
      exact mem_begunIn_snoc _ (recorded.told _ _ stage).1
  | sweeps call key entry rest count sweep stage =>
      obtain rfl := eq_of_stage?_moveTo reached
      exact mem_begunIn_snoc _ (recorded.told _ _ stage)
  | passes call number key rest count sweep stage =>
      obtain rfl := eq_of_stage?_moveTo reached
      exact mem_begunIn_snoc _ (recorded.told _ _ stage)
  | makes call key ttl result stage =>
      obtain rfl := eq_of_stage?_moveTo reached
      refine ⟨mem_begunIn_snoc _ (recorded.told _ _ stage), h, _, [], rfl, ?_, rfl⟩
      exact (recorded.runs call key).mpr ⟨ttl, stage⟩
  | sweepsOn call rest count sweep stage =>
      obtain rfl := eq_of_stage?_moveTo reached
      exact mem_begunIn_snoc _ (recorded.told _ _ stage)

/-- After an event, as before it, the generators that run are those of the calls that generate. -/
theorem runs_apply (recorded : Recorded h c) (now : Nat) (event : Event V E)
    (fresh : ∀ call request, event = .call call request → call ∉ (begunIn h).map (·.1))
    (call : CallId) (key : String) :
    (call, key) ∈ runningAfter (running h) (Machine.move apply c now event) ↔
      ∃ ttl, (c.apply now event).1.stage? call = some (.generating key ttl) := by
  rw [mem_runningAfter, recorded.runs]
  by_cases own : call = event.subject
  · subst own
    have turn := turn_apply c now event
    simp only [Machine.move]
    generalize c.apply now event = r at turn ⊢
    cases turn with
    | begins call request =>
        -- A new call does not run a generator yet.
        have idle : ∀ ttl, c.stage? call ≠ some (.generating key ttl) := by
          intro ttl stage
          have asked : (call, .getOrUpdate key ttl) ∈ begunIn h := recorded.told _ _ stage
          exact fresh call request rfl (List.mem_map_of_mem asked)
        simp [Event.subject, idle]
    | givesUp call =>
        have silent : Notice.generate call key ∉ (c.leave call).2 := by simp [leave]
        simp [Event.subject, Event.endsGenerator, silent]
    | waits | ignoresHook => simp [Event.subject, Event.endsGenerator]
    | ignoresResult call result idle => simp [Event.subject, idle]
    | gets call key stage => simp [Event.subject, stage, mem_answer]
    | hits call key ttl at_ result stage looks =>
        cases looks <;> simp [Event.subject, stage, mem_answer]
    | misses call key ttl stage => simp [Event.subject, stage]
    | queues call key ttl stage => simp [Event.subject, stage]
    | generates call name ttl stage =>
        have same : key = name ↔ name = key := eq_comm
        simp [Event.subject, stage, same]
    | stores call key ttl at_ result reply stage brings =>
        cases brings <;> simp [Event.subject, stage, mem_store, mem_answer, stage?_store_self]
    | removes call key test at_ entry stage drops =>
        cases drops <;> simp [Event.subject, stage, evict]
    | removesNothing call key test at_ stage drops =>
        cases drops <;> simp [Event.subject, stage, mem_answer]
    | beginsSweep call sweep stage => simp [Event.subject, stage]
    | sweeps call key entry rest count sweep stage => simp [Event.subject, stage, evict]
    | passes call number key rest count sweep stage => simp [Event.subject, stage]
    | endsSweep call count sweep stage => simp [Event.subject, stage, mem_answer]
    | makes call key ttl result stage => simp [Event.subject, Event.endsGenerator]
    | replies call reply stage => simp [Event.subject, stage, mem_answer]
    | sweepsOn call rest count sweep stage => simp [Event.subject, stage]
  · have quiet : Notice.generate call key ∉ (c.apply now event).2 := fun member =>
      own (subject?_of_mem c now member rfl)
    have goesOn : event.endsGenerator call = false := by
      cases event with
      | generated | abort => exact beq_eq_false_iff_ne.mpr (Ne.symm own)
      | call | resume | evicted => rfl
    simp [Machine.move, quiet, goesOn, stage?_apply_of_ne c now own]

/-- Every move keeps the stages in agreement with the past, if the call that it begins is new. -/
theorem apply (recorded : Recorded h c) (now : Nat) (event : Event V E)
    (named : Named (h ++ [Machine.move KeyedCache.apply c now event])) :
    Recorded (h ++ [Machine.move KeyedCache.apply c now event]) (c.apply now event).1 := by
  have fresh : ∀ call request, event = .call call request → call ∉ (begunIn h).map (·.1) :=
    fun call request begins => Named.new named begins
  have unstarted : ∀ call request, event = .call call request →
      call ∉ (started h).map (·.1) := by
    intro call request begins member
    obtain ⟨g, ran, rfl⟩ := List.mem_map.mp member
    obtain ⟨ttl, asked⟩ := recorded.asked g.1 g.2 ran
    exact fresh g.1 request begins (List.mem_map_of_mem asked)
  have turn := turn_apply c now event
  have starts := startedIn_turn turn
  refine ⟨fun call stage reached => ?_, fun call key => ?_, ?_, fun call key member => ?_⟩
  · by_cases own : call = event.subject
    · subst own
      exact recorded.told_subject turn unstarted reached
    · rw [stage?_apply_of_ne c now own] at reached
      refine (recorded.told call stage reached).snoc _ ?_
      rcases starts with none_ | ⟨other, key, starts, one⟩
      · simp [Machine.move, none_]
      · rw [starts.resumed] at own
        simpa [Machine.move, one, Event.subject] using own
  · rw [running_snoc]
    exact runs_apply recorded now event fresh call key
  · rw [started_snoc, List.map_append]
    rcases starts with none_ | ⟨call, key, starts, one⟩
    · simpa [Machine.move, none_] using recorded.once
    · obtain ⟨ttl, queued⟩ := starts.queued
      have first : call ∉ (started h).map (·.1) := (recorded.told call _ queued).2
      simp only [Machine.move, one, List.map_cons, List.map_nil]
      refine List.nodup_append.mpr ⟨recorded.once, List.nodup_singleton call, ?_⟩
      intro other member last here same
      rw [same, List.mem_singleton.mp here] at member
      exact first member
  · rw [started_snoc] at member
    rcases List.mem_append.mp member with before | here
    · obtain ⟨ttl, asked⟩ := recorded.asked call key before
      exact ⟨ttl, mem_begunIn_snoc _ asked⟩
    · rcases starts with none_ | ⟨other, name, starts, one⟩
      · simp [Machine.move, none_] at here
      · obtain ⟨ttl, queued⟩ := starts.queued
        obtain ⟨rfl, rfl⟩ : call = other ∧ key = name := by simpa [Machine.move, one] using here
        exact ⟨ttl, mem_begunIn_snoc _ (recorded.told call _ queued).1⟩

end Recorded

/-- In every run whose calls have names of their own, the stages agree with the past. -/
theorem recorded_of_run (lanes : Nat) {events : List (Nat × Event V E)}
    (named : Named (Machine.history apply (create lanes) events)) :
    Recorded (Machine.history apply (create lanes) events)
      (Machine.final apply (create lanes : KeyedCache V E) events) := by
  refine Machine.history_induction apply (fun past c => Named past → Recorded past c)
    (fun _ => .create lanes) ?_ (Machine.allows_true apply _ events) named
  intro past c now event before _ named
  exact (before named.of_append).apply now event named

/-! ## The reason for an answer -/

/-- Why a call is answered as it is. -/
inductive Answer (h : History V E) (c : KeyedCache V E) (now : Nat) (call : CallId) :
    Request V E → Reply V E → Prop where
  | looked (key : String) : Answer h c now call (.get key) (.found (c.table.lookup now key))
  | held (key : String) (ttl : Nat) (result : Except E V)
    (found : c.table.lookup now key = some result) :
    Answer h c now call (.getOrUpdate key ttl) (.result result)
  | earned (request : Request V E) (reply : Reply V E) (earned : Earned h call request reply) :
    Answer h c now call request reply
  | refused (key : String) (test : Except E V → Bool)
    (refused : ∀ entry, c.table.find? key = some entry → test entry.result = false)
    (request : Request V E) (drops : (Stage.requested request).Drops key test) :
    Answer h c now call request (.removed false)
  | swept (sweep : Sweep) (count : Nat) : Answer h c now call sweep.request (sweep.reply count)

/-- Every answer has its reason, and the call had asked for it. -/
theorem answer_of_mem {h : History V E} {c : KeyedCache V E} (recorded : Recorded h c) {now : Nat}
    {event : Event V E} {call : CallId} {reply : Reply V E}
    (member : .answered call reply ∈ (c.apply now event).2) :
    ∃ request, (call, request) ∈ begunIn h ∧ Answer h c now call request reply := by
  cases answering_of_mem member with
  | gets key stage => exact ⟨_, (recorded.told _ _ stage).1, .looked key⟩
  | hits key ttl at_ result stage looks found =>
      have told := recorded.told _ _ stage
      cases looks with
      | first => exact ⟨_, told.1, .held key ttl result found⟩
      | again => exact ⟨_, told.1, .held key ttl result found⟩
  | stores key ttl at_ result reply stage brings =>
      have told := recorded.told _ _ stage
      cases brings with
      | given value => exact ⟨_, told.1, .earned _ _ (.set key ttl value)⟩
      | made => exact ⟨_, told.1, .earned _ _ (.made key ttl result told.2)⟩
  | removesNothing key test at_ stage drops refused =>
      have told := recorded.told _ _ stage
      cases drops with
      | any => exact ⟨_, told.1, .refused key _ refused _ .any⟩
      | accepted => exact ⟨_, told.1, .refused key _ refused _ (.accepted test)⟩
  | endsSweep count sweep stage => exact ⟨_, recorded.told _ _ stage, .swept sweep count⟩
  | replies reply stage =>
      obtain ⟨request, asked, earned⟩ := recorded.told _ _ stage
      exact ⟨request, asked, .earned request _ earned⟩

end CachedStreams.KeyedCache
