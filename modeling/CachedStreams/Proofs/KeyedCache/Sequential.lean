import Mathlib.Data.List.Perm.Subperm
import CachedStreams.Proofs.KeyedCache.Snapshot

/-!
# Calls one after the other

If the eviction hook takes no time, a call of a keyed cache comes to its end at the instant at which
it is made, unless it has to wait for its generator. `KeyedCache.perform` lets a call go as far as
it comes. While no other call is in progress it can be said without steps what comes of that: which
entries are kept, what is stored and what the caller sees (`KeyedCache.outcome`). That every call
keeps to it is `comes_of_call` and `comes_of_generated`, also for a purge that comes while a
generator runs.
-/

set_option autoImplicit false

namespace CachedStreams

/-- A table without what has expired. -/
def Table.liveAt {V E : Type} (t : Table V E) (now : Nat) : Table V E :=
  ⟨t.rows.filter fun row => row.2.isLive now⟩

/-- What has expired of a table, in the order of storing. -/
def Table.expiredAt {V E : Type} (t : Table V E) (now : Nat) : List (String × Entry V E) :=
  t.rows.filter fun row => !row.2.isLive now

namespace KeyedCache

variable {V E : Type}

/-! ## Calls that go as far as they come -/

/-- What lets a call go on: it is made, or its generator ends. -/
inductive Cue (V E : Type) where
  | call (name : CallId) (request : Request V E)
  | generated (name : CallId) (result : Except E V)

/-- The call that a cue is about. -/
def Cue.name : Cue V E → CallId
  | .call name _ => name
  | .generated name _ => name

/-- The event that a cue stands for. -/
def Cue.event : Cue V E → Event V E
  | .call name request => .call name request
  | .generated name result => .generated name result

/-- Rounds in which a call takes a step at an instant and a hook that it has come to wait for ends.
What it cannot do it does not. -/
def rounds (now : Nat) (call : CallId) (count : Nat) : List (Nat × Event V E) :=
  (List.replicate count [(now, .resume call), (now, .evicted call)]).flatten

/-- Let a call take some rounds. -/
def settle (c : KeyedCache V E) (now : Nat) (call : CallId) (count : Nat) :
    KeyedCache V E × List (Notice V E) :=
  (Machine.final apply c (rounds now call count),
    Machine.noticesOf (Machine.history apply c (rounds now call count)))

/-- Let a call go as far as it comes. A call that asks for a result takes three rounds to its
generator, and a sweep two and one for each entry. -/
def perform (c : KeyedCache V E) (now : Nat) (cue : Cue V E) :
    KeyedCache V E × List (Notice V E) :=
  let start := c.apply now cue.event
  let rest := start.1.settle now cue.name (c.table.size + 3)
  (rest.1, start.2 ++ rest.2)

/-- A call that does not take part in what happens at an instant: it is over, or its generator
runs. -/
inductive Rests (c : KeyedCache V E) (call : CallId) : Prop where
  | gone (stage : c.stage? call = none)
  | generating (key : String) (ttl : Nat) (stage : c.stage? call = some (.generating key ttl))

section

variable (c : KeyedCache V E) (now : Nat) (call : CallId)

/-- Without a round nothing happens. -/
@[simp] theorem settle_zero : c.settle now call 0 = (c, []) := rfl

/-- One more round is a step of the call and the return of its hook, before the rest. -/
theorem settle_succ (count : Nat) :
    c.settle now call (count + 1) =
      let step := c.apply now (.resume call)
      let hook := step.1.apply now (.evicted call)
      let rest := hook.1.settle now call count
      (rest.1, step.2 ++ (hook.2 ++ rest.2)) := by
  simp [settle, rounds, List.replicate_succ, Machine.final, Machine.noticesOf_history_cons]

/-- The rounds of a call can be taken in two parts. -/
theorem settle_add (first later : Nat) :
    c.settle now call (first + later) =
      let before := c.settle now call first
      let rest := before.1.settle now call later
      (rest.1, before.2 ++ rest.2) := by
  simp [settle, rounds, ← List.replicate_append_replicate, Machine.final_append,
    Machine.history_append]

/-- When a call goes as far as it comes, nothing happens but events of its own. -/
theorem exists_run_of_perform (cue : Cue V E) :
    ∃ events, (∀ e ∈ events, e.2.subject = cue.name) ∧
      c.perform now cue =
        (Machine.final apply c events, Machine.noticesOf (Machine.history apply c events)) := by
  refine ⟨(now, cue.event) :: rounds now cue.name (c.table.size + 3), ?_, ?_⟩
  · have own : cue.event.subject = cue.name := by cases cue <;> rfl
    intro e member
    simp only [rounds, List.mem_cons, List.mem_flatten, List.mem_replicate] at member
    rcases member with rfl | ⟨round, ⟨-, rfl⟩, within⟩
    · exact own
    · simp only [List.mem_cons, List.not_mem_nil, or_false] at within
      rcases within with rfl | rfl <;> rfl
  · simp [perform, settle, Machine.final, Machine.noticesOf_history_cons]

variable {c call}

/-- Nothing comes of the return of a hook that no call waits for. -/
theorem apply_evicted_of_idle (idle : ∀ next, c.stage? call ≠ some (.evicting next)) :
    c.apply now (.evicted call) = (c, []) := by
  have turn := turn_apply c now (.evicted call)
  generalize c.apply now (.evicted call) = r at turn ⊢
  cases turn with
  | replies _ _ stage => exact absurd stage (idle _)
  | sweepsOn _ _ _ _ stage => exact absurd stage (idle _)
  | ignoresHook => rfl

/-- A call that waits for the hook of one entry answers when that returns. -/
theorem apply_evicted_of_reply {reply : Reply V E}
    (stage : c.stage? call = some (.evicting (.reply reply))) :
    c.apply now (.evicted call) = c.answer call reply := by
  have known : c.calls.find? call = some (.evicting (.reply reply)) := stage
  simp [apply, known]

/-- The first step of a call is to begin with its request. -/
theorem apply_resume_of_requested {request : Request V E}
    (stage : c.stage? call = some (.requested request)) :
    c.apply now (.resume call) = c.begin now call request := by
  have known : c.calls.find? call = some (.requested request) := stage
  simp [apply, resume, known]

/-- A call that has its result stores it in its next step. -/
theorem apply_resume_of_generated {key : String} {ttl : Nat} {result : Except E V}
    (stage : c.stage? call = some (.generated key ttl result)) :
    c.apply now (.resume call) = c.store now call key ttl result (.result result) := by
  have known : c.calls.find? call = some (.generated key ttl result) := stage
  simp [apply, resume, known]

/-- A call that stands still goes no further. -/
theorem settle_of_rests (rests : c.Rests call) (count : Nat) :
    c.settle now call count = (c, []) := by
  have waits : c.apply now (.resume call) = (c, []) := by
    cases rests with
    | gone stage => exact apply_resume_of_gone c now stage
    | generating key ttl stage =>
        have known : c.calls.find? call = some (.generating key ttl) := stage
        simp [apply, resume, known]
  have idle : c.apply now (.evicted call) = (c, []) :=
    apply_evicted_of_idle now fun next stage => by
      cases rests with
      | gone gone => cases gone.symm.trans stage
      | generating key ttl at_ => cases at_.symm.trans stage
  induction count with
  | zero => rfl
  | succ count ih => simp [settle_succ, waits, idle, ih]

/-- A call goes on from a step after which it has no hook to wait for. -/
theorem settle_of_step {d : KeyedCache V E} {notices : List (Notice V E)}
    (step : c.apply now (.resume call) = (d, notices))
    (idle : ∀ next, d.stage? call ≠ some (.evicting next)) (count : Nat) :
    c.settle now call (count + 1) =
      ((d.settle now call count).1, notices ++ (d.settle now call count).2) := by
  simp [settle_succ, step, apply_evicted_of_idle now idle]

/-- A step with which a call comes to rest is its last. -/
theorem settle_of_last_step (rests : (c.apply now (.resume call)).1.Rests call) (count : Nat) :
    c.settle now call (count + 1) = c.apply now (.resume call) := by
  have idle : ∀ next, (c.apply now (.resume call)).1.stage? call ≠ some (.evicting next) := by
    intro next stage
    cases rests with
    | gone gone => cases gone.symm.trans stage
    | generating key ttl at_ => cases at_.symm.trans stage
  generalize step : c.apply now (.resume call) = r at rests idle ⊢
  rw [settle_of_step now step idle, settle_of_rests now rests, List.append_nil]

/-- A call that waits for the hook of its last step is answered as soon as that ends. -/
theorem settle_of_last_hook {d : KeyedCache V E} {notices : List (Notice V E)} {reply : Reply V E}
    (step : c.apply now (.resume call) = (d, notices))
    (stage : d.stage? call = some (.evicting (.reply reply))) (count : Nat) :
    c.settle now call (count + 1) =
      ((d.answer call reply).1, notices ++ (d.answer call reply).2) := by
  have rests : (d.answer call reply).1.Rests call := .gone (stage?_answer_self d reply)
  simp [settle_succ, step, apply_evicted_of_reply now stage, settle_of_rests now rests]

end

/-! ## What comes of a call -/

/-- Whether a notice is one that a reader sees: a generator is started, or the answer to a call that
reads. -/
def Notice.isShown : Notice V E → Bool
  | .generate _ _ => true
  | .answered _ (.found _) => true
  | .answered _ (.result _) => true
  | _ => false

/-- What comes of a call: the entries that it keeps, what it stores, what readers see of it, and
where it stands then. -/
structure Outcome (V E : Type) where
  keeps : String × Entry V E → Bool := fun _ => true
  stored : List (String × Entry V E) := []
  shown : List (Notice V E) := []
  stage : Option (Stage V E) := none

/-- The outcome of storing a result, which takes the place of what is stored under the key. -/
def Outcome.store (c : KeyedCache V E) (now : Nat) (key : String) (ttl : Nat)
    (result : Except E V) : Outcome V E where
  keeps row := row.1 != key
  stored := [(key, ⟨result, Clock.add? now ttl, c.nextSeq⟩)]

/-- The outcome of removing what is stored under a key, if a test accepts it. -/
def Outcome.drop (key : String) (test : Except E V → Bool) : Outcome V E where
  keeps row := !(row.1 == key && test row.2.result)

/-- The outcome of a call that is made while no other call is in progress. -/
def outcome (c : KeyedCache V E) (now : Nat) (call : CallId) : Request V E → Outcome V E
  | .get key => { shown := [.answered call (.found (c.table.lookup now key))] }
  | .getOrUpdate key ttl =>
    match c.table.lookup now key with
    | some result => { shown := [.answered call (.result result)] }
    | none => { shown := [.generate call key], stage := some (.generating key ttl) }
  | .set key ttl value => .store c now key ttl (.ok value)
  | .remove key => .drop key fun _ => true
  | .removeIf key test => .drop key test
  | .flush => { keeps := fun _ => false }
  | .purge => { keeps := fun row => row.2.isLive now }

/-- A call has the outcome that it should have. -/
structure Comes (c : KeyedCache V E) (call : CallId) (o : Outcome V E)
    (r : KeyedCache V E × List (Notice V E)) : Prop where
  rows : r.1.table.rows = c.table.rows.filter o.keeps ++ o.stored
  stored : storedIn r.2 = o.stored
  shown : r.2.filter Notice.isShown = o.shown
  stage : r.1.stage? call = o.stage

section

variable {c : KeyedCache V E} {now : Nat} {call : CallId}

/-- Of an answer the reply itself is shown at most. -/
theorem filter_isShown_answer (c : KeyedCache V E) (call : CallId) (reply : Reply V E) :
    (c.answer call reply).2.filter Notice.isShown =
      [Notice.answered call reply].filter Notice.isShown := by
  have admitted : ((c.lanes.admittedBy call).map (.admitted : CallId → Notice V E)).filter
      Notice.isShown = [] := by
    rw [List.filter_eq_nil_iff]
    intro notice member
    obtain ⟨other, -, rfl⟩ := List.mem_map.mp member
    simp [Notice.isShown]
  rw [answer, leave, List.filter_append, admitted, List.nil_append]

/-- What comes of an answer: nothing but that it is seen. -/
theorem comes_of_answer (c : KeyedCache V E) (call : CallId) (reply : Reply V E) :
    Comes c call { shown := [Notice.answered call reply].filter Notice.isShown }
      (c.answer call reply) where
  rows := by simp [answer, leave]
  stored := storedIn_answer c call reply
  shown := filter_isShown_answer c call reply
  stage := stage?_answer_self c reply

/-- What is stored displaces what was there, whose hook ends at once. -/
theorem comes_of_store {key : String} {ttl : Nat} {result : Except E V} {reply : Reply V E}
    (stores : c.apply now (.resume call) = c.store now call key ttl result reply) (count : Nat) :
    Comes c call { Outcome.store c now key ttl result with
      shown := [Notice.answered call reply].filter Notice.isShown }
      (c.settle now call (count + 1)) := by
  cases displaced : c.table.find? key with
  | none =>
      rw [store_of_absent c now call displaced] at stores
      have rests : (c.apply now (.resume call)).1.Rests call := by
        rw [stores]
        exact .gone (stage?_answer_self _ reply)
      rw [settle_of_last_step now rests, stores]
      exact ⟨rfl, by simp [storedIn_answer, Outcome.store],
        by simp [Notice.isShown, filter_isShown_answer], stage?_answer_self _ reply⟩
  | some old =>
      rw [store_of_present c now call displaced] at stores
      rw [settle_of_last_hook now stores (stage?_moveTo_self _ _)]
      refine ⟨rfl, ?_, ?_, stage?_answer_self _ reply⟩
      · rw [storedIn_append, storedIn_answer]
        rfl
      · rw [List.filter_append, filter_isShown_answer]
        rfl

/-- What is removed goes to the hook, which ends at once. -/
theorem comes_of_removeWhen (keyed : c.table.Keyed) {key : String} (test : Except E V → Bool)
    (removes : c.apply now (.resume call) =
      c.removeWhen call key fun entry => test entry.result) (count : Nat) :
    Comes c call (.drop key test) (c.settle now call (count + 1)) := by
  unfold removeWhen at removes
  split at removes
  · rename_i entry found
    obtain ⟨present, accepted⟩ := Option.filter_eq_some_iff.mp found
    rw [settle_of_last_hook now removes (stage?_moveTo_self _ _)]
    refine ⟨?_, ?_, ?_, stage?_answer_self _ (.removed true)⟩
    · refine Eq.trans (List.filter_congr fun row member => ?_) (List.append_nil _).symm
      by_cases own : row.1 = key
      · subst own
        obtain rfl : entry = row.2 :=
          Option.some.inj (present.symm.trans ((Table.find?_eq_some_iff keyed).mpr member))
        simp [Outcome.drop, accepted]
      · simp [Outcome.drop, bne, beq_eq_false_iff_ne.mpr own]
    · rw [storedIn_append, storedIn_answer]
      rfl
    · rw [List.filter_append, filter_isShown_answer]
      rfl
  · rename_i refused
    rw [settle_of_last_step now (by rw [removes]; exact .gone (stage?_answer_self c _)), removes]
    refine ⟨?_, storedIn_answer c call _, filter_isShown_answer c call _, stage?_answer_self c _⟩
    refine (List.append_nil _).symm.trans (congrArg (· ++ []) (List.filter_eq_self.mpr ?_).symm)
    intro row member
    by_cases own : row.1 = key
    · subst own
      have held := (Table.find?_eq_some_iff keyed).mpr member
      have rejected := Option.filter_eq_none_iff.mp refused row.2 held
      simpa [Outcome.drop] using rejected
    · simp [Outcome.drop, own]

/-- A sweep that is left alone passes what it has on its list to the hook and is answered. -/
theorem settle_of_sweep (now : Nat) (keyed : c.table.Keyed)
    (apart : ∀ r ∈ c.lanes.requests, r.1 ≠ call) {waiting : List (String × Entry V E)}
    (held : ∀ row ∈ waiting, row ∈ c.table.rows) (distinct : (waiting.map (·.1)).Nodup)
    {sweep : Sweep} (stage : c.stage? call = some (.sweeping (listOf waiting) 0 sweep))
    {count : Nat} (enough : waiting.length < count) :
    (c.settle now call count).2 = waiting.map (fun row => .evict call row.1 row.2) ++
        [.answered call (sweep.reply waiting.length)] ∧
      (c.settle now call count).1.table.rows =
        c.table.rows.filter (fun row => !(waiting.map (·.1)).contains row.1) ∧
      (c.settle now call count).1.stage? call = none := by
  obtain ⟨more, rfl⟩ : ∃ more, count = waiting.length + (more + 1) :=
    ⟨count - waiting.length - 1, by omega⟩
  have turns : rounds now call waiting.length =
      (List.replicate waiting.length (now, now)).flatMap fun turn =>
        [(turn.1, (Event.resume call : Event V E)), (turn.2, .evicted call)] := by
    rw [List.flatMap_def, List.map_replicate, rounds]
  obtain ⟨notices, rows, lanes, ends⟩ := turns_of_sweep (List.replicate waiting.length (now, now))
    List.length_replicate keyed held distinct stage
  rw [← turns] at notices rows lanes ends
  obtain ⟨d, hd⟩ : ∃ d, d = Machine.final apply c (rounds now call waiting.length) := ⟨_, rfl⟩
  rw [← hd] at rows lanes ends
  rw [Nat.zero_add] at ends
  have first : c.settle now call waiting.length =
      (d, waiting.map fun row => .evict call row.1 row.2) := by rw [settle, notices, hd]
  have last := apply_resume_of_swept d now ends
  have closes : d.settle now call (more + 1) = d.answer call (sweep.reply waiting.length) :=
    (settle_of_last_step now (by rw [last]; exact .gone (stage?_answer_self d _)) more).trans last
  have answered : (d.answer call (sweep.reply waiting.length)).2 =
      [.answered call (sweep.reply waiting.length)] := by
    simpa [Machine.history, Machine.move, last] using
      (last_step_of_sweep (lanes ▸ apart) ends now).1
  simp only [settle_add, first, closes, answered]
  exact ⟨trivial, rows, stage?_answer_self d _⟩

/-- A call that asks for a result of which there is none, and finds no other call in its way, has
its generator started. -/
theorem comes_of_asking (free : c.lanes.requests = []) {key : String} {ttl : Nat}
    (stage : c.stage? call = some (.requested (.getOrUpdate key ttl)))
    (absent : c.table.lookup now key = none) (count : Nat) :
    Comes c call { shown := [.generate call key], stage := some (.generating key ttl) }
      (c.settle now call (count + 3)) := by
  obtain ⟨d, hd⟩ : ∃ d, d = c.moveTo call (.missed key ttl) := ⟨_, rfl⟩
  obtain ⟨e, he⟩ : ∃ e, e = ({ d with lanes := d.lanes.request call (d.laneOf key) } :
    KeyedCache V E).moveTo call (.queued key ttl) := ⟨_, rfl⟩
  have missed : d.stage? call = some (.missed key ttl) := hd ▸ stage?_moveTo_self c _
  have queued : e.stage? call = some (.queued key ttl) := he ▸ stage?_moveTo_self _ _
  have holder : e.lanes.holder (e.laneOf key) = some call := by
    rw [he, hd]
    exact Lanes.holder_request_of_none (Lanes.holder_eq_none_of_nil free _) call
  have table : e.table = c.table := by rw [he, hd]; rfl
  have misses : c.apply now (.resume call) = (d, []) :=
    hd ▸ apply_resume_of_absent c now stage absent
  have queues : d.apply now (.resume call) = (e, []) := he ▸ apply_resume_of_missed d now missed
  have starts : e.apply now (.resume call) =
      (e.moveTo call (.generating key ttl), [.generate call key]) :=
    apply_resume_of_queued e now queued (beq_iff_eq.mpr holder) (table ▸ absent)
  have rests : (e.apply now (.resume call)).1.Rests call := by
    rw [starts]
    exact .generating key ttl (stage?_moveTo_self e _)
  rw [settle_of_step now misses (by simp [missed]), settle_of_step now queues (by simp [queued]),
    settle_of_last_step now rests, starts]
  refine ⟨?_, rfl, rfl, stage?_moveTo_self e _⟩
  exact (congrArg Table.rows table).trans (by simp)

end

/-! ## Every call has its outcome -/

section

variable {lanes : Nat} {c : KeyedCache V E} {call : CallId}

/-- A call goes as far as it comes in two rounds and one for each entry. -/
theorem perform_call (c : KeyedCache V E) (now : Nat) (call : CallId) (request : Request V E) :
    c.perform now (.call call request) =
      (c.moveTo call (.requested request)).settle now call (c.table.size + 3) := by
  simp [perform, Cue.event, Cue.name, apply]

/-- A call that has not begun stands in no line. -/
theorem apart_of_fresh (orderly : Orderly lanes c) (fresh : c.stage? call = none) :
    ∀ r ∈ c.lanes.requests, r.1 ≠ call :=
  fun r member own => orderly.present r member (own ▸ fresh)

/-- A sweep hands over what it sets out to remove, in order, and says how much that was. -/
theorem perform_sweep (keyed : c.table.Keyed) (orderly : Orderly lanes c)
    (fresh : c.stage? call = none) (now : Nat) {sweep : Sweep}
    {waiting : List (String × Entry V E)} (listed : c.snapshot now sweep = listOf waiting)
    (held : ∀ row ∈ waiting, row ∈ c.table.rows) (distinct : (waiting.map (·.1)).Nodup) :
    (c.perform now (.call call sweep.request)).2 =
        waiting.map (fun row => .evict call row.1 row.2) ++
          [.answered call (sweep.reply waiting.length)] ∧
      (c.perform now (.call call sweep.request)).1.table.rows =
        c.table.rows.filter (fun row => !(waiting.map (·.1)).contains row.1) ∧
      (c.perform now (.call call sweep.request)).1.stage? call = none := by
  have fits : waiting.length ≤ c.table.size :=
    (List.subperm_of_subset distinct.of_map held).length_le
  obtain ⟨d, hd⟩ : ∃ d, d = c.moveTo call (.requested sweep.request) := ⟨_, rfl⟩
  obtain ⟨e, he⟩ : ∃ e, e = d.moveTo call (.sweeping (listOf waiting) 0 sweep) := ⟨_, rfl⟩
  have requested : d.stage? call = some (.requested sweep.request) :=
    hd ▸ stage?_moveTo_self c _
  have sweeping : e.stage? call = some (.sweeping (listOf waiting) 0 sweep) :=
    he ▸ stage?_moveTo_self d _
  have begins : d.apply now (.resume call) = (e, []) := by
    rw [apply_resume_of_requested now requested, he, ← listed, hd]
    cases sweep <;> rfl
  have table : e.table = c.table := by rw [he, hd]; rfl
  have same : e.lanes = c.lanes := by rw [he, hd]; rfl
  have few : waiting.length < c.table.size + 2 := by omega
  have settled := settle_of_sweep now (table ▸ keyed) (same ▸ apart_of_fresh orderly fresh)
    (table ▸ held) distinct sweeping few
  rw [perform_call, ← hd, settle_of_step now begins (by simp [sweeping]), ← table]
  exact table ▸ settled

/-- The notices of a sweep store nothing and show nothing to readers. -/
theorem quiet_sweep (call : CallId) (waiting : List (String × Entry V E)) (sweep : Sweep) :
    let notices : List (Notice V E) := waiting.map (fun row => .evict call row.1 row.2) ++
      [.answered call (sweep.reply waiting.length)]
    storedIn notices = [] ∧ notices.filter Notice.isShown = [] := by
  constructor
  · simp [storedIn, Notice.stored?, List.filterMap_map, Function.comp_def]
  · rw [List.filter_eq_nil_iff]
    intro notice member
    rcases List.mem_append.mp member with evicts | answered
    · obtain ⟨row, -, rfl⟩ := List.mem_map.mp evicts
      simp [Notice.isShown]
    · obtain rfl := List.mem_singleton.mp answered
      cases sweep <;> simp [Notice.isShown, Sweep.reply]

/-- A flush leaves nothing and hands out every entry. -/
theorem comes_of_flush (keyed : c.table.Keyed) (orderly : Orderly lanes c)
    (fresh : c.stage? call = none) (now : Nat) :
    Comes c call { keeps := fun _ => false } (c.perform now (.call call .flush)) := by
  have same := c.table.flushOrder_perm now
  have listed : c.snapshot now .flush = listOf (c.table.flushOrder now) :=
    c.table.liveThenExpired_eq now
  obtain ⟨notices, rows, stage⟩ := perform_sweep keyed orderly fresh now listed
    (fun row member => same.mem_iff.mp member) ((same.map _).nodup_iff.mpr keyed)
  obtain ⟨stored, shown⟩ := quiet_sweep call (c.table.flushOrder now) .flush
  refine ⟨rows.trans ?_, notices ▸ stored, notices ▸ shown, stage⟩
  rw [List.append_nil]
  refine List.filter_congr fun row member => ?_
  simpa using ⟨row.2, same.mem_iff.mpr member⟩

/-- A purge hands over what has expired, in the order of storing, keeps the rest, and says how much
that was. -/
theorem perform_purge (keyed : c.table.Keyed) (orderly : Orderly lanes c)
    (fresh : c.stage? call = none) (now : Nat) :
    let expired := c.table.expiredAt now
    (c.perform now (.call call .purge)).2 = expired.map (fun row => .evict call row.1 row.2) ++
        [.answered call (.purged expired.length)] ∧
      (c.perform now (.call call .purge)).1.table = c.table.liveAt now ∧
      (c.perform now (.call call .purge)).1.stage? call = none := by
  intro expired
  have listed : c.snapshot now .purge = listOf expired := rfl
  obtain ⟨notices, rows, stage⟩ := perform_sweep keyed orderly fresh now listed
    (fun row member => (List.mem_filter.mp member).1) (keyed.sublist (List.filter_sublist.map _))
  refine ⟨notices, congrArg Table.mk (rows.trans (List.filter_congr fun row member => ?_)), stage⟩
  cases live : row.2.isLive now with
  | true =>
      -- Nothing that has expired is under the key of what is live.
      have apart : row.1 ∉ expired.map (·.1) := by
        intro listed
        obtain ⟨other, expired, same⟩ := List.mem_map.mp listed
        obtain ⟨present, elapsed⟩ := List.mem_filter.mp expired
        rw [List.inj_on_of_nodup_map keyed present member same, live] at elapsed
        cases elapsed
      simpa using apart
  | false =>
      have listed : row ∈ expired := List.mem_filter.mpr ⟨member, by simp [live]⟩
      simpa using ⟨row.2, listed⟩

/-- A purge leaves what is live and hands out what has expired. -/
theorem comes_of_purge (keyed : c.table.Keyed) (orderly : Orderly lanes c)
    (fresh : c.stage? call = none) (now : Nat) :
    Comes c call { keeps := fun row => row.2.isLive now } (c.perform now (.call call .purge)) := by
  obtain ⟨notices, table, stage⟩ := perform_purge keyed orderly fresh now
  obtain ⟨stored, shown⟩ := quiet_sweep call (c.table.expiredAt now) .purge
  exact ⟨by rw [table, List.append_nil]; rfl, notices ▸ stored, notices ▸ shown, stage⟩

/-- A call that is made while no other call is in progress comes to its outcome. -/
theorem comes_of_call (keyed : c.table.Keyed) (orderly : Orderly lanes c)
    (quiet : ∀ other, c.stage? other = none) (now : Nat) (request : Request V E) :
    Comes c call (c.outcome now call request) (c.perform now (.call call request)) := by
  have fresh := quiet call
  have free := orderly.requests_eq_nil quiet
  obtain ⟨d, hd⟩ : ∃ d, d = c.moveTo call (.requested request) := ⟨_, rfl⟩
  have requested : d.stage? call = some (.requested request) := hd ▸ stage?_moveTo_self c _
  have begins := apply_resume_of_requested now requested
  -- The cache in which the call has been made differs only in that.
  have carried : ∀ {o r}, Comes d call o r → Comes c call o r := fun {o r} comes =>
    ⟨by rw [comes.rows, hd]; rfl, comes.stored, comes.shown, comes.stage⟩
  have answers : ∀ reply, d.begin now call request = d.answer call reply →
      Comes c call { shown := [Notice.answered call reply].filter Notice.isShown }
        (c.perform now (.call call request)) := by
    intro reply answers
    rw [answers] at begins
    rw [perform_call, ← hd,
      settle_of_last_step now (by rw [begins]; exact .gone (stage?_answer_self d _)), begins]
    exact carried (comes_of_answer d call reply)
  have lookup : d.table = c.table := by rw [hd]; rfl
  cases request with
  | get key =>
      have same := answers (.found (d.table.lookup now key)) rfl
      rwa [lookup] at same
  | getOrUpdate key ttl =>
      cases found : c.table.lookup now key with
      | some result =>
          simp only [outcome, found]
          exact answers (.result result) (by simp [begin, lookup, found])
      | none =>
          simp only [outcome, found, perform_call, ← hd]
          exact carried (comes_of_asking (by rw [hd]; exact free) requested
            (by rw [lookup, found]) _)
  | set key ttl value =>
      rw [perform_call, ← hd]
      have comes := carried (comes_of_store begins (c.table.size + 2))
      rw [hd] at comes ⊢
      exact comes
  | remove key =>
      rw [perform_call, ← hd]
      exact carried (comes_of_removeWhen (by rwa [lookup]) (fun _ => true) begins _)
  | removeIf key test =>
      rw [perform_call, ← hd]
      exact carried (comes_of_removeWhen (by rwa [lookup]) test begins _)
  | flush => exact comes_of_flush keyed orderly fresh now
  | purge => exact comes_of_purge keyed orderly fresh now

/-- A call whose generator ends stores the result and is answered with it. -/
theorem comes_of_generated {key : String} {ttl : Nat}
    (stage : c.stage? call = some (.generating key ttl)) (now : Nat) (result : Except E V) :
    Comes c call { Outcome.store c now key ttl result with
      shown := [.answered call (.result result)] } (c.perform now (.generated call result)) := by
  obtain ⟨d, hd⟩ : ∃ d, d = c.moveTo call (.generated key ttl result) := ⟨_, rfl⟩
  have generated : d.stage? call = some (.generated key ttl result) :=
    hd ▸ stage?_moveTo_self c _
  have comes := comes_of_store (apply_resume_of_generated now generated) (c.table.size + 2)
  have ends : c.apply now (.generated call result) = (d, []) :=
    hd ▸ apply_generated_of_generating c now result stage
  have performed : c.perform now (.generated call result) =
      d.settle now call (c.table.size + 3) := by simp [perform, Cue.event, Cue.name, ends]
  rw [performed]
  rw [hd] at comes ⊢
  exact ⟨comes.rows, comes.stored, comes.shown, comes.stage⟩

/-- The end of a generator that does not run means nothing. -/
theorem perform_generated_of_gone (gone : c.stage? call = none) (now : Nat)
    (result : Except E V) : c.perform now (.generated call result) = (c, []) := by
  have known : c.calls.find? call = none := gone
  have ignores : c.apply now (.generated call result) = (c, []) := by simp [apply, known]
  simp [perform, Cue.event, Cue.name, ignores, settle_of_rests now (.gone gone)]

end

/-! ## Between the calls -/

/-- The outcome of whatever lets a call go on. -/
def Cue.outcome (c : KeyedCache V E) (now : Nat) : Cue V E → Outcome V E
  | .call name request => KeyedCache.outcome c now name request
  | .generated name result =>
    match c.stage? name with
    | some (.generating key ttl) =>
      { Outcome.store c now key ttl result with shown := [.answered name (.result result)] }
    | stage => { stage }

/-- A call can be made while no other is in progress, and a purge also while a generator runs. -/
def Cue.Possible (c : KeyedCache V E) : Cue V E → Prop
  | .call name .purge => c.stage? name = none
  | .call _ _ => ∀ other, c.stage? other = none
  | .generated _ _ => True

/-- What a cache is like when every call has gone as far as it comes. -/
structure Between (lanes : Nat) (c : KeyedCache V E) : Prop where
  keyed : c.table.Keyed
  numbered : c.table.Numbered c.nextSeq
  orderly : Orderly lanes c
  rests : ∀ call, c.Rests call

/-- Every event uses up one number for each entry that it stores. -/
theorem nextSeq_apply (c : KeyedCache V E) (now : Nat) (event : Event V E) :
    (c.apply now event).1.nextSeq = c.nextSeq + (storedIn (c.apply now event).2).length := by
  cases effect_apply c now event with
  | keeps _ nextSeq stored | removes _ _ _ _ nextSeq stored => simp [nextSeq, stored]
  | stores _ _ _ _ nextSeq stored => simp [nextSeq, stored]

section

variable {lanes : Nat} {c : KeyedCache V E}

/-- Whatever no event can end survives it when a call goes as far as it comes. -/
theorem perform_induction (P : KeyedCache V E → Prop)
    (step : ∀ d now event, P d → P (apply d now event).1) (holds : P c) (now : Nat)
    (cue : Cue V E) : P (c.perform now cue).1 := by
  obtain ⟨events, -, same⟩ := exists_run_of_perform c now cue
  rw [same]
  exact Machine.final_induction apply P holds (fun d now event holds _ => step d now event holds)
    (Machine.allows_true apply c events)

/-- To let one call go on does not concern how far any other has come. -/
theorem stage?_perform_of_ne (c : KeyedCache V E) (now : Nat) (cue : Cue V E) {other : CallId}
    (ne : other ≠ cue.name) : (c.perform now cue).1.stage? other = c.stage? other := by
  obtain ⟨events, own, same⟩ := exists_run_of_perform c now cue
  rw [same]
  clear same
  induction events generalizing c with
  | nil => rfl
  | cons e rest ih =>
      have apart : other ≠ e.2.subject := by
        rw [own e List.mem_cons_self]
        exact ne
      exact (ih _ fun e member => own e (List.mem_cons_of_mem _ member)).trans
        (stage?_apply_of_ne c e.1 apart)

/-- A call that goes as far as it comes uses up one number for each entry that it stores. -/
theorem nextSeq_perform (c : KeyedCache V E) (now : Nat) (cue : Cue V E) :
    (c.perform now cue).1.nextSeq = c.nextSeq + (storedIn (c.perform now cue).2).length := by
  obtain ⟨events, -, same⟩ := exists_run_of_perform c now cue
  rw [same]
  clear same
  induction events generalizing c with
  | nil => rfl
  | cons e rest ih =>
      obtain ⟨now, event⟩ := e
      have here := nextSeq_apply c now event
      have later := ih (c.apply now event).1
      simp only [Machine.final, Machine.noticesOf_history_cons, storedIn_append,
        List.length_append] at later ⊢
      omega

namespace Between

/-- In a new cache no call is in the middle of anything. -/
theorem create (lanes : Nat) : Between lanes (create lanes : KeyedCache V E) where
  keyed := Table.keyed_empty
  numbered := numbered_of_run lanes []
  orderly := .create lanes
  rests _ := .gone rfl

/-- Whatever lets a call go on comes to its outcome. -/
theorem comes (between : Between lanes c) (now : Nat) {cue : Cue V E} (possible : cue.Possible c) :
    Comes c cue.name (cue.outcome c now) (c.perform now cue) := by
  obtain ⟨keyed, -, orderly, rests⟩ := between
  cases cue with
  | call name request =>
      have alone : (∀ other, c.stage? other = none) →
          Comes c name (KeyedCache.outcome c now name request)
            (c.perform now (.call name request)) :=
        fun quiet => comes_of_call keyed orderly quiet now request
      cases request with
      | purge => exact comes_of_purge keyed orderly possible now
      | _ => exact alone possible
  | generated name result =>
      cases rests name with
      | gone stage =>
          simp only [Cue.outcome, stage, perform_generated_of_gone stage]
          exact ⟨by simp, rfl, rfl, stage⟩
      | generating key ttl stage =>
          simp only [Cue.outcome, stage]
          exact comes_of_generated stage now result

/-- A call stands still after it has gone as far as it comes. -/
theorem rests_of_outcome (between : Between lanes c) (now : Nat) (cue : Cue V E)
    {d : KeyedCache V E} (stage : d.stage? cue.name = (cue.outcome c now).stage) :
    d.Rests cue.name := by
  cases cue with
  | call name request =>
      cases request with
      | getOrUpdate key ttl =>
          cases found : c.table.lookup now key with
          | some result => exact .gone (by simpa [Cue.outcome, outcome, found] using stage)
          | none =>
              exact .generating key ttl (by simpa [Cue.outcome, outcome, found] using stage)
      | _ => exact .gone stage
  | generated name result =>
      cases between.rests name with
      | gone at_ => exact .gone (by simpa [Cue.outcome, at_] using stage)
      | generating key ttl at_ =>
          exact .gone (by simpa [Cue.outcome, at_, Outcome.store] using stage)

/-- Between two calls that go as far as they come, no call is in the middle of anything. -/
theorem perform (between : Between lanes c) (now : Nat) {cue : Cue V E}
    (possible : cue.Possible c) : Between lanes (c.perform now cue).1 where
  keyed := perform_induction (fun d => d.table.Keyed)
    (fun d now event => keyed_apply d now event) between.keyed now cue
  numbered := perform_induction (fun d => d.table.Numbered d.nextSeq)
    (fun _ now event numbered => numbered_apply numbered now event) between.numbered now cue
  orderly := perform_induction (Orderly lanes)
    (fun _ now event orderly => orderly.apply now event) between.orderly now cue
  rests call := by
    by_cases own : call = cue.name
    · subst own
      exact between.rests_of_outcome now cue (between.comes now possible).stage
    · have kept := stage?_perform_of_ne c now cue own
      cases between.rests call with
      | gone stage => exact .gone (kept.trans stage)
      | generating key ttl stage => exact .generating key ttl (kept.trans stage)

/-- The same holds after every plan that is possible. -/
theorem of_run (between : Between lanes c) {plan : List (Nat × Cue V E)}
    (possible : Machine.Allows KeyedCache.perform (fun d cue => cue.Possible d) c plan) :
    Between lanes (Machine.final KeyedCache.perform c plan) :=
  Machine.final_induction KeyedCache.perform (Between lanes) between
    (fun _ now _ between possible => between.perform now possible) possible

end Between

end

end KeyedCache

end CachedStreams
