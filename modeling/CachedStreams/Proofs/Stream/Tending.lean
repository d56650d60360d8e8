import CachedStreams.Proofs.Stream.Sweeps
import CachedStreams.Ticker

/-!
# Sweeps in virtual time

`StreamCache.Tended` is a cache of buffers whose expired entries a sweeper removes whenever its
ticker is due. A run of it is in virtual time (`Tended.Timely`): a sweep begins exactly when it is
due, and time passes only when the sweeper cannot take a step and every pump that was asked to end
is over.

When a sweep is over, no entry is left that would outlive its expiry by a whole period before the
next one (`Tended.OnTime`). So at any instant at which nothing is left to do, every entry expired
less than a period ago (`Tended.OnTime.bound`).
-/

set_option autoImplicit false

namespace CachedStreams.StreamCache

/-- Whether an event begins a sweep for expired entries under a name. -/
def Event.isSweep (sweeper : CallId) : Event → Bool
  | .call name .purge => name == sweeper
  | _ => false

/-- Whether an event is a step of a call. -/
def Event.isStep : Event → Bool
  | .resume _ => true
  | _ => false

/-- A cache of buffers with the ticker of its sweeps, and the instant of what happened last. -/
structure Tended where
  cache : StreamCache
  ticker : Ticker
  clock : Nat

namespace Tended

/-- A cache that is created at an instant; the first sweep is due at once. -/
def start (c : StreamCache) (now : Nat) : Tended := ⟨c, .starting now c.sweepPeriod, now⟩

/-- What one event does, where the sweeps are calls under a given name. -/
def apply (sweeper : CallId) (t : Tended) (now : Nat) (event : Event) : Tended × List Notice :=
  (⟨(t.cache.apply now event).1,
    if event.isSweep sweeper then t.ticker.next now else t.ticker, now⟩,
    (t.cache.apply now event).2)

/-- Nothing is left to do: the sweeper cannot take a step, and every pump that was asked to end is
over. -/
structure AtRest (sweeper : CallId) (t : Tended) : Prop where
  swept : t.cache.resume t.clock sweeper = none
  released : ∀ b ∈ t.cache.buffers, b.isEnding = false

/-- What can happen next in virtual time: time passes only when nothing is left to do, and not past
the next sweep; that begins when it is due; and nobody else uses the name of the sweeper. -/
structure Admits (sweeper : CallId) (t : Tended) (now : Nat) (event : Event) : Prop where
  onward : t.clock ≤ now
  representable : now ≤ Clock.last
  due : now ≤ t.ticker.due
  rested : t.clock < now → t.AtRest sweeper
  punctual : event.isSweep sweeper = true → now = t.ticker.due
  reserved : event.subject? = some sweeper → event.isSweep sweeper = true ∨ event.isStep = true

/-- All work that is due at an instant has been done. -/
structure Settled (sweeper : CallId) (t : Tended) (now : Nat) : Prop where
  onward : t.clock ≤ now
  representable : now ≤ Clock.last
  due : now < t.ticker.due
  rested : t.AtRest sweeper

section

variable (sweeper : CallId) (t : Tended) (now : Nat) (event : Event)

/-- Nothing is left to do exactly if the sweeper takes no step and no pump is about to end. -/
theorem atRest_iff : t.AtRest sweeper ↔
    t.cache.resume t.clock sweeper = none ∧ ∀ b ∈ t.cache.buffers, b.isEnding = false :=
  ⟨fun h => ⟨h.swept, h.released⟩, fun ⟨swept, released⟩ => ⟨swept, released⟩⟩

instance : Decidable (t.AtRest sweeper) := decidable_of_iff' _ (atRest_iff sweeper t)

/-- What can happen next, condition by condition. -/
theorem admits_iff : t.Admits sweeper now event ↔
    t.clock ≤ now ∧ now ≤ Clock.last ∧ now ≤ t.ticker.due ∧ (t.clock < now → t.AtRest sweeper) ∧
      (event.isSweep sweeper = true → now = t.ticker.due) ∧
      (event.subject? = some sweeper → event.isSweep sweeper = true ∨ event.isStep = true) :=
  ⟨fun h => ⟨h.onward, h.representable, h.due, h.rested, h.punctual, h.reserved⟩,
    fun ⟨onward, representable, due, rested, punctual, reserved⟩ =>
      ⟨onward, representable, due, rested, punctual, reserved⟩⟩

instance : Decidable (t.Admits sweeper now event) :=
  decidable_of_iff' _ (admits_iff sweeper t now event)

/-- When all work that is due has been done, condition by condition. -/
theorem settled_iff : t.Settled sweeper now ↔
    t.clock ≤ now ∧ now ≤ Clock.last ∧ now < t.ticker.due ∧ t.AtRest sweeper :=
  ⟨fun h => ⟨h.onward, h.representable, h.due, h.rested⟩,
    fun ⟨onward, representable, due, rested⟩ => ⟨onward, representable, due, rested⟩⟩

instance : Decidable (t.Settled sweeper now) := decidable_of_iff' _ (settled_iff sweeper t now)

end

/-- A run in virtual time. -/
def Timely (sweeper : CallId) (t : Tended) (events : List (Nat × Event)) : Prop :=
  ∀ v ∈ Machine.history (apply sweeper) t events, v.before.Admits sweeper v.now v.event

instance (sweeper : CallId) (t : Tended) (events : List (Nat × Event)) :
    Decidable (t.Timely sweeper events) :=
  inferInstanceAs (Decidable (∀ v ∈ Machine.history (apply sweeper) t events,
    v.before.Admits sweeper v.now v.event))

/-- The sweeps are calls like any other. -/
theorem cache_final (sweeper : CallId) (t : Tended) (events : List (Nat × Event)) :
    (Machine.final (apply sweeper) t events).cache =
      Machine.final StreamCache.apply t.cache events := by
  induction events generalizing t with
  | nil => rfl
  | cons e rest ih => exact ih _

/-- The last event of a run in virtual time is one that could happen next. -/
theorem timely_append {sweeper : CallId} {t : Tended} {events : List (Nat × Event)} {now : Nat}
    {event : Event} (timely : t.Timely sweeper (events ++ [(now, event)])) :
    t.Timely sweeper events ∧
      (Machine.final (apply sweeper) t events).Admits sweeper now event := by
  unfold Timely at timely
  rw [Machine.history_append] at timely
  exact ⟨fun v member => timely v (List.mem_append_left _ member),
    timely _ (List.mem_append_right _ (List.mem_singleton_self _))⟩

/-! ## Entries that stay too long -/

/-- An entry would still be in the table a period after its expiry, unless it is removed before the
next sweep. -/
def Overdue (due period : Nat) (entry : Entry BufferId StreamError) : Prop :=
  ∃ expiry, entry.expiresAt = some expiry ∧ expiry + period < due ∧ expiry + period ≤ Clock.last

/-- The sweeps are in step with the entries: the next one comes within a period, if the clock gets
as far as that; and the last one has removed what the next one would remove too late, or it is on
its way and has that on its list. -/
structure OnTime (sweeper : CallId) (period : Nat) (t : Tended) : Prop where
  paced : t.ticker.period = period
  soon : t.clock + period < t.ticker.due → Clock.last < t.clock + period
  sweeping : t.cache.Sweeping .purge (Overdue t.ticker.due period) sweeper

section

variable {sweeper : CallId} {period : Nat} {t : Tended} {now : Nat} {event : Event}

/-- The sweeps of a new cache are in step with its entries. -/
theorem onTime_start (lanes ttl : Nat) (options : BufferOptions) (now : Nat) (sweeper : CallId) :
    OnTime sweeper (max ttl minSweepPeriod) (start (create lanes ttl options) now) where
  paced := rfl
  soon late := absurd late (Nat.not_lt.mpr (Nat.le_add_right now _))
  sweeping := ⟨rfl, .idle fun key entry found => by cases found⟩

/-- The ticker is due again a period after it was, as far as the clock gets. -/
theorem due_next {ticker : Ticker} (representable : ticker.due + ticker.period ≤ Clock.last) :
    (ticker.next ticker.due).due = ticker.due + ticker.period := by
  have punctual : ¬ticker.due + Ticker.tolerance < ticker.due := by omega
  simp [Ticker.next, punctual, Clock.deadline, Clock.add?, representable]

/-- A sweep begins by a call to purge under the name of the sweeper. -/
theorem eq_of_isSweep (sweeps : event.isSweep sweeper = true) :
    event = .call sweeper .purge := by
  unfold Event.isSweep at sweeps
  split at sweeps
  · rw [eq_of_beq sweeps]
  · cases sweeps

/-- An entry that is overdue has expired. -/
theorem OnTime.lt_clock (onTime : t.OnTime sweeper period)
    {entry : Entry BufferId StreamError} (overdue : Overdue t.ticker.due period entry) :
    ∃ expiry, entry.expiresAt = some expiry ∧ expiry < t.clock := by
  obtain ⟨expiry, same, early, representable⟩ := overdue
  refine ⟨expiry, same, ?_⟩
  by_contra late
  have := onTime.soon (by omega)
  omega

/-- Nothing that is stored anew is overdue. -/
theorem OnTime.kept (onTime : t.OnTime sweeper period) (onward : t.clock ≤ now)
    (only : t.cache.OnlyOpensStore) (opens : t.cache.Opens) {key : String}
    {entry : Entry BufferId StreamError}
    (found : (t.cache.apply now event).1.keyed.table.find? key = some entry)
    (overdue : Overdue t.ticker.due period entry) :
    t.cache.keyed.table.find? key = some entry := by
  by_contra new
  obtain ⟨call, o, ttl, -, -, -, expires⟩ :=
    brings_of_new only opens (turn_apply t.cache now event) found new
  obtain ⟨expiry, same, past⟩ := onTime.lt_clock overdue
  rw [same, Clock.add?] at expires
  split at expires
  · cases expires
    omega
  · cases expires

/-- The sweep that follows one that begins when it is due comes a period later, if the clock gets as
far as that. -/
theorem OnTime.soon_next (onTime : t.OnTime sweeper period)
    (late : t.ticker.due + period < (t.ticker.next t.ticker.due).due) :
    Clock.last < t.ticker.due + period := by
  by_contra representable
  have paced := onTime.paced
  rw [due_next (by omega), paced] at late
  exact Nat.lt_irrefl _ late

/-- The sweeps stay in step when one begins as it is due. -/
theorem OnTime.begin (onTime : t.OnTime sweeper period)
    (permits : t.cache.Permits (.call sweeper .purge)) :
    (t.apply sweeper t.ticker.due (.call sweeper .purge)).1.OnTime sweeper period := by
  have free : t.cache.IsFree sweeper := permits
  have sweeps : Event.isSweep sweeper (.call sweeper .purge) = true := beq_self_eq_true sweeper
  simp only [Tended.apply, sweeps, if_true]
  refine ⟨(Ticker.period_next t.ticker t.ticker.due).trans onTime.paced, onTime.soon_next,
    .of_asked free.unknown.opening free.unknown.errand ?_⟩
  exact KeyedCache.stage?_moveTo_self _ _

/-- The sweeps stay in step with the entries, whatever can happen next in virtual time. -/
theorem OnTime.apply (onTime : t.OnTime sweeper period) {a : Account} (sound : Sound a t.cache)
    (opens : t.cache.Opens) (only : t.cache.OnlyOpensStore) (permits : t.cache.Permits event)
    (admits : t.Admits sweeper now event) :
    (t.apply sweeper now event).1.OnTime sweeper period := by
  have onward := admits.onward
  cases sweeps : event.isSweep sweeper with
  | true =>
      obtain rfl := eq_of_isSweep sweeps
      exact admits.punctual sweeps ▸ onTime.begin permits
  | false =>
      have steps : event.subject? = some sweeper → event = .resume sweeper := by
        intro own
        rcases admits.reserved own with no | steps
        · rw [sweeps] at no
          cases no
        · cases event with
          | resume => exact congrArg Event.resume (Option.some.inj own)
          | _ => cases steps
      have after : (t.apply sweeper now event).1 =
          ⟨(t.cache.apply now event).1, t.ticker, now⟩ := by
        simp [Tended.apply, sweeps]
      rw [after]
      refine ⟨onTime.paced, fun late => ?_, onTime.sweeping.apply sound permits steps ?_ ?_⟩
      · have := onTime.soon (by dsimp only at late; omega)
        dsimp only
        omega
      · intro _ key entry found overdue
        obtain ⟨expiry, expires, past⟩ := onTime.lt_clock overdue
        simp only [Entry.isLive, expires, decide_eq_false_iff_not, reduceCtorEq, false_or]
        omega
      · exact fun _ _ found overdue => onTime.kept onward only opens found overdue

/-- At an instant at which nothing is left to do, every entry expired less than a period ago. -/
theorem OnTime.bound (onTime : t.OnTime sweeper period) (settled : t.Settled sweeper now)
    {key : String} {entry : Entry BufferId StreamError}
    (found : t.cache.keyed.table.find? key = some entry) {expiry : Nat}
    (expires : entry.expiresAt = some expiry) : now < expiry + period := by
  have isOver := onTime.sweeping.isOver settled.rested.swept settled.rested.released
  by_contra stale
  have due := settled.due
  have representable := settled.representable
  exact onTime.sweeping.none_left isOver found ⟨expiry, expires, by omega, by omega⟩

/-- The sweeps are in step with the entries at any time of a run in virtual time. -/
theorem onTime_of_run {lanes ttl : Nat} {options : BufferOptions} {events : List (Nat × Event)}
    {first : Nat}
    (permitted : Machine.Allows StreamCache.apply Permits (create lanes ttl options) events)
    (handed : History.ClosesHanded
      (Machine.history StreamCache.apply (create lanes ttl options) events))
    (timely : (start (create lanes ttl options) first).Timely sweeper events) :
    (Machine.final (Tended.apply sweeper) (start (create lanes ttl options) first) events).OnTime
      sweeper (max ttl minSweepPeriod) := by
  induction events using List.reverseRecOn with
  | nil => exact onTime_start lanes ttl options first sweeper
  | append_singleton events last ih =>
      obtain ⟨now, event⟩ := last
      obtain ⟨allowed, permits, -⟩ := (Machine.allows_append StreamCache.apply _ _ _).mp permitted
      obtain ⟨earlier, admits⟩ := timely_append timely
      rw [Machine.history_append] at handed
      obtain ⟨closed, -, sound⟩ := corrected_of_run allowed handed.of_append
      have same : (Machine.final (Tended.apply sweeper) (start (create lanes ttl options) first)
          events).cache = Machine.final StreamCache.apply (create lanes ttl options) events :=
        cache_final sweeper _ events
      have only := onlyOpensStore_of_run allowed
      have opens := opens_of_run allowed
      rw [Machine.final_append]
      exact (ih allowed handed.of_append earlier).apply (same ▸ sound) (same ▸ opens) (same ▸ only)
        (same ▸ permits) admits

end

end Tended

end CachedStreams.StreamCache
