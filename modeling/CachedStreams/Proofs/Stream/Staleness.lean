import CachedStreams.Proofs.Stream.Tending

/-!
# How long entries stay

In virtual time, an entry of a cache of buffers is removed within its lifetime and a period of the
sweeps, whether its key is opened again or not; and if all those to whom its buffer was returned
have closed it by then, its stream has been let go (`StreamCache.bounded_staleness`).

The sweeps only see when an entry expires. That this is a lifetime after it was stored is
`StreamCache.expires_of_stored`, and that its buffer has no other entry
`StreamCache.soleEntries_of_run`.
-/

set_option autoImplicit false

namespace CachedStreams

namespace KeyedCache

/-- How long the result that a call at this stage asks for or brings stays in the cache. -/
def Stage.lifetime? {V E : Type} : Stage V E → Option Nat
  | requested (.getOrUpdate _ ttl) => some ttl
  | missed _ ttl => some ttl
  | queued _ ttl => some ttl
  | generating _ ttl => some ttl
  | generated _ ttl _ => some ttl
  | _ => none

end KeyedCache

namespace StreamCache

section

variable {c : StreamCache} {now : Nat} {call : CallId} {event : Event}
  {r : StreamCache × List Notice}

/-! ## Lifetimes -/

/-- What happens to a buffer leaves the lifetime of the cache alone. -/
theorem ttl_applyBuffer (c : StreamCache) (now : Nat) (id : BufferId) (inner : Buffer.Event) :
    (c.applyBuffer now id inner).1.ttl = c.ttl := by
  unfold applyBuffer
  split
  · rfl
  · rw [relay_fst]

/-- The start of a hook leaves the lifetime of the cache alone. -/
theorem ttl_evict (c : StreamCache) (now : Nat) (call : CallId)
    (result : Except StreamError BufferId) : (c.evict now call result).1.ttl = c.ttl := by
  cases result with
  | error e => rfl
  | ok id => exact ttl_applyBuffer _ now id _

/-- What a call does with its answer leaves the lifetime of the cache alone. -/
theorem ttl_reaction {reply : KeyedCache.Reply BufferId StreamError}
    (reacts : Reaction c now call reply r) : r.1.ttl = c.ttl := by
  cases reacts <;> rfl

/-- The lifetime of the entries of a cache is fixed. -/
theorem ttl_turn (turn : Turn c now event r) : r.1.ttl = c.ttl := by
  cases turn with
  | stirs id inner => exact ttl_applyBuffer c now id inner
  | replies _ _ _ _ _ _ _ _ reacts | gets _ _ _ _ _ _ reacts | hits _ _ _ _ _ _ _ _ _ _ _ reacts
  | stores _ _ _ _ _ _ _ _ _ _ _ _ reacts | removesNothing _ _ _ _ _ _ _ _ _ _ reacts
  | endsSweep _ _ _ _ _ _ _ reacts =>
      have same := ttl_reaction reacts
      exact same
  | displaces | removes | sweeps => exact ttl_evict _ now _ _
  | _ => rfl

/-- Every call to open asks for the lifetime of the cache. -/
def Lasting (c : StreamCache) : Prop :=
  ∀ call o stage ttl, c.opens.find? call = some o → c.keyed.stage? call = some stage →
    stage.lifetime? = some ttl → ttl = c.ttl

/-- Nobody asks for any lifetime in a new cache. -/
theorem lasting_create (lanes ttl : Nat) (options : BufferOptions) :
    Lasting (create lanes ttl options) := by
  intro call o stage other opening
  cases opening

/-- A call to open asks for the lifetime of the cache after each of its steps. -/
theorem Lasting.step {o : OpenCall} (lasting : c.Lasting) (step : OpenStep c now call o r)
    (opening : c.opens.find? call = some o) {stage : KeyedCache.Stage BufferId StreamError}
    (reached : r.1.keyed.stage? call = some stage) {ttl : Nat}
    (asks : stage.lifetime? = some ttl) : ttl = c.ttl := by
  have known : ∀ {next : KeyedCache.Stage BufferId StreamError},
      r.1.keyed.stage? call = some next → next.lifetime? = some ttl := fun at_ =>
    Option.some.inj (reached.symm.trans at_) ▸ asks
  have before : ∀ {s : KeyedCache.Stage BufferId StreamError}, c.keyed.stage? call = some s →
      s.lifetime? = some ttl → ttl = c.ttl := fun at_ => lasting call o _ ttl opening at_
  cases step with
  | waits | registers => exact before reached asks
  | misses _ at_ | queues _ at_ | learns _ _ _ _ at_ | starts _ at_ =>
      have after := known (KeyedCache.stage?_moveTo_self _ _)
      exact before at_ after
  | displaces | unlinks => cases known (stage?_evict_moveTo c now call _ _ _)
  | refuses => cases known (KeyedCache.stage?_moveTo_self _ _)
  | finds _ _ _ _ _ gone | fails _ _ _ _ gone | endsUsed _ _ _ _ gone =>
      rw [gone] at reached
      cases reached
  | retries _ _ _ _ at_ => exact (Option.some.inj (known at_)).symm

/-- Every call to open asks for the lifetime of the cache, after any event as before. -/
theorem Lasting.apply (lasting : c.Lasting) (opens : c.Opens) (now : Nat)
    (permits : c.Permits event) : (c.apply now event).1.Lasting := by
  intro call o stage ttl opening reached asks
  rw [ttl_turn (turn_apply c now event)]
  by_cases own : event.subject? = some call
  · rcases resumed_or_opened permits own opening with rfl | ⟨key, transform, rfl, rfl⟩
    · have turn := turn_apply c now (.resume call)
      cases opened : c.opens.find? call with
      | none =>
          rw [not_opening_turn turn opened] at opening
          cases opening
      | some before => exact lasting.step (openStep_turn turn opens opened) opened reached asks
    · obtain rfl := KeyedCache.eq_of_stage?_moveTo reached
      exact (Option.some.inj asks).symm
  · obtain ⟨same, stages, -⟩ := apart_apply c now own
    exact lasting call o stage ttl (same ▸ opening) (stages ▸ reached) asks

end

namespace History

/-- An entry was stored under a key at an instant. -/
def Stored (h : History) (key : String) (entry : Entry BufferId StreamError) (instant : Nat) :
    Prop :=
  ∃ v ∈ h, v.now = instant ∧ v.after.keyed.table.find? key = some entry ∧
    v.before.keyed.table.find? key ≠ some entry

/-- A buffer has no other entry than that with which it was stored. -/
def SoleEntries (h : History) (c : StreamCache) : Prop :=
  ∀ key entry instant id, h.Stored key entry instant → entry.result = .ok id →
    ∀ other held, c.keyed.table.find? other = some held → held.result = .ok id →
      other = key ∧ held = entry

/-- What was stored by one more event, and when. -/
theorem stored_snoc {h : History} {t : Move StreamCache Event Notice} {key : String}
    {entry : Entry BufferId StreamError} {instant : Nat} :
    Stored (h ++ [t]) key entry instant ↔ h.Stored key entry instant ∨ t.now = instant ∧
      t.after.keyed.table.find? key = some entry ∧ t.before.keyed.table.find? key ≠ some entry := by
  simp [Stored, or_and_right, exists_or]

/-- A buffer that was stored has been cached. -/
theorem Stored.everCached {h : History} {key : String} {entry : Entry BufferId StreamError}
    {instant : Nat} (stored : h.Stored key entry instant) {id : BufferId}
    (holds : entry.result = .ok id) : h.EverCached id := by
  obtain ⟨v, member, -, found, -⟩ := stored
  exact ⟨v, member, mem_buffersIn_of_find? found holds⟩

end History

section

variable {lanes ttl : Nat} {options : BufferOptions} {events : List (Nat × Event)}

/-- Every call to open asks for the lifetime with which the cache was created, in every run. -/
theorem lasting_of_run
    (permitted : Machine.Allows apply Permits (create lanes ttl options) events) :
    (Machine.final apply (create lanes ttl options) events).Lasting ∧
      (Machine.final apply (create lanes ttl options) events).ttl = ttl := by
  refine (Machine.final_induction apply (fun c => Opens c ∧ Lasting c ∧ c.ttl = ttl)
    ⟨opens_create lanes ttl options, lasting_create lanes ttl options, rfl⟩ ?_ permitted).2
  rintro c now event ⟨opens, lasting, same⟩ permits
  exact ⟨opens.apply now permits, lasting.apply opens now permits,
    (ttl_turn (turn_apply c now event)).trans same⟩

/-- An entry expires a lifetime of the cache after it was stored. -/
theorem expires_of_stored
    (permitted : Machine.Allows apply Permits (create lanes ttl options) events) {key : String}
    {entry : Entry BufferId StreamError} {instant : Nat}
    (stored : History.Stored (Machine.history apply (create lanes ttl options) events) key entry
      instant) : entry.expiresAt = Clock.add? instant ttl := by
  obtain ⟨v, member, rfl, found, new⟩ := stored
  obtain ⟨earlier, now, event, later, rfl, rfl⟩ := Machine.exists_of_mem_history apply member
  obtain ⟨allowed, -⟩ := (Machine.allows_append apply _ _ _).mp permitted
  obtain ⟨call, o, lifetime, -, opening, stage, expires⟩ :=
    brings_of_new (onlyOpensStore_of_run allowed) (opens_of_run allowed) (turn_apply _ now event)
      found new
  obtain ⟨lasting, same⟩ := lasting_of_run allowed
  rw [← same, ← lasting call o _ lifetime opening stage rfl]
  exact expires

/-- A buffer has no other entry than that with which it was stored, in every run in which nobody
closes a buffer more often than it was returned. -/
theorem soleEntries_of_run
    (permitted : Machine.Allows apply Permits (create lanes ttl options) events)
    (handed : History.ClosesHanded (Machine.history apply (create lanes ttl options) events)) :
    History.SoleEntries (Machine.history apply (create lanes ttl options) events)
      (Machine.final apply (create lanes ttl options) events) := by
  refine (sound_induction (fun h c => c.OnlyOpensStore ∧ h.SoleEntries c)
    ⟨onlyOpensStore_create lanes ttl options, ?_⟩ ?_ permitted handed).2
  · rintro key entry instant id ⟨v, member, -⟩
    cases member
  · intro past c now event closed sound opens ⟨only, sole⟩ permits
    refine ⟨only.apply opens now permits, ?_⟩
    intro key entry instant id stored holds other held found own
    have turn := turn_apply c now event
    -- A buffer that a call brings was never stored.
    have fresh : ∀ {key entry}, (c.apply now event).1.keyed.table.find? key = some entry →
        c.keyed.table.find? key ≠ some entry → entry.result = .ok id →
          ¬past.EverCached id ∧ ∃ call ttl, event = .resume call ∧
            c.keyed.stage? call = some (.generated key ttl (.ok id)) := by
      intro key entry found new holds
      obtain ⟨call, o, ttl, resumed, -, stage, -⟩ := brings_of_new only opens turn found new
      rw [holds] at stage
      obtain ⟨unstored, -⟩ := sound.stages call _ stage
      exact ⟨unstored, call, ttl, resumed, stage⟩
    have cached : ∀ {other held}, c.keyed.table.find? other = some held → held.result = .ok id →
        past.EverCached id := fun found own => sound.cached id (mem_buffersIn_of_find? found own)
    by_cases old : c.keyed.table.find? other = some held
    · rcases History.stored_snoc.mp stored with before | ⟨-, after, new⟩
      · exact sole key entry instant id before holds other held old own
      · exact absurd (cached old own) (fresh after new holds).1
    · obtain ⟨unstored, call, ttl, resumed, stage⟩ := fresh found old own
      rcases History.stored_snoc.mp stored with before | ⟨-, after, new⟩
      · exact absurd (before.everCached holds) unstored
      · obtain ⟨-, call', ttl', resumed', stage'⟩ := fresh after new holds
        rw [resumed] at resumed'
        cases resumed'
        rw [stage] at stage'
        cases stage'
        exact ⟨rfl, Option.some.inj (found.symm.trans after)⟩

/-! ## Buffers that everybody has closed -/

/-- The close of a buffer that takes more than was returned leaves it without consumers. -/
theorem closed_of_excess {past : History} {c : StreamCache} {closed : BufferId → Nat}
    (sound : Sound { past.books with closed } c) {id : BufferId} {call : CallId}
    (counted : closed id = past.closes id) (handed : 0 < past.opens id)
    (excess : past.opens id ≤ past.closes id) (now : Nat) :
    ∃ b, (c.apply now (.buffer id (.release call))).1.buffers[id]? = some b ∧ b.Consistent ∧
      b.phase = .closed := by
  have stored : past.EverCached id := by
    by_contra new
    have none_ : past.opens id = 0 := (sound.untouched id new).1
    omega
  obtain ⟨b, present, kept⟩ := sound.kept id stored
  have once := List.nodup_iff_count_le_one.mp sound.distinct id
  have balance : b.refs + closed id = (buffersIn c.keyed.table).count id + past.opens id :=
    kept.balance
  have releases := Buffer.releases_release kept.read.1 kept.closed call
  have refs := releases.refs
  refine ⟨_, ?_, kept.consistent.apply now (.release call), releases.closed.mpr (by omega)⟩
  show (c.applyBuffer now id (.release call)).1.buffers[id]? = _
  rw [getElem?_applyBuffer, if_pos rfl, present]
  rfl

/-- A buffer that was closed more often than it was returned is closed for good. -/
theorem closed_of_unfair
    (permitted : Machine.Allows apply Permits (create lanes ttl options) events)
    (handed : History.ClosesHanded (Machine.history apply (create lanes ttl options) events))
    {id : BufferId}
    (unfair : ¬History.FairTo (Machine.history apply (create lanes ttl options) events) id) :
    ∃ b, (Machine.final apply (create lanes ttl options) events).buffers[id]? = some b ∧
      b.Consistent ∧ b.phase = .closed := by
  induction events using List.reverseRecOn with
  | nil =>
      refine absurd (fun past early => ?_) unfair
      obtain rfl := List.prefix_nil.mp early
      exact Nat.le_refl 0
  | append_singleton events last ih =>
      obtain ⟨now, event⟩ := last
      obtain ⟨allowed, permits, -⟩ := (Machine.allows_append apply _ _ _).mp permitted
      rw [Machine.history_append] at handed unfair
      rw [Machine.final_append]
      show ∃ b, (StreamCache.apply _ now event).1.buffers[id]? = some b ∧ _
      by_cases fair : History.FairTo (Machine.history apply (create lanes ttl options) events) id
      · obtain ⟨closed, counted, sound⟩ := corrected_of_run allowed handed.of_append
        have earlier := fair _ (List.prefix_refl _)
        -- It is the last event that has closed it too often.
        have excess : History.opens (Machine.history apply (create lanes ttl options) events) id <
            History.closes (Machine.history apply (create lanes ttl options) events) id +
              (closedBy event).count id := by
          by_contra paid
          refine unfair fun seen early => ?_
          rcases List.prefix_concat_iff.mp early with rfl | early
          · rw [History.closes_snoc, History.opens_snoc]
            exact Nat.le_trans (Nat.not_lt.mp paid) (Nat.le_add_right _ _)
          · exact fair seen early
        have member : id ∈ closedBy event := List.count_pos_iff.mp (by omega)
        have once := count_closedBy_le event id
        obtain ⟨call, rfl⟩ := mem_closedBy member
        exact closed_of_excess sound (counted id fair) (handed _ _ [] rfl id member) (by omega) now
      · obtain ⟨b, present, consistent, closed⟩ := ih allowed handed.of_append fair
        obtain ⟨b', present', works⟩ := works_turn (turn_apply _ now event) present
        refine ⟨b', present', ?_⟩
        have kept : ∀ inner,
            (b.apply now inner).1.Consistent ∧ (b.apply now inner).1.phase = .closed :=
          fun inner => ⟨consistent.apply now inner, Buffer.closed_apply consistent closed now inner⟩
        cases works with
        | rests => exact ⟨consistent, closed⟩
        | stirs | retains | releases | abandons => exact kept _

/-- A buffer that has lost its entry, and that everybody to whom it was returned has closed, is torn
down. -/
theorem isTornDown_of_left
    (permitted : Machine.Allows apply Permits (create lanes ttl options) events)
    (handed : History.ClosesHanded (Machine.history apply (create lanes ttl options) events))
    {id : BufferId}
    (cached : History.EverCached (Machine.history apply (create lanes ttl options) events) id)
    (uncached : id ∉ buffersIn (Machine.final apply (create lanes ttl options) events).keyed.table)
    (left : History.opens (Machine.history apply (create lanes ttl options) events) id ≤
      History.closes (Machine.history apply (create lanes ttl options) events) id) :
    ∃ b, (Machine.final apply (create lanes ttl options) events).buffers[id]? = some b ∧
      IsTornDown b := by
  obtain ⟨closed, counted, sound⟩ := corrected_of_run permitted handed
  obtain ⟨b, present, kept⟩ := sound.kept id cached
  refine ⟨b, present, isTornDown_of_closed kept.consistent kept.read ?_⟩
  by_cases fair : History.FairTo (Machine.history apply (create lanes ttl options) events) id
  · have balance : b.refs + closed id = (buffersIn _).count id + History.opens _ id := kept.balance
    rw [List.count_eq_zero.mpr uncached, counted id fair] at balance
    exact kept.closed.mpr (by omega)
  · obtain ⟨b', present', -, closed⟩ := closed_of_unfair permitted handed fair
    obtain rfl := Option.some.inj (present.symm.trans present')
    exact closed

end

/-! ## What this says of runs in virtual time -/

/-- Every entry expired less than a period before an instant, or has not expired yet. -/
def FreshAt (c : StreamCache) (period now : Nat) : Prop :=
  ∀ key entry expiry, c.keyed.table.find? key = some entry → entry.expiresAt = some expiry →
    now < expiry + period

namespace History

/-- An entry whose lifetime and a period after that have passed since it was stored is gone. -/
def EvictsInTime (h : History) (c : StreamCache) (ttl period now : Nat) : Prop :=
  ∀ key entry instant, h.Stored key entry instant → instant + ttl ≤ Clock.last →
    instant + ttl + period ≤ now → c.keyed.table.find? key ≠ some entry

/-- The stream of a buffer that was stored as long ago, and that everybody to whom it was returned
has closed, is over. -/
def LetsGoInTime (h : History) (c : StreamCache) (ttl period now : Nat) : Prop :=
  ∀ key entry instant id, h.Stored key entry instant → entry.result = .ok id →
    instant + ttl ≤ Clock.last → instant + ttl + period ≤ now → h.opens id ≤ h.closes id →
      ∃ b p panicked, c.buffers[id]? = some b ∧ b.pump = some p ∧ p.stage = .ended panicked

end History

/-- In every run in virtual time among consumers who only close what was returned to them: at any
instant at which all due work has been done, every entry expired less than a period of the sweeps
ago. So an entry is removed within a lifetime and a period of the sweeps after it was stored; and if
everybody to whom its buffer was returned has closed it, its stream has been let go by then. -/
theorem bounded_staleness (lanes ttl : Nat) (options : BufferOptions) (sweeper : CallId)
    (first now : Nat) (events : List (Nat × Event))
    (permitted : Machine.Allows apply Permits (create lanes ttl options) events)
    (handed : History.ClosesHanded (Machine.history apply (create lanes ttl options) events))
    (timely : (Tended.start (create lanes ttl options) first).Timely sweeper events)
    (settled : (Machine.final (Tended.apply sweeper) (Tended.start (create lanes ttl options) first)
      events).Settled sweeper now) :
    let h : History := Machine.history apply (create lanes ttl options) events
    let c := Machine.final apply (create lanes ttl options) events
    let period := max ttl (Duration.ofMillis 10)
    c.FreshAt period now ∧ h.EvictsInTime c ttl period now ∧ h.LetsGoInTime c ttl period now := by
  intro h c period
  have same : (Machine.final (Tended.apply sweeper) (Tended.start (create lanes ttl options) first)
      events).cache = c := Tended.cache_final sweeper _ events
  have onTime := Tended.onTime_of_run permitted handed timely
  have fresh : c.FreshAt period now := fun key entry expiry found expires =>
    onTime.bound settled (same ▸ found) expires
  have evicts : h.EvictsInTime c ttl period now := by
    intro key entry instant stored representable past found
    have expires := expires_of_stored permitted stored
    rw [Clock.add?, if_pos representable] at expires
    exact absurd (fresh key entry _ found expires) (Nat.not_lt.mpr past)
  refine ⟨fresh, evicts, ?_⟩
  intro key entry instant id stored holds representable past left
  have uncached : id ∉ buffersIn c.keyed.table := by
    intro cached
    obtain ⟨closed, -, sound⟩ := corrected_of_run permitted handed
    obtain ⟨other, held, found, own⟩ := find?_of_mem_buffersIn sound.keyed cached
    obtain ⟨rfl, rfl⟩ :=
      soleEntries_of_run permitted handed key entry instant id stored holds other held found own
    exact evicts _ _ instant stored representable past found
  obtain ⟨b, present, -, p, pump, isOver | ⟨reading, asked, -⟩⟩ :=
    isTornDown_of_left permitted handed (stored.everCached holds) uncached left
  · obtain ⟨panicked, stage⟩ := isOver
    exact ⟨b, p, panicked, present, pump, stage⟩
  · have ended := settled.rested.released b (same ▸ List.mem_of_getElem? present)
    have ending : b.isEnding = true :=
      Buffer.isEnding_eq_true_iff.mpr ⟨p, pump, by rw [reading]; rfl, asked⟩
    rw [ended] at ending
    cases ending

/-- A stream is opened and shared by two calls, who both close it. It expires after the second
sweep, so that the third removes it. -/
def sharedOnce : List (Nat × Event) :=
  let ready := Duration.ofMillis 5000
  let hit := Duration.ofMillis 30000
  let second := Duration.ofMillis 60000
  let third := Duration.ofMillis 120000
  [(0, .call 0 .purge), (0, .resume 0), (0, .resume 0),
    (0, .open 1 "a" none), (0, .resume 1), (0, .resume 1), (0, .resume 1),
    (0, .buffer 0 (.pump .started)), (0, .buffer 0 (.pump .opened)),
    (0, .buffer 0 (.watch .timers)),
    (ready, .buffer 0 (.watch .timers)), (ready, .resume 1), (ready, .resume 1), (ready, .resume 1),
    (ready, .buffer 0 (.release 2)),
    (hit, .open 3 "a" none), (hit, .resume 3), (hit, .resume 3), (hit, .buffer 0 (.release 4)),
    (second, .call 0 .purge), (second, .resume 0), (second, .resume 0),
    (third, .call 0 .purge), (third, .resume 0), (third, .resume 0),
    (third, .buffer 0 (.pump .releaseSeen)), (third, .resume 0), (third, .resume 0)]

/-- A stream that two calls share, and that expires after the second sweep: its entry is gone with
the third, and its stream over. -/
theorem bounded_staleness_of_shared_once :
    let start := create 4 (Duration.ofMillis 60000) {}
    let now := Duration.ofMillis 125000
    let h : History := Machine.history apply start sharedOnce
    let c := Machine.final apply start sharedOnce
    Machine.Allows apply Permits start sharedOnce ∧ h.ClosesHanded ∧
      (Tended.start start 0).Timely 0 sharedOnce ∧
      (Machine.final (Tended.apply 0) (Tended.start start 0) sharedOnce).Settled 0 now ∧
      h.EverCached 0 ∧ (h.opens 0, h.closes 0) = (2, 2) ∧
      c.FreshAt (Duration.ofMillis 60000) now ∧
      h.EvictsInTime c (Duration.ofMillis 60000) (Duration.ofMillis 60000) now ∧
      h.LetsGoInTime c (Duration.ofMillis 60000) (Duration.ofMillis 60000) now := by
  intro start now h c
  have permitted : Machine.Allows apply Permits start sharedOnce := by decide +kernel
  have handed : h.ClosesHanded := by decide +kernel
  have timely : (Tended.start start 0).Timely 0 sharedOnce := by decide +kernel
  have settled :
      (Machine.final (Tended.apply 0) (Tended.start start 0) sharedOnce).Settled 0 now := by
    decide +kernel
  exact ⟨permitted, handed, timely, settled, by decide +kernel, by decide +kernel,
    bounded_staleness 4 (Duration.ofMillis 60000) {} 0 0 now sharedOnce permitted handed timely
      settled⟩

end StreamCache

end CachedStreams
