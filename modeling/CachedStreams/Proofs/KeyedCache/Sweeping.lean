import CachedStreams.Proofs.KeyedCache.Sequential

/-!
# Sweeping does not show

A plan lists what is asked of a cache, one call after the other, and purges at any points between,
made by a caller or by a janitor. Carried out with and without its purges it leads to two caches
that differ in what they hold: what is gone from the one may still be there in the other, but has
expired (`KeyedCache.Alike`). So readers see the same, though removals may be answered differently
and the hook gets the entries at other times. What has been stored is the same too, and after a
final flush all of it has been with the hook, in both.

`Alike.perform` and `Alike.purge` are the two steps of the simulation, and `simulates_of_run` is the
run.
-/

set_option autoImplicit false

namespace CachedStreams

/-- A look at a table finds what is live. -/
theorem Table.lookup_eq {V E : Type} {t : Table V E} (keyed : t.Keyed) (now : Nat) (key : String) :
    t.lookup now key = ((t.liveAt now).find? key).map (·.result) := by
  have keyed' : (t.liveAt now).Keyed := keyed.sublist (List.filter_sublist.map _)
  refine congrArg (Option.map _) (Option.ext fun entry => ?_)
  rw [Option.filter_eq_some_iff, Table.find?_eq_some_iff keyed, Table.find?_eq_some_iff keyed',
    Table.liveAt, List.mem_filter]

/-- What is live later is among what is live now. -/
theorem Table.liveAt_later {V E : Type} (t : Table V E) {now later : Nat} (le : now ≤ later) :
    t.liveAt later = (t.liveAt now).liveAt later := by
  refine congrArg Table.mk ?_
  rw [liveAt, List.filter_filter]
  refine List.filter_congr fun row _ => ?_
  cases live : row.2.isLive now with
  | true => simp
  | false => simp [Entry.not_isLive_later le live]

namespace KeyedCache

open scoped List

variable {V E : Type}

/-! ## Plans with and without purges -/

/-- The moves of a cache that carries out a plan. -/
abbrev Performance (V E : Type) := List (Move (KeyedCache V E) (Cue V E) (Notice V E))

/-- The call that is made. -/
def Cue.made? : Cue V E → Option CallId
  | .call name _ => some name
  | .generated _ _ => none

/-- Whether a cue is a purge. -/
def Cue.isPurge : Cue V E → Bool
  | .call _ .purge => true
  | _ => false

/-- A cue is a purge exactly if it is the call of one. -/
theorem Cue.isPurge_iff {cue : Cue V E} :
    cue.isPurge = true ↔ ∃ name, cue = .call name .purge := by
  unfold isPurge
  split <;> simp_all

/-- A plan without its purges. -/
def unswept (plan : List (Nat × Cue V E)) : List (Nat × Cue V E) :=
  plan.filter fun e => !e.2.isPurge

/-- Every call of a plan has a name of its own. -/
def Distinct (plan : List (Nat × Cue V E)) : Prop := (plan.filterMap (·.2.made?)).Nodup

instance (plan : List (Nat × Cue V E)) : Decidable (Distinct plan) :=
  inferInstanceAs (Decidable (plan.filterMap (·.2.made?)).Nodup)

/-- The first call of a plan is not made again. -/
theorem Distinct.tail {now : Nat} {cue : Cue V E} {plan : List (Nat × Cue V E)}
    (distinct : Distinct ((now, cue) :: plan)) :
    (∀ name ∈ plan.filterMap (·.2.made?), cue.made? ≠ some name) ∧ Distinct plan := by
  unfold Distinct at *
  cases made : cue.made? with
  | none =>
      simp only [List.filterMap_cons, made] at distinct
      exact ⟨nofun, distinct⟩
  | some first =>
      simp only [List.filterMap_cons, made, List.nodup_cons] at distinct
      exact ⟨fun name member same => distinct.1 (Option.some.inj same ▸ member), distinct.2⟩

/-- A call is made only while no other is in progress. -/
def Cue.Sequential (c : KeyedCache V E) : Cue V E → Prop
  | .call _ _ => c.calls.rows = []
  | .generated _ _ => True

instance (c : KeyedCache V E) : (cue : Cue V E) → Decidable (cue.Sequential c)
  | .call _ _ => inferInstanceAs (Decidable (c.calls.rows = []))
  | .generated _ _ => inferInstanceAs (Decidable True)

/-- Readers see the same: every call that looks up has the same answer, and the generators of the
same calls are started. -/
def ShowsAlike (h k : Performance V E) : Prop :=
  (Machine.noticesOf h).filter Notice.isShown = (Machine.noticesOf k).filter Notice.isShown

/-- The hook gets the same entries, though not in the same order. -/
def HandsOverAlike (h k : Performance V E) : Prop :=
  evictedIn (Machine.noticesOf h) ~ evictedIn (Machine.noticesOf k)

/-- A purge hands over what has expired when it begins, in the order of storing, says how much that
was, and leaves the rest. -/
structure PurgesExpired (name : CallId) (t : Move (KeyedCache V E) (Cue V E) (Notice V E)) :
    Prop where
  notices : t.notices = (t.before.table.expiredAt t.now).map (fun row => .evict name row.1 row.2) ++
    [.answered name (.purged (t.before.table.expiredAt t.now).length)]
  ordered : ((t.before.table.expiredAt t.now).map (·.2.seq)).Pairwise (· < ·)
  leaves : t.after.table = t.before.table.liveAt t.now

/-- The last thing in a plan is a flush. -/
def EndsWithFlush (plan : List (Nat × Cue V E)) : Prop :=
  ∃ earlier now name, plan = earlier ++ [(now, .call name .flush)]

/-- What a plan shows with its purges and without them, and what its purges do. Every call has its
outcome, with which it is over or has its generator started. -/
structure SweepsUnseen (plan : List (Nat × Cue V E)) (swept plain : Performance V E) : Prop where
  shows : ShowsAlike swept plain
  handsOver : EndsWithFlush (unswept plan) → HandsOverAlike swept plain
  purges : ∀ t ∈ swept, ∀ name, t.event = .call name .purge → PurgesExpired name t
  comes : ∀ t ∈ swept ++ plain, Comes t.before t.event.name (t.event.outcome t.before t.now)
    (t.after, t.notices)
  rests : ∀ t ∈ swept ++ plain, ∀ call, t.after.Rests call

/-! ## Caches that look alike -/

/-- What one cache holds another holds too, and what that holds besides has expired. -/
structure Alike (now : Nat) (c d : KeyedCache V E) : Prop where
  held : c.table.rows <+ d.table.rows
  live : c.table.liveAt now = d.table.liveAt now
  nextSeq : c.nextSeq = d.nextSeq
  stage : ∀ call, c.stage? call = d.stage? call

namespace Alike

variable {lanes now : Nat} {c d : KeyedCache V E}

/-- Every cache looks like itself. -/
theorem refl (now : Nat) (c : KeyedCache V E) : Alike now c c := ⟨.refl _, rfl, rfl, fun _ => rfl⟩

/-- Caches that look alike go on doing so as time passes. -/
theorem later (alike : Alike now c d) {later : Nat} (le : now ≤ later) : Alike later c d := by
  refine ⟨alike.held, ?_, alike.nextSeq, alike.stage⟩
  rw [c.table.liveAt_later le, d.table.liveAt_later le, alike.live]

/-- Calls that can be seen come to the same outcome in caches that look alike. -/
theorem outcome_eq (alike : Alike now c d) (keyed : c.table.Keyed) (keyed' : d.table.Keyed)
    (cue : Cue V E) : cue.outcome c now = cue.outcome d now := by
  have lookup : ∀ key, c.table.lookup now key = d.table.lookup now key := fun key => by
    rw [Table.lookup_eq keyed, Table.lookup_eq keyed', alike.live]
  cases cue with
  | call name request =>
      cases request <;> simp [Cue.outcome, outcome, lookup, Outcome.store, alike.nextSeq]
  | generated name result =>
      simp [Cue.outcome, Outcome.store, alike.stage, alike.nextSeq]

/-- Two caches that look alike do so after the same. -/
theorem perform (alike : Alike now c d) (between : Between lanes c) (between' : Between lanes d)
    {cue : Cue V E} (possible : cue.Possible c) (possible' : cue.Possible d) :
    Alike now (c.perform now cue).1 (d.perform now cue).1 ∧
      storedIn (c.perform now cue).2 = storedIn (d.perform now cue).2 ∧
      (c.perform now cue).2.filter Notice.isShown =
        (d.perform now cue).2.filter Notice.isShown := by
  have comes := between.comes now possible
  have comes' := between'.comes now possible'
  rw [← alike.outcome_eq between.keyed between'.keyed] at comes'
  have stored := comes.stored.trans comes'.stored.symm
  refine ⟨⟨?_, ?_, ?_, fun call => ?_⟩, stored, comes.shown.trans comes'.shown.symm⟩
  · rw [comes.rows, comes'.rows]
    exact (alike.held.filter _).append_right _
  · have live := congrArg Table.rows alike.live
    simp only [Table.liveAt, comes.rows, comes'.rows, List.filter_append] at live ⊢
    rw [List.filter_comm, live, List.filter_comm]
  · rw [nextSeq_perform, nextSeq_perform, stored, alike.nextSeq]
  · by_cases own : call = cue.name
    · subst own
      rw [comes.stage, comes'.stage]
    · rw [stage?_perform_of_ne c now cue own, stage?_perform_of_ne d now cue own, alike.stage]

/-- A purge of one of them does not show. -/
theorem purge (alike : Alike now c d) (between : Between lanes c) {name : CallId}
    (fresh : c.stage? name = none) :
    Alike now (c.perform now (.call name .purge)).1 d ∧
      storedIn (c.perform now (.call name .purge)).2 = [] ∧
      (c.perform now (.call name .purge)).2.filter Notice.isShown = [] := by
  have comes := comes_of_purge between.keyed between.orderly fresh now
  refine ⟨⟨?_, ?_, ?_, fun call => ?_⟩, comes.stored, comes.shown⟩
  · rw [comes.rows, List.append_nil]
    exact List.filter_sublist.trans alike.held
  · rw [← alike.live, Table.liveAt, comes.rows, List.append_nil, List.filter_filter]
    exact congrArg Table.mk (List.filter_congr fun row _ => Bool.and_self _)
  · rw [nextSeq_perform, comes.stored, alike.nextSeq]
    rfl
  · by_cases own : call = name
    · subst own
      rw [comes.stage, ← alike.stage, fresh]
    · rw [stage?_perform_of_ne c now (.call name .purge) own, alike.stage]

end Alike

/-! ## Plans carried out -/

section

variable {lanes : Nat} {c d : KeyedCache V E}

/-- Where no call is recorded none is in progress. -/
theorem quiet_of_rows (quiet : c.calls.rows = []) (call : CallId) : c.stage? call = none := by
  simp [stage?, CallTable.find?, quiet]

/-- What is possible while no call is in progress is so in every cache that agrees on that. -/
theorem Cue.Sequential.possible {cue : Cue V E} (sequential : cue.Sequential c)
    (same : ∀ call, c.stage? call = d.stage? call) : cue.Possible d := by
  cases cue with
  | call name request =>
      have quiet : ∀ other, d.stage? other = none := fun other =>
        (same other).symm.trans (quiet_of_rows sequential other)
      cases request with
      | purge => exact quiet name
      | _ => exact quiet
  | generated => trivial

/-- A call that is yet to be made is not in progress, whatever else is carried out first. -/
theorem fresh_perform {now : Nat} {cue : Cue V E} {name : CallId}
    (fresh : c.stage? name = none) (apart : cue.made? ≠ some name) :
    (c.perform now cue).1.stage? name = none := by
  by_cases own : name = cue.name
  · cases cue with
    | call other request => exact absurd (congrArg some own.symm) apart
    | generated other result =>
        obtain rfl : name = other := own
        rwa [perform_generated_of_gone fresh now result]
  · rwa [stage?_perform_of_ne c now cue own]

/-- What two caches have to show that carry out a plan with and without its purges. -/
structure Simulates (plan : List (Nat × Cue V E)) (c d : KeyedCache V E) : Prop where
  possible : Machine.Allows perform (fun e cue => cue.Possible e) c plan
  shown : ShowsAlike (Machine.history perform c plan) (Machine.history perform d (unswept plan))
  stored : storedIn (Machine.noticesOf (Machine.history perform c plan)) =
    storedIn (Machine.noticesOf (Machine.history perform d (unswept plan)))
  held : (Machine.final perform c plan).table.rows <+
    (Machine.final perform d (unswept plan)).table.rows

namespace Simulates

variable {now : Nat} {plan : List (Nat × Cue V E)}

/-- Both caches go on with what is not a purge. -/
theorem cons {cue : Cue V E} (asked : ¬cue.isPurge = true) (possible : cue.Possible c)
    (stored : storedIn (c.perform now cue).2 = storedIn (d.perform now cue).2)
    (shown : (c.perform now cue).2.filter Notice.isShown =
      (d.perform now cue).2.filter Notice.isShown)
    (rest : Simulates plan (c.perform now cue).1 (d.perform now cue).1) :
    Simulates ((now, cue) :: plan) c d := by
  have kept : unswept ((now, cue) :: plan) = (now, cue) :: unswept plan := by
    simp [unswept, asked]
  refine ⟨⟨possible, rest.possible⟩, ?_, ?_, ?_⟩ <;> rw [kept]
  · rw [ShowsAlike, Machine.noticesOf_history_cons, Machine.noticesOf_history_cons,
      List.filter_append, List.filter_append, shown, rest.shown]
  · rw [Machine.noticesOf_history_cons, Machine.noticesOf_history_cons, storedIn_append,
      storedIn_append, stored, rest.stored]
  · exact rest.held

/-- Only one of them makes a purge. -/
theorem cons_purge {name : CallId} (possible : (Cue.call name .purge).Possible c)
    (stored : storedIn (c.perform now (.call name .purge)).2 = [])
    (shown : (c.perform now (.call name .purge)).2.filter Notice.isShown = [])
    (rest : Simulates plan (c.perform now (.call name .purge)).1 d) :
    Simulates ((now, .call name .purge) :: plan) c d := by
  have skipped : unswept ((now, .call name .purge) :: plan) = unswept plan := rfl
  refine ⟨⟨possible, rest.possible⟩, ?_, ?_, ?_⟩ <;> rw [skipped]
  · rw [ShowsAlike, Machine.noticesOf_history_cons, List.filter_append, shown, List.nil_append,
      rest.shown]
  · rw [Machine.noticesOf_history_cons, storedIn_append, stored, List.nil_append, rest.stored]
  · exact rest.held

end Simulates

/-- Caches that look alike do so all along a plan of which one leaves out the purges. -/
theorem simulates_of_run {plan : List (Nat × Cue V E)} {start : Nat} (between : Between lanes c)
    (between' : Between lanes d) (alike : Alike start c d) (begins : ∀ e ∈ plan, start ≤ e.1)
    (forward : Machine.Forward plan) (distinct : Distinct plan)
    (fresh : ∀ name ∈ plan.filterMap (·.2.made?), c.stage? name = none)
    (sequential : Machine.Allows perform (fun e cue => cue.Sequential e) d (unswept plan)) :
    Simulates plan c d := by
  induction plan generalizing c d start with
  | nil => exact ⟨trivial, rfl, rfl, alike.held⟩
  | cons e plan ih =>
      obtain ⟨now, cue⟩ := e
      have before := alike.later (begins _ List.mem_cons_self)
      obtain ⟨onward, later⟩ := forward.tail
      obtain ⟨apart, others⟩ := distinct.tail
      have next : ∀ name ∈ plan.filterMap (·.2.made?),
          (c.perform now cue).1.stage? name = none := by
        intro name member
        obtain ⟨e, within, same⟩ := List.mem_filterMap.mp member
        have free := fresh name (List.mem_filterMap.mpr ⟨e, List.mem_cons_of_mem _ within, same⟩)
        exact fresh_perform free (apart name member)
      by_cases purges : cue.isPurge = true
      · obtain ⟨name, rfl⟩ := Cue.isPurge_iff.mp purges
        have possible : (Cue.call name .purge).Possible c := fresh name (by simp [Cue.made?])
        obtain ⟨after, stored, shown⟩ := before.purge between possible
        have rest := ih (between.perform now possible) between' after later onward others next
          sequential
        exact .cons_purge possible stored shown rest
      · have kept : unswept ((now, cue) :: plan) = (now, cue) :: unswept plan := by
          simp [unswept, purges]
        rw [kept] at sequential
        have possible := sequential.1.possible fun call => (before.stage call).symm
        have possible' := sequential.1.possible fun _ => rfl
        obtain ⟨after, stored, shown⟩ := before.perform between between' possible possible'
        have rest := ih (between.perform now possible) (between'.perform now possible') after later
          onward others next sequential.2
        exact .cons purges possible stored shown rest

/-- A plan is carried out by a run. -/
theorem exists_run_of_plan (c : KeyedCache V E) (plan : List (Nat × Cue V E)) :
    ∃ events, Machine.final perform c plan = Machine.final apply c events ∧
      Machine.noticesOf (Machine.history perform c plan) =
        Machine.noticesOf (Machine.history apply c events) := by
  induction plan generalizing c with
  | nil => exact ⟨[], rfl, rfl⟩
  | cons e plan ih =>
      obtain ⟨first, -, same⟩ := exists_run_of_perform c e.1 e.2
      obtain ⟨rest, ends, notices⟩ := ih (c.perform e.1 e.2).1
      refine ⟨first ++ rest, ?_, ?_⟩
      · rw [Machine.final_append, Machine.final, ends, same]
      · rw [Machine.noticesOf_history_cons, Machine.history_append, Machine.noticesOf_append,
          notices, same]

/-- If nothing is left, all that was stored has been with the hook. -/
theorem stored_perm_evicted (lanes : Nat) (plan : List (Nat × Cue V E))
    (empty : (Machine.final perform (create lanes : KeyedCache V E) plan).table.rows = []) :
    storedIn (Machine.noticesOf (Machine.history perform (create lanes) plan)) ~
      evictedIn (Machine.noticesOf (Machine.history perform (create lanes) plan)) := by
  obtain ⟨events, ends, notices⟩ := exists_run_of_plan (create lanes) plan
  have balance := (ledger_of_run (V := V) (E := E) lanes events).balance
  rwa [← ends, empty, ← notices, List.nil_append] at balance

/-- Every performance of a plan begins and ends between two calls. -/
theorem between_of_mem {plan : List (Nat × Cue V E)} (between : Between lanes c)
    (possible : Machine.Allows perform (fun e cue => cue.Possible e) c plan)
    {t : Move (KeyedCache V E) (Cue V E) (Notice V E)}
    (member : t ∈ Machine.history perform c plan) :
    Between lanes t.before ∧ t.event.Possible t.before ∧
      (t.after, t.notices) = t.before.perform t.now t.event := by
  obtain ⟨past, future, split⟩ := List.append_of_mem member
  obtain ⟨earlier, -, same, allowed, here⟩ :=
    Machine.exists_allowed_before perform possible split
  refine ⟨same ▸ between.of_run allowed, here, ?_⟩
  rw [Machine.after_of_history perform split, Machine.notices_of_history perform split]

/-- Whatever lets a call of a plan go on comes to its outcome, and nothing is left half done. -/
theorem comes_of_mem {plan : List (Nat × Cue V E)} (between : Between lanes c)
    (possible : Machine.Allows perform (fun e cue => cue.Possible e) c plan)
    {t : Move (KeyedCache V E) (Cue V E) (Notice V E)}
    (member : t ∈ Machine.history perform c plan) :
    Comes t.before t.event.name (t.event.outcome t.before t.now) (t.after, t.notices) ∧
      ∀ call, t.after.Rests call := by
  obtain ⟨before, here, moves⟩ := between_of_mem between possible member
  have after := before.perform t.now here
  rw [← moves] at after
  exact ⟨moves ▸ before.comes t.now here, after.rests⟩

/-- Every purge of a plan hands out what has expired, and leaves the rest. -/
theorem purgesExpired_of_mem {plan : List (Nat × Cue V E)} (between : Between lanes c)
    (possible : Machine.Allows perform (fun e cue => cue.Possible e) c plan)
    {t : Move (KeyedCache V E) (Cue V E) (Notice V E)}
    (member : t ∈ Machine.history perform c plan) {name : CallId}
    (purges : t.event = .call name .purge) : PurgesExpired name t := by
  obtain ⟨before, here, moves⟩ := between_of_mem between possible member
  rw [purges] at here moves
  obtain ⟨notices, leaves, -⟩ := perform_purge before.keyed before.orderly here t.now
  rw [← moves] at notices leaves
  exact ⟨notices, before.numbered.ordered.sublist (List.filter_sublist.map _), leaves⟩

/-- A flush at the end leaves nothing. -/
theorem rows_of_flush (between : Between lanes c)
    {plan : List (Nat × Cue V E)} (ends : EndsWithFlush plan)
    (possible : Machine.Allows perform (fun e cue => cue.Possible e) c plan) :
    (Machine.final perform c plan).table.rows = [] := by
  obtain ⟨earlier, now, name, rfl⟩ := ends
  obtain ⟨allowed, here, -⟩ := (Machine.allows_append perform c _ _).mp possible
  have rows := ((between.of_run allowed).comes now here).rows
  simp only [Cue.outcome, outcome, List.filter_false, List.append_nil] at rows
  rw [Machine.final_append, Machine.final, Machine.final, rows]

end

/-- If a plan in which no call is made while another is in progress is carried out with its purges
and without them, wherever they are made, then every call that looks up has the same answer, the
generators of the same calls are started, and a flush at the end leaves the hook with the same
entries. A purge removes and counts what has expired when it begins, and nothing else. -/
theorem sweeping_does_not_show (lanes : Nat) (plan : List (Nat × Cue V E))
    (distinct : Distinct plan) (forward : Machine.Forward plan)
    (sequential : Machine.Allows perform (fun c cue => cue.Sequential c)
      (create lanes : KeyedCache V E) (unswept plan)) :
    SweepsUnseen plan (Machine.history perform (create lanes) plan)
      (Machine.history perform (create lanes : KeyedCache V E) (unswept plan)) := by
  have between : Between lanes (create lanes : KeyedCache V E) := .create lanes
  have simulates : Simulates plan (create lanes) (create lanes : KeyedCache V E) :=
    simulates_of_run between between (Alike.refl 0 _) (fun _ _ => Nat.zero_le _) forward distinct
      (fun _ _ => rfl) sequential
  have possible : Machine.Allows perform (fun c cue => cue.Possible c)
      (create lanes : KeyedCache V E) (unswept plan) :=
    Machine.Allows.mono perform (fun _ _ sequential => sequential.possible fun _ => rfl) sequential
  have comes : ∀ t ∈ Machine.history perform (create lanes) plan ++
      Machine.history perform (create lanes) (unswept plan),
      Comes t.before t.event.name (t.event.outcome t.before t.now) (t.after, t.notices) ∧
        ∀ call, t.after.Rests call := fun t member =>
    (List.mem_append.mp member).elim (comes_of_mem between simulates.possible)
      (comes_of_mem between possible)
  refine ⟨simulates.shown, fun ends => ?_, fun t member name purges => ?_,
    fun t member => (comes t member).1, fun t member => (comes t member).2⟩
  · have empty := rows_of_flush between ends possible
    have empty' := List.sublist_nil.mp (empty ▸ simulates.held)
    have stored := stored_perm_evicted lanes plan empty'
    rw [simulates.stored] at stored
    exact stored.symm.trans (stored_perm_evicted lanes _ empty)
  · exact purgesExpired_of_mem between simulates.possible member purges

/-- What expires is purged, asked for again while a purge comes in between, found, removed and
flushed. -/
def sweptTwice : List (Nat × Cue Nat String) :=
  [(0, .call 1 (.set "a" 10 1)), (0, .call 2 (.set "b" 100 2)), (20, .call 3 .purge),
    (20, .call 4 (.get "a")), (30, .call 5 (.getOrUpdate "a" 50)), (120, .call 6 .purge),
    (130, .generated 5 (.ok 7)), (140, .call 7 (.getOrUpdate "a" 50)),
    (150, .call 8 (.remove "b")), (160, .call 9 .flush)]

/-- The entry under `b` goes to the hook with the second purge or with the removal, which finds it
gone if it has been purged. -/
theorem sweeping_does_not_show_of_swept_twice :
    let swept := Machine.history perform (create 4) sweptTwice
    let plain := Machine.history perform (create 4) (unswept sweptTwice)
    (Distinct sweptTwice ∧ Machine.Forward sweptTwice ∧
      Machine.Allows perform (fun c cue => cue.Sequential c)
        (create 4 : KeyedCache Nat String) (unswept sweptTwice)) ∧
      ((evictedIn (Machine.noticesOf swept)).map (·.2.seq) = [0, 1, 2] ∧
        (evictedIn (Machine.noticesOf plain)).map (·.2.seq) = [0, 1, 2] ∧
        ((Machine.noticesOf swept).filter Notice.isShown).length = 4 ∧
        swept.length = plain.length + 2) ∧
      SweepsUnseen sweptTwice swept plain := by
  intro swept plain
  have distinct : Distinct sweptTwice := by decide
  have forward : Machine.Forward sweptTwice := by decide
  have sequential : Machine.Allows perform (fun c cue => cue.Sequential c)
      (create 4 : KeyedCache Nat String) (unswept sweptTwice) := by decide +kernel
  exact ⟨⟨distinct, forward, sequential⟩, by decide +kernel,
    sweeping_does_not_show 4 sweptTwice distinct forward sequential⟩

end KeyedCache

end CachedStreams
