import CachedStreams.Proofs.KeyedCache.Refinement

/-!
# Callers that share a generation

A call that asks for a result while a generator for its key is under way waits for the lane, looks
again, and finds what the generator has given, as long as that is still live by then. While the
generator is under way the state is `KeyedCache.Flying`, and once its result is stored it is
`KeyedCache.Landed`; both survive whatever happens, unless a call sets, removes or flushes the key.

The lifetime of the result counts from the store, and the lane is only passed on after the eviction
hook and after the generators of other keys of the lane. Nothing keeps the result alive until then,
so with a hook that is slow enough every waiting call runs its own generator and `Collapses` fails.
-/

set_option autoImplicit false

namespace CachedStreams.KeyedCache

variable {V E : Type}

/-! ## A key that nobody touches -/

/-- Whether a call at this stage is about to set, remove or flush a key. -/
def Stage.touches (key : String) : Stage V E → Bool
  | .requested (.set name _ _) => name == key
  | .requested (.remove name) => name == key
  | .requested (.removeIf name _) => name == key
  | .sweeping ((_, name) :: _) _ .flush => name == key
  | _ => false

/-- Whether an event lets a call set, remove or flush a key. -/
def Event.touches (c : KeyedCache V E) (key : String) : Event V E → Bool
  | .resume name => (c.stage? name).any (Stage.touches key)
  | _ => false

/-- No call sets, removes or flushes a key in the course of these moves. -/
def Untouched (key : String) (h : History V E) : Prop :=
  ∀ t ∈ h, t.event.touches t.before key = false

instance (key : String) (h : History V E) : Decidable (Untouched key h) :=
  inferInstanceAs (Decidable (∀ t ∈ h, t.event.touches t.before key = false))

/-- A call at this stage has asked for a result and has not found it yet. -/
inductive Stage.Waits (key : String) (ttl : Nat) : Stage V E → Prop where
  | requested : Waits key ttl (.requested (.getOrUpdate key ttl))
  | missed : Waits key ttl (.missed key ttl)
  | queued : Waits key ttl (.queued key ttl)

/-- What can become of the entry of a key that no call sets, removes or flushes. -/
inductive Fate (c : KeyedCache V E) (now : Nat) (key : String) (event : Event V E)
    (d : KeyedCache V E) : Prop where
  | keeps (same : d.table.find? key = c.table.find? key)
  | made (generates : ∃ stage, c.stage? event.subject = some stage ∧ stage.Generates key)
  | purged (entry : Entry V E) (present : c.table.find? key = some entry) (stage : Stage V E)
    (at_ : c.stage? event.subject = some stage) (pending : (entry.seq, key) ∈ stage.pending .purge)
    (gone : d.table.find? key = none)

section

variable {c : KeyedCache V E} {now : Nat} {event : Event V E}
  {r : KeyedCache V E × List (Notice V E)} {key : String} {ttl : Nat}

/-- The entry of a key that no call sets, removes or flushes is kept, replaced by what a generator
has made, or purged after it has expired. -/
theorem fate_turn (turn : Turn c now event r) (untouched : event.touches c key = false) :
    Fate c now key event r.1 := by
  cases turn with
  | begins | givesUp | waits | gets | hits | misses | queues | generates | removesNothing
  | beginsSweep | passes | endsSweep | makes | ignoresResult | replies | sweepsOn | ignoresHook =>
      exact .keeps rfl
  | stores call name ttl at_ result reply stage brings =>
      by_cases same : key = name
      · subst same
        cases brings with
        | given => simp [Event.touches, stage, Stage.touches] at untouched
        | made => exact .made ⟨_, stage, .generated ttl result⟩
      · exact .keeps (by rw [table_store, Table.find?_insert_of_ne _ same])
  | removes call name test at_ entry stage drops =>
      by_cases same : key = name
      · subst same
        cases drops <;> simp [Event.touches, stage, Stage.touches] at untouched
      · exact .keeps (Table.find?_erase_of_ne _ same)
  | sweeps call name entry rest count sweep stage present =>
      by_cases same : key = name
      · subst same
        cases sweep with
        | flush => simp [Event.touches, stage, Stage.touches] at untouched
        | purge =>
            exact .purged entry present _ stage (by simp [Stage.pending])
              (Table.find?_erase_self _ key)
      · exact .keeps (Table.find?_erase_of_ne _ same)

/-- A call that waits goes on waiting until it has been answered with what it found, has been given
up, or has its generator started. -/
theorem waits_turn (turn : Turn c now event r)
    (waits : ∀ stage, c.stage? event.subject = some stage → stage.Waits key ttl)
    (asks : ∀ request, event = .call event.subject request → request = .getOrUpdate key ttl)
    {stage : Stage V E} (reached : r.1.stage? event.subject = some stage) :
    stage.Waits key ttl ∨ Starts c now event event.subject key := by
  cases turn with
  | begins call request =>
      obtain rfl := eq_of_stage?_moveTo reached
      exact .inl (asks request rfl ▸ .requested)
  | givesUp | gets | hits | removesNothing | endsSweep | replies =>
      simp [Event.subject] at reached
  | waits | ignoresResult | ignoresHook => exact .inl (waits _ reached)
  | misses _ _ _ before =>
      obtain rfl := eq_of_stage?_moveTo reached
      cases waits _ before
      exact .inl .missed
  | queues _ _ _ before =>
      obtain rfl := eq_of_stage?_moveTo reached
      cases waits _ before
      exact .inl .queued
  | generates _ _ ttl before holds absent =>
      cases waits _ before
      exact .inr ⟨rfl, ⟨ttl, before⟩, holds, absent⟩
  | stores _ _ _ _ _ _ before brings => cases brings <;> cases waits _ before
  | removes _ _ _ _ _ before drops => cases drops <;> cases waits _ before
  | beginsSweep _ sweep before => cases sweep <;> cases waits _ before
  | sweeps _ _ _ _ _ _ before | passes _ _ _ _ _ _ before | makes _ _ _ _ before
  | sweepsOn _ _ _ _ before => cases waits _ before

/-- A call that waits is only answered with what it found. -/
theorem found_of_answered {call : CallId} {reply : Reply V E}
    (waits : ∀ stage, c.stage? call = some stage → stage.Waits key ttl)
    (answered : .answered call reply ∈ (c.apply now event).2) :
    ∃ result, c.table.lookup now key = some result ∧ reply = .result result := by
  cases answering_of_mem answered with
  | gets _ at_ | replies _ at_ | endsSweep _ _ at_ => cases waits _ at_
  | hits _ _ _ result at_ looks found =>
      cases looks <;> cases waits _ at_ <;> exact ⟨result, found, rfl⟩
  | stores _ _ _ _ _ at_ brings => cases brings <;> cases waits _ at_
  | removesNothing _ _ _ at_ drops => cases drops <;> cases waits _ at_

/-- A store is made by a call that brings the result. -/
theorem brings_of_stored {call : CallId} {entry : Entry V E}
    (stored : .stored call key entry ∈ (c.apply now event).2) :
    ∃ stage ttl result reply, event = .resume call ∧ c.stage? call = some stage ∧
      stage.Brings key ttl result reply ∧ entry = ⟨result, Clock.add? now ttl, c.nextSeq⟩ ∧
      c.apply now event = c.store now call key ttl result reply := by
  have turn := turn_apply c now event
  generalize c.apply now event = r at turn stored ⊢
  cases turn with
  | begins | misses | queues | beginsSweep | passes | makes | sweepsOn => cases stored
  | waits | ignoresResult | ignoresHook => cases stored
  | generates | removes | sweeps => simp [evict] at stored
  | givesUp => simp [leave] at stored
  | gets | hits | removesNothing | endsSweep | replies => simp [mem_answer] at stored
  | stores other name ttl at_ result reply stage brings =>
      obtain ⟨rfl, rfl, rfl⟩ : call = other ∧ key = name ∧
          entry = ⟨result, Clock.add? now ttl, c.nextSeq⟩ := by
        simpa [mem_store, mem_answer] using stored
      exact ⟨at_, ttl, result, reply, rfl, stage, brings, rfl, rfl⟩

end

/-! ## A generator under way, and its result -/

/-- A call that has no more to bring: it is over or waits for the eviction hook. -/
def Spent (call : CallId) (c : KeyedCache V E) : Prop :=
  ∀ stage, c.stage? call = some stage → ∃ reply, stage = .evicting (.reply reply)

/-- A call that has no more to bring has none after any event but its own beginning. -/
theorem Spent.apply {call : CallId} {c : KeyedCache V E} (spent : Spent call c) (now : Nat)
    {event : Event V E} (goesOn : ∀ request, event ≠ .call call request) :
    Spent call (c.apply now event).1 := by
  intro stage reached
  by_cases own : call = event.subject
  · subst own
    have turn := turn_apply c now event
    generalize c.apply now event = r at turn reached
    cases turn with
    | begins call request => exact absurd rfl (goesOn request)
    | givesUp | gets | hits | removesNothing | endsSweep | replies =>
        simp [Event.subject] at reached
    | waits | ignoresResult | ignoresHook => exact spent _ reached
    | misses _ _ _ before | queues _ _ _ before | generates _ _ _ before | makes _ _ _ _ before
    | beginsSweep _ _ before | sweeps _ _ _ _ _ _ before | passes _ _ _ _ _ _ before
    | sweepsOn _ _ _ _ before =>
        obtain ⟨reply, ⟨⟩⟩ := spent _ before
    | stores _ _ _ _ _ _ before brings =>
        obtain ⟨reply, rfl⟩ := spent _ before
        cases brings
    | removes _ _ _ _ _ before drops =>
        obtain ⟨reply, rfl⟩ := spent _ before
        cases drops
  · rw [stage?_apply_of_ne c now own] at reached
    exact spent stage reached

/-- The generator of `first` is under way, and nothing under its key was live when it was
started. -/
structure Flying (first call : CallId) (key : String) (ttl start : Nat) (c : KeyedCache V E) :
    Prop where
  generates : ∃ stage, c.stage? first = some stage ∧ stage.Generates key
  cold : ∀ entry, c.table.find? key = some entry → entry.isLive start = false
  waits : ∀ stage, c.stage? call = some stage → stage.Waits key ttl

/-- The result of the generator is stored, and nobody generates another one. -/
structure Landed (call : CallId) (key : String) (ttl : Nat) (entry : Entry V E)
    (c : KeyedCache V E) : Prop where
  held : c.table.find? key = some entry
  idle : ∀ other stage, c.stage? other = some stage → ¬stage.Generates key
  waits : ∀ stage, c.stage? call = some stage → stage.Waits key ttl

namespace Flying

variable {lanes : Nat} {first call : CallId} {key : String} {ttl start now : Nat}
  {c : KeyedCache V E}

/-- The generator that is under way is that of the call that holds the lane. -/
theorem holder (flying : Flying first call key ttl start c) (orderly : Orderly lanes c) :
    c.lanes.holder (c.laneOf key) = some first := by
  obtain ⟨stage, at_, generates⟩ := flying.generates
  exact orderly.holding first key stage at_ generates

/-- Nothing is live under the key as long as the generator is under way. -/
theorem lookup_eq_none (flying : Flying first call key ttl start c) (le : start ≤ now) :
    c.table.lookup now key = none := by
  simp only [Table.lookup, Option.map_eq_none_iff, Option.filter_eq_none_iff, Bool.not_eq_true]
  exact fun entry held => Entry.not_isLive_later le (flying.cold entry held)

/-- Only the first call has a generator for the key. -/
theorem eq_first (flying : Flying first call key ttl start c) (orderly : Orderly lanes c)
    {other : CallId} {stage : Stage V E} (at_ : c.stage? other = some stage)
    (generates : stage.Generates key) : other = first := by
  have holder := orderly.holding other key stage at_ generates
  rw [flying.holder orderly] at holder
  exact (Option.some.inj holder).symm

/-- The first call goes on generating until it has no more to bring. -/
theorem first_turn {event : Event V E} {r : KeyedCache V E × List (Notice V E)}
    (turn : Turn c now event r) (flying : Flying event.subject call key ttl start c)
    (goesOn : ∀ request, event ≠ .call event.subject request) :
    ((∃ stage, r.1.stage? event.subject = some stage ∧ stage.Generates key) ∧
      r.1.table = c.table) ∨ Spent event.subject r.1 := by
  obtain ⟨stage, at_, generates⟩ := flying.generates
  have only : ∀ {other}, c.stage? event.subject = some other → stage = other := fun before =>
    Option.some.inj (at_.symm.trans before)
  cases turn with
  | begins call request => exact absurd rfl (goesOn request)
  | givesUp | gets | hits | removesNothing | endsSweep | replies =>
      exact .inr fun stage reached => by simp [Event.subject] at reached
  | waits | ignoresResult | ignoresHook => exact .inl ⟨⟨stage, at_, generates⟩, rfl⟩
  | makes other name ttl result before =>
      obtain rfl := only before
      cases generates
      exact .inl ⟨⟨_, stage?_moveTo_self _ _, .generated ttl result⟩, rfl⟩
  | stores =>
      refine .inr fun stage reached => ?_
      simp only [Event.subject, stage?_store_self, Option.map_eq_some_iff] at reached
      obtain ⟨old, -, rfl⟩ := reached
      exact ⟨_, rfl⟩
  | misses _ _ _ before | queues _ _ _ before | generates _ _ _ before | beginsSweep _ _ before
  | sweeps _ _ _ _ _ _ before | passes _ _ _ _ _ _ before | sweepsOn _ _ _ _ before =>
      obtain rfl := only before
      cases generates
  | removes _ _ _ _ _ before drops =>
      obtain rfl := only before
      cases drops <;> cases generates

/-- The generator stays under way with every event, until its call has no more to bring. -/
theorem apply (flying : Flying first call key ttl start c) (orderly : Orderly lanes c)
    (apart : first ≠ call) {event : Event V E}
    (untouched : event.touches c key = false) (goesOn : ∀ request, event ≠ .call first request)
    (asks : ∀ request, event = .call call request → request = .getOrUpdate key ttl) :
    Flying first call key ttl start (c.apply now event).1 ∨ Spent first (c.apply now event).1 := by
  have turn := turn_apply c now event
  have others : ∀ {other}, other ≠ event.subject →
      (c.apply now event).1.stage? other = c.stage? other := stage?_apply_of_ne c now
  by_cases own : event.subject = first
  · subst own
    refine (first_turn turn flying goesOn).imp_left fun ⟨generates, same⟩ => ?_
    exact ⟨generates, same ▸ flying.cold, others apart.symm ▸ flying.waits⟩
  · refine .inl ⟨others (Ne.symm own) ▸ flying.generates, fun entry held => ?_,
      fun stage reached => ?_⟩
    · cases fate_turn turn untouched with
      | keeps same => exact flying.cold entry (same ▸ held)
      | made generates =>
          obtain ⟨stage, at_, generates⟩ := generates
          exact absurd (flying.eq_first orderly at_ generates) own
      | purged _ _ _ _ _ gone => simp [gone] at held
    · by_cases joins : call = event.subject
      · subst joins
        refine (waits_turn turn flying.waits asks reached).resolve_right fun starts => ?_
        have holder := eq_of_beq starts.holds
        rw [flying.holder orderly] at holder
        exact apart (Option.some.inj holder)
      · exact flying.waits stage (others joins ▸ reached)

/-- While the generator is under way nobody else is answered or has another one started. -/
theorem silent (flying : Flying first call key ttl start c) (orderly : Orderly lanes c)
    (apart : first ≠ call) (le : start ≤ now) {event : Event V E} :
    (∀ name, .generate call name ∉ (c.apply now event).2) ∧
      ∀ reply, .answered call reply ∉ (c.apply now event).2 := by
  refine ⟨fun name starts => ?_, fun reply answered => ?_⟩
  · obtain ⟨-, ⟨ttl, queued⟩, holds, -⟩ := starts_of_mem starts
    cases flying.waits _ queued
    have holder := eq_of_beq holds
    rw [flying.holder orderly] at holder
    exact apart (Option.some.inj holder)
  · obtain ⟨result, found, -⟩ := found_of_answered flying.waits answered
    simp [flying.lookup_eq_none le] at found

/-- The store of the result ends the flight. -/
theorem lands (flying : Flying first call key ttl start c) (orderly : Orderly lanes c)
    (apart : first ≠ call) {event : Event V E} {entry : Entry V E}
    (stored : .stored first key entry ∈ (c.apply now event).2) :
    Landed call key ttl entry (c.apply now event).1 := by
  obtain ⟨stage, life, result, reply, resumed, at_, brings, same, stores⟩ :=
    brings_of_stored stored
  have others : ∀ {other}, other ≠ first →
      (c.apply now event).1.stage? other = c.stage? other := fun ne =>
    stage?_apply_of_ne c now (by rwa [resumed])
  refine ⟨?_, fun other stage reached generates => ?_, fun stage reached => ?_⟩
  · rw [stores, table_store, Table.find?_insert_self, same]
  · by_cases own : other = first
    · subst own
      rw [stores, stage?_store_self, Option.map_eq_some_iff] at reached
      obtain ⟨old, -, rfl⟩ := reached
      cases generates
    · exact own (flying.eq_first orderly (others own ▸ reached) generates)
  · exact flying.waits stage (others apart.symm ▸ reached)

end Flying

namespace Landed

variable {call : CallId} {key : String} {ttl now : Nat} {entry : Entry V E} {c : KeyedCache V E}

/-- A result that has landed is found as long as it is live. -/
theorem lookup_eq (landed : Landed call key ttl entry c) (live : entry.isLive now = true) :
    c.table.lookup now key = some entry.result := by
  simp [Table.lookup, landed.held, Option.filter_some, live]

/-- Whatever happens while the result is live, it stays where it is. -/
theorem apply (landed : Landed call key ttl entry c) {m : TtlMap V E} (tracks : Tracks c m now)
    (live : entry.isLive now = true) {event : Event V E} (untouched : event.touches c key = false)
    (goesOn : ∀ request, event ≠ .call call request) :
    Landed call key ttl entry (c.apply now event).1 := by
  have turn := turn_apply c now event
  have others : ∀ {other}, other ≠ event.subject →
      (c.apply now event).1.stage? other = c.stage? other := stage?_apply_of_ne c now
  have found := landed.lookup_eq live
  refine ⟨?_, fun other stage reached generates => ?_, fun stage reached => ?_⟩
  · cases fate_turn turn untouched with
    | keeps same => rw [same, landed.held]
    | made generates =>
        obtain ⟨stage, at_, generates⟩ := generates
        exact absurd generates (landed.idle _ stage at_)
    | purged old present stage at_ pending =>
        -- What waits to be purged has expired, so it is not the entry that is live now.
        have lapsed := (tracks.purges _ stage at_ _ pending).2 old present rfl
        obtain rfl : entry = old := Option.some.inj (landed.held.symm.trans present)
        simp [live] at lapsed
  · by_cases own : other = event.subject
    · subst own
      obtain ⟨-, starts | ⟨earlier, at_, before⟩⟩ := generates_turn turn reached generates
      · have absent := starts.absent
        simp [found] at absent
      · exact landed.idle _ earlier at_ before
    · exact landed.idle other stage (others own ▸ reached) generates
  · by_cases own : call = event.subject
    · subst own
      refine (waits_turn turn landed.waits (fun request begins => absurd begins (goesOn request))
        reached).resolve_right fun starts => ?_
      have absent := starts.absent
      simp [found] at absent
    · exact landed.waits stage (others own ▸ reached)

end Landed

/-! ## A call that joins -/

/-- What holds at a move of a run, given what came before it. -/
structure Placed (lanes : Nat) (past : History V E)
    (t : Move (KeyedCache V E) (Event V E) (Notice V E)) : Prop where
  recorded : Recorded past t.before
  orderly : Orderly lanes t.before
  tracks : Tracks t.before (leases past) t.now
  moves : t = Machine.move apply t.before t.now t.event

/-- A call asks for a result while the generator of another call for the same key is under way,
which stores its result in the end, and until a later move no call sets, removes or flushes the
key. -/
structure Joins (h : History V E) (first call : CallId) (key : String) (ttl : Nat)
    (entry : Entry V E) (early : History V E)
    (g : Move (KeyedCache V E) (Event V E) (Notice V E)) (mid : History V E)
    (s : Move (KeyedCache V E) (Event V E) (Notice V E)) (late : History V E)
    (t : Move (KeyedCache V E) (Event V E) (Notice V E)) (future : History V E) : Prop where
  split : h = early ++ g :: (mid ++ s :: (late ++ t :: future))
  starts : .generate first key ∈ g.notices
  stores : .stored first key entry ∈ s.notices
  asks : (call, .getOrUpdate key ttl) ∈ begunIn mid
  untouched : Untouched key (mid ++ s :: (late ++ [t]))

section

variable {lanes : Nat} {events : List (Nat × Event V E)}

/-- Every move of a run stands among records, lines and leases that agree with the cache before it.
-/
theorem placed_of_run (named : Named (Machine.history apply (create lanes) events))
    (ordered : Ordered (Machine.history apply (create lanes) events)) {past future : History V E}
    {t : Move (KeyedCache V E) (Event V E) (Notice V E)}
    (split : Machine.history apply (create lanes) events = past ++ t :: future) :
    Placed lanes past t := by
  have moves := Machine.eq_move_of_history apply split
  have namedPast : Named past := Named.of_append (split ▸ named)
  have orderedPast : Ordered past := Ordered.of_append (split ▸ ordered)
  have follows : Follows t.now past := Ordered.follows (split ▸ ordered)
  obtain ⟨earlier, rfl, same⟩ := Machine.exists_run_before apply split
  exact ⟨same ▸ recorded_of_run lanes namedPast, same ▸ orderly_of_run lanes earlier,
    same ▸ tracks_of_run lanes earlier orderedPast follows, moves⟩

/-- A call that has no more to bring when a stretch of a run begins has none when it ends. -/
theorem spent_stays {first : CallId} {past between future : History V E}
    {u t : Move (KeyedCache V E) (Event V E) (Notice V E)}
    (split : Machine.history apply (create lanes) events = past ++ u :: (between ++ t :: future))
    (goesOn : ∀ v ∈ between, ∀ request, v.event ≠ .call first request)
    (spent : Spent first u.after) : Spent first t.before := by
  refine Machine.stretch_induction apply (fun _ => Spent first) split spent
    fun before v rest same here spent => ?_
  rw [Machine.eq_move_of_history apply here]
  exact spent.apply v.now (goesOn v (by simp [same]))

namespace Joins

variable {first call : CallId} {key : String} {ttl : Nat} {entry : Entry V E}
  {early mid late future : History V E} {g s t : Move (KeyedCache V E) (Event V E) (Notice V E)}

/-- A generator that is started in a move is that of a call that holds the lane and has found
nothing live. -/
theorem starts_at {past : History V E} {t : Move (KeyedCache V E) (Event V E) (Notice V E)}
    (placed : Placed lanes past t) (starts : .generate first key ∈ t.notices) :
    Starts t.before t.now t.event first key := by
  rw [placed.moves] at starts
  exact starts_of_mem starts

section

variable (named : Named (Machine.history apply (create lanes) events))
  (ordered : Ordered (Machine.history apply (create lanes) events))
  (joins : Joins (Machine.history apply (create lanes) events) first call key ttl entry early g mid
    s late t future)

include joins

/-- The history of a call that joins, cut at the move that stores the result. -/
theorem split_at_store : Machine.history apply (create lanes) events =
    (early ++ g :: mid) ++ s :: (late ++ t :: future) := by
  simp [joins.split]

include named

/-- A call that has begun by then does not begin again. -/
theorem goesOn {other : CallId} {past rest : History V E}
    (cut : early ++ g :: (mid ++ s :: (late ++ t :: future)) = past ++ rest)
    (begun : other ∈ (begunIn past).map (·.1))
    {u : Move (KeyedCache V E) (Event V E) (Notice V E)} (member : u ∈ rest)
    (request : Request V E) : u.event ≠ .call other request := by
  intro begins
  rw [joins.split, cut] at named
  exact named.not_again begun (List.mem_map_of_mem (mem_begunIn.mpr ⟨u, member, begins⟩))

/-- The call that joins asks for nothing but the result. -/
theorem asks_it {u : Move (KeyedCache V E) (Event V E) (Notice V E)} (member : u ∈ mid)
    {request : Request V E} (begins : u.event = .call call request) :
    request = .getOrUpdate key ttl := by
  rw [joins.split] at named
  have asked : ∀ {r}, (call, r) ∈ begunIn mid →
      (call, r) ∈ begunIn (early ++ g :: (mid ++ s :: (late ++ t :: future))) := fun known => by
    rw [begunIn_append, ← List.singleton_append, begunIn_append, begunIn_append]
    simp [known]
  exact named.unique (asked (mem_begunIn.mpr ⟨u, member, begins⟩)) (asked joins.asks)

/-- The call is not in progress yet when the generator is started. -/
theorem not_yet : g.after.stage? call = none := by
  have split : Machine.history apply (create lanes) events =
      (early ++ [g]) ++ (mid ++ s :: (late ++ t :: future)) := by simp [joins.split]
  obtain ⟨earlier, past, same⟩ := Machine.exists_run_after apply joins.split
  have recorded : Recorded (early ++ [g]) g.after := by
    have namedPast : Named (early ++ [g]) := Named.of_append (split ▸ named)
    rw [past] at namedPast ⊢
    exact same ▸ recorded_of_run lanes namedPast
  cases stage : g.after.stage? call with
  | none => rfl
  | some at_ =>
      obtain ⟨u, member, begins⟩ := mem_begunIn.mp joins.asks
      have begun := (recorded.told call at_ stage).begun
      have cut : early ++ g :: (mid ++ s :: (late ++ t :: future)) =
          (early ++ [g]) ++ (mid ++ s :: (late ++ t :: future)) := by simp
      exact absurd begins (joins.goesOn named cut begun (by simp [member]) _)

include ordered

/-- The first call had begun before its generator was started. -/
theorem begun : first ∈ (begunIn early).map (·.1) := by
  have placed := placed_of_run named ordered joins.split
  obtain ⟨-, ⟨life, queued⟩, -, -⟩ := starts_at placed joins.starts
  exact (placed.recorded.told first _ queued).begun

/-- The move that stores the result stands in its place as every other does. -/
theorem placed_at_store : Placed lanes (early ++ g :: mid) s :=
  placed_of_run named ordered joins.split_at_store

/-- The store is that of a call that has brought the result. -/
theorem brought : ∃ stage life result reply, s.before.stage? first = some stage ∧
    stage.Brings key life result reply ∧ entry.result = result := by
  have stores := joins.stores
  rw [(joins.placed_at_store named ordered).moves] at stores
  obtain ⟨stage, life, result, reply, -, at_, brings, rfl, -⟩ := brings_of_stored stores
  exact ⟨stage, life, result, reply, at_, brings, rfl⟩

/-- The call that joins is another than the first. -/
theorem apart : first ≠ call := by
  rintro rfl
  obtain ⟨u, member, begins⟩ := mem_begunIn.mp joins.asks
  exact joins.goesOn named rfl (joins.begun named ordered) (by simp [member]) _ begins

/-- When the generator has been started it is under way. -/
theorem takes_off : Flying first call key ttl g.now g.after := by
  have placed := placed_of_run named ordered joins.split
  have starts := starts_at placed joins.starts
  obtain ⟨resumed, ⟨life, queued⟩, holds, absent⟩ := starts
  have after : g.after = g.before.moveTo first (.generating key life) := by
    rw [placed.moves, resumed]
    exact congrArg Prod.fst (apply_resume_of_queued _ g.now queued holds absent)
  refine ⟨⟨_, after ▸ stage?_moveTo_self _ _, .generating life⟩, fun entry held => ?_, ?_⟩
  · rw [after] at held
    have held : g.before.table.find? key = some entry := held
    simpa [Table.lookup, held] using absent
  · intro stage at_
    rw [joins.not_yet named] at at_
    cases at_

/-- Until the result is stored the generator is under way, or else it never will be again. -/
theorem flying_or_spent {between after : History V E}
    {v : Move (KeyedCache V E) (Event V E) (Notice V E)}
    (cut : mid ++ s :: (late ++ t :: future) = between ++ v :: after)
    (inside : ∀ u ∈ between, u ∈ mid) :
    Flying first call key ttl g.now v.before ∨ Spent first v.before := by
  have split : Machine.history apply (create lanes) events =
      early ++ g :: (between ++ v :: after) := cut ▸ joins.split
  refine Machine.stretch_induction apply
    (fun _ c => Flying first call key ttl g.now c ∨ Spent first c) split
    (.inl (joins.takes_off named ordered)) fun before w rest same here holds => ?_
  have member : w ∈ mid := inside w (by simp [same])
  have goesOn : ∀ request, w.event ≠ .call first request :=
    joins.goesOn named rfl (joins.begun named ordered) (by simp [member])
  have placed := placed_of_run named ordered here
  rw [placed.moves]
  rcases holds with flying | spent
  · exact flying.apply placed.orderly (joins.apart named ordered)
      (joins.untouched w (by simp [member])) goesOn
      fun request begins => joins.asks_it named member begins
  · exact .inr (spent.apply w.now goesOn)

/-- The generator is under way when its result is stored. -/
theorem flying_at_store : Flying first call key ttl g.now s.before := by
  -- A call that is spent brings nothing, so the store itself tells that the first one is not.
  obtain ⟨stage, life, result, reply, at_, brings, -⟩ := joins.brought named ordered
  refine (joins.flying_or_spent named ordered rfl fun u => id).resolve_right fun spent => ?_
  obtain ⟨reply, rfl⟩ := spent stage at_
  cases brings

/-- Until its result is stored the generator is under way. -/
theorem flying_at {between rest : History V E}
    {v : Move (KeyedCache V E) (Event V E) (Notice V E)} (cut : mid = between ++ v :: rest) :
    Flying first call key ttl g.now v.before := by
  have onward : mid ++ s :: (late ++ t :: future) =
      between ++ v :: (rest ++ s :: (late ++ t :: future)) := by simp [cut]
  have member : ∀ u ∈ v :: rest, u ∈ mid := fun u within => by
    rw [cut]
    exact List.mem_append_right _ within
  refine (joins.flying_or_spent named ordered onward fun u within => by
    simp [cut, within]).resolve_right fun spent => ?_
  -- Had it been spent here already, it would still be at the store.
  have goesOn : ∀ u ∈ v :: rest, ∀ request, u.event ≠ .call first request := fun u within =>
    joins.goesOn named rfl (joins.begun named ordered) (by simp [member u within])
  have here : Machine.history apply (create lanes) events =
      (early ++ g :: between) ++ v :: (rest ++ s :: (late ++ t :: future)) := by
    rw [joins.split, onward]
    simp
  have after : Spent first v.after := by
    rw [Machine.eq_move_of_history apply here]
    exact spent.apply v.now (goesOn v List.mem_cons_self)
  have still := spent_stays here (fun u within => goesOn u (List.mem_cons_of_mem v within)) after
  obtain ⟨stage, at_, generates⟩ := (joins.flying_at_store named ordered).generates
  obtain ⟨reply, rfl⟩ := still stage at_
  cases generates

/-- As long as the result is live after the store, it is there to be found. -/
theorem landed_at (live : entry.isLive t.now = true) : Landed call key ttl entry t.before := by
  have here := joins.split_at_store
  have placed := joins.placed_at_store named ordered
  have lands : Landed call key ttl entry s.after := by
    have stores := joins.stores
    rw [placed.moves] at stores ⊢
    exact (joins.flying_at_store named ordered).lands placed.orderly (joins.apart named ordered)
      stores
  have begun : call ∈ (begunIn (early ++ g :: mid)).map (·.1) := by
    rw [begunIn_append, ← List.singleton_append, begunIn_append]
    simp only [List.map_append, List.mem_append]
    exact .inr (.inr (List.mem_map_of_mem joins.asks))
  refine Machine.stretch_induction apply (fun _ => Landed call key ttl entry) here lands ?_
  intro before w rest same there landed
  have placed := placed_of_run named ordered there
  have cut : early ++ g :: (mid ++ s :: (late ++ t :: future)) =
      (early ++ g :: mid) ++ s :: (late ++ t :: future) := by simp
  have goesOn : ∀ request, w.event ≠ .call call request :=
    joins.goesOn named cut begun (by simp [same])
  have earlier : w.now ≤ t.now := by
    rw [there] at ordered
    exact ordered.le (by simp)
  have alive : entry.isLive w.now = true := by
    by_contra lapsed
    simp [Entry.not_isLive_later earlier (by simpa using lapsed)] at live
  rw [placed.moves]
  exact landed.apply placed.tracks alive (joins.untouched w (by simp [same])) goesOn

/-- What is stored is what the generator gave. -/
theorem gave : Gave (early ++ g :: mid) first key entry.result := by
  obtain ⟨stage, life, result, reply, at_, brings, same⟩ := joins.brought named ordered
  rw [same]
  obtain ⟨other, at', generates⟩ := (joins.flying_at_store named ordered).generates
  obtain rfl := Option.some.inj (at_.symm.trans at')
  cases brings with
  | given => cases generates
  | made => exact ((joins.placed_at_store named ordered).recorded.told first _ at_).2

/-- Up to the store the call is neither answered nor has a generator started. -/
theorem silent {u : Move (KeyedCache V E) (Event V E) (Notice V E)} (member : u ∈ mid ++ [s]) :
    (∀ name, .generate call name ∉ u.notices) ∧ ∀ reply, .answered call reply ∉ u.notices := by
  have quiet : ∀ {past rest}, Machine.history apply (create lanes) events =
      (early ++ g :: past) ++ u :: rest → Flying first call key ttl g.now u.before →
        (∀ name, .generate call name ∉ u.notices) ∧
          ∀ reply, .answered call reply ∉ u.notices := by
    intro past rest here flying
    have placed := placed_of_run named ordered here
    have le : g.now ≤ u.now := by
      rw [List.append_assoc, List.cons_append] at here
      rw [here] at ordered
      exact ordered.le (by simp)
    rw [placed.moves]
    exact flying.silent placed.orderly (joins.apart named ordered) le
  rcases List.mem_append.mp member with before | last
  · obtain ⟨between, rest, rfl⟩ := List.append_of_mem before
    exact quiet (by rw [joins.split]; simp; rfl) (joins.flying_at named ordered rfl)
  · obtain rfl := List.mem_singleton.mp last
    exact quiet (by rw [joins.split]; simp; rfl) (joins.flying_at_store named ordered)

end

end Joins

/-- A call that asks for a result while the generator of another call for the key is under way has
no generator of its own started and is given no answer but the other's result, as long as no call
sets, removes or flushes the key and the result is live when the call looks: before the result is
stored the call only waits, and after that it is answered as soon as it takes a step with the lane
in its hands. -/
theorem callers_share_result (lanes : Nat) (events : List (Nat × Event V E))
    (named : Named (Machine.history apply (create lanes) events))
    (ordered : Ordered (Machine.history apply (create lanes) events)) {first call : CallId}
    {key : String} {ttl : Nat} {entry : Entry V E} {early mid late future : History V E}
    {g s t : Move (KeyedCache V E) (Event V E) (Notice V E)}
    (joins : Joins (Machine.history apply (create lanes) events) first call key ttl entry early g
      mid s late t future) (live : entry.isLive t.now = true) :
    Gave (early ++ g :: mid) first key entry.result ∧
      (∀ u ∈ mid ++ [s], (∀ name, .generate call name ∉ u.notices) ∧
        ∀ reply, .answered call reply ∉ u.notices) ∧
      (∀ name, .generate call name ∉ t.notices) ∧
      (∀ reply, .answered call reply ∈ t.notices → reply = .result entry.result) ∧
      (t.event = .resume call → ∀ stage, t.before.stage? call = some stage →
        .answered call (.result entry.result) ∈ t.notices ∨ stage = .missed key ttl ∨
          t.before.lanes.holds call (t.before.laneOf key) = false) := by
  have here : Machine.history apply (create lanes) events =
      (early ++ g :: mid ++ s :: late) ++ t :: future := by simp [joins.split]
  have moves := Machine.eq_move_of_history apply here
  have landed := joins.landed_at named ordered live
  have found := landed.lookup_eq live
  generalize t.before = c at moves landed found ⊢
  refine ⟨joins.gave named ordered, fun u member => joins.silent named ordered member,
    fun name starts => ?_, fun reply answered => ?_, fun resumed stage at_ => ?_⟩
  · rw [moves] at starts
    obtain ⟨-, ⟨life, queued⟩, -, absent⟩ := starts_of_mem starts
    cases landed.waits _ queued
    simp [found] at absent
  · rw [moves] at answered
    obtain ⟨result, same, rfl⟩ := found_of_answered landed.waits answered
    rw [found] at same
    rw [Option.some.inj same]
  · rw [moves, resumed]
    simp only [Machine.move]
    cases landed.waits stage at_ with
    | requested =>
        rw [apply_resume_of_found c t.now at_ found]
        exact .inl (mem_answer.mpr (.inr rfl))
    | missed => exact .inr (.inl rfl)
    | queued =>
        cases holds : c.lanes.holds call (c.laneOf key) with
        | false => exact .inr (.inr rfl)
        | true =>
            rw [apply_resume_of_held c t.now at_ holds found]
            exact .inl (mem_answer.mpr (.inr rfl))

/-- The state of a cache with four lanes after the first `n` events of a run. -/
def stateAt (events : List (Nat × Event Nat String)) (n : Nat) : KeyedCache Nat String :=
  Machine.final apply (create 4) (events.take n)

/-- Two calls ask for one result, and the second has that of the first. -/
theorem callers_share_result_of_two_callers :
    let h := Machine.history apply (create 4 : KeyedCache Nat String) twoCallers
    (Named h ∧ Ordered h) ∧ ∃ entry early g mid s late t future,
      (Joins h 1 2 "k" 100 entry early g mid s late t future ∧ entry.isLive t.now = true) ∧
        Gave (early ++ g :: mid) 1 "k" entry.result ∧
          ∀ reply, .answered 2 reply ∈ t.notices → reply = .result entry.result := by
  intro h
  have named : Named h := by decide +kernel
  have ordered : Ordered h := by decide +kernel
  obtain ⟨s, hs⟩ : ∃ s, s = Machine.move apply (stateAt twoCallers 9) 5 (.resume 1) := ⟨_, rfl⟩
  have stores : "k" ∈ (storedIn s.notices).map (·.1) := by
    rw [hs]
    decide +kernel
  have live : ∀ p ∈ storedIn s.notices, p.2.isLive 5 = true := by
    rw [hs]
    decide +kernel
  obtain ⟨⟨key, entry⟩, stored, rfl⟩ := List.mem_map.mp stores
  obtain ⟨call, notice⟩ := mem_storedIn.mp stored
  obtain rfl : call = 1 := by
    have own : ∀ {c : KeyedCache Nat String} {now : Nat} {event : Event Nat String},
        s = Machine.move apply c now event → call = event.subject := by
      rintro c now event rfl
      exact subject?_of_mem c now notice rfl
    exact own hs
  have starts : .generate 1 "k" ∈
      (Machine.move apply (stateAt twoCallers 3) 0 (.resume 1)).notices := by
    rw [← mem_startedIn]
    decide +kernel
  have joins : Joins h 1 2 "k" 100 entry (Machine.history apply (create 4) (twoCallers.take 3))
      (Machine.move apply (stateAt twoCallers 3) 0 (.resume 1))
      (Machine.history apply (stateAt twoCallers 4) ((twoCallers.drop 4).take 5)) s []
      (Machine.move apply (stateAt twoCallers 10) 5 (.resume 2)) [] := by
    have split : h = Machine.history apply (create 4) (twoCallers.take 3) ++
        Machine.move apply (stateAt twoCallers 3) 0 (.resume 1) ::
          (Machine.history apply (stateAt twoCallers 4) ((twoCallers.drop 4).take 5) ++
            s :: ([] ++ Machine.move apply (stateAt twoCallers 10) 5 (.resume 2) :: [])) := by
      rw [hs]
      rfl
    refine ⟨split, starts, notice, ?_, ?_⟩
    · exact mem_begunIn.mpr ⟨_, List.mem_cons_self, rfl⟩
    · rw [hs]
      decide +kernel
  obtain ⟨gave, -, -, shared, -⟩ :=
    callers_share_result 4 twoCallers named ordered joins (live _ stored)
  exact ⟨⟨named, ordered⟩, entry, _, _, _, s, _, _, _, ⟨joins, live _ stored⟩, gave, shared⟩

/-! ## Behind a slow hook -/

/-- The waiting call finds the result of the other expired: it was stored for a hundred units of
time, but the hook of the entry that it displaced ran for five hundred. -/
def behindHook : List (Nat × Event Nat String) :=
  asking 1 "k" 10 0 0 0 0 ++ making 1 (.ok 0) 0 ++ asking 2 "k" 100 20 20 20 20 ++
    asking 3 "k" 100 20 20 20 20 ++ making 2 (.ok 1) 30 ++ [(530, .evicted 2), (530, .resume 3)]

/-- Whoever asks for a result while a generator for the key runs to its end has no generator of its
own started, if nobody sets, removes or flushes the key. -/
def Collapses (h : History V E) : Prop :=
  ∀ past b future first call key ttl, h = past ++ b :: future → (first, key) ∈ running past →
    b.event = .call call (.getOrUpdate key ttl) →
      (∃ t ∈ future, ∃ result, t.event = .generated first result) → Untouched key (b :: future) →
        ∀ t ∈ future, .generate call key ∉ t.notices

/-- That fails behind a slow hook, though every lifetime is positive. -/
theorem not_collapses_behind_hook :
    let h := Machine.history apply (create 4 : KeyedCache Nat String) behindHook
    (Named h ∧ Ordered h) ∧ (∀ call key ttl, (call, .getOrUpdate key ttl) ∈ begunIn h → 0 < ttl) ∧
      ¬Collapses h := by
  intro h
  have named : Named h := by decide +kernel
  have ordered : Ordered h := by decide +kernel
  have split : h = Machine.history apply (create 4) (behindHook.take 10) ++
      Machine.move apply (stateAt behindHook 10) 20 (.call 3 (.getOrUpdate "k" 100)) ::
        Machine.history apply (stateAt behindHook 11) (behindHook.drop 11) := rfl
  refine ⟨⟨named, ordered⟩, fun call key ttl asked => ?_, fun collapses => ?_⟩
  · have all : begunIn h = [(1, .getOrUpdate "k" 10), (2, .getOrUpdate "k" 100),
        (3, .getOrUpdate "k" 100)] := rfl
    rw [all] at asked
    simp at asked
    omega
  · have runs : (2, "k") ∈ running
        (Machine.history apply (create 4 : KeyedCache Nat String) (behindHook.take 10)) := by
      decide +kernel
    have untouched : Untouched "k"
        (Machine.move apply (stateAt behindHook 10) 20 (.call 3 (.getOrUpdate "k" 100)) ::
          Machine.history apply (stateAt behindHook 11) (behindHook.drop 11)) := by
      decide +kernel
    have ends : Machine.move apply (stateAt behindHook 14) 30 (.generated 2 (.ok 1)) ∈
        Machine.history apply (stateAt behindHook 11) (behindHook.drop 11) :=
      List.mem_of_getElem? (i := 3) rfl
    have resumed : Machine.move apply (stateAt behindHook 17) 530 (.resume 3) ∈
        Machine.history apply (stateAt behindHook 11) (behindHook.drop 11) :=
      List.mem_of_getElem? (i := 6) rfl
    have starts : .generate 3 "k" ∈
        (Machine.move apply (stateAt behindHook 17) 530 (.resume 3)).notices := by
      rw [← mem_startedIn]
      decide +kernel
    exact collapses _ _ _ 2 3 "k" 100 split runs rfl ⟨_, ends, .ok 1, rfl⟩ untouched _ resumed
      starts

end

end CachedStreams.KeyedCache
