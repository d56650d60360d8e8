import Mathlib.Data.List.Induction
import CachedStreams.Proofs.SlotCache.Turns

/-!
# A cache of one value is a slot with an instant

What a reader of the cache finds is decided by the last write: it is the value that was stored then,
as long as that is younger than the lifetime (`GetsLast`). An update writes only when it succeeds;
one that fails, panics or is given up leaves the slot to the others (`FailuresKeep`).

A `get` drops a stale value. Nobody can tell: what is stale stays stale, so the caches of two runs
that differ only in their gets stay `Alike`, and show the same (`ReadsUnseen`).
-/

set_option autoImplicit false

namespace CachedStreams.SlotCache

variable {T E : Type}

/-! ## Writes -/

/-- What an event writes: a value that is set or that a successful update stores, or nothing when
the slot is cleared. -/
def writeOf (c : SlotCache T E) : Event T E → Option (Option T)
  | .set value => some (some value)
  | .clear => some none
  | .resume call =>
    match c.stage? call with
    | some (.computed (.ok value)) => some (some value)
    | _ => none
  | _ => none

/-- The last write of a history stored a value, at an instant. -/
def LastStored (h : History T E) (value : T) (instant : Nat) : Prop :=
  ∃ past t future, h = past ++ t :: future ∧
    (writeOf t.before t.event = some (some value) ∧ t.now = instant) ∧
    ∀ u ∈ future, writeOf u.before u.event = none

/-- The last value stored is the one that the last move writes, or the one before it if the move
writes nothing. -/
theorem lastStored_snoc {h : History T E} {t : Move (SlotCache T E) (Event T E) (Notice T E)}
    {value : T} {instant : Nat} : LastStored (h ++ [t]) value instant ↔
      (writeOf t.before t.event = some (some value) ∧ t.now = instant) ∨
        LastStored h value instant ∧ writeOf t.before t.event = none :=
  exists_last_snoc

/-- What an event does to the slot: it writes, or leaves the slot as it is, except that a `get`
drops a stale value. -/
inductive SlotMove (c : SlotCache T E) (now : Nat) (event : Event T E) (d : SlotCache T E) :
    Prop where
  | keeps (silent : writeOf c event = none) (slot : d.slot = c.slot)
  | drops (read : event = .get) (stale : c.fresh now = none) (slot : d.slot = none)
  | writes (written : Option T) (write : writeOf c event = some written)
    (slot : d.slot = written.map fun value => ⟨value, now⟩)

section

variable {c : SlotCache T E} {now : Nat} {event : Event T E} {r : SlotCache T E × List (Notice T E)}

/-- Every turn stores, clears, drops what is stale, or keeps the slot. -/
theorem slotMove_turn (turn : Turn c now event r) : SlotMove c now event r.1 := by
  have silent : ∀ call stage, c.stage? call = some stage →
      (∀ value, stage ≠ .computed (.ok value)) → writeOf c (.resume call) = none := by
    intro call stage at_ other
    simp only [writeOf, at_]
    split
    · rename_i value same
      exact absurd (Option.some.inj same) (other value)
    · rfl
  cases turn with
  | finds => exact .keeps rfl rfl
  | findsNone stale => exact .drops rfl stale rfl
  | sets value => exact .writes (some value) rfl rfl
  | clears => exact .writes none rfl rfl
  | begins | givesUp | ends | ignores => exact .keeps rfl rfl
  | waits call stuck =>
      refine .keeps ?_ rfl
      cases stuck with
      | gone stage => simp [writeOf, stage]
      | behind stage | computing stage => exact silent call _ stage nofun
  | hits call value looks =>
      refine .keeps ?_ rfl
      cases looks with
      | first stage | again stage => exact silent call _ stage nofun
  | misses call stage | queues call stage | computes call stage =>
      exact .keeps (silent call _ stage nofun) rfl
  | fails call e stage => exact .keeps (silent call _ stage nofun) rfl
  | stores call value stage => exact .writes (some value) (by simp [writeOf, stage]) rfl

/-- A cache keeps the lifetime of its values. -/
theorem ttl_turn (turn : Turn c now event r) : r.1.ttl = c.ttl := by
  cases turn <;> rfl

/-- A value is fresh if it is in the slot and younger than the lifetime. -/
theorem fresh_eq_some_iff {value : T} : c.fresh now = some value ↔
    ∃ instant, c.slot = some ⟨value, instant⟩ ∧ now - instant < c.ttl := by
  cases slot : c.slot with
  | none => simp [fresh, slot]
  | some s =>
      obtain ⟨held, instant⟩ := s
      simp only [fresh, slot, Option.map_eq_some_iff, Option.filter_eq_some_iff,
        decide_eq_true_eq, Option.some.injEq, Slot.mk.injEq]
      constructor
      · rintro ⟨s, ⟨rfl, young⟩, rfl⟩
        exact ⟨instant, ⟨rfl, rfl⟩, young⟩
      · rintro ⟨_, ⟨rfl, rfl⟩, young⟩
        exact ⟨_, ⟨rfl, young⟩, rfl⟩

/-- What has just been stored stays fresh for the lifetime. -/
theorem fresh_store (c : SlotCache T E) (now later : Nat) (value : T) :
    (c.store now value).fresh later = if later - now < c.ttl then some value else none := by
  by_cases young : later - now < c.ttl <;> simp [store, fresh, Option.filter, young]

/-- A get answers with what is fresh. -/
@[simp] theorem get_snd (c : SlotCache T E) (now : Nat) : (c.get now).2 = c.fresh now := by
  unfold get
  split
  · rename_i value fresh
    exact fresh.symm
  · rename_i stale
    exact stale.symm

end

/-- A get makes known what it has found. -/
theorem apply_get (c : SlotCache T E) (now : Nat) :
    c.apply now .get = ((c.get now).1, [.found (c.get now).2]) := rfl

/-- The slot holds what the last write of a history stored, unless that was found stale. -/
structure Tracks (h : History T E) (c : SlotCache T E) : Prop where
  held : ∀ value instant, c.slot = some ⟨value, instant⟩ → LastStored h value instant
  gone : ∀ value instant, LastStored h value instant →
    c.slot = some ⟨value, instant⟩ ∨ ∃ t ∈ h, c.ttl ≤ t.now - instant

namespace Tracks

variable {h : History T E} {c : SlotCache T E}

/-- The fresh value is the one stored last, as long as it is younger than the lifetime. -/
theorem fresh_iff (tracks : Tracks h c) {now : Nat} (later : ∀ t ∈ h, t.now ≤ now) {value : T} :
    c.fresh now = some value ↔ ∃ instant, LastStored h value instant ∧ now - instant < c.ttl := by
  rw [fresh_eq_some_iff]
  constructor
  · rintro ⟨instant, slot, young⟩
    exact ⟨instant, tracks.held value instant slot, young⟩
  · rintro ⟨instant, stored, young⟩
    rcases tracks.gone value instant stored with slot | ⟨t, member, old⟩
    · exact ⟨instant, slot, young⟩
    · have := later t member
      omega

/-- Every event keeps the slot and the last write in step. -/
theorem apply (tracks : Tracks h c) {now : Nat} (later : ∀ t ∈ h, t.now ≤ now)
    (event : Event T E) :
    Tracks (h ++ [Machine.move SlotCache.apply c now event]) (c.apply now event).1 := by
  have turn := turn_apply c now event
  have ttl := ttl_turn turn
  have snoc : ∀ {value instant}, LastStored (h ++ [Machine.move SlotCache.apply c now event]) value
      instant ↔ (writeOf c event = some (some value) ∧ now = instant) ∨
        LastStored h value instant ∧ writeOf c event = none := lastStored_snoc
  cases slotMove_turn turn with
  | keeps silent slot =>
      refine ⟨fun value instant held => ?_, fun value instant stored => ?_⟩
      · rw [slot] at held
        exact snoc.mpr (.inr ⟨tracks.held value instant held, silent⟩)
      · rcases snoc.mp stored with ⟨written, -⟩ | ⟨before, -⟩
        · rw [silent] at written
          cases written
        · rw [slot, ttl]
          refine (tracks.gone value instant before).imp_right fun ⟨t, member, old⟩ => ?_
          exact ⟨t, List.mem_append_left _ member, old⟩
  | drops read stale slot =>
      subst read
      refine ⟨fun value instant held => ?_, fun value instant stored => .inr ?_⟩
      · rw [slot] at held
        cases held
      · rcases snoc.mp stored with ⟨written, -⟩ | ⟨before, -⟩
        · cases written
        · refine ⟨_, List.mem_append_right _ (List.mem_singleton_self _), ?_⟩
          show (c.apply now .get).1.ttl ≤ now - instant
          rw [ttl]
          by_contra young
          have fresh := (tracks.fresh_iff later).mpr ⟨instant, before, Nat.lt_of_not_le young⟩
          rw [stale] at fresh
          cases fresh
  | writes written write slot =>
      refine ⟨fun value instant held => ?_, fun value instant stored => .inl ?_⟩
      · rw [slot, Option.map_eq_some_iff] at held
        obtain ⟨_, rfl, same⟩ := held
        cases same
        exact snoc.mpr (.inl ⟨write, rfl⟩)
      · rcases snoc.mp stored with ⟨same, rfl⟩ | ⟨-, silent⟩
        · rw [write] at same
          rw [slot, Option.some.inj same]
          rfl
        · rw [write] at silent
          cases silent

end Tracks

/-- In every run the slot holds the last write, unless that has become stale. -/
theorem tracks_of_run {ttl : Nat} {events : List (Nat × Event T E)}
    (forward : Machine.Forward events) :
    Tracks (Machine.history apply (empty ttl) events) (Machine.final apply (empty ttl) events) := by
  induction events using List.reverseRecOn with
  | nil =>
      refine ⟨nofun, ?_⟩
      rintro value instant ⟨past, t, future, split, -⟩
      simp [Machine.history] at split
  | append_singleton events last ih =>
      obtain ⟨now, event⟩ := last
      have tracks := ih forward.of_append
      rw [Machine.history_append, Machine.final_append]
      refine tracks.apply (fun t member => ?_) event
      have at_ : t.now ∈ events.map (·.1) := by
        rw [← Machine.map_now_history apply (empty ttl)]
        exact List.mem_map_of_mem member
      obtain ⟨e, early, same⟩ := List.mem_map.mp at_
      exact same ▸ forward.le_of_snoc e early

/-! ## Updates that fail -/

/-- A call to update comes to nothing: it is answered with a failure, or given up, as it is when its
computation panics. -/
def FailsIn (call : CallId) (t : Move (SlotCache T E) (Event T E) (Notice T E)) : Prop :=
  (∃ e, .answered call (.error e) ∈ t.notices) ∨
    t.event = .abort call ∧ t.before.stage? call ≠ none

/-- A call that is over stays so until another of its name begins. -/
theorem gone_apply {c : SlotCache T E} {call : CallId} (gone : c.stage? call = none) (now : Nat)
    {event : Event T E} (other : event ≠ .update call) :
    (c.apply now event).1.stage? call = none := by
  have turn := turn_apply c now event
  by_cases own : event.subject? = some call
  · generalize c.apply now event = r at turn ⊢
    cases turn with
    | finds | findsNone | sets | clears => cases own
    | begins name =>
        cases own
        exact absurd rfl other
    | waits | ignores => exact gone
    | givesUp name =>
        cases own
        exact stage?_leave_self c
    | hits name =>
        cases own
        exact stage?_answer_self c _
    | misses name stage | queues name stage | computes name stage | stores name _ stage
    | fails name _ stage | ends name _ stage =>
        cases own
        rw [gone] at stage
        cases stage
  · rw [stage?_turn_of_ne turn own]
    exact gone

/-- A call that fails in a move was in progress before it. -/
theorem FailsIn.inProgress {c : SlotCache T E} {now : Nat} {event : Event T E} {call : CallId}
    (fails : FailsIn call (Machine.move apply c now event)) : c.stage? call ≠ none := by
  rcases fails with ⟨e, answered⟩ | ⟨-, inProgress⟩
  · intro gone
    have turn := turn_apply c now event
    obtain ⟨resumed, -⟩ := subject?_of_answered turn answered
    have nothing : c.resume now call = none := by
      have known : c.calls.find? call = none := gone
      simp [resume, known]
    simp [Machine.move, resumed, SlotCache.apply, nothing] at answered
  · exact inProgress

/-- A successful update is over once it has stored its value. -/
theorem gone_of_writes {c : SlotCache T E} {call : CallId} {now : Nat} {event : Event T E}
    (own : event.subject? = some call) (writes : writeOf c event ≠ none) :
    (c.apply now event).1.stage? call = none := by
  have turn := turn_apply c now event
  generalize c.apply now event = r at turn ⊢
  cases turn with
  | finds | findsNone | sets | clears => cases own
  | begins | givesUp | ends | ignores => exact absurd rfl writes
  | waits name stuck =>
      cases own
      cases stuck with
      | gone stage => exact stage
      | behind stage | computing stage => simp [writeOf, stage] at writes
  | misses name stage | queues name stage | computes name stage =>
      simp [writeOf, stage] at writes
  | hits name | fails name =>
      cases own
      exact stage?_answer_self c _
  | stores name value =>
      cases own
      exact stage?_answer_self (c.store now value) _

/-- From its beginning to its end, a call to update that fails does not touch the slot. -/
def FailuresKeep (h : History T E) : Prop :=
  ∀ past b mid e future call, h = past ++ b :: (mid ++ e :: future) → b.event = .update call →
    (∀ u ∈ mid, u.event ≠ .update call) → FailsIn call e →
      ∀ u ∈ b :: (mid ++ [e]), u.event.subject? = some call → u.after.slot = u.before.slot

/-- What writes nothing leaves the slot as it is, unless it is a `get`. -/
theorem slot_of_silent {c : SlotCache T E} {now : Nat} {event : Event T E}
    (silent : writeOf c event = none) (other : event ≠ .get) :
    (c.apply now event).1.slot = c.slot := by
  cases slotMove_turn (turn_apply c now event) with
  | keeps _ slot => exact slot
  | drops read => exact absurd read other
  | writes _ write =>
      rw [write] at silent
      cases silent

/-- The move in which a call fails writes nothing. -/
theorem silent_of_fails {c : SlotCache T E} {now : Nat} {event : Event T E} {call : CallId}
    (fails : FailsIn call (Machine.move apply c now event)) : writeOf c event = none := by
  rcases fails with ⟨failure, answered⟩ | ⟨rfl, -⟩
  · have told : .answered call (.error failure) ∈ (c.apply now event).2 := answered
    obtain ⟨rfl, -⟩ := subject?_of_answered (turn_apply c now event) told
    simp only [writeOf]
    split
    · rename_i value stage
      have known : c.calls.find? call = some (.computed (.ok value)) := stage
      simp [SlotCache.apply, SlotCache.resume, known, SlotCache.answer, SlotCache.leave] at told
    · rfl
  · rfl

/-- In every run a computation that fails leaves the slot as it is. -/
theorem failuresKeep_of_run (ttl : Nat) (events : List (Nat × Event T E)) :
    FailuresKeep (Machine.history apply (empty ttl : SlotCache T E) events) := by
  intro past b mid e future call split begins once fails u member own
  have last : Machine.history apply (empty ttl) events = (past ++ b :: mid) ++ e :: future := by
    rw [split]
    simp
  have failing := Machine.eq_move_of_history apply last
  have unread : u.event ≠ .get := fun read => by simp [read, Event.subject?] at own
  rcases List.mem_cons.mp member with rfl | later
  · rw [Machine.after_of_history apply split]
    exact slot_of_silent (by simp [begins, writeOf]) unread
  rcases List.mem_append.mp later with between | ending
  · obtain ⟨first, rest, rfl⟩ := List.append_of_mem between
    have here : Machine.history apply (empty ttl) events =
        (past ++ b :: first) ++ u :: (rest ++ e :: future) := by rw [split]; simp
    rw [Machine.after_of_history apply here]
    refine slot_of_silent (by_contra fun writes => ?_) unread
    -- A move of the call that writes ends it, and then it cannot fail any more.
    have inProgress : e.before.stage? call ≠ none := FailsIn.inProgress (failing ▸ fails)
    refine inProgress (Machine.stretch_induction apply (fun _ c => c.stage? call = none) here ?_ ?_)
    · rw [Machine.after_of_history apply here]
      exact gone_of_writes own writes
    · intro seen v others same split' gone
      rw [Machine.after_of_history apply split']
      exact gone_apply gone _ (once v (by simp [same]))
  · obtain rfl := List.mem_singleton.mp ending
    rw [Machine.after_of_history apply last]
    exact slot_of_silent (silent_of_fails (failing ▸ fails)) unread

/-! ## Reads that leave no trace -/

/-- Whether an event is a call to get. -/
def Event.isGet : Event T E → Bool
  | .get => true
  | _ => false

/-- Two caches that differ at most in a stale value, from an instant on. -/
structure Alike (now : Nat) (c d : SlotCache T E) : Prop where
  ttl : c.ttl = d.ttl
  lanes : c.lanes = d.lanes
  calls : c.calls = d.calls
  fresh : ∀ later, now ≤ later → c.fresh later = d.fresh later

namespace Alike

variable {c d : SlotCache T E} {now t : Nat}

/-- Every cache looks like itself. -/
theorem refl (now : Nat) (c : SlotCache T E) : Alike now c c := ⟨rfl, rfl, rfl, fun _ _ => rfl⟩

/-- Caches that look alike go on doing so as time passes. -/
theorem later (alike : Alike now c d) (le : now ≤ t) : Alike t c d :=
  ⟨alike.ttl, alike.lanes, alike.calls, fun s far => alike.fresh s (Nat.le_trans le far)⟩

/-- What a `get` drops could not be found any more. -/
theorem get (alike : Alike now c d) (le : now ≤ t) : Alike t (c.get t).1 d := by
  have same := alike.later le
  unfold SlotCache.get
  split
  · exact same
  · rename_i stale
    refine ⟨same.ttl, same.lanes, same.calls, fun s far => ?_⟩
    rw [← same.fresh s far]
    -- What is stale now is stale later.
    refine Eq.symm (Option.eq_none_iff_forall_ne_some.mpr fun value found => ?_)
    obtain ⟨instant, slot, young⟩ := fresh_eq_some_iff.mp found
    have earlier := fresh_eq_some_iff.mpr ⟨instant, slot, (by omega : t - instant < c.ttl)⟩
    rw [stale] at earlier
    cases earlier

/-- When a call ends in both, caches go on looking alike and the same is made known. -/
theorem leave (alike : Alike now c d) (call : CallId) :
    (c.leave call).2 = (d.leave call).2 ∧ Alike now (c.leave call).1 (d.leave call).1 := by
  simp only [SlotCache.leave, alike.lanes, alike.calls, true_and]
  exact ⟨alike.ttl, rfl, rfl, alike.fresh⟩

/-- When a call is answered in both, caches go on looking alike and the same is made known. -/
theorem answer (alike : Alike now c d) (call : CallId) (result : Except E T) :
    (c.answer call result).2 = (d.answer call result).2 ∧
      Alike now (c.answer call result).1 (d.answer call result).1 :=
  ⟨congrArg (· ++ _) (alike.leave call).1, (alike.leave call).2⟩

/-- When a call moves on in both, caches go on looking alike. -/
theorem moveTo (alike : Alike now c d) (call : CallId) (stage : Stage T E) :
    Alike now (c.moveTo call stage) (d.moveTo call stage) :=
  ⟨alike.ttl, alike.lanes, by simp [SlotCache.moveTo, alike.calls], alike.fresh⟩

/-- When a value is stored in both, caches go on looking alike. -/
theorem store (alike : Alike now c d) (value : T) :
    Alike now (c.store t value) (d.store t value) :=
  ⟨alike.ttl, alike.lanes, alike.calls, fun s _ => by rw [fresh_store, fresh_store, alike.ttl]⟩

/-- The next step of a call shows the same in both. -/
theorem resume (alike : Alike now c d) (call : CallId) :
    (c.apply now (.resume call)).2 = (d.apply now (.resume call)).2 ∧
      Alike now (c.apply now (.resume call)).1 (d.apply now (.resume call)).1 := by
  have found := alike.fresh now (Nat.le_refl now)
  simp only [SlotCache.apply, SlotCache.resume, alike.calls, alike.lanes, found]
  split
  · exact ⟨rfl, alike⟩
  · split
    · exact alike.answer call _
    · exact ⟨rfl, alike.ttl, rfl, rfl, alike.fresh⟩
  · exact ⟨rfl, alike.ttl, rfl, rfl, alike.fresh⟩
  · split
    · split
      · exact alike.answer call _
      · exact ⟨rfl, alike.ttl, rfl, rfl, alike.fresh⟩
    · exact ⟨rfl, alike⟩
  · exact ⟨rfl, alike⟩
  · exact (alike.store _).answer call _
  · exact alike.answer call _

/-- Everything but a `get` shows the same in both. -/
theorem apply (alike : Alike now c d) (le : now ≤ t) {event : Event T E}
    (other : event.isGet = false) :
    (c.apply t event).2 = (d.apply t event).2 ∧
      Alike t (c.apply t event).1 (d.apply t event).1 := by
  have same := alike.later le
  cases event with
  | get => cases other
  | set value => exact ⟨rfl, same.store value⟩
  | clear => exact ⟨rfl, same.ttl, same.lanes, same.calls, fun _ _ => rfl⟩
  | update call => exact ⟨rfl, same.moveTo call _⟩
  | resume call => exact same.resume call
  | computed call result =>
      simp only [SlotCache.apply, same.calls]
      split
      · exact ⟨rfl, same.ttl, same.lanes, rfl, same.fresh⟩
      · exact ⟨rfl, same⟩
  | abort call => exact same.leave call

end Alike

/-- What a history shows beside the answers of its gets. -/
def outline (h : History T E) : List (Nat × Event T E × List (Notice T E)) :=
  (h.filter fun t => !t.event.isGet).map fun t => (t.now, t.event, t.notices)

/-- The events of a run beside its gets. -/
def withoutGets (events : List (Nat × Event T E)) : List (Nat × Event T E) :=
  events.filter fun e => !e.2.isGet

/-- A run shows what it would without its gets. -/
theorem outline_withoutGets {c d : SlotCache T E} {now : Nat} (alike : Alike now c d)
    {events : List (Nat × Event T E)} (forward : Machine.Forward events)
    (follows : ∀ e ∈ events, now ≤ e.1) :
    outline (Machine.history apply c events) =
        outline (Machine.history apply d (withoutGets events)) ∧
      ∀ later, now ≤ later → (∀ e ∈ events, e.1 ≤ later) →
        Alike later (Machine.final apply c events)
          (Machine.final apply d (withoutGets events)) := by
  induction events generalizing c d now with
  | nil => exact ⟨rfl, fun later le _ => alike.later le⟩
  | cons e rest ih =>
      obtain ⟨t, event⟩ := e
      obtain ⟨onward, ahead⟩ := forward.tail
      have le : now ≤ t := follows (t, event) List.mem_cons_self
      cases read : event.isGet with
      | true =>
          obtain rfl : event = .get := by
            cases event with
            | get => rfl
            | _ => cases read
          obtain ⟨shown, ends⟩ := ih (alike.get le) onward ahead
          refine ⟨?_, fun later _ bound => ?_⟩
          · simpa [outline, withoutGets, Machine.history, Machine.move, Event.isGet, apply_get]
              using shown
          · have after := ends later (bound (t, .get) List.mem_cons_self)
              fun e member => bound e (List.mem_cons_of_mem _ member)
            simpa [withoutGets, Machine.final, Event.isGet, apply_get] using after
      | false =>
          obtain ⟨told, next⟩ := alike.apply le read
          obtain ⟨shown, ends⟩ := ih next onward ahead
          refine ⟨?_, fun later _ bound => ?_⟩
          · simp only [outline, withoutGets] at shown
            simp [outline, withoutGets, Machine.history, Machine.move, read, told, shown]
          · have after := ends later (bound (t, event) List.mem_cons_self)
              fun e member => bound e (List.mem_cons_of_mem _ member)
            simpa [withoutGets, Machine.final, read] using after

/-! ## What this says of runs -/

/-- Every `get` finds a value exactly if the last write stored it and it is younger than the
lifetime. -/
def GetsLast (ttl : Nat) (h : History T E) : Prop :=
  ∀ past t future, h = past ++ t :: future → t.event = .get →
    ∃ found, t.notices = [.found found] ∧ ∀ value, found = some value ↔
      ∃ instant, LastStored past value instant ∧ t.now - instant < ttl

/-- No run that differs from a given one only in its gets shows anything else than that one: the
updates go the same way, and a `get` at the end has the same answer. -/
def ReadsUnseen (ttl : Nat) (events : List (Nat × Event T E)) : Prop :=
  ∀ others, Machine.Forward others → withoutGets others = withoutGets events →
    outline (Machine.history apply (empty ttl) others) =
        outline (Machine.history apply (empty ttl) events) ∧
      ∀ now, (∀ e ∈ others ++ events, e.1 ≤ now) →
        ((Machine.final apply (empty ttl) others).get now).2 =
          ((Machine.final apply (empty ttl) events).get now).2

/-- In every run the lifetime is the one that the cache was created with. -/
theorem ttl_of_run (ttl : Nat) (events : List (Nat × Event T E)) :
    (Machine.final apply (empty ttl : SlotCache T E) events).ttl = ttl :=
  Machine.final_induction apply (fun c => c.ttl = ttl) rfl
    (fun c now event same _ => (ttl_turn (turn_apply c now event)).trans same)
    (Machine.allows_true apply _ events)

/-- In every run a get finds the last write, as long as that is fresh. -/
theorem getsLast_of_run {ttl : Nat} {events : List (Nat × Event T E)}
    (forward : Machine.Forward events) :
    GetsLast ttl (Machine.history apply (empty ttl : SlotCache T E) events) := by
  intro past t future split read
  obtain ⟨earlier, now, event, later, rfl, rfl, rfl, -⟩ :=
    Machine.exists_of_history_eq_append apply split
  have before : ∀ u ∈ Machine.history apply (empty ttl) earlier, u.now ≤ now :=
    forward.le_before apply split
  obtain rfl : event = .get := read
  have tracks : Tracks (Machine.history apply (empty ttl) earlier) _ :=
    tracks_of_run forward.of_append
  refine ⟨(Machine.final apply (empty ttl) earlier).fresh now, ?_, fun value => ?_⟩
  · simp [Machine.move, apply_get]
  · rw [tracks.fresh_iff before, ttl_of_run]
    rfl

/-- In every run gets can be left out without any other answer changing. -/
theorem readsUnseen_of_run {ttl : Nat} {events : List (Nat × Event T E)}
    (forward : Machine.Forward events) : ReadsUnseen ttl events := by
  intro others ordered same
  have start := Alike.refl 0 (empty ttl : SlotCache T E)
  obtain ⟨shown, ends⟩ := outline_withoutGets start forward fun _ _ => Nat.zero_le _
  obtain ⟨shown', ends'⟩ := outline_withoutGets start ordered fun _ _ => Nat.zero_le _
  refine ⟨?_, fun now bound => ?_⟩
  · rw [shown', same, shown]
  · have here := ends now (Nat.zero_le _) fun e member => bound e (List.mem_append_right _ member)
    have there := ends' now (Nat.zero_le _) fun e member => bound e (List.mem_append_left _ member)
    rw [get_snd, get_snd, there.fresh now (Nat.le_refl _), same, here.fresh now (Nat.le_refl _)]

/-- In every run of a cache of one value at instants that do not decrease, whatever its lifetime and
however its calls overlap: a `get` finds exactly what the last write stored, as long as that is
younger than the lifetime; an update that fails, panics or is given up never touches the slot; and
gets can be added or left out without any other effect. -/
theorem refines_timestamped_slot (ttl : Nat) (events : List (Nat × Event T E))
    (forward : Machine.Forward events) :
    let h := Machine.history apply (empty ttl : SlotCache T E) events
    GetsLast ttl h ∧ FailuresKeep h ∧ ReadsUnseen ttl events :=
  ⟨getsLast_of_run forward, failuresKeep_of_run ttl events, readsUnseen_of_run forward⟩

/-- A value is set while another is computed; the computation fails; the value is found until it is
ten units old, and dropped then. -/
def failureBesideSet : List (Nat × Event Nat String) :=
  [(0, .update 1), (0, .resume 1), (0, .resume 1), (0, .resume 1), (2, .set 7),
    (3, .computed 1 (.error "offline")), (3, .resume 1), (11, .get), (12, .get), (13, .get)]

/-- A value is set while a computation that fails is under way, and stays. -/
theorem refines_timestamped_slot_of_failure_beside_set :
    let h := Machine.history apply (empty 10 : SlotCache Nat String) failureBesideSet
    Machine.Forward failureBesideSet ∧ LastStored h 7 2 ∧
      GetsLast 10 h ∧ FailuresKeep h ∧ ReadsUnseen 10 failureBesideSet := by
  have forward : Machine.Forward failureBesideSet := by decide
  refine ⟨forward, ?_, refines_timestamped_slot 10 failureBesideSet forward⟩
  exact ⟨_, _, _, (List.take_append_drop 4 _).symm, ⟨rfl, rfl⟩, by decide +kernel⟩

end CachedStreams.SlotCache
