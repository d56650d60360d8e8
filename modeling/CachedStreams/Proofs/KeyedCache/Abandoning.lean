import CachedStreams.Proofs.KeyedCache.Collapse

/-!
# Calls that are given up

A call can be given up at any moment, and it comes to the same if its generator breaks off. If it
asks for a result and has stored none by then, it never does, and nothing of the table changes
(`LeavesNoTrace`); if it has, the result is there to stay, and an entry that it displaced is with
the hook already (`KeepsStore`).

Whoever is given up leaves the line for its lane (`LeavesLine`). If it held the lane, the next in
line holds it from then on, and looks again as soon as it is resumed (`PassesOn`). That the next
one has not looked yet is the invariant `KeyedCache.InLine`: in the line for a lane nobody but the
holder has come further than to wait.
-/

set_option autoImplicit false

namespace CachedStreams

namespace Lanes

variable {l : Lanes} {lane : Nat} {call next : CallId}

/-- The calls in the line for a lane, first the one that holds it. -/
def queue (l : Lanes) (lane : Nat) : List CallId :=
  (l.requests.filter (·.2 == lane)).map (·.1)

/-- In the line for a lane is who has asked for it. -/
theorem mem_queue : call ∈ l.queue lane ↔ (call, lane) ∈ l.requests := by
  simp [queue]

/-- The first in the line for a lane holds it. -/
theorem head?_queue (l : Lanes) (lane : Nat) : (l.queue lane).head? = l.holder lane := by
  simp [queue, holder]

/-- Nobody else loses a place in line. -/
theorem queue_withdraw (l : Lanes) (call : CallId) (lane : Nat) :
    (l.withdraw call).queue lane = (l.queue lane).filter (· != call) := by
  simp [queue, withdraw, List.filter_map, Function.comp_def, Bool.and_comm]

/-- Nobody is in a line twice who has asked once. -/
theorem nodup_queue (once : (l.requests.map (·.1)).Nodup) (lane : Nat) : (l.queue lane).Nodup :=
  once.sublist (List.filter_sublist.map _)

/-- When the holder of a lane withdraws, whoever holds it then is let in. -/
theorem mem_admittedBy (holds : l.holder lane = some call)
    (after : (l.withdraw call).holder lane = some next) : next ∈ l.admittedBy call := by
  have asked : (call, lane) ∈ l.requests := by
    rw [← mem_queue]
    exact List.mem_of_mem_head? (Option.mem_def.mpr ((head?_queue l lane).trans holds))
  simp only [admittedBy, List.mem_filterMap, List.mem_map, List.mem_filter]
  exact ⟨lane, ⟨(call, lane), ⟨asked, beq_self_eq_true call⟩, rfl⟩,
    by simp [Lanes.holds, holds, after]⟩

end Lanes

namespace KeyedCache

variable {V E : Type}

/-! ## The line for a lane -/

/-- What a call that stands in line for a lane is doing: it waits, or it holds the lane. -/
inductive Stands (c : KeyedCache V E) (r : CallId × Nat) : Stage V E → Prop where
  | queued (key : String) (ttl : Nat) (lane : c.laneOf key = r.2) : Stands c r (.queued key ttl)
  | generating (key : String) (ttl : Nat) (holds : c.lanes.holder r.2 = some r.1) :
    Stands c r (.generating key ttl)
  | generated (key : String) (ttl : Nat) (result : Except E V)
    (holds : c.lanes.holder r.2 = some r.1) : Stands c r (.generated key ttl result)
  | evicting (reply : Reply V E) (holds : c.lanes.holder r.2 = some r.1) :
    Stands c r (.evicting (.reply reply))

/-- No call stands in line twice, and whoever stands there waits or holds the lane. -/
structure InLine (c : KeyedCache V E) : Prop where
  once : (c.lanes.requests.map (·.1)).Nodup
  stands : ∀ r ∈ c.lanes.requests, ∃ stage, c.stage? r.1 = some stage ∧ c.Stands r stage

section

variable {c d : KeyedCache V E} {now : Nat} {event : Event V E}
  {r : KeyedCache V E × List (Notice V E)}

/-- A key keeps its lane. -/
theorem laneOf_turn (turn : Turn c now event r) (key : String) : r.1.laneOf key = c.laneOf key := by
  rw [laneOf, laneOf, laneCount_turn turn]

/-- A call that stands in line still does in another cache, if keys have the same lanes there and
the call still holds the lane that it held. -/
theorem Stands.kept {q : CallId × Nat} {stage : Stage V E} (stands : c.Stands q stage)
    (sameLane : ∀ key, d.laneOf key = c.laneOf key)
    (holds : c.lanes.holder q.2 = some q.1 → d.lanes.holder q.2 = some q.1) :
    d.Stands q stage := by
  cases stands with
  | queued key ttl lane => exact .queued key ttl ((sameLane key).trans lane)
  | generating key ttl own => exact .generating key ttl (holds own)
  | generated key ttl result own => exact .generated key ttl result (holds own)
  | evicting reply own => exact .evicting reply (holds own)

namespace InLine

/-- In a new cache nobody stands in line. -/
theorem create (lanes : Nat) : InLine (create lanes : KeyedCache V E) :=
  ⟨List.nodup_nil, nofun⟩

/-- A call that is in line is at a stage at which it can be. -/
theorem stands_at (line : InLine c) {q : CallId × Nat} (member : q ∈ c.lanes.requests)
    {stage : Stage V E} (at_ : c.stage? q.1 = some stage) : c.Stands q stage := by
  obtain ⟨other, at', stands⟩ := line.stands q member
  cases at_.symm.trans at'
  exact stands

/-- After its turn a call that stands in line waits or holds the lane. -/
theorem stands_turn (line : InLine c) (turn : Turn c now event r)
    (fresh : ∀ request, event = .call event.subject request → c.stage? event.subject = none)
    {lane : Nat} (member : (event.subject, lane) ∈ r.1.lanes.requests) :
    ∃ stage, r.1.stage? event.subject = some stage ∧ r.1.Stands (event.subject, lane) stage := by
  cases turn with
  | begins call request =>
      obtain ⟨stage, at_, -⟩ := line.stands _ member
      cases (fresh request rfl).symm.trans at_
  | givesUp | gets | hits | removesNothing | endsSweep | replies =>
      simp [answer, leave, Lanes.withdraw, Event.subject] at member
  | waits | ignoresResult | ignoresHook => exact line.stands _ member
  | misses _ _ _ at_ | beginsSweep _ _ at_ | sweeps _ _ _ _ _ _ at_ | passes _ _ _ _ _ _ at_
  | sweepsOn _ _ _ _ at_ => cases line.stands_at member at_
  | removes _ _ _ _ _ at_ drops => cases drops <;> cases line.stands_at member at_
  | queues call key ttl at_ =>
      rcases List.mem_append.mp member with before | here
      · cases line.stands_at before at_
      · cases List.mem_singleton.mp here
        exact ⟨_, stage?_moveTo_self _ _, .queued key ttl rfl⟩
  | generates call key ttl at_ holds =>
      cases line.stands_at member at_ with
      | queued _ _ own =>
          subst own
          exact ⟨_, stage?_moveTo_self _ _, .generating key ttl (eq_of_beq holds)⟩
  | makes call key ttl result at_ =>
      cases line.stands_at member at_ with
      | generating _ _ own => exact ⟨_, stage?_moveTo_self _ _, .generated key ttl result own⟩
  | stores call key ttl at_ result reply stage brings =>
      cases displaced : c.table.find? key with
      | none =>
          rw [store_of_absent c now call displaced] at member
          simp [answer, leave, Lanes.withdraw, Event.subject] at member
      | some old =>
          rw [store_of_present c now call displaced] at member ⊢
          have stands := line.stands_at member stage
          refine ⟨_, stage?_moveTo_self _ _, .evicting reply ?_⟩
          cases brings with
          | given => cases stands
          | made => cases stands with | generated _ _ _ own => exact own

/-- A call joins the line at most once. -/
theorem once_turn (line : InLine c) (turn : Turn c now event r) :
    (r.1.lanes.requests.map (·.1)).Nodup := by
  cases turn with
  | queues call key ttl at_ =>
      have new : call ∉ c.lanes.requests.map (·.1) := by
        intro member
        obtain ⟨q, asked, rfl⟩ := List.mem_map.mp member
        cases line.stands_at asked at_
      simp only [moveTo, Lanes.request, List.map_append, List.map_singleton]
      exact List.nodup_append.mpr ⟨line.once, List.nodup_singleton call, by
        rintro other member _ here rfl
        exact new (List.mem_singleton.mp here ▸ member)⟩
  | givesUp | gets | hits | removesNothing | endsSweep | replies =>
      exact line.once.sublist (List.filter_sublist.map _)
  | stores call key ttl at_ result reply =>
      cases displaced : c.table.find? key with
      | none =>
          rw [store_of_absent c now call displaced]
          exact line.once.sublist (List.filter_sublist.map _)
      | some old =>
          rw [store_of_present c now call displaced]
          exact line.once
  | _ => exact line.once

/-- An event leaves everybody in line who waits or holds the lane, once. -/
theorem apply (line : InLine c) (now : Nat) (event : Event V E)
    (fresh : ∀ request, event = .call event.subject request → c.stage? event.subject = none) :
    InLine (c.apply now event).1 := by
  have turn := turn_apply c now event
  have moves := laneMove_turn turn
  have others : ∀ {other}, other ≠ event.subject →
      (c.apply now event).1.stage? other = c.stage? other := stage?_apply_of_ne c now
  generalize c.apply now event = r at turn moves others ⊢
  refine ⟨line.once_turn turn, fun q member => ?_⟩
  by_cases own : q.1 = event.subject
  · obtain ⟨call, lane⟩ := q
    subst own
    exact line.stands_turn turn fresh member
  · have before : q ∈ c.lanes.requests := by
      cases moves with
      | keeps same => exact same ▸ member
      | asks lane asked =>
          rw [asked] at member
          refine (List.mem_append.mp member).resolve_right fun here => own ?_
          exact congrArg Prod.fst (List.mem_singleton.mp here)
      | withdraws withdrawn =>
          rw [withdrawn] at member
          exact (List.mem_filter.mp member).1
    obtain ⟨stage, at_, stands⟩ := line.stands q before
    exact ⟨stage, (others own).trans at_,
      stands.kept (laneOf_turn turn) (Orderly.holder_kept moves own)⟩

end InLine

end

/-- In every run whose calls have names of their own, whoever stands in line waits or holds the
lane. -/
theorem inLine_of_run (lanes : Nat) {events : List (Nat × Event V E)}
    (named : Named (Machine.history apply (create lanes) events)) :
    InLine (Machine.final apply (create lanes : KeyedCache V E) events) := by
  refine (Machine.history_induction apply
    (fun past c => Named past → Recorded past c ∧ InLine c)
    (fun _ => ⟨.create lanes, .create lanes⟩) ?_ (Machine.allows_true apply _ events) named).2
  intro past c now event before _ named
  obtain ⟨recorded, line⟩ := before named.of_append
  refine ⟨recorded.apply now event named, line.apply now event fun request begins => ?_⟩
  cases stage : c.stage? event.subject with
  | none => rfl
  | some at_ => exact absurd (recorded.told _ at_ stage).begun (named.new begins)

/-! ## Nothing more from a call -/

section

variable {c : KeyedCache V E} {now : Nat} {event : Event V E} {call : CallId}

/-- A call that is over stays so. -/
theorem gone_apply (gone : c.stage? call = none) (now : Nat)
    (goesOn : ∀ request, event ≠ .call call request) :
    (c.apply now event).1.stage? call = none := by
  by_cases own : call = event.subject
  · subst own
    have turn := turn_apply c now event
    generalize c.apply now event = r at turn ⊢
    cases turn with
    | begins call request => exact absurd rfl (goesOn request)
    | givesUp | gets | hits | removesNothing | endsSweep | replies => simp [Event.subject]
    | waits | ignoresResult | ignoresHook => exact gone
    | misses _ _ _ at_ | queues _ _ _ at_ | generates _ _ _ at_ | stores _ _ _ _ _ _ at_
    | removes _ _ _ _ _ at_ | beginsSweep _ _ at_ | sweeps _ _ _ _ _ _ at_
    | passes _ _ _ _ _ _ at_ | makes _ _ _ _ at_ | sweepsOn _ _ _ _ at_ =>
        cases gone.symm.trans at_
  · rwa [stage?_apply_of_ne c now own]

/-- Whatever goes to the hook goes there in the name of a call that stores, removes or sweeps. -/
theorem evicting_of_mem {key : String} {entry : Entry V E}
    (evicts : .evict call key entry ∈ (c.apply now event).2) :
    ∃ stage, c.stage? call = some stage ∧
      ((∃ ttl result reply new, stage.Brings key ttl result reply ∧
          .stored call key new ∈ (c.apply now event).2) ∨
        (∃ test, stage.Drops key test) ∨
        ∃ rest count sweep, stage = .sweeping rest count sweep) := by
  have turn := turn_apply c now event
  generalize c.apply now event = r at turn evicts ⊢
  cases turn with
  | begins | misses | queues | beginsSweep | passes | makes | sweepsOn => cases evicts
  | waits | ignoresResult | ignoresHook => cases evicts
  | generates => simp at evicts
  | givesUp => simp [leave] at evicts
  | gets | hits | removesNothing | endsSweep | replies => simp [mem_answer] at evicts
  | stores other name ttl at_ result reply stage brings =>
      obtain ⟨-, rfl, rfl, -⟩ : c.table.find? name = some entry ∧ call = other ∧ key = name ∧
          True := by
        rcases mem_store.mp evicts with stored | ⟨old, present, same⟩ | ⟨-, answered⟩
        · cases stored
        · cases same
          exact ⟨present, rfl, rfl, trivial⟩
        · simp [mem_answer] at answered
      exact ⟨at_, stage, .inl ⟨ttl, result, reply, _, brings, mem_store.mpr (.inl rfl)⟩⟩
  | removes other name test at_ old stage drops =>
      cases List.mem_singleton.mp evicts
      exact ⟨at_, stage, .inr (.inl ⟨test, drops⟩)⟩
  | sweeps other name old rest count sweep stage =>
      cases List.mem_singleton.mp evicts
      exact ⟨_, stage, .inr (.inr ⟨_, count, sweep, rfl⟩)⟩

/-- A call that has no more to bring neither stores nor removes anything. -/
theorem Spent.silent (spent : Spent call c) {key : String} {entry : Entry V E} :
    .stored call key entry ∉ (c.apply now event).2 ∧
      .evict call key entry ∉ (c.apply now event).2 := by
  refine ⟨fun stores => ?_, fun evicts => ?_⟩
  · obtain ⟨stage, ttl, result, reply, -, at_, brings, -⟩ := brings_of_stored stores
    obtain ⟨reply, rfl⟩ := spent stage at_
    cases brings
  · obtain ⟨stage, at_, reason⟩ := evicting_of_mem evicts
    obtain ⟨reply, rfl⟩ := spent stage at_
    rcases reason with ⟨_, _, _, _, brings, -⟩ | ⟨test, drops⟩ | ⟨rest, count, sweep, same⟩
    · cases brings
    · cases drops
    · cases same

/-- A call that is over has no more to bring. -/
theorem Spent.of_gone (gone : c.stage? call = none) : Spent call c := fun stage at_ => by
  cases gone.symm.trans at_

/-- A call that stores has no more to bring. -/
theorem Spent.of_stored {key : String} {entry : Entry V E}
    (stored : .stored call key entry ∈ (c.apply now event).2) :
    Spent call (c.apply now event).1 := by
  obtain ⟨stage, ttl, result, reply, -, -, -, -, stores⟩ := brings_of_stored stored
  intro after reached
  rw [stores, stage?_store_self, Option.map_eq_some_iff] at reached
  obtain ⟨old, -, rfl⟩ := reached
  exact ⟨reply, rfl⟩

end

/-! ## The first in line -/

/-- A call that waits holds the lane of its key and has not looked again. -/
structure MayLook (c : KeyedCache V E) (call : CallId) (key : String) (ttl : Nat) : Prop where
  queued : c.stage? call = some (.queued key ttl)
  holds : c.lanes.holder (c.laneOf key) = some call

/-- A call that takes a step looks its key up: it has its own generator started if there is nothing
live, and is answered with what there is otherwise. -/
structure LooksAgain (u : Move (KeyedCache V E) (Event V E) (Notice V E)) (call : CallId)
    (key : String) : Prop where
  generates : u.before.table.lookup u.now key = none → u.notices = [.generate call key]
  finds : ∀ result, u.before.table.lookup u.now key = some result →
    .answered call (.result result) ∈ u.notices

namespace MayLook

variable {c : KeyedCache V E} {call : CallId} {key : String} {ttl : Nat}

/-- Nothing but its own step, or its end, changes that. -/
theorem apply (may : MayLook c call key ttl) (now : Nat) {event : Event V E}
    (waits : event ≠ .resume call ∧ event ≠ .abort call)
    (goesOn : ∀ request, event ≠ .call call request) :
    MayLook (c.apply now event).1 call key ttl := by
  have turn := turn_apply c now event
  have sameLane := laneOf_turn turn key
  by_cases own : call = event.subject
  · subst own
    generalize c.apply now event = r at turn sameLane ⊢
    cases turn with
    | begins call request => exact absurd rfl (goesOn request)
    | givesUp => exact absurd rfl waits.2
    | ignoresResult | ignoresHook => exact may
    | makes _ _ _ _ at_ | replies _ _ at_ | sweepsOn _ _ _ _ at_ =>
        cases may.queued.symm.trans at_
    | _ => exact absurd rfl waits.1
  · refine ⟨(stage?_apply_of_ne c now own).trans may.queued, ?_⟩
    rw [sameLane]
    exact Orderly.holder_kept (laneMove_turn turn) own may.holds

/-- A call that has come to the head of the line looks again in its next step. -/
theorem looksAgain (may : MayLook c call key ttl) (now : Nat) :
    LooksAgain (Machine.move KeyedCache.apply c now (.resume call)) call key := by
  have holds : c.lanes.holds call (c.laneOf key) = true := beq_iff_eq.mpr may.holds
  refine ⟨fun absent => ?_, fun result found => ?_⟩
  · exact congrArg Prod.snd (apply_resume_of_queued c now may.queued holds absent)
  · simp only [Machine.move, apply_resume_of_held c now may.queued holds found]
    exact mem_answer.mpr (.inr rfl)

end MayLook

/-! ## What is left of a call that is given up -/

/-- A call that asks for a result is given up, or its generator breaks off, before it has stored
one. -/
structure Abandons (past : History V E) (t : Move (KeyedCache V E) (Event V E) (Notice V E))
    (call : CallId) : Prop where
  givesUp : t.event = .abort call
  asked : ∃ key ttl, (call, .getOrUpdate key ttl) ∈ begunIn past
  unstored : ∀ u ∈ past, ∀ key entry, .stored call key entry ∉ u.notices

/-- Neither is anything stored nor does the hook get anything in the name of a call. -/
def Silent (call : CallId) (h : History V E) : Prop :=
  ∀ u ∈ h, ∀ key entry, .stored call key entry ∉ u.notices ∧ .evict call key entry ∉ u.notices

/-- A call that is given up without a result changes nothing but its own place: not then, not before
and not later. -/
def LeavesNoTrace (h : History V E) : Prop :=
  ∀ past t future call, h = past ++ t :: future → Abandons past t call →
    (t.after.table = t.before.table ∧ t.after.nextSeq = t.before.nextSeq ∧
      ∀ other, other ≠ call → t.after.stage? other = t.before.stage? other) ∧ Silent call h

/-- A call that is given up leaves the line for its lane, for good, and nobody else does. -/
def LeavesLine (h : History V E) : Prop :=
  ∀ past t future call, h = past ++ t :: future → t.event = .abort call →
    call ∈ (begunIn past).map (·.1) →
      (∀ lane, t.after.lanes.queue lane = (t.before.lanes.queue lane).filter (· != call)) ∧
        ∀ u ∈ t :: future, ∀ lane, call ∉ u.after.lanes.queue lane

/-- When the holder of a lane is given up, the next in line is let in, and its next step is to look
again, whatever happens until then. -/
def PassesOn (h : History V E) : Prop :=
  ∀ past t future call next lane rest, h = past ++ t :: future → t.event = .abort call →
    t.before.lanes.queue lane = call :: next :: rest →
      .admitted next ∈ t.notices ∧ t.after.lanes.queue lane = next :: rest ∧
        ∃ key ttl, t.after.laneOf key = lane ∧ (next, .getOrUpdate key ttl) ∈ begunIn past ∧
          ∀ mid u later, future = mid ++ u :: later →
            (∀ v ∈ mid, v.event ≠ .resume next ∧ v.event ≠ .abort next) →
              u.event = .resume next → LooksAgain u next key

/-- When a call is given up that has stored a result, that stays, unless another call has removed or
replaced it already; what it displaced went to the hook with the store. -/
def KeepsStore (h : History V E) : Prop :=
  ∀ past s mid t future call key entry, h = past ++ s :: (mid ++ t :: future) →
    .stored call key entry ∈ s.notices → t.event = .abort call →
      (s.after.table.find? key = some entry ∧
        ∀ old, s.before.table.find? key = some old → .evict call key old ∈ s.notices) ∧
      (t.before.table.find? key = some entry ∨
        ∃ u ∈ mid, ∃ other, other ≠ call ∧ .evict other key entry ∈ u.notices) ∧
      t.after.table = t.before.table ∧ Silent call (mid ++ t :: future)

section

variable {lanes : Nat} {events : List (Nat × Event V E)}

/-- A call that has no more to bring after a move is silent from then on. -/
theorem silent_of_spent {past future : History V E}
    {t : Move (KeyedCache V E) (Event V E) (Notice V E)} {call : CallId}
    (split : Machine.history apply (create lanes) events = past ++ t :: future)
    (goesOn : ∀ u ∈ future, ∀ request, u.event ≠ .call call request)
    (spent : Spent call t.after) : Silent call future := by
  intro u member key entry
  obtain ⟨between, rest, rfl⟩ := List.append_of_mem member
  have here : Machine.history apply (create lanes) events =
      (past ++ t :: between) ++ u :: rest := by simp [split]
  have before : Spent call u.before :=
    spent_stays split (fun v within => goesOn v (by simp [within])) spent
  rw [Machine.notices_of_history apply here]
  exact before.silent

/-- A call that is given up is over at once. -/
theorem gone_of_abort {past future : History V E}
    {t : Move (KeyedCache V E) (Event V E) (Notice V E)} {call : CallId}
    (split : Machine.history apply (create lanes) events = past ++ t :: future)
    (givesUp : t.event = .abort call) : t.after.stage? call = none := by
  rw [Machine.after_of_history apply split, givesUp]
  exact stage?_leave_self _

/-- The notices of a call that is given up only let others in. -/
theorem silent_of_abort {past future : History V E}
    {t : Move (KeyedCache V E) (Event V E) (Notice V E)} {call : CallId}
    (split : Machine.history apply (create lanes) events = past ++ t :: future)
    (givesUp : t.event = .abort call) : Silent call [t] := by
  intro u member key entry
  obtain rfl := List.mem_singleton.mp member
  rw [Machine.notices_of_history apply split, givesUp]
  constructor <;> simp [apply, leave]

variable (named : Named (Machine.history apply (create lanes) events))

include named

/-- A call that has begun goes on: no later event is its beginning. -/
theorem goesOn_of_begun {past future : History V E} {call : CallId}
    (split : Machine.history apply (create lanes) events = past ++ future)
    (begun : call ∈ (begunIn past).map (·.1)) :
    ∀ u ∈ future, ∀ request, u.event ≠ .call call request := by
  intro u member request begins
  rw [split] at named
  exact named.not_again begun (List.mem_map_of_mem (mem_begunIn.mpr ⟨u, member, begins⟩))

/-- A call that asks for a result hands something to the hook only when it stores. -/
theorem silent_of_unstored {past future : History V E} {call : CallId} {key : String} {ttl : Nat}
    (split : Machine.history apply (create lanes) events = past ++ future)
    (asked : (call, .getOrUpdate key ttl) ∈ begunIn past)
    (unstored : ∀ u ∈ past, ∀ key entry, .stored call key entry ∉ u.notices) :
    Silent call past := by
  intro u member name entry
  refine ⟨unstored u member name entry, fun evicts => ?_⟩
  obtain ⟨before, rest, rfl⟩ := List.append_of_mem member
  have here : Machine.history apply (create lanes) events = before ++ u :: (rest ++ future) := by
    simp [split]
  obtain ⟨earlier, rfl, same⟩ := Machine.exists_run_before apply here
  have namedPast : Named (Machine.history apply (create lanes : KeyedCache V E) earlier) :=
    Named.of_append (here ▸ named)
  have recorded := recorded_of_run lanes namedPast
  rw [← same] at recorded
  -- What the call had asked for by the time of this move is all that it ever asks for.
  have only : ∀ {request},
      (call, request) ∈ begunIn (Machine.history apply (create lanes) earlier) →
        request = .getOrUpdate key ttl := by
    intro request known
    rw [split] at named
    have early : (call, request) ∈ begunIn
        (Machine.history apply (create lanes) earlier ++ u :: rest ++ future) := by
      rw [begunIn_append, begunIn_append]
      exact List.mem_append_left _ (List.mem_append_left _ known)
    refine named.unique early ?_
    rw [begunIn_append]
    exact List.mem_append_left _ asked
  have moved := Machine.notices_of_history apply here
  rw [moved] at evicts
  obtain ⟨stage, at_, ⟨-, -, -, new, -, stores⟩ | ⟨test, drops⟩ | ⟨_, count, sweep, rfl⟩⟩ :=
    evicting_of_mem evicts
  · exact unstored u (by simp) name new (moved ▸ stores)
  · have told := recorded.told call stage at_
    cases drops <;> cases only told.1
  · have told := recorded.told call _ at_
    cases sweep <;> cases only told

/-- In every run a call that was given up stores and removes nothing any more. -/
theorem leavesNoTrace_of_run :
    LeavesNoTrace (Machine.history apply (create lanes : KeyedCache V E) events) := by
  intro past t future call split abandons
  obtain ⟨key, ttl, asked⟩ := abandons.asked
  have begun : call ∈ (begunIn past).map (·.1) := List.mem_map_of_mem asked
  have after := Machine.after_of_history apply split
  refine ⟨?_, ?_⟩
  · rw [after, abandons.givesUp]
    exact ⟨rfl, rfl, fun other ne => stage?_leave_of_ne _ ne⟩
  · have later := silent_of_spent split
      (fun u member => goesOn_of_begun named split begun u (by simp [member]))
      (.of_gone (gone_of_abort split abandons.givesUp))
    have before := silent_of_unstored named split asked abandons.unstored
    have here := silent_of_abort split abandons.givesUp
    rw [split]
    intro u member
    rcases List.mem_append.mp member with early | late
    · exact before u early
    · rcases List.mem_cons.mp late with rfl | late
      · exact here u (List.mem_singleton.mpr rfl)
      · exact later u late

/-- In every run a call that was given up leaves the line for its lane, and nobody else does. -/
theorem leavesLine_of_run :
    LeavesLine (Machine.history apply (create lanes : KeyedCache V E) events) := by
  intro past t future call split givesUp begun
  refine ⟨fun lane => ?_, fun u member lane waits => ?_⟩
  · rw [Machine.after_of_history apply split, givesUp]
    exact Lanes.queue_withdraw t.before.lanes call lane
  · have goesOn := goesOn_of_begun named split begun
    have gone : u.after.stage? call = none := by
      rcases List.mem_cons.mp member with rfl | member
      · exact gone_of_abort split givesUp
      · obtain ⟨between, rest, rfl⟩ := List.append_of_mem member
        have here : Machine.history apply (create lanes) events =
            (past ++ t :: between) ++ u :: rest := by simp [split]
        have before : u.before.stage? call = none :=
          Machine.stretch_induction apply (fun _ c => c.stage? call = none) split
            (gone_of_abort split givesUp) fun seen v later same there gone => by
              rw [Machine.after_of_history apply there]
              exact gone_apply gone v.now (goesOn v (by simp [same]))
        rw [Machine.after_of_history apply here]
        exact gone_apply before u.now (goesOn u (by simp))
    obtain ⟨earlier, later, cut⟩ := List.append_of_mem member
    have here : Machine.history apply (create lanes) events = (past ++ earlier) ++ u :: later := by
      simp [split, cut]
    obtain ⟨run, -, same⟩ := Machine.exists_run_after apply here
    have orderly : Orderly lanes u.after := same ▸ orderly_of_run lanes run
    exact orderly.present _ (Lanes.mem_queue.mp waits) gone

/-- When the holder of a lane is given up, the next in line holds it and has not looked yet. -/
theorem mayLook_of_abort {past future : History V E}
    {t : Move (KeyedCache V E) (Event V E) (Notice V E)} {call next : CallId} {lane : Nat}
    {rest : List CallId} (split : Machine.history apply (create lanes) events = past ++ t :: future)
    (givesUp : t.event = .abort call)
    (queue : t.before.lanes.queue lane = call :: next :: rest) :
    (.admitted next ∈ t.notices ∧ t.after.lanes.queue lane = next :: rest) ∧
      ∃ key ttl, t.after.laneOf key = lane ∧ (next, .getOrUpdate key ttl) ∈ begunIn past ∧
        MayLook t.after next key ttl := by
  have after := Machine.after_of_history apply split
  have notices := Machine.notices_of_history apply split
  obtain ⟨earlier, rfl, same⟩ := Machine.exists_run_before apply split
  have namedPast : Named (Machine.history apply (create lanes : KeyedCache V E) earlier) :=
    Named.of_append (split ▸ named)
  have recorded := recorded_of_run lanes namedPast
  have line := inLine_of_run lanes namedPast
  rw [← same] at recorded line
  generalize t.before = c at after notices recorded line queue
  rw [givesUp] at after notices
  rw [after, notices]
  have once := Lanes.nodup_queue line.once lane
  rw [queue, List.nodup_cons] at once
  have ne : next ≠ call := fun same => once.1 (by simp [same])
  have left : (c.lanes.withdraw call).queue lane = next :: rest := by
    rw [Lanes.queue_withdraw, queue, List.filter_cons_of_neg (by simp), List.filter_eq_self]
    intro other member
    exact bne_iff_ne.mpr fun same => once.1 (by rwa [← same])
  have holder : c.lanes.holder lane = some call := by rw [← Lanes.head?_queue, queue]; rfl
  have holder' : (c.lanes.withdraw call).holder lane = some next := by
    rw [← Lanes.head?_queue, left]; rfl
  have waiting : (next, lane) ∈ c.lanes.requests := Lanes.mem_queue.mp (by simp [queue])
  obtain ⟨stage, at_, stands⟩ := line.stands _ waiting
  have told := recorded.told next stage at_
  refine ⟨⟨List.mem_map_of_mem (Lanes.mem_admittedBy holder holder'), left⟩, ?_⟩
  cases stands with
  | queued key ttl own =>
      subst own
      exact ⟨key, ttl, rfl, told.1, (stage?_leave_of_ne c ne).trans at_, holder'⟩
  | generating _ _ own | generated _ _ _ own | evicting _ own =>
      exact absurd (Option.some.inj (holder.symm.trans own)).symm ne

/-- In every run the next in line looks again in its next step after the holder of the lane was
given up. -/
theorem passesOn_of_run :
    PassesOn (Machine.history apply (create lanes : KeyedCache V E) events) := by
  intro past t future call next lane rest split givesUp queue
  obtain ⟨⟨admitted, left⟩, key, ttl, own, asked, may⟩ :=
    mayLook_of_abort named split givesUp queue
  refine ⟨admitted, left, key, ttl, own, asked, fun mid u later cut waits resumed => ?_⟩
  subst cut
  have goesOn := goesOn_of_begun named split (List.mem_map_of_mem asked)
  have here : MayLook u.before next key ttl :=
    Machine.stretch_induction apply (fun _ c => MayLook c next key ttl) split may
      fun seen v rest same there may => by
        rw [Machine.after_of_history apply there]
        exact may.apply v.now (waits v (by simp [same])) (goesOn v (by simp [same]))
  have there : Machine.history apply (create lanes) events =
      (past ++ t :: mid) ++ u :: later := by simp [split]
  rw [Machine.eq_move_of_history apply there, resumed]
  exact here.looksAgain u.now

/-- In every run what a call has stored stays if the call is given up while it waits for the hook.
-/
theorem keepsStore_of_run :
    KeepsStore (Machine.history apply (create lanes : KeyedCache V E) events) := by
  intro past s mid t future call key entry split stores givesUp
  have moved := Machine.notices_of_history apply split
  have after := Machine.after_of_history apply split
  obtain ⟨earlier, rfl, same⟩ := Machine.exists_run_before apply split
  have namedPast : Named (Machine.history apply (create lanes : KeyedCache V E) earlier) :=
    Named.of_append (split ▸ named)
  have recorded := recorded_of_run lanes namedPast
  rw [← same] at recorded
  rw [moved] at stores ⊢
  obtain ⟨stage, ttl, result, reply, resumed, at_, -, -, stored⟩ := brings_of_stored stores
  have begun : call ∈ (begunIn (Machine.history apply (create lanes) earlier)).map (·.1) :=
    (recorded.told call stage at_).begun
  have goesOn := goesOn_of_begun named split begun
  have spent : Spent call s.after := after ▸ Spent.of_stored stores
  have silent := silent_of_spent split (fun u member => goesOn u (by simp [member])) spent
  refine ⟨⟨?_, fun old displaced => ?_⟩, ?_, ?_, silent⟩
  · rw [after]
    exact (held_of_stored s.before s.now s.event (mem_storedIn.mpr ⟨call, stores⟩)).1
  · rw [stored]
    exact mem_store.mpr (.inr (.inl ⟨old, displaced, rfl⟩))
  · refine Machine.stretch_induction apply (fun between c => c.table.find? key = some entry ∨
      ∃ u ∈ between, ∃ other, other ≠ call ∧ .evict other key entry ∈ u.notices) split ?_ ?_
    · rw [after]
      exact .inl (held_of_stored s.before s.now s.event (mem_storedIn.mpr ⟨call, stores⟩)).1
    · rintro between v rest same there (held | ⟨u, member, other, ne, evicts⟩)
      · rw [Machine.after_of_history apply there]
        refine (held_or_evicted v.before v.now v.event held).imp_right fun evicted => ?_
        obtain ⟨other, evicts⟩ := mem_evictedIn.mp evicted
        rw [← Machine.notices_of_history apply there] at evicts
        refine ⟨v, by simp, other, ?_, evicts⟩
        rintro rfl
        exact (silent v (by simp [same]) key entry).2 evicts
      · exact .inr ⟨u, by simp [member], other, ne, evicts⟩
  · have there : Machine.history apply (create lanes) events =
        (Machine.history apply (create lanes) earlier ++ s :: mid) ++ t :: future := by
      simp [split]
    rw [Machine.after_of_history apply there, givesUp]
    rfl

end

/-- A call that asks for a result and is given up, or whose generator breaks off, before it has
stored one leaves nothing behind but its place in line, which the next one takes to look again; if
it has stored one, that stays, and what it displaced is with the hook. -/
theorem abandoned_calls_leave_no_trace (lanes : Nat) (events : List (Nat × Event V E))
    (named : Named (Machine.history apply (create lanes) events)) :
    let h := Machine.history apply (create lanes : KeyedCache V E) events
    LeavesNoTrace h ∧ LeavesLine h ∧ PassesOn h ∧ KeepsStore h :=
  ⟨leavesNoTrace_of_run named, leavesLine_of_run named, passesOn_of_run named,
    keepsStore_of_run named⟩

/-- Three calls ask for one key. The generator of the first breaks off and the third is given up in
the line; the second has its own generator started, and is given up while the hook runs on the entry
that its result displaced. -/
def givenUp : List (Nat × Event Nat String) :=
  [(0, .call 0 (.set "k" 1 5)), (0, .resume 0)] ++ asking 1 "k" 100 2 2 2 2 ++
    asking 2 "k" 100 3 3 3 3 ++ asking 3 "k" 100 4 4 4 4 ++
    [(5, .abort 3), (6, .abort 1), (6, .resume 2)] ++ making 2 (.error "no") 8 ++ [(9, .abort 2)]

/-- Of the three calls two have their generators started, and only the result of the second is left
behind. -/
theorem abandoned_calls_leave_no_trace_of_given_up :
    let h := Machine.history apply (create 4 : KeyedCache Nat String) givenUp
    let c := Machine.final apply (create 4 : KeyedCache Nat String) givenUp
    Named h ∧ (started h = [(1, "k"), (2, "k")] ∧ c.table.size = 1 ∧ c.lanes.requests = [] ∧
      (evictedIn (Machine.noticesOf h)).map (·.2.seq) = [0]) ∧
      LeavesNoTrace h ∧ LeavesLine h ∧ PassesOn h ∧ KeepsStore h := by
  intro h c
  have named : Named h := by decide +kernel
  exact ⟨named, by decide +kernel, abandoned_calls_leave_no_trace 4 givenUp named⟩

end KeyedCache

end CachedStreams
