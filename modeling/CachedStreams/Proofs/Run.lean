import Mathlib.Data.List.Basic

/-!
# Runs of a machine

Every machine of this library takes a state, an instant and an event to the next state and to what
it makes known. A run is a list of timed events; `Machine.final` is the state it ends in and
`Machine.history` the list of its moves, each with the states around it. What surroundings can do
is a predicate on a state and an event, and `Machine.Allows` says that a whole run respects it.

`Machine.history_induction` is the one induction over runs: a fact about the past and the present
state that holds at the start and survives every allowed move holds after every allowed run.
`Machine.stretch_induction` is its form for the stretch between two moves of a run, and
`Machine.exists_of_history_eq_append` cuts a run at any of its moves.
-/

set_option autoImplicit false

namespace CachedStreams

/-- What happened last of a kind in a list that has grown by one: that one, or what it was before,
if that one does not undo it. -/
theorem exists_last_snoc {α : Type} {P : List α → α → Prop} {Q : α → Prop} {h : List α} {t : α} :
    (∃ past u future, h ++ [t] = past ++ u :: future ∧ P past u ∧ ∀ v ∈ future, Q v) ↔
      P h t ∨ (∃ past u future, h = past ++ u :: future ∧ P past u ∧ ∀ v ∈ future, Q v) ∧ Q t := by
  constructor
  · rintro ⟨past, u, future, split, here, after⟩
    rcases List.eq_nil_or_concat' future with rfl | ⟨between, last, rfl⟩
    · obtain ⟨rfl, same⟩ := List.append_inj' split rfl
      cases same
      exact .inl here
    · rw [← List.cons_append, ← List.append_assoc] at split
      obtain ⟨rfl, same⟩ := List.append_inj' split rfl
      cases same
      exact .inr ⟨⟨past, u, between, rfl, here, fun v member => after v (by simp [member])⟩,
        after t (by simp)⟩
  · rintro (here | ⟨⟨past, u, future, rfl, here, after⟩, last⟩)
    · exact ⟨h, t, [], rfl, here, nofun⟩
    · refine ⟨past, u, future ++ [t], by simp, here, fun v member => ?_⟩
      rcases List.mem_append.mp member with before | own
      · exact after v before
      · rwa [List.mem_singleton.mp own]

/-- What an event at an instant does to a state, and what it makes known. -/
abbrev Machine (σ ε ν : Type) := σ → Nat → ε → σ × List ν

/-- One event of a run, with the states around it and what it made known. -/
structure Move (σ ε ν : Type) where
  before : σ
  now : Nat
  event : ε
  notices : List ν
  after : σ

namespace Machine

variable {σ ε ν : Type} (m : Machine σ ε ν)

/-- The move that an event makes from a state. -/
def move (s : σ) (now : Nat) (event : ε) : Move σ ε ν :=
  ⟨s, now, event, (m s now event).2, (m s now event).1⟩

/-- The state in which a run ends. -/
def final (s : σ) : List (Nat × ε) → σ
  | [] => s
  | (now, event) :: rest => final (m s now event).1 rest

/-- The moves of a run, in order. -/
def history (s : σ) : List (Nat × ε) → List (Move σ ε ν)
  | [] => []
  | (now, event) :: rest => m.move s now event :: history (m s now event).1 rest

/-- Every event of a run is one that the surroundings can cause where it happens. -/
def Allows (possible : σ → ε → Prop) (s : σ) : List (Nat × ε) → Prop
  | [] => True
  | (now, event) :: rest => possible s event ∧ Allows possible (m s now event).1 rest

instance decidableAllows (possible : σ → ε → Prop) [∀ s e, Decidable (possible s e)] :
    ∀ (events : List (Nat × ε)) (s : σ), Decidable (m.Allows possible s events)
  | [], _ => isTrue trivial
  | (now, event) :: rest, s =>
    have := decidableAllows possible rest (m s now event).1
    inferInstanceAs (Decidable (possible s event ∧ m.Allows possible (m s now event).1 rest))

/-- Every run is among those that a condition without content allows. -/
theorem allows_true (s : σ) (events : List (Nat × ε)) :
    m.Allows (fun _ _ => True) s events := by
  induction events generalizing s with
  | nil => trivial
  | cons e rest ih => exact ⟨trivial, ih _⟩

/-- A run is allowed if each of its moves is. -/
theorem allows_of_history {possible : σ → ε → Prop} {s : σ} {events : List (Nat × ε)}
    (h : ∀ t ∈ m.history s events, possible t.before t.event) : m.Allows possible s events := by
  induction events generalizing s with
  | nil => trivial
  | cons e rest ih =>
      obtain ⟨now, event⟩ := e
      exact ⟨h _ List.mem_cons_self, ih fun t member => h t (List.mem_cons_of_mem _ member)⟩

/-- Whatever a condition allows, a weaker one allows too. -/
theorem Allows.mono {possible weaker : σ → ε → Prop} (weakens : ∀ s e, possible s e → weaker s e)
    {s : σ} {events : List (Nat × ε)} (h : m.Allows possible s events) :
    m.Allows weaker s events := by
  induction events generalizing s with
  | nil => trivial
  | cons e rest ih => exact ⟨weakens s e.2 h.1, ih h.2⟩

/-- Everything that the moves of a history made known, in order. -/
def noticesOf (h : List (Move σ ε ν)) : List ν := h.flatMap (·.notices)

/-- The notices of two stretches are those of the first, followed by those of the second. -/
@[simp] theorem noticesOf_append (h k : List (Move σ ε ν)) :
    noticesOf (h ++ k) = noticesOf h ++ noticesOf k := List.flatMap_append

/-- The notices of a history begin with those of its first move. -/
theorem noticesOf_cons (t : Move σ ε ν) (h : List (Move σ ε ν)) :
    noticesOf (t :: h) = t.notices ++ noticesOf h := List.flatMap_cons

/-- The notices of a run begin with those of its first event. -/
theorem noticesOf_history_cons (s : σ) (now : Nat) (event : ε) (rest : List (Nat × ε)) :
    noticesOf (m.history s ((now, event) :: rest)) =
      (m s now event).2 ++ noticesOf (m.history (m s now event).1 rest) :=
  noticesOf_cons _ _

/-- The notices of a single move are its own. -/
@[simp] theorem noticesOf_singleton (t : Move σ ε ν) : noticesOf [t] = t.notices := by
  simp [noticesOf]

/-- A run is allowed if its beginning is, and its rest from where the beginning has led. -/
theorem allows_append {possible : σ → ε → Prop} (s : σ) (events later : List (Nat × ε)) :
    m.Allows possible s (events ++ later) ↔
      m.Allows possible s events ∧ m.Allows possible (m.final s events) later := by
  induction events generalizing s with
  | nil => simp [Allows, final]
  | cons e rest ih =>
      obtain ⟨now, event⟩ := e
      simp only [List.cons_append, Allows, final, ih, and_assoc]

/-- A run leads where its rest leads from where its beginning has led. -/
theorem final_append (s : σ) (events later : List (Nat × ε)) :
    m.final s (events ++ later) = m.final (m.final s events) later := by
  induction events generalizing s with
  | nil => rfl
  | cons e rest ih => exact ih _

/-- The history of a run is that of its beginning, followed by that of its rest from there. -/
theorem history_append (s : σ) (events later : List (Nat × ε)) :
    m.history s (events ++ later) = m.history s events ++ m.history (m.final s events) later := by
  induction events generalizing s with
  | nil => rfl
  | cons e rest ih => simp only [List.cons_append, history, final, ih]

/-- The one induction over runs: a fact about the past and the present that holds at the start and
survives every allowed move holds after every allowed run. -/
theorem history_induction {possible : σ → ε → Prop} {s : σ} (P : List (Move σ ε ν) → σ → Prop)
    (start : P [] s)
    (step : ∀ past t now event, P past t → possible t event →
      P (past ++ [m.move t now event]) (m t now event).1)
    {events : List (Nat × ε)} (h : m.Allows possible s events) :
    P (m.history s events) (m.final s events) := by
  -- The induction is on the events still to come, for any past and the state that it led to.
  have general : ∀ (events : List (Nat × ε)) (past : List (Move σ ε ν)) (t : σ),
      P past t → m.Allows possible t events →
        P (past ++ m.history t events) (m.final t events) := by
    intro events
    induction events with
    | nil =>
        intro past t hp _
        simpa [history, final] using hp
    | cons e rest ih =>
        obtain ⟨now, event⟩ := e
        intro past t hp ha
        have := ih _ _ (step past t now event hp ha.1) ha.2
        simpa [history, final] using this
  simpa using general events [] s start h

/-- A fact about the state alone that survives every allowed move holds after every allowed run. -/
theorem final_induction {possible : σ → ε → Prop} {s : σ} (P : σ → Prop) (start : P s)
    (step : ∀ t now event, P t → possible t event → P (m t now event).1)
    {events : List (Nat × ε)} (h : m.Allows possible s events) : P (m.final s events) :=
  m.history_induction (fun _ => P) start (fun _ t now event => step t now event) h

/-- A run can be cut at any of its moves. -/
theorem exists_of_history_eq_append {s : σ} {events : List (Nat × ε)} {past : List (Move σ ε ν)}
    {t : Move σ ε ν} {future : List (Move σ ε ν)}
    (h : m.history s events = past ++ t :: future) :
    ∃ earlier now event later, events = earlier ++ (now, event) :: later ∧
      past = m.history s earlier ∧ t = m.move (m.final s earlier) now event ∧
      future = m.history (m (m.final s earlier) now event).1 later := by
  induction events generalizing s past with
  | nil => simp [history] at h
  | cons e rest ih =>
      obtain ⟨now, event⟩ := e
      cases past with
      | nil =>
          simp only [history, List.nil_append, List.cons.injEq] at h
          exact ⟨[], now, event, rest, rfl, rfl, h.1.symm, h.2.symm⟩
      | cons p past =>
          simp only [history, List.cons_append, List.cons.injEq] at h
          obtain ⟨earlier, now', event', later, rfl, rfl, rfl, rfl⟩ := ih h.2
          exact ⟨(now, event) :: earlier, now', event', later, rfl, by simp [history, h.1],
            rfl, rfl⟩

/-- What comes before a move is a run to the state that it starts from. -/
theorem exists_run_before {s : σ} {events : List (Nat × ε)} {past : List (Move σ ε ν)}
    {t : Move σ ε ν} {future : List (Move σ ε ν)}
    (h : m.history s events = past ++ t :: future) :
    ∃ earlier, past = m.history s earlier ∧ t.before = m.final s earlier := by
  obtain ⟨earlier, now, event, later, -, rfl, rfl, -⟩ := m.exists_of_history_eq_append h
  exact ⟨earlier, rfl, rfl⟩

/-- If the whole run was allowed, so were the run before a move and the move. -/
theorem exists_allowed_before {possible : σ → ε → Prop} {s : σ} {events : List (Nat × ε)}
    (allowed : m.Allows possible s events) {past : List (Move σ ε ν)} {t : Move σ ε ν}
    {future : List (Move σ ε ν)} (h : m.history s events = past ++ t :: future) :
    ∃ earlier, past = m.history s earlier ∧ t.before = m.final s earlier ∧
      m.Allows possible s earlier ∧ possible t.before t.event := by
  obtain ⟨earlier, now, event, later, rfl, rfl, rfl, -⟩ := m.exists_of_history_eq_append h
  obtain ⟨before, here, -⟩ := (m.allows_append s _ _).mp allowed
  exact ⟨earlier, rfl, rfl, before, here⟩

/-- With the move itself it is a run to the state that it leads to. -/
theorem exists_run_after {s : σ} {events : List (Nat × ε)} {past : List (Move σ ε ν)}
    {t : Move σ ε ν} {future : List (Move σ ε ν)}
    (h : m.history s events = past ++ t :: future) :
    ∃ earlier, past ++ [t] = m.history s earlier ∧ t.after = m.final s earlier := by
  obtain ⟨earlier, now, event, later, -, rfl, rfl, -⟩ := m.exists_of_history_eq_append h
  exact ⟨earlier ++ [(now, event)], by simp [history_append, history],
    by simp [final_append, final, move]⟩

/-- What comes after a move is a run from the state that it leads to. -/
theorem exists_run_from {s : σ} {events : List (Nat × ε)} {past : List (Move σ ε ν)}
    {t : Move σ ε ν} {future : List (Move σ ε ν)}
    (h : m.history s events = past ++ t :: future) :
    ∃ later, future = m.history t.after later := by
  obtain ⟨earlier, now, event, later, -, -, rfl, rfl⟩ := m.exists_of_history_eq_append h
  exact ⟨later, rfl⟩

/-- A move of a run is what its event does to the state before it. -/
theorem eq_move_of_history {s : σ} {events : List (Nat × ε)} {past : List (Move σ ε ν)}
    {t : Move σ ε ν} {future : List (Move σ ε ν)}
    (h : m.history s events = past ++ t :: future) : t = m.move t.before t.now t.event := by
  obtain ⟨earlier, now, event, later, -, -, rfl, -⟩ := m.exists_of_history_eq_append h
  rfl

/-- Every move of a history ends in the state that its event brings about. -/
theorem after_of_history {s : σ} {events : List (Nat × ε)} {past : List (Move σ ε ν)}
    {t : Move σ ε ν} {future : List (Move σ ε ν)}
    (h : m.history s events = past ++ t :: future) : t.after = (m t.before t.now t.event).1 :=
  congrArg Move.after (m.eq_move_of_history h)

/-- Every move of a history makes known what its event brings about. -/
theorem notices_of_history {s : σ} {events : List (Nat × ε)} {past : List (Move σ ε ν)}
    {t : Move σ ε ν} {future : List (Move σ ε ν)}
    (h : m.history s events = past ++ t :: future) : t.notices = (m t.before t.now t.event).2 :=
  congrArg Move.notices (m.eq_move_of_history h)

/-- A fact about a stretch of a run and the state that it leads to, if it holds of the empty stretch
after one move and survives every move up to another, holds before that one. -/
theorem stretch_induction {s : σ} {events : List (Nat × ε)} (P : List (Move σ ε ν) → σ → Prop)
    {past mid future : List (Move σ ε ν)} {u t : Move σ ε ν}
    (h : m.history s events = past ++ u :: (mid ++ t :: future)) (start : P [] u.after)
    (step : ∀ between v rest, mid = between ++ v :: rest →
      m.history s events = (past ++ u :: between) ++ v :: (rest ++ t :: future) →
        P between v.before → P (between ++ [v]) v.after) : P mid t.before := by
  obtain ⟨earlier, now, event, later, -, -, rfl, rest⟩ := m.exists_of_history_eq_append h
  -- The induction is on the moves still to come, for any stretch that led up to them.
  have general : ∀ (mid seen : List (Move σ ε ν)) (s' : σ) (events' : List (Nat × ε)),
      mid ++ t :: future = m.history s' events' → P seen s' →
        (∀ between v rest, mid = between ++ v :: rest → P (seen ++ between) v.before →
          P (seen ++ between ++ [v]) v.after) → P (seen ++ mid) t.before := by
    intro mid
    induction mid with
    | nil =>
        intro seen s' events' split holds _
        cases events' with
        | nil => cases split
        | cons e rest =>
            obtain ⟨rfl, -⟩ := List.cons.inj split
            simpa [move] using holds
    | cons v mid ih =>
        intro seen s' events' split holds step
        cases events' with
        | nil => cases split
        | cons e rest =>
            obtain ⟨rfl, shorter⟩ := List.cons.inj split
            have here := step [] _ mid rfl (by simpa [move] using holds)
            rw [List.append_nil] at here
            have there := ih (seen ++ [_]) _ rest shorter here
              fun between w rest same holds => by
                simpa using step (_ :: between) w rest (congrArg _ same) (by simpa using holds)
            simpa using there
  exact general mid [] _ later rest start fun between v rest same =>
    step between v rest same (by simp [h, same])

/-- Every move of a history is that of one of the events, from where those before it have led. -/
theorem exists_of_mem_history {s : σ} {events : List (Nat × ε)} {t : Move σ ε ν}
    (h : t ∈ m.history s events) :
    ∃ earlier now event later, events = earlier ++ (now, event) :: later ∧
      t = m.move (m.final s earlier) now event := by
  obtain ⟨past, future, hs⟩ := List.append_of_mem h
  obtain ⟨earlier, now, event, later, he, -, ht, -⟩ := m.exists_of_history_eq_append hs
  exact ⟨earlier, now, event, later, he, ht⟩

/-- Time does not go backwards in the course of a run. -/
def Forward (events : List (Nat × ε)) : Prop := (events.map (·.1)).Pairwise (· ≤ ·)

instance (events : List (Nat × ε)) : Decidable (Forward events) :=
  inferInstanceAs (Decidable ((events.map (·.1)).Pairwise (· ≤ ·)))

/-- The clock of the beginning of a run goes forward if that of the run does. -/
theorem Forward.of_append {events later : List (Nat × ε)} (forward : Forward (events ++ later)) :
    Forward events := by
  unfold Forward at *
  rw [List.map_append] at forward
  exact (List.pairwise_append.mp forward).1

/-- Where the clock goes forward, nothing comes after the last event. -/
theorem Forward.le_of_snoc {events : List (Nat × ε)} {now : Nat} {event : ε}
    (forward : Forward (events ++ [(now, event)])) : ∀ e ∈ events, e.1 ≤ now := by
  unfold Forward at forward
  rw [List.map_append] at forward
  intro e member
  exact (List.pairwise_append.mp forward).2.2 _ (List.mem_map_of_mem member) _ (by simp)

/-- Where the clock goes forward, nothing comes before the first event. -/
theorem Forward.tail {e : Nat × ε} {events : List (Nat × ε)} (forward : Forward (e :: events)) :
    Forward events ∧ ∀ later ∈ events, e.1 ≤ later.1 := by
  unfold Forward at *
  rw [List.map_cons, List.pairwise_cons] at forward
  exact ⟨forward.2, fun later member => forward.1 _ (List.mem_map_of_mem member)⟩

/-- The instants of a history are those of the events. -/
theorem map_now_history (s : σ) (events : List (Nat × ε)) :
    (m.history s events).map (·.now) = events.map (·.1) := by
  induction events generalizing s with
  | nil => rfl
  | cons e rest ih => simp [history, move, ih]

/-- What follows a move of a run is no earlier than the move. -/
theorem Forward.le_after {s : σ} {events : List (Nat × ε)} (forward : Forward events)
    {past future : List (Move σ ε ν)} {t : Move σ ε ν}
    (h : m.history s events = past ++ t :: future) : ∀ u ∈ future, t.now ≤ u.now := by
  unfold Forward at forward
  rw [← m.map_now_history s, h, List.map_append, List.map_cons] at forward
  intro u member
  exact List.rel_of_pairwise_cons (List.pairwise_append.mp forward).2.1
    (List.mem_map_of_mem member)

/-- What comes before a move of a run is no later than the move. -/
theorem Forward.le_before {s : σ} {events : List (Nat × ε)} (forward : Forward events)
    {past future : List (Move σ ε ν)} {t : Move σ ε ν}
    (h : m.history s events = past ++ t :: future) : ∀ u ∈ past, u.now ≤ t.now := by
  intro u member
  obtain ⟨first, rest, rfl⟩ := List.append_of_mem member
  rw [List.append_assoc, List.cons_append] at h
  exact forward.le_after m h t (by simp)

end Machine

end CachedStreams
