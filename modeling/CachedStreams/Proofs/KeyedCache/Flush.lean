import CachedStreams.Proofs.KeyedCache.Ledger
import CachedStreams.Proofs.KeyedCache.TtlMap

/-!
# What a flush leaves behind

A flush removes the entries of a snapshot one by one, while other calls go on storing and removing.
Whatever was stored before the flush was called and is still in the table stands in what the flush
has yet to remove (`KeyedCache.Flushing`), so that nothing of it is left when the flush is answered
(`flush_removes_older`).
-/

set_option autoImplicit false

namespace CachedStreams.KeyedCache

variable {V E : Type}

/-- A list names everything in the table that has a number below `number`. -/
def Lists (c : KeyedCache V E) (number : Nat) (rest : List (Nat × String)) : Prop :=
  ∀ key entry, c.table.find? key = some entry → entry.seq < number → (entry.seq, key) ∈ rest

/-- A call at this stage is a flush, and what it has yet to remove is complete. -/
inductive Stage.Flushes (complete : List (Nat × String) → Prop) : Stage V E → Prop where
  | requested : Flushes complete (.requested .flush)
  | sweeping (rest : List (Nat × String)) (count : Nat) (listed : complete rest) :
    Flushes complete (.sweeping rest count .flush)
  | evicting (rest : List (Nat × String)) (count : Nat) (listed : complete rest) :
    Flushes complete (.evicting (.sweep rest count .flush))

/-- A flush is on its way to remove what has a number below `number`. -/
structure Flushing (number : Nat) (call : CallId) (c : KeyedCache V E) : Prop where
  keyed : c.table.Keyed
  numbered : number ≤ c.nextSeq
  progress : ∀ stage, c.stage? call = some stage → stage.Flushes (c.Lists number)

namespace Flushing

variable {number : Nat} {call : CallId} {c : KeyedCache V E}

/-- The snapshot of a flush is all that the table holds. -/
theorem mem_snapshot (flushing : Flushing number call c) {key : String} {entry : Entry V E}
    (held : c.table.find? key = some entry) (now : Nat) :
    (entry.seq, key) ∈ c.snapshot now .flush := by
  cases live : entry.isLive now with
  | true =>
      exact List.mem_append_left _
        ((Table.mem_select flushing.keyed).mpr ⟨entry, held, rfl, live⟩)
  | false =>
      exact List.mem_append_right _
        ((Table.mem_select flushing.keyed).mpr ⟨entry, held, rfl, by simp [live]⟩)

/-- The flush itself only removes what it strikes off. -/
theorem progress_turn {event : Event V E} {now : Nat} {r : KeyedCache V E × List (Notice V E)}
    (turn : Turn c now event r) (flushing : Flushing number event.subject c)
    (goesOn : ∀ request, event ≠ .call event.subject request) {stage : Stage V E}
    (reached : r.1.stage? event.subject = some stage) : stage.Flushes (r.1.Lists number) := by
  cases turn with
  | begins call request => exact absurd rfl (goesOn request)
  | givesUp | gets | hits | removesNothing | endsSweep | replies =>
      simp [Event.subject] at reached
  | waits | ignoresResult | ignoresHook => exact flushing.progress _ reached
  | misses _ _ _ before | queues _ _ _ before | generates _ _ _ before | makes _ _ _ _ before =>
      cases flushing.progress _ before
  | stores _ _ _ _ _ _ before brings => cases brings <;> cases flushing.progress _ before
  | removes _ _ _ _ _ before drops => cases drops <;> cases flushing.progress _ before
  | beginsSweep call sweep before =>
      obtain rfl := eq_of_stage?_moveTo reached
      cases sweep with
      | flush => exact .sweeping _ 0 fun key entry held _ => flushing.mem_snapshot held now
      | purge => cases flushing.progress _ before
  | sweeps call key entry rest count sweep before present =>
      obtain rfl := eq_of_stage?_moveTo reached
      cases flushing.progress _ before with
      | sweeping _ _ listed =>
          refine .evicting _ _ fun other old held older => ?_
          have apart : other ≠ key := by
            rintro rfl
            simp [evict, moveTo] at held
          have still : c.table.find? other = some old := by
            rwa [← Table.find?_erase_of_ne c.table apart]
          rcases List.mem_cons.mp (listed other old still older) with same | later
          · exact absurd (congrArg Prod.snd same) apart
          · exact later
  | passes call first key rest count sweep before gone =>
      obtain rfl := eq_of_stage?_moveTo reached
      cases flushing.progress _ before with
      | sweeping _ _ listed =>
          refine .sweeping _ _ fun other old held older => ?_
          rcases List.mem_cons.mp (listed other old held older) with same | later
          · cases same
            exact absurd rfl (gone old held)
          · exact later
  | sweepsOn call rest count sweep before =>
      obtain rfl := eq_of_stage?_moveTo reached
      cases flushing.progress _ before with
      | evicting _ _ listed => exact .sweeping _ _ listed

/-- Whatever happens, the flush stays on its way. -/
theorem apply (flushing : Flushing number call c) (now : Nat) {event : Event V E}
    (goesOn : ∀ request, event ≠ .call call request) :
    Flushing number call (c.apply now event).1 := by
  have more := nextSeq_le_apply c now event
  refine ⟨keyed_apply c now event flushing.keyed, Nat.le_trans flushing.numbered more,
    fun stage reached => ?_⟩
  by_cases own : call = event.subject
  · subst own
    exact progress_turn (turn_apply c now event) flushing goesOn reached
  · rw [stage?_apply_of_ne c now own] at reached
    have lists : ∀ rest, c.Lists number rest → (c.apply now event).1.Lists number rest := by
      intro rest listed key entry held older
      rcases find?_apply c now event held with before | ⟨fresh, -⟩
      · exact listed key entry before older
      · have := flushing.numbered
        omega
    cases flushing.progress stage reached with
    | requested => exact .requested
    | sweeping rest count listed => exact .sweeping rest count (lists rest listed)
    | evicting rest count listed => exact .evicting rest count (lists rest listed)

/-- When the flush is answered it has nothing left to remove. -/
theorem answered (flushing : Flushing number call c) {now : Nat} {event : Event V E}
    {reply : Reply V E} (member : .answered call reply ∈ (c.apply now event).2) {key : String}
    {entry : Entry V E} (held : (c.apply now event).1.table.find? key = some entry) :
    number ≤ entry.seq := by
  rcases find?_apply c now event held with before | ⟨fresh, -⟩
  · by_contra older
    cases answering_of_mem member with
    | gets _ at_ | replies _ at_ => cases flushing.progress _ at_
    | hits _ _ _ _ at_ looks => cases looks <;> cases flushing.progress _ at_
    | stores _ _ _ _ _ at_ brings => cases brings <;> cases flushing.progress _ at_
    | removesNothing _ _ _ at_ drops => cases drops <;> cases flushing.progress _ at_
    | endsSweep count sweep at_ =>
        cases flushing.progress _ at_ with
        | sweeping _ _ listed =>
            exact absurd (listed key entry before (Nat.lt_of_not_le older)) List.not_mem_nil
  · exact fresh ▸ flushing.numbered

end Flushing

/-- When a flush is answered, nothing is left in the table of what was stored before it was
called. -/
theorem flush_removes_older {lanes : Nat} {events : List (Nat × Event V E)}
    (named : Named (Machine.history apply (create lanes) events)) {early mid late : History V E}
    {u t : Move (KeyedCache V E) (Event V E) (Notice V E)}
    (split : Machine.history apply (create lanes) events = early ++ u :: (mid ++ t :: late))
    {call : CallId} (called : u.event = .call call .flush) {reply : Reply V E}
    (answered : .answered call reply ∈ t.notices) {key : String} {entry : Entry V E}
    (held : t.after.table.find? key = some entry) : u.before.nextSeq ≤ entry.seq := by
  have namedOn : Named ((early ++ [u]) ++ (mid ++ t :: late)) := by
    rw [split] at named
    simpa using named
  have silent : call ∉ (begunIn mid).map (·.1) := by
    have begun : call ∈ (begunIn (early ++ [u])).map (·.1) := by simp [called, Event.begun?]
    have again := Named.not_again namedOn begun
    rw [begunIn_append, List.map_append, List.mem_append] at again
    exact fun begins => again (.inl begins)
  have onward : Machine.history apply (create lanes) events =
      (early ++ u :: mid) ++ t :: late := by simp [split]
  -- The flush is on its way from the moment it is called.
  have start : Flushing u.before.nextSeq call u.after := by
    obtain ⟨before, -, same⟩ := Machine.exists_run_before apply split
    have after : u.after = u.before.moveTo call (.requested .flush) := by
      rw [Machine.eq_move_of_history apply split, called]
      rfl
    refine ⟨?_, after ▸ Nat.le_refl _, fun stage reached => ?_⟩
    · rw [after, same]
      exact (ledger_of_run lanes before).keyed
    · rw [after] at reached
      obtain rfl := eq_of_stage?_moveTo reached
      exact .requested
  have flushing : Flushing u.before.nextSeq call t.before := by
    refine Machine.stretch_induction apply (fun _ => Flushing u.before.nextSeq call) split start ?_
    intro between v rest same here flushing
    rw [Machine.eq_move_of_history apply here]
    refine flushing.apply v.now fun request begins => silent ?_
    exact List.mem_map_of_mem (mem_begunIn.mpr ⟨v, by simp [same], begins⟩)
  rw [Machine.eq_move_of_history apply onward] at answered held
  exact flushing.answered answered held

end CachedStreams.KeyedCache
