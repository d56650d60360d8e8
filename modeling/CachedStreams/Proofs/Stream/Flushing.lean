import CachedStreams.Proofs.Stream.Sweeps

/-!
# What a flush leaves

A flush that has been called has everything on its list as long as no call to open is in progress,
unless it is given up (`StreamCache.flushes_apply`). So when it has been answered the cache is
empty, and stays so until something is opened again (`StreamCache.isEmpty_of_flushed`).
-/

set_option autoImplicit false

namespace CachedStreams.StreamCache

/-- Nothing is cached, neither a buffer nor a failure. -/
def IsEmpty (c : StreamCache) : Prop := ∀ key, c.keyed.table.find? key = none

/-- A cache with an empty table holds no buffer. -/
theorem IsEmpty.buffersIn {c : StreamCache} (empty : c.IsEmpty) : buffersIn c.keyed.table = [] := by
  have rows : c.keyed.table.rows = [] := by
    refine List.eq_nil_iff_forall_not_mem.mpr fun row member => ?_
    have gone := empty row.1
    simp only [Table.find?, Option.map_eq_none_iff, List.find?_eq_none] at gone
    exact gone row member (by simp)
  simp [StreamCache.buffersIn, rows]

/-- The call that an event begins. -/
def Event.begun? : Event → Option CallId
  | .open name _ _ => some name
  | .call name _ => some name
  | _ => none

namespace History

/-- A flush was called and has been answered, and since it was called no call to open has been in
progress. -/
def Flushed (h : History) : Prop :=
  ∃ past s mid e future call, h = past ++ s :: (mid ++ e :: future) ∧
    s.event = .call call .flush ∧ Notice.answered call .flushed ∈ e.notices ∧
    (∀ v ∈ mid, v.event.begun? ≠ some call) ∧
    ∀ v ∈ s :: (mid ++ e :: future), v.before.opens.rows = []

/-- A flush was called, and no call to open has been in progress since. -/
def FlushAsked (h : History) (call : CallId) : Prop :=
  ∃ past s mid, h = past ++ s :: mid ∧
    (s.event = .call call .flush ∧ s.before.opens.rows = []) ∧
    ∀ v ∈ mid, v.event.begun? ≠ some call ∧ v.before.opens.rows = []

/-- It has been answered, and still no call to open has been in progress. -/
def FlushAnswered (h : History) (call : CallId) : Prop :=
  ∃ past e future, h = past ++ e :: future ∧
    (FlushAsked past call ∧ Notice.answered call .flushed ∈ e.notices ∧ e.before.opens.rows = []) ∧
    ∀ v ∈ future, v.before.opens.rows = []

/-- A flush that has been answered while nobody was opening anything is one call's. -/
theorem Flushed.answered {h : History} (flushed : h.Flushed) : ∃ call, h.FlushAnswered call := by
  obtain ⟨past, s, mid, e, future, call, rfl, called, answered, alone, idle⟩ := flushed
  have asked : FlushAsked (past ++ s :: mid) call :=
    ⟨past, s, mid, rfl, ⟨called, idle s (by simp)⟩,
      fun v here => ⟨alone v here, idle v (by simp [here])⟩⟩
  exact ⟨call, past ++ s :: mid, e, future, by simp, ⟨asked, answered, idle e (by simp)⟩,
    fun v here => idle v (by simp [here])⟩

end History

/-- Whether a notice answers a flush. -/
def Notice.isFlushed (call : CallId) : Notice → Bool
  | .answered name .flushed => name == call
  | _ => false

/-- A run in which a flush is called and answered, and in which no call to open is in progress from
then on, is flushed. -/
theorem History.flushed_of_run {c : StreamCache} {earlier between later : List (Nat × Event)}
    {asked now : Nat} {event : Event} {call : CallId}
    (answered : ((Machine.final apply c (earlier ++ (asked, .call call .flush) :: between)).apply
      now event).2.any (Notice.isFlushed call) = true)
    (alone : ∀ e ∈ between, e.2.begun? ≠ some call)
    (idle : ∀ v ∈ Machine.history apply (Machine.final apply c earlier)
      ((asked, .call call .flush) :: (between ++ (now, event) :: later)),
        v.before.opens.rows = []) :
    History.Flushed (Machine.history apply c
      (earlier ++ (asked, .call call .flush) :: (between ++ (now, event) :: later))) := by
  simp only [Machine.history_append, Machine.history] at idle ⊢
  simp only [Machine.final_append, Machine.final] at answered
  refine ⟨_, _, _, _, _, call, rfl, rfl, ?_, fun v member => ?_, idle⟩
  · obtain ⟨notice, said, flushed⟩ := List.any_eq_true.mp answered
    unfold Notice.isFlushed at flushed
    split at flushed
    · obtain rfl := eq_of_beq flushed
      exact said
    · cases flushed
  · obtain ⟨_, at_, own, _, rfl, rfl⟩ := Machine.exists_of_mem_history apply member
    exact alone (at_, own) (by simp)

/-- No call is one to open if there are none. -/
theorem find?_of_rows_eq_nil {c : StreamCache} (idle : c.opens.rows = []) (call : CallId) :
    c.opens.find? call = none := by
  simp [CallTable.find?, idle]

section

variable {c : StreamCache} {now : Nat} {call : CallId} {event : Event}

/-- A call that has not begun can only take steps or be given up. -/
theorem eq_resume_or_abort (subject : event.subject? = some call)
    (unbegun : event.begun? ≠ some call) : event = .resume call ∨ event = .abort call := by
  cases event with
  | «open» | call => exact absurd subject unbegun
  | resume name =>
      cases subject
      exact .inl rfl
  | abort name =>
      cases subject
      exact .inr rfl
  | buffer => cases subject

/-- A call that has been given up is unknown to the cache. -/
theorem unknown_abort (c : StreamCache) (now : Nat) (call : CallId) :
    (c.apply now (.abort call)).1.Unknown call := by
  have turn := turn_apply c now (.abort call)
  generalize c.apply now (.abort call) = r at turn
  cases turn with
  | givesUp =>
      exact ⟨CallTable.find?_erase_self _ _, KeyedCache.stage?_leave_self _,
        CallTable.find?_erase_self _ _⟩

/-- A call that is not in progress stays so until one of its name begins. -/
theorem Unknown.apply (unknown : c.Unknown call) (now : Nat) (unbegun : event.begun? ≠ some call) :
    (c.apply now event).1.Unknown call := by
  by_cases own : event.subject? = some call
  · rcases eq_resume_or_abort own unbegun with rfl | rfl
    · have stuck : c.resume now call = none := by
        simp [resume, KeyedCache.resume, unknown.errand, unknown.stage, unknown.opening]
      simpa [StreamCache.apply, stuck] using unknown
    · exact unknown_abort c now call
  · obtain ⟨opening, stage, held, results, errand⟩ := apart_apply c now own
    rw [unknown.errand, foldl_hear_none] at errand
    exact ⟨errand, stage.trans unknown.stage, opening.trans unknown.opening⟩

/-- While no call to open is in progress nothing is stored. -/
theorem kept_of_idle (only : c.OnlyOpensStore) (opens : c.Opens) (idle : c.opens.rows = [])
    {key : String} {entry : Entry BufferId StreamError}
    (found : (c.apply now event).1.keyed.table.find? key = some entry) :
    c.keyed.table.find? key = some entry := by
  by_contra new
  obtain ⟨call, o, -, -, opening, -⟩ := brings_of_new only opens (turn_apply c now event) found new
  rw [find?_of_rows_eq_nil idle] at opening
  cases opening

/-- A flush that has been called has everything on its list, unless it is given up. -/
theorem flushes_apply {a : Account} (sound : Sound a c) (only : c.OnlyOpensStore) (opens : c.Opens)
    (permits : c.Permits event) (idle : c.opens.rows = []) (unbegun : event.begun? ≠ some call)
    (flushes : c.Sweeping .flush (fun _ => True) call ∨ c.Unknown call) :
    (c.apply now event).1.Sweeping .flush (fun _ => True) call ∨
      (c.apply now event).1.Unknown call := by
  rcases flushes with sweeping | unknown
  · by_cases aborted : event = .abort call
    · rw [aborted]
      exact .inr (unknown_abort c now call)
    · exact .inl (sweeping.apply sound permits
        (fun own => (eq_resume_or_abort own unbegun).resolve_right aborted)
        (fun _ _ _ _ _ => .inl rfl) (fun _ _ found _ => kept_of_idle only opens idle found))
  · exact .inr (unknown.apply now unbegun)

namespace History

/-- What the flushes of a run have done so far. -/
structure FlushesSoFar (h : History) (c : StreamCache) : Prop where
  only : c.OnlyOpensStore
  asked : ∀ call, h.FlushAsked call → c.Sweeping .flush (fun _ => True) call ∨ c.Unknown call
  answered : ∀ call, h.FlushAnswered call → c.IsEmpty

/-- What the flushes of a run have done so far, after one more event. -/
theorem FlushesSoFar.apply {h : History} (sofar : h.FlushesSoFar c) {a : Account}
    (sound : Sound a c) (opens : c.Opens) (permits : c.Permits event) :
    FlushesSoFar (h ++ [Machine.move StreamCache.apply c now event]) (c.apply now event).1 := by
  refine ⟨sofar.only.apply opens now permits, fun call asked => ?_, fun call answered key => ?_⟩
  · rcases exists_last_snoc.mp asked with ⟨called, -⟩ | ⟨before, unbegun, idle⟩
    · obtain rfl : event = .call call .flush := called
      have free : c.IsFree call := permits
      exact .inl (.of_asked free.unknown.opening free.unknown.errand
        (KeyedCache.stage?_moveTo_self _ _))
    · exact flushes_apply sound sofar.only opens permits idle unbegun (sofar.asked call before)
  · cases found : (c.apply now event).1.keyed.table.find? key with
    | none => rfl
    | some entry =>
        rcases exists_last_snoc.mp answered with ⟨asked, told, idle⟩ | ⟨before, idle⟩
        · obtain ⟨rfl, busy, isOver⟩ := ends_of_answered (turn_apply c now event) told
          have sweeping := (sofar.asked call asked).resolve_right fun unknown => busy unknown.stage
          have swept : (c.apply now (.resume call)).1.Sweeping .flush (fun _ => True) call :=
            sweeping.apply sound permits (fun _ => rfl) (fun _ _ _ _ _ => .inl rfl)
              (fun _ _ found _ => kept_of_idle sofar.only opens idle found)
          exact absurd trivial (swept.none_left isOver found)
        · have held := kept_of_idle sofar.only opens idle found
          rw [sofar.answered call before key] at held
          cases held

end History

end

section

variable {lanes ttl : Nat} {options : BufferOptions} {events : List (Nat × Event)}

/-- A flush that has been answered has emptied the cache, if no call to open has been in progress
since it was called. -/
theorem isEmpty_of_flushed
    (permitted : Machine.Allows apply Permits (create lanes ttl options) events)
    (handed : History.ClosesHanded (Machine.history apply (create lanes ttl options) events))
    (flushed : History.Flushed (Machine.history apply (create lanes ttl options) events)) :
    (Machine.final apply (create lanes ttl options) events).IsEmpty := by
  obtain ⟨call, answered⟩ := flushed.answered
  refine (sound_induction History.FlushesSoFar ?_ ?_ permitted handed).answered call answered
  · refine ⟨onlyOpensStore_create lanes ttl options, ?_, ?_⟩
    · rintro call ⟨past, s, mid, split, -⟩
      simp at split
    · rintro call ⟨past, e, future, split, -⟩
      simp at split
  · exact fun past c now event closed sound opens sofar permits => sofar.apply sound opens permits

end

end CachedStreams.StreamCache
