import CachedStreams.Proofs.Stream.Lifecycle

/-!
# After a failed opening

A failed opening undoes the registration of the call that asked for the stream and leaves the buffer
idle. Those who joined or were retained meanwhile are still counted, and only a call that finds
nobody starts another pump: the next call does so exactly if everybody who came in during the failed
attempt has left. Otherwise it is answered at once although no stream is being read, and the buffer
stays idle for as long as it has a consumer (`idle_since`), so that `Buffer.Retries` fails.
-/

set_option autoImplicit false

namespace CachedStreams.Buffer

/-- An opening fails and leaves the buffer idle. -/
structure FailsToOpen (t : Move Buffer Event Notice) : Prop where
  failed : ∃ cause, t.event = .pump (.openFailed cause)
  streaming : t.before.phase = .streaming
  idle : t.after.phase = .idle

/-- Nothing that happens in an idle buffer calls for the stream; unless a pump is started the buffer
stays idle, and consumers are counted as they come and go. -/
theorem idle_apply {b : Buffer} (consistent : b.Consistent) (idle : b.phase = .idle) (now : Nat)
    (event : Event) :
    Notice.openCalled ∉ (b.apply now event).2 ∧
      (.pumpStarted ∈ (b.apply now event).2 ∨
        (b.apply now event).1.phase = .idle ∧
          (b.apply now event).1.refs + (if event.isRelease ∧ b.refs ≠ 0 then 1 else 0) =
            b.refs + (if event.isJoin then 1 else 0) +
              (b.apply now event).2.countP Notice.isRetained) := by
  rcases apply_cases b now event with
    ⟨other, same⟩ | move | ⟨p, hp, ⟨done, rfl, move⟩ | ⟨⟨heeding, rfl⟩, move⟩⟩
  · rw [same]
    cases event <;> simp_all [Event.isCall, Event.isRelease, Event.isJoin]
  · have counts := refs_callMove move
    generalize b.apply now event = r at move counts ⊢
    cases move with
    | starts call unused => exact ⟨by simp, .inl (by simp)⟩
    | leaves | leavesEnded | leavesRunning =>
        exact ⟨by simp, .inr ⟨by simp [idle, Phase.afterLastRelease], by simpa using counts⟩⟩
    | joins | retains | refuses | releasesNothing | releasesOne | abandons =>
        exact ⟨by simp, .inr ⟨idle, by simpa using counts⟩⟩
  · -- The pump of an idle buffer is over, so there is nothing left for it to do.
    rw [move.of_isOver (consistent.isOver_of_idle idle hp)]
    exact ⟨by simp, .inr ⟨idle, by simp [Event.isRelease, Event.isJoin]⟩⟩
  · generalize b.apply now (.watch heeding) = r at move ⊢
    cases move with
    | waits => exact ⟨by simp, .inr ⟨idle, by simp [Event.isRelease, Event.isJoin]⟩⟩
    | settles result =>
        have silent : Notice.openCalled ∉ b.verdict p result := by
          unfold verdict
          split <;> simp
        exact ⟨silent, .inr ⟨idle, by simp [Event.isRelease, Event.isJoin]⟩⟩

/-- A failure to open takes back the registration of the opener. -/
theorem FailsToOpen.refs_eq {t : Move Buffer Event Notice} (fails : FailsToOpen t)
    (consistent : t.before.Consistent) (moves : t = Machine.move apply t.before t.now t.event) :
    t.after.refs + 1 = t.before.refs := by
  obtain ⟨⟨cause, failed⟩, streaming, idle⟩ := fails
  have used : 0 < t.before.refs := (consistent.engaged (.inl streaming)).1
  rw [failed] at moves
  have after : t.after = (t.before.apply t.now (.pump (.openFailed cause))).1 :=
    congrArg Move.after moves
  rw [after] at idle ⊢
  generalize t.before = b at streaming used idle ⊢
  simp only [apply] at idle ⊢
  split at idle
  · rename_i p hp
    simp only [pumpStep, failOpen_eq] at idle ⊢
    split at idle
    · rename_i opening
      rw [if_pos opening]
      exact Nat.sub_add_cancel used
    · simp [streaming] at idle
  · simp [streaming] at idle

section

variable {name : String} {options : BufferOptions} {transform : Option Transform}
  {events : List (Nat × Event)}

/-- Before every move of a run phase, consumers and pump fit together. -/
theorem consistent_at {past future : History} {t : Move Buffer Event Notice}
    (split : Machine.history apply (create name options transform) events = past ++ t :: future) :
    t.before.Consistent := by
  obtain ⟨earlier, -, same⟩ := Machine.exists_run_before apply split
  rw [same]
  exact Machine.final_induction apply Consistent (.create name options transform)
    (fun b now event consistent _ => consistent.apply now event) (Machine.allows_true apply _ _)

/-- As long as no pump is started after a failed opening, the buffer stays idle and counts those
who came in before the failure. -/
theorem idle_since {early mid future : History} {f t : Move Buffer Event Notice}
    (split : Machine.history apply (create name options transform) events =
      early ++ f :: (mid ++ t :: future)) (fails : FailsToOpen f)
    (unstarted : ∀ u ∈ mid, Notice.pumpStarted ∉ u.notices) :
    t.before.phase = .idle ∧
      t.before.refs + mid.closes + 1 = f.before.refs + mid.joins + mid.retains := by
  have consistent := consistent_at split
  have counted := fails.refs_eq consistent (Machine.eq_move_of_history apply split)
  refine Machine.stretch_induction apply (fun seen b => b.phase = .idle ∧
    b.refs + History.closes seen + 1 = f.before.refs + History.joins seen + History.retains seen)
    split ⟨fails.idle, ?_⟩ ?_
  · simpa [History.closes, History.joins, History.retains, Machine.noticesOf] using counted
  rintro between v rest rfl here ⟨idle, refs⟩
  have moves := Machine.eq_move_of_history apply here
  have quiet : Notice.pumpStarted ∉ v.notices := unstarted v (by simp)
  rw [moves] at quiet
  obtain ⟨still, counts⟩ :=
    (idle_apply (consistent_at here) idle v.now v.event).2.resolve_left quiet
  have after : v.after = (v.before.apply v.now v.event).1 := congrArg Move.after moves
  have notices : v.notices = (v.before.apply v.now v.event).2 := congrArg Move.notices moves
  refine ⟨after ▸ still, ?_⟩
  rw [History.closes_snoc, History.joins_snoc, History.retains_snoc, after, notices]
  omega

/-- After a failed opening nothing calls for the stream until a call finds no consumer, that is,
until everybody who came in during the attempt or since has left again. That call starts a pump of
its own, which has the stream opened; one that finds a consumer is answered at once, and no stream
is being read. -/
theorem opens_again_iff_unused (name : String) (options : BufferOptions)
    (transform : Option Transform) (events : List (Nat × Event)) {early mid future : History}
    {f t : Move Buffer Event Notice} {call : CallId}
    (split : Machine.history apply (create name options transform) events =
      early ++ f :: (mid ++ t :: future)) (fails : FailsToOpen f)
    (unstarted : ∀ u ∈ mid, Notice.pumpStarted ∉ u.notices) (asks : t.event = .join call) :
    t.before.refs + mid.closes + 1 = f.before.refs + mid.joins + mid.retains ∧
      (∀ u ∈ mid, Notice.openCalled ∉ u.notices) ∧
      (t.before.refs = 0 → t.notices = [.pumpStarted] ∧ t.after.phase = .streaming ∧
        ∀ now, (t.after.apply now (.pump .started)).2 = [.openCalled]) ∧
      (0 < t.before.refs → t.notices = [.answered call (.ok ())] ∧ t.after.phase = .idle ∧
        t.after.pump = t.before.pump) := by
  obtain ⟨idle, refs⟩ := idle_since split fails unstarted
  have onward : Machine.history apply (create name options transform) events =
      (early ++ f :: mid) ++ t :: future := by simp [split]
  have moves := Machine.eq_move_of_history apply onward
  rw [asks] at moves
  refine ⟨refs, fun u member => ?_, fun unused => ?_, fun used => ?_⟩
  · obtain ⟨between, rest, rfl⟩ := List.append_of_mem member
    have here : Machine.history apply (create name options transform) events =
        early ++ f :: (between ++ u :: (rest ++ t :: future)) := by simp [split]
    have there : Machine.history apply (create name options transform) events =
        (early ++ f :: between) ++ u :: (rest ++ t :: future) := by simp [split]
    have still := (idle_since here fails fun v within => unstarted v (by simp [within])).1
    rw [Machine.eq_move_of_history apply there]
    exact (idle_apply (consistent_at there) still u.now u.event).1
  · rw [moves]
    simp [Machine.move, apply, join, unused, idle, pumpStep]
  · rw [moves]
    simp [Machine.move, apply, join, used, idle]

/-- A run of a buffer, cut after its first `n` events. -/
def stateAt (events : List (Nat × Event)) (n : Nat) : Buffer :=
  Machine.final apply (create "b" {} none) (events.take n)

/-- The only consumer learns of the failure, and the next call opens the stream again. -/
def failsAlone : List (Nat × Event) :=
  [(0, .join 0), (0, .pump .started), (1, .pump (.openFailed ⟨.notFound, none⟩)), (2, .join 1)]

/-- The only consumer learns of the failure, and the next call starts a pump. -/
theorem opens_again_after_failure_alone :
    ∃ early f mid t future,
      (Machine.history apply (create "b" {} none) failsAlone = early ++ f :: (mid ++ t :: future) ∧
        FailsToOpen f ∧ (∀ u ∈ mid, Notice.pumpStarted ∉ u.notices) ∧ t.event = .join 1) ∧
          t.notices = [.pumpStarted] := by
  obtain ⟨f, hf⟩ : ∃ f, f = Machine.move apply (stateAt failsAlone 2) 1
    (.pump (.openFailed ⟨.notFound, none⟩)) := ⟨_, rfl⟩
  obtain ⟨t, ht⟩ : ∃ t, t = Machine.move apply (stateAt failsAlone 3) 2 (.join 1) := ⟨_, rfl⟩
  have split : Machine.history apply (create "b" {} none) failsAlone =
      Machine.history apply (create "b" {} none) (failsAlone.take 2) ++ f :: ([] ++ t :: []) := by
    rw [hf, ht]
    rfl
  have fails : FailsToOpen f := by
    rw [hf]
    exact ⟨⟨_, rfl⟩, by decide, by decide⟩
  have unused : t.before.refs = 0 := by
    rw [ht]
    decide
  have unstarted : ∀ u ∈ ([] : History), Notice.pumpStarted ∉ u.notices :=
    fun u member => absurd member List.not_mem_nil
  have asks : t.event = .join 1 := by rw [ht]; rfl
  obtain ⟨-, -, again, -⟩ :=
    opens_again_iff_unused "b" {} none failsAlone split fails unstarted asks
  exact ⟨_, f, [], t, [], ⟨split, fails, unstarted, asks⟩, (again unused).1⟩

/-- After a failed opening the next call starts a pump. -/
def Retries (h : History) : Prop :=
  ∀ early f mid t future call, h = early ++ f :: (mid ++ t :: future) → FailsToOpen f →
    (∀ u ∈ mid, u.event.isJoin = false) → t.event = .join call → Notice.pumpStarted ∈ t.notices

/-- Another consumer joins while the stream is being opened, and the opening fails. -/
def failsBesideOther : List (Nat × Event) :=
  [(0, .join 0), (0, .pump .started), (1, .join 1), (2, .pump (.openFailed ⟨.notFound, none⟩)),
    (3, .join 2)]

/-- The next call starts no pump if another consumer joined during the attempt and is still
there. -/
theorem not_retries_beside_other :
    Machine.Allows apply Cooperative (create "b" {} none) failsBesideOther ∧
      ¬Retries (Machine.history apply (create "b" {} none) failsBesideOther) := by
  refine ⟨by decide, fun retries => ?_⟩
  obtain ⟨f, hf⟩ : ∃ f, f = Machine.move apply (stateAt failsBesideOther 3) 2
    (.pump (.openFailed ⟨.notFound, none⟩)) := ⟨_, rfl⟩
  obtain ⟨t, ht⟩ : ∃ t, t = Machine.move apply (stateAt failsBesideOther 4) 3 (.join 2) := ⟨_, rfl⟩
  have split : Machine.history apply (create "b" {} none) failsBesideOther =
      Machine.history apply (create "b" {} none) (failsBesideOther.take 3) ++
        f :: ([] ++ t :: []) := by
    rw [hf, ht]
    rfl
  have fails : FailsToOpen f := by
    rw [hf]
    exact ⟨⟨_, rfl⟩, by decide, by decide⟩
  have asks : t.event = .join 2 := by rw [ht]; rfl
  have used : (stateAt failsBesideOther 4).refs = 1 := by decide
  have answered : t.notices = [.answered 2 (.ok ())] := by
    simp [ht, Machine.move, apply, join, used]
  have alone : ∀ u ∈ ([] : History), u.event.isJoin = false :=
    fun u member => absurd member List.not_mem_nil
  have started := retries _ f [] t [] 2 split fails alone asks
  simp [answered] at started

end

end CachedStreams.Buffer
