import CachedStreams.Proofs.Stream.Feed
import CachedStreams.Proofs.Stream.Lifecycle

/-!
# A finished buffer is there to stay

A buffer is finished when its stream has ended or failed, or when its last consumer has released it
(`Buffer.Finishes`). In a finished buffer the pump is over, or has been asked to end and sees that
before anything else, so nothing reaches the content any more: whatever consumers, pump and watch go
on to do, the buffer stays finished and everything that readers can see of it stays as it is
(`Buffer.stays_finished`).

A stream that fails while it is read takes the content with it. What was published last remains as
the size, which changes by publishing and in no other way (`Buffer.size_apply`), and every attempt
to read is refused with the kind of the failure.
-/

set_option autoImplicit false

namespace CachedStreams

/-- A commit that publishes nothing leaves the size as it was. -/
theorem Content.size_commit_of_not_published {c : Content} {transform : Option Transform}
    {bytes : List UInt8} (unpublished : (c.commit transform bytes).2 = false) :
    (c.commit transform bytes).1.size = c.size := by
  rw [commit_of_unmarked (unpublished_iff.mp unpublished)]

namespace Buffer

/-- The size that a move publishes: how much the transform has readers see of what is stored with
the piece that arrives, or all of it. -/
def published? (t : Move Buffer Event Notice) : Option Nat :=
  match t.event with
  | .pump (.received bytes) =>
    if t.notices.countP Notice.isArrived = 0 then none
    else some (t.before.content.commit t.before.transform bytes).1.size
  | _ => none

/-- The size that was published last in the course of a history; before anything is published it
is zero. -/
def History.lastPublished (h : History) : Nat :=
  h.foldl (fun size t => (published? t).getD size) 0

/-- What finishes a buffer: the end of the stream that its pump reads, a failure of it, or the
release of the last consumer. -/
inductive Finishes (b : Buffer) : Event → Prop where
  | ended (reading : b.isReading = true) : Finishes b (.pump (.received []))
  | failed (cause : IoError) (reading : b.isReading = true) :
    Finishes b (.pump (.readFailed cause))
  | released (call : CallId) (last : b.refs = 1) (engaged : b.phase ≠ .idle) :
    Finishes b (.release call)

/-- The stream that a buffer reads fails with a move. -/
structure FailsReading (t : Move Buffer Event Notice) (cause : IoError) : Prop where
  event : t.event = .pump (.readFailed cause)
  reading : t.before.isReading = true

/-- Everything that can be seen of the content of two buffers is alike. -/
structure ShowsAlike (b c : Buffer) : Prop where
  finished : c.isFinished = b.isFinished
  size : c.size = b.size
  snapshot : c.snapshot = b.snapshot
  failure : c.failure = b.failure
  readAt : ∀ length offset, c.readAt length offset = b.readAt length offset

/-- A buffer shows that its stream failed while it was read: nothing of the content is left but the
size that was published last, and nobody can read. -/
structure ShowsFailure (h : History) (b : Buffer) (cause : IoError) : Prop where
  finished : b.isFinished = true
  failure : b.failure = some (.readFailed cause)
  empty : b.snapshot = []
  size : b.size = h.lastPublished
  refuses : ∀ length offset, ∃ error, b.readAt length offset = .error error ∧
    error.kind = cause.kind

section

variable {b : Buffer}

/-- A buffer is finished, for its readers, in two of its phases. -/
theorem isFinished_iff : b.isFinished = true ↔ b.phase = .finished ∨ b.phase = .closed := by
  simp [isFinished]

/-- The pump of a finished buffer has been asked to end, if it is not over. -/
theorem asked_of_finished (consistent : b.Consistent) (finished : b.isFinished = true)
    {p : Pump} (hp : b.pump = some p) (running : p.stage.isOver = false) :
    p.releaseAsked = true := by
  by_contra unasked
  have streaming := consistent.streaming_of_running hp running (by simpa using unasked)
  simp [isFinished_iff, streaming] at finished

/-- A finished buffer stays finished, with the content and the failure that it has. -/
theorem stays_finished (consistent : b.Consistent) (finished : b.isFinished = true) (now : Nat)
    (event : Event) :
    (b.apply now event).1.isFinished = true ∧ (b.apply now event).1.content = b.content ∧
      (b.apply now event).1.failure = b.failure := by
  have left : ∀ c : Buffer, c.phase = b.phase.afterLastRelease → c.isFinished = true := by
    intro c phase
    rw [isFinished_iff] at finished ⊢
    rcases finished with ended | closed
    · exact .inr (by rw [phase, ended]; rfl)
    · exact .inr (by rw [phase, closed]; rfl)
  rcases apply_cases b now event with ⟨-, same⟩ | move | ⟨p, hp, ⟨done, -, move⟩ | ⟨-, move⟩⟩
  · rw [same]
    exact ⟨finished, rfl, rfl⟩
  · generalize b.apply now event = r at move
    cases move with
    | starts call unused idle => simp [isFinished_iff, idle] at finished
    | joins | retains | refuses | releasesNothing | releasesOne | abandons =>
        exact ⟨finished, rfl, rfl⟩
    | leaves | leavesEnded | leavesRunning => exact ⟨left _ rfl, rfl, rfl⟩
  · rcases move.of_asked (asked_of_finished consistent finished hp) with
      same | stops | ⟨-, calls | breaks⟩
    · rw [same]
      exact ⟨finished, rfl, rfl⟩
    · rw [stops, stop_eq]
      exact ⟨finished, rfl, rfl⟩
    · rw [calls]
      exact ⟨finished, rfl, rfl⟩
    · rw [breaks, breakOff_eq]
      exact ⟨finished, rfl, rfl⟩
  · generalize b.apply now event = r at move
    cases move <;> exact ⟨finished, rfl, rfl⟩

/-- What is read is settled by the failure, the visible bytes and, behind those, by whether the
buffer is finished. -/
theorem readAt_congr {c : Buffer} (snapshot : c.snapshot = b.snapshot)
    (failure : c.failure = b.failure) {length offset : Nat}
    (reach : offset < b.snapshot.length ∨ c.isFinished = b.isFinished) :
    c.readAt length offset = b.readAt length offset := by
  have read : c.content.read length offset = b.content.read length offset :=
    congrArg (fun visible => (visible.drop offset).take length) snapshot
  unfold readAt
  rw [failure, snapshot, read]
  rcases reach with below | finished
  · simp only [if_pos below]
  · rw [finished]

/-- Two buffers show the same if they agree on what readers can see. -/
theorem showsAlike_of_eq {c : Buffer} (finished : c.isFinished = b.isFinished)
    (size : c.size = b.size) (snapshot : c.snapshot = b.snapshot)
    (failure : c.failure = b.failure) : ShowsAlike b c :=
  ⟨finished, size, snapshot, failure, fun _ _ => readAt_congr snapshot failure (.inr finished)⟩

/-- Two finished buffers show the same if they have the same content and the same failure. -/
theorem showsAlike_of_finished {c : Buffer} (before : b.isFinished = true)
    (after : c.isFinished = true) (content : c.content = b.content)
    (failure : c.failure = b.failure) : ShowsAlike b c :=
  showsAlike_of_eq (after.trans before.symm) (congrArg Content.size content)
    (congrArg Content.visible content) failure

/-- A buffer comes to be finished by a move that finishes it. -/
theorem finishes_of_isFinished {now : Nat} {event : Event} (unfinished : b.isFinished = false)
    (finished : (b.apply now event).1.isFinished = true) :
    b.Finishes event := by
  have kept : ∀ c : Buffer, c.phase = b.phase → c.isFinished = true →
      b.Finishes event := by
    intro c same finished
    rw [isFinished, same] at finished
    rw [isFinished, finished] at unfinished
    cases unfinished
  have engaged : ∀ c : Buffer, c.phase = b.phase.afterLastRelease → c.isFinished = true →
      b.phase ≠ .idle := by
    intro c phase finished idle
    simp [isFinished_iff, phase, idle, Phase.afterLastRelease] at finished
  rcases apply_cases b now event with ⟨-, same⟩ | move | ⟨p, hp, ⟨done, rfl, move⟩ | ⟨-, move⟩⟩
  · rw [same] at finished
    exact kept b rfl finished
  · generalize b.apply now event = r at move finished
    cases move with
    | joins | retains | refuses | releasesNothing | releasesOne | abandons =>
        exact kept _ rfl finished
    | starts => simp [isFinished_iff] at finished
    | leaves call last | leavesEnded call p panicked last | leavesRunning call p last =>
        exact .released call last (engaged _ rfl finished)
  · have reading : p.stage = .reading → p.releaseAsked = false → b.isReading = true :=
      fun stage unasked => isReading_eq_true_iff.mpr ⟨p, hp, stage, unasked⟩
    generalize b.apply now (.pump done) = r at move finished
    cases move with
    | ignores | starts | opens => exact kept _ rfl finished
    | failsToOpen => simp [failOpen_eq, isFinished_iff] at finished
    | breaksCall | breaksOpening | breaksReading =>
        rw [breakOff_eq] at finished
        exact kept _ rfl finished
    | ends stage unasked => exact .ended (reading stage unasked)
    | takes bytes nonempty stage unasked fits =>
        cases published : (b.content.commit b.transform bytes).2 with
        | true =>
            rw [take_of_published b p bytes published] at finished
            exact kept _ rfl finished
        | false =>
            rw [take_of_not_published b p bytes published, breakOff_eq] at finished
            exact kept _ rfl finished
    | fails cause stage unasked => exact .failed cause (reading stage unasked)
    | stops =>
        rw [stop_eq] at finished
        exact kept _ rfl finished
  · generalize b.apply now event = r at move finished
    cases move <;> exact kept _ rfl finished

/-- A buffer that is not idle is finished once its last consumer has left. -/
theorem isFinished_of_released (now : Nat) (call : CallId)
    (last : b.refs = 1) (engaged : b.phase ≠ .idle) :
    (b.apply now (.release call)).1.isFinished = true := by
  have closed : b.phase.afterLastRelease = .closed := by
    cases phase : b.phase with
    | idle => exact absurd phase engaged
    | _ => rfl
  have move := callMove_release b call
  simp only [Buffer.apply]
  generalize b.release call = r at move
  cases move with
  | releasesNothing _ unused => simp [last] at unused
  | releasesOne _ refs shared => simp [last] at shared
  | leaves | leavesEnded | leavesRunning => exact isFinished_iff.mpr (.inr closed)

/-- A failure of the stream while it is read leaves nothing of the content but its size. -/
theorem apply_readFailed (consistent : b.Consistent) (reading : b.isReading = true) (now : Nat)
    (cause : IoError) :
    let c := (b.apply now (.pump (.readFailed cause))).1
    c.isFinished = true ∧ c.failure = some (.readFailed cause) ∧ c.snapshot = [] := by
  obtain ⟨p, hp, stage, unasked⟩ := isReading_eq_true_iff.mp reading
  have streaming := consistent.streaming_of_running hp (by rw [stage]; rfl) unasked
  have fails : b.apply now (.pump (.readFailed cause)) = b.fail p cause := by
    simp [apply, hp, pumpStep, stage, unasked]
  simp only [fails, fail_eq]
  refine ⟨by simp [isFinished, streaming], trivial, ?_⟩
  simp [snapshot, Content.visible, Content.discard]

/-- An event that finishes a buffer leaves it finished. -/
theorem isFinished_of_finishes (consistent : b.Consistent) {now : Nat} {event : Event}
    (finishes : b.Finishes event) :
    (b.apply now event).1.isFinished = true := by
  cases finishes with
  | ended reading =>
      obtain ⟨p, hp, stage, unasked⟩ := isReading_eq_true_iff.mp reading
      have streaming := consistent.streaming_of_running hp (by rw [stage]; rfl) unasked
      rw [apply_received_of_reading hp stage unasked now (Nat.zero_le _), if_pos rfl, reachEnd_eq]
      simp [isFinished, streaming]
  | failed cause reading => exact (apply_readFailed consistent reading now cause).1
  | released call last engaged => exact isFinished_of_released now call last engaged

/-- The size changes by publishing and in no other way. -/
theorem size_apply (b : Buffer) (now : Nat) (event : Event) :
    (b.apply now event).1.size = (published? (Machine.move apply b now event)).getD b.size := by
  have quiet : (b.apply now event).2.countP Notice.isArrived = 0 →
      (b.apply now event).1.size = b.size →
      (b.apply now event).1.size = (published? (Machine.move apply b now event)).getD b.size := by
    intro none_ same
    have silent : published? (Machine.move apply b now event) = none := by
      unfold published? Machine.move
      split <;> simp [none_]
    rw [silent, same]
    rfl
  rcases apply_cases b now event with ⟨-, same⟩ | move | ⟨p, hp, ⟨done, rfl, move⟩ | ⟨-, move⟩⟩
  · exact quiet (by rw [same]; rfl) (by rw [same])
  · generalize b.apply now event = r at move quiet ⊢
    cases move <;> exact quiet rfl rfl
  · generalize same : b.apply now (.pump done) = r at move quiet ⊢
    cases move with
    | ignores | starts => exact quiet rfl rfl
    | opens => exact quiet rfl (Content.size_reserve _ _)
    | failsToOpen => exact quiet (by simp [failOpen_eq]) (by rw [failOpen_eq]; rfl)
    | breaksCall | breaksOpening | breaksReading =>
        refine quiet ?_ (by rw [breakOff_eq]; rfl)
        rw [breakOff_eq]
        cases isLastWord p true <;> simp
    | ends => exact quiet (by simp [reachEnd_eq]) (by rw [reachEnd_eq]; rfl)
    | takes bytes =>
        cases published : (b.content.commit b.transform bytes).2 with
        | true =>
            rw [take_of_published b p bytes published] at same ⊢
            have shows : published? (Machine.move apply b now (.pump (.received bytes))) =
                some (b.content.commit b.transform bytes).1.size := by
              simp [published?, Machine.move, same]
            rw [shows]
            exact Content.size_reserve _ _
        | false =>
            rw [take_of_not_published b p bytes published, breakOff_eq] at quiet ⊢
            refine quiet ?_ (Content.size_commit_of_not_published published)
            cases isLastWord p true <;> simp
    | fails => exact quiet (by simp [fail_eq]) (by rw [fail_eq]; rfl)
    | stops => exact quiet (by simp [stop_eq]) (by rw [stop_eq]; rfl)
  · generalize b.apply now event = r at move quiet ⊢
    cases move with
    | waits => exact quiet rfl rfl
    | settles => exact quiet (by simp) rfl

end

section

variable {b : Buffer} {name : String} {options : BufferOptions} {transform : Option Transform}

/-- In every run a buffer is finished if something has finished it. -/
theorem isFinished_iff_finishes (events : List (Nat × Event)) :
    (Machine.final apply (create name options transform) events).isFinished = true ↔
      ∃ t ∈ Machine.history apply (create name options transform) events,
        t.before.Finishes t.event := by
  refine (Machine.history_induction apply (fun h b => b.Consistent ∧
    (b.isFinished = true ↔ ∃ t ∈ h, t.before.Finishes t.event))
    ⟨.create name options transform, ?_⟩ ?_ (Machine.allows_true apply _ events)).2
  · simp [create, isFinished]
  · rintro h b now event ⟨consistent, before⟩ -
    refine ⟨consistent.apply now event, ?_⟩
    simp only [List.mem_append, List.mem_singleton, or_and_right, exists_or, exists_eq_left,
      ← before]
    constructor
    · intro after
      cases finished : b.isFinished with
      | true => exact .inl rfl
      | false => exact .inr (finishes_of_isFinished finished after)
    · rintro (finished | finishes)
      · exact (stays_finished consistent finished now event).1
      · exact isFinished_of_finishes consistent finishes

/-- In every run the visible length is the one that was published last. -/
theorem size_eq_lastPublished (events : List (Nat × Event)) :
    (Machine.final apply (create name options transform) events).size =
      History.lastPublished (Machine.history apply (create name options transform) events) := by
  refine Machine.history_induction apply (fun h b => b.size = History.lastPublished h) rfl ?_
    (Machine.allows_true apply _ events)
  intro h b now event same _
  rw [size_apply, same]
  simp [History.lastPublished]

/-- Once a buffer is finished, whatever happens to it, it shows what it showed before. -/
theorem showsAlike_of_run (consistent : b.Consistent) (finished : b.isFinished = true)
    (later : List (Nat × Event)) : ShowsAlike b (Machine.final apply b later) := by
  have kept := Machine.final_induction apply (fun c : Buffer => c.Consistent ∧
    c.isFinished = true ∧ c.content = b.content ∧ c.failure = b.failure)
    ⟨consistent, finished, rfl, rfl⟩ (fun c now event holds _ => by
    obtain ⟨consistent, finished, content, failure⟩ := holds
    obtain ⟨still, content', failure'⟩ := stays_finished consistent finished now event
    exact ⟨consistent.apply now event, still, content'.trans content, failure'.trans failure⟩)
    (Machine.allows_true apply b later)
  obtain ⟨-, still, content, failure⟩ := kept
  exact showsAlike_of_finished finished still content failure

/-- A pump that is not reading is told nothing. -/
theorem apply_readFailed_of_not_reading (idle : b.isReading = false) (now : Nat)
    (cause : IoError) : b.apply now (.pump (.readFailed cause)) = (b, []) := by
  simp only [apply]
  split
  · rename_i p hp
    refine if_neg fun reads => ?_
    have reading := isReading_eq_true_iff.mpr ⟨p, hp, reads.1, by simpa using reads.2⟩
    rw [idle] at reading
    cases reading
  · rfl

/-- A failure that is there stays. -/
theorem failure_kept (consistent : b.Consistent) {e : StreamError} (failed : b.failure = some e)
    (now : Nat) (event : Event) : (b.apply now event).1.failure = some e := by
  obtain ⟨idle, p, hp, gone⟩ := consistent.failed (by simp [failed])
  rw [(IsDone.apply ⟨idle, p, hp, gone⟩ now event).2.2, failed]

/-- A failure is there only if the stream failed while it was read. -/
theorem readFailed_of_failure (consistent : b.Consistent) {now : Nat} {event : Event}
    {e : StreamError} (failed : (b.apply now event).1.failure = some e) :
    b.failure = some e ∨ ∃ cause, e = .readFailed cause ∧ event = .pump (.readFailed cause) ∧
      b.isReading = true := by
  have move := contentMove_apply consistent now event
  generalize (b.apply now event).1 = c at failed move
  cases move with
  | keeps _ _ failure | reserves _ _ failure => exact .inl (failure ▸ failed)
  | publishes _ _ _ _ _ _ failure => exact .inl (failure ▸ failed)
  | breaksOff _ _ _ _ failure => exact .inl (failure ▸ failed)
  | fails _ cause failing reading _ failure =>
      have own : e = .readFailed cause := Option.some.inj (failed.symm.trans failure)
      exact .inr ⟨cause, own, failing, reading⟩

/-- After its stream has failed a buffer shows the failure, and nothing else makes it show one. -/
theorem failure_iff_failsReading (events : List (Nat × Event)) (cause : IoError) :
    (∃ t ∈ Machine.history apply (create name options transform) events, FailsReading t cause) ↔
      (Machine.final apply (create name options transform) events).failure =
        some (.readFailed cause) := by
  refine (Machine.history_induction apply (fun h b => b.Consistent ∧
    ((∃ t ∈ h, FailsReading t cause) ↔ b.failure = some (.readFailed cause)))
    ⟨.create name options transform, ?_⟩ ?_ (Machine.allows_true apply _ events)).2
  · simp [create]
  · rintro h b now event ⟨consistent, before⟩ -
    refine ⟨consistent.apply now event, ?_⟩
    simp only [List.mem_append, List.mem_singleton, or_and_right, exists_or, exists_eq_left,
      before]
    constructor
    · rintro (failed | ⟨same, reading⟩)
      · exact failure_kept consistent failed now event
      · obtain rfl : event = .pump (.readFailed cause) := same
        exact (apply_readFailed consistent reading now cause).2.1
    · intro failed
      refine (readFailed_of_failure consistent failed).imp_right ?_
      rintro ⟨own, same, rfl, reading⟩
      cases same
      exact ⟨rfl, reading⟩

/-- In every run a failure that is recorded is that of a read, and readers are told of it. -/
theorem showsFailure_of_run (events : List (Nat × Event)) {e : StreamError}
    (failed : (Machine.final apply (create name options transform) events).failure = some e) :
    ∃ cause, e = .readFailed cause ∧
      ShowsFailure (Machine.history apply (create name options transform) events)
        (Machine.final apply (create name options transform) events) cause := by
  have size : (Machine.final apply (create name options transform) events).size = _ :=
    size_eq_lastPublished events
  obtain ⟨-, shows⟩ := Machine.final_induction apply (fun b => b.Consistent ∧ ∀ e,
    b.failure = some e → ∃ cause, e = .readFailed cause ∧ b.isFinished = true ∧ b.snapshot = [])
    ⟨.create name options transform, by simp [create]⟩ (fun b now event holds _ => by
      obtain ⟨consistent, before⟩ := holds
      refine ⟨consistent.apply now event, fun e failed => ?_⟩
      rcases readFailed_of_failure consistent failed with old | ⟨cause, rfl, rfl, reading⟩
      · obtain ⟨cause, same, finished, empty⟩ := before e old
        obtain ⟨still, content, -⟩ := stays_finished consistent finished now event
        exact ⟨cause, same, still, (congrArg Content.visible content).trans empty⟩
      · obtain ⟨finished, -, empty⟩ := apply_readFailed consistent reading now cause
        exact ⟨cause, rfl, finished, empty⟩) (Machine.allows_true apply _ events)
  obtain ⟨cause, rfl, finished, empty⟩ := shows e failed
  refine ⟨cause, rfl, finished, failed, empty, size, fun length offset => ?_⟩
  exact ⟨StreamError.toIoError (.readFailed cause), by rw [readAt, failed], rfl⟩

end

/-- In every run a buffer is finished from the end of its stream, the failure of the stream or the
release of its last consumer on, and whatever happens after that, it stays finished and its size,
its content, its failure and what is read from it at any position stay as they are. A failure is
recorded exactly if the stream failed while it was read; then the content is empty, the size is what
was published last, and all who read are refused with the kind of the failure. -/
theorem finished_is_final (name : String) (options : BufferOptions) (transform : Option Transform)
    (events later : List (Nat × Event)) :
    let h : History := Machine.history apply (create name options transform) events
    let b := Machine.final apply (create name options transform) events
    (b.isFinished = true ↔ ∃ t ∈ h, t.before.Finishes t.event) ∧
      (b.isFinished = true → ShowsAlike b (Machine.final apply b later)) ∧
      (∀ cause, (∃ t ∈ h, FailsReading t cause) ↔ b.failure = some (.readFailed cause)) ∧
      ∀ e, b.failure = some e → ∃ cause, e = .readFailed cause ∧ ShowsFailure h b cause :=
  ⟨isFinished_iff_finishes events,
    fun finished => showsAlike_of_run (consistent_final _ (.create name options transform) events)
      finished later,
    failure_iff_failsReading events, fun _ => showsFailure_of_run events⟩

/-- The reader gives three bytes and then fails. -/
def failsAfterThree : List (Nat × Event) :=
  [(0, .join 0), (0, .pump .started), (1, .pump .opened), (1, .watch .timers),
    (2, .pump (.received [7, 8, 9])), (3, .pump (.readFailed ⟨.connectionReset, none⟩))]

/-- Consumers come and go, and the reader has more to give. -/
def afterwards : List (Nat × Event) :=
  [(4, .join 1), (4, .pump (.received [10])), (5, .retain), (5, .release 0), (6, .release 1),
    (6, .release 2), (6, .pump .releaseSeen), (7, .join 3), (8, .pump .started),
    (8, .watch .timers)]

/-- A read fails after two bytes, and a later look is told so. -/
theorem finished_is_final_after_failure :
    let start := create "b" {} none
    let h : History := Machine.history apply start failsAfterThree
    let b := Machine.final apply start failsAfterThree
    b.isFinished = true ∧ b.size = 3 ∧ (Machine.final apply b afterwards).phase = .closed ∧
      ShowsAlike b (Machine.final apply b afterwards) ∧
      ShowsFailure h b ⟨.connectionReset, none⟩ := by
  intro start h b
  have finished : b.isFinished = true := by decide
  have failed : b.failure = some (.readFailed ⟨.connectionReset, none⟩) := by decide
  obtain ⟨-, stays, -, shows⟩ := finished_is_final "b" {} none failsAfterThree afterwards
  obtain ⟨cause, same, failure⟩ := shows _ failed
  cases same
  exact ⟨finished, by decide, by decide, stays finished, failure⟩

end Buffer

end CachedStreams
