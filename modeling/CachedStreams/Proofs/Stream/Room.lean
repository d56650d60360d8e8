import CachedStreams.Proofs.Stream.Contents
import CachedStreams.Proofs.Stream.Finality

/-!
# Room for the next read

A pump cannot tell a read that was offered no room from the end of the stream. Before it reads it
makes room, and a storage that is full grows: it triples, or it grows by the slow-growth threshold.
So there is room for every read, unless that threshold is zero. A buffer with such options keeps the
capacity that it was created with, or that of one byte, and once it holds as much
(`Content.CannotGrow`) the next read takes the rest of the stream for its end.

`Buffer.Roomy` is the invariant of every run, whatever the transform and the reader; `Feed.Closes`
adds what an honest reader has given when the end was reported.
-/

set_option autoImplicit false

namespace CachedStreams

namespace Content

/-- A storage that offers no room is full. -/
theorem spare_eq_zero_of_room {c : Content} (full : c.room = 0) : c.capacity ≤ c.stored.length := by
  have hread : 0 < maxReadLength := by decide
  unfold room spare at full
  omega

/-- A storage that has just made room has none only if it grows by nothing. -/
theorem still_of_room_reserve {c : Content} {o : BufferOptions} (fits : c.Fits)
    (small : c.stored.length < maxCapacity) (full : (c.reserve o).room = 0) :
    o.slowGrowth = 0 ∧ 0 < (c.reserve o).capacity := by
  have still : o.slowGrowth = 0 := by
    by_contra grows
    have pos := room_reserve_pos (Nat.pos_of_ne_zero grows) fits small
    omega
  refine ⟨still, ?_⟩
  have hmax : 0 < maxCapacity := by decide
  unfold reserve
  split
  · omega
  · simp only [BufferOptions.grownCapacity, still, Nat.not_lt_zero, if_false]
    split <;> omega

/-- A storage that grows by nothing has the capacity that it was created with, or that of a byte. -/
def IsStill (c : Content) (o : BufferOptions) : Prop :=
  c.capacity = o.initialCapacity ∨ c.capacity = max o.initialCapacity 1

/-- A storage that cannot grow stays so when it makes room. -/
theorem isStill_reserve {c : Content} {o : BufferOptions} (still : o.slowGrowth = 0)
    (allocates : o.initialCapacity ≤ maxCapacity) (h : c.IsStill o) : (c.reserve o).IsStill o := by
  have hmax : 1 ≤ maxCapacity := by decide
  unfold IsStill at h ⊢
  unfold reserve
  split
  · exact h
  · simp only [BufferOptions.grownCapacity, still, Nat.not_lt_zero, if_false]
    split <;> omega

/-- A storage that grows by nothing is as full as it was created to be, with at least a byte. -/
structure CannotGrow (c : Content) (o : BufferOptions) : Prop where
  still : o.slowGrowth = 0
  full : c.stored.length = max o.initialCapacity 1

end Content

namespace Buffer

/-- There is no room for the next read, although the storage is not as large as can be. -/
structure IsStuck (b : Buffer) : Prop where
  full : b.content.room = 0
  still : b.content.stored.length < maxCapacity →
    b.options.slowGrowth = 0 ∧ 0 < b.content.capacity

/-- Whether a buffer is stuck depends on its content and options alone. -/
theorem IsStuck.congr {b c : Buffer} (h : b.IsStuck) (content : c.content = b.content)
    (options : c.options = b.options) : c.IsStuck := by
  refine ⟨?_, ?_⟩
  · rw [content]
    exact h.full
  · rw [content, options]
    exact h.still

/-- How the storage of a buffer grows. -/
structure Roomy (b : Buffer) : Prop where
  consistent : b.Consistent
  fits : b.content.Fits
  still : b.options.slowGrowth = 0 → b.options.initialCapacity ≤ maxCapacity → b.failure = none →
    b.content.IsStill b.options
  /-- Before a read there was room made. -/
  reserved : b.stage? = some .reading → b.content.room = 0 → b.IsStuck

namespace Roomy

variable {b : Buffer}

/-- The pump of a new buffer does not read yet. -/
theorem create (name : String) (options : BufferOptions) (transform : Option Transform) :
    Roomy (create name options transform) where
  consistent := .create name options transform
  fits := .inl (Nat.zero_le _)
  still _ _ _ := .inl rfl
  reserved reading := by cases reading

/-- A buffer whose content has just made room. -/
theorem of_reserve {c : Buffer} {content : Content} (consistent : c.Consistent)
    (fits : content.Fits)
    (still : c.options.slowGrowth = 0 → c.options.initialCapacity ≤ maxCapacity →
      c.failure = none → content.IsStill c.options)
    (reserves : c.content = content.reserve c.options) : Roomy c := by
  refine ⟨consistent, ?_, fun slow allocates unfailed => ?_, fun _ full => ⟨full, fun small => ?_⟩⟩
  · rw [reserves]
    exact Content.fits_reserve _ fits
  · rw [reserves]
    exact Content.isStill_reserve slow allocates (still slow allocates unfailed)
  · rw [reserves, Content.stored_reserve] at small
    rw [reserves] at full ⊢
    exact Content.still_of_room_reserve fits small full

/-- Nothing that can happen to a buffer makes its pump read without room, unless it cannot grow. -/
theorem apply (h : Roomy b) (now : Nat) (event : Event) : Roomy (b.apply now event).1 := by
  have consistent := h.consistent.apply now event
  have options := (fixed_apply b now event).2
  have move := contentMove_apply h.consistent now event
  generalize (b.apply now event).1 = c at consistent options move
  have committed : ∀ bytes, (b.content.commit b.transform bytes).1.IsStill b.options ↔
      b.content.IsStill b.options := fun bytes => by simp [Content.IsStill]
  cases move with
  | keeps untaken content failure stage =>
      refine ⟨consistent, content ▸ h.fits, ?_, fun reading full => ?_⟩
      · rw [options, failure, content]
        exact h.still
      · exact (h.reserved (stage reading) (content ▸ full)).congr content options
  | reserves untaken content failure =>
      refine of_reserve consistent h.fits ?_ (options ▸ content)
      rw [options, failure]
      exact h.still
  | publishes bytes takes visible write marks content failure =>
      refine of_reserve consistent (Content.fits_commit takes.nonempty takes.fits) ?_
        (options ▸ content)
      rw [options, failure, committed]
      exact h.still
  | breaksOff bytes takes unmarked content failure phase gone =>
      refine ⟨consistent, ?_, ?_, fun reading => by simp [gone] at reading⟩
      · rw [content]
        exact Content.fits_commit takes.nonempty takes.fits
      · rw [options, failure, content, committed]
        exact h.still
  | fails untaken cause failing reading content failure gone =>
      refine ⟨consistent, ?_, fun _ _ unfailed => ?_, fun reading => by simp [gone] at reading⟩
      · rw [content]
        exact .inl (Nat.zero_le _)
      · rw [failure] at unfailed
        cases unfailed

/-- In every run a pump reads without room only if its buffer is stuck. -/
theorem of_run (name : String) (options : BufferOptions) (transform : Option Transform)
    (events : List (Nat × Event)) :
    Roomy (Machine.final Buffer.apply (Buffer.create name options transform) events) :=
  Machine.final_induction Buffer.apply Roomy (.create name options transform)
    (fun _ now event h _ => h.apply now event) (Machine.allows_true Buffer.apply _ events)

/-- There is no room at all in a storage that is as full as it was created to be. -/
theorem cannotGrow_of_isStuck (h : Roomy b) (allocates : b.options.initialCapacity ≤ maxCapacity)
    (unfailed : b.failure = none) (small : b.content.stored.length < maxCapacity)
    (stuck : b.IsStuck) : b.content.CannotGrow b.options := by
  obtain ⟨still, pos⟩ := stuck.still small
  have full := Content.spare_eq_zero_of_room stuck.full
  have fits := h.fits
  have capacity := h.still still allocates unfailed
  refine ⟨still, ?_⟩
  unfold Content.Fits at fits
  unfold Content.IsStill at capacity
  omega

/-- A storage that cannot grow and is full offers no room. -/
theorem room_of_cannotGrow (h : Roomy b) (allocates : b.options.initialCapacity ≤ maxCapacity)
    (unfailed : b.failure = none) (cannotGrow : b.content.CannotGrow b.options) :
    b.content.room = 0 := by
  have capacity := h.still cannotGrow.still allocates unfailed
  have full := cannotGrow.full
  unfold Content.IsStill at capacity
  unfold Content.room Content.spare
  omega

/-- While a pump reads, there is room for the next read unless the buffer cannot grow. -/
theorem room_eq_zero_iff (h : Roomy b) (allocates : b.options.initialCapacity ≤ maxCapacity)
    (reading : b.stage? = some .reading) (small : b.content.stored.length < maxCapacity) :
    b.content.room = 0 ↔ b.content.CannotGrow b.options := by
  obtain ⟨p, hp, stage⟩ := Option.map_eq_some_iff.mp reading
  have unfailed := h.consistent.failure_of_running hp (by rw [stage]; rfl)
  exact ⟨fun full => h.cannotGrow_of_isStuck allocates unfailed small (h.reserved reading full),
    h.room_of_cannotGrow allocates unfailed⟩

end Roomy

/-- Whether an event is that the reader gives nothing. -/
def Event.isEnd : Event → Bool
  | .pump (.received []) => true
  | _ => false

/-- Whether an event is a read that gives nothing. -/
theorem Event.isEnd_iff {event : Event} : event.isEnd = true ↔ event = .pump (.received []) := by
  unfold isEnd
  split <;> simp_all

/-- The reader reports the end of the stream to a pump that waits for it. -/
structure ReportsEnd (t : Move Buffer Event Notice) : Prop where
  event : t.event = .pump (.received [])
  reading : t.before.isReading = true

/-- The pump of a buffer that reads is at the stage of reading. -/
theorem stage?_of_isReading {b : Buffer} (reading : b.isReading = true) :
    b.stage? = some .reading := by
  obtain ⟨p, hp, stage, -⟩ := isReading_eq_true_iff.mp reading
  simp [stage?, hp, stage]

/-- A buffer that is finished without a failure was so before, or its reader reports the end. -/
theorem unfailed_finished_apply {b : Buffer} (consistent : b.Consistent) (now : Nat)
    {event : Event} (finished : (b.apply now event).1.phase = .finished)
    (unfailed : (b.apply now event).1.failure = none) :
    b.phase = .finished ∧ b.failure = none ∨ ReportsEnd (Machine.move apply b now event) := by
  have before : b.failure = none := by
    by_contra failed
    obtain ⟨e, failed⟩ := Option.ne_none_iff_exists'.mp failed
    rw [failure_kept consistent failed now event] at unfailed
    cases unfailed
  cases reads : event.isReadFailure with
  | false =>
      rcases finished_apply now reads finished with already | ⟨isEnd, reading⟩
      · exact .inl ⟨already, before⟩
      · exact .inr ⟨isEnd, reading⟩
  | true =>
      obtain ⟨cause, rfl⟩ := Event.isReadFailure_iff.mp reads
      cases reading : b.isReading with
      | true =>
          rw [(apply_readFailed consistent reading now cause).2.1] at unfailed
          cases unfailed
      | false =>
          rw [apply_readFailed_of_not_reading reading] at finished
          exact .inl ⟨finished, before⟩

/-- A buffer that is finished without a failure was told so by its reader. -/
theorem reportsEnd_of_finished (name : String) (options : BufferOptions)
    (transform : Option Transform) (events : List (Nat × Event)) :
    let b := Machine.final apply (create name options transform) events
    b.phase = .finished → b.failure = none →
      ∃ t ∈ Machine.history apply (create name options transform) events, ReportsEnd t := by
  refine (Machine.history_induction apply (fun h b => b.Consistent ∧
    (b.phase = .finished → b.failure = none → ∃ t ∈ h, ReportsEnd t))
    ⟨.create name options transform, nofun⟩ ?_ (Machine.allows_true apply _ events)).2
  rintro h b now event ⟨consistent, before⟩ -
  refine ⟨consistent.apply now event, fun finished unfailed => ?_⟩
  rcases unfailed_finished_apply consistent now finished unfailed with ⟨already, sound⟩ | reports
  · obtain ⟨t, member, reports⟩ := before already sound
    exact ⟨t, List.mem_append_left _ member, reports⟩
  · exact ⟨_, by simp, reports⟩

/-- No read that is offered no room is taken for the end of the stream. -/
def History.EndsWithRoom (h : History) : Prop :=
  ∀ t ∈ h, ReportsEnd t → 0 < t.before.content.room

instance (t : Move Buffer Event Notice) : Decidable (ReportsEnd t) :=
  decidable_of_iff (t.event.isEnd = true ∧ t.before.isReading = true)
    ⟨fun h => ⟨Event.isEnd_iff.mp h.1, h.2⟩, fun h => ⟨Event.isEnd_iff.mpr h.event, h.reading⟩⟩

instance (h : History) : Decidable h.EndsWithRoom :=
  inferInstanceAs (Decidable (∀ t ∈ h, ReportsEnd t → 0 < t.before.content.room))

end Buffer

namespace Feed

/-- A new buffer, and a reader that has all of a stream to give. -/
def create (name : String) (options : BufferOptions) (transform : Option Transform)
    (stream : List UInt8) : Feed := ⟨.create name options transform, stream, false⟩

/-- What an honest reader gives when something happens. -/
inductive Gives (f : Feed) (event : Buffer.Event) (g : Feed) : Prop where
  | piece (bytes : List UInt8) (takes : f.buffer.Takes event bytes) (first : bytes <+: f.rest)
    (rest : g.rest = f.rest.drop bytes.length) (ended : g.ended = f.ended)
  | reportsEnd (untaken : ∀ bytes, ¬f.buffer.Takes event bytes)
    (isEnd : event = .pump (.received [])) (reading : f.buffer.isReading = true)
    (last : f.rest = [] ∨ f.buffer.content.room = 0) (rest : g.rest = f.rest)
    (ended : g.ended = true)
  | nothing (untaken : ∀ bytes, ¬f.buffer.Takes event bytes)
    (unreported : ¬(event = .pump (.received []) ∧ f.buffer.isReading = true))
    (rest : g.rest = f.rest) (ended : g.ended = f.ended)

/-- What an honest reader gives in a move is the next piece, or nothing. -/
theorem gives_apply {f : Feed} (now : Nat) {event : Buffer.Event} (honest : f.Honest event) :
    Gives f event (f.apply now event).1 := by
  cases given : f.given event with
  | none =>
      have silent : ∀ bytes, event = .pump (.received bytes) → f.buffer.isReading = false := by
        rintro bytes rfl
        simpa [Feed.given] using given
      have kept : (f.apply now event).1 = { f with buffer := (f.buffer.apply now event).1 } := by
        simp [apply, given]
      rw [kept]
      refine .nothing (fun bytes takes => ?_) ?_ rfl rfl
      · have idle := silent bytes takes.event
        rw [takes.reading] at idle
        cases idle
      · rintro ⟨isEnd, reading⟩
        rw [silent [] isEnd] at reading
        cases reading
  | some bytes =>
      obtain ⟨first, fits, last⟩ := honest bytes given
      obtain ⟨rfl, reading⟩ := Faithful.received_of_given given
      have moved : (f.apply now (.pump (.received bytes))).1 =
          ⟨(f.buffer.apply now (.pump (.received bytes))).1, f.rest.drop bytes.length,
            f.ended || bytes.isEmpty⟩ := by
        simp [apply, given]
      rw [moved]
      by_cases empty : bytes = []
      · subst empty
        refine .reportsEnd (fun bytes takes => ?_) rfl reading (last rfl) rfl (by simp)
        cases takes.event
        exact takes.nonempty rfl
      · exact .piece bytes ⟨rfl, reading, empty, fits⟩ first rfl (by simp [empty])

/-- What holds of any buffer and its honest reader when the end has been reported. -/
structure Closes (f : Feed) : Prop where
  roomy : f.buffer.Roomy
  /-- All was given, unless there was no room for the rest. -/
  ended : f.ended = true → f.buffer.IsDone ∧ (f.rest = [] ∨ f.buffer.IsStuck)
  finished : f.buffer.phase = .finished → f.buffer.failure = none → f.ended = true

namespace Closes

variable {f : Feed}

/-- At the beginning no end has been reported. -/
theorem create (name : String) (options : BufferOptions) (transform : Option Transform)
    (stream : List UInt8) : Closes (Feed.create name options transform stream) where
  roomy := .create name options transform
  ended isEnd := by cases isEnd
  finished isEnd := by cases isEnd

/-- The reader reports the end: all was given, or there is no room for the rest. -/
theorem done_of_reportsEnd (h : Closes f) (now : Nat) (reading : f.buffer.isReading = true)
    (last : f.rest = [] ∨ f.buffer.content.room = 0) :
    let b := (f.buffer.apply now (.pump (.received []))).1
    b.IsDone ∧ (f.rest = [] ∨ b.IsStuck) := by
  obtain ⟨p, hp, stage, asked⟩ := Buffer.isReading_eq_true_iff.mp reading
  have streaming := h.roomy.consistent.streaming_of_running hp (by rw [stage]; rfl) asked
  rw [Buffer.apply_received_of_reading hp stage asked now (Nat.zero_le _), if_pos rfl,
    Buffer.reachEnd_eq]
  refine ⟨⟨by simp [streaming], _, rfl, rfl⟩, last.imp_right fun full => ?_⟩
  exact (h.roomy.reserved (Buffer.stage?_of_isReading reading) full).congr rfl rfl

/-- With an honest reader the end is reported only when nothing is to come or the storage cannot
grow. -/
theorem apply (h : Closes f) (now : Nat) {event : Buffer.Event} (honest : f.Honest event) :
    Closes (f.apply now event).1 := by
  have gives := gives_apply now honest
  have buffer := f.buffer_apply now event
  have options := (Buffer.fixed_apply f.buffer now event).2
  refine ⟨buffer ▸ h.roomy.apply now event, fun ended => ?_, fun finished unfailed => ?_⟩
  · rw [buffer]
    cases gives with
    | piece bytes takes first rest same =>
        -- Nothing is taken in once the pump is over.
        obtain ⟨p, hp, stage, -⟩ := Buffer.isReading_eq_true_iff.mp takes.reading
        obtain ⟨⟨-, q, hq, gone⟩, -⟩ := h.ended (same ▸ ended)
        rw [hp, Option.some.injEq] at hq
        rw [← hq, stage] at gone
        cases gone
    | reportsEnd untaken isEnd reading last rest =>
        subst isEnd
        rw [rest]
        exact h.done_of_reportsEnd now reading last
    | nothing untaken unreported rest same =>
        obtain ⟨done, last⟩ := h.ended (same ▸ ended)
        obtain ⟨done, content, -⟩ := done.apply now event
        rw [rest]
        exact ⟨done, last.imp_right fun stuck => stuck.congr content options⟩
  · rw [buffer] at finished unfailed
    rcases Buffer.unfailed_finished_apply h.roomy.consistent now finished unfailed with
      ⟨already, sound⟩ | reports
    · have before := h.finished already sound
      cases gives with
      | piece bytes takes first rest same => exact same.trans before
      | reportsEnd untaken isEnd reading last rest ended => exact ended
      | nothing untaken unreported rest same => exact same.trans before
    · have isEnd : event = .pump (.received []) := reports.event
      cases gives with
      | piece bytes takes =>
          rw [takes.event] at isEnd
          cases isEnd
          exact absurd rfl takes.nonempty
      | reportsEnd untaken isEnd reading last rest ended => exact ended
      | nothing untaken unreported => exact absurd ⟨isEnd, reports.reading⟩ unreported

/-- In every run with an honest reader the end is reported only when nothing is to come or the
storage cannot grow. -/
theorem of_run {name : String} {options : BufferOptions} {transform : Option Transform}
    {stream : List UInt8} {events : List (Nat × Buffer.Event)}
    (honest : Machine.Allows Feed.apply Honest (Feed.create name options transform stream) events) :
    Closes (Machine.final Feed.apply (Feed.create name options transform stream) events) :=
  Machine.final_induction Feed.apply Closes (.create name options transform stream)
    (fun _ now _ h honest => h.apply now honest) honest

end Closes

end Feed

namespace Buffer

/-- As long as its storage can be allocated, a pump that reads has room for the next read, unless
its buffer grows by nothing and is as full as it was created to be; and a buffer is finished without
a failure only if its reader reported the end of the stream to a read for which there was room, or
to one that such a buffer made without. So if the reader is honest it has given everything by then,
and only a buffer that cannot grow ends before its stream does. -/
theorem finished_at_end_or_full (name : String) {options : BufferOptions}
    (allocates : options.initialCapacity ≤ maxCapacity) (transform : Option Transform)
    (events : List (Nat × Event)) :
    let h : History := Machine.history apply (create name options transform) events
    let b := Machine.final apply (create name options transform) events
    (b.stage? = some .reading → b.content.stored.length < maxCapacity →
      (b.content.room = 0 ↔ b.content.CannotGrow options)) ∧
    (b.phase = .finished → b.failure = none → ∃ t ∈ h, ReportsEnd t ∧
      (t.before.content.stored.length < maxCapacity →
        0 < t.before.content.room ∨ t.before.content.CannotGrow options)) ∧
    ∀ stream, Machine.Allows Feed.apply Feed.Honest
        (Feed.create name options transform stream) events →
      b.phase = .finished → b.failure = none → b.content.stored.length < maxCapacity →
        (Machine.final Feed.apply (Feed.create name options transform stream) events).rest = [] ∨
          b.content.CannotGrow options := by
  intro h b
  have room : ∀ earlier : List (Nat × Event),
      let c := Machine.final apply (create name options transform) earlier
      c.Roomy ∧ c.options = options ∧ (c.stage? = some .reading →
        c.content.stored.length < maxCapacity →
          (c.content.room = 0 ↔ c.content.CannotGrow options)) := by
    intro earlier c
    have roomy : c.Roomy := .of_run name options transform earlier
    have same : c.options = options := (fixed_of_run name options transform earlier).2
    refine ⟨roomy, same, fun reading small => ?_⟩
    rw [← same] at allocates ⊢
    exact roomy.room_eq_zero_iff allocates reading small
  obtain ⟨roomy, same, here⟩ := room events
  refine ⟨here, fun finished unfailed => ?_, fun stream honest finished unfailed small => ?_⟩
  · obtain ⟨t, member, reports⟩ :=
      reportsEnd_of_finished name options transform events finished unfailed
    refine ⟨t, member, reports, fun small => ?_⟩
    obtain ⟨earlier, now, event, later, -, rfl⟩ := Machine.exists_of_mem_history apply member
    have iff := (room earlier).2.2 (stage?_of_isReading reports.reading) small
    exact (Nat.eq_zero_or_pos _).symm.imp_right iff.mp
  · have closes := Feed.Closes.of_run honest
    have buffer : _ = b := Feed.buffer_final (Feed.create name options transform stream) events
    obtain ⟨-, last⟩ := closes.ended (closes.finished (buffer ▸ finished) (buffer ▸ unfailed))
    rw [buffer] at last
    refine last.imp_right fun stuck => ?_
    rw [← same] at allocates ⊢
    exact roomy.cannotGrow_of_isStuck allocates unfailed small stuck

/-- Three bytes through the capacities 0, 1 and 2; the second of them is taken out again. -/
theorem finished_at_end_of_three_bytes :
    let options : BufferOptions := { initialCapacity := 0, slowGrowth := 1 }
    let start := Feed.create "three" options (some .stripReturns) [104, 13, 105]
    let events : List (Nat × Event) :=
      [(0, .join 0), (0, .pump .started), (1, .pump .opened), (1, .watch .timers),
        (2, .pump (.received [104])), (3, .pump (.received [13])), (4, .pump (.received [105])),
        (5, .pump (.received []))]
    let b := Machine.final apply (create "three" options (some .stripReturns)) events
    options.initialCapacity ≤ maxCapacity ∧ Machine.Allows Feed.apply Feed.Honest start events ∧
      (b.phase = .finished ∧ b.failure = none ∧ b.snapshot = [104, 105]) ∧
      (Machine.final Feed.apply start events).rest = [] := by
  intro options start events b
  have allocates : options.initialCapacity ≤ maxCapacity := by decide
  have honest : Machine.Allows Feed.apply Feed.Honest start events := by decide
  have finished : b.phase = .finished := by decide
  have unfailed : b.failure = none := by decide
  have small : b.content.stored.length < maxCapacity := by decide
  refine ⟨allocates, honest, ⟨finished, unfailed, by decide⟩, ?_⟩
  obtain ⟨-, -, given⟩ :=
    finished_at_end_or_full "three" allocates (some .stripReturns) events
  rcases given [104, 13, 105] honest finished unfailed small with all | ⟨still, -⟩
  · exact all
  · cases still

/-- A buffer of four bytes that grows by nothing takes the read that it makes without room for the
end of a stream of five, and the last byte is lost. -/
theorem not_endsWithRoom_of_still :
    let options : BufferOptions := { initialCapacity := 4, slowGrowth := 0 }
    let start := Feed.create "b" options none [104, 101, 108, 108, 111]
    let f := Machine.final Feed.apply start outgrowing
    Machine.Allows Feed.apply Feed.Honest start outgrowing ∧
      (f.buffer.phase = .finished ∧ f.buffer.failure = none ∧ f.rest = [111]) ∧
      ¬History.EndsWithRoom (Machine.history apply (create "b" options none) outgrowing) := by
  decide

end Buffer

end CachedStreams
