import CachedStreams.Proofs.Stream.Contents

/-!
# A buffer holds what its reader gave

A plain buffer, one without a transform, is followed together with its reader: `Feed` adds to the
buffer what the reader has still to give of the stream. A reader is honest if it hands out the
stream in order, in pieces that are not empty and fit the room it is offered, and gives nothing
only at the end of the stream, or when it is offered no room at all.

`Feed.Faithful` is the invariant of every run with an honest reader, whatever the consumers, the
watch and the release of the buffer do in between: what is stored and what is still to come make up
the stream, and while the pump reads there is room for more. What readers of the buffer see is read
off from it.
-/

set_option autoImplicit false

namespace CachedStreams

namespace Buffer

/-- Whether an event is that a read fails. -/
def Event.isReadFailure : Event → Bool
  | .pump (.readFailed _) => true
  | _ => false

/-- Whether an event is a failed read. -/
theorem Event.isReadFailure_iff {event : Event} :
    event.isReadFailure = true ↔ ∃ cause, event = .pump (.readFailed cause) := by
  unfold isReadFailure
  split <;> simp_all

/-- Only a failed read records a failure. -/
theorem failure_apply {b : Buffer} (sound : b.failure = none) (now : Nat) {event : Event}
    (reads : event.isReadFailure = false) : (b.apply now event).1.failure = none := by
  rcases apply_cases b now event with ⟨-, same⟩ | move | ⟨p, hp, ⟨done, rfl, move⟩ | ⟨-, move⟩⟩
  · rw [same]
    exact sound
  · generalize b.apply now event = r at move
    cases move <;> exact sound
  · generalize b.apply now (.pump done) = r at move
    cases move with
    | failsToOpen => rw [failOpen_eq]; exact sound
    | breaksCall | breaksOpening | breaksReading => rw [breakOff_eq]; exact sound
    | ends => rw [reachEnd_eq]
    | takes bytes =>
        cases published : (b.content.commit b.transform bytes).2 with
        | true => rw [take_of_published b p bytes published]; exact sound
        | false => rw [take_of_not_published b p bytes published, breakOff_eq]; exact sound
    | fails => cases reads
    | stops => rw [stop_eq]; exact sound
    | _ => exact sound
  · generalize b.apply now event = r at move
    cases move <;> exact sound

/-- Only the end of a stream, or its failure, finishes a buffer. -/
theorem finished_apply {b : Buffer} (now : Nat) {event : Event}
    (reads : event.isReadFailure = false) (finished : (b.apply now event).1.phase = .finished) :
    b.phase = .finished ∨ event = .pump (.received []) ∧ b.isReading = true := by
  have unreleased : b.phase.afterLastRelease ≠ .finished := by
    cases b.phase <;> simp [Phase.afterLastRelease]
  rcases apply_cases b now event with ⟨-, same⟩ | move | ⟨p, hp, ⟨done, rfl, move⟩ | ⟨-, move⟩⟩
  · rw [same] at finished
    exact .inl finished
  · generalize b.apply now event = r at move finished
    cases move with
    | starts => cases finished
    | leaves | leavesEnded | leavesRunning => exact absurd finished unreleased
    | _ => exact .inl finished
  · generalize b.apply now (.pump done) = r at move finished
    cases move with
    | failsToOpen => rw [failOpen_eq] at finished; cases finished
    | breaksCall | breaksOpening | breaksReading =>
        rw [breakOff_eq] at finished
        exact .inl finished
    | ends stage asked => exact .inr ⟨rfl, isReading_eq_true_iff.mpr ⟨p, hp, stage, asked⟩⟩
    | takes bytes =>
        cases published : (b.content.commit b.transform bytes).2 with
        | true =>
            rw [take_of_published b p bytes published] at finished
            exact .inl finished
        | false =>
            rw [take_of_not_published b p bytes published, breakOff_eq] at finished
            exact .inl finished
    | fails => cases reads
    | stops => rw [stop_eq] at finished; exact .inl finished
    | _ => exact .inl finished
  · generalize b.apply now event = r at move finished
    cases move <;> exact .inl finished

end Buffer

/-- A buffer, what its reader has not given yet, and whether the reader has reported the end. -/
structure Feed where
  buffer : Buffer
  rest : List UInt8
  ended : Bool

namespace Feed

/-- A new buffer without a transform, and a reader that has all of a stream to give. -/
def start (name : String) (options : BufferOptions) (stream : List UInt8) : Feed :=
  ⟨.create name options none, stream, false⟩

/-- What the reader has given when something happens, if the pump waits for it. -/
def given (f : Feed) : Buffer.Event → Option (List UInt8)
  | .pump (.received bytes) => if f.buffer.isReading then some bytes else none
  | _ => none

/-- What one event does: the buffer changes, and the reader has less to give or is at its end. -/
def apply (f : Feed) (now : Nat) (event : Buffer.Event) : Feed × List Buffer.Notice :=
  let (buffer, notices) := f.buffer.apply now event
  match f.given event with
  | some bytes => (⟨buffer, f.rest.drop bytes.length, f.ended || bytes.isEmpty⟩, notices)
  | none => ({ f with buffer }, notices)

/-- The buffer of a feed does what every buffer does. -/
theorem buffer_apply (f : Feed) (now : Nat) (event : Buffer.Event) :
    (f.apply now event).1.buffer = (f.buffer.apply now event).1 := by
  unfold apply
  dsimp only
  split <;> rfl

/-- In every run the buffer of a feed does what every buffer does. -/
theorem buffer_final (f : Feed) (events : List (Nat × Buffer.Event)) :
    (Machine.final apply f events).buffer = Machine.final Buffer.apply f.buffer events := by
  induction events generalizing f with
  | nil => rfl
  | cons e rest ih => rw [Machine.final, Machine.final, ih, buffer_apply]

/-- What an honest reader may do: it gives the next bytes of the stream, as many as there is room
for and at least one, unless it is at the end or was offered no room. -/
def Honest (f : Feed) (event : Buffer.Event) : Prop :=
  ∀ bytes, f.given event = some bytes →
    bytes <+: f.rest ∧ bytes.length ≤ f.buffer.content.room ∧
      (bytes = [] → f.rest = [] ∨ f.buffer.content.room = 0)

instance (f : Feed) (event : Buffer.Event) : Decidable (f.Honest event) :=
  match h : f.given event with
  | none => isTrue fun bytes hb => by simp [h] at hb
  | some given =>
    decidable_of_iff (given <+: f.rest ∧ given.length ≤ f.buffer.content.room ∧
      (given = [] → f.rest = [] ∨ f.buffer.content.room = 0))
      (by simp [Honest, h])

/-- What holds of a buffer and an honest reader of `stream` at any time. -/
structure Faithful (stream : List UInt8) (f : Feed) : Prop where
  consistent : f.buffer.Consistent
  plain : f.buffer.transform = none
  slow : 0 < f.buffer.options.slowGrowth
  /-- What is stored and what is still to come make up the stream. -/
  whole : f.buffer.failure = none → f.buffer.content.stored ++ f.rest = stream
  shown : f.buffer.failure = none → f.buffer.content.size = f.buffer.content.stored.length
  fits : f.buffer.failure = none → f.buffer.content.Fits
  /-- The pump never reads without room, unless the storage is as large as can be. -/
  roomy : f.buffer.failure = none → f.buffer.stage? = some .reading →
    f.buffer.content.stored.length < maxCapacity → 0 < f.buffer.content.room
  finished : f.ended = true → f.buffer.IsDone ∧
    (f.rest = [] ∨ maxCapacity ≤ f.buffer.content.stored.length)

namespace Faithful

variable {stream : List UInt8} {f : Feed}

/-- At the beginning nothing is stored and the whole stream is to come. -/
theorem start (name : String) {options : BufferOptions} (slow : 0 < options.slowGrowth)
    (stream : List UInt8) : Faithful stream (Feed.start name options stream) where
  consistent := .create name options none
  plain := rfl
  slow := slow
  whole _ := rfl
  shown _ := rfl
  fits _ := .inl (Nat.zero_le _)
  roomy _ reading := by cases reading
  finished ended := by cases ended

/-- Whatever happens that is not a piece of the stream, the reader has as much to give as before. -/
theorem apply_of_not_given (h : Faithful stream f) (now : Nat) {event : Buffer.Event}
    (given : f.given event = none) : Faithful stream (f.apply now event).1 := by
  have hf : (f.apply now event).1 = { f with buffer := (f.buffer.apply now event).1 } := by
    simp [Feed.apply, given]
  rw [hf]
  have untaken : ∀ bytes, ¬f.buffer.Takes event bytes := by
    rintro bytes ⟨rfl, reading, -, -⟩
    simp [Feed.given, reading] at given
  have consistent := h.consistent.apply now event
  obtain ⟨transform, options⟩ := Buffer.fixed_apply f.buffer now event
  have finished : f.ended = true → (f.buffer.apply now event).1.IsDone ∧
      (f.rest = [] ∨ maxCapacity ≤ (f.buffer.apply now event).1.content.stored.length) := by
    intro ended
    obtain ⟨done, content, -⟩ := (h.finished ended).1.apply now event
    exact ⟨done, content ▸ (h.finished ended).2⟩
  have move := Buffer.contentMove_apply h.consistent now event
  generalize (f.buffer.apply now event).1 = c at consistent transform options finished move
  cases move with
  | keeps _ content failure stage =>
      refine ⟨consistent, transform.trans h.plain, options ▸ h.slow,
        fun unfailed => content ▸ h.whole (failure ▸ unfailed),
        fun unfailed => content ▸ h.shown (failure ▸ unfailed),
        fun unfailed => content ▸ h.fits (failure ▸ unfailed), fun unfailed reading small => ?_,
        finished⟩
      dsimp only at small ⊢
      rw [content] at small ⊢
      exact h.roomy (failure ▸ unfailed) (stage reading) small
  | reserves _ content failure =>
      refine ⟨consistent, transform.trans h.plain, options ▸ h.slow, fun unfailed => ?_,
        fun unfailed => ?_, fun unfailed => ?_, fun unfailed _ small => ?_, finished⟩
      · simpa [content] using h.whole (failure ▸ unfailed)
      · simpa [content] using h.shown (failure ▸ unfailed)
      · exact content ▸ Content.fits_reserve _ (h.fits (failure ▸ unfailed))
      · dsimp only at small ⊢
        rw [content, Content.stored_reserve] at small
        rw [content]
        exact Content.room_reserve_pos h.slow (h.fits (failure ▸ unfailed)) small
  | publishes bytes takes | breaksOff bytes takes => exact absurd takes (untaken bytes)
  | fails _ cause failing reading content failure =>
      have failed : c.failure ≠ none := by simp [failure]
      exact ⟨consistent, transform.trans h.plain, options ▸ h.slow,
        fun unfailed => absurd unfailed failed, fun unfailed => absurd unfailed failed,
        fun unfailed => absurd unfailed failed, fun unfailed => absurd unfailed failed, finished⟩

section

variable (h : Faithful stream f) (now : Nat) {p : Pump} (hp : f.buffer.pump = some p)
  (stage : p.stage = .reading)
include h hp stage

/-- As long as the pump reads, the stream has not ended. -/
theorem not_ended_of_reading : f.ended = false := by
  cases he : f.ended with
  | false => rfl
  | true =>
      obtain ⟨⟨-, q, hq, gone⟩, -⟩ := h.finished he
      rw [hp, Option.some.injEq] at hq
      rw [← hq, stage] at gone
      cases gone

variable (asked : p.releaseAsked = false)
include asked

/-- The reader reports the end: all of the stream was given, or there is no room for more. -/
theorem apply_end (last : f.rest = [] ∨ f.buffer.content.room = 0) :
    Faithful stream ⟨(f.buffer.apply now (.pump (.received []))).1, f.rest, true⟩ := by
  have running : p.stage.isOver = false := by rw [stage]; rfl
  have nofail := h.consistent.failure_of_running hp running
  have streaming := h.consistent.streaming_of_running hp running asked
  have hstage : f.buffer.stage? = some .reading := by simp [Buffer.stage?, hp, stage]
  have consistent := h.consistent.apply now (.pump (.received []))
  rw [Buffer.apply_received_of_reading hp stage asked now (Nat.zero_le _), if_pos rfl,
    Buffer.reachEnd_eq] at consistent ⊢
  refine ⟨consistent, h.plain, h.slow, fun _ => h.whole nofail, fun _ => h.shown nofail,
    fun _ => h.fits nofail, fun _ again => by simp [Buffer.stage?] at again, fun _ => ?_⟩
  refine ⟨⟨by simp [streaming], _, rfl, rfl⟩, last.imp_right fun noroom => ?_⟩
  -- Only a storage that is as large as can be has no room.
  by_contra small
  have roomy := h.roomy nofail hstage (Nat.lt_of_not_le small)
  omega

/-- The reader gives a piece of the stream. -/
theorem apply_piece {bytes : List UInt8} (first : bytes <+: f.rest)
    (hroom : bytes.length ≤ f.buffer.content.room) (nonempty : bytes ≠ []) :
    Faithful stream ⟨(f.buffer.apply now (.pump (.received bytes))).1, f.rest.drop bytes.length,
      f.ended⟩ := by
  have running : p.stage.isOver = false := by rw [stage]; rfl
  have nofail := h.consistent.failure_of_running hp running
  have notended := h.not_ended_of_reading hp stage
  have consistent := h.consistent.apply now (.pump (.received bytes))
  have hcommit : (f.buffer.content.commit f.buffer.transform bytes).2 = true := by
    rw [h.plain, Content.commit_none]
  rw [Buffer.apply_received_of_reading hp stage asked now hroom, if_neg nonempty,
    Buffer.take_of_published _ _ _ hcommit, h.plain] at consistent ⊢
  have hfits : (f.buffer.content.commit none bytes).1.Fits := Content.fits_commit nonempty hroom
  have hstored : (f.buffer.content.commit none bytes).1.stored =
      f.buffer.content.stored ++ bytes := by rw [Content.commit_none]
  have hsize : (f.buffer.content.commit none bytes).1.size =
      (f.buffer.content.stored ++ bytes).length := by rw [Content.commit_none]
  refine ⟨consistent, rfl, h.slow, fun _ => ?_, fun _ => ?_, fun _ => ?_, fun _ _ small => ?_,
    fun ended => ?_⟩
  · obtain ⟨rest, hrest⟩ := first
    have hw := h.whole nofail
    rw [← hrest] at hw
    simp only [Content.stored_reserve, hstored, ← hrest, List.drop_left, List.append_assoc]
    exact hw
  · simp only [Content.stored_reserve, Content.size_reserve, hstored, hsize]
  · exact Content.fits_reserve _ hfits
  · exact Content.room_reserve_pos h.slow hfits (by simpa using small)
  · rw [notended] at ended
    cases ended

end

/-- Something is given only to a pump that reads. -/
theorem received_of_given {event : Buffer.Event} {bytes : List UInt8}
    (given : f.given event = some bytes) :
    event = .pump (.received bytes) ∧ f.buffer.isReading = true := by
  unfold Feed.given at given
  split at given
  · split at given
    · rename_i reading
      exact ⟨by rw [Option.some.inj given], reading⟩
    · cases given
  · cases given

/-- The reader gives a piece of the stream, or reports its end. -/
theorem apply_of_given (h : Faithful stream f) (now : Nat) {event : Buffer.Event}
    {bytes : List UInt8} (given : f.given event = some bytes) (honest : f.Honest event) :
    Faithful stream (f.apply now event).1 := by
  obtain ⟨first, hroom, hend⟩ := honest bytes given
  obtain ⟨rfl, reading⟩ := received_of_given given
  obtain ⟨p, hp, stage, asked⟩ := Buffer.isReading_eq_true_iff.mp reading
  have hf : (f.apply now (.pump (.received bytes))).1 =
      ⟨(f.buffer.apply now (.pump (.received bytes))).1, f.rest.drop bytes.length,
        f.ended || bytes.isEmpty⟩ := by
    simp [Feed.apply, given]
  rw [hf]
  by_cases hbytes : bytes = []
  · subst hbytes
    simpa using h.apply_end now hp stage asked (hend rfl)
  · have going : (f.ended || bytes.isEmpty) = f.ended := by simp [hbytes]
    rw [going]
    exact h.apply_piece now hp stage asked first hroom hbytes

/-- An honest reader keeps the buffer faithful, whatever else happens. -/
theorem apply (h : Faithful stream f) (now : Nat) {event : Buffer.Event}
    (honest : f.Honest event) : Faithful stream (f.apply now event).1 := by
  cases given : f.given event with
  | none => exact h.apply_of_not_given now given
  | some bytes => exact h.apply_of_given now given honest

/-- In every run with an honest reader the storage is a prefix of the stream. -/
theorem final (h : Faithful stream f) {events : List (Nat × Buffer.Event)}
    (honest : Machine.Allows Feed.apply Honest f events) :
    Faithful stream (Machine.final Feed.apply f events) :=
  Machine.final_induction Feed.apply (Faithful stream) h
    (fun _ now _ hf hh => hf.apply now hh) honest

end Faithful

namespace Faithful

variable {stream : List UInt8} {f : Feed}

/-- Everything that is stored is visible. -/
theorem stored_eq_take (h : Faithful stream f) (nofail : f.buffer.failure = none) :
    f.buffer.content.stored = stream.take f.buffer.size := by
  have hsize : f.buffer.size = f.buffer.content.stored.length := h.shown nofail
  rw [hsize, ← h.whole nofail, List.take_left]

/-- What readers see is as much of the stream as is visible. -/
theorem snapshot_eq_take (h : Faithful stream f) (nofail : f.buffer.failure = none) :
    f.buffer.snapshot = stream.take f.buffer.size := by
  have hshown : f.buffer.snapshot = f.buffer.content.stored := by
    unfold Buffer.snapshot Content.visible
    rw [h.shown nofail, List.take_length]
  rw [hshown, h.stored_eq_take nofail]

/-- What is visible and what is to come make up the stream. -/
theorem size_add_rest (h : Faithful stream f) (nofail : f.buffer.failure = none) :
    f.buffer.size + f.rest.length = stream.length := by
  have hsize : f.buffer.size = f.buffer.content.stored.length := h.shown nofail
  rw [hsize, ← List.length_append, h.whole nofail]

/-- Below the visible length a read gives the bytes of the stream. -/
theorem readAt_eq (h : Faithful stream f) (nofail : f.buffer.failure = none)
    {length offset : Nat} (below : offset < f.buffer.size) :
    f.buffer.readAt length offset =
      .ok ((stream.drop offset).take (min length (f.buffer.size - offset))) := by
  have hshort := h.size_add_rest nofail
  have hlen : offset < f.buffer.snapshot.length := by
    rw [h.snapshot_eq_take nofail, List.length_take]
    omega
  have hread : f.buffer.content.read length offset =
      (f.buffer.snapshot.drop offset).take length := rfl
  unfold Buffer.readAt
  rw [nofail]
  dsimp only
  rw [if_pos hlen, hread, h.snapshot_eq_take nofail, List.drop_take, List.take_take]

/-- When nothing is to come, readers see the whole stream. -/
theorem snapshot_of_rest_nil (h : Faithful stream f) (nofail : f.buffer.failure = none)
    (given : f.rest = []) : f.buffer.snapshot = stream := by
  have hsize := h.size_add_rest nofail
  rw [given, List.length_nil, Nat.add_zero] at hsize
  rw [h.snapshot_eq_take nofail, hsize, List.take_length]

/-- When the end was reported, readers see the whole stream, unless the storage is as large as can
be. -/
theorem snapshot_of_ended (h : Faithful stream f) (nofail : f.buffer.failure = none)
    (ended : f.ended = true) : f.buffer.snapshot = stream ∨ maxCapacity ≤ f.buffer.size := by
  have shown : f.buffer.size = f.buffer.content.stored.length := h.shown nofail
  rw [shown]
  exact (h.finished ended).2.imp_left (h.snapshot_of_rest_nil nofail)

end Faithful

/-- In every run what is to come only becomes less. -/
theorem rest_final_le (f : Feed) (events : List (Nat × Buffer.Event)) :
    (Machine.final apply f events).rest.length ≤ f.rest.length := by
  refine Machine.final_induction apply (fun g => g.rest.length ≤ f.rest.length)
    (Nat.le_refl _) ?_ (Machine.allows_true apply f events)
  intro g now event hle _
  simp only [apply]
  split
  · simp only [List.length_drop]
    omega
  · exact hle

/-- As long as no read has failed, a buffer without a transform holds and shows exactly what its
reader has given of the stream, and a read below the visible length gives just those bytes; later
reads of what was once visible give the same; when the reader has given everything, all of the
stream is there, and this is so when it has reported the end, unless the storage is as large as can
be; and the pump never reads without room before that. So neither the pieces nor the options show in
the content: two runs over one stream that show as much show the same. -/
theorem stored_is_prefix_of_stream (name : String) (options : BufferOptions)
    (slow : 0 < options.slowGrowth) (stream : List UInt8)
    (events later : List (Nat × Buffer.Event))
    (honest : Machine.Allows apply Honest (start name options stream) (events ++ later)) :
    let f := Machine.final apply (start name options stream) events
    let g := Machine.final apply f later
    f.buffer.failure = none →
      (f.buffer.content.stored ++ f.rest = stream ∧
        f.buffer.size = f.buffer.content.stored.length ∧
        f.buffer.snapshot = stream.take f.buffer.size) ∧
      (∀ length offset, offset < f.buffer.size →
        f.buffer.readAt length offset =
          .ok ((stream.drop offset).take (min length (f.buffer.size - offset)))) ∧
      (g.buffer.failure = none → f.buffer.size ≤ g.buffer.size ∧
        ∀ length offset, offset < f.buffer.size → offset + length ≤ f.buffer.size →
          g.buffer.readAt length offset = f.buffer.readAt length offset) ∧
      (f.rest = [] → f.buffer.snapshot = stream) ∧
      (f.ended = true → f.buffer.snapshot = stream ∨ maxCapacity ≤ f.buffer.size) ∧
      (f.buffer.stage? = some .reading → f.buffer.content.stored.length < maxCapacity →
        0 < f.buffer.content.room) ∧
      ∀ (name' : String) (options' : BufferOptions) (events' : List (Nat × Buffer.Event)),
        0 < options'.slowGrowth →
        Machine.Allows apply Honest (start name' options' stream) events' →
        let f' := Machine.final apply (start name' options' stream) events'
        f'.buffer.failure = none → f'.buffer.size = f.buffer.size →
          f'.buffer.snapshot = f.buffer.snapshot := by
  intro f g nofail
  obtain ⟨honest_events, honest_later⟩ := (Machine.allows_append apply _ _ _).mp honest
  have hf : Faithful stream f := (Faithful.start name slow stream).final honest_events
  have hg : Faithful stream g := hf.final honest_later
  refine ⟨⟨hf.whole nofail, hf.shown nofail, hf.snapshot_eq_take nofail⟩,
    fun length offset below => hf.readAt_eq nofail below, fun nofail' => ?_,
    hf.snapshot_of_rest_nil nofail, hf.snapshot_of_ended nofail, hf.roomy nofail, ?_⟩
  · have grown : f.buffer.size ≤ g.buffer.size := by
      have hfs := hf.size_add_rest nofail
      have hgs := hg.size_add_rest nofail'
      have hle : g.rest.length ≤ f.rest.length := rest_final_le f later
      omega
    refine ⟨grown, fun length offset below inside => ?_⟩
    have hmin : min length (g.buffer.size - offset) = min length (f.buffer.size - offset) := by
      omega
    rw [hf.readAt_eq nofail below, hg.readAt_eq nofail' (by omega), hmin]
  · intro name' options' events' slow' honest' f' nofail' same
    have hf' : Faithful stream f' := (Faithful.start name' slow' stream).final honest'
    rw [hf'.snapshot_eq_take nofail', hf.snapshot_eq_take nofail, same]

/-- Five bytes in three pieces, through the capacities 0, 1, 3 and 5, with a second consumer, a
release and the watch in between. -/
theorem snapshot_of_five_bytes :
    let options : BufferOptions := { initialCapacity := 0, slowGrowth := 2 }
    let events : List (Nat × Buffer.Event) :=
      [(0, .join 0), (0, .pump .started), (1, .pump .opened), (1, .watch .timers),
        (2, .pump (.received [10])), (2, .join 1), (3, .pump (.received [11, 12])),
        (4, .release 2), (5, .watch .pump), (6, .pump (.received [13, 14])),
        (7, .pump (.received []))]
    0 < options.slowGrowth ∧
      Machine.Allows apply Honest (start "five" options [10, 11, 12, 13, 14]) (events ++ []) ∧
      (Machine.final apply (start "five" options [10, 11, 12, 13, 14]) events).buffer.snapshot =
        [10, 11, 12, 13, 14] := by
  intro options events
  have honest : Machine.Allows apply Honest (start "five" options [10, 11, 12, 13, 14])
      (events ++ []) := by decide
  refine ⟨by decide, honest, ?_⟩
  exact (stored_is_prefix_of_stream "five" options (by decide) [10, 11, 12, 13, 14] events []
    honest (by decide)).2.2.2.1 (by decide)

end Feed

end CachedStreams
