import CachedStreams.Proofs.Stream.Room

/-!
# The pieces of a stream do not show

A transform sees a stream in the pieces in which it arrives, and the storage grows as it has to. For
two sorts of transforms none of that shows in what readers see: those that rewrite the fresh bytes,
each by itself and to at most one byte, and show all of it (`Transform.Rewrites`), and those that
change nothing and show as much as the stored bytes call for (`Transform.Exposes`).

What the two have in common is that what is stored and how much of it is visible are functions of
the bytes that the reader has given so far (`Transform.Carries`). `Feed.Carried` says that this is
so after every run; an honest reader that has reported the end has given all of its stream.
-/

set_option autoImplicit false

namespace CachedStreams

namespace Transform

/-- The transform replaces every fresh byte, by itself, by at most one, and shows everything. -/
def Rewrites (t : Transform) (f : UInt8 → Option UInt8) : Prop :=
  ∀ stored fresh, fresh ≤ stored.length →
    let kept := stored.take fresh ++ (stored.drop fresh).filterMap f
    (t.run stored fresh).marks = some (kept.length, kept.length) ∧
      kept <+: (t.run stored fresh).stored

/-- The transform changes nothing and shows as much as the stored bytes call for. -/
def Exposes (t : Transform) (v : List UInt8 → Nat) : Prop :=
  ∀ stored fresh, fresh ≤ stored.length →
    v stored ≤ stored.length ∧ t.run stored fresh = ⟨stored, some (v stored, stored.length)⟩

/-- After a commit the storage and the visible length are functions of all that was given. -/
structure Carries (t : Transform) (kept : List UInt8 → List UInt8) (shown : List UInt8 → Nat) :
    Prop where
  kept_nil : kept [] = []
  shown_nil : shown [] = 0
  commit : ∀ (c : Content) (given piece : List UInt8), c.stored = kept given →
    c.commit (some t) piece =
      ({ c with stored := kept (given ++ piece), size := shown (given ++ piece) }, true)

section

variable {t : Transform}

/-- A transform that maps or drops single bytes shows what it makes of the whole stream, however
that is cut up. -/
theorem Rewrites.carries {f : UInt8 → Option UInt8} (h : t.Rewrites f) :
    t.Carries (·.filterMap f) fun given => (given.filterMap f).length := by
  refine ⟨rfl, rfl, fun c given piece same => ?_⟩
  obtain ⟨marks, kept⟩ := h (c.stored ++ piece) c.stored.length (by simp)
  have all : (c.stored ++ piece).take c.stored.length ++
      ((c.stored ++ piece).drop c.stored.length).filterMap f = (given ++ piece).filterMap f := by
    rw [List.take_left, List.drop_left, List.filterMap_append, same]
  rw [all] at marks kept
  have marked : c.Marks (some t) piece ((given ++ piece).filterMap f).length
      ((given ++ piece).filterMap f).length := ⟨marks, Nat.le_refl _, kept.length_le⟩
  rw [Content.commit_of_marks marked]
  have stored : (c.reshape (some t) piece).stored.take ((given ++ piece).filterMap f).length =
      (given ++ piece).filterMap f := (List.prefix_iff_eq_take.mp kept).symm
  rw [stored]

/-- A transform that hides an end of the storage shows as much of the whole stream, however that is
cut up. -/
theorem Exposes.carries {v : List UInt8 → Nat} (h : t.Exposes v) : t.Carries id v := by
  refine ⟨rfl, Nat.le_zero.mp (h [] 0 (Nat.le_refl _)).1, fun c given piece same => ?_⟩
  obtain ⟨inside, unchanged⟩ := h (c.stored ++ piece) c.stored.length (by simp)
  have reshaped : c.reshape (some t) piece =
      ⟨c.stored ++ piece, some (v (c.stored ++ piece), (c.stored ++ piece).length)⟩ := unchanged
  have marked : c.Marks (some t) piece (v (c.stored ++ piece)) (c.stored ++ piece).length :=
    ⟨by rw [reshaped], inside, Nat.le_of_eq (by rw [reshaped])⟩
  have whole : c.stored ++ piece = given ++ piece := by rw [same]; rfl
  rw [Content.commit_of_marks marked, reshaped, List.take_length, whole]
  rfl

/-- A transform that keeps some bytes works on single bytes. -/
theorem rewrites_keepingFresh (keep : UInt8 → Bool) :
    (keepingFresh keep).Rewrites (Option.guard fun byte => keep byte) := by
  intro stored fresh inside
  simp only [keepingFresh, List.filterMap_eq_filter]
  refine ⟨?_, ?_⟩
  · simp only [List.length_append, List.length_take]
  · exact List.prefix_append _ _

/-- A transform that maps every byte works on single bytes. -/
theorem rewrites_mappingFresh (f : UInt8 → UInt8) :
    (mappingFresh f).Rewrites fun byte => some (f byte) := by
  intro stored fresh inside
  have map : (stored.drop fresh).filterMap (fun byte => some (f byte)) =
      (stored.drop fresh).map f := congrFun List.filterMap_eq_map' _
  simp only [mappingFresh, map]
  refine ⟨?_, List.prefix_rfl⟩
  simp only [List.length_append, List.length_take, List.length_map, List.length_drop]
  rw [Nat.min_eq_left inside, Nat.add_sub_cancel' inside]

/-- A transform that only names positions shows a beginning of the storage. -/
theorem exposes_marking {v : List UInt8 → Nat} (inside : ∀ stored, v stored ≤ stored.length) :
    (marking fun stored _ => (v stored, stored.length)).Exposes v :=
  fun stored _ _ => ⟨inside stored, rfl⟩

/-- The last line end lies within the storage. -/
theorem lineEnd_le (stored : List UInt8) : lineEnd stored ≤ stored.length := by
  have shorter := (List.dropWhile_suffix (· != (10 : UInt8)) (l := stored.reverse)).length_le
  rwa [List.length_reverse] at shorter

end

/-- What readers see does not depend on the pieces in which a stream is given. -/
def IgnoresPieces (t : Transform) : Prop := (∃ f, t.Rewrites f) ∨ ∃ v, t.Exposes v

/-- The named transforms that are of one of the two sorts. -/
theorem ignoresPieces_of_mem (n : Nat) :
    ∀ t ∈ [identity, lines, hideAll, lag n, stripReturns, upperFresh], t.IgnoresPieces := by
  simp only [List.forall_mem_cons]
  exact ⟨.inr ⟨_, exposes_marking fun _ => Nat.le_refl _⟩, .inr ⟨_, exposes_marking lineEnd_le⟩,
    .inr ⟨_, exposes_marking fun _ => Nat.zero_le _⟩,
    .inr ⟨_, exposes_marking fun _ => Nat.sub_le _ _⟩, .inl ⟨_, rewrites_keepingFresh _⟩,
    .inl ⟨_, rewrites_mappingFresh _⟩, nofun⟩

end Transform

/-- Readers see some bytes and no others. -/
structure Buffer.Shows (b : Buffer) (bytes : List UInt8) : Prop where
  snapshot : b.snapshot = bytes
  size : b.size = bytes.length

namespace Feed

/-- What is stored and how much of it is visible are functions of what the reader has given. -/
structure Carried (t : Transform) (kept : List UInt8 → List UInt8) (shown : List UInt8 → Nat)
    (stream : List UInt8) (f : Feed) : Prop where
  consistent : f.buffer.Consistent
  transform : f.buffer.transform = some t
  content : f.buffer.failure = none → ∃ given, given ++ f.rest = stream ∧
    f.buffer.content.stored = kept given ∧ f.buffer.content.size = shown given

/-- Nothing is used up of the stream in a move that takes no piece. -/
theorem Gives.rest_of_untaken {f g : Feed} {event : Buffer.Event} (gives : Gives f event g)
    (untaken : ∀ bytes, ¬f.buffer.Takes event bytes) : g.rest = f.rest := by
  cases gives with
  | piece bytes takes => exact absurd takes (untaken bytes)
  | reportsEnd _ _ _ _ rest => exact rest
  | nothing _ _ rest => exact rest

/-- The piece that the pump takes in is what the reader has given. -/
theorem Gives.append_rest {f g : Feed} {event : Buffer.Event} (gives : Gives f event g)
    {bytes : List UInt8} (takes : f.buffer.Takes event bytes) : bytes ++ g.rest = f.rest := by
  cases gives with
  | piece bytes' takes' first rest =>
      have same := takes.event.symm.trans takes'.event
      cases same
      obtain ⟨tail, whole⟩ := first
      rw [rest, ← whole, List.drop_left]
  | reportsEnd untaken | nothing untaken => exact absurd takes (untaken bytes)

namespace Carried

variable {t : Transform} {kept : List UInt8 → List UInt8} {shown : List UInt8 → Nat}
  {stream : List UInt8} {f : Feed}

/-- At the beginning nothing has been carried over. -/
theorem create (carries : t.Carries kept shown) (name : String) (options : BufferOptions)
    (stream : List UInt8) :
    Carried t kept shown stream (Feed.create name options (some t) stream) where
  consistent := .create name options (some t)
  transform := rfl
  content _ := ⟨[], rfl, carries.kept_nil.symm, carries.shown_nil.symm⟩

/-- Whatever happens, only what the reader has given counts. -/
theorem apply (h : Carried t kept shown stream f) (carries : t.Carries kept shown) (now : Nat)
    {event : Buffer.Event} (honest : f.Honest event) :
    Carried t kept shown stream (f.apply now event).1 := by
  have gives := gives_apply now honest
  have move := Buffer.contentMove_apply h.consistent now event
  have consistent := h.consistent.apply now event
  have transform := (Buffer.fixed_apply f.buffer now event).1
  have buffer := f.buffer_apply now event
  generalize (f.apply now event).1 = g at gives buffer
  rw [← buffer] at move consistent transform
  refine ⟨consistent, transform.trans h.transform, fun unfailed => ?_⟩
  cases move with
  | keeps untaken content failure =>
      rw [content, gives.rest_of_untaken untaken]
      exact h.content (failure ▸ unfailed)
  | reserves untaken content failure =>
      rw [content, gives.rest_of_untaken untaken, Content.stored_reserve, Content.size_reserve]
      exact h.content (failure ▸ unfailed)
  | publishes bytes takes visible write marks content failure =>
      obtain ⟨given, whole, stored, -⟩ := h.content (failure ▸ unfailed)
      have committed := carries.commit f.buffer.content given bytes stored
      rw [← h.transform] at committed
      refine ⟨given ++ bytes, ?_, ?_, ?_⟩
      · rw [List.append_assoc, gives.append_rest takes, whole]
      · rw [content, Content.stored_reserve, committed]
      · rw [content, Content.size_reserve, committed]
  | breaksOff bytes takes unmarked content failure =>
      -- A transform of this sort names positions that can be published.
      obtain ⟨given, -, stored, -⟩ := h.content (failure ▸ unfailed)
      have committed := carries.commit f.buffer.content given bytes stored
      rw [← h.transform] at committed
      have published := Content.unpublished_iff.mpr unmarked
      rw [committed] at published
      cases published
  | fails untaken cause failing reading content failure =>
      rw [failure] at unfailed
      cases unfailed

/-- In every run with an honest reader the storage holds what the transform makes of what was given.
-/
theorem of_run (carries : t.Carries kept shown) {name : String} {options : BufferOptions}
    {events : List (Nat × Buffer.Event)}
    (honest : Machine.Allows Feed.apply Honest (Feed.create name options (some t) stream) events) :
    Carried t kept shown stream
      (Machine.final Feed.apply (Feed.create name options (some t) stream) events) :=
  Machine.final_induction Feed.apply (Carried t kept shown stream)
    (.create carries name options stream)
    (fun _ now _ h honest => h.apply carries now honest) honest

/-- What readers see is the visible part of what is kept of the bytes that were given. -/
theorem shows (h : Carried t kept shown stream f) (unfailed : f.buffer.failure = none)
    {given : List UInt8} (whole : given ++ f.rest = stream)
    (inside : shown given ≤ (kept given).length) :
    f.buffer.Shows ((kept given).take (shown given)) := by
  obtain ⟨given', whole', stored, size⟩ := h.content unfailed
  obtain rfl : given' = given := List.append_cancel_right (whole'.trans whole.symm)
  refine ⟨?_, ?_⟩
  · rw [Buffer.snapshot, Content.visible, stored, size]
  · rw [Buffer.size, size, List.length_take, Nat.min_eq_left inside]

end Carried

section

variable {t : Transform} {stream : List UInt8} {name : String} {options : BufferOptions}
  {events : List (Nat × Buffer.Event)}
  (honest : Machine.Allows apply Honest (Feed.create name options (some t) stream) events)
  (unfailed : (Machine.final apply (Feed.create name options (some t) stream) events).buffer.failure
    = none)
  {given : List UInt8}
  (whole : given ++ (Machine.final apply (Feed.create name options (some t) stream) events).rest =
    stream)
include honest unfailed whole

/-- After every such run a transform of single bytes shows what it makes of what was given. -/
theorem shows_of_rewrites {f : UInt8 → Option UInt8} (rewrites : t.Rewrites f) :
    (Machine.final apply (Feed.create name options (some t) stream) events).buffer.Shows
      (given.filterMap f) := by
  have shows := (Carried.of_run rewrites.carries honest).shows unfailed whole (Nat.le_refl _)
  rwa [List.take_length] at shows

/-- After every such run a transform that hides an end shows a beginning of what was given. -/
theorem shows_of_exposes {v : List UInt8 → Nat} (exposes : t.Exposes v) :
    (Machine.final apply (Feed.create name options (some t) stream) events).buffer.Shows
      (given.take (v given)) :=
  (Carried.of_run exposes.carries honest).shows unfailed whole
    (exposes given given.length (Nat.le_refl _)).1

end

/-- An honest reader that has reported the end has given all of its stream, unless the storage is as
large as can be. If the transform rewrites fresh bytes one by one, readers see the rewritten bytes
of what was given; if it shows as much of the unchanged storage as the stored bytes call for, they
see as much of what was given. So after two runs that were given as much of a stream, such as all of
it, they see the same, whatever the pieces and the capacities. -/
theorem pieces_do_not_show (name : String) {options : BufferOptions}
    (slow : 0 < options.slowGrowth) (t : Transform) (stream : List UInt8)
    {events : List (Nat × Buffer.Event)}
    (honest : Machine.Allows apply Honest (Feed.create name options (some t) stream) events) :
    let f := Machine.final apply (Feed.create name options (some t) stream) events
    f.buffer.failure = none →
      (f.ended = true → f.rest = [] ∨ maxCapacity ≤ f.buffer.content.stored.length) ∧
      (∀ given, given ++ f.rest = stream →
        (∀ g, t.Rewrites g → f.buffer.Shows (given.filterMap g)) ∧
        ∀ v, t.Exposes v → f.buffer.Shows (given.take (v given))) ∧
      ∀ (name' : String) (options' : BufferOptions) (events' : List (Nat × Buffer.Event)),
        Machine.Allows apply Honest (Feed.create name' options' (some t) stream) events' →
        let f' := Machine.final apply (Feed.create name' options' (some t) stream) events'
        f'.buffer.failure = none → f'.rest = f.rest → t.IgnoresPieces →
          f'.buffer.size = f.buffer.size ∧ f'.buffer.snapshot = f.buffer.snapshot := by
  intro f unfailed
  refine ⟨fun ended => ?_, fun given whole => ⟨fun g => ?_, fun v => ?_⟩, ?_⟩
  · obtain ⟨-, last⟩ := (Closes.of_run honest).ended ended
    refine last.imp_right fun stuck => ?_
    by_contra small
    have same : f.buffer.options = options := by
      rw [buffer_final]
      exact (Buffer.fixed_of_run name options (some t) events).2
    have still := (stuck.still (Nat.lt_of_not_le small)).1
    rw [same] at still
    omega
  · exact shows_of_rewrites honest unfailed whole
  · exact shows_of_exposes honest unfailed whole
  · intro name' options' events' honest' f' unfailed' same ignores
    obtain ⟨bytes, shows, shows'⟩ : ∃ bytes, f.buffer.Shows bytes ∧ f'.buffer.Shows bytes := by
      rcases ignores with ⟨g, rewrites⟩ | ⟨v, exposes⟩
      · obtain ⟨given, whole, -⟩ := (Carried.of_run rewrites.carries honest).content unfailed
        exact ⟨_, shows_of_rewrites honest unfailed whole rewrites,
          shows_of_rewrites honest' unfailed' (same ▸ whole) rewrites⟩
      · obtain ⟨given, whole, -⟩ := (Carried.of_run exposes.carries honest).content unfailed
        exact ⟨_, shows_of_exposes honest unfailed whole exposes,
          shows_of_exposes honest' unfailed' (same ▸ whole) exposes⟩
    exact ⟨shows'.size.trans shows.size.symm, shows'.snapshot.trans shows.snapshot.symm⟩

/-- Seven bytes in two pieces. -/
def inTwoPieces : List (Nat × Buffer.Event) :=
  [(0, .join 0), (0, .pump .started), (1, .pump .opened), (1, .watch .timers),
    (2, .pump (.received [97, 13])), (3, .pump (.received [10, 98, 13, 10, 99])),
    (4, .pump (.received []))]

/-- The same bytes one by one, with a second consumer and a release in between. -/
def oneByOne : List (Nat × Buffer.Event) :=
  [(0, .join 0), (0, .pump .started), (1, .pump .opened), (2, .pump (.received [97])),
    (3, .join 1), (3, .pump (.received [13])), (4, .pump (.received [10])),
    (5, .pump (.received [98])), (6, .release 2), (7, .pump (.received [13])),
    (8, .pump (.received [10])), (9, .pump (.received [99])), (9, .pump (.received []))]

/-- Two buffers of different options are given the same text in different pieces, and show the same.
-/
theorem pieces_do_not_show_of_two_chunkings :
    let stream : List UInt8 := [97, 13, 10, 98, 13, 10, 99]
    let tight : BufferOptions := { initialCapacity := 0, slowGrowth := 1 }
    let stripped := Machine.final apply (create "b" {} (some .stripReturns) stream) inTwoPieces
    let stripped' := Machine.final apply (create "b" tight (some .stripReturns) stream) oneByOne
    let lines := Machine.final apply (create "b" tight (some .lines) stream) oneByOne
    (0 < tight.slowGrowth ∧ 0 < ({} : BufferOptions).slowGrowth) ∧
      (Machine.Allows apply Honest (create "b" {} (some .stripReturns) stream) inTwoPieces ∧
        stripped.buffer.Shows [97, 10, 98, 10, 99]) ∧
      (Machine.Allows apply Honest (create "b" tight (some .stripReturns) stream) oneByOne ∧
        stripped'.buffer.snapshot = stripped.buffer.snapshot) ∧
      Machine.Allows apply Honest (create "b" tight (some .lines) stream) oneByOne ∧
        lines.buffer.Shows [97, 13, 10, 98, 13, 10] := by
  intro stream tight stripped stripped' lines
  have slow : 0 < ({} : BufferOptions).slowGrowth := by decide
  have slow' : 0 < tight.slowGrowth := by decide
  have honest : Machine.Allows apply Honest (create "b" {} (some .stripReturns) stream)
      inTwoPieces := by decide
  have honest' : Machine.Allows apply Honest (create "b" tight (some .stripReturns) stream)
      oneByOne := by decide
  have honest'' : Machine.Allows apply Honest (create "b" tight (some .lines) stream)
      oneByOne := by decide
  have strips := Transform.rewrites_keepingFresh (· != 13)
  obtain ⟨-, shows, alike⟩ :=
    pieces_do_not_show "b" slow .stripReturns stream honest (by decide)
  obtain ⟨-, exposed, -⟩ := pieces_do_not_show "b" slow' .lines stream honest'' (by decide)
  refine ⟨⟨slow', slow⟩, ⟨honest, ?_⟩, ⟨honest', ?_⟩, honest'', ?_⟩
  · exact (shows stream (by decide)).1 _ strips
  · exact (alike "b" tight oneByOne honest' (by decide) (by decide) (.inl ⟨_, strips⟩)).2
  · exact (exposed stream (by decide)).2 _ (Transform.exposes_marking Transform.lineEnd_le)

end Feed

end CachedStreams
