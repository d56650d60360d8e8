import CachedStreams.Proofs.Stream.Contents
import CachedStreams.Proofs.Stream.Finality

/-!
# What was published stays published

A transform may change the storage as it likes and hold back what it likes. Readers have nothing to
fear from one that keeps what they see (`Content.Keeps`): that leaves the visible prefix of the
storage as it is and never has them see less. As long as the transform of a buffer does so, what is
visible is only ever added to (`Buffer.Extends`), until a failure of the stream throws it away, and
a byte that was once returned for a position is returned for it from then on (`Buffer.Serves`).

The transform is given the storage as it left it, with the next piece behind the position that it
named for it. If it breaks off, or names positions that cannot be published, readers notice nothing:
what it has stored by then lies behind the visible prefix, and nothing more is taken in.
-/

set_option autoImplicit false

namespace CachedStreams

namespace Content

/-- The transform leaves what readers see of the storage as it is and has them see no less. -/
structure Keeps (c : Content) (transform : Option Transform) (bytes : List UInt8) : Prop where
  untouched : (c.reshape transform bytes).stored.take c.size = c.visible
  forward : ∀ visible write, c.Marks transform bytes visible write → c.size ≤ visible

instance (c : Content) (transform : Option Transform) (bytes : List UInt8) :
    Decidable (c.Keeps transform bytes) :=
  decidable_of_iff ((c.reshape transform bytes).stored.take c.size = c.visible ∧
      ∀ m ∈ (c.reshape transform bytes).marks,
        m.1 ≤ m.2 → m.2 ≤ (c.reshape transform bytes).stored.length → c.size ≤ m.1)
    ⟨fun h => ⟨h.1, fun _ _ marks => h.2 _ marks.named marks.ordered marks.inside⟩,
      fun h => ⟨h.untouched, fun _ named ordered inside => h.forward _ _ ⟨named, ordered, inside⟩⟩⟩

section

variable {c : Content} {transform : Option Transform} {bytes : List UInt8}

/-- To make room leaves what is visible as it is. -/
@[simp] theorem visible_reserve (c : Content) (o : BufferOptions) :
    (c.reserve o).visible = c.visible := by
  simp only [visible, stored_reserve, size_reserve]

/-- A piece whose marks are sound makes the storage visible up to the first of them. -/
theorem visible_commit_of_marks {visible write : Nat}
    (marks : c.Marks transform bytes visible write) :
    (c.commit transform bytes).1.visible =
      (c.reshape transform bytes).stored.take visible := by
  rw [commit_of_marks marks, Content.visible, List.take_take, Nat.min_eq_left marks.ordered]

/-- A transform that keeps what is visible does not hide any of it. -/
theorem size_le_commit (keeps : c.Keeps transform bytes) :
    c.size ≤ (c.commit transform bytes).1.size := by
  rcases c.commit_cases transform bytes with ⟨visible, write, marks, same⟩ | ⟨-, same⟩
  · rw [same]
    exact keeps.forward visible write marks
  · simp only [same, Nat.le_refl]

/-- What readers see is added to by a commit, or left alone. -/
theorem visible_prefix_commit (keeps : c.Keeps transform bytes) :
    c.visible <+: (c.commit transform bytes).1.visible := by
  rw [← keeps.untouched]
  rcases c.commit_cases transform bytes with ⟨visible, write, marks, -⟩ | ⟨-, same⟩
  · rw [visible_commit_of_marks marks]
    exact List.take_prefix_take_left (keeps.forward visible write marks)
  · rw [same]
    exact List.prefix_rfl

/-- Readers see no more than is stored. -/
theorem size_le_length_commit (inside : c.size ≤ c.stored.length) :
    (c.commit transform bytes).1.size ≤ (c.commit transform bytes).1.stored.length := by
  rcases c.commit_cases transform bytes with ⟨visible, write, marks, same⟩ | ⟨-, same⟩
  · have ordered := marks.ordered
    have stored := marks.inside
    simp only [same, List.length_take]
    omega
  · simp only [same, length_reshape]
    omega

end

end Content

namespace Buffer

/-- If an event gives the pump a piece, the transform keeps what readers see. -/
def KeepsVisible (b : Buffer) (event : Event) : Prop :=
  ∀ bytes, b.Takes event bytes → b.content.Keeps b.transform bytes

/-- The piece that an event brings. -/
def Event.piece? : Event → Option (List UInt8)
  | .pump (.received bytes) => some bytes
  | _ => none

/-- The piece of an event is what a read gives. -/
theorem Event.piece?_eq_some_iff {event : Event} {bytes : List UInt8} :
    event.piece? = some bytes ↔ event = .pump (.received bytes) := by
  unfold piece?
  split <;> simp_all

instance (b : Buffer) (event : Event) : Decidable (b.KeepsVisible event) :=
  decidable_of_iff (∀ bytes ∈ event.piece?, b.isReading = true → bytes ≠ [] →
      bytes.length ≤ b.content.room → b.content.Keeps b.transform bytes)
    ⟨fun h bytes takes => h bytes (Event.piece?_eq_some_iff.mpr takes.event) takes.reading
      takes.nonempty takes.fits,
      fun h bytes piece reading nonempty fits =>
        h bytes ⟨Event.piece?_eq_some_iff.mp piece, reading, nonempty, fits⟩⟩

/-- What is visible in one buffer is visible in another, until that fails. -/
structure Extends (b c : Buffer) : Prop where
  size : b.size ≤ c.size
  visible : c.failure = none → b.failure = none ∧ b.snapshot <+: c.snapshot

/-- Some read has returned a byte for a position. -/
def Returns (b : Buffer) (position : Nat) (byte : UInt8) : Prop :=
  ∃ length offset bytes, b.readAt length offset = .ok bytes ∧ offset ≤ position ∧
    bytes[position - offset]? = some byte

/-- Every read that reaches a position returns a byte for it. -/
def Serves (b : Buffer) (position : Nat) (byte : UInt8) : Prop :=
  ∀ length offset, offset ≤ position → position < offset + length →
    ∃ bytes, b.readAt length offset = .ok bytes ∧ bytes[position - offset]? = some byte

/-- A commit that took place. -/
structure Published (t : Move Buffer Event Notice) (bytes : List UInt8) (visible write : Nat) :
    Prop where
  ordered : visible ≤ write
  inside : write ≤ t.before.content.stored.length + bytes.length
  size : t.after.size = visible
  stored : t.after.content.stored.length = write

/-- A piece is appended at a position, which the transform is given. -/
structure AppendsAt (t : Move Buffer Event Notice) (bytes : List UInt8) (write : Nat) : Prop where
  stored : t.before.content.stored.length = write
  fresh : t.before.transform.isSome = true →
    .transformed (write + bytes.length) write ∈ t.notices

/-- Readers see of one buffer what they see of another; only where there is nothing to be seen they
may be told whether the buffer has finished since. -/
structure Remains (b c : Buffer) : Prop where
  size : c.size = b.size
  snapshot : c.snapshot = b.snapshot
  failure : c.failure = b.failure
  readAt : ∀ length offset, offset < b.snapshot.length ∨ c.isFinished = b.isFinished →
    c.readAt length offset = b.readAt length offset

section

variable {b c : Buffer}

/-- Every buffer shows what it shows. -/
theorem Extends.refl (b : Buffer) : Extends b b :=
  ⟨Nat.le_refl _, fun unfailed => ⟨unfailed, List.prefix_rfl⟩⟩

/-- What goes on being shown twice goes on being shown. -/
theorem Extends.trans {d : Buffer} (first : Extends b c) (second : Extends c d) :
    Extends b d := by
  refine ⟨Nat.le_trans first.size second.size, fun unfailed => ?_⟩
  obtain ⟨unfailed, later⟩ := second.visible unfailed
  obtain ⟨unfailed, earlier⟩ := first.visible unfailed
  exact ⟨unfailed, earlier.trans later⟩

/-- Whatever happens, what is visible is added to or left alone. -/
theorem extends_apply (consistent : b.Consistent) (now : Nat) {event : Event}
    (keeps : b.KeepsVisible event) : Extends b (b.apply now event).1 := by
  have kept : ∀ {content : Content} {c : Buffer}, c.content = content → b.size ≤ content.size →
      b.snapshot <+: content.visible → c.failure = b.failure → Extends b c := by
    rintro content c rfl size snapshot failure
    exact ⟨size, fun unfailed => ⟨failure ▸ unfailed, snapshot⟩⟩
  have move := contentMove_apply consistent now event
  generalize (b.apply now event).1 = c at move
  cases move with
  | keeps untaken content failure =>
      exact kept content (Nat.le_refl _) List.prefix_rfl failure
  | reserves untaken content failure =>
      refine kept content ?_ ?_ failure
      · exact Nat.le_of_eq (Content.size_reserve _ _).symm
      · rw [Content.visible_reserve]
        exact List.prefix_rfl
  | publishes bytes takes visible write marks content failure =>
      refine kept content ?_ ?_ failure
      · rw [Content.size_reserve]
        exact Content.size_le_commit (keeps bytes takes)
      · rw [Content.visible_reserve]
        exact Content.visible_prefix_commit (keeps bytes takes)
  | breaksOff bytes takes unmarked content failure =>
      exact kept content (Content.size_le_commit (keeps bytes takes))
        (Content.visible_prefix_commit (keeps bytes takes)) failure
  | fails untaken cause failing reading content failure =>
      refine ⟨Nat.le_of_eq (congrArg Content.size content).symm, fun unfailed => ?_⟩
      rw [failure] at unfailed
      cases unfailed

/-- As long as transforms keep what is visible, it goes on being shown. -/
theorem extends_of_run (consistent : b.Consistent) {later : List (Nat × Event)}
    (keeps : Machine.Allows apply KeepsVisible b later) :
    Extends b (Machine.final apply b later) := by
  refine (Machine.final_induction apply (fun c => c.Consistent ∧ Extends b c)
    ⟨consistent, .refl b⟩ ?_ keeps).2
  rintro c now event ⟨consistent, before⟩ keeps
  exact ⟨consistent.apply now event, before.trans (extends_apply consistent now keeps)⟩

/-- In every run readers see no more than is stored, until the stream fails. -/
theorem size_le_stored (name : String) (options : BufferOptions) (transform : Option Transform)
    (events : List (Nat × Event)) :
    let b := Machine.final apply (create name options transform) events
    b.failure = none → b.size ≤ b.content.stored.length := by
  refine (Machine.final_induction apply (fun b => b.Consistent ∧
    (b.failure = none → b.size ≤ b.content.stored.length))
    ⟨.create name options transform, fun _ => Nat.le_refl _⟩ ?_
    (Machine.allows_true apply _ events)).2
  rintro b now event ⟨consistent, inside⟩ -
  refine ⟨consistent.apply now event, fun unfailed => ?_⟩
  have move := contentMove_apply consistent now event
  generalize (b.apply now event).1 = c at move unfailed
  unfold size at inside ⊢
  cases move with
  | keeps untaken content failure =>
      rw [content]
      exact inside (failure ▸ unfailed)
  | reserves untaken content failure =>
      rw [content, Content.size_reserve, Content.stored_reserve]
      exact inside (failure ▸ unfailed)
  | publishes bytes takes visible write marks content failure =>
      rw [content, Content.size_reserve, Content.stored_reserve]
      exact Content.size_le_length_commit (inside (failure ▸ unfailed))
  | breaksOff bytes takes unmarked content failure =>
      rw [content]
      exact Content.size_le_length_commit (inside (failure ▸ unfailed))
  | fails untaken cause failing reading content failure =>
      rw [failure] at unfailed
      cases unfailed

/-- Only what is visible is returned. -/
theorem Returns.getElem? {position : Nat} {byte : UInt8} (h : b.Returns position byte) :
    b.snapshot[position]? = some byte := by
  obtain ⟨length, offset, bytes, answer, reach, found⟩ := h
  unfold readAt at answer
  split at answer
  · cases answer
  · split at answer
    · cases answer
      have shown : b.content.read length offset = (b.snapshot.drop offset).take length := rfl
      rw [shown] at found
      have inside : position - offset < length := by
        by_contra outside
        rw [List.getElem?_take_eq_none (Nat.le_of_not_lt outside)] at found
        cases found
      rwa [List.getElem?_take_of_lt inside, List.getElem?_drop, Nat.add_sub_cancel' reach] at found
    · split at answer <;> cases answer
      cases found

/-- What is visible is served. -/
theorem serves_of_getElem? (unfailed : b.failure = none) {position : Nat} {byte : UInt8}
    (found : b.snapshot[position]? = some byte) : b.Serves position byte := by
  intro length offset reach inside
  obtain ⟨below, -⟩ := List.getElem?_eq_some_iff.mp found
  refine ⟨(b.snapshot.drop offset).take length, ?_, ?_⟩
  · simp only [readAt, unfailed, if_pos (Nat.lt_of_le_of_lt reach below)]
    rfl
  · rw [List.getElem?_take_of_lt (by omega), List.getElem?_drop, Nat.add_sub_cancel' reach, found]

/-- What was returned once is served as long as the stream does not fail. -/
theorem Extends.serves (h : Extends b c) (unfailed : c.failure = none) {position : Nat}
    {byte : UInt8} (returned : b.Returns position byte) : c.Serves position byte := by
  obtain ⟨-, more, same⟩ := h.visible unfailed
  refine serves_of_getElem? unfailed ?_
  have found := returned.getElem?
  obtain ⟨below, -⟩ := List.getElem?_eq_some_iff.mp found
  rw [← same, List.getElem?_append_left below, found]

/-- A commit that fails leaves the storage as the transform left it, and takes the pump with it. -/
theorem brokenOff_of_unmarked (consistent : b.Consistent) {event : Event} {bytes : List UInt8}
    (takes : b.Takes event bytes)
    (unmarked : ∀ visible write, ¬b.content.Marks b.transform bytes visible write) (now : Nat) :
    let c := (b.apply now event).1
    c.content = { b.content with stored := (b.content.reshape b.transform bytes).stored } ∧
      c.failure = b.failure ∧ c.phase = b.phase ∧ c.IsDone := by
  obtain ⟨p, hp, stage, asked, moved⟩ := apply_of_takes takes now
  have streaming := consistent.streaming_of_running hp (by rw [stage]; rfl) asked
  have unpublished := Content.unpublished_iff.mpr unmarked
  have content := congrArg Prod.fst (Content.commit_of_unmarked unmarked)
  simp only [moved, take_of_not_published b p bytes unpublished, breakOff_eq]
  exact ⟨content, trivial, trivial, by simp [streaming], _, rfl, rfl⟩

/-- A buffer that is done keeps its content and its failure. -/
theorem IsDone.history (h : b.IsDone) (events : List (Nat × Event)) :
    ∀ t ∈ Machine.history Buffer.apply b events,
      t.after.content = b.content ∧ t.after.failure = b.failure := by
  intro t member
  obtain ⟨earlier, now, event, -, -, rfl⟩ := Machine.exists_of_mem_history Buffer.apply member
  obtain ⟨done, content, failure⟩ := Machine.final_induction Buffer.apply
    (fun c => c.IsDone ∧ c.content = b.content ∧ c.failure = b.failure) ⟨h, rfl, rfl⟩
    (fun c now event before _ => by
      obtain ⟨done, content, failure⟩ := before
      obtain ⟨done', content', failure'⟩ := done.apply now event
      exact ⟨done', content'.trans content, failure'.trans failure⟩)
    (Machine.allows_true Buffer.apply b earlier)
  obtain ⟨-, content', failure'⟩ := done.apply now event
  exact ⟨content'.trans content, failure'.trans failure⟩

end

section

variable {name : String} {options : BufferOptions} {transform : Option Transform}
  {events : List (Nat × Event)} {past future : History} {t : Move Buffer Event Notice}
  {bytes : List UInt8}
  (here : Machine.history apply (create name options transform) events = past ++ t :: future)
include here

/-- Before every move of a run phase, consumers and pump fit together. -/
theorem consistent_before : t.before.Consistent := by
  obtain ⟨earlier, -, same⟩ := Machine.exists_run_before apply here
  rw [same]
  exact consistent_final _ (.create name options transform) earlier

/-- Every move of a run takes a piece, fails, or leaves the content as it is. -/
theorem contentMove_of_history : ContentMove t.before t.event t.after := by
  rw [Machine.after_of_history apply here]
  exact contentMove_apply (consistent_before here) t.now t.event

/-- A piece that is taken with sound marks is published up to these. -/
theorem published_of_marks (takes : t.before.Takes t.event bytes) {visible write : Nat}
    (marks : t.before.content.Marks t.before.transform bytes visible write) :
    Published t bytes visible write := by
  have inside := marks.inside
  have content : t.after.content =
      (t.before.content.commit t.before.transform bytes).1.reserve t.before.options := by
    obtain ⟨p, -, -, -, moved⟩ := apply_of_takes takes t.now
    have published := Content.published_iff.mpr ⟨visible, write, marks⟩
    rw [Machine.after_of_history apply here, moved, take_of_published _ p bytes published]
  rw [Content.commit_of_marks marks] at content
  refine ⟨marks.ordered, Content.length_reshape .. ▸ inside, ?_, ?_⟩
  · rw [size, content, Content.size_reserve]
  · rw [content, Content.stored_reserve, List.length_take, Nat.min_eq_left inside]

/-- After a commit that fails readers see what they saw, now and whatever happens later. -/
theorem remains_of_unmarked (keeps : t.before.KeepsVisible t.event)
    (takes : t.before.Takes t.event bytes)
    (unmarked : ∀ visible write, ¬t.before.content.Marks t.before.transform bytes visible write) :
    ShowsAlike t.before t.after ∧ ∀ u ∈ future, Remains t.before u.after := by
  obtain ⟨content, failure, phase, done⟩ :=
    brokenOff_of_unmarked (consistent_before here) takes unmarked t.now
  rw [← Machine.after_of_history apply here] at content failure phase done
  have size : t.after.size = t.before.size := (congrArg Content.size content :)
  have snapshot : t.after.snapshot = t.before.snapshot := by
    rw [Buffer.snapshot, content]
    exact (keeps bytes takes).untouched
  refine ⟨showsAlike_of_eq (by rw [isFinished, phase, isFinished]) size snapshot failure, ?_⟩
  obtain ⟨later, rfl⟩ := Machine.exists_run_from apply here
  intro u member
  obtain ⟨content', failure'⟩ := done.history later u member
  have shown : u.after.snapshot = t.before.snapshot :=
    (congrArg Content.visible content').trans snapshot
  exact ⟨(congrArg Content.size content').trans size, shown, failure'.trans failure,
    fun _ _ => readAt_congr shown (failure'.trans failure)⟩

/-- Until the next piece is taken in, the storage ends at the position that the transform named, and
there that piece is appended. -/
theorem appendsAt_of_marks {mid rest : History} {u : Move Buffer Event Notice}
    (split : future = mid ++ u :: rest) (takes : t.before.Takes t.event bytes)
    {visible write : Nat}
    (marks : t.before.content.Marks t.before.transform bytes visible write)
    (between : ∀ v ∈ mid, ∀ piece, ¬v.before.Takes v.event piece) {piece : List UInt8}
    (next : u.before.Takes u.event piece) : AppendsAt u piece write := by
  subst split
  have stored : u.before.failure = none → u.before.content.stored.length = write := by
    refine Machine.stretch_induction apply
      (fun _ b => b.failure = none → b.content.stored.length = write) here
      (fun _ => (published_of_marks here takes marks).stored) ?_
    intro seen v later same split before unfailed
    have untaken := between v (by simp [same])
    have move := contentMove_of_history split
    cases move with
    | keeps _ content failure =>
        rw [content]
        exact before (failure ▸ unfailed)
    | reserves _ content failure =>
        rw [content, Content.stored_reserve]
        exact before (failure ▸ unfailed)
    | publishes piece taken | breaksOff piece taken => exact absurd taken (untaken piece)
    | fails _ cause _ _ content failure =>
        rw [failure] at unfailed
        cases unfailed
  have there : Machine.history apply (create name options transform) events =
      (past ++ t :: mid) ++ u :: rest := by simp [here]
  obtain ⟨p, hp, stage, -, moved⟩ := apply_of_takes next u.now
  have unfailed := (consistent_before there).failure_of_running hp (by rw [stage]; rfl)
  refine ⟨stored unfailed, fun transforms => ?_⟩
  obtain ⟨tr, same⟩ := Option.isSome_iff_exists.mp transforms
  have shown : .transformed (write + piece.length) write ∈ u.before.shown piece := by
    simp [Buffer.shown, same, stored unfailed]
  rw [Machine.notices_of_history apply there, moved]
  cases published : (u.before.content.commit u.before.transform piece).2 with
  | true =>
      rw [take_of_published _ p piece published]
      exact List.mem_append_left _ shown
  | false =>
      rw [take_of_not_published _ p piece published]
      exact List.mem_append_left _ shown

end

/-- As long as the transform keeps what readers see, the size never goes down and the visible bytes
are added to or left alone, so that a byte once returned for a position is served from then on,
until the stream fails. Every commit publishes the positions that the transform names, which are in
order and inside the storage, and the next piece is appended, and handed to the transform, at the
second of them. A commit of a transform that breaks off or names other positions shows nowhere: all
that readers see is what it was, then and ever after. -/
theorem published_bytes_stay (name : String) (options : BufferOptions)
    (transform : Option Transform) {events later : List (Nat × Event)}
    (keeps : Machine.Allows apply KeepsVisible (create name options transform) (events ++ later)) :
    let start := create name options transform
    let b := Machine.final apply start events
    let c := Machine.final apply b later
    (b.size ≤ c.size ∧ (c.failure = none → b.snapshot.length = b.size ∧ b.snapshot <+: c.snapshot ∧
      ∀ position byte, b.Returns position byte → c.Serves position byte)) ∧
    ∀ past t future bytes, Machine.history apply start events = past ++ t :: future →
      t.before.Takes t.event bytes →
        (∀ visible write, t.before.content.Marks t.before.transform bytes visible write →
          Published t bytes visible write ∧
          ∀ mid u rest piece, future = mid ++ u :: rest →
            (∀ v ∈ mid, ∀ piece, ¬v.before.Takes v.event piece) →
              u.before.Takes u.event piece → AppendsAt u piece write) ∧
        ((∀ visible write, ¬t.before.content.Marks t.before.transform bytes visible write) →
          ShowsAlike t.before t.after ∧ ∀ u ∈ future, Remains t.before u.after) := by
  intro start b c
  obtain ⟨before, after⟩ := (Machine.allows_append apply start events later).mp keeps
  have consistent : b.Consistent := consistent_final _ (.create name options transform) events
  have longer : Extends b c := extends_of_run consistent after
  refine ⟨⟨longer.size, fun unfailed => ?_⟩, fun past t future bytes here takes => ⟨?_, ?_⟩⟩
  · obtain ⟨sound, more⟩ := longer.visible unfailed
    have inside := size_le_stored name options transform events sound
    refine ⟨?_, more, fun position byte returned => longer.serves unfailed returned⟩
    change (b.content.stored.take b.size).length = b.size
    rw [List.length_take, Nat.min_eq_left inside]
  · intro visible write marks
    exact ⟨published_of_marks here takes marks, fun mid u rest piece split between next =>
      appendsAt_of_marks here split takes marks between next⟩
  · obtain ⟨-, -, -, -, kept⟩ := Machine.exists_allowed_before apply before here
    exact remains_of_unmarked here kept takes

/-- Shows complete lines only, and names positions past the storage once that contains a zero. -/
def linesUntilZero : Transform :=
  .marking fun stored _ =>
    if 0 ∈ stored then (stored.length, stored.length + 1)
    else (Transform.lineEnd stored, stored.length)

/-- A line and a half. -/
def lineAndHalf : List (Nat × Event) :=
  [(0, .join 0), (0, .pump .started), (1, .pump .opened), (1, .watch .timers),
    (2, .pump (.received [97, 10, 98]))]

/-- The line is completed, and then the transform fails. -/
def completedThenFailed : List (Nat × Event) :=
  [(3, .pump (.received [99, 10])), (4, .join 1), (5, .pump (.received [100, 0])), (6, .release 1)]

/-- The third piece breaks the transform off, and the second byte is still served. -/
theorem second_byte_served_after_failed_commit :
    let start := create "b" {} (some linesUntilZero)
    let b := Machine.final apply start lineAndHalf
    let c := Machine.final apply b completedThenFailed
    Machine.Allows apply KeepsVisible start (lineAndHalf ++ completedThenFailed) ∧
      (c.failure = none ∧ c.snapshot = [97, 10, 98, 99, 10] ∧ c.content.stored.length = 7) ∧
      b.Returns 1 10 ∧ c.Serves 1 10 := by
  intro start b c
  have keeps : Machine.Allows apply KeepsVisible start (lineAndHalf ++ completedThenFailed) := by
    decide
  have unfailed : c.failure = none := by decide
  have returned : b.Returns 1 10 := ⟨8, 0, [97, 10], by decide, by decide, rfl⟩
  obtain ⟨⟨-, stays⟩, -⟩ := published_bytes_stay "b" {} (some linesUntilZero) keeps
  exact ⟨keeps, ⟨unfailed, by decide, by decide⟩, returned, (stays unfailed).2.2 1 10 returned⟩

end Buffer

end CachedStreams
