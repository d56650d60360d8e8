import CachedStreams.Proofs.Stream.Phases

/-!
# What happens to the content of a buffer

The content of a buffer changes in few ways. When the stream has been opened there is room made for
the first read; a storage that is full grows for that. A piece that the pump takes in
(`Buffer.Takes`) is appended, the transform is run, and either the positions that it names are
published and there is room made for the next read, or it names none that can be published; then
what it has made of the storage stays behind and the pump is gone. A failure of the stream throws
the content away. `Buffer.contentMove_apply` says that there is nothing else, for all that can
happen to a buffer.
-/

set_option autoImplicit false

namespace CachedStreams

namespace BufferOptions

/-- A capacity grows unless it is the largest or the slow-growth threshold is zero. -/
theorem lt_grownCapacity {o : BufferOptions} (slow : 0 < o.slowGrowth) {current : Nat}
    (h : current < maxCapacity) : current < o.grownCapacity current := by
  unfold grownCapacity
  split
  · omega
  · split <;> omega

/-- A capacity never shrinks. -/
theorem le_grownCapacity (o : BufferOptions) {current : Nat} (h : current ≤ maxCapacity) :
    current ≤ o.grownCapacity current := by
  unfold grownCapacity
  split
  · omega
  · split <;> omega

end BufferOptions

namespace Content

/-- The stored bytes fit the capacity, unless that cannot grow any more. -/
def Fits (c : Content) : Prop :=
  c.stored.length ≤ c.capacity ∨ maxCapacity ≤ c.stored.length

/-- To make room leaves the storage as it is. -/
@[simp] theorem stored_reserve (c : Content) (o : BufferOptions) :
    (c.reserve o).stored = c.stored := by
  unfold reserve
  split <;> rfl

/-- To make room leaves the visible length as it is. -/
@[simp] theorem size_reserve (c : Content) (o : BufferOptions) :
    (c.reserve o).size = c.size := by
  unfold reserve
  split <;> rfl

/-- To make room leaves the storage within its capacity. -/
theorem fits_reserve {c : Content} (o : BufferOptions) (h : c.Fits) : (c.reserve o).Fits := by
  unfold reserve
  split
  · exact h
  · rcases h with fits | full
    · have heq : c.stored.length = c.capacity := by omega
      by_cases hmax : c.capacity < maxCapacity
      · have := o.le_grownCapacity (Nat.le_of_lt hmax)
        exact .inl (by dsimp only; omega)
      · exact .inr (by dsimp only; omega)
    · exact .inr full

/-- There is room for the next read, unless the threshold is zero or the storage is as large as can
be. -/
theorem room_reserve_pos {c : Content} {o : BufferOptions} (slow : 0 < o.slowGrowth) (h : c.Fits)
    (small : c.stored.length < maxCapacity) : 0 < (c.reserve o).room := by
  have hread : 0 < maxReadLength := by decide
  have hcap : c.stored.length ≤ c.capacity := by
    rcases h with fits | full
    · exact fits
    · omega
  unfold reserve
  split
  · unfold room spare
    omega
  · have heq : c.stored.length = c.capacity := by omega
    have hgrown := BufferOptions.lt_grownCapacity slow (heq ▸ small)
    unfold room spare
    dsimp only
    omega

/-- Without a transform a commit appends what was read and shows all of it. -/
theorem commit_none (c : Content) (bytes : List UInt8) :
    c.commit none bytes =
      ({ c with stored := c.stored ++ bytes, size := (c.stored ++ bytes).length }, true) := by
  unfold commit reshape
  dsimp only
  rw [if_pos ⟨Nat.le_refl _, Nat.le_refl _⟩, List.take_length]

/-- A transform names positions that can be published: how much readers may see of the storage, and
where the next read is to append. -/
structure Marks (c : Content) (transform : Option Transform) (bytes : List UInt8)
    (visible write : Nat) : Prop where
  named : (c.reshape transform bytes).marks = some (visible, write)
  ordered : visible ≤ write
  inside : write ≤ (c.reshape transform bytes).stored.length

section

variable (c : Content) (transform : Option Transform) (bytes : List UInt8)

/-- A transform does not change how much is stored. -/
@[simp] theorem length_reshape :
    (c.reshape transform bytes).stored.length = c.stored.length + bytes.length := by
  unfold reshape
  cases transform with
  | none => exact List.length_append
  | some t => simp only [t.length_run, List.length_append]

variable {c transform bytes}

/-- A piece whose marks are sound is published: what lies past the write mark is cut off. -/
theorem commit_of_marks {visible write : Nat} (marks : c.Marks transform bytes visible write) :
    c.commit transform bytes =
      ({ c with stored := (c.reshape transform bytes).stored.take write, size := visible },
        true) := by
  simp only [commit, marks.named]
  rw [if_pos ⟨marks.ordered, marks.inside⟩]

/-- A piece without sound marks is stored and not published. -/
theorem commit_of_unmarked
    (unmarked : ∀ visible write, ¬c.Marks transform bytes visible write) :
    c.commit transform bytes =
      ({ c with stored := (c.reshape transform bytes).stored }, false) := by
  unfold commit
  dsimp only
  split
  · rename_i visible write named
    rw [if_neg]
    exact fun inRange => unmarked visible write ⟨named, inRange.1, inRange.2⟩
  · rfl

variable (c transform bytes)

/-- A commit publishes the positions that the transform names, or there are none to be published and
what it has made of the storage stays behind. -/
theorem commit_cases :
    (∃ visible write, c.Marks transform bytes visible write ∧
      c.commit transform bytes =
        ({ c with stored := (c.reshape transform bytes).stored.take write, size := visible },
          true)) ∨
    ((∀ visible write, ¬c.Marks transform bytes visible write) ∧
      c.commit transform bytes =
        ({ c with stored := (c.reshape transform bytes).stored }, false)) := by
  by_cases published : ∃ visible write, c.Marks transform bytes visible write
  · obtain ⟨visible, write, marks⟩ := published
    exact .inl ⟨visible, write, marks, commit_of_marks marks⟩
  · have unmarked : ∀ visible write, ¬c.Marks transform bytes visible write :=
      fun visible write marks => published ⟨visible, write, marks⟩
    exact .inr ⟨unmarked, commit_of_unmarked unmarked⟩

variable {c transform bytes}

/-- A piece is published if its marks are sound. -/
theorem published_iff :
    (c.commit transform bytes).2 = true ↔
      ∃ visible write, c.Marks transform bytes visible write := by
  rcases c.commit_cases transform bytes with ⟨visible, write, marks, same⟩ | ⟨unmarked, same⟩
  · rw [same]
    exact ⟨fun _ => ⟨visible, write, marks⟩, fun _ => rfl⟩
  · rw [same]
    exact ⟨nofun, fun ⟨visible, write, marks⟩ => absurd marks (unmarked visible write)⟩

/-- A piece is not published if it has no sound marks. -/
theorem unpublished_iff :
    (c.commit transform bytes).2 = false ↔
      ∀ visible write, ¬c.Marks transform bytes visible write := by
  rw [← Bool.not_eq_true, published_iff]
  simp only [not_exists]

variable (c transform bytes)

/-- To take a piece leaves the capacity as it is. -/
@[simp] theorem capacity_commit : (c.commit transform bytes).1.capacity = c.capacity := by
  unfold commit
  dsimp only
  split
  · split <;> rfl
  · rfl

/-- Nothing is stored but what was there and what was read, and some of that may be cut off. -/
theorem length_commit_le :
    (c.commit transform bytes).1.stored.length ≤ c.stored.length + bytes.length := by
  rw [← length_reshape c transform bytes]
  rcases c.commit_cases transform bytes with ⟨visible, write, -, same⟩ | ⟨-, same⟩
  · rw [same]
    exact List.length_take_le' write _
  · simp only [same, Nat.le_refl]

variable {c transform bytes}

/-- A piece that fits the room is stored within the capacity, whatever the transform does to it. -/
theorem fits_commit (nonempty : bytes ≠ []) (room : bytes.length ≤ c.room) :
    (c.commit transform bytes).1.Fits := by
  have pos := List.length_pos_iff.mpr nonempty
  have stored := length_commit_le c transform bytes
  unfold Content.room spare at room
  exact .inl (by rw [capacity_commit]; omega)

end

end Content

namespace Buffer

/-- Whether the pump waits for the reader to give something. -/
def isReading (b : Buffer) : Bool :=
  match b.pump with
  | some p => decide (p.stage = .reading) && !p.releaseAsked
  | none => false

/-- A buffer reads if its pump does and has not been asked to end. -/
theorem isReading_eq_true_iff {b : Buffer} :
    b.isReading = true ↔
      ∃ p, b.pump = some p ∧ p.stage = .reading ∧ p.releaseAsked = false := by
  unfold isReading
  split
  · rename_i p hp
    simp [hp]
  · rename_i hp
    simp [hp]

/-- What a read gives is taken, or is the end of the stream if it is nothing. -/
theorem apply_received_of_reading {b : Buffer} {p : Pump} (hp : b.pump = some p)
    (stage : p.stage = .reading) (asked : p.releaseAsked = false) (now : Nat)
    {bytes : List UInt8} (fits : bytes.length ≤ b.content.room) :
    b.apply now (.pump (.received bytes)) =
      if bytes = [] then b.reachEnd p else b.take p bytes := by
  cases bytes with
  | nil => simp [apply, hp, pumpStep, stage, asked]
  | cons byte rest =>
      simp only [List.length_cons] at fits
      simp [apply, hp, pumpStep, stage, asked, fits]

/-- No event changes the transform or the options. -/
theorem fixed_apply (b : Buffer) (now : Nat) (event : Event) :
    (b.apply now event).1.transform = b.transform ∧
      (b.apply now event).1.options = b.options := by
  rcases apply_cases b now event with ⟨-, same⟩ | move | ⟨p, hp, ⟨done, he, move⟩ | ⟨-, move⟩⟩
  · rw [same]
    exact ⟨rfl, rfl⟩
  · generalize b.apply now event = r at move
    cases move <;> exact ⟨rfl, rfl⟩
  · generalize b.apply now event = r at move
    cases move with
    | takes bytes =>
        cases hc : (b.content.commit b.transform bytes).2 with
        | true =>
            rw [take_of_published b p bytes hc]
            exact ⟨rfl, rfl⟩
        | false =>
            rw [take_of_not_published b p bytes hc, breakOff_eq]
            exact ⟨rfl, rfl⟩
    | failsToOpen => rw [failOpen_eq]; exact ⟨rfl, rfl⟩
    | breaksCall | breaksOpening | breaksReading => rw [breakOff_eq]; exact ⟨rfl, rfl⟩
    | ends => rw [reachEnd_eq]; exact ⟨rfl, rfl⟩
    | fails => rw [fail_eq]; exact ⟨rfl, rfl⟩
    | stops => rw [stop_eq]; exact ⟨rfl, rfl⟩
    | _ => exact ⟨rfl, rfl⟩
  · generalize b.apply now event = r at move
    cases move <;> exact ⟨rfl, rfl⟩

/-- In every run transform and options are those that the buffer was created with. -/
theorem fixed_of_run (name : String) (options : BufferOptions) (transform : Option Transform)
    (events : List (Nat × Event)) :
    (Machine.final apply (create name options transform) events).transform = transform ∧
      (Machine.final apply (create name options transform) events).options = options := by
  refine Machine.final_induction apply
    (fun b => b.transform = transform ∧ b.options = options) ⟨rfl, rfl⟩ ?_
    (Machine.allows_true apply _ events)
  rintro b now event ⟨transform, options⟩ -
  obtain ⟨transform', options'⟩ := fixed_apply b now event
  exact ⟨transform'.trans transform, options'.trans options⟩

/-- The pump takes in a piece that its reader gives. -/
structure Takes (b : Buffer) (event : Event) (bytes : List UInt8) : Prop where
  event : event = .pump (.received bytes)
  reading : b.isReading = true
  nonempty : bytes ≠ []
  fits : bytes.length ≤ b.content.room

/-- A piece that the pump takes in is published, or takes the pump with it. -/
theorem apply_of_takes {b : Buffer} {event : Event} {bytes : List UInt8}
    (takes : b.Takes event bytes) (now : Nat) :
    ∃ p, b.pump = some p ∧ p.stage = .reading ∧ p.releaseAsked = false ∧
      b.apply now event = b.take p bytes := by
  obtain ⟨rfl, reading, nonempty, fits⟩ := takes
  obtain ⟨p, hp, stage, asked⟩ := isReading_eq_true_iff.mp reading
  refine ⟨p, hp, stage, asked, ?_⟩
  rw [apply_received_of_reading hp stage asked now fits, if_neg nonempty]

/-- What an event does to the content of a buffer. -/
inductive ContentMove (b : Buffer) (event : Event) (c : Buffer) : Prop where
  | keeps (untaken : ∀ bytes, ¬b.Takes event bytes) (content : c.content = b.content)
    (failure : c.failure = b.failure) (stage : c.stage? = some .reading → b.stage? = some .reading)
  /-- The stream has been opened. -/
  | reserves (untaken : ∀ bytes, ¬b.Takes event bytes)
    (content : c.content = b.content.reserve b.options) (failure : c.failure = b.failure)
  | publishes (bytes : List UInt8) (takes : b.Takes event bytes) (visible write : Nat)
    (marks : b.content.Marks b.transform bytes visible write)
    (content : c.content = (b.content.commit b.transform bytes).1.reserve b.options)
    (failure : c.failure = b.failure)
  /-- The transform breaks off, or names positions that cannot be published. -/
  | breaksOff (bytes : List UInt8) (takes : b.Takes event bytes)
    (unmarked : ∀ visible write, ¬b.content.Marks b.transform bytes visible write)
    (content : c.content = (b.content.commit b.transform bytes).1)
    (failure : c.failure = b.failure) (phase : c.phase = b.phase)
    (gone : c.stage? = some (.ended true))
  /-- The stream fails while it is read. -/
  | fails (untaken : ∀ bytes, ¬b.Takes event bytes) (cause : IoError)
    (failing : event = .pump (.readFailed cause)) (reading : b.isReading = true)
    (content : c.content = b.content.discard) (failure : c.failure = some (.readFailed cause))
    (gone : c.stage? = some (.ended false))

/-- A piece that is taken is published or makes the pump break off. -/
theorem contentMove_of_takes {b : Buffer} {event : Event} {bytes : List UInt8}
    (takes : b.Takes event bytes) (now : Nat) : ContentMove b event (b.apply now event).1 := by
  obtain ⟨p, -, -, -, moved⟩ := apply_of_takes takes now
  rw [moved]
  cases published : (b.content.commit b.transform bytes).2 with
  | true =>
      obtain ⟨visible, write, marks⟩ := Content.published_iff.mp published
      rw [take_of_published b p bytes published]
      exact .publishes bytes takes visible write marks rfl rfl
  | false =>
      rw [take_of_not_published b p bytes published, breakOff_eq]
      exact .breaksOff bytes takes (Content.unpublished_iff.mp published) rfl rfl rfl rfl

/-- Whatever happens to the content is the piece that is taken, a failure of the stream, or nothing.
-/
theorem contentMove_apply {b : Buffer} (consistent : b.Consistent) (now : Nat) (event : Event) :
    ContentMove b event (b.apply now event).1 := by
  by_cases piece : ∃ bytes, b.Takes event bytes
  · obtain ⟨bytes, takes⟩ := piece
    exact contentMove_of_takes takes now
  have untaken : ∀ bytes, ¬b.Takes event bytes := not_exists.mp piece
  rcases apply_cases b now event with ⟨-, same⟩ | move | ⟨p, hp, ⟨done, rfl, move⟩ | ⟨-, move⟩⟩
  · rw [same]
    exact .keeps untaken rfl rfl id
  · generalize b.apply now event = r at move
    cases move with
    | starts => exact .keeps untaken rfl rfl (by simp [stage?])
    | leavesEnded call p panicked last held hp | leavesRunning call p last held hp =>
        exact .keeps untaken rfl rfl (by simp [stage?, hp])
    | _ => exact .keeps untaken rfl rfl id
  · generalize b.apply now (.pump done) = r at move
    cases move with
    | ignores => exact .keeps untaken rfl rfl id
    | starts => exact .keeps untaken rfl rfl (by simp [stage?])
    | opens => exact .reserves untaken rfl rfl
    | failsToOpen =>
        rw [failOpen_eq]
        exact .keeps untaken rfl rfl (by simp [stage?])
    | breaksCall | breaksOpening | breaksReading =>
        rw [breakOff_eq]
        exact .keeps untaken rfl rfl (by simp [stage?])
    | ends stage =>
        rw [reachEnd_eq]
        have unfailed := consistent.failure_of_running hp (by rw [stage]; rfl)
        exact .keeps untaken rfl unfailed.symm (by simp [stage?])
    | takes bytes nonempty stage asked fits =>
        exact absurd ⟨rfl, isReading_eq_true_iff.mpr ⟨p, hp, stage, asked⟩, nonempty, fits⟩
          (untaken bytes)
    | fails cause stage asked =>
        rw [fail_eq]
        exact .fails untaken cause rfl (isReading_eq_true_iff.mpr ⟨p, hp, stage, asked⟩) rfl rfl rfl
    | stops =>
        rw [stop_eq]
        exact .keeps untaken rfl rfl (by simp [stage?])
  · generalize b.apply now event = r at move
    cases move <;> exact .keeps untaken rfl rfl (by simp [stage?, hp])

end Buffer

end CachedStreams
