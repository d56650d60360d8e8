import Mathlib.Algebra.Order.Group.Nat
import Mathlib.Data.Nat.Find
import Mathlib.Logic.Function.Iterate
import CachedStreams.Proofs.Stream.Room

/-!
# The capacities of a buffer

How a full storage grows depends on its capacity alone, so the capacities that a buffer comes to
stand in one sequence. Such a sequence rises until it comes to the largest capacity there is
(`BufferOptions.RisesToTop`): below the slow-growth threshold it triples and comes out less than
three times as high (`BufferOptions.TriplesToThreshold`), and from there on it goes in even steps
(`BufferOptions.AddsThreshold`).

A pump keeps to it (`Content.Measured`): it grows a storage only when that is full, and never asks
for less than what is stored (`Content.GrowsWhenFull`), also if the transform takes out again what
has been stored, which makes room but leaves the capacity as it is.
-/

set_option autoImplicit false

namespace CachedStreams

namespace BufferOptions

variable {o : BufferOptions} {start : Nat}

/-! ## One growth -/

/-- No capacity grows beyond what can be allocated. -/
theorem grownCapacity_le (allocates : o.initialCapacity ≤ maxCapacity) (current : Nat) :
    o.grownCapacity current ≤ maxCapacity := by
  have positive : 1 ≤ maxCapacity := by decide
  unfold grownCapacity
  split
  · omega
  · split <;> omega

/-- Below the threshold a capacity triples. -/
theorem grownCapacity_of_lt {current : Nat} (pos : 0 < current) (small : current < o.slowGrowth) :
    o.grownCapacity current = min (current * 3) maxCapacity := by
  unfold grownCapacity
  rw [if_neg (by omega), if_pos small]

/-- From the threshold on a capacity grows by the threshold. -/
theorem grownCapacity_of_le (slow : 0 < o.slowGrowth) {current : Nat}
    (large : o.slowGrowth ≤ current) :
    o.grownCapacity current = min (current + o.slowGrowth) maxCapacity := by
  unfold grownCapacity
  rw [if_neg (by omega), if_neg (by omega)]

/-- The largest capacity does not grow. -/
theorem grownCapacity_top (slow : 0 < o.slowGrowth) :
    o.grownCapacity maxCapacity = maxCapacity := by
  have positive : 0 < maxCapacity := by decide
  unfold grownCapacity
  rw [if_neg (by omega)]
  split <;> omega

/-! ## Growth after growth -/

/-- From `start` on capacities rise with every growth, until the largest, which they come to and
keep. -/
def RisesToTop (o : BufferOptions) (start : Nat) : Prop :=
  ∃ top, (∀ n < top, o.grownCapacity^[n] start < o.grownCapacity^[n + 1] start) ∧
    ∀ n, top ≤ n → o.grownCapacity^[n] start = maxCapacity

/-- From a positive `start` below the threshold capacities triple, up to the first one that is not
below the threshold; that is less than three times as large. -/
def TriplesToThreshold (o : BufferOptions) (start : Nat) : Prop :=
  0 < start → start < o.slowGrowth → ∃ n, 0 < n ∧
    (∀ k < n, o.grownCapacity^[k] start = 3 ^ k * start ∧ 3 ^ k * start < o.slowGrowth) ∧
    o.grownCapacity^[n] start = min (3 ^ n * start) maxCapacity ∧
    o.slowGrowth ≤ o.grownCapacity^[n] start ∧ o.grownCapacity^[n] start < 3 * o.slowGrowth

/-- From a `start` that is not below the threshold capacities grow by the threshold. -/
def AddsThreshold (o : BufferOptions) (start : Nat) : Prop :=
  o.slowGrowth ≤ start → ∀ n,
    o.grownCapacity^[n] start = min (start + n * o.slowGrowth) maxCapacity

/-- However often it grows, a capacity stays within what can be allocated. -/
theorem iterate_le (allocates : o.initialCapacity ≤ maxCapacity) (le : start ≤ maxCapacity)
    (n : Nat) : o.grownCapacity^[n] start ≤ maxCapacity := by
  cases n with
  | zero => exact le
  | succ n =>
      rw [Function.iterate_succ_apply']
      exact grownCapacity_le allocates _

/-- Below the largest capacity every growth is strict. -/
theorem lt_iterate_succ (slow : 0 < o.slowGrowth) {n : Nat}
    (below : o.grownCapacity^[n] start < maxCapacity) :
    o.grownCapacity^[n] start < o.grownCapacity^[n + 1] start := by
  rw [Function.iterate_succ_apply']
  exact lt_grownCapacity slow below

/-- With every growth the capacity gains at least one, as long as it can. -/
theorem le_iterate (slow : 0 < o.slowGrowth) (allocates : o.initialCapacity ≤ maxCapacity)
    (le : start ≤ maxCapacity) (n : Nat) :
    min (start + n) maxCapacity ≤ o.grownCapacity^[n] start := by
  induction n with
  | zero => exact Nat.min_le_left start maxCapacity
  | succ n ih =>
      have bounded := iterate_le allocates le n
      rcases Nat.lt_or_eq_of_le bounded with below | top
      · have rises := lt_iterate_succ slow below
        omega
      · rw [Function.iterate_succ_apply', top, grownCapacity_top slow]
        omega

/-- Once the largest capacity has been reached it stays. -/
theorem iterate_of_top (slow : 0 < o.slowGrowth) {top : Nat}
    (reached : o.grownCapacity^[top] start = maxCapacity) {n : Nat} (le : top ≤ n) :
    o.grownCapacity^[n] start = maxCapacity := by
  induction n, le using Nat.le_induction with
  | base => exact reached
  | succ n _ ih => rw [Function.iterate_succ_apply', ih, grownCapacity_top slow]

/-- Every capacity reaches the largest if it grows often enough. -/
theorem exists_iterate_eq_top (slow : 0 < o.slowGrowth)
    (allocates : o.initialCapacity ≤ maxCapacity) (le : start ≤ maxCapacity) :
    ∃ n, o.grownCapacity^[n] start = maxCapacity := by
  have high := le_iterate slow allocates le maxCapacity
  have bounded := iterate_le allocates le maxCapacity
  exact ⟨maxCapacity, by omega⟩

/-- Every capacity rises strictly until it is the largest. -/
theorem risesToTop (slow : 0 < o.slowGrowth) (allocates : o.initialCapacity ≤ maxCapacity)
    (le : start ≤ maxCapacity) : o.RisesToTop start := by
  have reached := exists_iterate_eq_top slow allocates le
  refine ⟨Nat.find reached, fun n before => lt_iterate_succ slow ?_,
    fun n after => iterate_of_top slow (Nat.find_spec reached) after⟩
  exact Nat.lt_of_le_of_ne (iterate_le allocates le n) (Nat.find_min reached before)

/-- As long as capacities stay below the threshold, they are those that tripling leads to. -/
theorem iterate_eq_pow_mul (small : o.slowGrowth ≤ maxCapacity) (pos : 0 < start) {n : Nat}
    (below : ∀ k ≤ n, o.grownCapacity^[k] start < o.slowGrowth) :
    o.grownCapacity^[n] start = 3 ^ n * start := by
  induction n with
  | zero => simp
  | succ n ih =>
      have same := ih fun k le => below k (Nat.le_succ_of_le le)
      have before := below n (Nat.le_succ n)
      have here := below (n + 1) (Nat.le_refl _)
      have positive : 0 < 3 ^ n * start := Nat.mul_pos (Nat.pow_pos (by decide)) pos
      have step := grownCapacity_of_lt positive (same ▸ before)
      rw [Function.iterate_succ_apply', same, step] at here ⊢
      rw [Nat.pow_succ, Nat.mul_right_comm _ 3]
      omega

/-- A positive capacity triples until it is no longer below the threshold, and then is less than
three times as large as that. -/
theorem triplesToThreshold (slow : 0 < o.slowGrowth) (small : o.slowGrowth ≤ maxCapacity)
    (allocates : o.initialCapacity ≤ maxCapacity) (le : start ≤ maxCapacity) :
    o.TriplesToThreshold start := by
  intro pos under
  have reached : ∃ n, o.slowGrowth ≤ o.grownCapacity^[n] start := by
    obtain ⟨n, top⟩ := exists_iterate_eq_top slow allocates le
    exact ⟨n, top ▸ small⟩
  have below : ∀ k < Nat.find reached, o.grownCapacity^[k] start < o.slowGrowth := fun k before =>
    Nat.lt_of_not_le (Nat.find_min reached before)
  have triples : ∀ k < Nat.find reached, o.grownCapacity^[k] start = 3 ^ k * start :=
    fun k before => iterate_eq_pow_mul small pos fun j le => below j (Nat.lt_of_le_of_lt le before)
  have first := Nat.find_spec reached
  generalize Nat.find reached = n at below triples first
  obtain _ | n := n
  · exact absurd under (Nat.not_lt.mpr first)
  have before := below n (Nat.lt_succ_self n)
  have same := triples n (Nat.lt_succ_self n)
  have positive : 0 < 3 ^ n * start := Nat.mul_pos (Nat.pow_pos (by decide)) pos
  have last : o.grownCapacity^[n + 1] start = min (3 ^ (n + 1) * start) maxCapacity := by
    rw [Function.iterate_succ_apply', same, grownCapacity_of_lt positive (same ▸ before),
      Nat.pow_succ, Nat.mul_right_comm]
  refine ⟨n + 1, Nat.succ_pos n, fun k lt => ⟨triples k lt, triples k lt ▸ below k lt⟩, last,
    first, ?_⟩
  rw [same] at before
  rw [last, Nat.pow_succ, Nat.mul_right_comm]
  omega

/-- From the threshold on a capacity rises in steps of the threshold. -/
theorem addsThreshold (slow : 0 < o.slowGrowth) (small : o.slowGrowth ≤ maxCapacity)
    (le : start ≤ maxCapacity) : o.AddsThreshold start := by
  intro reached n
  induction n with
  | zero => simp [le]
  | succ n ih =>
      have large : o.slowGrowth ≤ min (start + n * o.slowGrowth) maxCapacity := by
        have more := Nat.le_add_right start (n * o.slowGrowth)
        omega
      rw [Function.iterate_succ_apply', ih, grownCapacity_of_le slow large, Nat.succ_mul]
      omega

end BufferOptions

/-! ## The storage of a buffer -/

namespace Content

variable {c : Content} {o : BufferOptions}

/-- A storage has a capacity that growth after growth leads to from the initial one, and holds what
is stored. -/
structure Measured (c : Content) (o : BufferOptions) : Prop where
  grown : ∃ n, c.capacity = o.grownCapacity^[n] o.initialCapacity
  fits : c.stored.length ≤ c.capacity

/-- There is nothing left to do to make room. -/
def Reserved (c : Content) (o : BufferOptions) : Prop := c.reserve o = c

/-- A storage has not grown, or it was full and has grown once; and what it asked for in that case
was not less than what is stored. -/
structure GrowsWhenFull (o : BufferOptions) (before after : Content) : Prop where
  full : after.capacity ≠ before.capacity →
    after.stored.length = before.capacity ∧ after.capacity = o.grownCapacity before.capacity
  enough : after.stored.length ≤ o.grownCapacity before.capacity

/-- A capacity that growth after growth has led to can be allocated. -/
theorem Measured.capacity_le (measured : c.Measured o)
    (allocates : o.initialCapacity ≤ maxCapacity) : c.capacity ≤ maxCapacity := by
  obtain ⟨n, grown⟩ := measured.grown
  exact grown ▸ BufferOptions.iterate_le allocates allocates n

/-- To make room leads to the next capacity, if to any other. -/
theorem Measured.reserve (measured : c.Measured o)
    (allocates : o.initialCapacity ≤ maxCapacity) : (c.reserve o).Measured o := by
  have more := o.le_grownCapacity (measured.capacity_le allocates)
  obtain ⟨n, grown⟩ := measured.grown
  have fits := measured.fits
  unfold Content.reserve
  split
  · exact measured
  · exact ⟨⟨n + 1, by rw [Function.iterate_succ_apply', ← grown]⟩, Nat.le_trans fits more⟩

/-- To take a piece that fits leaves the capacity as it is. -/
theorem Measured.commit (measured : c.Measured o) (transform : Option Transform)
    {bytes : List UInt8} (room : c.stored.length + bytes.length ≤ c.capacity) :
    (c.commit transform bytes).1.Measured o := by
  refine ⟨by simpa using measured.grown, ?_⟩
  rw [capacity_commit]
  exact Nat.le_trans (length_commit_le c transform bytes) room

/-- Room is made once and for all: a storage that is still full has the largest capacity. -/
theorem reserved_reserve (slow : 0 < o.slowGrowth) (measured : c.Measured o)
    (allocates : o.initialCapacity ≤ maxCapacity) : (c.reserve o).Reserved o := by
  have fits := measured.fits
  have bounded := measured.capacity_le allocates
  unfold Reserved
  by_cases room : c.stored.length < c.capacity
  · simp only [Content.reserve, if_pos room]
  · simp only [Content.reserve, if_neg room]
    split
    · rfl
    · rename_i still
      -- Growth that makes no room has come to the top, where it stays.
      have top : c.capacity = maxCapacity := by
        by_contra below
        have := BufferOptions.lt_grownCapacity slow (Nat.lt_of_le_of_ne bounded below)
        omega
      rw [top, BufferOptions.grownCapacity_top slow, BufferOptions.grownCapacity_top slow]

/-- A storage that keeps its capacity has not grown out of step. -/
theorem Measured.keeps (measured : c.Measured o) (allocates : o.initialCapacity ≤ maxCapacity)
    {d : Content} (stored : d.stored.length ≤ c.capacity) (capacity : d.capacity = c.capacity) :
    GrowsWhenFull o c d :=
  ⟨fun changed => absurd capacity changed,
    Nat.le_trans stored (o.le_grownCapacity (measured.capacity_le allocates))⟩

/-- Making room after something has been stored grows the storage if that has filled it. -/
theorem Measured.grows (measured : c.Measured o) (allocates : o.initialCapacity ≤ maxCapacity)
    {d : Content} (stored : d.stored.length ≤ c.capacity) (capacity : d.capacity = c.capacity) :
    GrowsWhenFull o c (d.reserve o) := by
  refine ⟨fun changed => ?_, ?_⟩
  · unfold Content.reserve at changed ⊢
    split
    · rename_i room
      rw [if_pos room] at changed
      exact absurd capacity changed
    · exact ⟨by dsimp only; omega, by rw [capacity]⟩
  · rw [stored_reserve]
    exact (measured.keeps allocates stored capacity).enough

end Content

/-! ## The pump -/

namespace Buffer

/-- A piece that the pump takes in fits the capacity that there is. -/
theorem Takes.fits_capacity {b : Buffer} {event : Event} {bytes : List UInt8}
    (takes : b.Takes event bytes) :
    b.content.stored.length + bytes.length ≤ b.content.capacity := by
  have fits := takes.fits
  have positive := List.length_pos_iff.mpr takes.nonempty
  unfold Content.room Content.spare at fits
  omega

/-- As long as the stream has not failed, the storage has a capacity that growth leads to; before a
read there was room made. -/
structure Regular (o : BufferOptions) (b : Buffer) : Prop where
  options : b.options = o
  consistent : b.Consistent
  measured : b.failure = none → b.content.Measured o
  reserved : b.stage? = some .reading → b.content.Reserved o

/-- No failure is recorded while the pump reads. -/
theorem failure_of_reading {b : Buffer} (consistent : b.Consistent)
    (reading : b.stage? = some .reading) : b.failure = none := by
  obtain ⟨p, hp, stage⟩ := Option.map_eq_some_iff.mp reading
  exact consistent.failure_of_running hp (by rw [stage]; rfl)

namespace Regular

variable {o : BufferOptions} {b : Buffer}

/-- A new buffer has the capacity that it was created with. -/
theorem create (name : String) (o : BufferOptions) (transform : Option Transform) :
    Regular o (create name o transform) where
  options := rfl
  consistent := .create name o transform
  measured _ := ⟨⟨0, rfl⟩, Nat.zero_le _⟩
  reserved reading := by cases reading

/-- A stream that has not failed had not failed before. -/
theorem unfailed (h : Regular o b) (now : Nat) (event : Event)
    (unfailed : (b.apply now event).1.failure = none) : b.failure = none := by
  by_contra failed
  obtain ⟨e, failed⟩ := Option.ne_none_iff_exists'.mp failed
  rw [failure_kept h.consistent failed now event] at unfailed
  cases unfailed

/-- Nothing that can happen to a buffer grows its storage in another way. -/
theorem apply (h : Regular o b) (slow : 0 < o.slowGrowth)
    (allocates : o.initialCapacity ≤ maxCapacity) (now : Nat) (event : Event) :
    Regular o (b.apply now event).1 := by
  have consistent := h.consistent.apply now event
  have options := (fixed_apply b now event).2.trans h.options
  have measured := fun unfailed => h.measured (h.unfailed now event unfailed)
  have move := contentMove_apply h.consistent now event
  generalize (b.apply now event).1 = c at consistent options measured move
  have unfailed := failure_of_reading consistent
  cases move with
  | keeps untaken content failure stage =>
      refine ⟨options, consistent, ?_, ?_⟩ <;> rw [content]
      · exact measured
      · exact fun reading => h.reserved (stage reading)
  | reserves untaken content failure =>
      refine ⟨options, consistent, ?_, ?_⟩ <;> rw [content, h.options]
      · exact fun unfailed => (measured unfailed).reserve allocates
      · exact fun reading => Content.reserved_reserve slow (measured (unfailed reading)) allocates
  | publishes bytes takes visible write marks content failure =>
      have committed := fun unfailed =>
        (measured unfailed).commit b.transform takes.fits_capacity
      refine ⟨options, consistent, ?_, ?_⟩ <;> rw [content, h.options]
      · exact fun unfailed => (committed unfailed).reserve allocates
      · exact fun reading => Content.reserved_reserve slow (committed (unfailed reading)) allocates
  | breaksOff bytes takes unmarked content failure phase gone =>
      refine ⟨options, consistent, ?_, fun reading => by simp [gone] at reading⟩
      rw [content]
      exact fun unfailed => (measured unfailed).commit b.transform takes.fits_capacity
  | fails untaken cause failing reading content failure gone =>
      exact ⟨options, consistent, fun unfailed => by simp [failure] at unfailed,
        fun reading => by simp [gone] at reading⟩

/-- In every run the capacity is one that growth after growth leads to. -/
theorem of_run (name : String) (slow : 0 < o.slowGrowth)
    (allocates : o.initialCapacity ≤ maxCapacity) (transform : Option Transform)
    (events : List (Nat × Event)) :
    Regular o (Machine.final Buffer.apply (Buffer.create name o transform) events) :=
  Machine.final_induction Buffer.apply (Regular o) (.create name o transform)
    (fun _ now event regular _ => regular.apply slow allocates now event)
    (Machine.allows_true Buffer.apply _ events)

/-- The storage of a stream that does not fail grows when it is full, and not otherwise. -/
theorem growsWhenFull (h : Regular o b) (allocates : o.initialCapacity ≤ maxCapacity)
    {now : Nat} {event : Event} (unfailed : (b.apply now event).1.failure = none) :
    Content.GrowsWhenFull o b.content (b.apply now event).1.content := by
  have measured := h.measured (h.unfailed now event unfailed)
  have move := contentMove_apply h.consistent now event
  generalize (b.apply now event).1 = c at unfailed move
  have committed : ∀ bytes, b.Takes event bytes →
      (b.content.commit b.transform bytes).1.stored.length ≤ b.content.capacity :=
    fun bytes takes =>
      Nat.le_trans (b.content.length_commit_le b.transform bytes) takes.fits_capacity
  cases move with
  | keeps untaken content =>
      rw [content]
      exact measured.keeps allocates measured.fits rfl
  | reserves untaken content =>
      rw [content, h.options]
      exact measured.grows allocates measured.fits rfl
  | publishes bytes takes visible write marks content =>
      rw [content, h.options]
      exact measured.grows allocates (committed bytes takes) (by simp)
  | breaksOff bytes takes unmarked content =>
      rw [content]
      exact measured.keeps allocates (committed bytes takes) (by simp)
  | fails untaken cause failing reading content failure =>
      rw [failure] at unfailed
      cases unfailed

end Regular

/-- What a run without a failed read does to the storage. -/
structure GrowsInStep (o : BufferOptions) (h : History) (b : Buffer) : Prop where
  /-- The capacity is one that growth leads to, and holds what is stored. -/
  measured : b.failure = none → b.content.Measured o
  /-- Only a full storage grows, and it is asked for no less than it has. -/
  grows : ∀ t ∈ h, t.after.failure = none → t.before.content.GrowsWhenFull o t.after.content
  /-- Before a read there was room made, and what is stored of the read fits that. -/
  fits : ∀ t ∈ h, ∀ bytes, t.before.Takes t.event bytes → t.before.content.Reserved o ∧
    t.before.content.stored.length + bytes.length ≤ t.before.content.capacity

/-- Capacities rise to the top, three times as large below the threshold and by the threshold from
there on; and the storage of a buffer keeps to them, in every run. -/
theorem capacity_grows_in_step {o : BufferOptions} (slow : 1 ≤ o.slowGrowth)
    (small : o.slowGrowth ≤ maxCapacity) (allocates : o.initialCapacity ≤ maxCapacity) :
    (∀ start ≤ maxCapacity,
      o.RisesToTop start ∧ o.TriplesToThreshold start ∧ o.AddsThreshold start) ∧
    ∀ (name : String) (transform : Option Transform) (events : List (Nat × Event)),
      GrowsInStep o (Machine.history apply (create name o transform) events)
        (Machine.final apply (create name o transform) events) := by
  refine ⟨fun start le => ⟨BufferOptions.risesToTop slow allocates le,
    BufferOptions.triplesToThreshold slow small allocates le,
    BufferOptions.addsThreshold slow small le⟩, fun name transform events => ?_⟩
  have regular := Regular.of_run name slow allocates transform
  refine ⟨(regular events).measured, fun t member unfailed => ?_, fun t member bytes takes => ?_⟩
  · obtain ⟨earlier, now, event, later, -, rfl⟩ := Machine.exists_of_mem_history apply member
    exact (regular earlier).growsWhenFull allocates unfailed
  · obtain ⟨earlier, now, event, later, -, rfl⟩ := Machine.exists_of_mem_history apply member
    exact ⟨(regular earlier).reserved (stage?_of_isReading takes.reading), takes.fits_capacity⟩

/-- Capacities 1, 3, 9 and 13; of the four bytes that come through the first three one is taken out
again, and the storage of three bytes takes in one more before it grows. -/
theorem capacity_grows_in_step_of_four_bytes :
    let o : BufferOptions := { initialCapacity := 1, slowGrowth := 4 }
    let events : List (Nat × Event) :=
      [(0, .join 0), (0, .pump .started), (1, .pump .opened), (2, .pump (.received [104])),
        (3, .pump (.received [13, 105])), (4, .pump (.received [106]))]
    let b := Machine.final apply (create "four" o (some .stripReturns)) events
    (1 ≤ o.slowGrowth ∧ o.slowGrowth ≤ maxCapacity ∧ o.initialCapacity ≤ maxCapacity) ∧
      (b.snapshot = [104, 105, 106] ∧ b.content.capacity = 9 ∧
        o.growthSteps 3 1 = [3, 9, 13]) ∧
      (o.RisesToTop 1 ∧ o.TriplesToThreshold 1 ∧ o.AddsThreshold 9) ∧
      GrowsInStep o (Machine.history apply (create "four" o (some .stripReturns)) events) b := by
  intro o events b
  have slow : 1 ≤ o.slowGrowth := by decide
  have small : o.slowGrowth ≤ maxCapacity := by decide
  have allocates : o.initialCapacity ≤ maxCapacity := by decide
  obtain ⟨grows, steps⟩ := capacity_grows_in_step slow small allocates
  have low := grows 1 (by decide)
  exact ⟨⟨slow, small, allocates⟩, by decide,
    ⟨low.1, low.2.1, (grows 9 (by decide)).2.2⟩, steps "four" (some .stripReturns) events⟩

end Buffer

end CachedStreams
