/-!
# Transforms of buffered bytes

A transform is applied to the storage of a buffer after every read. It may change the bytes in
place, and it names two positions: how many bytes readers may see, and where the next read is to
append. It cannot change the length of the storage, which is part of its type. A transform that
breaks off names no positions, and what it has changed by then stays changed.

What a transform does depends on the storage and on the position of the fresh bytes alone. One that
carries a state of its own from read to read, such as a counter behind a lock, is not covered.
-/

set_option autoImplicit false

namespace CachedStreams

/-- What a transform made of the storage. -/
structure Reshaped where
  stored : List UInt8
  /-- The visible length and the position where the next read appends, unless the transform broke
  off. -/
  marks : Option (Nat × Nat)

/-- A change of the storage, given the position where the bytes of the latest read begin. The same
storage and position are always changed in the same way. -/
structure Transform where
  run : List UInt8 → Nat → Reshaped
  /-- The storage keeps its length. -/
  length_run : ∀ stored fresh, (run stored fresh).stored.length = stored.length

namespace Transform

/-- Change nothing and name positions that are computed from the length and the fresh position. -/
def marking (marks : List UInt8 → Nat → Nat × Nat) : Transform where
  run stored fresh := ⟨stored, some (marks stored fresh)⟩
  length_run _ _ := rfl

/-- Change every fresh byte and show everything. -/
def mappingFresh (f : UInt8 → UInt8) : Transform where
  run stored fresh :=
    ⟨stored.take fresh ++ (stored.drop fresh).map f, some (stored.length, stored.length)⟩
  length_run stored fresh := by
    simp only [List.length_append, List.length_take, List.length_map, List.length_drop]
    omega

/-- Show everything as it is. -/
def identity : Transform := marking fun stored _ => (stored.length, stored.length)

/-- The position after the last line feed, or the start. -/
def lineEnd (stored : List UInt8) : Nat :=
  (stored.reverse.dropWhile (· != 10)).length

/-- Show complete lines only. -/
def lines : Transform := marking fun stored _ => (lineEnd stored, stored.length)

/-- Keep the fresh bytes that pass a test, moved together; what they leave behind stays at the
end, past the marks. -/
def keepingFresh (keep : UInt8 → Bool) : Transform where
  run stored fresh :=
    let kept := (stored.drop fresh).filter keep
    let end_ := min fresh stored.length + kept.length
    ⟨stored.take fresh ++ kept ++ stored.drop end_, some (end_, end_)⟩
  length_run stored fresh := by
    have h := List.length_filter_le keep (stored.drop fresh)
    simp only [List.length_append, List.length_take, List.length_drop] at h ⊢
    omega

/-- Drop fresh carriage returns. -/
def stripReturns : Transform := keepingFresh (· != 13)

/-- An ASCII letter in upper case, any other byte as it is. -/
def upperByte (b : UInt8) : UInt8 := if 97 ≤ b ∧ b ≤ 122 then b - 32 else b

/-- Put fresh ASCII letters into upper case. -/
def upperFresh : Transform := mappingFresh upperByte

/-- Reverse the whole storage. -/
def reverseAll : Transform where
  run stored _ := ⟨stored.reverse, some (stored.length, stored.length)⟩
  length_run stored _ := by simp

/-- Flip the case bit of every byte of the storage. -/
def flipAll : Transform where
  run stored _ := ⟨stored.map (· ^^^ 32), some (stored.length, stored.length)⟩
  length_run stored _ := by simp

/-- Show nothing and keep everything. -/
def hideAll : Transform := marking fun stored _ => (0, stored.length)

/-- Throw everything away. -/
def discardAll : Transform := marking fun _ _ => (0, 0)

/-- Throw the fresh bytes away. -/
def discardFresh : Transform := marking fun _ fresh => (fresh, fresh)

/-- Show all but the last `n` bytes. -/
def lag (n : Nat) : Transform := marking fun stored _ => (stored.length - n, stored.length)

/-- Throw the last `n` bytes away. -/
def trim (n : Nat) : Transform := marking fun stored _ => (stored.length - n, stored.length - n)

/-- Name the same positions every time. -/
def constant (n m : Nat) : Transform := marking fun _ _ => (n, m)

/-- Break off at once. -/
def breakOff : Transform where
  run stored _ := ⟨stored, none⟩
  length_run _ _ := rfl

/-- The transform of a given name; `n` and `m` are its arguments. A name that none has means
`identity`. -/
def ofName (name : String) (n m : Nat) : Transform :=
  match name with
  | "lines" => lines
  | "strip_cr" => stripReturns
  | "upper_fresh" => upperFresh
  | "reverse_all" => reverseAll
  | "flip_all" => flipAll
  | "hide_all" => hideAll
  | "discard_all" => discardAll
  | "discard_fresh" => discardFresh
  | "lag" => lag n
  | "trim" => trim n
  | "const" => constant n m
  | "panic" => breakOff
  | _ => identity

end Transform

end CachedStreams
