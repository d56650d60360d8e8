import CachedStreams.Stream.Growth
import CachedStreams.Stream.Transform

/-!
# The content of a buffer

The bytes that have been stored, the room there is for them, and how many of them readers may see.
Bytes are appended where the stored ones end. A commit appends what was read, lets the transform
change the storage, and publishes the positions it names; positions that are out of order or
past the storage publish nothing, and then the appended bytes stay behind, invisible.
-/

set_option autoImplicit false

namespace CachedStreams

/-- Stored bytes, their capacity and the visible length. -/
structure Content where
  stored : List UInt8
  capacity : Nat
  size : Nat

namespace Content

/-- Nothing stored, with room for the first read. -/
def initial (o : BufferOptions) : Content := ⟨[], o.initialCapacity, 0⟩

/-- Grow a full storage. -/
def reserve (c : Content) (o : BufferOptions) : Content :=
  if c.stored.length < c.capacity then c
  else { c with capacity := o.grownCapacity c.capacity }

/-- How many bytes fit without growing. -/
def spare (c : Content) : Nat := c.capacity - c.stored.length

/-- How many bytes the next read is offered. -/
def room (c : Content) : Nat := min c.spare maxReadLength

/-- The storage after appending what was read and letting the transform change it. -/
def reshape (c : Content) (transform : Option Transform) (bytes : List UInt8) : Reshaped :=
  let stored := c.stored ++ bytes
  match transform with
  | some t => t.run stored c.stored.length
  | none => ⟨stored, some (stored.length, stored.length)⟩

/-- Append what was read and publish it, and say whether that succeeded. -/
def commit (c : Content) (transform : Option Transform) (bytes : List UInt8) : Content × Bool :=
  let reshaped := c.reshape transform bytes
  match reshaped.marks with
  | some (visible, write) =>
    if visible ≤ write ∧ write ≤ reshaped.stored.length then
      ({ c with stored := reshaped.stored.take write, size := visible }, true)
    else ({ c with stored := reshaped.stored }, false)
  | none => ({ c with stored := reshaped.stored }, false)

/-- Throw the stored bytes away; the published length stays. -/
def discard (c : Content) : Content := { c with stored := [], capacity := 0 }

/-- The bytes that readers see. -/
def visible (c : Content) : List UInt8 := c.stored.take c.size

/-- At most `length` visible bytes from `offset` on. -/
def read (c : Content) (length offset : Nat) : List UInt8 :=
  (c.visible.drop offset).take length

end Content

end CachedStreams
