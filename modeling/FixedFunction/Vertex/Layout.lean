import FixedFunction.Vertex.Format
import FixedFunction.Vertex.Mask

/-!
# Packed vertex layouts

**Input.**  A vertex format.

**Algorithm.**  The present attributes are placed one after the other in stream order, each at the
next multiple of its component size.

**Results.**
* `dvd_alignUp`, `le_alignUp`, `alignUp_le`: aligning to a power of two gives the least multiple
  that is not below.
* `Layout.ofFormat`: the slots, the bytes of a packed vertex and the bytes of a vertex in the
  stream.
-/

namespace FixedFunction

/-- The place of one present attribute in the stream and in a packed vertex. -/
structure Slot where
  attr : Attribute
  /-- How it is present in the stream; never `absent` in a layout. -/
  presence : Presence
  /-- Component type, in arrays and in packed vertices alike. -/
  component : ComponentType
  components : Nat
  /-- Fractional bits of fixed point components. -/
  shift : UInt8
  /-- Bytes of one value, in arrays and in packed vertices alike. -/
  size : Nat
  /-- Offset of the value in a packed vertex. -/
  offset : Nat
deriving DecidableEq

namespace Slot

/-- Bytes of the slot in the stream of one vertex. -/
def streamSize (s : Slot) : Nat :=
  s.presence.streamSize s.size

/-- The end of the value in a packed vertex. -/
def stop (s : Slot) : Nat :=
  s.offset + s.size

end Slot

/-- The least multiple of `alignment`, a power of two, that is not below `n`: in a number that is
large enough the bits below the alignment are cleared. -/
def alignUp (n alignment : Nat) : Nat :=
  (n + alignment - 1) - ((n + alignment - 1) &&& (alignment - 1))

/-- Clearing the low bits of a number takes its remainder away. -/
theorem alignUp_shift (n k : Nat) :
    alignUp n (1 <<< k) = (n + 1 <<< k - 1) / 1 <<< k * 1 <<< k := by
  have := Nat.div_add_mod (n + 2 ^ k - 1) (2 ^ k)
  rw [alignUp, Nat.one_shiftLeft, Nat.and_two_pow_sub_one_eq_mod, Nat.mul_comm]
  omega

/-- An aligned number is a multiple of the alignment. -/
theorem dvd_alignUp (n k : Nat) : 1 <<< k ∣ alignUp n (1 <<< k) := by
  rw [alignUp_shift]
  exact Nat.dvd_mul_left ..

/-- Aligning does not make a number smaller. -/
theorem le_alignUp (n k : Nat) : n ≤ alignUp n (1 <<< k) := by
  have hpos : 0 < 1 <<< k := by
    rw [Nat.one_shiftLeft]
    exact Nat.two_pow_pos k
  have := Nat.div_add_mod (n + 1 <<< k - 1) (1 <<< k)
  have := Nat.mod_lt (n + 1 <<< k - 1) hpos
  rw [alignUp_shift, Nat.mul_comm]
  omega

/-- An aligned number is the least multiple that is not below. -/
theorem alignUp_le {n m k : Nat} (h : n ≤ m) (hm : 1 <<< k ∣ m) : alignUp n (1 <<< k) ≤ m := by
  obtain ⟨c, rfl⟩ := hm
  have hpos : 0 < 1 <<< k := by
    rw [Nat.one_shiftLeft]
    exact Nat.two_pow_pos k
  rw [alignUp_shift, Nat.mul_comm]
  refine Nat.mul_le_mul_left _ ?_
  have : (n + 1 <<< k - 1) / 1 <<< k < c + 1 := by
    rw [Nat.div_lt_iff_lt_mul hpos, Nat.add_mul, Nat.mul_comm c]
    omega
  omega

/-- The layout of a vertex. -/
structure Layout where
  /-- The present attributes in stream order. -/
  slots : List Slot
  /-- The present attributes as a set. -/
  attributes : AttributeMask
  /-- Bytes of a packed vertex. -/
  stride : Nat
  /-- Bytes of a vertex in the stream. -/
  sourceStride : Nat
deriving DecidableEq

namespace Layout

/-- The slot of an attribute whose value may start at `start`. -/
def place (f : VertexFormat) (start : Nat) (a : Attribute) : Except Error Slot := do
  let format := f.formats.get a
  let component := format.storedType a
  let components ← format.components a
  return {
    attr := a
    presence := f.presences.get a
    component, components
    shift := format.shift
    size := component.size * components
    offset := alignUp start component.size }

/-- What has been laid out of a vertex. -/
structure Draft where
  /-- The slots so far, in stream order. -/
  slots : List Slot := []
  /-- Their attributes as a set. -/
  attributes : AttributeMask := .empty
  /-- The end of the last value in the packed vertex. -/
  stop : Nat := 0
  /-- Bytes of the slots in the stream. -/
  sourceStride : Nat := 0

namespace Draft

/-- The draft with one more slot. -/
def push (d : Draft) (s : Slot) : Draft where
  slots := d.slots ++ [s]
  attributes := d.attributes.union (.of s.attr)
  stop := s.stop
  sourceStride := d.sourceStride + s.streamSize

/-- Places an attribute behind the slots so far, if it is present. -/
def add (f : VertexFormat) (d : Draft) (a : Attribute) : Except Error Draft :=
  if f.presences.get a = .absent then .ok d else (place f d.stop a).map d.push

/-- The layout with the slots of the draft. -/
def layout (d : Draft) : Layout where
  slots := d.slots
  attributes := d.attributes
  stride := alignUp d.stop 4
  sourceStride := d.sourceStride

end Draft

/-- The layout of a vertex format, or the refusal of the first present attribute in stream order
whose count means nothing. -/
def ofFormat (f : VertexFormat) : Except Error Layout :=
  (Attribute.streamOrder.foldlM (Draft.add f) {}).map Draft.layout

/-- The slot of an attribute, if it is present. -/
def slot? (l : Layout) (a : Attribute) : Option Slot :=
  l.slots.find? fun s => s.attr = a

end Layout
end FixedFunction
