import FixedFunction.Error

/-!
# The compressed container

A compressed buffer has a header of eight bytes, the magic and the size of the output in three
bytes, and a body.  The body is a sequence of groups: a flag byte and up to eight steps, one for
each flag from the highest bit down.  A clear flag stands for a literal byte.  A set flag stands
for two bytes, most significant first, whose low twelve bits are a distance less one and whose
high four bits are a length less three.

**Algorithm.**  `decodeFrom` consumes the body from the front.  It carries the flags of the
current group that are still to be used and the output so far, and stops as soon as the output
has its declared size, also inside a group or a copy.

**Results.**
* `decompress`: the output, or the first cause for which the buffer is refused.
* `decompressIfCompressed`: the same for a buffer that may as well be plain.
-/

namespace FixedFunction
namespace Lz

/-- The first five bytes of a compressed buffer. -/
def magic : List UInt8 :=
  [0x4C, 0x5A, 0x37, 0x37, 0x10]

/-- Bytes before the body. -/
def headerSize : Nat := 8

/-- Whether a buffer starts with the magic. -/
def isCompressed (src : List UInt8) : Bool :=
  magic.isPrefixOf src

/-- The size that a header declares, least significant byte first. -/
def uncompressedSize (src : List UInt8) : Except Error Nat :=
  if isCompressed src then
    match src.drop magic.length with
    | a :: b :: c :: _ => .ok (a.toNat + 256 * b.toNat + 65536 * c.toNat)
    | _ => .error (.truncatedStream src.length)
  else .error .notCompressed

/-- The flags of a group, first to last. -/
def flags (f : UInt8) : List Bool :=
  [7, 6, 5, 4, 3, 2, 1, 0].map f.toNat.testBit

/-- Distance of a back reference. -/
def distance (hi lo : UInt8) : Nat :=
  (256 * hi.toNat + lo.toNat) % 4096 + 1

/-- A distance is between 1 and 4096. -/
theorem distance_bounds (hi lo : UInt8) : 1 ≤ distance hi lo ∧ distance hi lo ≤ 4096 := by
  simp only [distance]
  omega

/-- Length of a back reference. -/
def length (hi : UInt8) : Nat :=
  hi.toNat / 16 + 3

/-- A length is between 3 and 18. -/
theorem length_bounds (hi : UInt8) : 3 ≤ length hi ∧ length hi ≤ 18 := by
  have := hi.toNat_lt
  simp only [length]
  omega

/-- Appends `n` bytes, each a copy of the byte that lies `d` before the end at that moment.  A copy
that is longer than its distance therefore repeats bytes that it has itself appended. -/
def copyBack (d : Nat) : Nat → Array UInt8 → Array UInt8
  | 0, out => out
  | n + 1, out => copyBack d n (out.push (out.getD (out.size - d) 0))

@[simp]
theorem size_copyBack (d n : Nat) (out : Array UInt8) :
    (copyBack d n out).size = out.size + n := by
  induction n generalizing out with
  | zero => rfl
  | succ n ih => simp [copyBack, ih, Nat.add_assoc, Nat.add_comm 1]

/-- Decodes the rest of a body.  `total` is the length of the whole buffer, which is where a buffer
that ends too early is missing a byte. -/
def decodeFrom (total size : Nat) (pending : List Bool) (src : List UInt8) (out : Array UInt8) :
    Except Error (Array UInt8) :=
  if size ≤ out.size then .ok out
  else
    match pending, src with
    | [], f :: rest => decodeFrom total size (flags f) rest out
    | false :: pending, b :: rest => decodeFrom total size pending rest (out.push b)
    | true :: pending, hi :: lo :: rest =>
      if out.size < distance hi lo then
        .error (.badBackReference (distance hi lo) out.size)
      else
        decodeFrom total size pending rest
          (copyBack (distance hi lo) (min (length hi) (size - out.size)) out)
    | _, _ => .error (.truncatedStream total)
termination_by structural src

/-- The output of a compressed buffer. -/
def decompress (src : List UInt8) : Except Error (Array UInt8) := do
  let size ← uncompressedSize src
  decodeFrom src.length size [] (src.drop headerSize) #[]

/-- The output of a compressed buffer, or `none` for a buffer that is plain. -/
def decompressIfCompressed (src : List UInt8) : Except Error (Option (Array UInt8)) :=
  if isCompressed src then (decompress src).map some else .ok none

end Lz
end FixedFunction
