import FixedFunction.Field.Vertex
import FixedFunction.Field.Raster
import FixedFunction.Field.TexGen
import FixedFunction.Field.Indirect
import FixedFunction.Field.Combiner

/-!
# What can go wrong

An `Error` is an answer: the input or the configuration is refused, and the cause is named.  A
`Fault` is the machine stopping, because a sum left its word or an access left its buffer.  An
operation that can only refuse returns `Except Error`; one that can also stop returns
`Except Failure`.

**Results.**
* `Error.message`: the text of each cause.
* `Error.isConfiguration`: the causes that lie in the configuration and not in the data.
-/

namespace FixedFunction

/-- The causes for which an input or a configuration is refused. -/
inductive Error where
  /-- A register field holds a byte that names nothing. -/
  | invalidValue (field : String) (value : Nat)
  /-- A drawing command starts a primitive other than a strip or a fan. -/
  | unsupportedPrimitive (primitive : Primitive)
  /-- The component count of a format means nothing for its attribute. -/
  | unsupportedCount (slot : Attribute) (count : UInt8)
  /-- An indexed attribute has no array. -/
  | missingArray (slot : Attribute)
  /-- A texture coordinate generator has a kind that is not compiled. -/
  | unsupportedTexGen (kind : TexGenKind)
  /-- A combiner half has an operation that is not compiled. -/
  | unsupportedCombine (op : CombineOp)
  /-- A combiner stage reads a rasterized color that is not compiled. -/
  | unsupportedRaster (channel : RasterChannel)
  /-- An indirect stage uses only some bits of its sample. -/
  | unsupportedIndirectFormat (format : IndirectFormat)
  /-- An indirect stage uses a matrix that is made from the coordinate. -/
  | unsupportedIndirectMatrix (matrix : IndirectMatrix)
  /-- Blending is a bitwise operation. -/
  | unsupportedBlend (mode : BlendMode)
  /-- A combiner stage names an indirect stage that is not there. -/
  | missingIndirectStage (stage : Nat) (indirect : UInt8)
  /-- A constant that has to be written down is infinite or not a number. -/
  | nonFinite (field : String)
  /-- A display list ends inside a command. -/
  | truncatedList (offset needed : Nat)
  /-- An index points outside an array. -/
  | arrayOutOfBounds (slot : Attribute) (index : UInt16)
  /-- There are more vertices than 16 bit indices. -/
  | tooManyVertices (count : Nat)
  /-- A mesh has an index that is not below its vertex count. -/
  | indexOutOfRange (index : UInt16) (count : Nat)
  /-- Meshes with different strides are joined. -/
  | strideMismatch (expected actual : Nat)
  /-- A buffer does not start like a compressed one. -/
  | notCompressed
  /-- A compressed buffer ends too early. -/
  | truncatedStream (offset : Nat)
  /-- A back reference reaches before the start of the output. -/
  | badBackReference (distance position : Nat)
  /-- A text could not be written. -/
  | unwritable
deriving DecidableEq

namespace Error

/-- A number in hexadecimal, with capitals. -/
def hexText (n : Nat) : String :=
  "0x" ++ String.ofList ((Nat.toDigits 16 n).map Char.toUpper)

/-- The text of an error. -/
def message : Error → String
  | invalidValue field value => s!"invalid value for {field}: {hexText value}"
  | unsupportedPrimitive p => s!"unsupported primitive type: {Coded.name p}"
  | unsupportedCount a n => s!"unsupported component count for {Coded.name a}: {n}"
  | missingArray a => s!"indexed attribute {Coded.name a} has no vertex array"
  | unsupportedTexGen k => s!"unsupported texgen type: {Coded.name k}"
  | unsupportedCombine op => s!"unsupported tev op: {Coded.name op}"
  | unsupportedRaster c => s!"unsupported rasterized color channel: {Coded.name c}"
  | unsupportedIndirectFormat f => s!"unsupported indirect texture format: {Coded.name f}"
  | unsupportedIndirectMatrix m => s!"unsupported indirect texture matrix: {Coded.name m}"
  | unsupportedBlend m => s!"unsupported blend mode: {Coded.name m}"
  | missingIndirectStage k i => s!"tev stage {k} references missing indirect stage {i}"
  | nonFinite field => s!"non-finite constant in {field}"
  | truncatedList offset needed =>
    s!"display list truncated: needed {needed} bytes at offset {hexText offset}"
  | arrayOutOfBounds a i => s!"index {i} out of bounds for {Coded.name a} vertex array"
  | tooManyVertices n => s!"too many vertices for 16 bit indices: {n}"
  | indexOutOfRange i n => s!"index {i} out of range for {n} vertices"
  | strideMismatch expected actual =>
    s!"cannot coalesce vertex data with stride {actual} into stride {expected}"
  | notCompressed => "missing LZ77 header"
  | truncatedStream offset => s!"LZ77 stream truncated at offset {hexText offset}"
  | badBackReference distance position =>
    s!"LZ77 back reference of distance {distance} at output position {position}"
  | unwritable => "an error occurred when formatting an argument"

/-- Whether the cause is an unsupported or inconsistent configuration.  The other causes are
malformed data, or a text that could not be written. -/
def isConfiguration : Error → Bool
  | truncatedList .. | arrayOutOfBounds .. | tooManyVertices _ | indexOutOfRange ..
  | strideMismatch .. | notCompressed | truncatedStream _ | badBackReference ..
  | unwritable => false
  | _ => true

end Error

/-- The causes for which the machine stops. -/
inductive Fault where
  /-- A sum or product does not fit its word. -/
  | overflow
  /-- An access lies outside its buffer. -/
  | outOfRange
deriving DecidableEq

/-- Why an operation gives no value. -/
inductive Failure where
  /-- The input is refused. -/
  | refused (e : Error)
  /-- The machine stops. -/
  | stopped (f : Fault)
deriving DecidableEq

/-- A refusal is a failure. -/
instance : MonadLift (Except Error) (Except Failure) where
  monadLift
    | .ok a => .ok a
    | .error e => .error (.refused e)

/-- `n` if it fits a word of the given width; otherwise the machine stops. -/
def checkWord (width n : Nat) : Except Failure Nat :=
  if n < 1 <<< width then .ok n else .error (.stopped .overflow)

/-- The value of a field's byte, or the refusal that names the field. -/
def Coded.decode {α : Type} [DecidableEq α] [Coded α] (field : String) (r : UInt8) :
    Except Error α :=
  match Coded.ofRaw? r with
  | some a => .ok a
  | none => .error (.invalidValue field r.toNat)

/-- A texture or coordinate slot: 255 stands for none, and the eight slots for themselves. -/
def decodeSlot (field : String) (r : UInt8) : Except Error (Option UInt8) :=
  if r = 255 then .ok none
  else if r < 8 then .ok (some r)
  else .error (.invalidValue field r.toNat)

namespace PostMatrix

/-- The row of post matrix `n`.  Rows are bytes, so the machine stops where `n` is too large. -/
def ofIndex (n : UInt8) : Except Failure PostMatrix := do
  let offset ← checkWord 8 (n.toNat * 3)
  let row ← checkWord 8 (firstRow.toNat + offset)
  return ⟨row.toUInt8⟩

/-- The number of a post matrix, or `none` for the identity. -/
def index? (m : PostMatrix) : Except Error (Option UInt8) :=
  if m = identity then .ok none
  else if m.row < firstRow ∨ (m.row - firstRow) % 3 ≠ 0 ∨ count ≤ (m.row - firstRow) / 3 then
    .error (.invalidValue "post_matrix" m.row.toNat)
  else .ok (some ((m.row - firstRow) / 3))

end PostMatrix
end FixedFunction
