import FixedFunction.Error

/-!
# Vertex formats

A vertex format says of each attribute slot how it is present in a stream and how its value is
stored.

**Results.**
* `AttributeFormat.components`: the number of components of a value, or the refusal of a count
  that means nothing for the attribute.
* `PerAttribute.get_set_self`, `PerAttribute.get_set_of_ne`: a table keeps what was stored.
-/

namespace FixedFunction

/-- How the value of an attribute is stored. -/
structure AttributeFormat where
  component : ComponentType := .f32
  /-- The count field, whose meaning depends on the attribute. -/
  count : UInt8 := 0
  /-- Fractional bits of fixed point components.  Decoding does not use them. -/
  shift : UInt8 := 0
deriving DecidableEq

instance : Inhabited AttributeFormat := ⟨{}⟩

namespace AttributeFormat

/-- Number of components of a value: the count field chooses between two sizes, and the combined
normal has nine components for every count but two. -/
def components (f : AttributeFormat) (a : Attribute) : Except Error Nat :=
  match a, f.count with
  | .pos, 0 => .ok 2
  | .pos, 1 => .ok 3
  | .nrm, 0 => .ok 3
  | .nrm, 1 => .ok 9
  | .nbt, 2 => .error (.unsupportedCount a f.count)
  | .nbt, _ => .ok 9
  | .clr0, 0 | .clr1, 0 => .ok 3
  | .clr0, 1 | .clr1, 1 => .ok 4
  | .pos, _ | .nrm, _ | .clr0, _ | .clr1, _ => .error (.unsupportedCount a f.count)
  | a, n =>
    if a.isMatrixIndex then .ok 1
    else if n = 0 then .ok 1
    else if n = 1 then .ok 2
    else .error (.unsupportedCount a n)

/-- The type that is in fact stored: a matrix number is always one unsigned byte. -/
def storedType (f : AttributeFormat) (a : Attribute) : ComponentType :=
  if a.isMatrixIndex then .u8 else f.component

/-- Bytes of one value. -/
def byteSize (f : AttributeFormat) (a : Attribute) : Except Error Nat :=
  return (f.storedType a).size * (← f.components a)

end AttributeFormat

/-- Bytes that an attribute takes in the stream of one vertex, given the size of its value. -/
def Presence.streamSize (p : Presence) (size : Nat) : Nat :=
  match p with
  | .absent => 0
  | .direct => size
  | .index8 => 1
  | .index16 => 2

/-- One entry for each attribute slot, in stream order. -/
structure PerAttribute (α : Type) where
  entries : Vector α Attribute.count
deriving DecidableEq

namespace PerAttribute

variable {α : Type}

/-- The same entry for every slot. -/
def replicate (x : α) : PerAttribute α :=
  ⟨.replicate _ x⟩

/-- The entry of a slot. -/
def get (t : PerAttribute α) (a : Attribute) : α :=
  t.entries[a.streamIndex]

/-- Replaces the entry of a slot. -/
def set (t : PerAttribute α) (a : Attribute) (x : α) : PerAttribute α :=
  ⟨t.entries.set a.streamIndex x⟩

/-- Entries are the same for all slots to begin with. -/
@[simp]
theorem get_replicate (x : α) (a : Attribute) : (replicate x).get a = x := by
  simp [get, replicate]

/-- Two slots in the same place are the same slot. -/
theorem streamIndex_inj {a b : Attribute} (h : a.streamIndex = b.streamIndex) : a = b := by
  have := a.getElem_streamIndex
  rw [h, b.getElem_streamIndex] at this
  exact (Option.some.inj this).symm

/-- A stored entry is read back. -/
@[simp]
theorem get_set_self (t : PerAttribute α) (a : Attribute) (x : α) : (t.set a x).get a = x := by
  simp [get, set]

/-- The entries of other slots stay. -/
theorem get_set_of_ne (t : PerAttribute α) {a b : Attribute} (x : α) (h : a ≠ b) :
    (t.set a x).get b = t.get b := by
  have hne : (a.streamIndex : Nat) ≠ b.streamIndex := fun he => h (streamIndex_inj (Fin.ext he))
  simp [get, set, hne]

end PerAttribute

/-- One line of a format description: a slot, its presence and its storage. -/
structure FormatEntry where
  attr : Attribute
  /-- How it is present. -/
  presence : Presence
  /-- How its value is stored. -/
  format : AttributeFormat

/-- The format of a vertex stream: what a loader is compiled from. -/
structure VertexFormat where
  /-- How values are stored. -/
  formats : PerAttribute AttributeFormat := .replicate default
  /-- How attributes are present. -/
  presences : PerAttribute Presence := .replicate default
deriving DecidableEq

instance : Inhabited VertexFormat := ⟨{}⟩

namespace VertexFormat

/-- Stores one line. -/
def store (f : VertexFormat) (e : FormatEntry) : VertexFormat where
  formats := f.formats.set e.attr e.format
  presences := f.presences.set e.attr e.presence

/-- The format with the given lines.  Of two lines for one slot the later counts, and a slot
without a line is absent. -/
def ofEntries (entries : List FormatEntry) : VertexFormat :=
  entries.foldl store default

end VertexFormat
end FixedFunction
