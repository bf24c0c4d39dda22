import FixedFunction.Mesh.Basic

/-!
# Loaders

A loader decodes display lists of one vertex format.

**Input.**  The format, the arrays of the indexed attributes, and a display list.

**Algorithm.**  The display list is scanned for draw calls first.  Then the vertices of each call
are read transfer by transfer: a direct value stands in the stream itself, and an indexed value is
looked up in the array of its attribute.  All vertices share one buffer, which holds zeros to begin
with, and each value is written at its offset in its vertex.

**Results.**
* `Loader.compile`: the loader of a format.
* `Loader.run`: the mesh of a display list, or the first cause for which it does not exist.
-/

namespace FixedFunction

/-- The backing storage of an indexed attribute: the value with index `i` and size `s` starts at
`offset + s * i`. -/
structure VertexArray where
  /-- The bytes. -/
  data : Array UInt8
  /-- Where the value with index zero starts. -/
  offset : Nat

/-- The arrays of the attributes. -/
abbrev VertexArrays := PerAttribute (Option VertexArray)

/-- No arrays. -/
def VertexArrays.empty : VertexArrays :=
  .replicate none

/-- Where a value comes from. -/
inductive Source where
  /-- The stream. -/
  | direct
  /-- An array, by an index of one byte. -/
  | index8
  /-- An array, by an index of two bytes. -/
  | index16
deriving DecidableEq

/-- Where the values of an attribute come from that is present. -/
def Source.ofPresence? : Presence → Option Source
  | .absent => none
  | .direct => some .direct
  | .index8 => some .index8
  | .index16 => some .index16

/-- One value of a vertex on its way from the stream or from an array into the packed vertex. -/
structure Transfer where
  attr : Attribute
  /-- Where the value comes from. -/
  source : Source
  /-- Bytes of the value. -/
  size : Nat
  /-- Offset of the value in the packed vertex. -/
  offset : Nat
deriving DecidableEq

/-- The transfer into a slot. -/
def Slot.transfer (s : Slot) (source : Source) : Transfer where
  attr := s.attr
  source := source
  size := s.size
  offset := s.offset

/-- The transfer into a slot of a present attribute. -/
def Transfer.ofSlot? (s : Slot) : Option Transfer :=
  (Source.ofPresence? s.presence).map s.transfer

/-- A loader for one vertex format. -/
structure Loader where
  format : VertexFormat
  /-- The layout of the vertices. -/
  layout : Layout
  /-- The transfers of one vertex, in stream order. -/
  transfers : List Transfer
  /-- There is one transfer into each slot. -/
  transfers_eq : transfers = layout.slots.filterMap Transfer.ofSlot?
deriving DecidableEq

namespace Loader

/-- The loader for vertices of the given layout. -/
def ofLayout (f : VertexFormat) (layout : Layout) : Loader where
  format := f
  layout := layout
  transfers := layout.slots.filterMap Transfer.ofSlot?
  transfers_eq := rfl

/-- The loader of a format. -/
def compile (f : VertexFormat) : Except Error Loader :=
  (Layout.ofFormat f).map (ofLayout f)

/-- The draw calls of a display list with the bytes of their vertices. -/
def packets (l : Loader) (dl : List UInt8) : Except Failure (List DisplayList.Packet) :=
  DisplayList.scan l.layout.sourceStride dl

/-- The draw calls of a display list. -/
def drawCalls (l : Loader) (dl : List UInt8) : Except Failure (List DrawCall) :=
  (l.packets dl).map fun ps => ps.map DisplayList.Packet.call

/-- The value with the given index in the array of an attribute.  Addresses are words of 64 bits,
and the machine stops where one overflows. -/
def fetch (arrays : VertexArrays) (t : Transfer) (index : UInt16) : Except Failure (List UInt8) :=
  match arrays.get t.attr with
  | none => throw (.refused (.missingArray t.attr))
  | some array => do
    let start ← checkWord 64 (array.offset + t.size * index.toNat)
    let stop ← checkWord 64 (start + t.size)
    if stop ≤ array.data.size then return (array.data.extract start stop).toList
    else throw (.refused (.arrayOutOfBounds t.attr index))

/-- Reads one value, and gives it with the place behind it in the stream. -/
def readValue (arrays : VertexArrays) (t : Transfer) (cur : DisplayList.Cursor) :
    Except Failure (List UInt8 × DisplayList.Cursor) := do
  match t.source with
  | .direct => cur.bytes t.size
  | .index8 =>
    let (index, cur) ← cur.byte
    return (← fetch arrays t index.toUInt16, cur)
  | .index16 =>
    let (index, cur) ← cur.word
    return (← fetch arrays t index, cur)

/-- Replaces the bytes of a buffer from `start` on. -/
def overwrite (out : Array UInt8) (start : Nat) : List UInt8 → Array UInt8
  | [] => out
  | b :: value => overwrite (out.setIfInBounds start b) (start + 1) value

/-- Writes a value into the vertex that starts at `base`.  The machine stops where the value has
another size than expected, and where it leaves the vertex or the vertex leaves the buffer. -/
def writeValue (stride base : Nat) (t : Transfer) (value : List UInt8) (out : Array UInt8) :
    Except Failure (Array UInt8) :=
  if value.length = t.size ∧ t.offset + t.size ≤ stride ∧ base + stride ≤ out.size then
    .ok (overwrite out (base + t.offset) value)
  else .error (.stopped .outOfRange)

/-- Reads one vertex into the place that starts at `base`, and gives the place behind it in the
stream. -/
def readVertex (stride : Nat) (arrays : VertexArrays) (base : Nat) :
    List Transfer → DisplayList.Cursor → Array UInt8 →
      Except Failure (DisplayList.Cursor × Array UInt8)
  | [], cur, out => .ok (cur, out)
  | t :: transfers, cur, out => do
    let (value, cur) ← readValue arrays t cur
    let out ← writeValue stride base t value out
    readVertex stride arrays base transfers cur out

/-- Reads `n` vertices into the places from number `first` on, and gives the place behind them in
the stream. -/
def readVertices (l : Loader) (arrays : VertexArrays) :
    (n first : Nat) → DisplayList.Cursor → Array UInt8 →
      Except Failure (DisplayList.Cursor × Array UInt8)
  | 0, _, cur, out => .ok (cur, out)
  | n + 1, first, cur, out => do
    let (cur, out) ←
      readVertex l.layout.stride arrays (first * l.layout.stride) l.transfers cur out
    readVertices l arrays n (first + 1) cur out

/-- Appends the triangles of one draw call to the indices and reads its vertices. -/
def runPacket (l : Loader) (arrays : VertexArrays) (out : Array UInt16 × Array UInt8)
    (p : DisplayList.Packet) : Except Failure (Array UInt16 × Array UInt8) := do
  let indices ← p.call.appendIndices out.1
  let (_, data) ← l.readVertices arrays p.call.count p.call.first p.start out.2
  return (indices, data)

/-- The mesh of a display list. -/
def run (l : Loader) (arrays : VertexArrays) (dl : List UInt8) : Except Failure Mesh := do
  let packets ← l.packets dl
  let calls := packets.map DisplayList.Packet.call
  let vertexCount := DrawCall.vertexTotal calls
  if Mesh.maxVertices < vertexCount then throw (.refused (.tooManyVertices vertexCount))
  let (indices, data) ← packets.foldlM (l.runPacket arrays)
    (#[], Array.replicate (l.layout.stride * vertexCount) 0)
  return {
    indices
    data
    stride := l.layout.stride
    vertexCount
    triangleCount := DrawCall.triangleTotal calls
    calls }

end Loader
end FixedFunction
