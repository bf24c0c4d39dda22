import FixedFunction.DisplayList.Triangle

/-!
# Meshes

A mesh is what a display list is decoded to: packed vertices, and triangles as triples of 16 bit
vertex numbers.

**Results.**
* `Mesh.vertex`: the bytes of one vertex.
* `Mesh.triangles`: the triples of indices.
* `Mesh.text`: the description of a mesh in logs, without its two buffers.
-/

namespace FixedFunction

/-- Packed vertices and triangles.  A mesh that was put together by hand may have counts that do
not agree with its buffers. -/
structure Mesh where
  /-- Vertex numbers, three for each triangle. -/
  indices : Array UInt16 := #[]
  /-- The packed vertices. -/
  data : Array UInt8 := #[]
  /-- Bytes of a packed vertex. -/
  stride : Nat := 0
  /-- Number of vertices. -/
  vertexCount : Nat := 0
  /-- Number of triangles. -/
  triangleCount : Nat := 0
  /-- The draw calls that the mesh was made from. -/
  calls : List DrawCall := []
deriving DecidableEq

namespace Mesh

/-- The most vertices that 16 bit indices can number. -/
def maxVertices : Nat := 65536

/-- The bytes of vertex `i`.  The machine stops where they lie outside the buffer. -/
def vertex (m : Mesh) (i : Nat) : Except Failure (List UInt8) := do
  let start ← checkWord 64 (i * m.stride)
  let stop ← checkWord 64 (start + m.stride)
  if stop ≤ m.data.size then return (m.data.extract start stop).toList
  else throw (.stopped .outOfRange)

/-- Splits a list into triples; one or two elements that remain are dropped. -/
def triples {α : Type} : List α → List (α × α × α)
  | a :: b :: c :: l => (a, b, c) :: triples l
  | _ => []

/-- The triangles as triples of indices. -/
def triangles (m : Mesh) : List (UInt16 × UInt16 × UInt16) :=
  triples m.indices.toList

/-- The index buffer as bytes, least significant byte first. -/
def indexData (m : Mesh) : Array UInt8 :=
  m.indices.foldl (fun out (i : UInt16) => (out.push i.toUInt8).push (i >>> 8).toUInt8) #[]

/-- A record in logs: its name and its fields. -/
def recordText (name : String) (fields : List (String × String)) : String :=
  name ++ " \x7b " ++ ", ".intercalate (fields.map fun f => f.1 ++ ": " ++ f.2) ++ " \x7d"

/-- A draw call in logs. -/
def callText (c : DrawCall) : String :=
  recordText "DrawCall" [("primitive", Coded.name c.primitive), ("src_offset", toString c.source),
    ("vertex_count", toString c.count), ("first_vertex", toString c.first)]

/-- A mesh in logs.  The two buffers are left out. -/
def text (m : Mesh) : String :=
  recordText "LoadedVertexData" [("packed_vertex_stride", toString m.stride),
    ("total_vertex_count", toString m.vertexCount),
    ("total_triangle_count", toString m.triangleCount),
    ("draw_calls", "[" ++ ", ".intercalate (m.calls.map callText) ++ "]")]

end Mesh
end FixedFunction
