import FixedFunction.Mesh.Basic

/-!
# Joining meshes

**Input.**  A list of meshes.

**Algorithm.**  The meshes are appended one after the other.  The vertices of each are numbered on
from those before it.

**Results.**
* `Mesh.join`: the joined mesh, or the first cause for which it does not exist.
-/

namespace FixedFunction
namespace Mesh

/-- A draw call whose vertices are numbered on from `base`. -/
def rebase (base : Nat) (c : DrawCall) : Except Failure DrawCall :=
  return { c with first := ← checkWord 32 (c.first + base) }

/-- An index of a mesh with `count` vertices, numbered on from `base`. -/
def rebaseIndex (base count : Nat) (i : UInt16) : Except Failure UInt16 :=
  if count ≤ i.toNat then throw (.refused (.indexOutOfRange i count))
  else addIndex i base.toUInt16

/-- Appends one mesh.  Indices are checked against the vertex count of the mesh that they belong
to, so that they stay below the joined count, which is checked first. -/
def append (m n : Mesh) : Except Failure Mesh := do
  if n.stride ≠ m.stride then throw (.refused (.strideMismatch m.stride n.stride))
  let base := m.vertexCount
  let total ← checkWord 32 (base + n.vertexCount)
  if maxVertices < total then throw (.refused (.tooManyVertices total))
  let indices ← n.indices.foldlM (fun out i =>
    return out.push (← rebaseIndex base n.vertexCount i)) m.indices
  let calls ← n.calls.mapM (rebase base)
  let triangleCount ← checkWord 32 (m.triangleCount + n.triangleCount)
  return {
    indices
    data := m.data ++ n.data
    stride := m.stride
    vertexCount := total
    triangleCount
    calls := m.calls ++ calls }

/-- Joins meshes into one. -/
def join (meshes : List Mesh) : Except Failure Mesh :=
  meshes.foldlM append { stride := (meshes.head?.map stride).getD 0 }

end Mesh
end FixedFunction
