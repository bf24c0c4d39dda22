import FixedFunction.DisplayList.Scan

/-!
# The triangles of a draw call

From its third vertex on, each vertex of a strip or fan closes one triangle with two earlier
vertices.

**Results.**
* `DrawCall.triangles`: the triangles of a call in the order in which they are closed, all with
  the same facing.
* `DrawCall.appendIndices`: the same triangles as an index buffer holds them, in words of 16 bits.
-/

namespace FixedFunction

/-- The corners of a triangle, as numbers of vertices. -/
abbrev Triangle := Nat × Nat × Nat

/-- The triangle that vertex `first + i` closes, for `2 ≤ i`.  A fan keeps its first vertex.  A
strip keeps the last two vertices, and swaps them for every other triangle, which would otherwise
face away. -/
def closedBy (p : Primitive) (first i : Nat) : Triangle :=
  let v := first + i
  match p with
  | .triangleStrip => if i % 2 = 1 then (v - 1, v - 2, v) else (v - 2, v - 1, v)
  | _ => (first, v - 1, v)

namespace DrawCall

/-- The triangles of a draw call. -/
def triangles (c : DrawCall) : List Triangle :=
  (List.range' 2 (c.count - 2)).map (closedBy c.primitive c.first)

/-- Two vertices close no triangle, and each vertex after them closes one. -/
@[simp]
theorem length_triangles (c : DrawCall) : c.triangles.length = c.count - 2 := by
  simp [triangles]

/-- Number of triangles of the given draw calls. -/
def triangleTotal (calls : List DrawCall) : Nat :=
  calls.foldr (fun c n => c.count - 2 + n) 0

end DrawCall

/-- The sum of two indices.  The machine stops where it does not fit. -/
def addIndex (i j : UInt16) : Except Failure UInt16 :=
  return (← checkWord 16 (i.toNat + j.toNat)).toUInt16

/-- The difference of two indices.  The machine stops where it is below zero. -/
def subIndex (i j : UInt16) : Except Failure UInt16 :=
  if j ≤ i then return i - j else throw (.stopped .overflow)

/-- The corners of the triangle that vertex `first + i` closes, as indices. -/
def closingIndices (p : Primitive) (first i : UInt16) : Except Failure (List UInt16) := do
  let v ← addIndex first i
  if i = 2 then return [first, ← addIndex first 1, ← addIndex first 2]
  match p with
  | .triangleStrip =>
    if i % 2 = 1 then return [← subIndex v 1, ← subIndex v 2, v]
    else return [← subIndex v 2, ← subIndex v 1, v]
  | _ => return [first, ← subIndex v 1, v]

/-- Appends the triangles of a draw call to an index buffer. -/
def DrawCall.appendIndices (c : DrawCall) (out : Array UInt16) : Except Failure (Array UInt16) :=
  (List.range' 2 (c.count.toUInt16.toNat - 2)).foldlM (fun out i =>
    return out ++ (← closingIndices c.primitive c.first.toUInt16 i.toUInt16)) out
end FixedFunction
