import FixedFunction.Coded

/-!
# Fields of the vertex front end

The attribute slots of a vertex, how each is present in a stream, how its components are stored,
and the primitive that a drawing command starts.
-/

namespace FixedFunction

/-- A vertex attribute slot.  Its byte is its number in the vertex descriptor registers. -/
inductive Attribute where
  | pnMtxIdx | tex0MtxIdx | tex1MtxIdx | tex2MtxIdx | tex3MtxIdx | tex4MtxIdx | tex5MtxIdx
  | tex6MtxIdx | tex7MtxIdx | pos | nrm | clr0 | clr1 | tex0 | tex1 | tex2 | tex3 | tex4 | tex5
  | tex6 | tex7 | nbt
deriving DecidableEq

instance : Coded Attribute where
  codes :=
    [⟨.pnMtxIdx, "PnMtxIdx", 0⟩, ⟨.tex0MtxIdx, "Tex0MtxIdx", 1⟩, ⟨.tex1MtxIdx, "Tex1MtxIdx", 2⟩,
      ⟨.tex2MtxIdx, "Tex2MtxIdx", 3⟩, ⟨.tex3MtxIdx, "Tex3MtxIdx", 4⟩,
      ⟨.tex4MtxIdx, "Tex4MtxIdx", 5⟩, ⟨.tex5MtxIdx, "Tex5MtxIdx", 6⟩,
      ⟨.tex6MtxIdx, "Tex6MtxIdx", 7⟩, ⟨.tex7MtxIdx, "Tex7MtxIdx", 8⟩, ⟨.pos, "Pos", 9⟩,
      ⟨.nrm, "Nrm", 10⟩, ⟨.clr0, "Clr0", 11⟩, ⟨.clr1, "Clr1", 12⟩, ⟨.tex0, "Tex0", 13⟩,
      ⟨.tex1, "Tex1", 14⟩, ⟨.tex2, "Tex2", 15⟩, ⟨.tex3, "Tex3", 16⟩, ⟨.tex4, "Tex4", 17⟩,
      ⟨.tex5, "Tex5", 18⟩, ⟨.tex6, "Tex6", 19⟩, ⟨.tex7, "Tex7", 20⟩, ⟨.nbt, "Nbt", 25⟩]
  complete a := by cases a <;> decide
  values_nodup := by decide
  names_nodup := by decide
  raws_nodup := by decide

/-- How an attribute is present in a vertex stream. -/
inductive Presence where
  | absent | direct | index8 | index16
deriving DecidableEq

instance : Coded Presence where
  codes :=
    [⟨.absent, "None", 0⟩, ⟨.direct, "Direct", 1⟩, ⟨.index8, "Index8", 2⟩,
      ⟨.index16, "Index16", 3⟩]
  complete a := by cases a <;> decide
  values_nodup := by decide
  names_nodup := by decide
  raws_nodup := by decide

instance : Inhabited Presence := ⟨.absent⟩

/-- How one component of an attribute is stored. -/
inductive ComponentType where
  | u8 | s8 | u16 | s16 | f32 | rgba8
deriving DecidableEq

instance : Coded ComponentType where
  codes :=
    [⟨.u8, "U8", 0⟩, ⟨.s8, "S8", 1⟩, ⟨.u16, "U16", 2⟩, ⟨.s16, "S16", 3⟩, ⟨.f32, "F32", 4⟩,
      ⟨.rgba8, "Rgba8", 5⟩]
  complete a := by cases a <;> decide
  values_nodup := by decide
  names_nodup := by decide
  raws_nodup := by decide

instance : Inhabited ComponentType := ⟨.f32⟩

/-- Bytes of one component, which is also its alignment. -/
def ComponentType.size : ComponentType → Nat
  | .u8 | .s8 | .rgba8 => 1
  | .u16 | .s16 => 2
  | .f32 => 4

/-- The primitive named by the high five bits of a drawing command. -/
inductive Primitive where
  | quads | triangles | triangleStrip | triangleFan | lines | lineStrip | points
deriving DecidableEq

instance : Coded Primitive where
  codes :=
    [⟨.quads, "Quads", 128⟩, ⟨.triangles, "Triangles", 144⟩,
      ⟨.triangleStrip, "TriangleStrip", 152⟩, ⟨.triangleFan, "TriangleFan", 160⟩,
      ⟨.lines, "Lines", 168⟩, ⟨.lineStrip, "LineStrip", 176⟩, ⟨.points, "Points", 184⟩]
  complete a := by cases a <;> decide
  values_nodup := by decide
  names_nodup := by decide
  raws_nodup := by decide

namespace Attribute

/-- The order in which the slots of one vertex follow each other in a stream: the order of their
numbers, except that the combined normal, binormal and tangent stand behind the plain normal. -/
def streamOrder : List Attribute :=
  [.pnMtxIdx, .tex0MtxIdx, .tex1MtxIdx, .tex2MtxIdx, .tex3MtxIdx, .tex4MtxIdx, .tex5MtxIdx,
    .tex6MtxIdx, .tex7MtxIdx, .pos, .nrm, .nbt, .clr0, .clr1, .tex0, .tex1, .tex2, .tex3, .tex4,
    .tex5, .tex6, .tex7]

/-- Number of attribute slots. -/
abbrev count : Nat := 22

/-- The place of a slot in stream order. -/
def streamIndex (a : Attribute) : Fin count :=
  ⟨streamOrder.idxOf a, by cases a <;> decide⟩

/-- A slot that holds a matrix number and not vertex data. -/
def isMatrixIndex (a : Attribute) : Bool :=
  Coded.raw a ≤ Coded.raw tex7MtxIdx

/-- The texture coordinate channel of a texture coordinate slot. -/
def texChannel (a : Attribute) : Option UInt8 :=
  if Coded.raw tex0 ≤ Coded.raw a ∧ Coded.raw a ≤ Coded.raw tex7 then
    some (Coded.raw a - Coded.raw tex0)
  else none

theorem getElem_streamIndex (a : Attribute) : streamOrder[(a.streamIndex : Nat)]? = some a := by
  cases a <;> decide

end Attribute

end FixedFunction
