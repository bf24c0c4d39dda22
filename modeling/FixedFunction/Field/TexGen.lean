import FixedFunction.Coded

/-!
# Fields of texture coordinate generation

The kind of a generator, what it reads, and the matrices that it applies.  Matrices are named by
their row in matrix memory, and each takes three rows.
-/

namespace FixedFunction

/-- How a generator makes a coordinate of its source. -/
inductive TexGenKind where
  | mtx3x4 | mtx2x4 | bump0 | bump1 | bump2 | bump3 | bump4 | bump5 | bump6 | bump7 | srtg
deriving DecidableEq

instance : Coded TexGenKind where
  codes :=
    [⟨.mtx3x4, "Mtx3x4", 0⟩, ⟨.mtx2x4, "Mtx2x4", 1⟩, ⟨.bump0, "Bump0", 2⟩, ⟨.bump1, "Bump1", 3⟩,
      ⟨.bump2, "Bump2", 4⟩, ⟨.bump3, "Bump3", 5⟩, ⟨.bump4, "Bump4", 6⟩, ⟨.bump5, "Bump5", 7⟩,
      ⟨.bump6, "Bump6", 8⟩, ⟨.bump7, "Bump7", 9⟩, ⟨.srtg, "Srtg", 10⟩]
  complete a := by cases a <;> decide
  values_nodup := by decide
  names_nodup := by decide
  raws_nodup := by decide

instance : Inhabited TexGenKind := ⟨.mtx2x4⟩

/-- What a generator reads. -/
inductive TexGenSource where
  | position | normal | binormal | tangent | tex0 | tex1 | tex2 | tex3 | tex4 | tex5 | tex6
  | tex7 | texCoord0 | texCoord1 | texCoord2 | texCoord3 | texCoord4 | texCoord5 | texCoord6
  | color0 | color1
deriving DecidableEq

instance : Coded TexGenSource where
  codes :=
    [⟨.position, "Pos", 0⟩, ⟨.normal, "Nrm", 1⟩, ⟨.binormal, "Binrm", 2⟩,
      ⟨.tangent, "Tangent", 3⟩, ⟨.tex0, "Tex0", 4⟩, ⟨.tex1, "Tex1", 5⟩, ⟨.tex2, "Tex2", 6⟩,
      ⟨.tex3, "Tex3", 7⟩, ⟨.tex4, "Tex4", 8⟩, ⟨.tex5, "Tex5", 9⟩, ⟨.tex6, "Tex6", 10⟩,
      ⟨.tex7, "Tex7", 11⟩, ⟨.texCoord0, "TexCoord0", 12⟩, ⟨.texCoord1, "TexCoord1", 13⟩,
      ⟨.texCoord2, "TexCoord2", 14⟩, ⟨.texCoord3, "TexCoord3", 15⟩,
      ⟨.texCoord4, "TexCoord4", 16⟩, ⟨.texCoord5, "TexCoord5", 17⟩,
      ⟨.texCoord6, "TexCoord6", 18⟩, ⟨.color0, "Color0", 19⟩, ⟨.color1, "Color1", 20⟩]
  complete a := by cases a <;> decide
  values_nodup := by decide
  names_nodup := by decide
  raws_nodup := by decide

instance : Inhabited TexGenSource := ⟨.tex0⟩

/-- The matrix that a generator applies first. -/
inductive TexGenMatrix where
  | pnMtx0 | pnMtx1 | pnMtx2 | pnMtx3 | pnMtx4 | pnMtx5 | pnMtx6 | pnMtx7 | pnMtx8 | pnMtx9
  | texMtx0 | texMtx1 | texMtx2 | texMtx3 | texMtx4 | texMtx5 | texMtx6 | texMtx7 | texMtx8
  | texMtx9 | identity
deriving DecidableEq

instance : Coded TexGenMatrix where
  codes :=
    [⟨.pnMtx0, "PnMtx0", 0⟩, ⟨.pnMtx1, "PnMtx1", 3⟩, ⟨.pnMtx2, "PnMtx2", 6⟩,
      ⟨.pnMtx3, "PnMtx3", 9⟩, ⟨.pnMtx4, "PnMtx4", 12⟩, ⟨.pnMtx5, "PnMtx5", 15⟩,
      ⟨.pnMtx6, "PnMtx6", 18⟩, ⟨.pnMtx7, "PnMtx7", 21⟩, ⟨.pnMtx8, "PnMtx8", 24⟩,
      ⟨.pnMtx9, "PnMtx9", 27⟩, ⟨.texMtx0, "TexMtx0", 30⟩, ⟨.texMtx1, "TexMtx1", 33⟩,
      ⟨.texMtx2, "TexMtx2", 36⟩, ⟨.texMtx3, "TexMtx3", 39⟩, ⟨.texMtx4, "TexMtx4", 42⟩,
      ⟨.texMtx5, "TexMtx5", 45⟩, ⟨.texMtx6, "TexMtx6", 48⟩, ⟨.texMtx7, "TexMtx7", 51⟩,
      ⟨.texMtx8, "TexMtx8", 54⟩, ⟨.texMtx9, "TexMtx9", 57⟩, ⟨.identity, "Identity", 60⟩]
  complete a := by cases a <;> decide
  values_nodup := by decide
  names_nodup := by decide
  raws_nodup := by decide

instance : Inhabited TexGenMatrix := ⟨.identity⟩

/-- The number of a texture matrix. -/
def TexGenMatrix.textureIndex (m : TexGenMatrix) : Option UInt8 :=
  if Coded.raw texMtx0 ≤ Coded.raw m ∧ Coded.raw m ≤ Coded.raw texMtx9 then
    some ((Coded.raw m - Coded.raw texMtx0) / 3)
  else none

/-- The row of the matrix that a generator applies last: `64 + 3 n` for post matrix `n`, and 125
for the identity. -/
structure PostMatrix where
  row : UInt8
deriving DecidableEq

namespace PostMatrix

/-- Row of the first post matrix. -/
def firstRow : UInt8 := 64

/-- The identity. -/
def identity : PostMatrix := ⟨125⟩

/-- Number of post matrices. -/
def count : UInt8 := 20

instance : Inhabited PostMatrix := ⟨identity⟩

end PostMatrix

end FixedFunction
