import FixedFunction.Material.Basic
import FixedFunction.Shader.Uniform

/-!
# Parameter blocks

The blocks of memory that shaders read their parameters from.  A block is a sequence of words of
32 bits, each the pattern of a number, so that a pattern that stands for no number is kept as it
is.

**Results.**
* `MaterialBlock.bytes`, `PacketBlock.bytes`: the blocks in memory.
-/

namespace FixedFunction

/-- Four words. -/
abbrev Quad := Vector UInt32 4

/-- The pattern of a number. -/
def word (x : Float32) : UInt32 :=
  x.toBits

/-- The patterns of four numbers. -/
def quad (x y z w : Float32) : Quad :=
  #v[word x, word y, word z, word w]

/-- The patterns of a color. -/
def colorQuad (c : Color) : Quad :=
  c.map word

/-- The first rows of the identity matrix. -/
def identityRows : List Quad :=
  [quad 1 0 0 0, quad 0 1 0 0, quad 0 0 1 0]

/-- A block as bytes, least significant byte of each word first. -/
def blockBytes (rows : List Quad) : List UInt8 :=
  rows.flatMap fun q => q.toList.flatMap fun (w : UInt32) =>
    [w.toUInt8, (w >>> 8).toUInt8, (w >>> 16).toUInt8, (w >>> 24).toUInt8]

/-- The parameters of a frame. -/
structure SceneBlock where
  /-- The columns of the projection. -/
  projection : Vector Quad 4
  /-- The level bias of all textures, and three zeros. -/
  misc : Quad
deriving DecidableEq

/-- The parameters of a frame with the given projection and level bias. -/
def SceneBlock.make (projection : Vector Quad 4) (bias : UInt32) : SceneBlock where
  projection := projection
  misc := #v[bias, 0, 0, 0]

/-- The parameters of a material. -/
structure MaterialBlock where
  materialColors : Vector Quad 2 := .replicate 2 (quad 1 1 1 1)
  ambientColors : Vector Quad 2 := .replicate 2 (quad 0 0 0 0)
  /-- The constants. -/
  konst : Vector Quad 4 := .replicate 4 (quad 1 1 1 1)
  /-- What the registers hold at first. -/
  registers : Vector Quad 4 := .replicate 4 (quad 0 0 0 0)
  /-- Width, height, zero and level bias of each texture. -/
  textures : Vector Quad textureSlots := .replicate textureSlots (quad 1 1 0 0)
deriving DecidableEq

namespace MaterialBlock

/-- The parameters of a material whose textures are not known yet. -/
def ofMaterial (m : Material) : MaterialBlock where
  materialColors := m.materialColors.map colorQuad
  ambientColors := m.ambientColors.map colorQuad
  konst := m.konst.map colorQuad
  registers := m.registers.map colorQuad

/-- Stores the size and the level bias of a texture.  The machine stops where there is no such
texture. -/
def setTexture (b : MaterialBlock) (t : UInt8) (width height bias : UInt32) :
    Except Failure MaterialBlock :=
  if h : t.toNat < textureSlots then
    .ok { b with
      textures := b.textures.set t.toNat #v[word width.toFloat32, word height.toFloat32, 0, bias] }
  else .error (.stopped .outOfRange)

/-- The rows of the block in memory.  All matrices are the identity. -/
def rows (b : MaterialBlock) : List Quad :=
  b.materialColors.toList ++ b.ambientColors.toList ++ b.konst.toList ++ b.registers.toList ++
    (List.replicate (textureMatrices + postMatrices) identityRows).flatten ++
    b.textures.toList ++ (List.replicate indirectMatrices (identityRows.take 2)).flatten

/-- The block in memory. -/
def bytes (b : MaterialBlock) : List UInt8 :=
  blockBytes b.rows

end MaterialBlock

/-- The parameters of a draw call in memory, with the identity for all position matrices. -/
def packetBytes : List UInt8 :=
  blockBytes (List.replicate positionMatrices identityRows).flatten

end FixedFunction
