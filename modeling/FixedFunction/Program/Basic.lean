import FixedFunction.Error

/-!
# Programs

A program is a material with every setting resolved: register numbers to operands, register fields
to constants, and settings that are not supported to refusals.  Writing a shader is then a walk
over the program.
-/

namespace FixedFunction

/-- An input of the vertex shader.  The inputs are declared in the order of their locations. -/
inductive ShaderInput where
  | positionMatrix
  | position
  | normal
  | color (i : UInt8)
  | tex (i : UInt8)
  | binormal
  | tangent
deriving DecidableEq

namespace ShaderInput

/-- The location of an input. -/
def location : ShaderInput → Nat
  | positionMatrix => 0
  | position => 1
  | normal => 2
  | color i => 3 + i.toNat
  | tex i => 5 + i.toNat
  | binormal => 13
  | tangent => 14

/-- The name of an input in a shader. -/
def name : ShaderInput → String
  | positionMatrix => "pn_mtx_idx"
  | position => "position"
  | normal => "normal"
  | color i => s!"color{i}"
  | tex i => s!"tex{i}"
  | binormal => "binormal"
  | tangent => "tangent"

/-- Number of components of an input. -/
def components : ShaderInput → Nat
  | positionMatrix => 1
  | tex _ => 2
  | color _ => 4
  | position | normal | binormal | tangent => 3

/-- The place of an input in the order of declaration: by kind first, then by number. -/
def rank : ShaderInput → Nat × Nat
  | positionMatrix => (0, 0)
  | position => (1, 0)
  | normal => (2, 0)
  | color i => (3, i.toNat)
  | tex i => (4, i.toNat)
  | binormal => (5, 0)
  | tangent => (6, 0)

/-- Whether an input is not after another in the order of declaration. -/
def le (v w : ShaderInput) : Bool :=
  v.rank.1 < w.rank.1 || v.rank.1 == w.rank.1 && v.rank.2 ≤ w.rank.2

end ShaderInput

/-- Where the material or ambient color of a channel comes from. -/
inductive ColorOrigin where
  | vertex (i : UInt8)
  | materialRegister (i : UInt8)
  | ambientRegister (i : UInt8)
  | white
deriving DecidableEq

/-- One half of a color channel.  A lit half is the product of its two colors, dimmed. -/
structure ChannelHalf where
  material : ColorOrigin
  /-- The ambient color of a lit half. -/
  ambient : Option ColorOrigin
deriving DecidableEq

/-- A color channel: red, green and blue of one value, alpha of the other. -/
structure Channel where
  /-- Red, green and blue. -/
  color : ChannelHalf
  alpha : ChannelHalf
deriving DecidableEq

/-- What a texture coordinate generator reads. -/
inductive CoordSource where
  | position
  | normal
  | binormal
  | tangent
  | color (i : UInt8)
  | tex (i : UInt8)
  | coord (i : UInt8)
deriving DecidableEq

/-- The matrix that a generator applies first. -/
inductive CoordMatrix where
  | identity
  | position (i : UInt8)
  | texture (i : UInt8)
deriving DecidableEq

/-- How a transformed source becomes a coordinate. -/
inductive CoordKind where
  /-- Red and green of the source itself. -/
  | srtg
  /-- The first two components. -/
  | mtx2x4
  /-- All three components. -/
  | mtx3x4
deriving DecidableEq

/-- A texture coordinate generator. -/
structure CoordGen where
  /-- How the coordinate is made. -/
  kind : CoordKind
  /-- What is read. -/
  source : CoordSource
  /-- The matrix that is applied first. -/
  matrix : CoordMatrix
  /-- Whether the result is normalized. -/
  normalize : Bool
  /-- The post matrix, unless it is the identity. -/
  post : Option UInt8
deriving DecidableEq

/-- An indirect sample. -/
structure IndirectSample where
  /-- The coordinate, or `none` for the origin. -/
  coord : Option UInt8
  /-- The texture, or `none` for opaque white. -/
  texture : Option UInt8
  /-- Divisor of the first axis. -/
  scaleS : Nat
  /-- Divisor of the second axis. -/
  scaleT : Nat
deriving DecidableEq

/-- The offset that an indirect sample adds to a coordinate. -/
structure IndirectOffset where
  /-- The indirect sample. -/
  stage : UInt8
  /-- The indirect matrix. -/
  matrix : UInt8
  /-- Added to the first component of the sample. -/
  biasS : Float32
  /-- Added to the second component of the sample. -/
  biasT : Float32
  /-- Added to the third component of the sample. -/
  biasU : Float32
  /-- The texture by whose size the offset is divided. -/
  texture : Option UInt8
deriving DecidableEq

/-- What happens to one axis of a coordinate before an offset is added. -/
inductive Wrap where
  /-- It is left as it is. -/
  | off
  | zero
  /-- It is taken modulo `m`. -/
  | modulo (m : Nat)
deriving DecidableEq

/-- The coordinate at which a stage samples. -/
structure StageCoord where
  /-- The coordinate, or `none` for the origin. -/
  coord : Option UInt8
  /-- Wrap of the first axis. -/
  wrapS : Wrap
  /-- Wrap of the second axis. -/
  wrapT : Wrap
  /-- Whether it is added to the coordinate of the stage before. -/
  addPrevious : Bool
  indirect : Option IndirectOffset
deriving DecidableEq

/-- The components of a color that an operand reads.  A color half reads a single component three
times. -/
inductive Swizzle where
  | rgb | r | g | b | a
deriving DecidableEq

/-- An operand of a combiner stage. -/
inductive Operand where
  | register (r : Register) (s : Swizzle)
  /-- The texture sample of the stage. -/
  | texture (s : Swizzle)
  /-- The rasterized color of the stage, brought into [0, 1]. -/
  | rasterized (s : Swizzle)
  | konst (k : UInt8) (s : Swizzle)
  | constant (x : Float32)
deriving DecidableEq

/-- The operation of one half of a combiner stage. -/
inductive Operation where
  /-- `mix a b c + d`. -/
  | add
  /-- `mix a b c - d`. -/
  | sub
  /-- `c` where red of `a` is greater than red of `b`, and zero elsewhere. -/
  | greater
deriving DecidableEq

/-- One half of a combiner stage. -/
structure Half where
  /-- Mixed first. -/
  a : Operand
  /-- Mixed second. -/
  b : Operand
  /-- The share of the second. -/
  c : Operand
  /-- Added to the mix. -/
  d : Operand
  op : Operation
  /-- Added to the sum. -/
  bias : Float32
  /-- Factor of the sum. -/
  scale : Float32
  /-- Whether the result is brought into [0, 1]. -/
  clamp : Bool
  /-- The register that is written. -/
  dest : Register
deriving DecidableEq

/-- The operands of a half in order. -/
def Half.operands (h : Half) : List Operand :=
  [h.a, h.b, h.c, h.d]

/-- The rasterized color that a stage reads. -/
inductive RasterSource where
  | channel (i : UInt8)
  | zero
deriving DecidableEq

/-- A combiner stage. -/
structure Stage where
  /-- The texture, if the stage samples one. -/
  texture : Option UInt8
  /-- The coordinate of the sample. -/
  coord : Option StageCoord
  /-- The rasterized color, if the stage reads one. -/
  raster : Option RasterSource
  color : Half
  alpha : Half
deriving DecidableEq

/-- An alpha test whose constant outcomes are known. -/
inductive AlphaCheck where
  /-- All fragments are kept. -/
  | keepAll
  /-- No fragment is kept. -/
  | dropAll
  /-- Fragments are kept by two comparisons. -/
  | compare (logic : AlphaLogic) (a : Comparison) (x : Float32) (b : Comparison) (y : Float32)
deriving DecidableEq

namespace AlphaCheck

/-- Whether a fragment with the given alpha is kept. -/
def passes : AlphaCheck → Float32 → Bool
  | keepAll, _ => true
  | dropAll, _ => false
  | compare logic a x b y, alpha => logic.join (a.holds alpha x) (b.holds alpha y)

end AlphaCheck

/-- A program. -/
structure Program where
  /-- The vertex inputs that are read, by location. -/
  vertexInputs : List ShaderInput
  /-- The color channels, at most two. -/
  channels : List Channel
  /-- The texture coordinate generators. -/
  coordGens : List CoordGen
  indirectSamples : List IndirectSample
  /-- The combiner stages. -/
  stages : List Stage
  /-- The alpha test. -/
  alphaCheck : AlphaCheck
  /-- The textures that are sampled, by number. -/
  textures : List UInt8
deriving DecidableEq

namespace Program

/-- Whether fragments can be dropped. -/
def canDiscard (p : Program) : Bool :=
  p.alphaCheck ≠ .keepAll

end Program
end FixedFunction
