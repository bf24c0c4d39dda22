import FixedFunction.Error

/-!
# Materials

A material is a setting of the whole pipeline behind the vertex arrays: color channels, texture
coordinate generation, indirect texturing, combiner stages, alpha test, blending and depth.

**Results.**
* `AlphaTest.passes`: whether a fragment is kept.
* `AlphaTest.constant?`: the outcome of a test that does not look at alpha.
-/

namespace FixedFunction

/-- Red, green, blue and alpha. -/
abbrev Color := Vector Float32 4

/-- One half, color or alpha, of a color channel. -/
structure ChannelControl where
  /-- Whether the channel is lit. -/
  lit : Bool := false
  /-- Where the material color comes from. -/
  material : ColorSource := default
  /-- Where the ambient color of a lit channel comes from. -/
  ambient : ColorSource := default
deriving DecidableEq

/-- A color channel. -/
structure LightChannel where
  /-- What becomes of red, green and blue. -/
  color : ChannelControl := {}
  /-- What becomes of alpha. -/
  alpha : ChannelControl := {}
deriving DecidableEq

/-- A texture coordinate generator. -/
structure TexGen where
  /-- How the coordinate is made. -/
  kind : TexGenKind := default
  /-- What is read. -/
  source : TexGenSource := default
  /-- The matrix that is applied first. -/
  matrix : TexGenMatrix := default
  /-- Whether the result is normalized. -/
  normalize : Bool := false
  /-- The matrix that is applied last. -/
  post : PostMatrix := default
deriving DecidableEq

/-- A texture sample that moves the coordinates of later samples. -/
structure IndirectStage where
  /-- The generator whose coordinate is used. -/
  coord : Option UInt8 := none
  /-- The texture that is sampled. -/
  texture : Option UInt8 := none
  /-- Divisor of the first axis. -/
  scaleS : IndirectScale := default
  /-- Divisor of the second axis. -/
  scaleT : IndirectScale := default
deriving DecidableEq

/-- How a combiner stage uses an indirect sample. -/
structure IndirectUse where
  /-- The indirect stage. -/
  stage : UInt8 := 0
  /-- The bits of the sample that count. -/
  format : IndirectFormat := default
  /-- The components that are biased. -/
  bias : IndirectBias := default
  /-- The matrix that makes an offset of the sample. -/
  matrix : IndirectMatrix := default
  /-- Wrap of the first axis. -/
  wrapS : IndirectWrap := default
  /-- Wrap of the second axis. -/
  wrapT : IndirectWrap := default
  /-- Whether the coordinate of the stage before is added. -/
  addPrevious : Bool := false
deriving DecidableEq

/-- One half, color or alpha, of a combiner stage, with inputs `ι`. -/
structure CombinerHalf (ι : Type) where
  /-- Mixed first. -/
  a : ι
  /-- Mixed second. -/
  b : ι
  /-- The share of the second. -/
  c : ι
  /-- Added to the mix. -/
  d : ι
  /-- The operation. -/
  op : CombineOp := default
  /-- Added to the sum. -/
  bias : CombineBias := default
  /-- Factor of the sum. -/
  scale : CombineScale := default
  /-- Whether the result is brought into [0, 1]. -/
  clamp : Bool := true
  /-- The register that is written. -/
  dest : Register := default
deriving DecidableEq

/-- A combiner stage.  The default passes on what the stage before has written. -/
structure CombinerStage where
  color : CombinerHalf ColorInput := { a := .zero, b := .zero, c := .zero, d := .cPrev }
  alpha : CombinerHalf AlphaInput := { a := .zero, b := .zero, c := .zero, d := .aPrev }
  /-- The generator whose coordinate is used. -/
  coord : Option UInt8 := none
  /-- The texture that is sampled. -/
  texture : Option UInt8 := none
  /-- The rasterized color that is read. -/
  channel : RasterChannel := default
  /-- The constant of the color half. -/
  konstColor : KonstColor := default
  /-- The constant of the alpha half. -/
  konstAlpha : KonstAlpha := default
  /-- How the coordinate is moved. -/
  indirect : IndirectUse := {}
deriving DecidableEq

namespace CombinerStage

/-- The stage that passes on what the stage before has written. -/
def passThrough : CombinerStage := {}

/-- The stage that multiplies a texture with a rasterized color. -/
def modulate (coord texture : UInt8) (channel : RasterChannel) : CombinerStage where
  color := { a := .zero, b := .texC, c := .rasC, d := .zero }
  alpha := { a := .zero, b := .texA, c := .rasA, d := .zero }
  coord := some coord
  texture := some texture
  channel := channel

end CombinerStage

/-- The test that drops fragments by their alpha. -/
structure AlphaTest where
  /-- How the two comparisons are joined. -/
  logic : AlphaLogic := .and
  /-- The first comparison. -/
  compareA : Comparison := .always
  /-- What the first comparison compares with. -/
  referenceA : Float32 := 0
  /-- The second comparison. -/
  compareB : Comparison := .always
  /-- What the second comparison compares with. -/
  referenceB : Float32 := 0
deriving DecidableEq

/-- The outcome of a comparison that does not look at its operands. -/
def Comparison.constant? : Comparison → Option Bool
  | .never => some false
  | .always => some true
  | _ => none

namespace AlphaTest

/-- Whether a fragment with the given alpha is kept. -/
def passes (t : AlphaTest) (alpha : Float32) : Bool :=
  t.logic.join (t.compareA.holds alpha t.referenceA) (t.compareB.holds alpha t.referenceB)

/-- The outcome of a test neither of whose comparisons looks at alpha. -/
def constant? (t : AlphaTest) : Option Bool := do
  return t.logic.join (← t.compareA.constant?) (← t.compareB.constant?)

end AlphaTest

/-- How a fragment is joined with the frame buffer. -/
structure Blend where
  mode : BlendMode := default
  /-- Factor of the fragment. -/
  source : BlendFactor := default
  /-- Factor of the frame buffer. -/
  destination : BlendFactor := default
  /-- The bitwise operation. -/
  logic : LogicOp := default
deriving DecidableEq

/-- What happens to a fragment that passed the alpha test. -/
structure PixelOutput where
  blend : Blend := {}
  depthTest : Bool := true
  /-- The depth test. -/
  depthCompare : Comparison := .lessEqual
  /-- Whether depth is written. -/
  depthWrite : Bool := true
deriving DecidableEq

/-- A material. -/
structure Material where
  name : String := ""
  /-- The faces that are dropped. -/
  cull : CullMode := default
  /-- The color channels, of which the first two count. -/
  channels : List LightChannel := []
  /-- The texture coordinate generators. -/
  texGens : List TexGen := []
  /-- The indirect samples. -/
  indirectStages : List IndirectStage := []
  stages : List CombinerStage := []
  alphaTest : AlphaTest := {}
  /-- What the four registers hold at first. -/
  registers : Vector Color 4 := .replicate 4 (.replicate 4 0)
  /-- The four constants. -/
  konst : Vector Color 4 := .replicate 4 (.replicate 4 0)
  /-- The material colors of the two channels. -/
  materialColors : Vector Color 2 := .replicate 2 (.replicate 4 0)
  /-- The ambient colors of the two channels. -/
  ambientColors : Vector Color 2 := .replicate 2 (.replicate 4 0)
  /-- What happens to fragments. -/
  output : PixelOutput := {}
deriving DecidableEq

instance : Inhabited Material := ⟨{}⟩

namespace Material

/-- The indirect stage that a combiner stage uses, if it is there. -/
def indirectStage? (m : Material) (s : CombinerStage) : Option IndirectStage :=
  m.indirectStages[s.indirect.stage.toNat]?

end Material

/-- Options that leave parts of a material out of its program, to look at the others. -/
structure Omissions where
  /-- Textures read as opaque white. -/
  textures : Bool := false
  /-- Vertex colors read as opaque white. -/
  vertexColors : Bool := false
  /-- Channels are not lit. -/
  lighting : Bool := false
deriving DecidableEq

instance : Inhabited Omissions := ⟨{}⟩

end FixedFunction
