import FixedFunction.Material.Basic
import FixedFunction.Program.Basic

/-!
# From materials to programs

**Input.**  A material, and what is to be left out of its program.

**Algorithm.**  The parts of a material are resolved one after the other: channels, generators,
indirect samples, combiner stages, alpha test.  The vertex inputs and the textures that the parts
read are noted on the way, and put in order at the end.

**Results.**
* `Material.lower`: the program of a material, or the first setting that is not supported.
-/

namespace FixedFunction

/-- Applies a function to each element and its place, up to the first refusal. -/
def refuseFirst {α β : Type} (f : Nat → α → Except Error β) : Nat → List α → Except Error (List β)
  | _, [] => .ok []
  | i, x :: xs => do
    let y ← f i x
    return y :: (← refuseFirst f (i + 1) xs)

/-- Inserts an element in front of the first whose key is not smaller. -/
def insertBy {α : Type} (key : α → Nat) (x : α) : List α → List α
  | [] => [x]
  | y :: l => if key x ≤ key y then x :: y :: l else y :: insertBy key x l

/-- The elements of a list by their keys. -/
def sortBy {α : Type} (key : α → Nat) : List α → List α
  | [] => []
  | x :: l => insertBy key x (sortBy key l)

/-- Drops each element that is followed by the same. -/
def dropRepeats {α : Type} [DecidableEq α] : List α → List α
  | [] => []
  | x :: l => if l.head? = some x then dropRepeats l else x :: dropRepeats l

namespace ColorSource

/-- The color that a source stands for, given the register of the channel. -/
def resolve (o : Omissions) (channel : UInt8) (register : ColorOrigin) :
    ColorSource → ColorOrigin
  | .register => register
  | .vertex => if o.vertexColors then .white else .vertex channel

/-- The vertex input that a source reads. -/
def inputs (o : Omissions) (channel : UInt8) : ColorSource → List ShaderInput
  | .register => []
  | .vertex => if o.vertexColors then [] else [.color channel]

end ColorSource

namespace ChannelControl

/-- One half of channel `i`. -/
def lower (o : Omissions) (i : UInt8) (c : ChannelControl) : ChannelHalf where
  material := c.material.resolve o i (.materialRegister i)
  ambient :=
    if c.lit && !o.lighting then some (c.ambient.resolve o i (.ambientRegister i)) else none

/-- The vertex inputs that one half of channel `i` reads. -/
def inputs (o : Omissions) (i : UInt8) (c : ChannelControl) : List ShaderInput :=
  c.material.inputs o i ++ if c.lit && !o.lighting then c.ambient.inputs o i else []

end ChannelControl

namespace LightChannel

/-- Channel `i`. -/
def lower (o : Omissions) (i : UInt8) (c : LightChannel) : Channel where
  color := c.color.lower o i
  alpha := c.alpha.lower o i

/-- The vertex inputs that channel `i` reads. -/
def inputs (o : Omissions) (i : UInt8) (c : LightChannel) : List ShaderInput :=
  c.color.inputs o i ++ c.alpha.inputs o i

end LightChannel

namespace TexGenKind

/-- The kinds that are compiled. -/
def lower : TexGenKind → Except Error CoordKind
  | .srtg => .ok .srtg
  | .mtx2x4 => .ok .mtx2x4
  | .mtx3x4 => .ok .mtx3x4
  | k => .error (.unsupportedTexGen k)

end TexGenKind

namespace TexGenSource

/-- The source of generator `i`.  It can read the coordinates of earlier generators only. -/
def lower (i : Nat) (s : TexGenSource) : Except Error CoordSource :=
  let earlier (k : UInt8) : Except Error CoordSource :=
    if k.toNat < i then .ok (.coord k)
    else .error (.invalidValue "tex_gen_source" (Coded.raw s).toNat)
  match s with
  | .position => .ok .position
  | .normal => .ok .normal
  | .binormal => .ok .binormal
  | .tangent => .ok .tangent
  | .tex0 => .ok (.tex 0)
  | .tex1 => .ok (.tex 1)
  | .tex2 => .ok (.tex 2)
  | .tex3 => .ok (.tex 3)
  | .tex4 => .ok (.tex 4)
  | .tex5 => .ok (.tex 5)
  | .tex6 => .ok (.tex 6)
  | .tex7 => .ok (.tex 7)
  | .texCoord0 => earlier 0
  | .texCoord1 => earlier 1
  | .texCoord2 => earlier 2
  | .texCoord3 => earlier 3
  | .texCoord4 => earlier 4
  | .texCoord5 => earlier 5
  | .texCoord6 => earlier 6
  | .color0 => .ok (.color 0)
  | .color1 => .ok (.color 1)

/-- The vertex input that a source reads, apart from the position. -/
def input? : TexGenSource → Option ShaderInput
  | .normal => some .normal
  | .binormal => some .binormal
  | .tangent => some .tangent
  | .tex0 => some (.tex 0)
  | .tex1 => some (.tex 1)
  | .tex2 => some (.tex 2)
  | .tex3 => some (.tex 3)
  | .tex4 => some (.tex 4)
  | .tex5 => some (.tex 5)
  | .tex6 => some (.tex 6)
  | .tex7 => some (.tex 7)
  | .position | .color0 | .color1 => none
  | .texCoord0 | .texCoord1 | .texCoord2 | .texCoord3 | .texCoord4 | .texCoord5 | .texCoord6 => none

end TexGenSource

namespace TexGenMatrix

/-- The matrix with its number: a matrix takes three rows. -/
def lower (m : TexGenMatrix) : CoordMatrix :=
  match m, m.textureIndex with
  | .identity, _ => .identity
  | _, some i => .texture i
  | m, none => .position (Coded.raw m / 3)

end TexGenMatrix

namespace TexGen

/-- Generator `i`. -/
def lower (i : Nat) (g : TexGen) : Except Error CoordGen := do
  let kind ← g.kind.lower
  let source ← g.source.lower i
  let post ← g.post.index?
  return { kind, source, matrix := g.matrix.lower, normalize := g.normalize, post }

end TexGen

namespace Material

/-- The coordinate that a number selects.  A number past the last generator selects the last.  The
number of the last generator is a byte, so of more than 256 generators the place of the last is
counted modulo 256. -/
def coord (m : Material) (id : Option UInt8) : Option UInt8 :=
  if m.texGens.isEmpty then none
  else
    let last := (m.texGens.length - 1).toUInt8
    id.map (min · last)

end Material

/-- The texture that is sampled, or `none` where white is read instead. -/
def Omissions.texture (o : Omissions) (t : Option UInt8) : Option UInt8 :=
  if o.textures then none else t

/-- An indirect sample of a material. -/
def IndirectStage.lower (o : Omissions) (m : Material) (s : IndirectStage) : IndirectSample where
  coord := m.coord s.coord
  texture := o.texture s.texture
  scaleS := s.scaleS.divisor
  scaleT := s.scaleT.divisor

namespace IndirectWrap

/-- What a wrap does. -/
def lower (w : IndirectWrap) : Wrap :=
  match w, w.modulus with
  | .off, _ => .off
  | _, some m => .modulo m
  | _, none => .zero

end IndirectWrap

/-- The number of an indirect matrix that is stored, or `none` if the sample is not used. -/
def IndirectMatrix.lower : IndirectMatrix → Except Error (Option UInt8)
  | .off => .ok none
  | .m0 => .ok (some 0)
  | .m1 => .ok (some 1)
  | .m2 => .ok (some 2)
  | m => .error (.unsupportedIndirectMatrix m)

/-- The bias of a component that is biased, and zero for the others. -/
def biasValue (on : Bool) : Float32 :=
  if on then -128 else 0

namespace CombinerStage

/-- The offset of stage `k` of a material. -/
def offset (m : Material) (k : Nat) (s : CombinerStage) : Except Error (Option IndirectOffset) := do
  match ← s.indirect.matrix.lower with
  | none => return none
  | some matrix =>
    if s.indirect.format ≠ .f8 then throw (.unsupportedIndirectFormat s.indirect.format)
    if (m.indirectStage? s).isNone then throw (.missingIndirectStage k s.indirect.stage)
    let (biasS, biasT, biasU) := s.indirect.bias.components
    return some {
      stage := s.indirect.stage
      matrix
      biasS := biasValue biasS
      biasT := biasValue biasT
      biasU := biasValue biasU
      texture := s.texture }

/-- The coordinate of stage `k` of a material. -/
def stageCoord (m : Material) (k : Nat) (s : CombinerStage) : Except Error StageCoord := do
  let indirect ← s.offset m k
  return {
    coord := m.coord s.coord
    wrapS := s.indirect.wrapS.lower
    wrapT := s.indirect.wrapT.lower
    addPrevious := s.indirect.addPrevious
    indirect }

end CombinerStage

/-- The rasterized colors that are compiled. -/
def RasterChannel.lower : RasterChannel → Except Error RasterSource
  | .color0 | .color0A0 => .ok (.channel 0)
  | .color1 | .color1A1 => .ok (.channel 1)
  | .colorZero => .ok .zero
  | c => .error (.unsupportedRaster c)

/-- The operations that are compiled. -/
def CombineOp.lower : CombineOp → Except Error Operation
  | .add => .ok .add
  | .sub => .ok .sub
  | .compR8Gt => .ok .greater
  | op => .error (.unsupportedCombine op)

/-- A constant fraction: eight eighths down to one. -/
def eighths (raw : UInt8) : Operand :=
  .constant ((8 - raw).toFloat32 / 8)

/-- One component of a constant register: the low two bits select the register and the bits above
them the component. -/
def konstComponent (raw : UInt8) : Operand :=
  .konst (raw % 4) (match (raw - 16) / 4 with
    | 0 => .r
    | 1 => .g
    | 2 => .b
    | _ => .a)

/-- The constant of a color half. -/
def KonstColor.operand (k : KonstColor) : Operand :=
  let raw := Coded.raw k
  if raw < 8 then eighths raw
  else if raw < 16 then .konst (raw - 12) .rgb
  else konstComponent raw

/-- The constant of an alpha half. -/
def KonstAlpha.operand (k : KonstAlpha) : Operand :=
  let raw := Coded.raw k
  if raw < 8 then eighths raw else konstComponent raw

/-- The texture sample of a stage, which is white without a texture. -/
def textureOperand (texture : Option UInt8) (s : Swizzle) : Operand :=
  match texture with
  | some _ => .texture s
  | none => .constant 1

/-- The operand of an input of a color half. -/
def ColorInput.operand (konst : KonstColor) (texture : Option UInt8) : ColorInput → Operand
  | .cPrev => .register .prev .rgb
  | .aPrev => .register .prev .a
  | .c0 => .register .reg0 .rgb
  | .a0 => .register .reg0 .a
  | .c1 => .register .reg1 .rgb
  | .a1 => .register .reg1 .a
  | .c2 => .register .reg2 .rgb
  | .a2 => .register .reg2 .a
  | .texC => textureOperand texture .rgb
  | .texA => textureOperand texture .a
  | .rasC => .rasterized .rgb
  | .rasA => .rasterized .a
  | .one => .constant 1
  | .half => .constant 0.5
  | .konst => konst.operand
  | .zero => .constant 0

/-- The operand of an input of an alpha half. -/
def AlphaInput.operand (konst : KonstAlpha) (texture : Option UInt8) : AlphaInput → Operand
  | .aPrev => .register .prev .a
  | .a0 => .register .reg0 .a
  | .a1 => .register .reg1 .a
  | .a2 => .register .reg2 .a
  | .texA => textureOperand texture .a
  | .rasA => .rasterized .a
  | .konst => konst.operand
  | .zero => .constant 0

namespace CombinerHalf

/-- The inputs of a half in order. -/
def inputs {ι : Type} (h : CombinerHalf ι) : List ι :=
  [h.a, h.b, h.c, h.d]

/-- A half, given the operands of its inputs. -/
def lower {ι : Type} (operand : ι → Operand) (h : CombinerHalf ι) : Except Error Half := do
  let op ← h.op.lower
  return {
    a := operand h.a
    b := operand h.b
    c := operand h.c
    d := operand h.d
    op
    bias := h.bias.value
    scale := h.scale.value
    clamp := h.clamp
    dest := h.dest }

end CombinerHalf

namespace CombinerStage

/-- Whether an input of a stage is the texture sample. -/
def readsTexture (s : CombinerStage) : Bool :=
  s.color.inputs.any (fun i => i = .texC || i = .texA) || s.alpha.inputs.any (· = .texA)

/-- Whether an input of a stage is the rasterized color. -/
def readsRaster (s : CombinerStage) : Bool :=
  s.color.inputs.any (fun i => i = .rasC || i = .rasA) || s.alpha.inputs.any (· = .rasA)

/-- The texture that a stage samples. -/
def sampled (o : Omissions) (s : CombinerStage) : Option UInt8 :=
  if s.readsTexture then o.texture s.texture else none

/-- The rasterized color that a stage reads. -/
def raster (s : CombinerStage) : Except Error (Option RasterSource) :=
  if s.readsRaster then s.channel.lower.map some else .ok none

/-- Stage `k` of a material.  The indirect settings are checked also where nothing is sampled. -/
def lower (o : Omissions) (m : Material) (k : Nat) (s : CombinerStage) : Except Error Stage := do
  let coord ← s.stageCoord m k
  let texture := s.sampled o
  let raster ← s.raster
  let color ← s.color.lower (ColorInput.operand s.konstColor texture)
  let alpha ← s.alpha.lower (AlphaInput.operand s.konstAlpha texture)
  return { texture, coord := texture.map fun _ => coord, raster, color, alpha }

end CombinerStage

namespace AlphaTest

/-- A test whose outcome is known, or two comparisons with finite references. -/
def lower (t : AlphaTest) : Except Error AlphaCheck :=
  match t.constant? with
  | some true => .ok .keepAll
  | some false => .ok .dropAll
  | none =>
    if t.referenceA.isFinite && t.referenceB.isFinite then
      .ok (.compare t.logic t.compareA t.referenceA t.compareB t.referenceB)
    else .error (.nonFinite "alpha_test")

end AlphaTest

namespace Material

/-- The vertex inputs that the parts of a material read, in the order of the parts.  The position
and the number of its matrix are always read. -/
def inputs (o : Omissions) (m : Material) : List ShaderInput :=
  [.positionMatrix, .position] ++
    ((m.channels.take 2).mapIdx fun i c => c.inputs o i.toUInt8).flatten ++
    m.texGens.filterMap (·.source.input?)

/-- The textures that the parts of a material sample, in the order of the parts. -/
def textures (o : Omissions) (m : Material) : List UInt8 :=
  m.indirectStages.filterMap (fun s => o.texture s.texture) ++ m.stages.filterMap (·.sampled o)

/-- The program of a material. -/
def lower (o : Omissions) (m : Material) : Except Error Program := do
  let channels := (m.channels.take 2).mapIdx fun i c => c.lower o i.toUInt8
  let coordGens ← refuseFirst TexGen.lower 0 m.texGens
  let indirectSamples := m.indirectStages.map (·.lower o m)
  let stages ← refuseFirst (CombinerStage.lower o m) 0 m.stages
  let alphaCheck ← m.alphaTest.lower
  return {
    vertexInputs := dropRepeats (sortBy ShaderInput.location (m.inputs o))
    channels
    coordGens
    indirectSamples
    stages
    alphaCheck
    textures := dropRepeats (sortBy UInt8.toNat (m.textures o)) }

end Material
end FixedFunction
