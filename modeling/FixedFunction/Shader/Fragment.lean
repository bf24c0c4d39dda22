import FixedFunction.Shader.Uniform

/-!
# Fragment shaders

**Input.**  A program.

**Results.**
* `fragmentShader`: the shader that takes the indirect samples, runs the combiner stages on the
  registers, tests alpha, and returns the first register.
-/

namespace FixedFunction
namespace Shader

open Shader.Expr

/-- A generated coordinate on the plane, or the origin. -/
def planeCoord : Option UInt8 → Expr
  | some i =>
    paren (swizzle (input (.coord i.toNat)) [.x, .y] / swizzle (input (.coord i.toNat)) [.z])
  | none => splat .vec2 0

/-- The parameters of a texture: its size, and its level bias. -/
def textureParams (t : UInt8) : Expr :=
  index (material .textureParams) t.toNat

/-- The level bias of a texture. -/
def levelBias (t : UInt8) : Expr :=
  swizzle (scene .misc0) [.x] + swizzle (textureParams t) [.w]

/-- A sample of a texture. -/
def sampleTexture (t : UInt8) (coord : Expr) : Expr :=
  call4 .sampleBias (var (.texture t)) (var (.sampler t)) coord (levelBias t)

/-- One divided by a divisor. -/
def reciprocal (n : Nat) : Expr :=
  lit (1 / n.toUInt32.toFloat32)

/-- An indirect sample: three components from 0 to 255. -/
def indirectSample (s : IndirectSample) : Expr :=
  match s.texture with
  | some t =>
    lit 255 * swizzle
      (sampleTexture t (planeCoord s.coord * call2 .vec2 (reciprocal s.scaleS)
        (reciprocal s.scaleT)))
      [.a, .b, .g]
  | none => splat .vec3 255

/-- Components of a vector as a text has them in the color half and in the alpha half. -/
def colorComponents : Swizzle → List Component
  | .rgb => [.r, .g, .b]
  | .r => [.r, .r, .r]
  | .g => [.g, .g, .g]
  | .b => [.b, .b, .b]
  | .a => [.a, .a, .a]

/-- The component that an alpha half reads. -/
def alphaComponent : Swizzle → List Component
  | .r => [.r]
  | .g => [.g]
  | .b => [.b]
  | .rgb | .a => [.a]

/-- The rasterized color of a stage. -/
def rasterColor : Option RasterSource → Expr
  | some (.channel i) => input (.channel i.toNat)
  | _ => splat .vec4 0

/-- An operand of the color half of stage `k`. -/
def colorOperand (k : Nat) (raster : Option RasterSource) : Operand → Expr
  | .register r s => swizzle (var (.register r)) (colorComponents s)
  | .texture s => swizzle (var (.sample k)) (colorComponents s)
  | .rasterized s => swizzle (call1 .saturate (rasterColor raster)) (colorComponents s)
  | .konst i s => swizzle (index (material .konstColor) i.toNat) (colorComponents s)
  | .constant x => splat .vec3 x

/-- An operand of the alpha half of stage `k`. -/
def alphaOperand (k : Nat) (raster : Option RasterSource) : Operand → Expr
  | .register r s => swizzle (var (.register r)) (alphaComponent s)
  | .texture s => swizzle (var (.sample k)) (alphaComponent s)
  | .rasterized s => swizzle (call1 .saturate (rasterColor raster)) (alphaComponent s)
  | .konst i s => swizzle (index (material .konstColor) i.toNat) (alphaComponent s)
  | .constant x => lit x

/-- The value of one half of stage `k`, given which components of the inputs it works on and what
zero is there. -/
def combined (k : Nat) (components : List Component) (zero : Expr) (h : Half) : Expr :=
  let arg (i : StageInput) := swizzle (var (.operand k i)) components
  let red (i : StageInput) := swizzle (var (.operand k i)) [.r]
  let biased (e : Expr) := if h.bias == 0 then e else paren (e + lit h.bias)
  let scaled (e : Expr) := if h.scale == 1 then e else paren e * lit h.scale
  let value :=
    match h.op with
    | .add => scaled (biased (call3 .mix (arg .a) (arg .b) (arg .c) + arg .d))
    | .sub => scaled (biased (call3 .mix (arg .a) (arg .b) (arg .c) - arg .d))
    | .greater => call3 .select zero (arg .c) (binary .gt (red .a) (red .b))
  if h.clamp then call1 .saturate value else value

/-- The value of the color half of stage `k`. -/
def combinedColor (k : Nat) (h : Half) : Expr :=
  combined k [.r, .g, .b] (splat .vec3 0) h

/-- The value of the alpha half of stage `k`. -/
def combinedAlpha (k : Nat) (h : Half) : Expr :=
  combined k [.a] (lit 0) h

/-- Whether a wrap changes its axis. -/
def wrapActs (w : Wrap) : Bool :=
  w ≠ .off

/-- One axis of the coordinate of stage `k`, wrapped. -/
def wrapped (k : Nat) (c : Component) : Wrap → Expr
  | .off => swizzle (var (.coordBase k)) [c]
  | .zero => lit 0
  | .modulo m => paren (swizzle (var (.coordBase k)) [c] % lit m.toUInt32.toFloat32)

/-- Whether a coordinate is wrapped. -/
def isWrapped (c : StageCoord) : Bool :=
  wrapActs c.wrapS || wrapActs c.wrapT

/-- The coordinate of stage `k` before an offset is added. -/
def baseCoord (k : Nat) (c : StageCoord) : Expr :=
  if isWrapped c then call2 .vec2 (wrapped k .x c.wrapS) (wrapped k .y c.wrapT)
  else planeCoord c.coord

/-- An indirect offset. -/
def offset (o : IndirectOffset) : Expr :=
  let e := call2 .mulMat4x2 (index (material .indTexMtx) o.matrix.toNat)
    (call2 .vec4
      (var (.indirect o.stage.toNat) + call3 .vec3 (lit o.biasS) (lit o.biasT) (lit o.biasU))
      (lit 0))
  match o.texture with
  | some t => e * paren (lit 1 / swizzle (textureParams t) [.x, .y])
  | none => e

/-- The coordinate of stage `k`. -/
def stageCoord (k : Nat) (c : StageCoord) : Expr :=
  match c.indirect with
  | some o => baseCoord k c + offset o
  | none => baseCoord k c

/-- The statements that set or move the coordinate for stage `k`. -/
def coordStmts (k : Nat) (c : StageCoord) : List Stmt :=
  (if isWrapped c then [.bind (.coordBase k) (planeCoord c.coord)] else []) ++
    [if c.addPrevious then .addAssign (.var .coord) (stageCoord k c)
      else .assign (.var .coord) (stageCoord k c)]

/-- The statements that sample the texture of stage `k`. -/
def sampleStmts (k : Nat) (s : Stage) : List Stmt :=
  match s.texture, s.coord with
  | some t, some c => coordStmts k c ++ [.bind (.sample k) (sampleTexture t (var .coord))]
  | _, _ => []

/-- Both halves of an input of stage `k`. -/
def operandPair (k : Nat) (s : Stage) (color alpha : Operand) : Expr :=
  call2 .vec4 (colorOperand k s.raster color) (alphaOperand k s.raster alpha)

/-- The statements that evaluate the inputs of stage `k`.  All but the last wrap around like the
registers of the hardware. -/
def operandStmts (k : Nat) (s : Stage) : List Stmt :=
  [.bind (.operand k .a) (call1 .overflow (operandPair k s s.color.a s.alpha.a)),
    .bind (.operand k .b) (call1 .overflow (operandPair k s s.color.b s.alpha.b)),
    .bind (.operand k .c) (call1 .overflow (operandPair k s s.color.c s.alpha.c)),
    .bind (.operand k .d) (operandPair k s s.color.d s.alpha.d)]

/-- The statements that write the registers of stage `k`. -/
def writeStmts (k : Nat) (s : Stage) : List Stmt :=
  [.assign (.var (.register s.color.dest))
      (call2 .vec4 (combinedColor k s.color) (swizzle (var (.register s.color.dest)) [.a])),
    .assign (.component (.register s.alpha.dest) .a) (combinedAlpha k s.alpha)]

/-- The statements of stage `k`. -/
def stageStmts (k : Nat) (s : Stage) : List Stmt :=
  .remark k :: sampleStmts k s ++ operandStmts k s ++ writeStmts k s

/-- The alpha of the first register. -/
def finalAlpha : Expr :=
  swizzle (var (.register .prev)) [.a]

/-- A comparison of the final alpha with a reference. -/
def comparison (c : Comparison) (x : Float32) : Expr :=
  let test (op : Operator) := paren (binary op finalAlpha (lit x))
  match c with
  | .never => bool false
  | .always => bool true
  | .less => test .lt
  | .equal => test .eq
  | .lessEqual => test .le
  | .greater => test .gt
  | .notEqual => test .ne
  | .greaterEqual => test .ge

/-- The operator that joins two comparisons. -/
def logicOperator : AlphaLogic → Operator
  | .and => .and
  | .or => .or
  | .xor => .ne
  | .xnor => .eq

/-- The statements that drop fragments.  Where all are dropped the condition is still written, as
what follows would otherwise never be reached. -/
def discardStmts : AlphaCheck → List Stmt
  | .keepAll => []
  | .dropAll => [.discardIf (bool true)]
  | .compare logic a x b y =>
    [.discardIf (not (paren (binary (logicOperator logic) (comparison a x) (comparison b y))))]

/-- The initial value of the register with the given place. -/
def initialRegister (i : Nat) : Expr :=
  index (material .color) i

/-- The statements before the first stage. -/
def openingStmts (p : Program) : List Stmt :=
  [.declare .output (call0 (.new .fragmentOutput)),
    .declare (.register .prev) (initialRegister 0),
    .declare (.register .reg0) (initialRegister 1),
    .declare (.register .reg1) (initialRegister 2),
    .declare (.register .reg2) (initialRegister 3),
    .declare .coord (splat .vec2 0)] ++
  p.indirectSamples.mapIdx fun i s => .bind (.indirect i) (indirectSample s)

/-- The body of a fragment shader. -/
def fragmentBody (p : Program) : List Stmt :=
  openingStmts p ++ (p.stages.mapIdx stageStmts).flatten ++ discardStmts p.alphaCheck ++
    [.assign (.member .output .color) (var (.register .prev)), .return (var .output)]

/-- The texture bindings of a program.  Texture `t` has the bindings `2 t` and `2 t + 1`. -/
def textureDecls (p : Program) : List Decl :=
  p.textures.flatMap fun t =>
    [.global 1 (2 * t.toNat) false (.texture t) .texture,
      .global 1 (2 * t.toNat + 1) false (.sampler t) .sampler]

/-- The functions that wrap values around like registers of eight bits. -/
def overflowDecls : Source :=
  [[.function .none .overflowScalar [(.scalarArg, .f32)] .f32
      [.return (call1 .toF32 (call1 .toI32 (var .scalarArg * lit 255) % int 256) / lit 255)]],
    [.function .none .overflow [(.vectorArg, .vec4)] .vec4
      [.return (call2 .vec4
        (call1 .fract (swizzle (var .vectorArg) [.r, .g, .b] * paren (lit 255 / lit 256)) *
          paren (lit 256 / lit 255))
        (call1 .overflowScalar (swizzle (var .vectorArg) [.a])))]]]

/-- The fragment shader of a program. -/
def fragmentShader (p : Program) : Source :=
  common p ++ (if p.textures.isEmpty then [] else [textureDecls p]) ++ overflowDecls ++
    [[.struct .fragmentOutput [located 0 .color .vec4]],
      [.function .fragment .fragmentMain [(.input, .struct .vertexOutput)]
        (.struct .fragmentOutput) (fragmentBody p)]]

end Shader
end FixedFunction
