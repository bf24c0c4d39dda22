import FixedFunction.Shader.Uniform

/-!
# Vertex shaders

**Input.**  A program.

**Results.**
* `vertexShader`: the shader that transforms a vertex, computes its two colors, and generates its
  texture coordinates.
-/

namespace FixedFunction
namespace Shader

open Shader.Expr

/-- The member of the vertex data that holds an input. -/
def inputMember : ShaderInput → Member
  | .positionMatrix => .pnMtxIdx
  | .position => .position
  | .normal => .normal
  | .color i => .channel i.toNat
  | .tex i => .tex i.toNat
  | .binormal => .binormal
  | .tangent => .tangent

/-- The type of an input. -/
def inputType (v : ShaderInput) : Ty :=
  match v.components with
  | 1 => .f32
  | 2 => .vec2
  | 3 => .vec3
  | _ => .vec4

/-- What a vertex shader receives. -/
def vertexData (p : Program) : List MemberDecl :=
  p.vertexInputs.map fun v => located v.location (inputMember v) (inputType v)

/-- The color of a source. -/
def sourceColor : ColorOrigin → Expr
  | .vertex i => input (.channel i.toNat)
  | .materialRegister i => index (material .colorMatReg) i.toNat
  | .ambientRegister i => index (material .colorAmbReg) i.toNat
  | .white => splat .vec4 1

/-- The share of the ambient color in the color of a lit channel, which stands in for all lights. -/
def ambientShare : Float32 := 0.3

/-- One half of a channel. -/
def channelValue (v : ChannelHalf) : Expr :=
  match v.ambient with
  | some ambient => paren (lit ambientShare * sourceColor ambient * sourceColor v.material)
  | none => sourceColor v.material

/-- A channel.  Two halves that are the same are written once. -/
def channelColor (c : Channel) : Expr :=
  if c.color = c.alpha then channelValue c.color
  else
    call2 .vec4 (swizzle (paren (channelValue c.color)) [.r, .g, .b])
      (swizzle (paren (channelValue c.alpha)) [.a])

/-- The color of channel `i`; a channel that is not there is zero. -/
def color (p : Program) (i : Nat) : Expr :=
  match p.channels[i]? with
  | some c => channelColor c
  | none => splat .vec4 0

/-- The source of a generator as a vector of four components. -/
def coordSource : CoordSource → Expr
  | .position => call2 .vec4 (input .position) (lit 1)
  | .normal => call2 .vec4 (input .normal) (lit 1)
  | .binormal => call2 .vec4 (input .binormal) (lit 1)
  | .tangent => call2 .vec4 (input .tangent) (lit 1)
  | .color i => output (.channel i.toNat)
  | .tex i => call3 .vec4 (input (.tex i.toNat)) (lit 1) (lit 1)
  | .coord i => call2 .vec4 (output (.coord i.toNat)) (lit 1)

/-- The source of a generator behind its first matrix. -/
def coordTransformed (g : CoordGen) : Expr :=
  match g.matrix with
  | .identity => swizzle (coordSource g.source) [.x, .y, .z]
  | .position i => call2 .mulMat4x3 (index (packet .posMtx) i.toNat) (coordSource g.source)
  | .texture i => call2 .mulMat4x3 (index (material .texMtx) i.toNat) (coordSource g.source)

/-- The coordinate of a generator before it is normalized. -/
def coordPlain (g : CoordGen) : Expr :=
  match g.kind with
  | .srtg => call2 .vec3 (swizzle (coordSource g.source) [.r, .g]) (lit 1)
  | .mtx2x4 => call2 .vec3 (swizzle (paren (coordTransformed g)) [.x, .y]) (lit 1)
  | .mtx3x4 => coordTransformed g

/-- The coordinate of a generator before its last matrix. -/
def coordNormalized (g : CoordGen) : Expr :=
  if g.normalize then call1 .normalize (coordPlain g) else coordPlain g

/-- The coordinate of a generator. -/
def coord (g : CoordGen) : Expr :=
  match g.post with
  | some i =>
    call2 .mulMat4x3 (index (material .postTexMtx) i.toNat)
      (call2 .vec4 (coordNormalized g) (lit 1))
  | none => coordNormalized g

/-- The number of the position matrix of a vertex.  Matrices are numbered by their rows. -/
def matrixNumber : Expr :=
  call1 .toU32 (input .pnMtxIdx / lit 3)

/-- The body of a vertex shader. -/
def vertexBody (p : Program) : List Stmt :=
  [.declare .output (call0 (.new .vertexOutput)),
    .bind .positionMatrix (element (packet .posMtx) matrixNumber),
    .bind .transformed
      (call2 .mulMat4x3 (var .positionMatrix) (call2 .vec4 (input .position) (lit 1))),
    .assign (.member .output .position)
      (scene .projection * call2 .vec4 (var .transformed) (lit 1)),
    .assign (.member .output (.channel 0)) (color p 0),
    .assign (.member .output (.channel 1)) (color p 1)] ++
  p.coordGens.mapIdx (fun i g => .assign (.member .output (.coord i)) (coord g)) ++
  [.return (var .output)]

/-- The vertex shader of a program. -/
def vertexShader (p : Program) : Source :=
  common p ++
    [[.struct .vertexData (vertexData p)],
      [.function .vertex .vertexMain [(.input, .struct .vertexData)] (.struct .vertexOutput)
        (vertexBody p)]]

end Shader
end FixedFunction
