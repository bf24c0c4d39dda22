import FixedFunction.Shader.Tree
import FixedFunction.Program.Basic

/-!
# What all shaders declare

Both shaders of a program declare the parameter blocks, the products of the two kinds of matrices,
and the structure that passes from vertices to fragments.
-/

namespace FixedFunction

/-- Number of texture matrices. -/
def textureMatrices : Nat := 10

/-- Number of post matrices. -/
def postMatrices : Nat := 20

/-- Number of textures. -/
def textureSlots : Nat := 8

/-- Number of indirect matrices. -/
def indirectMatrices : Nat := 3

/-- Number of position matrices. -/
def positionMatrices : Nat := 10

namespace Shader

open Shader.Expr

/-- A member that is not connected with the rest of the pipeline. -/
def plain (name : Member) (type : Ty) : MemberDecl :=
  ⟨.none, name, type⟩

/-- A member at a location. -/
def located (i : Nat) (name : Member) (type : Ty) : MemberDecl :=
  ⟨.location i, name, type⟩

/-- A member of the parameters of a frame. -/
def scene (m : Member) : Expr :=
  member (var .scene) m

/-- A member of the parameters of a material. -/
def material (m : Member) : Expr :=
  member (var .material) m

/-- A member of the parameters of a draw call. -/
def packet (m : Member) : Expr :=
  member (var .packet) m

/-- What a shader receives. -/
def input (m : Member) : Expr :=
  member (var .input) m

/-- What a shader returns. -/
def output (m : Member) : Expr :=
  member (var .output) m

/-- A vector whose components are all the same. -/
def splat (f : Fn) (x : Float32) : Expr :=
  call1 f (lit x)

/-- The dot product of a row of the matrix and the vector. -/
def row (m : Member) : Expr :=
  call2 .dot (member (var .matrixArg) m) (var .vectorArg)

/-- The parameter blocks. -/
def blocks : Source :=
  [[.struct .mat4x3 [plain .mx .vec4, plain .my .vec4, plain .mz .vec4]],
    [.struct .mat4x2 [plain .mx .vec4, plain .my .vec4]],
    [.struct .sceneParams [plain .projection .mat4x4, plain .misc0 .vec4]],
    [.struct .materialParams
      [plain .colorMatReg (.array .vec4 2),
        plain .colorAmbReg (.array .vec4 2),
        plain .konstColor (.array .vec4 4),
        plain .color (.array .vec4 4),
        plain .texMtx (.array (.struct .mat4x3) textureMatrices),
        plain .postTexMtx (.array (.struct .mat4x3) postMatrices),
        plain .textureParams (.array .vec4 textureSlots),
        plain .indTexMtx (.array (.struct .mat4x2) indirectMatrices)]],
    [.struct .packetParams [plain .posMtx (.array (.struct .mat4x3) positionMatrices)]],
    [.global 0 0 true .scene (.struct .sceneParams),
      .global 0 1 true .material (.struct .materialParams),
      .global 0 2 true .packet (.struct .packetParams)]]

/-- The products of matrices and vectors. -/
def products : Source :=
  [[.function .none .mulMat4x3 [(.matrixArg, .struct .mat4x3), (.vectorArg, .vec4)] .vec3
      [.return (call3 .vec3 (row .mx) (row .my) (row .mz))]],
    [.function .none .mulMat4x2 [(.matrixArg, .struct .mat4x2), (.vectorArg, .vec4)] .vec2
      [.return (call2 .vec2 (row .mx) (row .my))]]]

/-- What passes from vertices to fragments: the position, two colors, and the coordinates. -/
def vertexOutput (p : Program) : List MemberDecl :=
  ⟨.screen, .position, .vec4⟩ :: located 0 (.channel 0) .vec4 :: located 1 (.channel 1) .vec4 ::
    (List.range p.coordGens.length).map fun i => located (2 + i) (.coord i) .vec3

/-- What both shaders of a program declare. -/
def common (p : Program) : Source :=
  blocks ++ products ++ [[.struct .vertexOutput (vertexOutput p)]]

end Shader
end FixedFunction
