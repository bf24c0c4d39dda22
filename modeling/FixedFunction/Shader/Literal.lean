import FixedFunction.Error
import FixedFunction.Program.Basic

/-!
# Numbers from settings

Most numbers in a shader are the same in all shaders.  The others come from the settings of a
program, and such a number can be written only if it is finite.

**Input.**  A program.

**Results.**
* `literals`: the numbers that the fragment shader takes from settings, in the order of the text.
  The vertex shader takes none.
* `Literal.check`: the refusal of a number that cannot be written.
-/

namespace FixedFunction
namespace Shader

/-- A number that comes from a setting. -/
structure Literal where
  /-- The setting, as a refusal names it. -/
  setting : String
  value : Float32

/-- Refuses a number that is infinite or not a number. -/
def Literal.check (x : Literal) : Except Error Unit :=
  if x.value.isFinite then .ok () else .error (.nonFinite x.setting)

/-- The scales of an indirect sample. -/
def sampleLiterals (s : IndirectSample) : List Literal :=
  match s.texture with
  | some _ =>
    [⟨"ind_tex_scale", 1 / s.scaleS.toUInt32.toFloat32⟩,
      ⟨"ind_tex_scale", 1 / s.scaleT.toUInt32.toFloat32⟩]
  | none => []

/-- The biases of an indirect offset. -/
def offsetLiterals (o : IndirectOffset) : List Literal :=
  [⟨"ind_tex_bias", o.biasS⟩, ⟨"ind_tex_bias", o.biasT⟩, ⟨"ind_tex_bias", o.biasU⟩]

/-- The biases of the coordinate of a stage, if it is used. -/
def coordLiterals (s : Stage) : List Literal :=
  match s.texture, s.coord with
  | some _, some ⟨_, _, _, _, some o⟩ => offsetLiterals o
  | _, _ => []

/-- The number that an operand is. -/
def operandLiterals : Operand → List Literal
  | .constant x => [⟨"tev_constant", x⟩]
  | .register _ _ | .texture _ | .rasterized _ | .konst _ _ => []

/-- Both halves of an input. -/
def pairLiterals (color alpha : Operand) : List Literal :=
  operandLiterals color ++ operandLiterals alpha

/-- The bias and the scale of a half that is written with them. -/
def halfLiterals (h : Half) : List Literal :=
  match h.op with
  | .add | .sub =>
    (if h.bias == 0 then [] else [⟨"tev_bias", h.bias⟩]) ++
      (if h.scale == 1 then [] else [⟨"tev_scale", h.scale⟩])
  | .greater => []

/-- The numbers of a combiner stage. -/
def stageLiterals (s : Stage) : List Literal :=
  coordLiterals s ++
    (pairLiterals s.color.a s.alpha.a ++ pairLiterals s.color.b s.alpha.b ++
      pairLiterals s.color.c s.alpha.c ++ pairLiterals s.color.d s.alpha.d) ++
    (halfLiterals s.color ++ halfLiterals s.alpha)

/-- The reference of a comparison that looks at it. -/
def comparisonLiterals (c : Comparison) (x : Float32) : List Literal :=
  match c with
  | .never | .always => []
  | .less | .equal | .lessEqual | .greater | .notEqual | .greaterEqual => [⟨"alpha_test", x⟩]

/-- The references of an alpha test. -/
def alphaLiterals : AlphaCheck → List Literal
  | .keepAll | .dropAll => []
  | .compare _ a x b y => comparisonLiterals a x ++ comparisonLiterals b y

/-- The numbers that the fragment shader of a program takes from settings. -/
def literals (p : Program) : List Literal :=
  p.indirectSamples.flatMap sampleLiterals ++ p.stages.flatMap stageLiterals ++
    alphaLiterals p.alphaCheck

end Shader
end FixedFunction
