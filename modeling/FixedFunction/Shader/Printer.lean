import FixedFunction.Shader.Tree
import FixedFunction.Decimal.Shortest

/-!
# Shaders as texts

**Results.**
* `Source.text`: a shader as a text.  Groups of declarations are set apart by an empty line, and
  the statements of a body are indented by four blanks.
-/

namespace FixedFunction
namespace Shader

/-- An input of a stage. -/
def StageInput.text : StageInput → String
  | a => "a"
  | b => "b"
  | c => "c"
  | d => "d"

/-- The variable of a register. -/
def registerText : Register → String
  | .prev => "t_color_prev"
  | .reg0 => "t_color0"
  | .reg1 => "t_color1"
  | .reg2 => "t_color2"

/-- A variable. -/
def Ident.text : Ident → String
  | scene => "u_scene"
  | material => "u_material"
  | packet => "u_packet"
  | input => "in"
  | output => "out"
  | positionMatrix => "pos_mtx"
  | transformed => "t_position"
  | register r => registerText r
  | coord => "t_tex_coord"
  | coordBase k => s!"t_tex_coord_base{k}"
  | sample k => s!"t_tex{k}"
  | operand k i => s!"t_tev{k}_{i.text}"
  | indirect k => s!"t_ind_tex_coord{k}"
  | texture t => s!"r_texture{t}"
  | sampler t => s!"r_sampler{t}"
  | matrixArg => "m"
  | vectorArg => "v"
  | scalarArg => "a"

/-- A member. -/
def Member.text : Member → String
  | mx => "mx"
  | my => "my"
  | mz => "mz"
  | projection => "projection"
  | misc0 => "misc0"
  | colorMatReg => "color_mat_reg"
  | colorAmbReg => "color_amb_reg"
  | konstColor => "konst_color"
  | color => "color"
  | texMtx => "tex_mtx"
  | postTexMtx => "post_tex_mtx"
  | textureParams => "texture_params"
  | indTexMtx => "ind_tex_mtx"
  | posMtx => "pos_mtx"
  | position => "position"
  | channel i => s!"color{i}"
  | coord i => s!"tex_coord{i}"
  | pnMtxIdx => "pn_mtx_idx"
  | normal => "normal"
  | binormal => "binormal"
  | tangent => "tangent"
  | tex i => s!"tex{i}"

/-- A component. -/
def Component.text : Component → String
  | x => "x"
  | y => "y"
  | z => "z"
  | w => "w"
  | r => "r"
  | g => "g"
  | b => "b"
  | a => "a"

/-- A structure. -/
def StructName.text : StructName → String
  | mat4x3 => "Mat4x3"
  | mat4x2 => "Mat4x2"
  | sceneParams => "SceneParams"
  | materialParams => "MaterialParams"
  | packetParams => "PacketParams"
  | vertexOutput => "VertexOutput"
  | vertexData => "VertexData"
  | fragmentOutput => "FragmentOutput"

/-- A type. -/
def Ty.text : Ty → String
  | f32 => "f32"
  | vec2 => "vec2<f32>"
  | vec3 => "vec3<f32>"
  | vec4 => "vec4<f32>"
  | mat4x4 => "mat4x4<f32>"
  | struct s => s.text
  | array e n => "array<" ++ e.text ++ ", " ++ toString n ++ ">"
  | texture => "texture_2d<f32>"
  | sampler => "sampler"

/-- A function. -/
def Fn.text : Fn → String
  | vec2 => "vec2<f32>"
  | vec3 => "vec3<f32>"
  | vec4 => "vec4<f32>"
  | toF32 => "f32"
  | toI32 => "i32"
  | toU32 => "u32"
  | dot => "dot"
  | fract => "fract"
  | normalize => "normalize"
  | saturate => "saturate"
  | mix => "mix"
  | select => "select"
  | sampleBias => "textureSampleBias"
  | new s => s.text
  | mulMat4x3 => "mul_mat4x3"
  | mulMat4x2 => "mul_mat4x2"
  | overflow => "tev_overflow"
  | overflowScalar => "tev_overflow_scalar"
  | vertexMain => "vs_main"
  | fragmentMain => "fs_main"

/-- An operator. -/
def Operator.text : Operator → String
  | add => "+"
  | sub => "-"
  | mul => "*"
  | div => "/"
  | rem => "%"
  | lt => "<"
  | le => "<="
  | gt => ">"
  | ge => ">="
  | eq => "=="
  | ne => "!="
  | and => "&&"
  | or => "||"

/-- An expression. -/
def Expr.text : Expr → String
  | lit x => Decimal.literal x
  | int n => toString n
  | bool b => if b then "true" else "false"
  | var n => n.text
  | member e m => e.text ++ "." ++ m.text
  | swizzle e cs => e.text ++ "." ++ String.join (cs.map Component.text)
  | index e i => e.text ++ "[" ++ toString i ++ "]"
  | element e i => e.text ++ "[" ++ i.text ++ "]"
  | paren e => "(" ++ e.text ++ ")"
  | not e => "!" ++ e.text
  | binary op a b => a.text ++ " " ++ op.text ++ " " ++ b.text
  | call0 f => f.text ++ "()"
  | call1 f a => f.text ++ "(" ++ a.text ++ ")"
  | call2 f a b => f.text ++ "(" ++ a.text ++ ", " ++ b.text ++ ")"
  | call3 f a b c => f.text ++ "(" ++ a.text ++ ", " ++ b.text ++ ", " ++ c.text ++ ")"
  | call4 f a b c d =>
    f.text ++ "(" ++ a.text ++ ", " ++ b.text ++ ", " ++ c.text ++ ", " ++ d.text ++ ")"

/-- A place. -/
def Place.text : Place → String
  | var n => n.text
  | member n m => n.text ++ "." ++ m.text
  | component n c => n.text ++ "." ++ c.text

/-- A statement as lines. -/
def Stmt.text : Stmt → String
  | bind n e => "    let " ++ n.text ++ " = " ++ e.text ++ ";\n"
  | declare n e => "    var " ++ n.text ++ " = " ++ e.text ++ ";\n"
  | assign p e => "    " ++ p.text ++ " = " ++ e.text ++ ";\n"
  | addAssign p e => "    " ++ p.text ++ " += " ++ e.text ++ ";\n"
  | discardIf e => "    if " ++ e.text ++ " \x7b\n        discard;\n    \x7d\n"
  | .return e => "    return " ++ e.text ++ ";\n"
  | remark k => "    // Stage " ++ toString k ++ "\n"

/-- How a member is connected. -/
def Link.text : Link → String
  | none => ""
  | screen => "@builtin(position) "
  | location i => "@location(" ++ toString i ++ ") "

/-- A member of a structure as a line. -/
def MemberDecl.text (m : MemberDecl) : String :=
  "    " ++ m.link.text ++ m.name.text ++ ": " ++ m.type.text ++ ",\n"

/-- The entry of a part of the pipeline. -/
def Entry.text : Entry → String
  | none => ""
  | vertex => "@vertex\n"
  | fragment => "@fragment\n"

/-- A declaration as lines. -/
def Decl.text : Decl → String
  | struct name members =>
    "struct " ++ name.text ++ " \x7b\n" ++ String.join (members.map MemberDecl.text) ++ "\x7d\n"
  | global group binding uniform name type =>
    "@group(" ++ toString group ++ ") @binding(" ++ toString binding ++ ") var" ++
      (if uniform then "<uniform>" else "") ++ " " ++ name.text ++ ": " ++ type.text ++ ";\n"
  | function entry name params result body =>
    entry.text ++ "fn " ++ name.text ++ "(" ++
      ", ".intercalate (params.map fun p => p.1.text ++ ": " ++ p.2.text) ++ ") -> " ++
      result.text ++ " \x7b\n" ++ String.join (body.map Stmt.text) ++ "\x7d\n"

/-- A shader as a text. -/
def Source.text (m : Source) : String :=
  "\n".intercalate (m.map fun group => String.join (group.map Decl.text))

end Shader
end FixedFunction
