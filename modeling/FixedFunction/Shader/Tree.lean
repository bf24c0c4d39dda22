import FixedFunction.Field.Combiner

/-!
# Shaders as trees

The declarations, statements and expressions that shaders of this library are made of.  Names are
values of a type, one constructor for each family of names, so that it can be said which names a
statement declares and which it mentions.  Calls have a fixed number of arguments, and brackets
are part of a tree, so that writing a tree out adds nothing.
-/

namespace FixedFunction
namespace Shader

/-- An input of a combiner stage. -/
inductive StageInput where
  | a | b | c | d
deriving DecidableEq

/-- The name of a variable. -/
inductive Ident where
  /-- The parameters of a frame. -/
  | scene
  /-- The parameters of a material. -/
  | material
  /-- The parameters of a draw call. -/
  | packet
  /-- What a shader receives. -/
  | input
  /-- What a shader returns. -/
  | output
  /-- The position matrix of a vertex. -/
  | positionMatrix
  /-- The transformed position of a vertex. -/
  | transformed
  /-- A combiner register. -/
  | register (r : Register)
  /-- The coordinate at which stages sample. -/
  | coord
  /-- The coordinate of a stage before it is wrapped. -/
  | coordBase (stage : Nat)
  /-- The texture sample of a stage. -/
  | sample (stage : Nat)
  /-- An input of a stage. -/
  | operand (stage : Nat) (i : StageInput)
  /-- An indirect sample. -/
  | indirect (stage : Nat)
  | texture (t : UInt8)
  /-- The sampler of a texture. -/
  | sampler (t : UInt8)
  /-- The matrix of a product. -/
  | matrixArg
  /-- The vector of a product, or the vector that wraps. -/
  | vectorArg
  /-- The number that wraps. -/
  | scalarArg
deriving DecidableEq

/-- The name of a member of a structure. -/
inductive Member where
  | mx | my | mz
  | projection | misc0
  | colorMatReg | colorAmbReg | konstColor | color | texMtx | postTexMtx | textureParams
  | indTexMtx
  | posMtx
  | position
  | channel (i : Nat)
  | coord (i : Nat)
  | pnMtxIdx | normal | binormal | tangent
  | tex (i : Nat)
deriving DecidableEq

/-- One component of a vector. -/
inductive Component where
  | x | y | z | w | r | g | b | a
deriving DecidableEq

/-- The name of a structure. -/
inductive StructName where
  | mat4x3 | mat4x2 | sceneParams | materialParams | packetParams | vertexOutput | vertexData
  | fragmentOutput
deriving DecidableEq

/-- A type. -/
inductive Ty where
  | f32
  | vec2
  | vec3
  | vec4
  | mat4x4
  | struct (s : StructName)
  | array (element : Ty) (size : Nat)
  | texture
  | sampler
deriving DecidableEq

/-- The name of a function, built in or declared. -/
inductive Fn where
  | vec2 | vec3 | vec4 | toF32 | toI32 | toU32 | dot | fract | normalize | saturate | mix | select
  | sampleBias
  | new (s : StructName)
  | mulMat4x3 | mulMat4x2 | overflow | overflowScalar | vertexMain | fragmentMain
deriving DecidableEq

/-- A binary operator. -/
inductive Operator where
  | add | sub | mul | div | rem | lt | le | gt | ge | eq | ne | and | or
deriving DecidableEq

/-- An expression. -/
inductive Expr where
  | lit (x : Float32)
  | int (n : Nat)
  | bool (b : Bool)
  | var (n : Ident)
  | member (e : Expr) (m : Member)
  | swizzle (e : Expr) (cs : List Component)
  /-- The element with a constant number. -/
  | index (e : Expr) (i : Nat)
  /-- The element with a computed number. -/
  | element (e i : Expr)
  | paren (e : Expr)
  | not (e : Expr)
  | binary (op : Operator) (a b : Expr)
  | call0 (f : Fn)
  | call1 (f : Fn) (a : Expr)
  | call2 (f : Fn) (a b : Expr)
  | call3 (f : Fn) (a b c : Expr)
  | call4 (f : Fn) (a b c d : Expr)
deriving DecidableEq

namespace Expr

instance : Add Expr := ⟨binary .add⟩
instance : Sub Expr := ⟨binary .sub⟩
instance : Mul Expr := ⟨binary .mul⟩
instance : Div Expr := ⟨binary .div⟩
instance : Mod Expr := ⟨binary .rem⟩

end Expr

/-- What an assignment changes. -/
inductive Place where
  | var (n : Ident)
  | member (n : Ident) (m : Member)
  | component (n : Ident) (c : Component)
deriving DecidableEq

/-- A statement. -/
inductive Stmt where
  /-- Declares a constant. -/
  | bind (n : Ident) (e : Expr)
  /-- Declares a variable. -/
  | declare (n : Ident) (e : Expr)
  | assign (p : Place) (e : Expr)
  | addAssign (p : Place) (e : Expr)
  /-- Drops the fragment if the condition holds. -/
  | discardIf (e : Expr)
  | return (e : Expr)
  /-- A remark: the statements that follow belong to a combiner stage. -/
  | remark (stage : Nat)
deriving DecidableEq

/-- How a member of a structure is connected with the rest of the pipeline. -/
inductive Link where
  | none
  /-- The position on the screen. -/
  | screen
  | location (i : Nat)
deriving DecidableEq

/-- A member of a structure. -/
structure MemberDecl where
  /-- How it is connected. -/
  link : Link
  name : Member
  type : Ty
deriving DecidableEq

/-- The part of the pipeline that a function is the entry of. -/
inductive Entry where
  | none | vertex | fragment
deriving DecidableEq

/-- A declaration. -/
inductive Decl where
  | struct (name : StructName) (members : List MemberDecl)
  | global (group binding : Nat) (uniform : Bool) (name : Ident) (type : Ty)
  | function (entry : Entry) (name : Fn) (params : List (Ident × Ty)) (result : Ty)
      (body : List Stmt)
deriving DecidableEq

/-- The source of a shader: groups of declarations. -/
abbrev Source := List (List Decl)

end Shader
end FixedFunction
