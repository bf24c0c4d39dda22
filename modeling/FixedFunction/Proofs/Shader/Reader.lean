import FixedFunction.Proofs.Decimal.Reading
import FixedFunction.Proofs.Shader.Names

/-!
# Shader texts as trees

**Input.**  The text of a shader, laid out as the shaders of this library are.

**Algorithm.**  Recursive descent.  An expression is a row of operands with operators between them,
and each operator takes what stands before it as far as its precedence goes.  Operands within
operands use up fuel, and a text has fewer of them than characters.

**Results.**
* `Source.read?`: the declarations that a text consists of.
* `entryBody?`: the statements that are executed in a part of the pipeline.
-/

namespace FixedFunction
namespace Shader

/-! ### Characters -/

section Characters

variable {α : Type}

/-- Reads the characters of a given text. -/
def expect (s : String) (cs : List Char) : Option (List Char) :=
  cs.dropPrefix? s.toList

/-- Repeats a step as long as it succeeds.  Each step takes at least one character. -/
def iterate (step : α → List Char → Option (α × List Char)) : Nat → α → List Char → α × List Char
  | 0, a, cs => (a, cs)
  | fuel + 1, a, cs =>
    match step a cs with
    | some (a, cs) => iterate step fuel a cs
    | none => (a, cs)

/-- Reads as many items as there are, behind those already read. -/
def items (item : List Char → Option (α × List Char)) (front : List α) (cs : List Char) :
    List α × List Char :=
  iterate (fun front cs => (item cs).map fun r => (front ++ [r.1], r.2)) cs.length front cs

/-- Reads items with commas between them. -/
def listed (item : List Char → Option (α × List Char)) (cs : List Char) : List α × List Char :=
  match item cs with
  | some (a, cs) => items (fun cs => (expect ", " cs).bind item) [a] cs
  | none => ([], cs)

/-- Reads a natural number. -/
def natural (cs : List Char) : Option (Nat × List Char) :=
  (Json.digits cs).map fun r => (Json.digitsValue r.1, r.2)

/-- The characters of names. -/
def isWord (c : Char) : Bool :=
  c.isAlphanum || c = '_'

/-- Reads the characters of a name, if there are any. -/
def word (cs : List Char) : String × List Char :=
  (String.ofList (cs.takeWhile isWord), cs.dropWhile isWord)

/-- Reads the name of a type or of a function.  The parameter of a type belongs to its name. -/
def name (cs : List Char) : String × List Char :=
  let (w, cs) := word cs
  match expect "<f32>" cs with
  | some cs => (w ++ "<f32>", cs)
  | none => (w, cs)

end Characters

/-! ### Names -/

/-- The variable with a given name, if there is one. -/
def Ident.read? (s : String) : Option Ident :=
  if (ofText s).text = s then some (ofText s) else none

/-- The member with a given name, if there is one. -/
def Member.read? (s : String) : Option Member :=
  if (ofText s).text = s then some (ofText s) else none

/-- The component that a letter stands for. -/
def Component.read? (c : Char) : Option Component :=
  [x, y, z, w, r, g, b, a].find? (·.text = String.singleton c)

def StructName.all : List StructName :=
  [mat4x3, mat4x2, sceneParams, materialParams, packetParams, vertexOutput, vertexData,
    fragmentOutput]

/-- The structure with a given name. -/
def StructName.read? (s : String) : Option StructName :=
  all.find? (·.text = s)

/-- The type with a given name. -/
def Ty.read? (s : String) : Option Ty :=
  ([f32, vec2, vec3, vec4, mat4x4, texture, sampler] ++ StructName.all.map struct).find?
    (·.text = s)

/-- The function with a given name. -/
def Fn.read? (s : String) : Option Fn :=
  ([vec2, vec3, vec4, toF32, toI32, toU32, dot, fract, normalize, saturate, mix, select,
    sampleBias, mulMat4x3, mulMat4x2, overflow, overflowScalar, vertexMain, fragmentMain] ++
    StructName.all.map new).find? (·.text = s)

/-! ### Expressions -/

/-- How tightly an operator binds. -/
def Operator.level : Operator → Nat
  | and | or => 0
  | lt | le | gt | ge | eq | ne => 1
  | add | sub => 2
  | mul | div | rem => 3

def Operator.all : List Operator :=
  [add, sub, mul, div, rem, lt, le, gt, ge, eq, ne, and, or]

/-- An operator with blanks around it. -/
def Operator.symbol (op : Operator) : String :=
  " " ++ op.text ++ " "

/-- Reads an operator. -/
def operator (cs : List Char) : Option (Operator × List Char) :=
  Operator.all.findSome? fun op => (expect op.symbol cs).map fun cs => (op, cs)

namespace Expr

/-- An expression that goes on with an operator and an operand.  The operator takes the last operand
away from the operators that bind less tightly. -/
def extend : Expr → Operator → Expr → Expr
  | binary op a b, op', c =>
    if op.level < op'.level then binary op a (b.extend op' c) else binary op' (binary op a b) c
  | e, op', c => binary op' e c

/-- What stands behind a point is a component, or several, or else a member. -/
def select? (e : Expr) (s : String) : Option Expr :=
  match s.toList.mapM Component.read? with
  | some (c :: cs) => some (swizzle e (c :: cs))
  | _ => (Member.read? s).map (member e)

/-- An element with a number. -/
def «at» (e : Expr) : Expr → Expr
  | int n => index e n
  | i => element e i

/-- A call with a list of arguments. -/
def call? (f : Fn) : List Expr → Option Expr
  | [] => some (call0 f)
  | [a] => some (call1 f a)
  | [a, b] => some (call2 f a b)
  | [a, b, c] => some (call3 f a b c)
  | [a, b, c, d] => some (call4 f a b c d)
  | _ => none

/-- A word that is not the name of a function. -/
def ofWord? (s : String) : Option Expr :=
  if s = "true" then some (bool true)
  else if s = "false" then some (bool false)
  else (Ident.read? s).map var

end Expr

open Shader.Expr

/-- Reads a number.  Only the others have a sign: whole numbers count something. -/
def number (negative : Bool) (cs : List Char) : Option (Expr × List Char) :=
  match Decimal.decimal cs with
  | some ((n, some k), cs) => some (lit (Decimal.single negative n k), cs)
  | some ((n, none), cs) => if negative then none else some (int n, cs)
  | none => none

section Operands

variable (operand : List Char → Option (Expr × List Char))

/-- Reads an operator and an operand behind an expression. -/
def extension (e : Expr) (cs : List Char) : Option (Expr × List Char) := do
  let (op, cs) ← operator cs
  let (b, cs) ← operand cs
  return (e.extend op b, cs)

/-- Reads an expression. -/
def expression (cs : List Char) : Option (Expr × List Char) := do
  let (e, cs) ← operand cs
  return iterate (extension operand) cs.length e cs

/-- Reads what is selected of an expression. -/
def selection (e : Expr) : List Char → Option (Expr × List Char)
  | '.' :: cs => do
    let (w, cs) := word cs
    let e ← e.select? w
    return (e, cs)
  | '[' :: cs => do
    let (i, cs) ← expression operand cs
    let cs ← expect "]" cs
    return (e.at i, cs)
  | _ => none

/-- Reads a call or a variable behind its name. -/
def named (w : String) : List Char → Option (Expr × List Char)
  | '(' :: cs => do
    let f ← Fn.read? w
    let (args, cs) := listed (expression operand) cs
    let cs ← expect ")" cs
    let e ← call? f args
    return (e, cs)
  | cs => (ofWord? w).map fun e => (e, cs)

/-- Reads a call, a variable, or what stands in brackets. -/
def primary : List Char → Option (Expr × List Char)
  | '(' :: cs => do
    let (e, cs) ← expression operand cs
    let cs ← expect ")" cs
    return (paren e, cs)
  | cs =>
    let (w, cs) := name cs
    named operand w cs

/-- Reads an operand, given a reader for the operands within it. -/
def signed : List Char → Option (Expr × List Char)
  | '!' :: cs => (operand cs).map fun r => (not r.1, r.2)
  | '-' :: cs => number true cs
  | cs =>
    if cs.head?.any Char.isDigit then number false cs
    else do
      let (e, cs) ← primary operand cs
      return iterate (selection operand) cs.length e cs

end Operands

/-- Reads an operand. -/
def operand : Nat → List Char → Option (Expr × List Char)
  | 0 => fun _ => none
  | fuel + 1 => signed (operand fuel)

/-- Reads an expression. -/
def Expr.read (cs : List Char) : Option (Expr × List Char) :=
  expression (operand (cs.length + 1)) cs

/-! ### Statements -/

/-- Reads what an assignment changes. -/
def Place.read (cs : List Char) : Option (Place × List Char) := do
  let (w, cs) := word cs
  let n ← Ident.read? w
  match cs with
  | '.' :: cs =>
    let (w, cs) := word cs
    match w.toList.mapM Component.read? with
    | some [c] => return (component n c, cs)
    | _ => (Member.read? w).map fun m => (member n m, cs)
  | cs => return (var n, cs)

/-- Reads the name and the value of a declaration. -/
def definition (cs : List Char) : Option ((Ident × Expr) × List Char) := do
  let cs ← expect " " cs
  let (w, cs) := word cs
  let n ← Ident.read? w
  let cs ← expect " = " cs
  let (e, cs) ← Expr.read cs
  let cs ← expect ";\n" cs
  return ((n, e), cs)

/-- Reads an assignment. -/
def assignment (cs : List Char) : Option (Stmt × List Char) := do
  let (p, cs) ← Place.read cs
  match expect " = " cs with
  | some cs =>
    let (e, cs) ← Expr.read cs
    let cs ← expect ";\n" cs
    return (.assign p e, cs)
  | none =>
    let cs ← expect " += " cs
    let (e, cs) ← Expr.read cs
    let cs ← expect ";\n" cs
    return (.addAssign p e, cs)

/-- The words that other statements begin with. -/
def keywords : List String :=
  ["let", "var", "if", "return"]

/-- Reads a statement behind its first word. -/
def Stmt.readBehind : String → List Char → Option (Stmt × List Char)
  | "let", cs => (definition cs).map fun r => (bind r.1.1 r.1.2, r.2)
  | "var", cs => (definition cs).map fun r => (declare r.1.1 r.1.2, r.2)
  | "if", cs => do
    let cs ← expect " " cs
    let (e, cs) ← Expr.read cs
    let cs ← expect " \x7b\n        discard;\n    \x7d\n" cs
    return (discardIf e, cs)
  | "return", cs => do
    let cs ← expect " " cs
    let (e, cs) ← Expr.read cs
    let cs ← expect ";\n" cs
    return (.return e, cs)
  | _, _ => none

/-- Reads a remark behind its first words. -/
def Stmt.readRemark (cs : List Char) : Option (Stmt × List Char) := do
  let (k, cs) ← natural cs
  let cs ← expect "\n" cs
  return (remark k, cs)

/-- Reads a statement. -/
def Stmt.read (cs : List Char) : Option (Stmt × List Char) := do
  let cs ← expect "    " cs
  match expect "// Stage " cs with
  | some cs => readRemark cs
  | none =>
    let (w, rest) := word cs
    if w ∈ keywords then readBehind w rest else assignment cs

/-! ### Declarations -/

/-- Reads a type. -/
def Ty.readWith : Nat → List Char → Option (Ty × List Char)
  | 0, _ => none
  | fuel + 1, cs => do
    let (w, cs) := name cs
    if w = "array" then
      let cs ← expect "<" cs
      let (t, cs) ← readWith fuel cs
      let cs ← expect ", " cs
      let (k, cs) ← natural cs
      let cs ← expect ">" cs
      return (array t k, cs)
    else
      let t ← read? w
      return (t, cs)

/-- Reads a type. -/
def Ty.read (cs : List Char) : Option (Ty × List Char) :=
  readWith (cs.length + 1) cs

/-- Reads how a member is connected. -/
def Link.read (cs : List Char) : Option (Link × List Char) :=
  match expect "@builtin(position) " cs with
  | some cs => some (screen, cs)
  | .none =>
    match expect "@location(" cs with
    | some cs => do
      let (k, cs) ← natural cs
      let cs ← expect ") " cs
      return (location k, cs)
    | .none => some (Link.none, cs)

/-- Reads a member of a structure. -/
def MemberDecl.read (cs : List Char) : Option (MemberDecl × List Char) := do
  let cs ← expect "    " cs
  let (link, cs) ← Link.read cs
  let (w, cs) := word cs
  let name ← Member.read? w
  let cs ← expect ": " cs
  let (type, cs) ← Ty.read cs
  let cs ← expect ",\n" cs
  return (⟨link, name, type⟩, cs)

/-- Reads a parameter of a function. -/
def parameter (cs : List Char) : Option ((Ident × Ty) × List Char) := do
  let (w, cs) := word cs
  let n ← Ident.read? w
  let cs ← expect ": " cs
  let (t, cs) ← Ty.read cs
  return ((n, t), cs)

/-- Reads which part of the pipeline a function is the entry of. -/
def Entry.read (cs : List Char) : Entry × List Char :=
  match expect "@vertex\n" cs with
  | some cs => (vertex, cs)
  | .none =>
    match expect "@fragment\n" cs with
    | some cs => (fragment, cs)
    | .none => (Entry.none, cs)

namespace Decl

/-- Reads a structure behind its keyword. -/
def readStruct (cs : List Char) : Option (Decl × List Char) := do
  let (w, cs) := word cs
  let name ← StructName.read? w
  let cs ← expect " \x7b\n" cs
  let (members, cs) := items MemberDecl.read [] cs
  let cs ← expect "\x7d\n" cs
  return (struct name members, cs)

/-- Reads whether a global variable is a uniform. -/
def readUniform (cs : List Char) : Bool × List Char :=
  match expect "<uniform>" cs with
  | some cs => (true, cs)
  | none => (false, cs)

/-- Reads a global variable behind the first words. -/
def readGlobal (cs : List Char) : Option (Decl × List Char) := do
  let (group, cs) ← natural cs
  let cs ← expect ") @binding(" cs
  let (binding, cs) ← natural cs
  let cs ← expect ") var" cs
  let (uniform, cs) := readUniform cs
  let cs ← expect " " cs
  let (w, cs) := word cs
  let name ← Ident.read? w
  let cs ← expect ": " cs
  let (type, cs) ← Ty.read cs
  let cs ← expect ";\n" cs
  return (global group binding uniform name type, cs)

/-- Reads a function. -/
def readFunction (cs : List Char) : Option (Decl × List Char) := do
  let (entry, cs) := Entry.read cs
  let cs ← expect "fn " cs
  let (w, cs) := name cs
  let f ← Fn.read? w
  let cs ← expect "(" cs
  let (params, cs) := listed parameter cs
  let cs ← expect ") -> " cs
  let (result, cs) ← Ty.read cs
  let cs ← expect " \x7b\n" cs
  let (body, cs) := items Stmt.read [] cs
  let cs ← expect "\x7d\n" cs
  return (function entry f params result body, cs)

/-- Reads a declaration. -/
def read (cs : List Char) : Option (Decl × List Char) :=
  match expect "struct " cs with
  | some cs => readStruct cs
  | none =>
    match expect "@group(" cs with
    | some cs => readGlobal cs
    | none => readFunction cs

end Decl

/-- Reads a group of declarations behind an empty line. -/
def readGroup (cs : List Char) : Option (List Decl × List Char) :=
  (expect "\n" cs).map (items Decl.read [])

/-- The shader with the given text. -/
def Source.read? (text : String) : Option Source :=
  let (group, cs) := items Decl.read [] text.toList
  let (groups, cs) := items readGroup [group] cs
  if cs.isEmpty then some groups else none

/-- The body of a function that is the entry of the given part of the pipeline. -/
def Decl.entryBody? (part : Entry) : Decl → Option (List Stmt)
  | function entry _ _ _ body => if entry = part then some body else none
  | _ => none

/-- The statements that the shader with a text executes in a part of the pipeline. -/
def entryBody? (part : Entry) (text : String) : Option (List Stmt) :=
  (Source.read? text).bind fun src => src.flatten.findSome? (Decl.entryBody? part)

end Shader
end FixedFunction
