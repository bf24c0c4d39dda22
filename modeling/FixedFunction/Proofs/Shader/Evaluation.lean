import FixedFunction.Shader.Tree
import Mathlib.Data.List.Defs
import Mathlib.Logic.Function.Basic

/-!
# Evaluating shaders

What the statements of a shader do to its variables, for any arithmetic: nothing is assumed of the
operations on numbers, of the wraparound of registers, or of textures.

**Algorithm.**  A vector is the list of its components, and a number a vector of one component.
Operators work on components, a number counting for all components of the other operand.
Statements change one variable each.  A fragment that is dropped still runs to the end, so that
dropping it changes no variable.

**Results.**
* `Expr.eval`: the value of an expression.
* `run`: the variables after some statements.
-/

namespace FixedFunction
namespace Shader

/-- Two components. -/
structure Vec2 (σ : Type) where
  x : σ
  y : σ

/-- Three components, named as those of a color. -/
structure Vec3 (σ : Type) where
  r : σ
  g : σ
  b : σ

/-- Four components, named as those of a color. -/
structure Vec4 (σ : Type) where
  r : σ
  g : σ
  b : σ
  a : σ

/-- The operations on numbers `σ` that shaders are evaluated with. -/
structure Arithmetic (σ : Type) where
  lit : Float32 → σ
  int : Nat → σ
  add : σ → σ → σ
  sub : σ → σ → σ
  mul : σ → σ → σ
  div : σ → σ → σ
  rem : σ → σ → σ
  /-- Whether two numbers compare as an operator says. -/
  compare : Operator → σ → σ → Bool
  mix : σ → σ → σ → σ
  saturate : σ → σ
  /-- The sum of the products of the components. -/
  dot : List σ → List σ → σ
  /-- The wraparound of a register. -/
  overflow : Vec4 σ → Vec4 σ
  /-- What a texture gives with a sampler, at a coordinate and with a level bias. -/
  sample : UInt8 → UInt8 → Vec2 σ → σ → Vec4 σ
  /-- The number of an element of an array. -/
  place : σ → Nat
  /-- Any other function. -/
  call : Fn → List (List σ) → List σ

/-- A value. -/
inductive Value (σ : Type) where
  /-- A number or a vector. -/
  | vector (xs : List σ)
  | bool (b : Bool)
  | record (members : Member → Value σ)
  | array (elements : Nat → Value σ)
  | texture (t : UInt8)
  | sampler (t : UInt8)

variable {σ : Type}

def Vec2.list (v : Vec2 σ) : List σ :=
  [v.x, v.y]

def Vec3.list (v : Vec3 σ) : List σ :=
  [v.r, v.g, v.b]

def Vec4.list (v : Vec4 σ) : List σ :=
  [v.r, v.g, v.b, v.a]

/-- The place of a component in a vector. -/
def Component.place : Component → Nat
  | x | r => 0
  | y | g => 1
  | z | b => 2
  | w | a => 3

/-- Some components of a vector. -/
def components (xs : List σ) (cs : List Component) : List σ :=
  cs.filterMap fun c => xs[c.place]?

/-- One component of a vector of four. -/
def Vec4.get (v : Vec4 σ) : Component → σ
  | .x | .r => v.r
  | .y | .g => v.g
  | .z | .b => v.b
  | .w | .a => v.a

theorem components_list (v : Vec4 σ) (cs : List Component) :
    components v.list cs = cs.map v.get := by
  induction cs with
  | nil => rfl
  | cons c cs ih =>
    rw [List.map_cons, ← ih]
    cases c <;> rfl

/-- An operation on the components of two vectors.  A single number counts for all of them. -/
def broadcast (f : σ → σ → σ) : List σ → List σ → List σ
  | [x], ys => ys.map (f x)
  | xs, [y] => xs.map (f · y)
  | xs, ys => xs.zipWith f ys

theorem broadcast_single (f : σ → σ → σ) (xs : List σ) (y : σ) :
    broadcast f xs [y] = xs.map (f · y) := by
  rcases xs with _ | ⟨x, _ | ⟨x', xs⟩⟩ <;> rfl

theorem broadcast_map {α : Type} (f : σ → σ → σ) (g h : α → σ) (l : List α) :
    broadcast f (l.map g) (l.map h) = l.map fun x => f (g x) (h x) := by
  rcases l with _ | ⟨x, _ | ⟨x', l⟩⟩
  · rfl
  · rfl
  · change List.zipWith f ((x :: x' :: l).map g) ((x :: x' :: l).map h) = _
    rw [List.zipWith_map, List.zipWith_self]

theorem zipWith3_map {α : Type} (f : σ → σ → σ → σ) (g h j : α → σ) (l : List α) :
    List.zipWith3 f (l.map g) (l.map h) (l.map j) = l.map fun x => f (g x) (h x) (j x) := by
  induction l with
  | nil => rfl
  | cons x l ih => exact congrArg _ ih

/-- A vector of `n` components.  A single number counts for all of them. -/
def construct (n : Nat) : List σ → List σ
  | [x] => List.replicate n x
  | xs => xs

namespace Value

def list : Value σ → List σ
  | vector xs => xs
  | _ => []

def truth : Value σ → Bool
  | bool b => b
  | _ => false

def member (m : Member) : Value σ → Value σ
  | record members => members m
  | _ => vector []

def element (i : Nat) : Value σ → Value σ
  | array elements => elements i
  | _ => vector []

/-- A record with another member. -/
def setMember (m : Member) (old new : Value σ) : Value σ :=
  match old with
  | record members => record (Function.update members m new)
  | _ => old

theorem member_setMember (members : Member → Value σ) (m : Member) (new : Value σ) :
    ((record members).setMember m new).member m = new :=
  Function.update_self _ _ _

/-- A vector with another component. -/
def setComponent (c : Component) (old new : Value σ) : Value σ :=
  match old, new with
  | vector xs, vector [x] => vector (xs.set c.place x)
  | _, _ => old

end Value

namespace Arithmetic

variable (A : Arithmetic σ)

def compared (op : Operator) : Value σ → Value σ → Value σ
  | .vector [x], .vector [y] => .bool (A.compare op x y)
  | v, w => .bool (if op = .eq then v.truth == w.truth else v.truth != w.truth)

def operate (op : Operator) (v w : Value σ) : Value σ :=
  match op with
  | .add => .vector (broadcast A.add v.list w.list)
  | .sub => .vector (broadcast A.sub v.list w.list)
  | .mul => .vector (broadcast A.mul v.list w.list)
  | .div => .vector (broadcast A.div v.list w.list)
  | .rem => .vector (broadcast A.rem v.list w.list)
  | .and => .bool (v.truth && w.truth)
  | .or => .bool (v.truth || w.truth)
  | .lt | .le | .gt | .ge | .eq | .ne => A.compared op v w

/-- The wraparound of the components of a register. -/
def overflowed : List σ → List σ
  | [r, g, b, a] => (A.overflow ⟨r, g, b, a⟩).list
  | xs => xs

def apply1 (f : Fn) (v : Value σ) : Value σ :=
  match f with
  | .vec2 => .vector (construct 2 v.list)
  | .vec3 => .vector (construct 3 v.list)
  | .vec4 => .vector (construct 4 v.list)
  | .saturate => .vector (v.list.map A.saturate)
  | .overflow => .vector (A.overflowed v.list)
  | f => .vector (A.call f [v.list])

/-- The value of a function of two arguments.  The product of a matrix and a vector has the dot
products of the rows and the vector as its components. -/
def apply2 (f : Fn) (v w : Value σ) : Value σ :=
  match f with
  | .vec2 | .vec3 | .vec4 => .vector (v.list ++ w.list)
  | .dot => .vector [A.dot v.list w.list]
  | .mulMat4x3 =>
    .vector [A.dot (v.member .mx).list w.list, A.dot (v.member .my).list w.list,
      A.dot (v.member .mz).list w.list]
  | .mulMat4x2 => .vector [A.dot (v.member .mx).list w.list, A.dot (v.member .my).list w.list]
  | f => .vector (A.call f [v.list, w.list])

def apply3 (f : Fn) (u v w : Value σ) : Value σ :=
  match f with
  | .vec3 | .vec4 => .vector (u.list ++ v.list ++ w.list)
  | .mix => .vector (List.zipWith3 A.mix u.list v.list w.list)
  | .select => if w.truth then v else u
  | f => .vector (A.call f [u.list, v.list, w.list])

/-- The value of a texture sample. -/
def sampled : Value σ → Value σ → List σ → List σ → Value σ
  | .texture t, .sampler u, [x, y], [bias] => .vector (A.sample t u ⟨x, y⟩ bias).list
  | _, _, _, _ => .vector []

def apply4 (f : Fn) (t u v w : Value σ) : Value σ :=
  match f with
  | .sampleBias => A.sampled t u v.list w.list
  | f => .vector (A.call f [t.list, u.list, v.list, w.list])

end Arithmetic

abbrev Env (σ : Type) := Ident → Value σ

/-- The value of an expression. -/
@[simp] def Expr.eval (A : Arithmetic σ) (env : Env σ) : Expr → Value σ
  | lit x => .vector [A.lit x]
  | int n => .vector [A.int n]
  | bool b => .bool b
  | var n => env n
  | member e m => (e.eval A env).member m
  | swizzle e cs => .vector (components (e.eval A env).list cs)
  | index e i => (e.eval A env).element i
  | element e i =>
    match (i.eval A env).list with
    | [x] => (e.eval A env).element (A.place x)
    | _ => .vector []
  | paren e => e.eval A env
  | not e => .bool (!(e.eval A env).truth)
  | binary op a b => A.operate op (a.eval A env) (b.eval A env)
  -- The members of a new record are assigned before they are read.
  | call0 _ => .record fun _ => .vector []
  | call1 f a => A.apply1 f (a.eval A env)
  | call2 f a b => A.apply2 f (a.eval A env) (b.eval A env)
  | call3 f a b c => A.apply3 f (a.eval A env) (b.eval A env) (c.eval A env)
  | call4 f a b c d =>
    A.apply4 f (a.eval A env) (b.eval A env) (c.eval A env) (d.eval A env)

/-- The variables after a value is stored in a place. -/
def Place.store (env : Env σ) (v : Value σ) : Place → Env σ
  | var n => Function.update env n v
  | member n m => Function.update env n ((env n).setMember m v)
  | component n c => Function.update env n ((env n).setComponent c v)

/-- The value in a place. -/
def Place.load (env : Env σ) : Place → Value σ
  | var n => env n
  | member n m => (env n).member m
  | component n c => .vector (components (env n).list [c])

/-- The variables after a statement. -/
def Stmt.exec (A : Arithmetic σ) (env : Env σ) : Stmt → Env σ
  | bind n e | declare n e => Function.update env n (e.eval A env)
  | assign p e => p.store env (e.eval A env)
  | addAssign p e => p.store env (A.operate .add (p.load env) (e.eval A env))
  | discardIf _ | .return _ | remark _ => env

/-- The variables after some statements. -/
def run (A : Arithmetic σ) (env : Env σ) (body : List Stmt) : Env σ :=
  body.foldl (Stmt.exec A) env

section Run

variable {A : Arithmetic σ} {env : Env σ}

theorem run_stmts_append (body rest : List Stmt) :
    run A env (body ++ rest) = run A (run A env body) rest :=
  List.foldl_append

theorem run_bind {n : Ident} {x : Expr} {v : Value σ} (hx : x.eval A env = v) (rest : List Stmt) :
    run A env (.bind n x :: rest) = run A (Function.update env n v) rest := by
  rw [← hx]
  rfl

theorem run_assign {n : Place} {x : Expr} {v : Value σ} (hx : x.eval A env = v)
    (rest : List Stmt) : run A env (.assign n x :: rest) = run A (n.store env v) rest := by
  rw [← hx]
  rfl

theorem run_return (x : Expr) : run A env [.return x] = env :=
  rfl

end Run

end Shader
end FixedFunction
