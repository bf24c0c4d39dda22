import FixedFunction.Program.Basic

/-!
# Combiner arithmetic

The arithmetic of one component of a combiner stage, and the wraparound of the registers.  It is
written once for any kind of number, so that it can be run on machine numbers and reasoned about
on exact ones.

**Results.**
* `combine`: one component of a combiner half.
* `wrapColor`, `wrapAlpha`: the wraparound of a color component and of alpha.
-/

namespace FixedFunction

/-- The kinds of numbers that the combiner can be evaluated on. -/
class Scalar (α : Type) extends Add α, Sub α, Mul α, Div α where
  /-- The number of an integer. -/
  ofInt : Int → α
  /-- The greatest integer that is not above. -/
  floor : α → α
  /-- The integer next to a number on the side of zero, as a word of 32 bits. -/
  truncate : α → Int
  /-- Whether a number is below another. -/
  lt : α → α → Bool

instance : Scalar Float32 where
  ofInt n := Int64.toFloat32 (.ofInt n)
  floor := Float32.floor
  truncate x := x.toInt32.toInt
  lt x y := x < y

namespace Combiner

variable {α : Type} [Scalar α]

open Scalar (ofInt lt)

/-- The part of a number behind the point. -/
def fract (x : α) : α :=
  x - Scalar.floor x

/-- A color component after it went through a register of eight bits: in units of 1/256 of the
register's range the integral part is lost. -/
def wrapColor (x : α) : α :=
  fract (x * (ofInt 255 / ofInt 256)) * (ofInt 256 / ofInt 255)

/-- Alpha after it went through a register of eight bits: the register holds the truncated value in
steps of 1/255, and keeps its sign. -/
def wrapAlpha (x : α) : α :=
  ofInt ((Scalar.truncate (x * ofInt 255)).tmod 256) / ofInt 255

/-- A color after it went through a register. -/
def wrap (v : Vector α 4) : Vector α 4 :=
  #v[wrapColor v[0], wrapColor v[1], wrapColor v[2], wrapAlpha v[3]]

/-- The mix of two numbers, with share `c` of the second. -/
def mix (a b c : α) : α :=
  a * (ofInt 1 - c) + b * c

/-- Brings a number into [0, 1]. -/
def saturate (x : α) : α :=
  let x := if lt x (ofInt 0) then ofInt 0 else x
  if lt (ofInt 1) x then ofInt 1 else x

/-- One component of a half, before it is brought into [0, 1]. -/
def evaluate (op : Operation) (a b c d bias scale : α) : α :=
  match op with
  | .add => (mix a b c + d + bias) * scale
  | .sub => (mix a b c - d + bias) * scale
  | .greater => if lt b a then c else ofInt 0

/-- One component of a half.  The first three operands already went through a register. -/
def combine (op : Operation) (a b c d bias scale : α) (clamp : Bool) : α :=
  let x := evaluate op a b c d bias scale
  if clamp then saturate x else x

end Combiner
end FixedFunction
