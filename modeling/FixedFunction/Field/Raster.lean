import FixedFunction.Coded

/-!
# Fields of the raster back end

Face culling, depth and alpha comparisons, and what is done with the color that is already in
the frame buffer.
-/

namespace FixedFunction

/-- Which faces are dropped. -/
inductive CullMode where
  | none | front | back | all
deriving DecidableEq

instance : Coded CullMode where
  codes :=
    [⟨.none, "None", 0⟩, ⟨.front, "Front", 1⟩, ⟨.back, "Back", 2⟩, ⟨.all, "All", 3⟩]
  complete a := by cases a <;> decide
  values_nodup := by decide
  names_nodup := by decide
  raws_nodup := by decide

instance : Inhabited CullMode := ⟨.back⟩

/-- A comparison of an incoming value with a reference. -/
inductive Comparison where
  | never | less | equal | lessEqual | greater | notEqual | greaterEqual | always
deriving DecidableEq

instance : Coded Comparison where
  codes :=
    [⟨.never, "Never", 0⟩, ⟨.less, "Less", 1⟩, ⟨.equal, "Equal", 2⟩, ⟨.lessEqual, "LEqual", 3⟩,
      ⟨.greater, "Greater", 4⟩, ⟨.notEqual, "NEqual", 5⟩, ⟨.greaterEqual, "GEqual", 6⟩,
      ⟨.always, "Always", 7⟩]
  complete a := by cases a <;> decide
  values_nodup := by decide
  names_nodup := by decide
  raws_nodup := by decide

instance : Inhabited Comparison := ⟨.always⟩

/-- Whether `x` stands in the relation to `y`.  Every comparison with a number that is not a
number is false, except `notEqual`, which is then true. -/
def Comparison.holds : Comparison → Float32 → Float32 → Bool
  | .never, _, _ => false
  | .less, x, y => x < y
  | .equal, x, y => x == y
  | .lessEqual, x, y => x ≤ y
  | .greater, x, y => y < x
  | .notEqual, x, y => x != y
  | .greaterEqual, x, y => y ≤ x
  | .always, _, _ => true

/-- How the two comparisons of an alpha test are joined. -/
inductive AlphaLogic where
  | and | or | xor | xnor
deriving DecidableEq

instance : Coded AlphaLogic where
  codes :=
    [⟨.and, "And", 0⟩, ⟨.or, "Or", 1⟩, ⟨.xor, "Xor", 2⟩, ⟨.xnor, "Xnor", 3⟩]
  complete a := by cases a <;> decide
  values_nodup := by decide
  names_nodup := by decide
  raws_nodup := by decide

instance : Inhabited AlphaLogic := ⟨.and⟩

/-- The joint outcome of two comparisons. -/
def AlphaLogic.join : AlphaLogic → Bool → Bool → Bool
  | .and, a, b => a && b
  | .or, a, b => a || b
  | .xor, a, b => a != b
  | .xnor, a, b => a == b

/-- How a fragment is joined with the frame buffer. -/
inductive BlendMode where
  | none | blend | logic | subtract
deriving DecidableEq

instance : Coded BlendMode where
  codes :=
    [⟨.none, "None", 0⟩, ⟨.blend, "Blend", 1⟩, ⟨.logic, "Logic", 2⟩, ⟨.subtract, "Subtract", 3⟩]
  complete a := by cases a <;> decide
  values_nodup := by decide
  names_nodup := by decide
  raws_nodup := by decide

instance : Inhabited BlendMode := ⟨.none⟩

/-- A factor of the blend equation.  The color factors read the other side of the equation. -/
inductive BlendFactor where
  | zero | one | srcClr | invSrcClr | srcAlpha | invSrcAlpha | dstAlpha | invDstAlpha
deriving DecidableEq

instance : Coded BlendFactor where
  codes :=
    [⟨.zero, "Zero", 0⟩, ⟨.one, "One", 1⟩, ⟨.srcClr, "SrcClr", 2⟩, ⟨.invSrcClr, "InvSrcClr", 3⟩,
      ⟨.srcAlpha, "SrcAlpha", 4⟩, ⟨.invSrcAlpha, "InvSrcAlpha", 5⟩, ⟨.dstAlpha, "DstAlpha", 6⟩,
      ⟨.invDstAlpha, "InvDstAlpha", 7⟩]
  complete a := by cases a <;> decide
  values_nodup := by decide
  names_nodup := by decide
  raws_nodup := by decide

instance : Inhabited BlendFactor := ⟨.one⟩

/-- A bitwise operation on the frame buffer. -/
inductive LogicOp where
  | clear | and | revAnd | copy | invAnd | noOp | xor | or | nor | equiv | inv | revOr
  | invCopy | invOr | nand | set
deriving DecidableEq

instance : Coded LogicOp where
  codes :=
    [⟨.clear, "Clear", 0⟩, ⟨.and, "And", 1⟩, ⟨.revAnd, "RevAnd", 2⟩, ⟨.copy, "Copy", 3⟩,
      ⟨.invAnd, "InvAnd", 4⟩, ⟨.noOp, "NoOp", 5⟩, ⟨.xor, "Xor", 6⟩, ⟨.or, "Or", 7⟩,
      ⟨.nor, "Nor", 8⟩, ⟨.equiv, "Equiv", 9⟩, ⟨.inv, "Inv", 10⟩, ⟨.revOr, "RevOr", 11⟩,
      ⟨.invCopy, "InvCopy", 12⟩, ⟨.invOr, "InvOr", 13⟩, ⟨.nand, "Nand", 14⟩, ⟨.set, "Set", 15⟩]
  complete a := by cases a <;> decide
  values_nodup := by decide
  names_nodup := by decide
  raws_nodup := by decide

instance : Inhabited LogicOp := ⟨.copy⟩

/-- Where a color channel takes a material or ambient color from. -/
inductive ColorSource where
  | register | vertex
deriving DecidableEq

instance : Coded ColorSource where
  codes :=
    [⟨.register, "Reg", 0⟩, ⟨.vertex, "Vtx", 1⟩]
  complete a := by cases a <;> decide
  values_nodup := by decide
  names_nodup := by decide
  raws_nodup := by decide

instance : Inhabited ColorSource := ⟨.register⟩

end FixedFunction
