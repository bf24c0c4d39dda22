import FixedFunction.Coded

/-!
# Fields of indirect texturing

A texture sample can move the coordinate of a later sample.  These fields say how the first
sample is taken and how its result is used.
-/

namespace FixedFunction

/-- A power of two that the coordinate of an indirect sample is divided by. -/
inductive IndirectScale where
  | s1 | s2 | s4 | s8 | s16 | s32 | s64 | s128 | s256
deriving DecidableEq

instance : Coded IndirectScale where
  codes :=
    [⟨.s1, "S1", 0⟩, ⟨.s2, "S2", 1⟩, ⟨.s4, "S4", 2⟩, ⟨.s8, "S8", 3⟩, ⟨.s16, "S16", 4⟩,
      ⟨.s32, "S32", 5⟩, ⟨.s64, "S64", 6⟩, ⟨.s128, "S128", 7⟩, ⟨.s256, "S256", 8⟩]
  complete a := by cases a <;> decide
  values_nodup := by decide
  names_nodup := by decide
  raws_nodup := by decide

instance : Inhabited IndirectScale := ⟨.s1⟩

/-- The divisor of a scale. -/
def IndirectScale.divisor (s : IndirectScale) : Nat :=
  1 <<< (Coded.raw s).toNat

/-- How many bits of an indirect sample are used. -/
inductive IndirectFormat where
  | f8 | f5 | f4 | f3
deriving DecidableEq

instance : Coded IndirectFormat where
  codes :=
    [⟨.f8, "F8", 0⟩, ⟨.f5, "F5", 1⟩, ⟨.f4, "F4", 2⟩, ⟨.f3, "F3", 3⟩]
  complete a := by cases a <;> decide
  values_nodup := by decide
  names_nodup := by decide
  raws_nodup := by decide

instance : Inhabited IndirectFormat := ⟨.f8⟩

/-- Which components of an indirect sample are biased. -/
inductive IndirectBias where
  | none | s | t | st | u | su | tu | stu
deriving DecidableEq

instance : Coded IndirectBias where
  codes :=
    [⟨.none, "None", 0⟩, ⟨.s, "S", 1⟩, ⟨.t, "T", 2⟩, ⟨.st, "St", 3⟩, ⟨.u, "U", 4⟩,
      ⟨.su, "Su", 5⟩, ⟨.tu, "Tu", 6⟩, ⟨.stu, "Stu", 7⟩]
  complete a := by cases a <;> decide
  values_nodup := by decide
  names_nodup := by decide
  raws_nodup := by decide

instance : Inhabited IndirectBias := ⟨.none⟩

/-- Whether the s, the t and the u component is biased. -/
def IndirectBias.components (b : IndirectBias) : Bool × Bool × Bool :=
  let bit (i : Nat) := (Coded.raw b).toNat.testBit i
  (bit 0, bit 1, bit 2)

/-- How a coordinate is wrapped before an indirect offset is added. -/
inductive IndirectWrap where
  | off | w256 | w128 | w64 | w32 | w16 | w0
deriving DecidableEq

instance : Coded IndirectWrap where
  codes :=
    [⟨.off, "Off", 0⟩, ⟨.w256, "W256", 1⟩, ⟨.w128, "W128", 2⟩, ⟨.w64, "W64", 3⟩,
      ⟨.w32, "W32", 4⟩, ⟨.w16, "W16", 5⟩, ⟨.w0, "W0", 6⟩]
  complete a := by cases a <;> decide
  values_nodup := by decide
  names_nodup := by decide
  raws_nodup := by decide

instance : Inhabited IndirectWrap := ⟨.off⟩

/-- The modulus of a wrap by a power of two. -/
def IndirectWrap.modulus : IndirectWrap → Option Nat
  | .off | .w0 => none
  | w => some (512 >>> (Coded.raw w).toNat)

/-- The matrix that turns an indirect sample into an offset. -/
inductive IndirectMatrix where
  | off | m0 | m1 | m2 | s0 | s1 | s2 | t0 | t1 | t2
deriving DecidableEq

instance : Coded IndirectMatrix where
  codes :=
    [⟨.off, "Off", 0⟩, ⟨.m0, "M0", 1⟩, ⟨.m1, "M1", 2⟩, ⟨.m2, "M2", 3⟩, ⟨.s0, "S0", 5⟩,
      ⟨.s1, "S1", 6⟩, ⟨.s2, "S2", 7⟩, ⟨.t0, "T0", 9⟩, ⟨.t1, "T1", 10⟩, ⟨.t2, "T2", 11⟩]
  complete a := by cases a <;> decide
  values_nodup := by decide
  names_nodup := by decide
  raws_nodup := by decide

instance : Inhabited IndirectMatrix := ⟨.off⟩

end FixedFunction
