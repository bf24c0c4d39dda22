import Mathlib
import FixedFunction.Proofs.Binary.Nearest

/-!
# Widening and narrowing

A finite number of 32 bits is unchanged when it is made one of 64 bits and rounded back.

**Results.**
* `isFinite_iff`: a number is finite if its magnitude is below that of infinity.
* `narrow_widen`: narrowing undoes widening.
-/

namespace FixedFunction
namespace Binary

open Float.Model (UnpackedFloat)
open Float.Model.UnpackedFloat (unpackExponent isNaNBits)

/-! ### Patterns of the machine's numbers -/

section Patterns

variable {w : Float.Model.Format} {b : BitVec w.numBits}

theorem isFinite_unpack :
    (UnpackedFloat.unpack w b).isFinite ↔ unpackExponent b ≠ -BitVec.ofNat w.exponentBits 1 := by
  rw [UnpackedFloat.unpack]
  split_ifs <;> simp_all [UnpackedFloat.isFinite]

theorem unpackExponent_ne_iff : unpackExponent b ≠ -BitVec.ofNat w.exponentBits 1 ↔
    b.toNat / 2 ^ w.mantissaBitsWithoutImplicit % 2 ^ w.exponentBits + 1 < 2 ^ w.exponentBits := by
  have hpos := Nat.one_lt_two_pow w.he.ne'
  have hall : (-BitVec.ofNat w.exponentBits 1).toNat = 2 ^ w.exponentBits - 1 := by
    rw [BitVec.toNat_neg, BitVec.toNat_ofNat, Nat.mod_eq_of_lt hpos, Nat.mod_eq_of_lt (by omega)]
  have hlt := Nat.mod_lt (b.toNat / 2 ^ w.mantissaBitsWithoutImplicit)
    (Nat.two_pow_pos w.exponentBits)
  rw [ne_eq, ← BitVec.toNat_inj, UnpackedFloat.unpackExponent_def, BitVec.extractLsb'_toNat,
    Nat.shiftRight_eq_div_pow, hall]
  omega

end Patterns

/-- A number is finite if its magnitude is below that of infinity. -/
theorem isFinite_iff (x : Float32) :
    x.isFinite ↔ Format.single.magnitude x.toBits.toNat < Format.single.infinity := by
  have hweight : Format.single.signWeight = 2 ^ 31 := by decide
  have hinf : Format.single.infinity = 255 * 2 ^ 23 := by decide
  calc x.isFinite
      ↔ x.toBits.toNat / 2 ^ 23 % 2 ^ 8 + 1 < 2 ^ 8 :=
        (isFinite_unpack (w := .binary32) (b := x.toBits.toBitVec)).trans unpackExponent_ne_iff
    _ ↔ _ := by
        rw [Format.magnitude, hweight, hinf]
        omega

/-- The pattern of a finite number is kept. -/
theorem toBits_ofBits {n : ℕ} (hn : n < 2 * Format.double.signWeight)
    (h : Format.double.magnitude n < Format.double.infinity) :
    (Float.ofBits n.toUInt64).toBits.toNat = n := by
  have hweight : Format.double.signWeight = 2 ^ 63 := by decide
  have hinf : Format.double.infinity = 2047 * 2 ^ 52 := by decide
  rw [hweight] at hn
  rw [Format.magnitude, hweight, hinf] at h
  have hword : n.toUInt64.toBitVec.toNat = n := by
    change n % 2 ^ 64 = n
    omega
  have hexponent := unpackExponent_ne_iff (w := .binary64) (b := n.toUInt64.toBitVec)
  rw [hword] at hexponent
  have hnan : @isNaNBits .binary64 n.toUInt64.toBitVec = false := by
    rw [isNaNBits, decide_eq_false_iff_not]
    refine fun hb => hexponent.2 ?_ hb.1
    change n / 2 ^ 52 % 2 ^ 11 + 1 < 2 ^ 11
    omega
  have hpack := @UnpackedFloat.pack_unpack .binary64 n.toUInt64.toBitVec
  rw [hnan] at hpack
  calc (Float.ofBits n.toUInt64).toBits.toNat
      = (UnpackedFloat.pack .binary64
          (UnpackedFloat.unpack .binary64 n.toUInt64.toBitVec)).toNat := rfl
    _ = n := by rw [hpack]; exact hword

namespace Format

variable {f g : Format} {n : ℕ}

/-! ### Signs -/

theorem isNegative_signed (h : n < f.signWeight) (negative : Bool) :
    f.isNegative (f.signed negative n) = negative := by
  cases negative with
  | false => simpa [isNegative, signed] using h
  | true => simp [isNegative, signed]

theorem magnitude_signed (h : n < f.signWeight) (negative : Bool) :
    f.magnitude (f.signed negative n) = n := by
  cases negative <;> simp [magnitude, signed, Nat.mod_eq_of_lt h]

theorem signed_lt (h : n < f.signWeight) (negative : Bool) :
    f.signed negative n < 2 * f.signWeight := by
  cases negative <;> simp only [signed] <;> simp <;> omega

theorem signed_magnitude (h : n < 2 * f.signWeight) :
    f.signed (f.isNegative n) (f.magnitude n) = n := by
  rw [signed, isNegative, magnitude]
  split
  case isTrue hle =>
    rw [decide_eq_true_eq] at hle
    rw [Nat.mod_eq_sub_mod hle, Nat.mod_eq_of_lt (by omega)]
    omega
  case isFalse hlt =>
    rw [decide_eq_true_eq] at hlt
    exact Nat.mod_eq_of_lt (by omega)

/-- A finite pattern becomes one with the same sign and value, if the other format has the value. -/
theorem convert_of_value {k : ℕ} (hn : f.magnitude n < f.infinity) (hk : k ≤ g.infinity)
    (h : g.value k = f.value (f.magnitude n)) :
    f.convert g n = g.signed (f.isNegative n) k := by
  rw [convert, if_neg (by omega), if_neg hn.ne]
  exact congrArg _ (nearest_scale_parts hk h.symm)

end Format

/-- Narrowing undoes widening. -/
theorem narrow_widen {x : Float32} (h : x.isFinite) : narrow (widen x) = x := by
  have hfinite := (isFinite_iff x).1 h
  obtain ⟨k, hk, hvalue⟩ := Format.exists_double hfinite
  have hweight := hk.trans Format.infinity_lt_signWeight
  have hwide : (widen x).toBits.toNat =
      Format.double.signed (Format.single.isNegative x.toBits.toNat) k := by
    rw [widen, Format.convert_of_value hfinite hk.le hvalue]
    refine toBits_ofBits (Format.signed_lt hweight _) ?_
    rwa [Format.magnitude_signed hweight]
  have hbits : x.toBits.toNat < 2 * Format.single.signWeight := x.toBits.toNat_lt
  have hback : Format.convert .double .single (widen x).toBits.toNat = x.toBits.toNat := by
    rw [hwide, Format.convert_of_value (k := Format.single.magnitude x.toBits.toNat),
      Format.isNegative_signed hweight, Format.signed_magnitude hbits]
    · rwa [Format.magnitude_signed hweight]
    · exact hfinite.le
    · rw [Format.magnitude_signed hweight, hvalue]
  rw [narrow, hback, ← Float32.ofBits_toBits x]
  simp

end Binary
end FixedFunction
