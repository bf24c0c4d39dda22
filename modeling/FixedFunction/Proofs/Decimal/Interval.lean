import FixedFunction.Decimal.Shortest
import FixedFunction.Proofs.Binary.Nearest
import Mathlib.Tactic.Ring

/-!
# Decimals that round to a number

**Input.**  A finite positive magnitude of a binary format.

**Results.**
* `nearest_of_contains`: the quotients in the interval of a magnitude round to it.
* `contains_shortest`: the shortest decimal is in the interval.
-/

namespace FixedFunction
namespace Decimal

open Binary (Format scale tenTo)

/-! ### Quotients -/

/-- The rational number that a quotient is. -/
def ratio (x : Quotient) : ℚ :=
  x.1 / x.2

theorem below_iff {x y : Quotient} (hx : 0 < x.2) (hy : 0 < y.2) :
    below x y ↔ ratio x < ratio y := by
  have hx' : (0 : ℚ) < x.2 := by exact_mod_cast hx
  have hy' : (0 : ℚ) < y.2 := by exact_mod_cast hy
  rw [below, decide_eq_true_iff, ratio, ratio, div_lt_div_iff₀ hx' hy']
  exact_mod_cast Iff.rfl

theorem ratio_scale (m : ℕ) (e : ℤ) : ratio (scale m e) = m * 2 ^ e :=
  Binary.scale_quotient m e

theorem ratio_power (d : ℕ) (k : ℤ) : ratio (power d k) = d * 10 ^ k := by
  have hpow : (10 : ℚ) ^ k = 10 ^ k.toNat / 10 ^ (-k).toNat := by
    rw [← zpow_natCast, ← zpow_natCast, ← zpow_sub₀ (by norm_num)]
    congr 1
    omega
  rw [ratio, power, hpow, ← mul_div_assoc]
  simp [tenTo]

theorem power_snd_pos (d : ℕ) (k : ℤ) : 0 < (power d k).2 :=
  Nat.pow_pos (by decide)

theorem fst_pos_of_ratio_pos {x : Quotient} (h : 0 < ratio x) : 0 < x.1 := by
  refine Nat.pos_of_ne_zero fun hzero => h.ne' ?_
  rw [ratio, hzero, Nat.cast_zero, zero_div]

theorem zpow_eq_four_mul (e : ℤ) : (2 : ℚ) ^ e = 4 * 2 ^ (e - 2) := by
  rw [zpow_sub₀ two_ne_zero]
  ring

theorem zpow_sub_one_eq_two_mul (e : ℤ) : (2 : ℚ) ^ (e - 1) = 2 * 2 ^ (e - 2) := by
  rw [zpow_sub₀ two_ne_zero, zpow_sub₀ two_ne_zero]
  ring

/-! ### Intervals -/

namespace Interval

variable {f : Format} {n : ℕ}

/-- How far the interval of a magnitude goes down, in quarters of the last place. -/
def gap (f : Format) (n : ℕ) : ℕ :=
  if (f.parts n).1 = f.unit ∧ f.least < (f.parts n).2 then 1 else 2

theorem contains_iff {x : Quotient} (hx : 0 < x.2) : (ofMagnitude f n).contains x ↔
    ((4 * (f.parts n).1 - gap f n : ℕ) : ℚ) * 2 ^ ((f.parts n).2 - 2) ≤ ratio x ∧
      ratio x ≤ ((4 * (f.parts n).1 + 2 : ℕ) : ℚ) * 2 ^ ((f.parts n).2 - 2) ∧
      (ratio x = ((4 * (f.parts n).1 - gap f n : ℕ) : ℚ) * 2 ^ ((f.parts n).2 - 2) ∨
        ratio x = ((4 * (f.parts n).1 + 2 : ℕ) : ℚ) * 2 ^ ((f.parts n).2 - 2) →
          (f.parts n).1 % 2 = 0) := by
  have hlower := below_iff hx (Binary.scale_snd_pos (4 * (f.parts n).1 - gap f n)
    ((f.parts n).2 - 2))
  have hlower' := below_iff (Binary.scale_snd_pos (4 * (f.parts n).1 - gap f n)
    ((f.parts n).2 - 2)) hx
  have hupper := below_iff hx (Binary.scale_snd_pos (4 * (f.parts n).1 + 2) ((f.parts n).2 - 2))
  have hupper' := below_iff (Binary.scale_snd_pos (4 * (f.parts n).1 + 2) ((f.parts n).2 - 2)) hx
  rw [ratio_scale] at hlower hlower' hupper hupper'
  change (if decide ((f.parts n).1 % 2 = 0) then
    !below x (scale (4 * (f.parts n).1 - gap f n) ((f.parts n).2 - 2)) &&
      !below (scale (4 * (f.parts n).1 + 2) ((f.parts n).2 - 2)) x
    else below (scale (4 * (f.parts n).1 - gap f n) ((f.parts n).2 - 2)) x &&
      below x (scale (4 * (f.parts n).1 + 2) ((f.parts n).2 - 2))) = true ↔ _
  split
  case isTrue h =>
    rw [decide_eq_true_iff] at h
    rw [Bool.and_eq_true, Bool.not_eq_true', Bool.not_eq_true', ← Bool.not_eq_true,
      ← Bool.not_eq_true, hlower, hupper', not_lt, not_lt]
    exact ⟨fun hx => ⟨hx.1, hx.2, fun _ => h⟩, fun hx => ⟨hx.1, hx.2.1⟩⟩
  case isFalse h =>
    rw [decide_eq_true_iff] at h
    rw [Bool.and_eq_true, hlower', hupper]
    constructor
    · rintro ⟨hlt, hlt'⟩
      exact ⟨hlt.le, hlt'.le, fun heq => absurd heq (not_or.2 ⟨hlt.ne', hlt'.ne⟩)⟩
    · rintro ⟨hle, hle', heven⟩
      exact ⟨lt_of_le_of_ne hle fun heq => h (heven (.inl heq.symm)),
        lt_of_le_of_ne hle' fun heq => h (heven (.inr heq))⟩

/-- Whether a quotient belongs to an interval only depends on its value. -/
theorem contains_congr {x y : Quotient} (hx : 0 < x.2) (hy : 0 < y.2) (h : ratio x = ratio y) :
    (ofMagnitude f n).contains x = (ofMagnitude f n).contains y := by
  rw [Bool.eq_iff_iff, contains_iff hx, contains_iff hy, h]

theorem gap_le : gap f n ≤ 2 := by
  unfold gap
  split <;> decide

theorem parts_pos (hn : 0 < n) : 0 < (f.parts n).1 := by
  obtain ⟨-, -, hnormal, hsum⟩ := f.parts_bounds n
  have hunit := f.unit_pos
  by_contra hzero
  have hm : (f.parts n).1 = 0 := by omega
  have he : (f.parts n).2 = f.least := hnormal.resolve_left (by omega)
  rw [hm, he, sub_self] at hsum
  exact absurd hsum (by simpa using hn.ne)

theorem lower_eq (hn : 0 < n) (t : ℚ) : ((4 * (f.parts n).1 - gap f n : ℕ) : ℚ) * t =
    4 * (f.parts n).1 * t - gap f n * t := by
  have hle : gap f n ≤ 4 * (f.parts n).1 := by
    have := gap_le (f := f) (n := n)
    have := parts_pos (f := f) hn
    omega
  rw [Nat.cast_sub hle]
  push_cast
  ring

theorem ratio_pos (hn : 0 < n) {x : Quotient} (hx : 0 < x.2) (h : (ofMagnitude f n).contains x) :
    0 < ratio x := by
  obtain ⟨hlower, -, -⟩ := (contains_iff hx).1 h
  have hgap := gap_le (f := f) (n := n)
  have hpos := parts_pos (f := f) hn
  have hfirst : 0 < 4 * (f.parts n).1 - gap f n := by omega
  exact (mul_pos (by exact_mod_cast hfirst) (by positivity)).trans_le hlower

/-- Below a power of two the last place is that of the magnitude below. -/
theorem nearest_of_lt_power (hn : 0 < n) (hfinite : n ≤ f.infinity) {x : Quotient} (hx : 0 < x.2)
    (h : (ofMagnitude f n).contains x) (hpower : (f.parts n).1 = f.unit)
    (hleast : f.least < (f.parts n).2) (hlt : ratio x < f.unit * 2 ^ (f.parts n).2) :
    f.nearest x.1 x.2 = n := by
  have hnum := fst_pos_of_ratio_pos (ratio_pos hn hx h)
  obtain ⟨hlower, -, -⟩ := (contains_iff hx).1 h
  obtain ⟨-, -, -, hsum⟩ := f.parts_bounds n
  have hgap : gap f n = 1 := if_pos ⟨hpower, hleast⟩
  rw [lower_eq hn, hgap, hpower, Nat.cast_one] at hlower
  rw [hpower] at hsum
  generalize (f.parts n).2 = e at *
  have ht : (0 : ℚ) < 2 ^ (e - 2) := by positivity
  have hunit : (1 : ℚ) ≤ f.unit := by exact_mod_cast f.unit_pos
  have hplace := zpow_sub_one_eq_two_mul e
  rw [zpow_eq_four_mul] at hlt
  change _ ≤ (x.1 : ℚ) / x.2 at hlower
  change (x.1 : ℚ) / x.2 < _ at hlt
  have hround : Binary.roundQuotient (x.1 <<< (-(e - 1)).toNat) (x.2 <<< (e - 1).toNat) =
      2 * f.unit := by
    refine Binary.roundQuotient_eq (Binary.shift_pos hx _) ?_ ?_ fun _ => Nat.mul_mod_right 2 _
    · rw [Binary.place_quotient, hplace, le_div_iff₀ (by positivity)]
      push_cast
      nlinarith
    · rw [Binary.place_quotient, hplace, div_le_iff₀ (by positivity)]
      push_cast
      nlinarith
  have habove : f.unit * 2 ^ (e - 1) ≤ (x.1 : ℚ) / x.2 := by
    rw [hplace]
    nlinarith
  have hbelow : (x.1 : ℚ) / x.2 < 2 * f.unit * 2 ^ (e - 1) := by
    rw [hplace]
    nlinarith
  have hexp : (e - f.least).toNat = (e - 1 - f.least).toNat + 1 := by omega
  have hn' : (e - 1 - f.least).toNat * f.unit + 2 * f.unit = n := by
    rw [← hsum, hexp, Nat.add_one_mul (e - 1 - f.least).toNat]
    omega
  rw [f.nearest_eq_of_place hnum hx (by omega) hbelow (.inl habove), hround, hn',
    min_eq_left hfinite]

/-- Elsewhere the last place is that of the magnitude. -/
theorem nearest_of_place (hn : 0 < n) (hfinite : n ≤ f.infinity) {x : Quotient} (hx : 0 < x.2)
    (h : (ofMagnitude f n).contains x)
    (hplace : f.unit * 2 ^ (f.parts n).2 ≤ ratio x ∨ (f.parts n).2 = f.least) :
    f.nearest x.1 x.2 = n := by
  have hnum := fst_pos_of_ratio_pos (ratio_pos hn hx h)
  obtain ⟨hlower, hupper, heven⟩ := (contains_iff hx).1 h
  rw [lower_eq hn] at hlower heven
  obtain ⟨hm, he, -, hsum⟩ := f.parts_bounds n
  have hgap := gap_le (f := f) (n := n)
  generalize gap f n = gap at *
  generalize (f.parts n).1 = m at *
  generalize (f.parts n).2 = e at *
  have ht : (0 : ℚ) < 2 ^ (e - 2) := by positivity
  have hmlt : (m : ℚ) ≤ 2 * f.unit - 1 := by
    have : (m + 1 : ℚ) ≤ 2 * f.unit := by exact_mod_cast hm
    linarith
  have hgapq : (gap : ℚ) ≤ 2 := by exact_mod_cast hgap
  have hpow := zpow_eq_four_mul e
  push_cast at hupper heven
  change _ ≤ (x.1 : ℚ) / x.2 at hlower
  change (x.1 : ℚ) / x.2 ≤ _ at hupper
  change (x.1 : ℚ) / x.2 = _ ∨ (x.1 : ℚ) / x.2 = _ → _ at heven
  have hround : Binary.roundQuotient (x.1 <<< (-e).toNat) (x.2 <<< e.toNat) = m := by
    refine Binary.roundQuotient_eq (Binary.shift_pos hx _) ?_ ?_ fun h => ?_
    · rw [Binary.place_quotient, hpow, le_div_iff₀ (by positivity)]
      nlinarith
    · rw [Binary.place_quotient, hpow, div_le_iff₀ (by positivity)]
      nlinarith
    · have hne : (4 * 2 ^ (e - 2) : ℚ) ≠ 0 := by positivity
      rw [Binary.place_quotient, hpow, div_eq_iff hne, div_eq_iff hne] at h
      refine heven (h.imp (fun h => ?_) fun h => ?_)
      · -- the lower end is halfway, since it is so far down
        have hgap : gap = 2 := by
          refine le_antisymm hgap ?_
          have : (2 : ℚ) ≤ gap := by nlinarith
          exact_mod_cast this
        rw [h, hgap]
        push_cast
        ring
      · rw [h]
        ring
  have hbelow : (x.1 : ℚ) / x.2 < 2 * f.unit * 2 ^ e := by
    rw [hpow]
    nlinarith
  rw [f.nearest_eq_of_place hnum hx he hbelow hplace, hround, hsum, min_eq_left hfinite]

/-- The quotients in the interval of a magnitude round to it. -/
theorem nearest_of_contains (hn : 0 < n) (hfinite : n ≤ f.infinity) {x : Quotient} (hx : 0 < x.2)
    (h : (ofMagnitude f n).contains x) : f.nearest x.1 x.2 = n := by
  obtain ⟨-, he, hnormal, -⟩ := f.parts_bounds n
  by_cases hbelow : ratio x < f.unit * 2 ^ (f.parts n).2 ∧ f.least < (f.parts n).2
  · obtain ⟨hlt, hleast⟩ := hbelow
    refine nearest_of_lt_power hn hfinite hx h ?_ hleast hlt
    by_contra hne
    -- a larger magnitude reaches down to the power of two only
    have hunit : f.unit ≤ (f.parts n).1 := hnormal.resolve_right hleast.ne'
    have hmq : (f.unit + 1 : ℚ) ≤ (f.parts n).1 := by
      exact_mod_cast Nat.lt_of_le_of_ne hunit (Ne.symm hne)
    have hgap : (gap f n : ℚ) ≤ 2 := by exact_mod_cast gap_le
    obtain ⟨hlower, -, -⟩ := (contains_iff hx).1 h
    rw [lower_eq hn] at hlower
    rw [zpow_eq_four_mul] at hlt
    have ht : (0 : ℚ) < 2 ^ ((f.parts n).2 - 2) := by positivity
    nlinarith
  · refine nearest_of_place hn hfinite hx h ((not_and_or.1 hbelow).imp not_lt.1 fun hle => ?_)
    omega

end Interval
end Decimal
end FixedFunction
