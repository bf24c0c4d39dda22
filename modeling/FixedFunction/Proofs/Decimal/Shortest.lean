import FixedFunction.Proofs.Decimal.Interval
import Mathlib.Data.Nat.Cast.Order.Field

/-!
# Seventeen digits suffice

**Algorithm.**  The decimals with seventeen digits around a number are so near to each other that
one of the two next to it is in its interval.  So the search for the first count of digits with a
hit always ends, and what it finds is in the interval.

**Results.**
* `contains_shortest`: the shortest decimal is in the interval of its magnitude.
-/

namespace FixedFunction
namespace Decimal

open Binary (Format scale tenTo)

/-! ### The first digit -/

theorem le_lift {x : Quotient} (fuel start : ℕ) (h : x.2 ≤ x.1 * tenTo (start + fuel)) :
    x.2 ≤ x.1 * tenTo (lift x fuel start) := by
  induction fuel generalizing start with
  | zero => exact h
  | succ fuel ih =>
    unfold lift
    split
    case isTrue hle => exact hle
    case isFalse => exact ih (start + 1) (by rwa [Nat.add_right_comm, Nat.add_assoc])

theorem pow_length_le {n : ℕ} (hn : 0 < n) : 10 ^ ((Nat.toDigits 10 n).length - 1) ≤ n := by
  rcases Nat.eq_zero_or_pos ((Nat.toDigits 10 n).length - 1) with h | h
  · rwa [h, Nat.pow_zero]
  · refine Nat.le_of_not_lt fun hlt => ?_
    have := (Nat.length_toDigits_le_iff (by decide) h).2 hlt
    omega

theorem le_mul_tenTo {x : Quotient} {k : ℕ} (hx : 0 < x.2) (h : 1 ≤ ratio x * 10 ^ k) :
    x.2 ≤ x.1 * tenTo k := by
  have hxq : (0 : ℚ) < x.2 := by exact_mod_cast hx
  rw [ratio, div_mul_eq_mul_div, one_le_div₀ hxq] at h
  exact_mod_cast h

/-- No power of ten above a quotient is taken for one below it, unless the quotient is too small to
be looked at. -/
theorem log10_le {x : Quotient} (hx : 0 < x.2) (hsmall : x.2 ≤ x.1 * tenTo 401) :
    (10 : ℚ) ^ log10 x ≤ ratio x := by
  have hpos : (0 : ℚ) < x.2 := by exact_mod_cast hx
  unfold log10
  split
  case isTrue hle =>
    have hq : 0 < x.1 / x.2 := Nat.div_pos hle hx
    have hlen : 0 < (Nat.toDigits 10 (x.1 / x.2)).length := Nat.length_toDigits_pos
    have hexp : ((Nat.toDigits 10 (x.1 / x.2)).length : ℤ) - 1 =
        ((Nat.toDigits 10 (x.1 / x.2)).length - 1 : ℕ) := by omega
    rw [hexp, zpow_natCast]
    calc (10 : ℚ) ^ ((Nat.toDigits 10 (x.1 / x.2)).length - 1) ≤ (x.1 / x.2 : ℕ) := by
          exact_mod_cast pow_length_le hq
      _ ≤ ratio x := Nat.cast_div_le
  case isFalse =>
    have hlift : (x.2 : ℚ) ≤ x.1 * 10 ^ lift x 400 1 := by
      exact_mod_cast le_lift 400 1 hsmall
    rw [zpow_neg, zpow_natCast, ratio, le_div_iff₀ hpos, inv_mul_le_iff₀ (by positivity)]
    linarith

/-! ### Candidates -/

section Candidates

variable {i : Interval} {x : Quotient} {k : ℤ} {d : Digits}

theorem contains_candidate (h : candidate i x k = some d) :
    i.contains (power d.digits d.exponent) := by
  unfold candidate at h
  simp only [Bool.and_eq_true] at h
  split_ifs at h with hlow hhigh
  · obtain rfl := Option.some.inj h
    exact hlow.1
  · obtain rfl := Option.some.inj h
    exact hhigh

theorem candidate_isSome
    (h : i.contains (power (x.1 * tenTo (-k).toNat / (x.2 * tenTo k.toNat)) k) ∨
      i.contains (power (x.1 * tenTo (-k).toNat / (x.2 * tenTo k.toNat) + 1) k)) :
    (candidate i x k).isSome := by
  unfold candidate
  rcases h with h | h <;> simp only [h] <;> split_ifs <;> simp_all

/-- The decimals next to a quotient. -/
theorem floor_bounds (hx : 0 < x.2) (k : ℤ) :
    (x.1 * tenTo (-k).toNat / (x.2 * tenTo k.toNat) : ℕ) * (10 : ℚ) ^ k ≤ ratio x ∧
      ratio x < ((x.1 * tenTo (-k).toNat / (x.2 * tenTo k.toNat) : ℕ) + 1) * (10 : ℚ) ^ k := by
  have hden : 0 < x.2 * tenTo k.toNat := Nat.mul_pos hx (Nat.pow_pos (by decide))
  have hdenq : (0 : ℚ) < (x.2 * tenTo k.toNat : ℕ) := by exact_mod_cast hden
  have hshift : ((x.1 * tenTo (-k).toNat : ℕ) : ℚ) / (x.2 * tenTo k.toNat : ℕ) =
      ratio x / 10 ^ k := by
    have hpow := ratio_power 1 k
    rw [ratio, power, Nat.cast_one, one_mul, one_mul] at hpow
    rw [← hpow, ratio]
    push_cast
    field_simp
  have hpos : (0 : ℚ) < 10 ^ k := by positivity
  rw [← le_div_iff₀ hpos, ← div_lt_iff₀ hpos, ← hshift]
  constructor
  · exact Nat.cast_div_le
  · rw [div_lt_iff₀ hdenq]
    exact_mod_cast Nat.lt_mul_of_div_lt (Nat.lt_succ_self _) hden

end Candidates

/-! ### Removing zeros -/

theorem ratio_strip (fuel : ℕ) (d : Digits) :
    ratio (power (strip fuel d).digits (strip fuel d).exponent) =
      ratio (power d.digits d.exponent) := by
  induction fuel generalizing d with
  | zero => rfl
  | succ fuel ih =>
    obtain ⟨n, k⟩ := d
    unfold strip
    split
    case isTrue h =>
      have hn : (n : ℚ) = (n / 10 : ℕ) * 10 := by
        exact_mod_cast (Nat.div_mul_cancel (Nat.dvd_of_mod_eq_zero h.2)).symm
      rw [ih, ratio_power, ratio_power, hn, zpow_add_one₀ (by norm_num)]
      ring
    case isFalse => rfl

/-! ### The search -/

section Search

variable {f : Format} {n : ℕ}

/-- One of the two decimals with seventeen digits next to a number rounds to it. -/
theorem contains_seventeen (hunit : f.unit ≤ 2 ^ 52) (hn : 0 < n) {k : ℤ} {d : ℕ}
    (hspace : (10 : ℚ) ^ (k + 16) ≤ (f.parts n).1 * 2 ^ (f.parts n).2)
    (hlow : d * (10 : ℚ) ^ k ≤ (f.parts n).1 * 2 ^ (f.parts n).2)
    (hhigh : (f.parts n).1 * 2 ^ (f.parts n).2 < (d + 1) * (10 : ℚ) ^ k) :
    (Interval.ofMagnitude f n).contains (power d k) ∨
      (Interval.ofMagnitude f n).contains (power (d + 1) k) := by
  obtain ⟨hm, -, -, -⟩ := f.parts_bounds n
  rw [Interval.contains_iff (power_snd_pos _ _), Interval.contains_iff (power_snd_pos _ _),
    ratio_power, ratio_power, Interval.lower_eq hn]
  have hgap : Interval.gap f n =
      if (f.parts n).1 = f.unit ∧ f.least < (f.parts n).2 then 1 else 2 := rfl
  generalize Interval.gap f n = gap at *
  generalize (f.parts n).1 = m at *
  generalize (f.parts n).2 = e at *
  have ht : (0 : ℚ) < 2 ^ (e - 2) := by positivity
  have he := zpow_eq_four_mul e
  have hs : (10 : ℚ) ^ (k + 16) = 10 ^ 16 * 10 ^ k := by
    rw [zpow_add₀ (by norm_num), mul_comm]
    norm_cast
  rw [hs, he] at hspace
  rw [he] at hlow hhigh
  generalize (2 : ℚ) ^ (e - 2) = t at *
  generalize (10 : ℚ) ^ k = s at *
  by_contra h
  obtain ⟨hleft, hright⟩ := not_or.1 h
  push_cast at hleft hright
  have hleft' : d * s ≤ 4 * m * t - gap * t := by
    by_contra hlt
    refine hleft ⟨by linarith, by linarith, ?_⟩
    rintro (heq | heq) <;> exfalso <;> linarith
  have hright' : (4 * m + 2) * t ≤ (d + 1) * s := by
    by_contra hlt
    have : (0 : ℚ) ≤ gap * t := by positivity
    refine hright ⟨by linarith, by linarith, ?_⟩
    rintro (heq | heq) <;> exfalso <;> linarith
  have hunitq : (f.unit : ℚ) ≤ 2 ^ 52 := by exact_mod_cast hunit
  split_ifs at hgap with hpower
  · have hmq : (m : ℚ) * t ≤ 2 ^ 52 * t := by
      gcongr
      rw [hpower.1]
      exact hunitq
    rw [hgap] at hleft'
    push_cast at hleft'
    linarith
  · have hmq : (m : ℚ) * t ≤ 2 * 2 ^ 52 * t := by
      gcongr
      calc (m : ℚ) ≤ (2 * f.unit : ℕ) := by exact_mod_cast hm.le
        _ ≤ 2 * 2 ^ 52 := by
          push_cast
          linarith
    rw [hgap] at hleft'
    push_cast at hleft'
    linarith

/-- The shortest decimal is in the interval of its magnitude. -/
theorem contains_shortest (hunit : f.unit ≤ 2 ^ 52) (hleast : -1074 ≤ f.least) (hn : 0 < n) :
    (Interval.ofMagnitude f n).contains
      (power (shortest f n).digits (shortest f n).exponent) := by
  obtain ⟨-, he, -, -⟩ := f.parts_bounds n
  have hm : 1 ≤ (f.parts n).1 := Interval.parts_pos hn
  let x := scale (f.parts n).1 (f.parts n).2
  have hx : 0 < x.2 := Binary.scale_snd_pos _ _
  have hratio : ratio x = (f.parts n).1 * 2 ^ (f.parts n).2 := ratio_scale _ _
  have hsmall : x.2 ≤ x.1 * tenTo 401 := by
    refine le_mul_tenTo hx ?_
    calc (1 : ℚ) = 2 ^ (-1074 : ℤ) * (2 ^ 3) ^ 358 := by
          rw [← pow_mul, ← zpow_natCast, ← zpow_add₀ two_ne_zero]
          rfl
      _ ≤ 2 ^ (f.parts n).2 * 10 ^ 401 := by
          gcongr
          · exact one_le_two
          · exact hleast.trans he
          · exact (pow_le_pow_left₀ (by norm_num) (by norm_num) 358).trans
              (pow_le_pow_right₀ (by norm_num) (by decide))
      _ ≤ ratio x * 10 ^ 401 := by
          rw [hratio]
          gcongr
          exact le_mul_of_one_le_left (by positivity) (by exact_mod_cast hm)
  have htop := log10_le hx hsmall
  obtain ⟨hlow, hhigh⟩ := floor_bounds hx (log10 x - 16)
  rw [hratio] at htop hlow hhigh
  have hsome := candidate_isSome (contains_seventeen hunit hn (by rwa [sub_add_cancel]) hlow hhigh)
  let search (k : ℕ) := candidate (Interval.ofMagnitude f n) x (log10 x - k)
  obtain ⟨d, hd⟩ : ∃ d, (List.range 17).findSome? search = some d := by
    refine Option.isSome_iff_exists.1 (List.findSome?_isSome_iff.2 ⟨16, by decide, hsome⟩)
  obtain ⟨k, -, hk⟩ := List.exists_of_findSome?_eq_some hd
  have hshortest : shortest f n = strip 20 d := by
    change strip 20 (((List.range 17).findSome? search).getD ⟨0, 0⟩) = _
    rw [hd]
    rfl
  rw [hshortest, Interval.contains_congr (power_snd_pos _ _) (power_snd_pos _ _) (ratio_strip 20 d)]
  exact contains_candidate hk

end Search

end Decimal
end FixedFunction
