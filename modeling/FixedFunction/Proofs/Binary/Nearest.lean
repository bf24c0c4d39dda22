import FixedFunction.Binary.Format
import Mathlib.Algebra.Order.Field.Power
import Mathlib.Algebra.Order.Field.Rat
import Mathlib.Tactic.Positivity
import Mathlib.Tactic.FieldSimp
import Mathlib.Tactic.Linarith

/-!
# Numbers that are not rounded

A magnitude of a binary format is one of its significands at one of its exponents.  A quotient with
such a significand and exponent has its last place there, so the exact division at that place
leaves nothing over.

**Results.**
* `Format.value`: the quotient that a finite magnitude stands for.
* `Format.nearest_of_value`: the magnitude nearest to the value of a magnitude is that magnitude.
* `Format.exists_double`: every number of 32 bits is one of 64 bits.
-/

namespace FixedFunction
namespace Binary

/-! ### Quotients -/

theorem shift_quotient (n d : ℕ) (e : ℤ) :
    ((n <<< e.toNat : ℕ) : ℚ) / (d <<< (-e).toNat : ℕ) = n / d * 2 ^ e := by
  have hpow : (2 : ℚ) ^ e = 2 ^ e.toNat / 2 ^ (-e).toNat := by
    rw [← zpow_natCast, ← zpow_natCast, ← zpow_sub₀ two_ne_zero]
    congr 1
    omega
  simp only [Nat.shiftLeft_eq, Nat.cast_mul, Nat.cast_pow, Nat.cast_ofNat]
  rw [hpow, mul_div_mul_comm]

/-- The quotient at a place. -/
theorem place_quotient (n d : ℕ) (e : ℤ) :
    ((n <<< (-e).toNat : ℕ) : ℚ) / (d <<< e.toNat : ℕ) = n / d / 2 ^ e := by
  have h := shift_quotient n d (-e)
  rwa [Int.neg_neg, zpow_neg, ← div_eq_mul_inv] at h

theorem scale_quotient (m : ℕ) (e : ℤ) : ((scale m e).1 : ℚ) / (scale m e).2 = m * 2 ^ e := by
  have h := shift_quotient m 1 e
  rw [Nat.cast_one, div_one] at h
  exact h

theorem shift_pos {n : ℕ} (h : 0 < n) (k : ℕ) : 0 < n <<< k := by
  rw [Nat.shiftLeft_eq]
  positivity

theorem scale_snd_pos (m : ℕ) (e : ℤ) : 0 < (scale m e).2 := by
  simp [scale, Nat.shiftLeft_eq]

/-- A quotient is rounded to an integer that is at most one half away, and to an even one if it is
just one half away. -/
theorem roundQuotient_eq {num den m : ℕ} (hden : 0 < den) (hlower : (m : ℚ) - 1 / 2 ≤ num / den)
    (hupper : (num : ℚ) / den ≤ m + 1 / 2)
    (heven : (num : ℚ) / den = m - 1 / 2 ∨ (num : ℚ) / den = m + 1 / 2 → m % 2 = 0) :
    roundQuotient num den = m := by
  have hpos : (0 : ℚ) < den := by exact_mod_cast hden
  rw [le_div_iff₀ hpos] at hlower
  rw [div_le_iff₀ hpos] at hupper
  rw [div_eq_iff hpos.ne', div_eq_iff hpos.ne'] at heven
  replace hlower : 2 * (m * den) ≤ 2 * num + den := by
    have : (2 * (m * den) : ℚ) ≤ 2 * num + den := by linarith
    exact_mod_cast this
  replace hupper : 2 * num ≤ 2 * (m * den) + den := by
    have : (2 * num : ℚ) ≤ 2 * (m * den) + den := by linarith
    exact_mod_cast this
  replace heven (h : 2 * (m * den) = 2 * num + den ∨ 2 * num = 2 * (m * den) + den) :
      m % 2 = 0 := by
    refine heven (h.imp (fun h => ?_) fun h => ?_)
    · have : (2 * (m * den) : ℚ) = 2 * num + den := by exact_mod_cast h
      linarith
    · have : (2 * num : ℚ) = 2 * (m * den) + den := by exact_mod_cast h
      linarith
  have hdiv := Nat.div_add_mod' num den
  have hmod := Nat.mod_lt num hden
  unfold roundQuotient
  dsimp only
  generalize num / den = q at hdiv
  generalize num % den = r at hdiv hmod
  subst hdiv
  -- the integer is one of the two next to the quotient
  have hqm : q * den < (m + 1) * den := by
    rw [Nat.succ_mul]
    omega
  have hmq : m * den < (q + 2) * den := by
    rw [Nat.add_mul]
    omega
  have hle := Nat.lt_of_mul_lt_mul_right hqm
  have hge := Nat.lt_of_mul_lt_mul_right hmq
  have hsucc : (q + 1) * den = q * den + den := Nat.succ_mul q den
  clear hqm hmq
  obtain rfl | rfl : m = q ∨ m = q + 1 := by omega
  all_goals split_ifs <;> omega

theorem roundQuotient_mul {m den : ℕ} (h : 0 < den) : roundQuotient (m * den) den = m := by
  simp [roundQuotient, h]

theorem zpow_log2_le {n : ℕ} (h : 0 < n) : (2 : ℚ) ^ (n.log2 : ℤ) ≤ n := by
  exact_mod_cast Nat.log2_self_le h.ne'

theorem lt_zpow_log2 (n : ℕ) : (n : ℚ) < 2 ^ (n.log2 + 1 : ℤ) := by
  exact_mod_cast Nat.lt_log2_self (n := n)

theorem shift_lt_shift_iff {num den : ℕ} (hden : 0 < den) (l : ℤ) :
    num <<< (-l).toNat < den <<< l.toNat ↔ (num : ℚ) / den < 2 ^ l := by
  have hpos : (0 : ℚ) < (den <<< l.toNat : ℕ) := by exact_mod_cast shift_pos hden _
  have h := place_quotient num den l
  calc num <<< (-l).toNat < den <<< l.toNat
      ↔ ((num <<< (-l).toNat : ℕ) : ℚ) / (den <<< l.toNat : ℕ) < 1 := by
        rw [div_lt_one hpos, Nat.cast_lt]
    _ ↔ (num : ℚ) / den < 2 ^ l := by
        rw [h, div_lt_one (by positivity)]

theorem log2Quotient_bounds {num den : ℕ} (hnum : 0 < num) (hden : 0 < den) :
    (2 : ℚ) ^ log2Quotient num den ≤ num / den ∧
      (num : ℚ) / den < 2 ^ (log2Quotient num den + 1) := by
  have hpos : (0 : ℚ) < den := by exact_mod_cast hden
  let l : ℤ := (num.log2 : ℤ) - den.log2
  have habove : (num : ℚ) / den < 2 ^ (l + 1) := by
    rw [div_lt_iff₀ hpos]
    calc (num : ℚ) < 2 ^ (num.log2 + 1 : ℤ) := lt_zpow_log2 num
      _ = 2 ^ (l + 1) * 2 ^ (den.log2 : ℤ) := by
        rw [← zpow_add₀ two_ne_zero]
        congr 1
        omega
      _ ≤ 2 ^ (l + 1) * den := by
        gcongr
        exact zpow_log2_le hden
  have hbelow : (2 : ℚ) ^ (l - 1) ≤ num / den := by
    rw [le_div_iff₀ hpos]
    calc (2 : ℚ) ^ (l - 1) * den ≤ 2 ^ (l - 1) * 2 ^ (den.log2 + 1 : ℤ) := by
          gcongr
          exact (lt_zpow_log2 den).le
      _ = 2 ^ (num.log2 : ℤ) := by
        rw [← zpow_add₀ two_ne_zero]
        congr 1
        omega
      _ ≤ num := zpow_log2_le hnum
  change (2 : ℚ) ^ (if num <<< (-l).toNat < den <<< l.toNat then l - 1 else l) ≤ _ ∧
    _ < (2 : ℚ) ^ ((if num <<< (-l).toNat < den <<< l.toNat then l - 1 else l) + 1)
  simp only [shift_lt_shift_iff hden]
  split
  case isTrue h => exact ⟨hbelow, by simpa using h⟩
  case isFalse h => exact ⟨not_lt.1 h, habove⟩

theorem log2Quotient_eq {num den : ℕ} {l : ℤ} (hnum : 0 < num) (hden : 0 < den)
    (hle : (2 : ℚ) ^ l ≤ num / den) (hlt : (num : ℚ) / den < 2 ^ (l + 1)) :
    log2Quotient num den = l := by
  obtain ⟨hle', hlt'⟩ := log2Quotient_bounds hnum hden
  have h1 := (zpow_lt_zpow_iff_right₀ (one_lt_two (α := ℚ))).1 (hle.trans_lt hlt')
  have h2 := (zpow_lt_zpow_iff_right₀ (one_lt_two (α := ℚ))).1 (hle'.trans_lt hlt)
  omega

namespace Format

variable {f : Format}

theorem unit_pos : 0 < f.unit := by
  simp [unit, Nat.shiftLeft_eq]

theorem unit_eq : f.unit = 2 ^ (f.precision - 1) :=
  Nat.one_shiftLeft _

/-- A quotient below twice the unit of some place, and not below the unit itself unless that place
is the last, is divided at this place. -/
theorem nearest_eq_of_place {num den : ℕ} {e : ℤ} (hnum : 0 < num) (hden : 0 < den)
    (he : f.least ≤ e) (hlt : (num : ℚ) / den < 2 * f.unit * 2 ^ e)
    (hge : f.unit * 2 ^ e ≤ (num : ℚ) / den ∨ e = f.least) :
    f.nearest num den = min ((e - f.least).toNat * f.unit +
      roundQuotient (num <<< (-e).toNat) (den <<< e.toNat)) f.infinity := by
  have hunit : (f.unit : ℚ) = 2 ^ ((f.precision - 1 : ℕ) : ℤ) := by
    rw [unit_eq]
    push_cast
    rfl
  have hlt' : (num : ℚ) / den < 2 ^ (e + (f.precision - 1 : ℕ) + 1) := by
    rw [hunit] at hlt
    rwa [zpow_add_one₀ two_ne_zero, zpow_add₀ two_ne_zero, mul_comm, mul_comm (2 ^ e), ← mul_assoc]
  have hplace : max f.least (log2Quotient num den - (f.precision - 1 : ℕ)) = e := by
    rcases hge with hge | rfl
    · rw [hunit, ← zpow_add₀ two_ne_zero, add_comm] at hge
      rw [log2Quotient_eq hnum hden hge hlt', add_sub_cancel_right, max_eq_right he]
    · have hlog := (log2Quotient_bounds hnum hden).1.trans_lt hlt'
      have := (zpow_lt_zpow_iff_right₀ (one_lt_two (α := ℚ))).1 hlog
      omega
  simp only [nearest, if_neg hnum.ne', hplace]

/-- A quotient for which a format has a significand and an exponent is not rounded. -/
theorem nearest_eq {num den m : ℕ} {e : ℤ} (hden : 0 < den) (h : (num : ℚ) / den = m * 2 ^ e)
    (hm : m < 2 * f.unit) (he : f.least ≤ e) (hnormal : f.unit ≤ m ∨ e = f.least) :
    f.nearest num den = min ((e - f.least).toNat * f.unit + m) f.infinity := by
  have hpow : (0 : ℚ) < 2 ^ e := by positivity
  have hdenq : (den : ℚ) ≠ 0 := by exact_mod_cast hden.ne'
  rcases Nat.eq_zero_or_pos num with rfl | hnum
  · have hm : m = 0 := by simpa [hpow.ne'] using h.symm
    have hle : e = f.least := hnormal.resolve_left (by have := f.unit_pos; omega)
    simp [nearest, hm, hle]
  · have hlt : (num : ℚ) / den < 2 * f.unit * 2 ^ e := by
      rw [h]
      gcongr
      exact_mod_cast hm
    have hge : f.unit * 2 ^ e ≤ (num : ℚ) / den ∨ e = f.least := by
      refine hnormal.imp_left fun hunit => ?_
      rw [h]
      gcongr
    have hshift : num <<< (-e).toNat = m * (den <<< e.toNat) := by
      have hq := place_quotient num den e
      have hshifted : ((den <<< e.toNat : ℕ) : ℚ) ≠ 0 := by exact_mod_cast (shift_pos hden _).ne'
      rw [h, mul_div_cancel_right₀ _ hpow.ne', div_eq_iff hshifted] at hq
      exact_mod_cast hq
    rw [nearest_eq_of_place hnum hden he hlt hge, hshift, roundQuotient_mul (shift_pos hden _)]

/-! ### Magnitudes -/

theorem infinity_lt_signWeight : f.infinity < f.signWeight := by
  have := f.unit_pos
  rw [infinity, signWeight, Nat.one_shiftLeft, Nat.shiftLeft_eq, Nat.mul_comm f.unit]
  exact Nat.mul_lt_mul_of_pos_right (Nat.sub_lt (Nat.two_pow_pos _) one_pos) this

/-- The significand and the exponent of a magnitude. -/
theorem parts_bounds (n : ℕ) :
    (f.parts n).1 < 2 * f.unit ∧ f.least ≤ (f.parts n).2 ∧
      (f.unit ≤ (f.parts n).1 ∨ (f.parts n).2 = f.least) ∧
      ((f.parts n).2 - f.least).toNat * f.unit + (f.parts n).1 = n := by
  have hmod := Nat.mod_lt n f.unit_pos
  have hdiv := Nat.div_add_mod' n f.unit
  simp only [parts]
  split
  case isTrue h =>
    rw [h, Nat.zero_mul] at hdiv
    refine ⟨by omega, le_rfl, .inr rfl, ?_⟩
    rw [Int.sub_self, Int.toNat_zero]
    omega
  case isFalse h =>
    obtain ⟨k, hk⟩ := Nat.exists_eq_succ_of_ne_zero h
    rw [hk, Nat.succ_mul] at hdiv
    rw [hk]
    refine ⟨by omega, by omega, .inl (by omega), ?_⟩
    have hexp : (f.least + (k.succ : ℕ) - 1 - f.least).toNat = k := by omega
    rw [hexp]
    omega

/-- The magnitude with a given significand and exponent. -/
theorem parts_join {m : ℕ} {e : ℤ} (hm : m < 2 * f.unit) (hunit : f.unit ≤ m) (he : f.least ≤ e) :
    f.parts ((e - f.least).toNat * f.unit + m) = (m, e) := by
  obtain ⟨k, hk⟩ := Int.eq_ofNat_of_zero_le (Int.sub_nonneg.2 he)
  obtain ⟨r, rfl⟩ := Nat.exists_eq_add_of_le hunit
  have hsum : (e - f.least).toNat * f.unit + (f.unit + r) = r + f.unit * (k + 1) := by
    rw [hk, Int.toNat_natCast, Nat.mul_succ, Nat.mul_comm]
    omega
  have hdiv : (r + f.unit * (k + 1)) / f.unit = k + 1 := by
    rw [Nat.add_mul_div_left _ _ f.unit_pos, Nat.div_eq_of_lt (by omega), Nat.zero_add]
  have hmod : (r + f.unit * (k + 1)) % f.unit = r := by
    rw [Nat.add_mul_mod_self_left, Nat.mod_eq_of_lt (by omega)]
  rw [hsum, parts, hdiv, hmod, if_neg k.succ_ne_zero]
  exact Prod.ext rfl (by omega)

/-- The quotient that a finite magnitude stands for. -/
def value (f : Format) (n : ℕ) : ℚ :=
  (f.parts n).1 * 2 ^ (f.parts n).2

/-- A quotient that is the value of a magnitude is not rounded. -/
theorem nearest_of_value {num den n : ℕ} (hden : 0 < den) (hn : n ≤ f.infinity)
    (h : (num : ℚ) / den = f.value n) : f.nearest num den = n := by
  obtain ⟨hm, he, hnormal, hsum⟩ := f.parts_bounds n
  rw [nearest_eq hden h hm he hnormal, hsum, min_eq_left hn]

theorem nearest_scale_parts {n : ℕ} (hn : n ≤ f.infinity) {g : Format} {k : ℕ}
    (h : g.value k = f.value n) :
    f.nearest (scale (g.parts k).1 (g.parts k).2).1 (scale (g.parts k).1 (g.parts k).2).2 = n :=
  nearest_of_value (scale_snd_pos _ _) hn (by rw [scale_quotient]; exact h)

/-- Every number of 32 bits is one of 64 bits. -/
theorem exists_double {n : ℕ} (h : n < single.infinity) :
    ∃ k < double.infinity, double.value k = single.value n := by
  have hsingle : single.unit = 2 ^ 23 ∧ single.infinity = 255 * 2 ^ 23 ∧ single.least = -149 := by
    decide
  have hdouble : double.unit = 2 ^ 52 ∧ double.infinity = 2047 * 2 ^ 52 ∧
      double.least = -1074 := by
    decide
  obtain ⟨m, e, hparts⟩ : ∃ m e, single.parts n = (m, e) := ⟨_, _, rfl⟩
  obtain ⟨hm, he, -, hsum⟩ := single.parts_bounds n
  obtain ⟨hunit, hinf, hleast⟩ := hsingle
  obtain ⟨hunit', hinf', hleast'⟩ := hdouble
  simp only [hparts, hunit, hleast] at hm he hsum
  rw [hinf] at h
  simp only [value, hparts]
  rcases Nat.eq_zero_or_pos m with rfl | hpos
  · refine ⟨0, by decide, ?_⟩
    have hzero : (double.parts 0).1 = 0 := by decide
    rw [hzero, Nat.cast_zero, zero_mul, zero_mul]
  · have hlog : m.log2 < 24 := (Nat.log2_lt hpos.ne').2 (by omega)
    -- the significand is shifted up until it has all the places that it can have
    obtain ⟨s, hs⟩ : ∃ s, m.log2 + s = 52 :=
      ⟨52 - m.log2, by omega⟩
    have hge : 2 ^ 52 ≤ m * 2 ^ s := by
      rw [← hs, Nat.pow_add]
      exact Nat.mul_le_mul_right _ (Nat.log2_self_le hpos.ne')
    have hlt : m * 2 ^ s < 2 * 2 ^ 52 := by
      rw [← hs, ← Nat.pow_succ', Nat.succ_eq_add_one, Nat.add_right_comm, Nat.pow_add]
      exact Nat.mul_lt_mul_of_pos_right Nat.lt_log2_self (Nat.two_pow_pos s)
    refine ⟨(e - s - double.least).toNat * double.unit + m * 2 ^ s, ?_, ?_⟩
    · rw [hunit', hinf', hleast']
      omega
    · rw [parts_join (by rw [hunit']; exact hlt) (by rw [hunit']; exact hge)
        (by rw [hleast']; omega), Nat.cast_mul, zpow_sub₀ two_ne_zero, zpow_natCast]
      push_cast
      field_simp

end Format
end Binary
end FixedFunction
