import FixedFunction.Json.Parser
import FixedFunction.Proofs.Binary.Widening
import FixedFunction.Proofs.Decimal.Shortest

/-!
# Reading decimals

**Input.**  A text that begins with a decimal, and goes on with something that is no part of one.

**Results.**
* `decimal`: the digits and the exponent of the decimal.
* `decimal_text`: what is read of a decimal as text has its value.
* `ofDecimal_of_contains`: a decimal in the interval of a number is rounded to the number.
* `exists_literal`: a finite number as a literal is read as the number.
-/

namespace FixedFunction
namespace Decimal

open Binary (Format tenTo)
open Json (digits fraction exponent digitsValue)

/-- Reads a decimal behind its sign: the digits, and the exponent of the last digit unless the
decimal is a whole number without point and exponent. -/
def decimal (cs : List Char) : Option ((Nat × Option Int) × List Char) := do
  let (ds, rest) ← digits cs
  let (fs, rest) ← fraction rest
  let (e, rest) ← exponent rest
  match fs, e with
  | none, none => return ((digitsValue ds, none), rest)
  | _, _ => return ((digitsValue (ds ++ fs.getD []), some (e.getD 0 - (fs.getD []).length)), rest)

/-- The number of 32 bits nearest to a decimal. -/
def single (negative : Bool) (n : Nat) (k : Int) : Float32 :=
  .ofBits (Format.single.ofDecimal negative n k).toUInt32

/-- Texts that do not go on a decimal. -/
def EndsDecimal (rest : List Char) : Prop :=
  ∀ c ∈ rest.head?, c.isDigit = false ∧ c ≠ '.' ∧ c ≠ 'e' ∧ c ≠ 'E'

/-! ### Digits -/

section Parts

variable {ds rest : List Char}

theorem digits_append (h : ∀ c ∈ ds, c.isDigit) (hne : ds ≠ [])
    (hrest : ∀ c ∈ rest.head?, c.isDigit = false) : digits (ds ++ rest) = some (ds, rest) := by
  have hspan : (ds ++ rest).span Char.isDigit = (ds, rest) := by
    rw [List.span_eq_takeWhile_dropWhile, List.takeWhile_append_of_pos h,
      List.dropWhile_append_of_pos h]
    cases rest with
    | nil => simp
    | cons c rest => simp [hrest c rfl]
  rw [digits, hspan]
  split
  case h_1 heq => exact absurd (congrArg Prod.fst heq) hne
  case h_2 => rfl

theorem digits_toDigits (n : ℕ) (hrest : ∀ c ∈ rest.head?, c.isDigit = false) :
    digits (Nat.toDigits 10 n ++ rest) = some (Nat.toDigits 10 n, rest) :=
  digits_append (fun _ hc => Nat.isDigit_of_mem_toDigits (by decide) (by decide) hc)
    Nat.toDigits_ne_nil hrest

theorem digitsValue_append (ds fs : List Char) :
    digitsValue (ds ++ fs) = Nat.ofDigitChars 10 fs (digitsValue ds) := by
  rw [digitsValue, List.foldl_append, Nat.ofDigitChars_eq_foldl]
  rfl

theorem digitsValue_zeros (k : ℕ) (ds : List Char) :
    digitsValue (List.replicate k '0' ++ ds) = digitsValue ds := by
  have hzeros : digitsValue (List.replicate k '0') = 0 :=
    Nat.ofDigitChars_eq_foldl.symm.trans Nat.ofDigitChars_replicate_zero
  rw [digitsValue_append, hzeros, Nat.ofDigitChars_eq_foldl]
  rfl

theorem digitsValue_append_zeros (ds : List Char) (k : ℕ) :
    digitsValue (ds ++ List.replicate k '0') = digitsValue ds * 10 ^ k := by
  rw [digitsValue_append, Nat.ofDigitChars_replicate_zero, Nat.mul_comm]

theorem digitsValue_toDigits (n : ℕ) : digitsValue (Nat.toDigits 10 n) = n :=
  (Nat.ofDigitChars_eq_foldl.symm).trans Nat.ofDigitChars_ten_toDigits

theorem fraction_none (hrest : ∀ c ∈ rest.head?, c ≠ '.') : fraction rest = some (none, rest) := by
  unfold fraction
  split
  case h_1 => exact absurd rfl (hrest '.' rfl)
  case h_2 => rfl

theorem exponent_none (hrest : ∀ c ∈ rest.head?, c ≠ 'e' ∧ c ≠ 'E') :
    exponent rest = some (none, rest) := by
  cases rest with
  | nil => rfl
  | cons c rest =>
    obtain ⟨he, he'⟩ := hrest c rfl
    unfold exponent
    simp [he, he']

/-- An exponent as text. -/
theorem exponent_repr (e : ℤ) (hrest : ∀ c ∈ rest.head?, c.isDigit = false) :
    exponent ('e' :: (e.repr.toList ++ rest)) = some (some e, rest) := by
  cases e with
  | ofNat n =>
    have hdigits := digits_toDigits n hrest
    obtain ⟨c, cs, hcons⟩ := List.exists_cons_of_ne_nil (Nat.toDigits_ne_nil (n := n) (b := 10))
    have hc : c.isDigit := by
      refine Nat.isDigit_of_mem_toDigits (by decide) (by decide) (b := 10) (n := n) ?_
      rw [hcons]
      exact List.mem_cons_self
    have hsign (sign : Char) (hs : sign.isDigit = false) (l : List Char) :
        Nat.toDigits 10 n ++ rest ≠ sign :: l := by
      rw [hcons]
      rintro h
      obtain rfl := (List.cons.inj h).1
      exact absurd hc (by rw [hs]; decide)
    rw [Int.repr, Nat.toList_repr, exponent, if_pos (.inl rfl)]
    · simp only [hdigits, Option.map_some, digitsValue_toDigits]
      rfl
    · exact hsign '-' (by decide)
    · exact hsign '+' (by decide)
  | negSucc n =>
    have hdigits := digits_toDigits (n + 1) hrest
    have hrepr : (Int.negSucc n).repr.toList = '-' :: Nat.toDigits 10 (n + 1) := by
      simp [Int.repr]
    rw [hrepr, List.cons_append]
    unfold exponent
    simp only [true_or, if_true, hdigits, Option.map_some, digitsValue_toDigits]
    rfl

theorem decimal_eq {cs r r' : List Char} {fs : Option (List Char)} {e : Option ℤ}
    (hds : digits cs = some (ds, r)) (hfs : fraction r = some (fs, r'))
    (he : exponent r' = some (e, rest)) (hne : fs.isSome ∨ e.isSome) :
    decimal cs = some ((digitsValue (ds ++ fs.getD []), some (e.getD 0 - (fs.getD []).length)),
      rest) := by
  simp only [decimal, hds, hfs, he, Option.bind_eq_bind, Option.bind_some]
  cases fs <;> cases e <;> simp_all

/-- Digits on both sides of a point. -/
theorem decimal_point {cs fs : List Char} (h : EndsDecimal rest) (hds : ∀ c ∈ ds, c.isDigit)
    (hds' : ds ≠ []) (hfs : ∀ c ∈ fs, c.isDigit) (hfs' : fs ≠ [])
    (hcs : cs = ds ++ '.' :: (fs ++ rest)) :
    decimal cs = some ((digitsValue (ds ++ fs), some (-(fs.length : ℤ))), rest) := by
  have hwhole : digits (ds ++ '.' :: (fs ++ rest)) = some (ds, '.' :: (fs ++ rest)) :=
    digits_append hds hds' (by simp)
  have hfraction : fraction ('.' :: (fs ++ rest)) = some (some fs, rest) := by
    rw [fraction, digits_append hfs hfs' fun c hc => (h c hc).1]
    rfl
  rw [hcs, decimal_eq hwhole hfraction (exponent_none fun c hc => (h c hc).2.2) (.inl rfl)]
  simp

/-- One digit, digits behind a point if there are more, and an exponent. -/
theorem decimal_exponent {c : Char} {cs : List Char} {e : ℤ} (h : EndsDecimal rest)
    (hds : ∀ x ∈ c :: ds, x.isDigit)
    (hcs : cs = c :: ((if ds.isEmpty then [] else '.' :: ds) ++ 'e' :: (e.repr.toList ++ rest))) :
    decimal cs = some ((digitsValue (c :: ds), some (e - ds.length)), rest) := by
  subst hcs
  obtain ⟨hc, hds⟩ := List.forall_mem_cons.1 hds
  have hexponent : exponent ('e' :: (e.repr.toList ++ rest)) = some (some e, rest) :=
    exponent_repr e fun c hc => (h c hc).1
  cases ds with
  | nil =>
    have hwhole : digits (c :: 'e' :: (e.repr.toList ++ rest)) =
        some ([c], 'e' :: (e.repr.toList ++ rest)) :=
      digits_append (by simpa using hc) (List.cons_ne_nil c []) (by simp)
    exact decimal_eq hwhole (fraction_none (by simp)) hexponent (.inr rfl)
  | cons x ds =>
    have hwhole : digits (c :: '.' :: (x :: ds ++ 'e' :: (e.repr.toList ++ rest))) =
        some ([c], '.' :: (x :: ds ++ 'e' :: (e.repr.toList ++ rest))) :=
      digits_append (by simpa using hc) (List.cons_ne_nil c []) (by simp)
    have hfraction : fraction ('.' :: (x :: ds ++ 'e' :: (e.repr.toList ++ rest))) =
        some (some (x :: ds), 'e' :: (e.repr.toList ++ rest)) := by
      rw [fraction, digits_append hds (List.cons_ne_nil x ds) (by simp)]
      rfl
    exact decimal_eq hwhole hfraction hexponent (.inl rfl)

/-- What is read of a decimal as text has its value. -/
theorem decimal_text (d : Digits) (h : EndsDecimal rest) :
    ∃ n k, decimal (d.text.toList ++ rest) = some ((n, some k), rest) ∧
      ratio (power n k) = ratio (power d.digits d.exponent) := by
  have hdigit : ∀ c ∈ Nat.toDigits 10 d.digits, c.isDigit := fun _ hc =>
    Nat.isDigit_of_mem_toDigits (by decide) (by decide) hc
  have hvalue := digitsValue_toDigits d.digits
  have hne : Nat.toDigits 10 d.digits ≠ [] := Nat.toDigits_ne_nil
  have hzeros (k : ℕ) : ∀ c ∈ List.replicate k '0', c.isDigit := by
    intro c hc
    rw [List.eq_of_mem_replicate hc]
    decide
  unfold Digits.text
  rw [String.toList_ofList]
  dsimp only
  generalize Nat.toDigits 10 d.digits = ds at *
  have hlen : 0 < ds.length := List.length_pos_iff.2 hne
  by_cases hpositional : !positional (d.exponent + ds.length - 1)
  · obtain ⟨c, tail, rfl⟩ := List.exists_cons_of_ne_nil hne
    rw [if_pos hpositional]
    refine ⟨_, _, decimal_exponent (e := d.exponent + (c :: tail).length - 1) h hdigit ?_, ?_⟩
    · simp
    · rw [hvalue, List.length_cons]
      congr 2
      omega
  rw [if_neg hpositional]
  by_cases hnegative : d.exponent + ds.length - 1 < 0
  · rw [if_pos hnegative]
    refine ⟨_, _, decimal_point h (hzeros 1) (by decide)
      (List.forall_mem_append.2 ⟨hzeros _, hdigit⟩) (List.append_ne_nil_of_right_ne_nil _ hne) rfl,
      ?_⟩
    rw [digitsValue_zeros, digitsValue_zeros, hvalue, List.length_append, List.length_replicate]
    congr 2
    omega
  rw [if_neg hnegative]
  by_cases hwhole : ds.length ≤ (d.exponent + ds.length - 1).toNat + 1
  · rw [if_pos hwhole]
    refine ⟨_, _, decimal_point h (List.forall_mem_append.2 ⟨hdigit, hzeros d.exponent.toNat⟩)
      (List.append_ne_nil_of_left_ne_nil hne _) (hzeros 1) (by decide) (by simp), ?_⟩
    rw [digitsValue_append_zeros, digitsValue_append_zeros, hvalue, ratio_power, ratio_power]
    have hexp : (10 : ℚ) ^ d.exponent = 10 ^ d.exponent.toNat := by
      rw [← zpow_natCast]
      congr 1
      omega
    rw [hexp]
    simp
  · rw [if_neg hwhole]
    refine ⟨_, _, decimal_point h (fun c hc => hdigit c (List.mem_of_mem_take hc)) ?_
      (fun c hc => hdigit c (List.mem_of_mem_drop hc)) ?_ (List.append_assoc _ _ _), ?_⟩
    · simpa using hne
    · simpa using hwhole
    rw [List.take_append_drop, hvalue, List.length_drop]
    congr 2
    omega

end Parts

/-! ### Rounding -/

section Rounding

variable {n d : ℕ} {k : ℤ}

/-- The decimals in the interval of a finite number are neither too large nor too small to be
looked at. -/
theorem size_bounds (hn : 0 < n) (h : n < Format.single.infinity)
    (hc : (Interval.ofMagnitude .single n).contains (power d k)) :
    d ≠ 0 ∧ -400 ≤ k + (Nat.toDigits 10 d).length ∧ k + (Nat.toDigits 10 d).length ≤ 400 := by
  obtain ⟨hlower, hupper, -⟩ := (Interval.contains_iff (power_snd_pos d k)).1 hc
  obtain ⟨hm, he, -, hsum⟩ := Format.single.parts_bounds n
  have hpos := Interval.parts_pos (f := Format.single) hn
  have hgap := Interval.gap_le (f := Format.single) (n := n)
  have hsingle : Format.single.unit = 2 ^ 23 ∧ Format.single.infinity = 255 * 2 ^ 23 ∧
      Format.single.least = -149 := by decide
  obtain ⟨hunit, hinf, hleast⟩ := hsingle
  rw [hinf] at h
  rw [hunit] at hm hsum
  rw [hleast] at he hsum
  rw [ratio_power] at hlower hupper
  generalize (Format.single.parts n).1 = m at *
  generalize (Format.single.parts n).2 = e at *
  have he' : e ≤ 105 := by omega
  have hlow : (2 : ℚ) ^ (-151 : ℤ) ≤ d * 10 ^ k := by
    calc (2 : ℚ) ^ (-151 : ℤ) ≤ 2 ^ (e - 2) := zpow_le_zpow_right₀ one_le_two (by omega)
      _ ≤ (4 * m - Interval.gap .single n : ℕ) * 2 ^ (e - 2) :=
        le_mul_of_one_le_left (by positivity) (by exact_mod_cast (by omega))
      _ ≤ d * 10 ^ k := hlower
  have hhigh : (d : ℚ) * 10 ^ k ≤ 2 ^ (130 : ℤ) := by
    calc (d : ℚ) * 10 ^ k ≤ (4 * m + 2 : ℕ) * 2 ^ (e - 2) := hupper
      _ ≤ (2 ^ 27 : ℕ) * 2 ^ (103 : ℤ) := by
        gcongr
        · omega
        · exact one_le_two
        · omega
      _ = 2 ^ (130 : ℤ) := by norm_num
  have hd : d ≠ 0 := by
    rintro rfl
    rw [Nat.cast_zero, zero_mul] at hlow
    exact absurd hlow (not_le.2 (by positivity))
  have hlen : 0 < (Nat.toDigits 10 d).length := Nat.length_toDigits_pos
  have hlt : d < 10 ^ (Nat.toDigits 10 d).length :=
    (Nat.length_toDigits_le_iff (by decide) hlen).1 le_rfl
  have hle := pow_length_le (Nat.pos_of_ne_zero hd)
  generalize (Nat.toDigits 10 d).length = l at *
  have habove : (d : ℚ) * 10 ^ k < 10 ^ (l + k) := by
    rw [zpow_add₀ (by norm_num), zpow_natCast]
    gcongr
    exact_mod_cast hlt
  have hbelow : (10 : ℚ) ^ (l + k - 1) ≤ d * 10 ^ k := by
    have hexp : (l : ℤ) + k - 1 = (l - 1 : ℕ) + k := by omega
    rw [hexp, zpow_add₀ (by norm_num), zpow_natCast]
    gcongr
    exact_mod_cast hle
  refine ⟨hd, ?_, ?_⟩
  · by_contra hsmall
    have : (10 : ℚ) ^ (l + k) ≤ 10 ^ (-60 : ℤ) := zpow_le_zpow_right₀ (by norm_num) (by omega)
    have : (10 : ℚ) ^ (-60 : ℤ) < 2 ^ (-151 : ℤ) := by norm_num
    linarith
  · by_contra hlarge
    have : (10 : ℚ) ^ (60 : ℤ) ≤ 10 ^ (l + k - 1) := zpow_le_zpow_right₀ (by norm_num) (by omega)
    have : (2 : ℚ) ^ (130 : ℤ) < 10 ^ (60 : ℤ) := by norm_num
    linarith

/-- The decimals in the interval of a finite number are rounded to it. -/
theorem ofDecimal_of_contains (hn : 0 < n) (h : n < Format.single.infinity)
    (hc : (Interval.ofMagnitude .single n).contains (power d k)) (negative : Bool) :
    Format.single.ofDecimal negative d k = Format.single.signed negative n := by
  obtain ⟨hd, hsmall, hlarge⟩ := size_bounds hn h hc
  have hguard : ¬(d = 0 ∨ k + (Nat.toDigits 10 d).length < -Format.decimalLimit) := by
    rw [Format.decimalLimit]
    omega
  have hguard' : ¬Format.decimalLimit < k + (Nat.toDigits 10 d).length := by
    rw [Format.decimalLimit]
    omega
  have hnearest := Interval.nearest_of_contains hn h.le (power_snd_pos d k) hc
  simp only [Format.ofDecimal, if_neg hguard, if_neg hguard']
  exact congrArg _ hnearest

theorem single_of_magnitude {x : Float32} {negative : Bool}
    (h : Format.single.ofDecimal negative d k =
      Format.single.signed negative (Format.single.magnitude x.toBits.toNat))
    (hnegative : Format.single.isNegative x.toBits.toNat = negative) : single negative d k = x := by
  have hbits : x.toBits.toNat < 2 * Format.single.signWeight := x.toBits.toNat_lt
  rw [single, h, ← hnegative, Format.signed_magnitude hbits]
  simp

/-- A finite number as a literal is its sign and a decimal that is rounded to it. -/
theorem exists_literal {x : Float32} (hx : x.isFinite) : ∃ negative body,
    (literal x).toList = (if negative then ['-'] else []) ++ body ∧
      ∀ rest, EndsDecimal rest →
        ∃ n k, decimal (body ++ rest) = some ((n, some k), rest) ∧ single negative n k = x := by
  have hfinite := (Binary.isFinite_iff x).1 hx
  let magnitude := Format.single.magnitude x.toBits.toNat
  refine ⟨Format.single.isNegative x.toBits.toNat,
    if magnitude = 0 then ['0', '.', '0'] else (shortest .single magnitude).text.toList, ?_, ?_⟩
  · simp only [literal, text, if_neg hfinite.not_gt, if_neg hfinite.ne]
    split_ifs <;> simp_all [magnitude]
  · intro rest h
    rcases Nat.eq_zero_or_pos magnitude with hzero | hpos
    · rw [if_pos hzero]
      refine ⟨0, -1, ?_, single_of_magnitude ?_ rfl⟩
      · have hdigit : ∀ c ∈ ['0'], c.isDigit := by simp
        exact decimal_point h hdigit (List.cons_ne_nil _ _) hdigit (List.cons_ne_nil _ _) rfl
      · change Format.single.ofDecimal _ 0 (-1) = Format.single.signed _ magnitude
        rw [hzero]
        rfl
    · rw [if_neg hpos.ne']
      obtain ⟨n, k, hread, hvalue⟩ := decimal_text (shortest .single magnitude) h
      refine ⟨n, k, hread, single_of_magnitude (ofDecimal_of_contains hpos hfinite ?_ _) rfl⟩
      rw [Interval.contains_congr (power_snd_pos _ _) (power_snd_pos _ _) hvalue]
      exact contains_shortest (by decide) (by decide) hpos

end Rounding

end Decimal
end FixedFunction
