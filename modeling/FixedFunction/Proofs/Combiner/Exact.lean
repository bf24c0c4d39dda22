import FixedFunction.Binary.Format
import FixedFunction.Combiner.Arithmetic
import FixedFunction.Proofs.Shader.Evaluation
import Mathlib.Data.Rat.Floor

/-!
# Exact numbers

Quotients of integers, on which neither the combiner nor a shader rounds.  Only the conversion to
a signed word of 32 bits loses something: what is behind the point, and what leaves its range.

**Results.**
* `Binary.value`: the quotient that a finite number of single precision is.
* `Shader.rational`: the operations of shaders on quotients, for any textures.
* `towardZero_div`: an integer divided and cut off is its truncated quotient.
-/

namespace FixedFunction

/-- The quotient that a finite number of single precision is. -/
def Binary.value (x : Float32) : ℚ :=
  let bits := x.toBits.toNat
  let (m, e) := Format.single.parts (Format.single.magnitude bits)
  let (num, den) := scale m e
  mkRat (if Format.single.isNegative bits then -num else num) den

/-- The integer next to a quotient on the side of zero. -/
def towardZero (x : ℚ) : ℤ :=
  if x < 0 then ⌈x⌉ else ⌊x⌋

/-- The signed word of 32 bits that is nearest to an integer. -/
def nearestWord (n : ℤ) : ℤ :=
  max (-2 ^ 31) (min n (2 ^ 31 - 1))

instance : Scalar ℚ where
  ofInt n := n
  floor x := ⌊x⌋
  truncate x := nearestWord (towardZero x)
  lt x y := x < y

@[simp] theorem towardZero_intCast (n : ℤ) : towardZero n = n := by
  simp [towardZero]

theorem towardZero_div (n : ℤ) (d : ℕ) : towardZero (n / d) = n.tdiv d := by
  unfold towardZero
  split
  case isTrue h =>
    have hn : n ≤ 0 := by
      by_contra hn
      exact absurd h (not_lt.2 (div_nonneg (by exact_mod_cast (not_le.1 hn).le) d.cast_nonneg))
    rw [Rat.ceil_intCast_div_natCast, ← Int.tdiv_eq_ediv_of_nonneg (by omega), Int.neg_tdiv,
      Int.neg_neg]
  case isFalse h =>
    rw [Rat.floor_intCast_div_natCast]
    rcases Nat.eq_zero_or_pos d with rfl | hd
    · simp
    · have hn : 0 ≤ n := by
        have hq : (0 : ℚ) ≤ n / d * d := mul_nonneg (not_lt.1 h) d.cast_nonneg
        rw [div_mul_cancel₀ _ (by exact_mod_cast hd.ne')] at hq
        exact_mod_cast hq
      rw [Int.tdiv_eq_ediv_of_nonneg hn]

theorem nearestWord_eq {n : ℤ} (h : |n| < 2 ^ 31) : nearestWord n = n := by
  rw [abs_lt] at h
  unfold nearestWord
  omega

namespace Combiner

variable (x y z : ℚ)

/-! What the operations of the combiner are on quotients. -/

theorem wrapColor_rational : wrapColor x = Int.fract (x * (255 / 256)) * (256 / 255) :=
  rfl

theorem wrapAlpha_rational :
    wrapAlpha x = ((nearestWord (towardZero (x * 255))).tmod 256 : ℤ) / 255 :=
  rfl

theorem mix_rational : mix x y z = x * (1 - z) + y * z := by
  change x * (((1 : ℤ) : ℚ) - z) + y * z = _
  rw [Int.cast_one]

theorem saturate_rational : saturate x = min (max x 0) 1 := by
  have hbelow : (if x < 0 then 0 else x) = max x 0 := by
    rw [max_def_lt]
  have habove (y : ℚ) : (if 1 < y then 1 else y) = min y 1 := by
    rw [min_comm, min_def_lt]
  rw [← habove, ← hbelow]
  simp only [saturate, Scalar.lt, Scalar.ofInt, Int.cast_zero, Int.cast_one, decide_eq_true_eq]

end Combiner

namespace Shader

/-- What a texture gives with a sampler, at a coordinate and with a level bias. -/
abbrev Textures :=
  UInt8 → UInt8 → Vec2 ℚ → ℚ → Vec4 ℚ

/-- The operations of shaders on quotients.  Functions whose values need not be quotients have
none. -/
def rational (textures : Textures) : Arithmetic ℚ where
  lit := Binary.value
  int n := n
  add x y := x + y
  sub x y := x - y
  mul x y := x * y
  div x y := x / y
  rem x y := x - y * towardZero (x / y)
  compare op x y :=
    match op with
    | .lt => x < y
    | .le => x ≤ y
    | .gt => y < x
    | .ge => y ≤ x
    | .eq => x = y
    | _ => x ≠ y
  mix x y z := x * (1 - z) + y * z
  saturate x := min (max x 0) 1
  dot xs ys := (List.zipWith (· * ·) xs ys).sum
  overflow v :=
    ⟨Combiner.wrapColor v.r, Combiner.wrapColor v.g, Combiner.wrapColor v.b, Combiner.wrapAlpha v.a⟩
  sample := textures
  place x := ⌊x⌋.toNat
  call f args :=
    match f, args with
    | .fract, [xs] => xs.map Int.fract
    | .toI32, [xs] => xs.map fun x => (nearestWord (towardZero x) : ℚ)
    | .toF32, [xs] => xs
    | .overflowScalar, [xs] => xs.map Combiner.wrapAlpha
    | _, _ => []

end Shader
end FixedFunction
