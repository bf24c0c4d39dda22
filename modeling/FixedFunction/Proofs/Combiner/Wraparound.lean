import FixedFunction.Proofs.Combiner.Exact
import FixedFunction.Proofs.Shader.Combining

/-!
# Wraparound of registers

A register of eight bits stands for a quotient of 255, and values that come out of sums are larger
or negative.  A color component loses whole turns of 256/255, downward for the negative ones.
Alpha is cut off to a word, and a word keeps its sign when it is divided with remainder.

**Results.**
* `Shader.wraps`: the functions that shaders declare compute the same wraparound as the combiner.
* `Combiner.wrap_register`: what becomes of a color component and of alpha, and when it is the
  same.
-/

namespace FixedFunction

/-! ### The functions of shaders -/

namespace Shader

theorem value_255 : Binary.value 255 = 255 := by
  decide +kernel

theorem value_256 : Binary.value 256 = 256 := by
  decide +kernel

/-- The functions for alpha and for the inputs of stages that a fragment shader declares return the
wraparound of their arguments. -/
structure Wraps (p : Program) (textures : Textures) : Prop where
  scalar : ∀ {e : Env ℚ} {x : ℚ}, e .scalarArg = .vector [x] →
    ∃ body, .function .none .overflowScalar [(.scalarArg, .f32)] .f32 [.return body] ∈
        (fragmentShader p).flatten ∧
      body.eval (rational textures) e = .vector [Combiner.wrapAlpha x]
  vector : ∀ {e : Env ℚ} {v : Vec4 ℚ}, e .vectorArg = .vector v.list →
    ∃ body, .function .none .overflow [(.vectorArg, .vec4)] .vec4 [.return body] ∈
        (fragmentShader p).flatten ∧
      body.eval (rational textures) e = .vector [Combiner.wrapColor v.r, Combiner.wrapColor v.g,
        Combiner.wrapColor v.b, Combiner.wrapAlpha v.a]

theorem mem_fragmentShader_of_overflowDecls {p : Program} {d : Decl}
    (h : d ∈ overflowDecls.flatten) : d ∈ (fragmentShader p).flatten := by
  rw [fragmentShader, List.flatten_append, List.flatten_append]
  exact List.mem_append_left _ (List.mem_append_right _ h)

theorem wraps (p : Program) (textures : Textures) : Wraps p textures where
  scalar {e x} hx := by
    refine ⟨_, mem_fragmentShader_of_overflowDecls List.mem_cons_self, ?_⟩
    let w := nearestWord (towardZero (x * Binary.value 255))
    have hrem : (w : ℚ) - (256 : ℕ) * towardZero (w / (256 : ℕ)) = (w.tmod 256 : ℤ) := by
      rw [towardZero_div, Int.tmod_def]
      push_cast
      rfl
    rw [eval_div]
    simp only [Expr.eval, hx]
    change Value.vector [((w : ℚ) - (256 : ℕ) * towardZero (w / (256 : ℕ))) / Binary.value 255] = _
    rw [hrem, Combiner.wrapAlpha_rational, ← value_255]
  vector {e v} hv := by
    refine ⟨_, mem_fragmentShader_of_overflowDecls (List.mem_cons_of_mem _ List.mem_cons_self), ?_⟩
    let f (x : ℚ) := Int.fract (x * (Binary.value 255 / Binary.value 256)) *
      (Binary.value 256 / Binary.value 255)
    have hcolor : f = Combiner.wrapColor := by
      funext x
      rw [Combiner.wrapColor_rational, ← value_255, ← value_256]
    simp only [Expr.eval, hv]
    change Value.vector [f v.r, f v.g, f v.b, Combiner.wrapAlpha v.a] = _
    rw [hcolor]

end Shader

/-! ### Registers -/

namespace Combiner

/-- The value of a register that holds an integer. -/
def register (n : ℤ) : ℚ :=
  n / 255

/-- The value behind one turn of a register of eight bits. -/
def turn : ℚ :=
  256 / 255

section Register

variable (n k : ℤ)

theorem register_add_turns : register n + k * turn = register (n + 256 * k) := by
  unfold register turn
  push_cast
  ring

theorem register_injective : Function.Injective register := by
  intro m n h
  unfold register at h
  exact_mod_cast (div_left_inj' (by norm_num)).1 h

theorem register_le_iff {m n : ℤ} : register m ≤ register n ↔ m ≤ n := by
  unfold register
  rw [div_le_div_iff_of_pos_right (by norm_num)]
  exact Int.cast_le

/-- A color component is reduced to the remainder. -/
theorem wrapColor_register : wrapColor (register n) = register (n % 256) := by
  have hscaled : register n * (255 / 256) = n / (256 : ℕ) := by
    unfold register
    push_cast
    ring
  rw [wrapColor_rational, hscaled, Int.fract_div_intCast_eq_div_intCast_mod]
  unfold register
  push_cast
  ring

/-- Alpha is reduced to the remainder with the sign of the word. -/
theorem wrapAlpha_register (hn : |n| < 2 ^ 31) :
    wrapAlpha (register n) = register (n.tmod 256) := by
  have hscaled : register n * 255 = n := by
    unfold register
    ring
  rw [wrapAlpha_rational, hscaled, towardZero_intCast, nearestWord_eq hn]
  rfl

end Register

theorem register_zero : register 0 = 0 := by
  simp [register]

theorem register_full : register 255 = 1 := by
  norm_num [register]

/-- The two remainders differ by a turn where the word is negative and no multiple of a turn. -/
theorem tmod_eq (n : ℤ) : n.tmod 256 = n % 256 - if 0 ≤ n ∨ 256 ∣ n then 0 else 256 := by
  rw [Int.tmod_eq_emod]
  split <;> rfl

/-- A color component becomes the remainder, in [0, 1], and forgets whole turns.  Alpha does so
exactly where the word is not negative or is a whole number of turns: it keeps the sign.  Shaders
declare functions that compute the same. -/
theorem wrap_register {n : ℤ} (hn : |n| < 2 ^ 31) :
    (wrapColor (register n) = register (n % 256) ∧
      0 ≤ wrapColor (register n) ∧ wrapColor (register n) ≤ 1 ∧
      ∀ k : ℤ, wrapColor (register n + k * turn) = wrapColor (register n)) ∧
    (wrapAlpha (register n) = register (n.tmod 256) ∧
      -1 ≤ wrapAlpha (register n) ∧ wrapAlpha (register n) ≤ 1 ∧
      (0 ≤ wrapAlpha (register n) ↔ 0 ≤ n ∨ 256 ∣ n) ∧
      (wrapAlpha (register n) = wrapColor (register n) ↔ 0 ≤ n ∨ 256 ∣ n) ∧
      ∀ k : ℤ, |n + 256 * k| < 2 ^ 31 →
        (wrapAlpha (register n + k * turn) = wrapAlpha (register n) ↔
          (0 ≤ n ↔ 0 ≤ n + 256 * k) ∨ 256 ∣ n)) ∧
    ∀ (p : Program) (textures : Shader.Textures), Shader.Wraps p textures := by
  have hnegative : register (-255) = -1 := by norm_num [register]
  rw [wrapColor_register, wrapAlpha_register n hn, ← hnegative, ← register_zero, ← register_full]
  refine ⟨⟨rfl, ?lower, ?upper, fun k => ?period⟩, ⟨rfl, ?below, ?above, ?sign, ?same,
    fun k hk => ?turns⟩, Shader.wraps⟩
  case lower | upper =>
    rw [register_le_iff]
    omega
  case period => rw [register_add_turns, wrapColor_register, Int.add_mul_emod_self_left]
  case below | above | sign =>
    rw [register_le_iff, tmod_eq]
    split <;> omega
  case same =>
    rw [register_injective.eq_iff, tmod_eq]
    split <;> omega
  case turns =>
    rw [register_add_turns, wrapAlpha_register _ hk, register_injective.eq_iff, tmod_eq, tmod_eq]
    split <;> split <;> omega

/-- Three turns and some more below zero. -/
theorem wrap_register_below : |(-1000 : ℤ)| < 2 ^ 31 ∧
    (wrapColor (register (-1000)) = register (-1000 % 256) ∧
      0 ≤ wrapColor (register (-1000)) ∧ wrapColor (register (-1000)) ≤ 1 ∧
      ∀ k : ℤ, wrapColor (register (-1000) + k * turn) = wrapColor (register (-1000))) ∧
    (wrapAlpha (register (-1000)) = register (Int.tmod (-1000) 256) ∧
      -1 ≤ wrapAlpha (register (-1000)) ∧ wrapAlpha (register (-1000)) ≤ 1 ∧
      (0 ≤ wrapAlpha (register (-1000)) ↔ 0 ≤ (-1000 : ℤ) ∨ (256 : ℤ) ∣ -1000) ∧
      (wrapAlpha (register (-1000)) = wrapColor (register (-1000)) ↔
        0 ≤ (-1000 : ℤ) ∨ (256 : ℤ) ∣ -1000) ∧
      ∀ k : ℤ, |-1000 + 256 * k| < 2 ^ 31 →
        (wrapAlpha (register (-1000) + k * turn) = wrapAlpha (register (-1000)) ↔
          (0 ≤ (-1000 : ℤ) ↔ 0 ≤ -1000 + 256 * k) ∨ (256 : ℤ) ∣ -1000)) ∧
    ∀ (p : Program) (textures : Shader.Textures), Shader.Wraps p textures :=
  ⟨by decide, wrap_register (by decide)⟩

/-- A register that went down to -255 is 1 as a color component and keeps its value as alpha, until
a turn is added. -/
theorem wrapAlpha_negative :
    register (-255) = -1 ∧ wrapColor (-1 : ℚ) = register (-255 % 256) ∧
      register (-255 % 256) = 1 / 255 ∧ wrapAlpha (-1 : ℚ) = -1 ∧
      wrapAlpha (-1 + turn) = 1 / 255 := by
  decide +kernel

end Combiner

end FixedFunction
