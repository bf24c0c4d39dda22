import FixedFunction.Proofs.Combiner.Exact
import FixedFunction.Proofs.Program.Recording
import FixedFunction.Proofs.Shader.Combining
import Mathlib.Data.List.Infix

/-!
# A component alone

The combiner computes a component of a half from the same component of the inputs, and a shader
computes whole vectors.  On exact numbers both give the same sums.  They part where a half
compares: a shader asks red of the inputs for all components, the combiner asks each component.

**Results.**
* `Half.component_eq_combine_iff`: when a component that is known to be chosen or not is the one
  that the combiner chooses.
* `Material.combined_components`: the components that the shader of a material computes which the
  combiner computes too.
-/

namespace FixedFunction

open Shader

namespace Half

/-- The bias and the scale of a half are among those of the settings. -/
structure Configured (h : Half) : Prop where
  bias : ∃ b : CombineBias, h.bias = b.value
  scale : ∃ s : CombineScale, h.scale = s.value

/-- A value of a half that is not zero once it is limited. -/
def Shows (h : Half) (x : ℚ) : Prop :=
  if h.clamp then 0 < x else x ≠ 0

end Half

/-! ### Settings -/

theorem CombineBias.exact_eq (b : CombineBias) :
    Binary.value b.value = match b with
      | .zero => 0
      | .addHalf => 1 / 2
      | .subHalf => -1 / 2 := by
  cases b <;> decide +kernel

theorem CombineScale.exact_eq (s : CombineScale) :
    Binary.value s.value = match s with
      | .scale1 => 1
      | .scale2 => 2
      | .scale4 => 4
      | .divide2 => 1 / 2 := by
  cases s <;> decide +kernel

/-- A bias that is not written is zero. -/
theorem CombineBias.exact_eq_zero {b : CombineBias} (h : b.value == 0) :
    Binary.value b.value = 0 := by
  cases b with
  | zero => exact exact_eq .zero
  | addHalf | subHalf => exact absurd h (by decide +kernel)

/-- A scale that is not written is one. -/
theorem CombineScale.exact_eq_one {s : CombineScale} (h : s.value == 1) :
    Binary.value s.value = 1 := by
  cases s with
  | scale1 => exact exact_eq .scale1
  | scale2 | scale4 | divide2 => exact absurd h (by decide +kernel)

theorem CombinerHalf.configured_of_lower {ι : Type} {operand : ι → Operand} {h : CombinerHalf ι}
    {x : Half} (hx : h.lower operand = .ok x) : x.Configured := by
  obtain ⟨op, -, rfl⟩ := lower_eq_ok hx
  exact ⟨⟨h.bias, rfl⟩, ⟨h.scale, rfl⟩⟩

theorem Material.configured_of_lower {o : Omissions} {m : Material} {p : Program}
    (h : m.lower o = .ok p) {s : Stage} (hs : s ∈ p.stages) :
    s.color.Configured ∧ s.alpha.Configured := by
  obtain ⟨gens, stages, check, -, hstages, -, rfl⟩ := lower_eq_ok h
  obtain ⟨k, t, -, ht⟩ := mem_of_refuseFirst hstages hs
  obtain ⟨coord, raster, color, alpha, -, -, hcolor, halpha, rfl⟩ := CombinerStage.lower_eq_ok ht
  exact ⟨CombinerHalf.configured_of_lower hcolor, CombinerHalf.configured_of_lower halpha⟩

section Component

variable (textures : Textures) {h : Half}

namespace Half

/-- Leaving out a bias of zero and a scale of one changes no sum. -/
theorem adjust_rational (hh : h.Configured) (x : ℚ) :
    h.adjust (rational textures) x = (x + Binary.value h.bias) * Binary.value h.scale := by
  obtain ⟨⟨b, hb⟩, s, hs⟩ := hh
  have hbiased : (if h.bias == 0 then x else x + Binary.value h.bias) =
      x + Binary.value h.bias := by
    split
    case isTrue hzero => rw [hb, CombineBias.exact_eq_zero (hb ▸ hzero), add_zero]
    case isFalse => rfl
  have hscaled (y : ℚ) : (if h.scale == 1 then y else y * Binary.value h.scale) =
      y * Binary.value h.scale := by
    split
    case isTrue hone => rw [hs, CombineScale.exact_eq_one (hs ▸ hone), mul_one]
    case isFalse => rfl
  rw [← hbiased, ← hscaled]
  rfl

theorem limit_rational (x : ℚ) :
    h.limit (rational textures) x = if h.clamp then Combiner.saturate x else x := by
  rw [Combiner.saturate_rational]
  rfl

/-- Limiting keeps apart from zero exactly what shows. -/
theorem limit_eq_zero_iff (x : ℚ) : h.limit (rational textures) x = 0 ↔ ¬ h.Shows x := by
  unfold Half.limit Shows
  split
  case isTrue =>
    change min (max x 0) 1 = 0 ↔ ¬ 0 < x
    rw [not_lt]
    constructor
    · intro hzero
      by_contra hx
      rw [max_eq_left (not_le.1 hx).le] at hzero
      exact absurd hzero (lt_min (not_le.1 hx) one_pos).ne'
    · intro hx
      rw [max_eq_right hx, min_eq_left zero_le_one]
  case isFalse => rw [not_not]

theorem limit_zero : h.limit (rational textures) 0 = 0 := by
  rw [limit_eq_zero_iff]
  unfold Shows
  split <;> simp

section Combine

variable (greater : Bool) (a b c d : ℚ)

/-- A component of a half as the combiner computes it, limited as a shader does. -/
theorem combine_rational :
    Combiner.combine h.op a b c d (Binary.value h.bias) (Binary.value h.scale) h.clamp =
      h.limit (rational textures)
        (Combiner.evaluate h.op a b c d (Binary.value h.bias) (Binary.value h.scale)) :=
  (limit_rational textures _).symm

/-- Sums are computed component by component. -/
theorem component_of_sum (hh : h.Configured) (hop : h.op ≠ .greater) :
    h.component (rational textures) greater a b c d =
      Combiner.combine h.op a b c d (Binary.value h.bias) (Binary.value h.scale) h.clamp := by
  rw [combine_rational textures, component]
  cases hcase : h.op with
  | add | sub =>
    simp only [adjust_rational textures hh, Combiner.evaluate, Combiner.mix_rational]
    rfl
  | greater => exact absurd hcase hop

/-- A half that compares shows the third input where it is chosen. -/
theorem component_of_compare (hop : h.op = .greater) :
    h.component (rational textures) greater a b c d =
      h.limit (rational textures) (if greater then c else 0) := by
  have hzero : (rational textures).lit 0 = 0 := CombineBias.exact_eq .zero
  rw [component, hop]
  dsimp only
  rw [hzero]

theorem combine_of_compare (hop : h.op = .greater) :
    Combiner.combine h.op a b c d (Binary.value h.bias) (Binary.value h.scale) h.clamp =
      h.limit (rational textures) (if b < a then c else 0) := by
  rw [combine_rational textures, hop]
  simp only [Combiner.evaluate, Scalar.lt, Scalar.ofInt, Int.cast_zero, decide_eq_true_eq]

/-- A component is the one that the combiner computes, unless the half compares, the component
itself compares otherwise, and the third input shows. -/
theorem component_eq_combine_iff (hh : h.Configured) :
    h.component (rational textures) greater a b c d =
        Combiner.combine h.op a b c d (Binary.value h.bias) (Binary.value h.scale) h.clamp ↔
      ¬ (h.op = .greater ∧ ¬ (greater ↔ b < a) ∧ h.Shows c) := by
  by_cases hop : h.op = .greater
  case neg => exact iff_of_true (component_of_sum textures _ _ _ _ _ hh hop) fun h => hop h.1
  rw [component_of_compare textures _ _ _ _ _ hop, combine_of_compare textures _ _ _ _ hop]
  by_cases hagree : greater ↔ b < a
  · rw [if_congr hagree rfl rfl]
    exact iff_of_true rfl fun h => h.2.1 hagree
  · -- One of the two is zero, and the other the third input.
    have hshows : h.limit (rational textures) c = h.limit (rational textures) 0 ↔ ¬ h.Shows c := by
      rw [limit_zero, limit_eq_zero_iff]
    have hcondition : h.op = .greater ∧ ¬ (greater ↔ b < a) ∧ h.Shows c ↔ h.Shows c := by
      rw [and_iff_right hop, and_iff_right hagree]
    rw [hcondition, ← hshows]
    by_cases hb : b < a
    · rw [if_neg fun hgreater => hagree (iff_of_true hgreater hb), if_pos hb, eq_comm]
    · have hgreater : greater := by
        by_contra hgreater
        exact hagree (iff_of_false hgreater hb)
      rw [if_pos hgreater, if_neg hb]

end Combine

end Half

namespace StageInputs

variable (i : StageInputs ℚ)

/-- A component of a half as the combiner computes it, from that component of the inputs. -/
def alone (h : Half) (c : Component) : ℚ :=
  Combiner.combine h.op (i.a.get c) (i.b.get c) (i.c.get c) (i.d.get c) (Binary.value h.bias)
    (Binary.value h.scale) h.clamp

/-- A half compares, a component compares otherwise than red, and it shows what is chosen. -/
structure Parts (h : Half) (c : Component) : Prop where
  compares : h.op = .greater
  otherwise : ¬ (i.b.r < i.a.r ↔ i.b.get c < i.a.get c)
  shows : h.Shows (i.c.get c)

theorem not_parts_red (h : Half) : ¬ i.Parts h .r :=
  fun hparts => hparts.otherwise Iff.rfl

theorem component_eq_alone_iff (hh : h.Configured) (c : Component) :
    h.component (rational textures) (i.greater (rational textures)) (i.a.get c) (i.b.get c)
      (i.c.get c) (i.d.get c) = i.alone h c ↔ ¬ i.Parts h c := by
  have hgreater : i.greater (rational textures) ↔ i.b.r < i.a.r := decide_eq_true_iff
  rw [alone, Half.component_eq_combine_iff textures _ _ _ _ _ hh, hgreater]
  exact not_congr ⟨fun ⟨h₁, h₂, h₃⟩ => ⟨h₁, h₂, h₃⟩, fun ⟨h₁, h₂, h₃⟩ => ⟨h₁, h₂, h₃⟩⟩

end StageInputs
end Component

/-- Each stage writes its registers in the body of the fragment shader. -/
theorem writeStmts_infix {p : Program} {j : Nat} {s : Stage} (h : p.stages[j]? = some s) :
    writeStmts j s <:+: fragmentBody p := by
  have hstage : [stageStmts j s] <:+: p.stages.mapIdx stageStmts := by
    obtain ⟨hj, rfl⟩ := List.getElem?_eq_some_iff.1 h
    exact (List.singleton_infix_iff _ _).2 (List.mem_mapIdx.2 ⟨j, hj, rfl⟩)
  calc writeStmts j s <:+: stageStmts j s := (List.suffix_append _ _).isInfix
    _ = [stageStmts j s].flatten := List.flatten_singleton.symm
    _ <:+: (p.stages.mapIdx stageStmts).flatten := hstage.flatten
    _ <:+: fragmentBody p := by
      rw [fragmentBody, List.append_assoc]
      exact List.infix_append _ _ _

/-- A stage writes its registers in the text of the fragment shader.  What it writes has red of the
color half as the combiner computes it, and every other component exactly where it does not part
from red. -/
theorem Material.combined_components {o : Omissions} {m : Material} {p : Program}
    (h : m.lower o = .ok p) {s : Stage} (hs : s ∈ p.stages) (textures : Textures) {k : Nat}
    {e : Env ℚ} {i : StageInputs ℚ}
    (he : ∀ x, e (.operand k x) = .vector (i.get x).list) :
    (∀ j, p.stages[j]? = some s → ∃ body,
      entryBody? .fragment (fragmentShader p).text = some body ∧ writeStmts j s <:+: body) ∧
    (∃ g b, (combinedColor k s.color).eval (rational textures) e =
        .vector [i.alone s.color .r, g, b] ∧
      (g = i.alone s.color .g ↔ ¬ i.Parts s.color .g) ∧
      (b = i.alone s.color .b ↔ ¬ i.Parts s.color .b)) ∧
    ∃ a, (combinedAlpha k s.alpha).eval (rational textures) e = .vector [a] ∧
      (a = i.alone s.alpha .a ↔ ¬ i.Parts s.alpha .a) := by
  obtain ⟨hcolor, halpha⟩ := configured_of_lower h hs
  have hred := (i.component_eq_alone_iff textures hcolor .r).2 (i.not_parts_red _)
  refine ⟨fun j hj => ?_, ?_, ?_⟩
  · exact ⟨_, entryBody?_fragmentShader (finite_of_lower h), writeStmts_infix hj⟩
  · refine ⟨_, _, ?_, i.component_eq_alone_iff textures hcolor .g,
      i.component_eq_alone_iff textures hcolor .b⟩
    rw [← hred]
    exact eval_combinedColor he s.color
  · exact ⟨_, eval_combinedAlpha he s.alpha, i.component_eq_alone_iff textures halpha .a⟩

namespace Sample

/-- A material whose stage chooses between a register and zero, in both halves. -/
def choosing : Material where
  stages := [{
    color := { a := .c0, b := .c1, c := .c2, d := .zero, op := .compR8Gt }
    alpha := { a := .a0, b := .a1, c := .a2, d := .zero, op := .compR8Gt } }]

/-- Inputs of which the first is red, the second black and the third white. -/
def redder : StageInputs ℚ where
  a := ⟨1, 0, 0, 0⟩
  b := ⟨0, 0, 0, 0⟩
  c := ⟨1, 1, 1, 1⟩
  d := ⟨0, 0, 0, 0⟩

/-- Variables that hold the inputs of a stage. -/
def holding (i : StageInputs ℚ) : Env ℚ
  | .operand _ x => .vector (i.get x).list
  | _ => .vector []

/-- Textures that are black. -/
def black : Textures :=
  fun _ _ _ _ => ⟨0, 0, 0, 0⟩

end Sample

/-- The stage gives red as the combiner does, and the other components where they do not part. -/
theorem combined_components_choosing : ∃ p, Sample.choosing.lower {} = .ok p ∧ ∃ s ∈ p.stages,
    s.color.op = .greater ∧
    (∀ x, Sample.holding Sample.redder (.operand 0 x) = .vector (Sample.redder.get x).list) ∧
    (∃ g b, (combinedColor 0 s.color).eval (rational Sample.black) (Sample.holding Sample.redder) =
        .vector [Sample.redder.alone s.color .r, g, b] ∧
      (g = Sample.redder.alone s.color .g ↔ ¬ Sample.redder.Parts s.color .g) ∧
      (b = Sample.redder.alone s.color .b ↔ ¬ Sample.redder.Parts s.color .b)) ∧
    ∃ a, (combinedAlpha 0 s.alpha).eval (rational Sample.black) (Sample.holding Sample.redder) =
        .vector [a] ∧
      (a = Sample.redder.alone s.alpha .a ↔ ¬ Sample.redder.Parts s.alpha .a) := by
  obtain ⟨p, hp, s, hs, hop⟩ : ∃ p, Sample.choosing.lower {} = .ok p ∧ ∃ s ∈ p.stages,
      s.color.op = .greater := ⟨_, rfl, _, List.mem_cons_self, rfl⟩
  have he : ∀ x, Sample.holding Sample.redder (.operand 0 x) =
      .vector (Sample.redder.get x).list := fun _ => rfl
  exact ⟨p, hp, s, hs, hop, he, (Material.combined_components hp hs Sample.black he).2⟩

/-- Where the first input is red and the second black, the stage gives white, and of its components
only red is the one that the combiner computes.  Going through a register changes no input. -/
theorem combined_parts_choosing : (∀ v ∈ [Sample.redder.a, Sample.redder.b, Sample.redder.c],
      (rational Sample.black).overflow v = v) ∧
    ∃ p, Sample.choosing.lower {} = .ok p ∧ ∃ s ∈ p.stages,
    (combinedColor 0 s.color).eval (rational Sample.black) (Sample.holding Sample.redder) =
      .vector [1, 1, 1] ∧
    (combinedAlpha 0 s.alpha).eval (rational Sample.black) (Sample.holding Sample.redder) =
      .vector [1] ∧
    [Component.r, .g, .b].map (Sample.redder.alone s.color) = [1, 0, 0] ∧
    Sample.redder.alone s.alpha .a = 0 := by
  refine ⟨?_, _, rfl, _, List.mem_cons_self, ?_, ?_, ?_, ?_⟩
  · have hblack : Combiner.wrapColor (0 : ℚ) = 0 ∧ Combiner.wrapAlpha (0 : ℚ) = 0 := by
      decide +kernel
    have hwhite : Combiner.wrapColor (1 : ℚ) = 1 ∧ Combiner.wrapAlpha (1 : ℚ) = 1 := by
      decide +kernel
    simp [Sample.redder, rational, hblack, hwhite]
  · rw [eval_combinedColor (i := Sample.redder) fun _ => rfl]
    refine congrArg Value.vector ?_
    decide +kernel
  · rw [eval_combinedAlpha (i := Sample.redder) fun _ => rfl]
    refine congrArg Value.vector ?_
    decide +kernel
  · decide +kernel
  · decide +kernel

end FixedFunction
