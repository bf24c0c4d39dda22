import FixedFunction.Program.Compile
import FixedFunction.Proofs.Failure
import Mathlib.Data.List.Forall2

/-!
# What a lowered part is made of

**Results.**
* `lower_eq_ok` of generators, halves and stages: what is known of the parts of a material that is
  lowered.
-/

namespace FixedFunction

section RefuseFirst

variable {α β : Type} {f : Nat → α → Except Error β}

theorem refuseFirst_cons_eq_ok {k : Nat} {x : α} {l : List α} {ys : List β} :
    refuseFirst f k (x :: l) = .ok ys ↔
      ∃ y, f k x = .ok y ∧ ∃ l', refuseFirst f (k + 1) l = .ok l' ∧ ys = y :: l' := by
  rw [refuseFirst, bind_eq_ok]
  constructor
  · rintro ⟨y, hy, h⟩
    obtain ⟨l', hl', h⟩ := bind_eq_ok.1 h
    exact ⟨y, hy, l', hl', (Except.ok.inj h).symm⟩
  · rintro ⟨y, hy, l', hl', rfl⟩
    exact ⟨y, hy, bind_eq_ok.2 ⟨l', hl', rfl⟩⟩

theorem length_of_refuseFirst {l : List α} : ∀ {k : Nat} {l' : List β},
    refuseFirst f k l = .ok l' → l'.length = l.length := by
  induction l with
  | nil =>
    intro k l' h
    rw [← Except.ok.inj h]
    rfl
  | cons x l ih =>
    intro k l' h
    obtain ⟨y, -, ys, hys, rfl⟩ := refuseFirst_cons_eq_ok.1 h
    rw [List.length_cons, List.length_cons, ih hys]

/-- Each result is that of the element at its place. -/
theorem getElem?_of_refuseFirst {l : List α} : ∀ {k i : Nat} {l' : List β} {y : β},
    refuseFirst f k l = .ok l' → l'[i]? = some y → ∃ x, l[i]? = some x ∧ f (k + i) x = .ok y := by
  induction l with
  | nil =>
    intro k i l' y h hy
    rw [← Except.ok.inj h] at hy
    exact absurd hy (by simp)
  | cons x l ih =>
    intro k i l' y h hy
    obtain ⟨y₀, hy₀, ys, hys, rfl⟩ := refuseFirst_cons_eq_ok.1 h
    cases i with
    | zero => exact ⟨x, rfl, hy₀.trans (congrArg _ (Option.some.inj hy))⟩
    | succ i =>
      obtain ⟨z, hz, hfz⟩ := ih hys hy
      rw [Nat.add_assoc, Nat.add_comm 1 i] at hfz
      exact ⟨z, hz, hfz⟩

theorem mem_of_refuseFirst {l : List α} {k : Nat} {l' : List β} {y : β}
    (h : refuseFirst f k l = .ok l') (hy : y ∈ l') : ∃ j, ∃ x ∈ l, f j x = .ok y := by
  obtain ⟨i, hi⟩ := List.mem_iff_getElem?.1 hy
  obtain ⟨x, hx, hfx⟩ := getElem?_of_refuseFirst h hi
  exact ⟨k + i, x, List.mem_of_getElem? hx, hfx⟩

theorem forall₂_of_refuseFirst {q : α → β → Prop} (hf : ∀ k x y, f k x = .ok y → q x y)
    {l : List α} : ∀ {k : Nat} {l' : List β}, refuseFirst f k l = .ok l' → List.Forall₂ q l l' := by
  induction l with
  | nil =>
    intro k l' h
    rw [← Except.ok.inj h]
    exact .nil
  | cons x l ih =>
    intro k l' h
    obtain ⟨y, hy, ys, hys, rfl⟩ := refuseFirst_cons_eq_ok.1 h
    exact .cons (hf k x y hy) (ih hys)

end RefuseFirst

theorem TexGen.lower_eq_ok {i : Nat} {g : TexGen} {c : CoordGen} (h : g.lower i = .ok c) :
    ∃ kind source post, g.kind.lower = .ok kind ∧ g.source.lower i = .ok source ∧
      g.post.index? = .ok post ∧ c = ⟨kind, source, g.matrix.lower, g.normalize, post⟩ := by
  obtain ⟨kind, hkind, h⟩ := bind_eq_ok.1 h
  obtain ⟨source, hsource, h⟩ := bind_eq_ok.1 h
  obtain ⟨post, hpost, h⟩ := bind_eq_ok.1 h
  exact ⟨kind, source, post, hkind, hsource, hpost, (Except.ok.inj h).symm⟩

theorem CombinerHalf.lower_eq_ok {ι : Type} {operand : ι → Operand} {h : CombinerHalf ι}
    {x : Half} (hx : h.lower operand = .ok x) :
    ∃ op, h.op.lower = .ok op ∧ x = ⟨operand h.a, operand h.b, operand h.c, operand h.d, op,
      h.bias.value, h.scale.value, h.clamp, h.dest⟩ := by
  obtain ⟨op, hop, hx⟩ := bind_eq_ok.1 hx
  exact ⟨op, hop, (Except.ok.inj hx).symm⟩

theorem CombinerHalf.operands_of_lower {ι : Type} {operand : ι → Operand} {h : CombinerHalf ι}
    {x : Half} (hx : h.lower operand = .ok x) : x.operands = h.inputs.map operand := by
  obtain ⟨op, -, rfl⟩ := lower_eq_ok hx
  rfl

namespace CombinerStage

variable {m : Material} {k : Nat} {s : CombinerStage}

theorem offset_eq_ok {o : IndirectOffset} (h : s.offset m k = .ok (some o)) :
    (m.indirectStage? s).isSome ∧ ∃ matrix, s.indirect.matrix.lower = .ok (some matrix) ∧
      o = ⟨s.indirect.stage, matrix, biasValue s.indirect.bias.components.1,
        biasValue s.indirect.bias.components.2.1, biasValue s.indirect.bias.components.2.2,
        s.texture⟩ := by
  obtain ⟨matrix, hmatrix, h⟩ := bind_eq_ok.1 h
  cases matrix with
  | none => exact absurd (Except.ok.inj h) (by simp)
  | some matrix =>
    dsimp only at h
    split at h
    · exact absurd h (by simp)
    · split at h
      · exact absurd h (by simp)
      · rename_i hstage
        have ho := Option.some.inj (Except.ok.inj h)
        exact ⟨Option.isSome_iff_ne_none.2 (by simpa using hstage), matrix, hmatrix, ho.symm⟩

theorem offset_eq_none (h : s.offset m k = .ok none) : s.indirect.matrix.lower = .ok none := by
  obtain ⟨matrix, hmatrix, h⟩ := bind_eq_ok.1 h
  cases matrix with
  | none => exact hmatrix
  | some matrix =>
    dsimp only at h
    split at h
    · cases h
    · split at h <;> cases h

theorem stageCoord_eq_ok {c : StageCoord} (h : s.stageCoord m k = .ok c) :
    ∃ indirect, s.offset m k = .ok indirect ∧ c = ⟨m.coord s.coord, s.indirect.wrapS.lower,
      s.indirect.wrapT.lower, s.indirect.addPrevious, indirect⟩ := by
  obtain ⟨indirect, hindirect, h⟩ := bind_eq_ok.1 h
  exact ⟨indirect, hindirect, (Except.ok.inj h).symm⟩

theorem lower_eq_ok {o : Omissions} {t : Stage} (h : s.lower o m k = .ok t) :
    ∃ coord raster color alpha, s.stageCoord m k = .ok coord ∧ s.raster = .ok raster ∧
      s.color.lower (ColorInput.operand s.konstColor (s.sampled o)) = .ok color ∧
      s.alpha.lower (AlphaInput.operand s.konstAlpha (s.sampled o)) = .ok alpha ∧
      t = ⟨s.sampled o, (s.sampled o).map fun _ => coord, raster, color, alpha⟩ := by
  obtain ⟨coord, hcoord, h⟩ := bind_eq_ok.1 h
  obtain ⟨raster, hraster, h⟩ := bind_eq_ok.1 h
  obtain ⟨color, hcolor, h⟩ := bind_eq_ok.1 h
  obtain ⟨alpha, halpha, h⟩ := bind_eq_ok.1 h
  exact ⟨coord, raster, color, alpha, hcoord, hraster, hcolor, halpha, (Except.ok.inj h).symm⟩

end CombinerStage

end FixedFunction
