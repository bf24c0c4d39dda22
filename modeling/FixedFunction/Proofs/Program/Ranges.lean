import FixedFunction.Proofs.Program.Acceptance
import FixedFunction.Proofs.Program.Resolved
import FixedFunction.Shader.Uniform

/-!
# The numbers of registers and matrices in a program

**Input.**  A material that is lowered.

**Invariant.**  Registers and matrices are numbered by enumerations of a material, by the place of a
channel among the first two, and by the row of a post matrix, which is looked at.  Textures are
numbered by bytes, and a byte is not looked at.

**Results.**
* `Material.inRange_of_lower`: each register and each matrix that a program refers to is there.
* `Material.isConfiguration_of_compile`: a material that is refused is refused for its settings.
-/

namespace FixedFunction

open Shader

section Defs

-- What is numbered but does not stand in an array is in range anyway.

def ColorOrigin.InRange : ColorOrigin → Prop
  | materialRegister i | ambientRegister i => i.toNat < 2
  | vertex _ | white => True

instance : DecidablePred ColorOrigin.InRange
  | .materialRegister _ | .ambientRegister _ => inferInstanceAs (Decidable (_ < _))
  | .vertex _ | .white => inferInstanceAs (Decidable True)

structure ChannelHalf.InRange (v : ChannelHalf) : Prop where
  material : v.material.InRange
  ambient : ∀ c, v.ambient = some c → c.InRange

def CoordMatrix.InRange : CoordMatrix → Prop
  | identity => True
  | position i => i.toNat < positionMatrices
  | texture i => i.toNat < textureMatrices

instance : DecidablePred CoordMatrix.InRange
  | .identity => inferInstanceAs (Decidable True)
  | .position _ | .texture _ => inferInstanceAs (Decidable (_ < _))

structure CoordGen.InRange (g : CoordGen) : Prop where
  matrix : g.matrix.InRange
  post : ∀ i, g.post = some i → i.toNat < postMatrices

def Operand.InRange : Operand → Prop
  | konst k _ => k.toNat < 4
  | _ => True

instance : DecidablePred Operand.InRange
  | .konst _ _ => inferInstanceAs (Decidable (_ < _))
  | .register _ _ | .texture _ | .rasterized _ | .constant _ => inferInstanceAs (Decidable True)

/-- The constant registers and the indirect matrix of a stage are there, and an offset is divided by
the size of the texture that is sampled. -/
structure Stage.InRange (s : Stage) : Prop where
  operand : ∀ x ∈ s.color.operands ++ s.alpha.operands, x.InRange
  matrix : ∀ c, s.coord = some c → ∀ o, c.indirect = some o → o.matrix.toNat < indirectMatrices
  offset_texture : ∀ c, s.coord = some c → ∀ o, c.indirect = some o → o.texture = s.texture

/-- The registers and the matrices that a program refers to are there. -/
structure Program.InRange (p : Program) : Prop where
  channel : ∀ c ∈ p.channels, c.color.InRange ∧ c.alpha.InRange
  gen : ∀ g ∈ p.coordGens, g.InRange
  stage : ∀ s ∈ p.stages, s.InRange

end Defs

section Channels

theorem ColorSource.inRange_resolve {o : Omissions} {i : UInt8} {register : ColorOrigin}
    (h : register.InRange) (s : ColorSource) : (s.resolve o i register).InRange := by
  cases s with
  | register => exact h
  | vertex =>
    rw [resolve]
    split <;> trivial

theorem ChannelControl.inRange_lower {o : Omissions} {i : UInt8} (hi : i.toNat < 2)
    (c : ChannelControl) : (c.lower o i).InRange := by
  have hmaterial : (ColorOrigin.materialRegister i).InRange := hi
  have hambient : (ColorOrigin.ambientRegister i).InRange := hi
  refine ⟨ColorSource.inRange_resolve hmaterial c.material, fun x hx => ?_⟩
  by_cases hlit : c.lit && !o.lighting
  · obtain rfl := Option.some.inj ((if_pos hlit).symm.trans hx)
    exact ColorSource.inRange_resolve hambient c.ambient
  · exact absurd ((if_neg hlit).symm.trans hx) (by simp)

/-- Only the first two channels are lowered. -/
theorem Material.channels_inRange (o : Omissions) (m : Material) :
    ∀ c ∈ m.loweredChannels o, c.color.InRange ∧ c.alpha.InRange := by
  intro c hc
  obtain ⟨i, hi, rfl⟩ := List.mem_mapIdx.1 hc
  have hlt : i.toUInt8.toNat < 2 := by
    rw [List.length_take] at hi
    have hi : i < 2 := by omega
    simpa using Nat.lt_of_le_of_lt (Nat.mod_le i 256) hi
  exact ⟨ChannelControl.inRange_lower hlt _, ChannelControl.inRange_lower hlt _⟩

end Channels

section TexGens

theorem TexGenMatrix.inRange_lower (m : TexGenMatrix) : m.lower.InRange := by
  cases m with
  | identity => trivial
  | _ => decide

theorem PostMatrix.lt_of_index? {m : PostMatrix} {i : UInt8} (h : m.index? = .ok (some i)) :
    i.toNat < postMatrices := by
  unfold index? at h
  split at h
  · exact absurd h (by simp)
  · split at h
    · exact absurd h (by simp)
    · rename_i hrow
      obtain rfl := Option.some.inj (Except.ok.inj h)
      rw [not_or, not_or] at hrow
      exact UInt8.lt_iff_toNat_lt.1 (UInt8.not_le.1 hrow.2.2)

theorem TexGen.inRange_of_lower {g : TexGen} {i : Nat} {c : CoordGen} (h : g.lower i = .ok c) :
    c.InRange := by
  obtain ⟨kind, source, post, -, -, hpost, rfl⟩ := lower_eq_ok h
  refine ⟨g.matrix.inRange_lower, ?_⟩
  rintro i rfl
  exact PostMatrix.lt_of_index? hpost

end TexGens

section Stages

theorem konstComponent_inRange (raw : UInt8) : (konstComponent raw).InRange := by
  have hlt : raw.toNat % 4 < 4 := Nat.mod_lt _ (by decide)
  simpa [konstComponent, Operand.InRange] using hlt

theorem KonstColor.inRange_operand (k : KonstColor) : k.operand.InRange := by
  cases k with
  | const1 | const7_8 | const3_4 | const5_8 | const1_2 | const3_8 | const1_4 | const1_8 => trivial
  | k0 | k1 | k2 | k3 => decide
  | _ => exact konstComponent_inRange _

theorem KonstAlpha.inRange_operand (k : KonstAlpha) : k.operand.InRange := by
  by_cases hfraction : Coded.raw k < 8
  · rw [operand, if_pos hfraction]
    trivial
  · rw [operand, if_neg hfraction]
    exact konstComponent_inRange _

theorem inRange_textureOperand (t : Option UInt8) (w : Swizzle) :
    (textureOperand t w).InRange := by
  cases t <;> trivial

theorem ColorInput.inRange_operand (k : KonstColor) (t : Option UInt8) (i : ColorInput) :
    (i.operand k t).InRange := by
  cases i with
  | texC | texA => exact inRange_textureOperand t _
  | konst => exact k.inRange_operand
  | _ => trivial

theorem AlphaInput.inRange_operand (k : KonstAlpha) (t : Option UInt8) (i : AlphaInput) :
    (i.operand k t).InRange := by
  cases i with
  | texA => exact inRange_textureOperand t _
  | konst => exact k.inRange_operand
  | _ => trivial

theorem IndirectMatrix.lt_of_lower {x : IndirectMatrix} {i : UInt8}
    (h : x.lower = .ok (some i)) : i.toNat < indirectMatrices := by
  cases x with
  | m0 | m1 | m2 =>
    obtain rfl := Option.some.inj (Except.ok.inj h)
    decide
  | _ => exact absurd h (by simp [lower])

variable {o : Omissions} {m : Material} {k : Nat} {s : CombinerStage}

theorem CombinerStage.texture_of_sampled {t : UInt8} (h : s.sampled o = some t) :
    s.texture = some t := by
  unfold sampled Omissions.texture at h
  split at h
  · split at h
    · exact absurd h (by simp)
    · exact h
  · exact absurd h (by simp)

theorem CombinerStage.inRange_of_lower {t : Stage} (h : s.lower o m k = .ok t) : t.InRange := by
  obtain ⟨c, raster, color, alpha, hc, -, hcolor, halpha, rfl⟩ := lower_eq_ok h
  obtain ⟨indirect, hindirect, rfl⟩ := stageCoord_eq_ok hc
  refine ⟨fun x hx => ?_, ?_, ?_⟩
  · rw [CombinerHalf.operands_of_lower hcolor, CombinerHalf.operands_of_lower halpha] at hx
    rcases List.mem_append.1 hx with hx | hx
    · obtain ⟨i, -, rfl⟩ := List.mem_map.1 hx
      exact i.inRange_operand _ _
    · obtain ⟨i, -, rfl⟩ := List.mem_map.1 hx
      exact i.inRange_operand _ _
  · rintro c' hc' x hx
    obtain ⟨_, -, rfl⟩ := Option.map_eq_some_iff.1 hc'
    obtain rfl : indirect = some x := hx
    obtain ⟨-, matrix, hmatrix, rfl⟩ := offset_eq_ok hindirect
    exact IndirectMatrix.lt_of_lower hmatrix
  · rintro c' hc' x hx
    obtain ⟨y, hy, rfl⟩ := Option.map_eq_some_iff.1 hc'
    obtain rfl : indirect = some x := hx
    obtain ⟨-, matrix, -, rfl⟩ := offset_eq_ok hindirect
    exact (texture_of_sampled hy).trans hy.symm

end Stages

/-- The registers and the matrices that a lowered program refers to are there. -/
theorem Material.inRange_of_lower {o : Omissions} {m : Material} {p : Program}
    (h : m.lower o = .ok p) : p.InRange := by
  obtain ⟨gens, stages, check, hgens, hstages, -, rfl⟩ := lower_eq_ok h
  refine ⟨m.channels_inRange o, fun g hg => ?_, fun s hs => ?_⟩
  · obtain ⟨j, x, -, hx⟩ := mem_of_refuseFirst hgens hg
    exact TexGen.inRange_of_lower hx
  · obtain ⟨j, x, -, hx⟩ := mem_of_refuseFirst hstages hs
    exact CombinerStage.inRange_of_lower hx

/-- What is demanded of a material is demanded of its settings. -/
theorem Material.isConfiguration_of_mem_demands {m : Material} :
    ∀ d ∈ m.demands, d.refusal.isConfiguration := by
  simp only [demands, programDemands, List.forall_mem_append, forall_mem_mapIdx_flatten,
    List.forall_mem_singleton]
  refine ⟨⟨⟨fun k g _ => ?_, fun k s _ => ?_⟩, rfl⟩, rfl⟩
  · simp [TexGen.demands, Error.isConfiguration]
  · simp [CombinerStage.demands, CombinerStage.indirectDemands, CombinerStage.rasterDemand,
      CombineOp.demand, Error.isConfiguration]

/-- A material that is refused is refused for its settings. -/
theorem Material.isConfiguration_of_compile {o : Omissions} {m : Material} {e : Error}
    (h : m.compile o = .error e) : e.isConfiguration := by
  obtain ⟨d, hd, rfl⟩ := (m.answers_compile o).error_iff.1 h
  obtain ⟨-, before, after, hsplit, -⟩ := firstUnmet_eq_some_iff.1 hd
  exact isConfiguration_of_mem_demands d (hsplit ▸ List.mem_append_right _ List.mem_cons_self)

end FixedFunction
