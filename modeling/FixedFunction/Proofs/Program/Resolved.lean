import FixedFunction.Proofs.Program.Recording

/-!
# Programs refer to what is there

**Invariant.**  Every number in a lowered program names a part of it: coordinates and indirect
samples are below the number of generators and of indirect samples, textures are among the textures
of the program, and vertex inputs that are read are declared.

**Results.**
* `Material.resolved_of_lower`: this holds of every program that a material is lowered to.
-/

namespace FixedFunction

/-- The generator with number `i` reads inputs, colors, and earlier coordinates that are there. -/
structure CoordGen.Resolved (p : Program) (i : Nat) (g : CoordGen) : Prop where
  color : ∀ k, g.source = .color k → k.toNat < 2
  coord : ∀ k, g.source = .coord k → k.toNat < i
  input : ∀ v, g.source.input? = some v → v ∈ p.vertexInputs

/-- The coordinate and the texture of an indirect sample are there. -/
structure IndirectSample.Resolved (p : Program) (s : IndirectSample) : Prop where
  coord : ∀ k, s.coord = some k → k.toNat < p.coordGens.length
  texture : ∀ t, s.texture = some t → t ∈ p.textures

/-- The coordinate and the indirect sample of a coordinate of a stage are there. -/
structure StageCoord.Resolved (p : Program) (c : StageCoord) : Prop where
  coord : ∀ k, c.coord = some k → k.toNat < p.coordGens.length
  indirect : ∀ o, c.indirect = some o → o.stage.toNat < p.indirectSamples.length

/-- The texture of a stage is there, and what its operands read too. -/
structure Stage.Resolved (p : Program) (s : Stage) : Prop where
  texture : ∀ t, s.texture = some t → t ∈ p.textures
  coord : ∀ c, s.coord = some c → c.Resolved p
  coord_isSome : s.coord.isSome = s.texture.isSome
  raster : ∀ i, s.raster = some (.channel i) → i.toNat < 2
  operand : ∀ x ∈ s.color.operands ++ s.alpha.operands, ∀ w, x = .texture w → s.texture.isSome

/-- All that a program refers to is there. -/
structure Program.Resolved (p : Program) : Prop where
  inputs : p.vertexInputs.Sublist ShaderInput.all
  positionMatrix : .positionMatrix ∈ p.vertexInputs
  position : .position ∈ p.vertexInputs
  channel : ∀ c ∈ p.channels, ∀ i, c.color.readsVertex i || c.alpha.readsVertex i →
    .color i ∈ p.vertexInputs
  gen : ∀ i (g : CoordGen), p.coordGens[i]? = some g → g.Resolved p i
  sample : ∀ s ∈ p.indirectSamples, s.Resolved p
  stage : ∀ s ∈ p.stages, s.Resolved p
  textures : p.textures.Pairwise (·.toNat < ·.toNat)

theorem toNat_min (i j : UInt8) : (min i j).toNat = min i.toNat j.toNat := by
  rw [UInt8.min_def, Nat.min_def]
  simp only [UInt8.le_iff_toNat_le]
  split <;> rfl

theorem Material.coord_lt {m : Material} {id : Option UInt8} {k : UInt8}
    (h : m.coord id = some k) : k.toNat < m.texGens.length := by
  unfold Material.coord at h
  split at h
  · exact absurd h (by simp)
  · rename_i hne
    obtain ⟨i, -, rfl⟩ := Option.map_eq_some_iff.1 h
    have hpos : 0 < m.texGens.length := by
      rw [List.isEmpty_iff] at hne
      exact List.length_pos_iff.2 hne
    have hlast : (m.texGens.length - 1).toUInt8.toNat ≤ m.texGens.length - 1 := by
      simpa using Nat.mod_le _ _
    rw [toNat_min]
    omega

section Lower

variable {o : Omissions} {m : Material}

theorem CombinerStage.raster_eq_channel {s : CombinerStage} {i : UInt8}
    (h : s.raster = .ok (some (.channel i))) : i.toNat < 2 := by
  unfold CombinerStage.raster at h
  split at h
  · cases hc : s.channel <;> simp [hc, RasterChannel.lower, Except.map] at h
    all_goals subst h; decide
  · exact absurd h (by simp)

theorem CombinerStage.readsRaster_iff {s : CombinerStage} :
    s.readsRaster ↔ .rasC ∈ s.color.inputs ∨ .rasA ∈ s.color.inputs ∨ .rasA ∈ s.alpha.inputs := by
  have hcolor : (s.color.inputs.any fun i => i = .rasC || i = .rasA) ↔
      .rasC ∈ s.color.inputs ∨ .rasA ∈ s.color.inputs := by
    simp [List.any_eq_true, and_or_left, exists_or]
  have halpha : (s.alpha.inputs.any (· = .rasA)) ↔ .rasA ∈ s.alpha.inputs := by
    simp [List.any_eq_true]
  rw [readsRaster, Bool.or_eq_true_iff, hcolor, halpha, or_assoc]

theorem textureOperand_eq_texture {t : Option UInt8} {x : Swizzle} {w : Swizzle}
    (h : textureOperand t x = .texture w) : t.isSome := by
  cases t with
  | none => exact absurd h (by simp [textureOperand])
  | some t => rfl

/-- A constant is no sample of a texture and no rasterized color. -/
theorem KonstColor.operand_ne (k : KonstColor) (w : Swizzle) :
    k.operand ≠ .texture w ∧ k.operand ≠ .rasterized w := by
  rw [KonstColor.operand]
  split
  · exact ⟨Operand.noConfusion, Operand.noConfusion⟩
  · split <;> exact ⟨Operand.noConfusion, Operand.noConfusion⟩

theorem KonstAlpha.operand_ne (k : KonstAlpha) (w : Swizzle) :
    k.operand ≠ .texture w ∧ k.operand ≠ .rasterized w := by
  rw [KonstAlpha.operand]
  split <;> exact ⟨Operand.noConfusion, Operand.noConfusion⟩

theorem ColorInput.operand_eq_texture {k : KonstColor} {t : Option UInt8} {i : ColorInput}
    {w : Swizzle} (h : i.operand k t = .texture w) : t.isSome := by
  cases i with
  | texC | texA => exact textureOperand_eq_texture h
  | konst => exact absurd h (k.operand_ne w).1
  | _ => exact absurd h (by simp [ColorInput.operand])

theorem AlphaInput.operand_eq_texture {k : KonstAlpha} {t : Option UInt8} {i : AlphaInput}
    {w : Swizzle} (h : i.operand k t = .texture w) : t.isSome := by
  cases i with
  | texA => exact textureOperand_eq_texture h
  | konst => exact absurd h (k.operand_ne w).1
  | _ => exact absurd h (by simp [AlphaInput.operand])

theorem CombinerHalf.texture_of_lower {ι : Type} {operand : ι → Operand} {q : Prop}
    (hoperand : ∀ i w, operand i = .texture w → q) {h : CombinerHalf ι} {x : Half}
    (hx : h.lower operand = .ok x) : ∀ y ∈ x.operands, ∀ w, y = .texture w → q := by
  intro y hy w hw
  rw [CombinerHalf.operands_of_lower hx] at hy
  obtain ⟨i, -, rfl⟩ := List.mem_map.1 hy
  exact hoperand i w hw

variable {p : Program}

theorem CombinerStage.resolved_of_lower {s : CombinerStage} {k : Nat} {t : Stage}
    (h : s.lower o m k = .ok t) (hgens : p.coordGens.length = m.texGens.length)
    (hsamples : p.indirectSamples.length = m.indirectStages.length)
    (htextures : ∀ x, t.texture = some x → x ∈ p.textures) : t.Resolved p := by
  obtain ⟨c, raster, color, alpha, hc, hraster, hcolor, halpha, rfl⟩ := lower_eq_ok h
  obtain ⟨indirect, hindirect, rfl⟩ := stageCoord_eq_ok hc
  refine ⟨htextures, ?_, Option.isSome_map, ?_, ?_⟩
  · intro c' hc'
    obtain ⟨_, -, rfl⟩ := Option.map_eq_some_iff.1 hc'
    constructor
    · intro i hi
      exact hgens ▸ Material.coord_lt hi
    · rintro offset rfl
      obtain ⟨hstage, matrix, -, rfl⟩ := offset_eq_ok hindirect
      rw [hsamples]
      simpa [Material.indirectStage?] using hstage
  · rintro i rfl
    exact raster_eq_channel hraster
  · intro x hx w hw
    rcases List.mem_append.1 hx with hx | hx
    · exact CombinerHalf.texture_of_lower (fun _ _ => ColorInput.operand_eq_texture) hcolor
        x hx w hw
    · exact CombinerHalf.texture_of_lower (fun _ _ => AlphaInput.operand_eq_texture) halpha
        x hx w hw

theorem TexGen.resolved_of_lower {g : TexGen} {i : Nat} {c : CoordGen} (h : g.lower i = .ok c)
    (hinputs : ∀ v : ShaderInput, v.isRead p.channels p.coordGens → v ∈ p.vertexInputs)
    (hc : c ∈ p.coordGens) : c.Resolved p i := by
  obtain ⟨kind, source, post, -, hsource, -, rfl⟩ := lower_eq_ok h
  obtain ⟨hcolor, hcoord, -⟩ := TexGenSource.reads_of_lower hsource
  exact ⟨hcolor, hcoord, fun v hv => hinputs v (ShaderInput.isRead_of_input? hc hv)⟩

/-- All that a lowered program refers to is there. -/
theorem Material.resolved_of_lower (h : m.lower o = .ok p) : p.Resolved := by
  obtain ⟨gens, stages, check, hgens, hstages, -, rfl⟩ := lower_eq_ok h
  have hlength := length_of_refuseFirst hgens
  have hinputs (v : ShaderInput) (hv : v.isRead (m.loweredChannels o) gens) :
      v ∈ ShaderInput.all.filter (·.isRead (m.loweredChannels o) gens) :=
    (mem_filter_isRead_iff hgens).2 hv
  refine ⟨List.filter_sublist, hinputs _ rfl, hinputs _ rfl, ?_, ?_, ?_, ?_,
    pairwise_texturesRead _ _⟩
  · intro c hc i hi
    exact hinputs _ (List.any_eq_true.2 ⟨c, hc, hi⟩)
  · intro i g hg
    obtain ⟨x, -, hx⟩ := getElem?_of_refuseFirst hgens hg
    rw [Nat.zero_add] at hx
    exact TexGen.resolved_of_lower hx hinputs (List.mem_of_getElem? hg)
  · intro s hs
    obtain ⟨x, hx, rfl⟩ := List.mem_map.1 hs
    constructor
    · intro k hk
      exact hlength ▸ Material.coord_lt hk
    · intro t ht
      exact mem_texturesRead.2 (.inl ⟨_, hs, ht⟩)
  · intro s hs
    obtain ⟨j, x, -, hx⟩ := mem_of_refuseFirst hstages hs
    refine CombinerStage.resolved_of_lower hx hlength (List.length_map _) ?_
    intro t ht
    exact mem_texturesRead.2 (.inr ⟨s, hs, ht⟩)

end Lower

end FixedFunction
