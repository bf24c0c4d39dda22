import FixedFunction.Proofs.Program.Resolved

/-!
# The parts of a program fit together

**Input.**  A material that is lowered.

**Results.**
* `Program.Coherent`: the vertex inputs and the textures of a program are in order, and they are
  those that its parts mention; a stage has what its operands read, and what is referred to by
  number is there.
* `Material.coherent_of_lower`: programs of materials are coherent.
-/

namespace FixedFunction

section Defs

/-- A half of a channel has a vertex color as its material or its ambient color. -/
def ChannelHalf.UsesVertex (i : UInt8) (v : ChannelHalf) : Prop :=
  v.material = .vertex i ∨ v.ambient = some (.vertex i)

/-- The channels and the generators of a program need an input. -/
def ShaderInput.Needed (p : Program) : ShaderInput → Prop
  | .positionMatrix | .position => True
  | .color i => ∃ c ∈ p.channels, c.color.UsesVertex i ∨ c.alpha.UsesVertex i
  | .normal => ∃ g ∈ p.coordGens, g.source = .normal
  | .tex i => ∃ g ∈ p.coordGens, g.source = .tex i
  | .binormal => ∃ g ∈ p.coordGens, g.source = .binormal
  | .tangent => ∃ g ∈ p.coordGens, g.source = .tangent

/-- A stage has a coordinate if it has a texture, and its operands read what it has. -/
structure Stage.Coherent (s : Stage) : Prop where
  coord : s.coord.isSome ↔ s.texture.isSome
  texture : ∀ x ∈ s.color.operands ++ s.alpha.operands, ∀ w, x = .texture w → s.texture.isSome
  raster : ∀ x ∈ s.color.operands ++ s.alpha.operands, ∀ w, x = .rasterized w → s.raster.isSome

/-- The parts of a program fit together. -/
structure Program.Coherent (p : Program) : Prop where
  inputs_increasing : p.vertexInputs.Pairwise (·.location < ·.location)
  inputs_nodup : p.vertexInputs.Nodup
  mem_inputs : ∀ v, v ∈ p.vertexInputs ↔ v.Needed p
  textures_increasing : p.textures.Pairwise (· < ·)
  mem_textures : ∀ t, t ∈ p.textures ↔
    (∃ s ∈ p.indirectSamples, s.texture = some t) ∨ ∃ s ∈ p.stages, s.texture = some t
  stages : ∀ s ∈ p.stages, s.Coherent
  source_lt : ∀ k (g : CoordGen), p.coordGens[k]? = some g → ∀ i, g.source = .coord i → i.toNat < k
  sample_coord_lt : ∀ s ∈ p.indirectSamples, ∀ i, s.coord = some i → i.toNat < p.coordGens.length
  stage_coord_lt : ∀ s ∈ p.stages, ∀ c, s.coord = some c → ∀ i, c.coord = some i →
    i.toNat < p.coordGens.length
  offset_lt : ∀ s ∈ p.stages, ∀ c, s.coord = some c → ∀ x, c.indirect = some x →
    x.stage.toNat < p.indirectSamples.length

end Defs

section Inputs

theorem ChannelHalf.readsVertex_iff {i : UInt8} {v : ChannelHalf} :
    v.readsVertex i ↔ v.UsesVertex i := by
  simp [readsVertex, UsesVertex]

theorem ShaderInput.isRead_iff_needed {p : Program} {v : ShaderInput} :
    v.isRead p.channels p.coordGens ↔ v.Needed p := by
  have hsource (c : CoordSource) : (c.input? = some .normal ↔ c = .normal) ∧
      (c.input? = some .binormal ↔ c = .binormal) ∧ (c.input? = some .tangent ↔ c = .tangent) ∧
      ∀ i, c.input? = some (.tex i) ↔ c = .tex i := by
    cases c <;> simp [CoordSource.input?]
  cases v with
  | positionMatrix | position => simp [isRead, Needed]
  | color i => simp [isRead, Needed, ← ChannelHalf.readsVertex_iff]
  | _ => simp [isRead, Needed, hsource]

end Inputs

section Raster

theorem textureOperand_ne_rasterized (t : Option UInt8) (x w : Swizzle) :
    textureOperand t x ≠ .rasterized w := by
  cases t <;> exact Operand.noConfusion

theorem ColorInput.operand_eq_rasterized {k : KonstColor} {t : Option UInt8} {i : ColorInput}
    {w : Swizzle} (h : i.operand k t = .rasterized w) : i = .rasC ∨ i = .rasA := by
  cases i with
  | rasC => exact .inl rfl
  | rasA => exact .inr rfl
  | texC | texA => exact absurd h (textureOperand_ne_rasterized t _ w)
  | konst => exact absurd h (k.operand_ne w).2
  | _ => exact absurd h (by simp [ColorInput.operand])

theorem AlphaInput.operand_eq_rasterized {k : KonstAlpha} {t : Option UInt8} {i : AlphaInput}
    {w : Swizzle} (h : i.operand k t = .rasterized w) : i = .rasA := by
  cases i with
  | rasA => rfl
  | texA => exact absurd h (textureOperand_ne_rasterized t _ w)
  | konst => exact absurd h (k.operand_ne w).2
  | _ => exact absurd h (by simp [AlphaInput.operand])

theorem CombinerStage.raster_isSome {s : CombinerStage} (hs : s.readsRaster)
    {r : Option RasterSource} (h : s.raster = .ok r) : r.isSome := by
  rw [raster, if_pos hs] at h
  cases hc : s.channel.lower with
  | error e => simp [hc, Except.map] at h
  | ok c =>
    rw [hc] at h
    obtain rfl := Except.ok.inj h
    rfl

theorem CombinerStage.raster_of_lower {o : Omissions} {m : Material} {k : Nat} {s : CombinerStage}
    {t : Stage} (h : s.lower o m k = .ok t) :
    ∀ x ∈ t.color.operands ++ t.alpha.operands, ∀ w, x = .rasterized w → t.raster.isSome := by
  obtain ⟨coord, raster, color, alpha, -, hraster, hcolor, halpha, rfl⟩ := lower_eq_ok h
  rintro x hx w rfl
  refine raster_isSome (readsRaster_iff.2 ?_) hraster
  rw [CombinerHalf.operands_of_lower hcolor, CombinerHalf.operands_of_lower halpha] at hx
  rcases List.mem_append.1 hx with hx | hx
  · obtain ⟨i, hi, hw⟩ := List.mem_map.1 hx
    rcases ColorInput.operand_eq_rasterized hw with rfl | rfl
    · exact .inl hi
    · exact .inr (.inl hi)
  · obtain ⟨i, hi, hw⟩ := List.mem_map.1 hx
    obtain rfl := AlphaInput.operand_eq_rasterized hw
    exact .inr (.inr hi)

end Raster

/-- The parts of a program that a material is lowered to fit together. -/
theorem Material.coherent_of_lower {o : Omissions} {m : Material} {p : Program}
    (h : m.lower o = .ok p) : p.Coherent := by
  have hp := resolved_of_lower h
  obtain ⟨gens, stages, check, hgens, hstages, -, rfl⟩ := lower_eq_ok h
  have hincreasing : (ShaderInput.all.filter (·.isRead (m.loweredChannels o) gens)).Pairwise
      (·.location < ·.location) := .filter _ (by decide)
  refine ⟨hincreasing, nodup_of_pairwise hincreasing, fun v => ?_, hp.textures,
    fun t => mem_texturesRead, ?_, ?_, ?_, ?_, ?_⟩
  · have hneeded := ShaderInput.isRead_iff_needed (v := v)
      (p := .ofParts (m.loweredChannels o) gens (m.loweredSamples o) stages check)
    exact (mem_filter_isRead_iff hgens).trans hneeded
  · intro s hs
    obtain ⟨k, x, -, hx⟩ := mem_of_refuseFirst hstages hs
    have hstage := hp.stage s hs
    exact ⟨by rw [hstage.coord_isSome], hstage.operand, CombinerStage.raster_of_lower hx⟩
  · exact fun k g hg => (hp.gen k g hg).coord
  · exact fun s hs => (hp.sample s hs).coord
  · exact fun s hs c hc => ((hp.stage s hs).coord c hc).coord
  · exact fun s hs c hc => ((hp.stage s hs).coord c hc).indirect

namespace Sample

/-- A material whose parts read the same inputs and textures more than once, in no order. -/
def repeated : Material where
  channels := [{ color := { material := .vertex }, alpha := { lit := true, ambient := .vertex } }]
  texGens := [{ source := .tex3 }, { source := .normal }, { source := .tex3 },
    { source := .texCoord1 }]
  indirectStages := [{ coord := some 3, texture := some 7 }]
  stages := [
    CombinerStage.modulate 0 7 .color0A0,
    { CombinerStage.modulate 1 2 .colorZero with indirect := { matrix := .m0 } }]

end Sample

/-- Each input and each texture of the material is there once. -/
theorem Material.coherent_repeated : ∃ p, Sample.repeated.lower {} = .ok p ∧ p.Coherent ∧
    p.vertexInputs = [.positionMatrix, .position, .normal, .color 0, .tex 3] ∧
    p.textures = [2, 7] := by
  obtain ⟨p, hp, hlists⟩ : ∃ p, Sample.repeated.lower {} = .ok p ∧
      p.vertexInputs = [.positionMatrix, .position, .normal, .color 0, .tex 3] ∧
      p.textures = [2, 7] := ⟨_, rfl, by decide +kernel⟩
  exact ⟨p, hp, coherent_of_lower hp, hlists⟩

end FixedFunction
