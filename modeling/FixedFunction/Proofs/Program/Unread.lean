import FixedFunction.Proofs.Program.Omissions

/-!
# Settings that are not read

**Input.**  A material.

**Algorithm.**  Every setting that is not read is reset: names and initial colors, channels from
the third on, ambient colors of halves that are not lit, references of a test whose outcome is
known, and what a combiner stage says of a texture, a rasterized color, a constant or an indirect
sample that it does not use.

**Results.**
* `Material.pruned`: a material without the settings that are not read.
* `Material.lower_pruned`: it is lowered to the same program, or refused for the same cause.
-/

namespace FixedFunction

section Defs

/-- A half of a channel without the source of its ambient color, unless it is lit. -/
def ChannelControl.pruned (c : ChannelControl) : ChannelControl :=
  { c with ambient := if c.lit then c.ambient else default }

def LightChannel.pruned (c : LightChannel) : LightChannel where
  color := c.color.pruned
  alpha := c.alpha.pruned

/-- A test without its references, if its outcome is known. -/
def AlphaTest.pruned (t : AlphaTest) : AlphaTest :=
  if t.constant?.isSome then { t with referenceA := 0, referenceB := 0 } else t

/-- Indirect settings without those that move a coordinate, unless a texture is sampled there, and
without those of the indirect sample, if it is not used. -/
def IndirectUse.pruned (sampled : Bool) (u : IndirectUse) : IndirectUse where
  stage := if u.matrix = .off then 0 else u.stage
  format := if u.matrix = .off then default else u.format
  bias := if sampled ∧ u.matrix ≠ .off then u.bias else default
  matrix := u.matrix
  wrapS := if sampled then u.wrapS else default
  wrapT := if sampled then u.wrapT else default
  addPrevious := sampled && u.addPrevious

/-- A combiner stage without what it says of inputs that it does not have. -/
def CombinerStage.pruned (s : CombinerStage) : CombinerStage where
  color := s.color
  alpha := s.alpha
  coord := if s.readsTexture then s.coord else none
  texture := if s.readsTexture then s.texture else none
  channel := if s.readsRaster then s.channel else default
  konstColor := if .konst ∈ s.color.inputs then s.konstColor else default
  konstAlpha := if .konst ∈ s.alpha.inputs then s.konstAlpha else default
  indirect := s.indirect.pruned s.readsTexture

/-- A material without the settings that are not read. -/
def Material.pruned (m : Material) : Material where
  cull := m.cull
  channels := (m.channels.take 2).map (·.pruned)
  texGens := m.texGens
  indirectStages := m.indirectStages
  stages := m.stages.map (·.pruned)
  alphaTest := m.alphaTest.pruned
  output := m.output

end Defs

section Parts

variable {o : Omissions}

theorem ChannelControl.lower_pruned (c : ChannelControl) (i : UInt8) :
    c.pruned.lower o i = c.lower o i := by
  cases hlit : c.lit <;> simp [lower, pruned, hlit]

theorem LightChannel.lower_pruned (c : LightChannel) (i : UInt8) :
    c.pruned.lower o i = c.lower o i := by
  rw [lower, pruned, c.color.lower_pruned, c.alpha.lower_pruned, lower]

theorem Material.loweredChannels_pruned (m : Material) :
    m.pruned.loweredChannels o = m.loweredChannels o := by
  refine List.ext_getElem? fun i => ?_
  rw [loweredChannels, loweredChannels, pruned, ← List.map_take, List.take_take, Nat.min_self]
  simp only [List.getElem?_map, List.getElem?_mapIdx]
  cases (m.channels.take 2)[i]? with
  | none => rfl
  | some c => exact congrArg some (c.lower_pruned _)

theorem AlphaTest.lower_pruned (t : AlphaTest) : t.pruned.lower = t.lower := by
  rw [pruned]
  split
  case isTrue h =>
    obtain ⟨b, hb⟩ := Option.isSome_iff_exists.mp h
    have hpruned : constant? { t with referenceA := 0, referenceB := 0 } = some b := hb
    rw [lower, lower, hb, hpruned]
    cases b <;> rfl
  case isFalse => rfl

end Parts

section Stages

variable {o : Omissions} {m : Material} {k : Nat} {s : CombinerStage}

theorem ColorInput.operand_of_ne {i : ColorInput} (h : i ≠ .konst) (x y : KonstColor)
    (t : Option UInt8) : i.operand x t = i.operand y t := by
  cases i <;> first | rfl | contradiction

theorem AlphaInput.operand_of_ne {i : AlphaInput} (h : i ≠ .konst) (x y : KonstAlpha)
    (t : Option UInt8) : i.operand x t = i.operand y t := by
  cases i <;> first | rfl | contradiction

theorem CombinerHalf.lower_congr {ι : Type} {h : CombinerHalf ι} {f g : ι → Operand}
    (hfg : ∀ i, i ∈ h.inputs → f i = g i) : h.lower f = h.lower g := by
  simp only [inputs, List.forall_mem_cons] at hfg
  obtain ⟨ha, hb, hc, hd, -⟩ := hfg
  rw [lower, lower, ha, hb, hc, hd]

namespace CombinerStage

theorem sampled_pruned : s.pruned.sampled o = s.sampled o := by
  have hreads : s.pruned.readsTexture = s.readsTexture := rfl
  rw [sampled, sampled, hreads]
  split
  case isTrue h =>
    have htexture : s.pruned.texture = s.texture := if_pos h
    rw [htexture]
  case isFalse => rfl

theorem raster_pruned : s.pruned.raster = s.raster := by
  have hreads : s.pruned.readsRaster = s.readsRaster := rfl
  rw [raster, raster, hreads]
  split
  case isTrue h =>
    have hchannel : s.pruned.channel = s.channel := if_pos h
    rw [hchannel]
  case isFalse => rfl

theorem color_pruned (t : Option UInt8) :
    s.pruned.color.lower (ColorInput.operand s.pruned.konstColor t) =
      s.color.lower (ColorInput.operand s.konstColor t) := by
  refine CombinerHalf.lower_congr fun i hi => ?_
  by_cases hkonst : i = .konst
  · subst hkonst
    have hselected : s.pruned.konstColor = s.konstColor := if_pos hi
    rw [hselected]
  · exact ColorInput.operand_of_ne hkonst _ _ t

theorem alpha_pruned (t : Option UInt8) :
    s.pruned.alpha.lower (AlphaInput.operand s.pruned.konstAlpha t) =
      s.alpha.lower (AlphaInput.operand s.konstAlpha t) := by
  refine CombinerHalf.lower_congr fun i hi => ?_
  by_cases hkonst : i = .konst
  · subst hkonst
    have hselected : s.pruned.konstAlpha = s.konstAlpha := if_pos hi
    rw [hselected]
  · exact AlphaInput.operand_of_ne hkonst _ _ t

/-- What is made of an offset stays the same, if an offset counts only where a texture is read. -/
theorem offset_pruned {β : Type} {f : Option IndirectOffset → β}
    (hf : s.readsTexture = false → ∀ x y, f x = f y) :
    (s.pruned.offset m.pruned k).map f = (s.offset m k).map f := by
  have hmatrix : s.pruned.indirect.matrix = s.indirect.matrix := rfl
  unfold offset
  rw [hmatrix]
  cases hlower : s.indirect.matrix.lower with
  | error e => rfl
  | ok x =>
    cases x with
    | none => rfl
    | some x =>
      have hon : s.indirect.matrix ≠ .off := by
        intro h
        simp [h, IndirectMatrix.lower] at hlower
      have hformat : s.pruned.indirect.format = s.indirect.format := if_neg hon
      have hstage : s.pruned.indirect.stage = s.indirect.stage := if_neg hon
      have hmissing : (m.pruned.indirectStage? s.pruned).isNone = (m.indirectStage? s).isNone := by
        rw [Material.indirectStage?, hstage]
        rfl
      simp only [ok_bind, hformat, hstage, hmissing]
      split_ifs
      · rfl
      · rfl
      · rfl
      · cases hreads : s.readsTexture with
        | false => exact congrArg Except.ok (hf hreads _ _)
        | true =>
          have hbias : s.pruned.indirect.bias = s.indirect.bias := if_pos ⟨hreads, hon⟩
          have htexture : s.pruned.texture = s.texture := if_pos hreads
          rw [hbias, htexture]

theorem map_stageCoord {β : Type} (f : StageCoord → β) (m : Material) (s : CombinerStage) :
    (s.stageCoord m k).map f = (s.offset m k).map fun x =>
      f ⟨m.coord s.coord, s.indirect.wrapS.lower, s.indirect.wrapT.lower, s.indirect.addPrevious,
        x⟩ := by
  rw [stageCoord]
  cases s.offset m k <;> rfl

theorem stageCoord_pruned {β : Type} {f : StageCoord → β}
    (hf : s.readsTexture = false → ∀ x y, f x = f y) :
    (s.pruned.stageCoord m.pruned k).map f = (s.stageCoord m k).map f := by
  have hcoord (x : Option IndirectOffset) :
      f ⟨m.pruned.coord s.pruned.coord, s.pruned.indirect.wrapS.lower,
        s.pruned.indirect.wrapT.lower, s.pruned.indirect.addPrevious, x⟩ =
      f ⟨m.coord s.coord, s.indirect.wrapS.lower, s.indirect.wrapT.lower, s.indirect.addPrevious,
        x⟩ := by
    cases hreads : s.readsTexture with
    | false => exact hf hreads _ _
    | true => simp [pruned, IndirectUse.pruned, hreads, Material.coord, Material.pruned]
  simp only [map_stageCoord, hcoord]
  exact offset_pruned fun hreads x y => hf hreads _ _

/-- A coordinate is kept only where a texture is read, but it is always checked. -/
theorem lower_eq_map (o : Omissions) (m : Material) (k : Nat) (s : CombinerStage) :
    s.lower o m k = do
      let coord ← (s.stageCoord m k).map fun c => (s.sampled o).map fun _ => c
      let raster ← s.raster
      let color ← s.color.lower (ColorInput.operand s.konstColor (s.sampled o))
      let alpha ← s.alpha.lower (AlphaInput.operand s.konstAlpha (s.sampled o))
      return { texture := s.sampled o, coord, raster, color, alpha } := by
  rw [lower]
  cases s.stageCoord m k <;> rfl

theorem lower_pruned : s.pruned.lower o m.pruned k = s.lower o m k := by
  have hunread (hreads : s.readsTexture = false) (x y : StageCoord) :
      ((s.sampled o).map fun _ => x) = (s.sampled o).map fun _ => y := by
    simp [sampled, hreads]
  rw [lower_eq_map, lower_eq_map, sampled_pruned, raster_pruned, color_pruned, alpha_pruned,
    stageCoord_pruned hunread]

end CombinerStage

end Stages

theorem Material.loweredStages_pruned (o : Omissions) (m : Material) :
    refuseFirst (CombinerStage.lower o m.pruned) 0 m.pruned.stages =
      refuseFirst (CombinerStage.lower o m) 0 m.stages := by
  rw [show m.pruned.stages = m.stages.map (·.pruned) from rfl, refuseFirst_map]
  simp only [CombinerStage.lower_pruned]

/-- Settings that are not read make no difference to the program or to the refusal of a
material. -/
theorem Material.lower_pruned (o : Omissions) (m : Material) : m.pruned.lower o = m.lower o := by
  have hgens : m.pruned.texGens = m.texGens := rfl
  have halpha : m.pruned.alphaTest = m.alphaTest.pruned := rfl
  have hsamples : m.pruned.loweredSamples o = m.loweredSamples o := rfl
  rw [lower_eq, lower_eq, hgens, halpha, hsamples, loweredStages_pruned, loweredChannels_pruned,
    AlphaTest.lower_pruned]

end FixedFunction
