import FixedFunction.Proofs.Program.Demands

/-!
# Leaving things out is rewriting

**Input.**  A material, and what is to be left out of its program.

**Algorithm.**  Textures and lighting are taken out of the material before it is lowered with
nothing left out.  Vertex colors are taken out of the program behind that: a material has no source
that stands for white.

**Results.**
* `Material.without`: a material without the textures and the lighting that are left out.
* `Program.without`: a program without the vertex colors that are left out.
* `Material.lower_omissions`: lowering with something left out is lowering between the two, and it
  fails as if nothing was left out.
-/

namespace FixedFunction

section Defs

/-- A half of a channel that is not lit where lighting is left out. -/
def ChannelControl.without (o : Omissions) (c : ChannelControl) : ChannelControl :=
  { c with lit := c.lit && !o.lighting }

def LightChannel.without (o : Omissions) (c : LightChannel) : LightChannel where
  color := c.color.without o
  alpha := c.alpha.without o

/-- An indirect stage that has no texture where textures are left out. -/
def IndirectStage.without (o : Omissions) (s : IndirectStage) : IndirectStage :=
  { s with texture := if o.textures then none else s.texture }

/-- A combiner stage that has no texture where textures are left out. -/
def CombinerStage.without (o : Omissions) (s : CombinerStage) : CombinerStage :=
  { s with texture := if o.textures then none else s.texture }

/-- A material without the textures and the lighting that are left out. -/
def Material.without (o : Omissions) (m : Material) : Material :=
  { m with
    channels := m.channels.map (·.without o)
    indirectStages := m.indirectStages.map (·.without o)
    stages := m.stages.map (·.without o) }

/-- White in place of vertex colors, where they are left out. -/
def ColorOrigin.without (o : Omissions) : ColorOrigin → ColorOrigin
  | .vertex i => if o.vertexColors then .white else .vertex i
  | c => c

def ChannelHalf.without (o : Omissions) (v : ChannelHalf) : ChannelHalf where
  material := v.material.without o
  ambient := v.ambient.map (·.without o)

def Channel.without (o : Omissions) (c : Channel) : Channel where
  color := c.color.without o
  alpha := c.alpha.without o

/-- Whether an input is left in: vertex colors are not, where they are left out. -/
def ShaderInput.isKept (o : Omissions) : ShaderInput → Bool
  | .color _ => !o.vertexColors
  | _ => true

/-- A program without the vertex colors that are left out. -/
def Program.without (o : Omissions) (p : Program) : Program :=
  { p with
    channels := p.channels.map (·.without o)
    vertexInputs := p.vertexInputs.filter (·.isKept o) }

end Defs

section Channels

variable {o : Omissions} {i : UInt8}

theorem ColorSource.without_resolve (s : ColorSource) (register : ColorOrigin)
    (hregister : register.without o = register) :
    (s.resolve {} i register).without o = s.resolve o i register := by
  cases s with
  | register => exact hregister
  | vertex => rfl

theorem ChannelControl.lower_without (c : ChannelControl) :
    ((c.without o).lower {} i).without o = c.lower o i := by
  have hmaterial := c.material.without_resolve (o := o) (i := i) (.materialRegister i) rfl
  have hambient := c.ambient.without_resolve (o := o) (i := i) (.ambientRegister i) rfl
  cases hlit : c.lit && !o.lighting <;>
    simp [ChannelHalf.without, lower, without, hlit, hmaterial, hambient]

theorem LightChannel.lower_without (c : LightChannel) :
    ((c.without o).lower {} i).without o = c.lower o i := by
  rw [lower, Channel.without, without, lower, c.color.lower_without, c.alpha.lower_without]

theorem Material.loweredChannels_without (o : Omissions) (m : Material) :
    ((m.without o).loweredChannels {}).map (·.without o) = m.loweredChannels o := by
  refine List.ext_getElem? fun i => ?_
  rw [loweredChannels, loweredChannels, without, ← List.map_take]
  simp only [List.getElem?_map, List.getElem?_mapIdx]
  cases (m.channels.take 2)[i]? with
  | none => rfl
  | some c => exact congrArg some c.lower_without

end Channels

section Inputs

variable {o : Omissions}

theorem ColorOrigin.without_eq_vertex {c : ColorOrigin} {i : UInt8} :
    c.without o = .vertex i ↔ o.vertexColors = false ∧ c = .vertex i := by
  cases c <;> cases ho : o.vertexColors <;> simp [without, ho]

theorem ChannelHalf.readsVertex_without (v : ChannelHalf) (i : UInt8) :
    (v.without o).readsVertex i = (!o.vertexColors && v.readsVertex i) := by
  cases ho : o.vertexColors <;> simp [readsVertex, without, ColorOrigin.without_eq_vertex, ho]

theorem Channel.readsVertex_without (c : Channel) (i : UInt8) :
    ((c.without o).color.readsVertex i || (c.without o).alpha.readsVertex i) =
      (!o.vertexColors && (c.color.readsVertex i || c.alpha.readsVertex i)) := by
  rw [without, c.color.readsVertex_without, c.alpha.readsVertex_without, Bool.and_or_distrib_left]

theorem ShaderInput.isRead_without (channels : List Channel) (gens : List CoordGen)
    (v : ShaderInput) : v.isRead (channels.map (·.without o)) gens =
      (v.isKept o && v.isRead channels gens) := by
  cases v with
  | color i =>
    simp only [isRead, isKept, List.any_map, Function.comp_def, Channel.readsVertex_without]
    cases o.vertexColors <;> simp
  | _ => rfl

end Inputs

section Stages

theorem refuseFirst_map {α β γ : Type} (g : α → β) (f : Nat → β → Except Error γ) (l : List α) :
    ∀ k, refuseFirst f k (l.map g) = refuseFirst (fun i x => f i (g x)) k l := by
  induction l with
  | nil => exact fun _ => rfl
  | cons x l ih =>
    intro k
    rw [List.map_cons, refuseFirst, refuseFirst, ih]

theorem refuseFirst_map_output {α β γ : Type} (g : β → γ) (f : Nat → α → Except Error β)
    (l : List α) : ∀ k, refuseFirst (fun i x => (f i x).map g) k l =
      (refuseFirst f k l).map (List.map g) := by
  induction l with
  | nil => exact fun _ => rfl
  | cons x l ih =>
    intro k
    rw [refuseFirst, refuseFirst, ih]
    cases f k x with
    | error e => rfl
    | ok y => cases refuseFirst f (k + 1) l <;> rfl

/-- An offset that is divided by no texture size where textures are left out. -/
def IndirectOffset.without (o : Omissions) (x : IndirectOffset) : IndirectOffset :=
  { x with texture := o.texture x.texture }

def StageCoord.without (o : Omissions) (c : StageCoord) : StageCoord :=
  { c with indirect := c.indirect.map (·.without o) }

variable {o : Omissions} {m : Material} {k : Nat} {s : CombinerStage}

theorem CombinerStage.offset_without : (s.without o).offset (m.without o) k =
    (s.offset m k).map (·.map (·.without o)) := by
  have hstage : ((m.without o).indirectStage? (s.without o)).isNone =
      (m.indirectStage? s).isNone := by
    simp [Material.indirectStage?, Material.without, without]
  have hs : (s.without o).indirect = s.indirect := rfl
  unfold offset
  rw [hstage, hs]
  cases s.indirect.matrix.lower with
  | error e => rfl
  | ok x =>
    cases x with
    | none => rfl
    | some x =>
      simp only [ok_bind]
      split_ifs <;> rfl

theorem CombinerStage.stageCoord_without : (s.without o).stageCoord (m.without o) k =
    (s.stageCoord m k).map (·.without o) := by
  rw [stageCoord, stageCoord, offset_without]
  cases s.offset m k <;> rfl

theorem CombinerStage.sampled_without : (s.without o).sampled {} = s.sampled o := rfl

/-- A coordinate that is used is not divided by the size of a texture that is left out. -/
theorem CombinerStage.map_sampled_without (c : StageCoord) :
    (s.sampled o).map (fun _ => c.without o) = (s.sampled o).map fun _ => c := by
  cases ho : o.textures with
  | true => simp [sampled, Omissions.texture, ho]
  | false =>
    simp [StageCoord.without, IndirectOffset.without, Omissions.texture, ho]

theorem CombinerStage.lower_without :
    (s.without o).lower {} (m.without o) k = s.lower o m k := by
  rw [lower, lower, stageCoord_without, sampled_without]
  cases s.stageCoord m k with
  | error e => rfl
  | ok c =>
    simp only [Except.map, ok_bind, map_sampled_without]
    rfl

end Stages

theorem IndirectStage.lower_without (o : Omissions) (m : Material) (s : IndirectStage) :
    (s.without o).lower {} (m.without o) = s.lower o m := rfl

theorem Material.loweredSamples_without (o : Omissions) (m : Material) :
    (m.without o).loweredSamples {} = m.loweredSamples o := by
  have hstages : (m.without o).indirectStages = m.indirectStages.map (·.without o) := rfl
  rw [loweredSamples, loweredSamples, hstages, List.map_map]
  exact List.map_congr_left fun s _ => s.lower_without o m

theorem Material.loweredStages_without (o : Omissions) (m : Material) :
    refuseFirst (CombinerStage.lower {} (m.without o)) 0 (m.without o).stages =
      refuseFirst (CombinerStage.lower o m) 0 m.stages := by
  have hstages : (m.without o).stages = m.stages.map (·.without o) := rfl
  rw [hstages, refuseFirst_map]
  simp only [CombinerStage.lower_without]

theorem Program.without_ofParts (o : Omissions) {channels : List Channel} {gens : List CoordGen}
    {samples : List IndirectSample} {stages : List Stage} {check : AlphaCheck} :
    (ofParts channels gens samples stages check).without o =
      ofParts (channels.map (·.without o)) gens samples stages check := by
  simp only [ofParts, without, List.filter_filter, ShaderInput.isRead_without]

/-- Lowering with something left out fails as if nothing was left out, and otherwise it is the
lowering of a material without textures and lighting, less the vertex colors. -/
theorem Material.lower_omissions (o : Omissions) (m : Material) :
    (∀ e, m.lower o = .error e ↔ m.lower {} = .error e) ∧
      m.lower o = ((m.without o).lower {}).map (·.without o) := by
  constructor
  · intro e
    rw [(m.answers_lower o).error_iff, (m.answers_lower {}).error_iff]
  · have hgens : (m.without o).texGens = m.texGens := rfl
    have halpha : (m.without o).alphaTest = m.alphaTest := rfl
    rw [lower_eq, lower_eq, loweredStages_without, hgens, halpha]
    cases refuseFirst TexGen.lower 0 m.texGens with
    | error e => rfl
    | ok gens =>
      cases refuseFirst (CombinerStage.lower o m) 0 m.stages with
      | error e => rfl
      | ok stages =>
        cases m.alphaTest.lower with
        | error e => rfl
        | ok check =>
          refine congrArg Except.ok ?_
          dsimp only
          rw [Program.without_ofParts, loweredChannels_without, loweredSamples_without]

end FixedFunction
