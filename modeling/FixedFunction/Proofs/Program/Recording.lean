import FixedFunction.Proofs.Program.Lowering
import Mathlib.Data.List.Nodup

/-!
# What a program reads is what its parts mention

**Input.**  A material.

**Algorithm.**  While the parts of a material are lowered, the vertex inputs and the textures that
they read are noted one by one.  At the end the notes are sorted, and repetitions are dropped.

**Invariant.**  A part that is lowered mentions an input or a texture exactly if it was noted for the
part that it comes from.

**Results.**
* `inputs_eq_filter`, `textures_eq_texturesRead`: the notes of a material that is lowered, in order,
  are those of all inputs and textures that the lowered parts mention.
* `Material.lower_eq_ok`: what is known of a material that is lowered.
-/

namespace FixedFunction

section Order

variable {α : Type} {key : α → Nat} {l : List α}

theorem mem_insertBy {x y : α} : y ∈ insertBy key x l ↔ y = x ∨ y ∈ l := by
  induction l with
  | nil => simp [insertBy]
  | cons z l ih =>
    rw [insertBy]
    split
    · exact List.mem_cons
    · rw [List.mem_cons, ih, List.mem_cons, or_left_comm]

theorem mem_sortBy {x : α} : x ∈ sortBy key l ↔ x ∈ l := by
  induction l with
  | nil => rfl
  | cons y l ih => rw [sortBy, mem_insertBy, ih, List.mem_cons]

theorem pairwise_insertBy {x : α} (h : l.Pairwise (key · ≤ key ·)) :
    (insertBy key x l).Pairwise (key · ≤ key ·) := by
  induction l with
  | nil => exact List.pairwise_singleton _ _
  | cons y l ih =>
    obtain ⟨hy, hl⟩ := List.pairwise_cons.1 h
    rw [insertBy]
    split
    case isTrue hxy =>
      refine List.pairwise_cons.2 ⟨fun z hz => ?_, h⟩
      rcases List.mem_cons.1 hz with rfl | hz
      · exact hxy
      · exact Nat.le_trans hxy (hy z hz)
    case isFalse hxy =>
      refine List.pairwise_cons.2 ⟨fun z hz => ?_, ih hl⟩
      rcases mem_insertBy.1 hz with rfl | hz
      · exact (Nat.le_total _ _).resolve_left hxy
      · exact hy z hz

theorem pairwise_sortBy (l : List α) : (sortBy key l).Pairwise (key · ≤ key ·) := by
  induction l with
  | nil => exact .nil
  | cons x l ih => exact pairwise_insertBy ih

theorem nodup_of_pairwise (h : l.Pairwise (key · < key ·)) : l.Nodup :=
  h.imp fun hlt heq => Nat.ne_of_lt hlt (congrArg key heq)

/-- A list in the order of its keys is determined by its elements. -/
theorem eq_of_pairwise_of_mem {l' : List α} (h : l.Pairwise (key · < key ·))
    (h' : l'.Pairwise (key · < key ·)) (hmem : ∀ x, x ∈ l ↔ x ∈ l') : l = l' := by
  have hperm := (List.perm_ext_iff_of_nodup (nodup_of_pairwise h) (nodup_of_pairwise h')).2 hmem
  exact hperm.eq_of_pairwise (fun x y _ _ hxy hyx => absurd hxy (Nat.lt_asymm hyx)) h h'

variable [DecidableEq α]

theorem mem_dropRepeats {x : α} : x ∈ dropRepeats l ↔ x ∈ l := by
  induction l with
  | nil => rfl
  | cons y l ih =>
    rw [dropRepeats]
    split
    case isTrue hy =>
      have hmem := List.mem_of_mem_head? hy
      rw [ih, List.mem_cons]
      exact ⟨.inr, fun hx => hx.elim (fun hx => hx ▸ hmem) id⟩
    case isFalse => rw [List.mem_cons, ih, List.mem_cons]

/-- Where different elements have different keys, keys increase behind the repetitions. -/
theorem pairwise_dropRepeats (h : l.Pairwise (key · ≤ key ·))
    (hkey : ∀ x ∈ l, ∀ y ∈ l, key x = key y → x = y) :
    (dropRepeats l).Pairwise (key · < key ·) := by
  induction l with
  | nil => exact .nil
  | cons x l ih =>
    obtain ⟨hx, hl⟩ := List.pairwise_cons.1 h
    have hrest := ih hl fun y hy z hz =>
      hkey y (List.mem_cons_of_mem x hy) z (List.mem_cons_of_mem x hz)
    rw [dropRepeats]
    split
    case isTrue => exact hrest
    case isFalse hhead =>
      refine List.pairwise_cons.2 ⟨fun y hy => ?_, hrest⟩
      have hy := mem_dropRepeats.1 hy
      refine Nat.lt_of_le_of_ne (hx y hy) fun heq => hhead ?_
      -- An element with the key of the first is the first again, and so is what stands between.
      cases l with
      | nil => exact absurd hy List.not_mem_nil
      | cons z l =>
        have hz := List.mem_cons_of_mem x (List.mem_cons_self (a := z) (l := l))
        have hzy : key z ≤ key y := by
          rcases List.mem_cons.1 hy with rfl | hy
          · exact Nat.le_refl _
          · exact (List.pairwise_cons.1 hl).1 y hy
        have hxz := Nat.le_antisymm (hx z List.mem_cons_self) (heq ▸ hzy)
        exact congrArg some (hkey x List.mem_cons_self z hz hxz).symm

theorem dropRepeats_sortBy_eq {l' : List α} (h' : l'.Pairwise (key · < key ·))
    (hkey : ∀ x ∈ l', ∀ y ∈ l', key x = key y → x = y) (hmem : ∀ x, x ∈ l ↔ x ∈ l') :
    dropRepeats (sortBy key l) = l' := by
  have hsorted (x : α) : x ∈ sortBy key l ↔ x ∈ l' := mem_sortBy.trans (hmem x)
  refine eq_of_pairwise_of_mem (pairwise_dropRepeats (pairwise_sortBy l) fun x hx y hy => ?_) h'
    fun x => mem_dropRepeats.trans (hsorted x)
  exact hkey x ((hsorted x).1 hx) y ((hsorted y).1 hy)

end Order

section Defs

/-- Whether a half of a channel reads vertex color `i`. -/
def ChannelHalf.readsVertex (i : UInt8) (v : ChannelHalf) : Bool :=
  v.material = .vertex i || v.ambient = some (.vertex i)

/-- The vertex input that a generator reads. -/
def CoordSource.input? : CoordSource → Option ShaderInput
  | .position => some .position
  | .normal => some .normal
  | .binormal => some .binormal
  | .tangent => some .tangent
  | .tex i => some (.tex i)
  | .color _ | .coord _ => none

namespace ShaderInput

/-- All inputs that a program can read, by location. -/
def all : List ShaderInput :=
  [.positionMatrix, .position, .normal, .color 0, .color 1, .tex 0, .tex 1, .tex 2, .tex 3,
    .tex 4, .tex 5, .tex 6, .tex 7, .binormal, .tangent]

/-- Whether an input is declared for the given channels and generators.  The position and the
number of its matrix always are. -/
def isRead (channels : List Channel) (gens : List CoordGen) : ShaderInput → Bool
  | .positionMatrix | .position => true
  | .color i => channels.any fun c => c.color.readsVertex i || c.alpha.readsVertex i
  | v => gens.any (·.source.input? = some v)

end ShaderInput

/-- The textures that the given samples and stages read, by number. -/
def texturesRead (samples : List IndirectSample) (stages : List Stage) : List UInt8 :=
  ((List.range 256).map Nat.toUInt8).filter fun t =>
    samples.any (·.texture = some t) || stages.any (·.texture = some t)

/-- The program of lowered parts. -/
def Program.ofParts (channels : List Channel) (gens : List CoordGen) (samples : List IndirectSample)
    (stages : List Stage) (check : AlphaCheck) : Program where
  vertexInputs := ShaderInput.all.filter (·.isRead channels gens)
  channels := channels
  coordGens := gens
  indirectSamples := samples
  stages := stages
  alphaCheck := check
  textures := texturesRead samples stages

namespace Material

/-- The lowered channels of a material. -/
def loweredChannels (o : Omissions) (m : Material) : List Channel :=
  (m.channels.take 2).mapIdx fun i c => c.lower o i.toUInt8

/-- The lowered indirect samples of a material. -/
def loweredSamples (o : Omissions) (m : Material) : List IndirectSample :=
  m.indirectStages.map (·.lower o m)

end Material
end Defs

section Channels

variable {o : Omissions} {k : UInt8} {v : ShaderInput}

theorem ColorSource.mem_inputs_iff {s : ColorSource} (register : ColorOrigin)
    (hregister : ∀ i, register ≠ .vertex i) :
    v ∈ s.inputs o k ↔ ∃ i, v = .color i ∧ s.resolve o k register = .vertex i := by
  cases s with
  | register => simp [inputs, resolve, hregister]
  | vertex => cases ho : o.vertexColors <;> simp [inputs, resolve, ho]

theorem ChannelControl.mem_inputs_iff {c : ChannelControl} :
    v ∈ c.inputs o k ↔ ∃ i, v = .color i ∧ (c.lower o k).readsVertex i := by
  have hmaterial := c.material.mem_inputs_iff (o := o) (k := k) (v := v) (.materialRegister k)
    (by simp)
  have hambient := c.ambient.mem_inputs_iff (o := o) (k := k) (v := v) (.ambientRegister k)
    (by simp)
  cases hlit : c.lit && !o.lighting <;>
    simp [inputs, lower, ChannelHalf.readsVertex, hlit, hmaterial, hambient, and_or_left,
      exists_or]

theorem LightChannel.mem_inputs_iff {c : LightChannel} :
    v ∈ c.inputs o k ↔ ∃ i, v = .color i ∧
      ((c.lower o k).color.readsVertex i || (c.lower o k).alpha.readsVertex i) := by
  simp [inputs, lower, ChannelControl.mem_inputs_iff, and_or_left, exists_or]

theorem ColorSource.eq_of_mem_inputs {s : ColorSource} (h : v ∈ s.inputs o k) : v = .color k := by
  cases s with
  | register => exact absurd h List.not_mem_nil
  | vertex => cases ho : o.vertexColors <;> simp_all [inputs]

theorem LightChannel.eq_of_mem_inputs {c : LightChannel} (h : v ∈ c.inputs o k) :
    v = .color k := by
  have hhalf {c : ChannelControl} (h : v ∈ c.inputs o k) : v = .color k := by
    rcases List.mem_append.1 h with h | h
    · exact ColorSource.eq_of_mem_inputs h
    · split at h
      · exact ColorSource.eq_of_mem_inputs h
      · exact absurd h List.not_mem_nil
  rcases List.mem_append.1 h with h | h
  · exact hhalf h
  · exact hhalf h

/-- A channel reads the vertex color with its own number only. -/
theorem LightChannel.readsVertex_lower {i : UInt8} {c : LightChannel}
    (h : (c.lower o k).color.readsVertex i || (c.lower o k).alpha.readsVertex i) : i = k :=
  ShaderInput.color.inj (eq_of_mem_inputs (mem_inputs_iff.2 ⟨i, rfl, h⟩))

end Channels

section RefuseFirst

variable {α β : Type} {f : Nat → α → Except Error β}

theorem exists_mem_iff_of_refuseFirst {P : α → Prop} {Q : β → Prop}
    (hPQ : ∀ j x y, f j x = .ok y → (P x ↔ Q y)) {l : List α} : ∀ {k : Nat} {l' : List β},
    refuseFirst f k l = .ok l' → ((∃ x ∈ l, P x) ↔ ∃ y ∈ l', Q y) := by
  induction l with
  | nil =>
    intro k l' h
    rw [← Except.ok.inj h]
    simp
  | cons x l ih =>
    intro k l' h
    obtain ⟨y, hy, ys, hys, rfl⟩ := refuseFirst_cons_eq_ok.1 h
    rw [List.exists_mem_cons_iff, List.exists_mem_cons_iff, hPQ k x y hy, ih hys]

end RefuseFirst

theorem TexGenSource.reads_of_lower {i : Nat} {s : TexGenSource} {c : CoordSource}
    (h : s.lower i = .ok c) :
    (∀ k, c = .color k → k.toNat < 2) ∧ (∀ k, c = .coord k → k.toNat < i) ∧
      ∀ v, c.input? = some v → v ∈ ShaderInput.all := by
  cases s <;> simp only [TexGenSource.lower] at h
  all_goals first
    | (rw [← Except.ok.inj h]; simp [CoordSource.input?, ShaderInput.all])
    | (split at h
       · rename_i hk
         rw [← Except.ok.inj h]
         simpa [CoordSource.input?] using hk
       · exact absurd h (by simp))

/-- The input of a source is that of the lowered source.  The position is there anyway. -/
theorem TexGenSource.input?_of_lower {i : Nat} {s : TexGenSource} {c : CoordSource}
    (h : s.lower i = .ok c) {v : ShaderInput} :
    s.input? = some v ↔ v ≠ .position ∧ c.input? = some v := by
  cases s with
  | position =>
    obtain rfl := Except.ok.inj h
    simp only [input?, CoordSource.input?, reduceCtorEq, false_iff, not_and]
    exact fun hv h => hv (Option.some.inj h).symm
  | texCoord0 | texCoord1 | texCoord2 | texCoord3 | texCoord4 | texCoord5 | texCoord6 =>
    simp only [lower] at h
    split at h
    · obtain rfl := Except.ok.inj h
      simp [input?, CoordSource.input?]
    · exact absurd h (by simp)
  | _ =>
    obtain rfl := Except.ok.inj h
    refine ⟨fun hv => ⟨?_, hv⟩, And.right⟩
    rintro rfl
    exact absurd hv (by simp [input?])

section Inputs

variable {o : Omissions} {m : Material} {gens : List CoordGen} {v : ShaderInput}

theorem Material.mem_channelInputs_iff :
    v ∈ ((m.channels.take 2).mapIdx fun i c => c.inputs o i.toUInt8).flatten ↔
      ∃ i, v = .color i ∧
        (m.loweredChannels o).any fun c => c.color.readsVertex i || c.alpha.readsVertex i := by
  constructor
  · intro h
    obtain ⟨vs, hvs, hv⟩ := List.mem_flatten.1 h
    obtain ⟨k, hk, rfl⟩ := List.mem_mapIdx.1 hvs
    obtain ⟨i, rfl, hi⟩ := LightChannel.mem_inputs_iff.1 hv
    exact ⟨i, rfl, List.any_eq_true.2 ⟨_, List.mem_mapIdx.2 ⟨k, hk, rfl⟩, hi⟩⟩
  · rintro ⟨i, rfl, h⟩
    obtain ⟨c, hc, hi⟩ := List.any_eq_true.1 h
    obtain ⟨k, hk, rfl⟩ := List.mem_mapIdx.1 hc
    exact List.mem_flatten.2 ⟨_, List.mem_mapIdx.2 ⟨k, hk, rfl⟩,
      LightChannel.mem_inputs_iff.2 ⟨i, rfl, hi⟩⟩

/-- The vertex colors that the channels of a material read are among those of all inputs. -/
theorem Material.color_mem_all {i : UInt8}
    (h : (m.loweredChannels o).any fun c => c.color.readsVertex i || c.alpha.readsVertex i) :
    .color i ∈ ShaderInput.all := by
  obtain ⟨c, hc, hi⟩ := List.any_eq_true.1 h
  obtain ⟨k, hk, rfl⟩ := List.mem_mapIdx.1 hc
  obtain rfl := LightChannel.readsVertex_lower hi
  rw [List.length_take] at hk
  have hdeclared : ∀ k < 2, .color k.toUInt8 ∈ ShaderInput.all := by decide
  exact hdeclared k (by omega)

theorem Material.mem_genInputs_iff (h : refuseFirst TexGen.lower 0 m.texGens = .ok gens) :
    v ∈ m.texGens.filterMap (·.source.input?) ↔
      v ≠ .position ∧ ∃ g ∈ gens, g.source.input? = some v := by
  have hgen (j : Nat) (x : TexGen) (y : CoordGen) (hy : x.lower j = .ok y) :
      x.source.input? = some v ↔ v ≠ .position ∧ y.source.input? = some v := by
    obtain ⟨kind, source, post, -, hsource, -, rfl⟩ := TexGen.lower_eq_ok hy
    exact TexGenSource.input?_of_lower hsource
  rw [List.mem_filterMap, exists_mem_iff_of_refuseFirst hgen h]
  simp only [and_left_comm, exists_and_left]

theorem ShaderInput.isRead_of_input? {channels : List Channel} {g : CoordGen} (hg : g ∈ gens)
    (hv : g.source.input? = some v) : v.isRead channels gens := by
  have hany : gens.any (·.source.input? = some v) :=
    List.any_eq_true.2 ⟨g, hg, decide_eq_true hv⟩
  cases v with
  | positionMatrix | position => rfl
  | color i => cases hs : g.source <;> simp [hs, CoordSource.input?] at hv
  | _ => exact hany

/-- What is noted for a material is what its lowered parts read. -/
theorem Material.mem_inputs_iff (h : refuseFirst TexGen.lower 0 m.texGens = .ok gens) :
    v ∈ m.inputs o ↔ v.isRead (m.loweredChannels o) gens := by
  rw [inputs, List.mem_append, List.mem_append, mem_channelInputs_iff, mem_genInputs_iff h]
  cases v with
  | positionMatrix | position => simp [ShaderInput.isRead]
  | color i =>
    have hcolor (g : CoordGen) : g.source.input? ≠ some (.color i) := by
      cases g.source <;> simp [CoordSource.input?]
    simp [ShaderInput.isRead, hcolor]
  | _ => simp [ShaderInput.isRead]

theorem Material.mem_all_of_isRead (h : refuseFirst TexGen.lower 0 m.texGens = .ok gens)
    (hv : v.isRead (m.loweredChannels o) gens) : v ∈ ShaderInput.all := by
  have hgen : (gens.any (·.source.input? = some v)) → v ∈ ShaderInput.all := by
    intro hany
    obtain ⟨g, hg, hv⟩ := List.any_eq_true.1 hany
    obtain ⟨j, x, -, hx⟩ := mem_of_refuseFirst h hg
    obtain ⟨kind, source, post, -, hsource, -, rfl⟩ := TexGen.lower_eq_ok hx
    exact (TexGenSource.reads_of_lower hsource).2.2 v (of_decide_eq_true hv)
  cases v with
  | positionMatrix | position => decide
  | color i => exact color_mem_all hv
  | _ => exact hgen hv

/-- The inputs of a lowered program are those that its parts read. -/
theorem Material.mem_filter_isRead_iff (h : refuseFirst TexGen.lower 0 m.texGens = .ok gens) :
    v ∈ ShaderInput.all.filter (·.isRead (m.loweredChannels o) gens) ↔
      v.isRead (m.loweredChannels o) gens :=
  List.mem_filter.trans ⟨And.right, fun hv => ⟨mem_all_of_isRead h hv, hv⟩⟩

theorem Material.inputs_eq_filter (h : refuseFirst TexGen.lower 0 m.texGens = .ok gens) :
    dropRepeats (sortBy ShaderInput.location (m.inputs o)) =
      ShaderInput.all.filter (·.isRead (m.loweredChannels o) gens) := by
  have hkey : ∀ v ∈ ShaderInput.all, ∀ w ∈ ShaderInput.all, v.location = w.location → v = w := by
    decide
  refine dropRepeats_sortBy_eq (.filter _ (by decide)) (fun v hv w hw => ?_) fun v => ?_
  · exact hkey v (List.mem_of_mem_filter hv) w (List.mem_of_mem_filter hw)
  · rw [mem_inputs_iff h, mem_filter_isRead_iff h]

end Inputs

section Textures

variable {o : Omissions} {m : Material} {stages : List Stage} {t : UInt8}

theorem mem_texturesRead {samples : List IndirectSample} :
    t ∈ texturesRead samples stages ↔
      (∃ s ∈ samples, s.texture = some t) ∨ ∃ s ∈ stages, s.texture = some t := by
  have hrange : t ∈ (List.range 256).map Nat.toUInt8 :=
    List.mem_map.2 ⟨t.toNat, List.mem_range.2 t.toNat_lt, by simp⟩
  simp [texturesRead, List.mem_filter, hrange]

theorem pairwise_texturesRead (samples : List IndirectSample) (stages : List Stage) :
    (texturesRead samples stages).Pairwise (·.toNat < ·.toNat) := by
  refine List.Pairwise.filter _ (List.pairwise_map.2 ?_)
  refine List.pairwise_lt_range.imp_of_mem ?_
  intro i j hi hj hij
  have htoNat (n : Nat) (hn : n ∈ List.range 256) : n.toUInt8.toNat = n :=
    Nat.mod_eq_of_lt (List.mem_range.1 hn)
  rwa [htoNat i hi, htoNat j hj]

/-- What is noted for a material is what its lowered parts sample. -/
theorem Material.mem_textures_iff
    (h : refuseFirst (CombinerStage.lower o m) 0 m.stages = .ok stages) :
    t ∈ m.textures o ↔
      (∃ s ∈ m.loweredSamples o, s.texture = some t) ∨ ∃ s ∈ stages, s.texture = some t := by
  have hstage (j : Nat) (x : CombinerStage) (y : Stage) (hy : x.lower o m j = .ok y) :
      x.sampled o = some t ↔ y.texture = some t := by
    obtain ⟨coord, raster, color, alpha, -, -, -, -, rfl⟩ := CombinerStage.lower_eq_ok hy
    exact Iff.rfl
  rw [textures, List.mem_append, List.mem_filterMap, List.mem_filterMap,
    exists_mem_iff_of_refuseFirst hstage h]
  simp [loweredSamples, IndirectStage.lower]

theorem Material.textures_eq_texturesRead
    (h : refuseFirst (CombinerStage.lower o m) 0 m.stages = .ok stages) :
    dropRepeats (sortBy UInt8.toNat (m.textures o)) =
      texturesRead (m.loweredSamples o) stages := by
  refine dropRepeats_sortBy_eq (pairwise_texturesRead _ _) (fun s _ t _ => UInt8.toNat_inj.1) ?_
  intro t
  rw [mem_textures_iff h, mem_texturesRead]

end Textures

namespace Material

variable {o : Omissions} {m : Material}

/-- The lists of inputs and textures of a program can as well be made of its lowered parts. -/
theorem lower_eq (o : Omissions) (m : Material) : m.lower o = do
    let gens ← refuseFirst TexGen.lower 0 m.texGens
    let stages ← refuseFirst (CombinerStage.lower o m) 0 m.stages
    let check ← m.alphaTest.lower
    return .ofParts (m.loweredChannels o) gens (m.loweredSamples o) stages check := by
  unfold lower
  -- Notes are taken also for parts that are refused, but then they are not looked at.
  cases hgens : refuseFirst TexGen.lower 0 m.texGens with
  | error e => rfl
  | ok gens =>
    cases hstages : refuseFirst (CombinerStage.lower o m) 0 m.stages with
    | error e => rfl
    | ok stages =>
      simp only [ok_bind, Program.ofParts, inputs_eq_filter hgens,
        textures_eq_texturesRead hstages]
      rfl

theorem lower_eq_ok {p : Program} (h : m.lower o = .ok p) :
    ∃ gens stages check, refuseFirst TexGen.lower 0 m.texGens = .ok gens ∧
      refuseFirst (CombinerStage.lower o m) 0 m.stages = .ok stages ∧
      m.alphaTest.lower = .ok check ∧
      p = .ofParts (m.loweredChannels o) gens (m.loweredSamples o) stages check := by
  rw [lower_eq] at h
  obtain ⟨gens, hgens, h⟩ := bind_eq_ok.1 h
  obtain ⟨stages, hstages, h⟩ := bind_eq_ok.1 h
  obtain ⟨check, hcheck, h⟩ := bind_eq_ok.1 h
  exact ⟨gens, stages, check, hgens, hstages, hcheck, (Except.ok.inj h).symm⟩

theorem compile_eq_ok {c : Compiled} (h : m.compile o = .ok c) :
    m.lower o = .ok c.program ∧ m.rasterState = .ok c.state ∧ c.name = m.name := by
  obtain ⟨program, hprogram, h⟩ := bind_eq_ok.1 h
  obtain ⟨state, hstate, h⟩ := bind_eq_ok.1 h
  obtain rfl := Except.ok.inj h
  exact ⟨hprogram, hstate, rfl⟩

end Material
end FixedFunction
