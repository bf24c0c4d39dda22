import FixedFunction.Material.Codec
import FixedFunction.Proofs.Json.Defaults

/-!
# Saved materials

A field that was taken out of a saved material is read as its record has it by default, and not as
its own type has it: a stage without anything said clamps its colors, and an alpha test without
anything said always passes.  The selectors of a combiner stage are saved side by side, though a
stage keeps those of color, of alpha and of the indirect look-up in records of their own.

**Input.**  A material, or the options of a material, and a deletion of fields.

**Results.**
* `Restore`, for every record of a material: its fields under their keys, each with its default.
* `Lenient`, for every record of a material: this is what is read.
* `Material.numbers`: the numbers of a material, which must be finite to be read.
-/

namespace FixedFunction

open Json

/-! ### Channels and coordinates -/

instance : Restore ChannelControl where
  restore d c :=
    let initial : ChannelControl := {}
    { lit := d.left "lighting_enabled" initial.lit c.lit
      material := d.left "mat_color_source" initial.material c.material
      ambient := d.left "amb_color_source" initial.ambient c.ambient }
  finite _ := true

instance : Lenient ChannelControl where
  restore_nothing _ := rfl
  finite_restore _ _ h := h
  read?_without hd _ :=
    Rebuilds.read?_without hd (by decide) (.field <| .field <| .field .nil) rfl

instance : Restore LightChannel where
  restore d c :=
    let initial : LightChannel := {}
    { color := d.left "color" initial.color c.color
      alpha := d.left "alpha" initial.alpha c.alpha }
  finite _ := true

instance : Lenient LightChannel where
  restore_nothing _ := rfl
  finite_restore _ _ h := h
  read?_without hd _ :=
    Rebuilds.read?_without hd (by decide) (.field <| .field .nil) rfl

instance : ScalarCodec PostMatrix where
  isScalar_write _ := rfl
  read?_write m := congrArg (Option.map PostMatrix.mk) (ScalarCodec.read?_write m.row)

instance : Restore TexGen where
  restore d g :=
    let initial : TexGen := {}
    { kind := d.left "gen_type" initial.kind g.kind
      source := d.left "source" initial.source g.source
      matrix := d.left "matrix" initial.matrix g.matrix
      normalize := d.left "normalize" initial.normalize g.normalize
      post := d.left "post_matrix" initial.post g.post }
  finite _ := true

instance : Lenient TexGen where
  restore_nothing _ := rfl
  finite_restore _ _ h := h
  read?_without hd _ :=
    Rebuilds.read?_without hd (by decide) (.field <| .field <| .field <| .field <| .field .nil) rfl

/-! ### Stages -/

instance : Restore CombinerStage where
  restore d s :=
    let initial : CombinerStage := {}
    { color :=
        { a := d.left "color_in_a" initial.color.a s.color.a
          b := d.left "color_in_b" initial.color.b s.color.b
          c := d.left "color_in_c" initial.color.c s.color.c
          d := d.left "color_in_d" initial.color.d s.color.d
          op := d.left "color_op" initial.color.op s.color.op
          bias := d.left "color_bias" initial.color.bias s.color.bias
          scale := d.left "color_scale" initial.color.scale s.color.scale
          clamp := d.left "color_clamp" initial.color.clamp s.color.clamp
          dest := d.left "color_reg_id" initial.color.dest s.color.dest }
      alpha :=
        { a := d.left "alpha_in_a" initial.alpha.a s.alpha.a
          b := d.left "alpha_in_b" initial.alpha.b s.alpha.b
          c := d.left "alpha_in_c" initial.alpha.c s.alpha.c
          d := d.left "alpha_in_d" initial.alpha.d s.alpha.d
          op := d.left "alpha_op" initial.alpha.op s.alpha.op
          bias := d.left "alpha_bias" initial.alpha.bias s.alpha.bias
          scale := d.left "alpha_scale" initial.alpha.scale s.alpha.scale
          clamp := d.left "alpha_clamp" initial.alpha.clamp s.alpha.clamp
          dest := d.left "alpha_reg_id" initial.alpha.dest s.alpha.dest }
      coord := d.left "tex_coord_id" initial.coord s.coord
      texture := d.left "tex_map" initial.texture s.texture
      channel := d.left "channel_id" initial.channel s.channel
      konstColor := d.left "konst_color_sel" initial.konstColor s.konstColor
      konstAlpha := d.left "konst_alpha_sel" initial.konstAlpha s.konstAlpha
      indirect :=
        { stage := d.left "ind_tex_stage" initial.indirect.stage s.indirect.stage
          format := d.left "ind_tex_format" initial.indirect.format s.indirect.format
          bias := d.left "ind_tex_bias_sel" initial.indirect.bias s.indirect.bias
          matrix := d.left "ind_tex_matrix" initial.indirect.matrix s.indirect.matrix
          wrapS := d.left "ind_tex_wrap_s" initial.indirect.wrapS s.indirect.wrapS
          wrapT := d.left "ind_tex_wrap_t" initial.indirect.wrapT s.indirect.wrapT
          addPrevious := d.left "ind_tex_add_prev" initial.indirect.addPrevious
            s.indirect.addPrevious } }
  finite _ := true

instance : Lenient CombinerStage where
  restore_nothing _ := rfl
  finite_restore _ _ h := h
  read?_without hd _ :=
    -- the fields of color, of alpha, of the inputs of both, and of the indirect look-up
    Rebuilds.read?_without hd (by decide)
      (.field <| .field <| .field <| .field <| .field <| .field <| .field <| .field <| .field <|
        .field <| .field <| .field <| .field <| .field <| .field <| .field <| .field <| .field <|
        .field <| .field <| .field <| .field <| .field <|
        .field <| .field <| .field <| .field <| .field <| .field <| .field .nil) rfl

instance : Restore IndirectStage where
  restore d s :=
    let initial : IndirectStage := {}
    { coord := d.left "tex_coord_id" initial.coord s.coord
      texture := d.left "tex_map" initial.texture s.texture
      scaleS := d.left "scale_s" initial.scaleS s.scaleS
      scaleT := d.left "scale_t" initial.scaleT s.scaleT }
  finite _ := true

instance : Lenient IndirectStage where
  restore_nothing _ := rfl
  finite_restore _ _ h := h
  read?_without hd _ :=
    Rebuilds.read?_without hd (by decide) (.field <| .field <| .field <| .field .nil) rfl

/-! ### Tests and blending -/

/-- The numbers of an alpha test. -/
def AlphaTest.numbers (t : AlphaTest) : List Float32 :=
  [t.referenceA, t.referenceB]

instance : Restore AlphaTest where
  restore d t :=
    let initial : AlphaTest := {}
    { logic := d.left "op" initial.logic t.logic
      compareA := d.left "compare_a" initial.compareA t.compareA
      referenceA := d.left "reference_a" initial.referenceA t.referenceA
      compareB := d.left "compare_b" initial.compareB t.compareB
      referenceB := d.left "reference_b" initial.referenceB t.referenceB }
  finite t := t.numbers.all Float32.isFinite

theorem AlphaTest.finite_eq (t : AlphaTest) :
    finite t = (finite t.referenceA && finite t.referenceB) := by
  simp [finite, AlphaTest.numbers]

instance : Lenient AlphaTest where
  restore_nothing _ := rfl
  finite_restore d t h := by
    rw [AlphaTest.finite_eq, Bool.and_eq_true] at h ⊢
    exact ⟨d.finite_left _ rfl h.1, d.finite_left _ rfl h.2⟩
  read?_without hd _ :=
    Rebuilds.read?_without hd (by decide) (.field <| .field <| .field <| .field <| .field .nil) rfl

instance : Restore Blend where
  restore d b :=
    let initial : Blend := {}
    { mode := d.left "mode" initial.mode b.mode
      source := d.left "src_factor" initial.source b.source
      destination := d.left "dst_factor" initial.destination b.destination
      logic := d.left "logic_op" initial.logic b.logic }
  finite _ := true

instance : Lenient Blend where
  restore_nothing _ := rfl
  finite_restore _ _ h := h
  read?_without hd _ :=
    Rebuilds.read?_without hd (by decide) (.field <| .field <| .field <| .field .nil) rfl

instance : Restore PixelOutput where
  restore d o :=
    let initial : PixelOutput := {}
    { blend := d.left "blend_mode" initial.blend o.blend
      depthTest := d.left "depth_test" initial.depthTest o.depthTest
      depthCompare := d.left "depth_func" initial.depthCompare o.depthCompare
      depthWrite := d.left "depth_write" initial.depthWrite o.depthWrite }
  finite _ := true

instance : Lenient PixelOutput where
  restore_nothing _ := rfl
  finite_restore _ _ h := h
  read?_without hd _ :=
    Rebuilds.read?_without hd (by decide) (.field <| .field <| .field <| .field .nil) rfl

/-! ### Materials -/

/-- The numbers of a material. -/
def Material.numbers (m : Material) : List Float32 :=
  m.alphaTest.numbers ++
    (m.registers.toList ++ m.konst.toList ++ m.materialColors.toList ++
      m.ambientColors.toList).flatMap Vector.toList

instance : Restore Material where
  restore d m :=
    let initial : Material := {}
    { name := d.left "name" initial.name m.name
      cull := d.left "cull_mode" initial.cull m.cull
      channels := d.left "light_channels" initial.channels m.channels
      texGens := d.left "tex_gens" initial.texGens m.texGens
      indirectStages := d.left "ind_tex_stages" initial.indirectStages m.indirectStages
      stages := d.left "tev_stages" initial.stages m.stages
      alphaTest := d.left "alpha_test" initial.alphaTest m.alphaTest
      registers := d.left "color_registers" initial.registers m.registers
      konst := d.left "konst_colors" initial.konst m.konst
      materialColors := d.left "color_mat_regs" initial.materialColors m.materialColors
      ambientColors := d.left "color_amb_regs" initial.ambientColors m.ambientColors
      output := d.left "rop" initial.output m.output }
  finite m := m.numbers.all Float32.isFinite

theorem Material.finite_eq (m : Material) :
    finite m = (finite m.alphaTest && (finite m.registers && (finite m.konst &&
      (finite m.materialColors && finite m.ambientColors)))) := by
  simp [finite, Material.numbers]

instance : Lenient Material where
  restore_nothing m := by
    simp only [restore, Deletion.left_nothing]
  finite_restore d m h := by
    rw [Material.finite_eq] at h ⊢
    simp only [Bool.and_eq_true] at h ⊢
    obtain ⟨hAlpha, hRegisters, hKonst, hMaterial, hAmbient⟩ := h
    exact ⟨d.finite_left _ rfl hAlpha, d.finite_left _ rfl hRegisters, d.finite_left _ rfl hKonst,
      d.finite_left _ rfl hMaterial, d.finite_left _ rfl hAmbient⟩
  read?_without hd _ := by
    apply Rebuilds.read?_without hd (by decide)
    · exact .field <| .field <| .field <| .field <| .field <| .field <|
        .field <| .field <| .field <| .field <| .field <| .field .nil
    -- none of the records that are rewritten here has any number
    · have hlist {α : Type} [Restore α] (h : ∀ a : α, finite a) (l : List α) :
          finite l = true :=
        List.all_eq_true.2 fun a _ => h a
      have houtput (o : PixelOutput) : finite o = true := rfl
      rw [Material.finite_eq, hlist fun _ => rfl, hlist fun _ => rfl, hlist fun _ => rfl,
        hlist fun _ => rfl, houtput, Bool.and_true, Bool.and_true]
      rfl

instance : Restore Omissions where
  restore d o :=
    let initial : Omissions := {}
    { textures := d.left "disable_textures" initial.textures o.textures
      vertexColors := d.left "disable_vertex_colors" initial.vertexColors o.vertexColors
      lighting := d.left "disable_lighting" initial.lighting o.lighting }
  finite _ := true

instance : Lenient Omissions where
  restore_nothing _ := rfl
  finite_restore _ _ h := h
  read?_without hd _ :=
    Rebuilds.read?_without hd (by decide) (.field <| .field <| .field .nil) rfl

end FixedFunction
