import FixedFunction.Material.Basic
import FixedFunction.Vertex.Format
import FixedFunction.Vertex.Mask
import FixedFunction.Json.Codec

/-!
# The JSON form of materials and vertex formats

Each record is given by the list of its fields.  In a material file every field may be left out
and then has its default; in a vertex format every field is required.
-/

namespace FixedFunction

open Json (Codec RecordField field writeRecord readRecord?)

/-- Fields of one half of a color channel. -/
def ChannelControl.fields : List (RecordField ChannelControl) :=
  [field "lighting_enabled" lit fun s v => { s with lit := v },
    field "mat_color_source" material fun s v => { s with material := v },
    field "amb_color_source" ambient fun s v => { s with ambient := v }]

instance : Codec ChannelControl where
  write := writeRecord ChannelControl.fields
  read? := readRecord? false ChannelControl.fields {}

/-- Fields of a color channel. -/
def LightChannel.fields : List (RecordField LightChannel) :=
  [field "color" color fun s v => { s with color := v },
    field "alpha" alpha fun s v => { s with alpha := v }]

instance : Codec LightChannel where
  write := writeRecord LightChannel.fields
  read? := readRecord? false LightChannel.fields {}

instance : Codec PostMatrix where
  write m := Codec.write m.row
  read? v := (Codec.read? v).map PostMatrix.mk

/-- Fields of a texture coordinate generator. -/
def TexGen.fields : List (RecordField TexGen) :=
  [field "gen_type" kind fun s v => { s with kind := v },
    field "source" source fun s v => { s with source := v },
    field "matrix" matrix fun s v => { s with matrix := v },
    field "normalize" normalize fun s v => { s with normalize := v },
    field "post_matrix" post fun s v => { s with post := v }]

instance : Codec TexGen where
  write := writeRecord TexGen.fields
  read? := readRecord? false TexGen.fields {}

/-- Fields of an indirect stage. -/
def IndirectStage.fields : List (RecordField IndirectStage) :=
  [field "tex_coord_id" coord fun s v => { s with coord := v },
    field "tex_map" texture fun s v => { s with texture := v },
    field "scale_s" scaleS fun s v => { s with scaleS := v },
    field "scale_t" scaleT fun s v => { s with scaleT := v }]

instance : Codec IndirectStage where
  write := writeRecord IndirectStage.fields
  read? := readRecord? false IndirectStage.fields {}

/-- Fields of a combiner stage. -/
def CombinerStage.fields : List (RecordField CombinerStage) :=
  [field "color_in_a" (·.color.a) fun s v => { s with color.a := v },
    field "color_in_b" (·.color.b) fun s v => { s with color.b := v },
    field "color_in_c" (·.color.c) fun s v => { s with color.c := v },
    field "color_in_d" (·.color.d) fun s v => { s with color.d := v },
    field "color_op" (·.color.op) fun s v => { s with color.op := v },
    field "color_bias" (·.color.bias) fun s v => { s with color.bias := v },
    field "color_scale" (·.color.scale) fun s v => { s with color.scale := v },
    field "color_clamp" (·.color.clamp) fun s v => { s with color.clamp := v },
    field "color_reg_id" (·.color.dest) fun s v => { s with color.dest := v },
    field "alpha_in_a" (·.alpha.a) fun s v => { s with alpha.a := v },
    field "alpha_in_b" (·.alpha.b) fun s v => { s with alpha.b := v },
    field "alpha_in_c" (·.alpha.c) fun s v => { s with alpha.c := v },
    field "alpha_in_d" (·.alpha.d) fun s v => { s with alpha.d := v },
    field "alpha_op" (·.alpha.op) fun s v => { s with alpha.op := v },
    field "alpha_bias" (·.alpha.bias) fun s v => { s with alpha.bias := v },
    field "alpha_scale" (·.alpha.scale) fun s v => { s with alpha.scale := v },
    field "alpha_clamp" (·.alpha.clamp) fun s v => { s with alpha.clamp := v },
    field "alpha_reg_id" (·.alpha.dest) fun s v => { s with alpha.dest := v },
    field "tex_coord_id" coord fun s v => { s with coord := v },
    field "tex_map" texture fun s v => { s with texture := v },
    field "channel_id" channel fun s v => { s with channel := v },
    field "konst_color_sel" konstColor fun s v => { s with konstColor := v },
    field "konst_alpha_sel" konstAlpha fun s v => { s with konstAlpha := v },
    field "ind_tex_stage" (·.indirect.stage) fun s v => { s with indirect.stage := v },
    field "ind_tex_format" (·.indirect.format) fun s v => { s with indirect.format := v },
    field "ind_tex_bias_sel" (·.indirect.bias) fun s v => { s with indirect.bias := v },
    field "ind_tex_matrix" (·.indirect.matrix) fun s v => { s with indirect.matrix := v },
    field "ind_tex_wrap_s" (·.indirect.wrapS) fun s v => { s with indirect.wrapS := v },
    field "ind_tex_wrap_t" (·.indirect.wrapT) fun s v => { s with indirect.wrapT := v },
    field "ind_tex_add_prev" (·.indirect.addPrevious) fun s v =>
      { s with indirect.addPrevious := v }]

instance : Codec CombinerStage where
  write := writeRecord CombinerStage.fields
  read? := readRecord? false CombinerStage.fields {}

/-- Fields of an alpha test. -/
def AlphaTest.fields : List (RecordField AlphaTest) :=
  [field "op" logic fun s v => { s with logic := v },
    field "compare_a" compareA fun s v => { s with compareA := v },
    field "reference_a" referenceA fun s v => { s with referenceA := v },
    field "compare_b" compareB fun s v => { s with compareB := v },
    field "reference_b" referenceB fun s v => { s with referenceB := v }]

instance : Codec AlphaTest where
  write := writeRecord AlphaTest.fields
  read? := readRecord? false AlphaTest.fields {}

/-- Fields of a blend setting. -/
def Blend.fields : List (RecordField Blend) :=
  [field "mode" mode fun s v => { s with mode := v },
    field "src_factor" source fun s v => { s with source := v },
    field "dst_factor" destination fun s v => { s with destination := v },
    field "logic_op" logic fun s v => { s with logic := v }]

instance : Codec Blend where
  write := writeRecord Blend.fields
  read? := readRecord? false Blend.fields {}

/-- Fields of the output of fragments. -/
def PixelOutput.fields : List (RecordField PixelOutput) :=
  [field "blend_mode" blend fun s v => { s with blend := v },
    field "depth_test" depthTest fun s v => { s with depthTest := v },
    field "depth_func" depthCompare fun s v => { s with depthCompare := v },
    field "depth_write" depthWrite fun s v => { s with depthWrite := v }]

instance : Codec PixelOutput where
  write := writeRecord PixelOutput.fields
  read? := readRecord? false PixelOutput.fields {}

/-- Fields of a material. -/
def Material.fields : List (RecordField Material) :=
  [field "name" name fun s v => { s with name := v },
    field "cull_mode" cull fun s v => { s with cull := v },
    field "light_channels" channels fun s v => { s with channels := v },
    field "tex_gens" texGens fun s v => { s with texGens := v },
    field "ind_tex_stages" indirectStages fun s v => { s with indirectStages := v },
    field "tev_stages" stages fun s v => { s with stages := v },
    field "alpha_test" alphaTest fun s v => { s with alphaTest := v },
    field "color_registers" registers fun s v => { s with registers := v },
    field "konst_colors" konst fun s v => { s with konst := v },
    field "color_mat_regs" materialColors fun s v => { s with materialColors := v },
    field "color_amb_regs" ambientColors fun s v => { s with ambientColors := v },
    field "rop" output fun s v => { s with output := v }]

instance : Codec Material where
  write := writeRecord Material.fields
  read? := readRecord? false Material.fields {}

/-- Fields of the omissions. -/
def Omissions.fields : List (RecordField Omissions) :=
  [field "disable_textures" textures fun s v => { s with textures := v },
    field "disable_vertex_colors" vertexColors fun s v => { s with vertexColors := v },
    field "disable_lighting" lighting fun s v => { s with lighting := v }]

instance : Codec Omissions where
  write := writeRecord Omissions.fields
  read? := readRecord? false Omissions.fields {}

/-- Fields of the storage of an attribute. -/
def AttributeFormat.fields : List (RecordField AttributeFormat) :=
  [field "comp_type" component fun s v => { s with component := v },
    field "comp_cnt" count fun s v => { s with count := v },
    field "comp_shift" shift fun s v => { s with shift := v }]

instance : Codec AttributeFormat where
  write := writeRecord AttributeFormat.fields
  read? := readRecord? true AttributeFormat.fields {}

instance {α : Type} [Codec α] : Codec (PerAttribute α) where
  write t := Codec.write t.entries
  read? v := (Codec.read? v).map PerAttribute.mk

/-- The presence of an attribute is a record with one field. -/
structure Descriptor where
  presence : Presence := default

/-- Fields of a descriptor. -/
def Descriptor.fields : List (RecordField Descriptor) :=
  [field "attr_type" presence fun s v => { s with presence := v }]

instance : Codec Descriptor where
  write := writeRecord Descriptor.fields
  read? := readRecord? true Descriptor.fields {}

namespace PerAttribute

/-- Presences as descriptors. -/
def describe (t : PerAttribute Presence) : PerAttribute Descriptor :=
  ⟨t.entries.map Descriptor.mk⟩

/-- Descriptors as presences. -/
def ofDescriptors (t : PerAttribute Descriptor) : PerAttribute Presence :=
  ⟨t.entries.map Descriptor.presence⟩

end PerAttribute

/-- Fields of a vertex format. -/
def VertexFormat.fields : List (RecordField VertexFormat) :=
  [field "formats" formats fun s v => { s with formats := v },
    field "descriptors" (·.presences.describe) fun s v => { s with presences := v.ofDescriptors }]

instance : Codec VertexFormat where
  write := writeRecord VertexFormat.fields
  read? := readRecord? true VertexFormat.fields {}

/-- Fields of a set of attributes. -/
def AttributeMask.fields : List (RecordField AttributeMask) :=
  [field "bits" bits fun s v => { s with bits := v }]

instance : Codec AttributeMask where
  write := writeRecord AttributeMask.fields
  read? := readRecord? true AttributeMask.fields .empty

end FixedFunction
