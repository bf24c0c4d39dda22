import FixedFunction.Proofs.Material.Saved
import FixedFunction.Proofs.Vertex.Saved

/-!
# What is read from saved values

**Input.**  A material, the options of a material or a vertex format that was written, and a
deletion of some of its parts.

**Results.**
* `Json.read?_of_write`: what is read.
-/

namespace FixedFunction
namespace Json

/-- Materials with finite numbers, the options of materials and vertex formats are read as they were
written.  Where a material lost fields, the defaults of their records are read instead, as long as
all numbers that are left are finite.  A vertex format that lost anything is not read. -/
theorem read?_of_write :
    (∀ f : VertexFormat, read? (Codec.write f) = some f) ∧
    (∀ o : Omissions, read? (Codec.write o) = some o) ∧
    (∀ m : Material, (∀ x ∈ m.numbers, x.isFinite) →
      read? (Codec.write m) = some m ∧
      ∀ d : Deletion, d.FieldsOnly → read? ((Codec.write m).without d) = some (restore d m)) ∧
    (∀ (m : Material) (d : Deletion), d.FieldsOnly →
      (read? ((Codec.write m).without d) = some (restore d m) ↔
        ∀ x ∈ (restore d m).numbers, x.isFinite)) ∧
    (∀ x : Float32, read? (Codec.write x) = some x ↔ x.isFinite) ∧
    (∀ (f : VertexFormat) (d : Deletion), d.Meets (Codec.write f) →
      (read? ((Codec.write f).without d) : Option VertexFormat) = none) := by
  have hfinite (m : Material) : finite m = true ↔ ∀ x ∈ m.numbers, x.isFinite :=
    List.all_eq_true
  refine ⟨Strict.read?_write, fun o => Lenient.read?_write rfl, fun m hm => ⟨?_, fun d hd => ?_⟩,
    fun m d hd => ?_, fun _ => read?_write_iff_isFinite, fun f d hd => Strict.read?_without hd⟩
  · exact Lenient.read?_write ((hfinite m).2 hm)
  · rw [Lenient.read?_without hd, if_pos (Lenient.finite_restore d ((hfinite m).2 hm))]
  · rw [Lenient.read?_without hd, ← hfinite]
    simp

namespace Sample

/-- A material with two channels, one stage that does not clamp its color, and a test. -/
def tested : Material where
  name := "tested"
  channels := [{}, { color := { lit := true, material := .vertex } }]
  stages := [{ CombinerStage.modulate 0 0 .color0A0 with color.clamp := false }]
  alphaTest := { compareA := .less, referenceA := 0.25 }
  konst := .replicate 4 (.replicate 4 1)
  output := { depthTest := false }

/-- Fields at several depths, one of which holds a record. -/
def scattered : Deletion :=
  .of [[.field "name"],
    [.field "light_channels", .element 1, .field "color", .field "mat_color_source"],
    [.field "tev_stages", .element 0, .field "color_clamp"],
    [.field "tev_stages", .element 0, .field "tex_map"],
    [.field "alpha_test", .field "compare_a"],
    [.field "konst_colors"],
    [.field "rop"]]

/-- The entry of one slot in the table of presences. -/
def entry : Deletion :=
  .of [[.field "descriptors", .element 9]]

end Sample

open Json.Sample in
/-- The material is read as it was written, and with defaults at several depths.  A vertex format
without an entry is not read. -/
theorem read?_of_write_scattered :
    (∀ x ∈ tested.numbers, x.isFinite) ∧ scattered.FieldsOnly ∧
    read? (Codec.write tested) = some tested ∧
    read? ((Codec.write tested).without scattered) = some
      { tested with
        name := ""
        channels := [{}, { color := { lit := true } }]
        stages := [{ CombinerStage.modulate 0 0 .color0A0 with texture := none }]
        alphaTest := { referenceA := 0.25 }
        konst := .replicate 4 (.replicate 4 0)
        output := {} } ∧
    entry.Meets (Codec.write (default : VertexFormat)) ∧
    (read? ((Codec.write (default : VertexFormat)).without entry) : Option VertexFormat) = none := by
  obtain ⟨-, -, hmaterial, -, -, hformat⟩ := read?_of_write
  have hfinite : ∀ x ∈ tested.numbers, x.isFinite := by decide +kernel
  have hfields : scattered.FieldsOnly := .of (by simp)
  have hmeets : entry.Meets (Codec.write (default : VertexFormat)) :=
    ⟨[.field "descriptors", .element 9], List.cons_ne_nil _ _, rfl, by decide +kernel⟩
  obtain ⟨hread, hleft⟩ := hmaterial tested hfinite
  exact ⟨hfinite, hfields, hread, hleft scattered hfields, hmeets, hformat _ _ hmeets⟩

end Json
end FixedFunction
