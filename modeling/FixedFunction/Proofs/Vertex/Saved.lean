import FixedFunction.Material.Codec
import FixedFunction.Proofs.Json.Required

/-!
# Saved vertex formats

A vertex format is saved with both of its tables.  A table has an entry for every attribute slot,
and the entries are found by their places, so that none of them can be missing.

**Results.**
* The instances of `Strict` for vertex formats and all their parts.
-/

namespace FixedFunction

open Json

theorem AttributeFormat.fills (f : AttributeFormat) : Fills f fields {} f :=
  .field (.field (.field .nil))

instance : Strict AttributeFormat where
  read?_write f := f.fills.read?_write (by decide)
  read?_without {_ f} h := f.fills.read?_without (by decide) h

theorem Descriptor.fills (p : Descriptor) : Fills p fields {} p :=
  .field .nil

instance : Strict Descriptor where
  read?_write p := p.fills.read?_write (by decide)
  read?_without {_ p} h := p.fills.read?_without (by decide) h

instance {α : Type} [Codec α] [Strict α] : Strict (PerAttribute α) where
  read?_write t := congrArg (Option.map PerAttribute.mk) (Strict.read?_write t.entries)
  read?_without {_ t} h := congrArg (Option.map PerAttribute.mk)
    (Strict.read?_without (a := t.entries) h)

theorem PerAttribute.ofDescriptors_describe (t : PerAttribute Presence) :
    t.describe.ofDescriptors = t := by
  rw [describe, ofDescriptors, Vector.map_map]
  exact congrArg PerAttribute.mk (Vector.map_id _)

theorem VertexFormat.fills (f : VertexFormat) : Fills f fields {} f := by
  have h : Fills f fields {} ⟨f.formats, f.presences.describe.ofDescriptors⟩ :=
    .field (.field .nil)
  rwa [PerAttribute.ofDescriptors_describe] at h

instance : Strict VertexFormat where
  read?_write f := f.fills.read?_write (by decide)
  read?_without {_ f} h := f.fills.read?_without (by decide) h

end FixedFunction
