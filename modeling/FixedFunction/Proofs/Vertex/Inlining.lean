import FixedFunction.Proofs.Vertex.Placement

/-!
# Formats without indices

An indexed attribute takes the same place in a packed vertex as a direct one.  So a format keeps
its packed layout when all its attributes are made direct, and only the bytes of a vertex in the
stream become others.

**Results.**
* `VertexFormat.inlined`: the format with direct attributes in place of indexed ones.
* `Layout.ofFormat_inlined`: it has the same layout, up to the presence of the slots, and it is
  refused with the same cause.
-/

namespace FixedFunction

/-- A presence, with a direct value in place of an index. -/
def Presence.inlined : Presence → Presence
  | .absent => .absent
  | .direct | .index8 | .index16 => .direct

theorem Presence.inlined_eq_absent_iff {p : Presence} : p.inlined = .absent ↔ p = .absent := by
  cases p <;> simp [inlined]

theorem Presence.inlined_of_present {p : Presence} (h : p ≠ .absent) : p.inlined = .direct := by
  cases p with
  | absent => contradiction
  | direct | index8 | index16 => rfl

/-- The format with direct attributes in place of indexed ones. -/
def VertexFormat.inlined (f : VertexFormat) : VertexFormat :=
  { f with presences := ⟨f.presences.entries.map Presence.inlined⟩ }

@[simp]
theorem VertexFormat.get_presences_inlined (f : VertexFormat) (a : Attribute) :
    f.inlined.presences.get a = (f.presences.get a).inlined := by
  simp [inlined, PerAttribute.get]

/-- The slot of an attribute that was made direct. -/
def Slot.inlined (s : Slot) : Slot :=
  { s with presence := s.presence.inlined }

namespace Layout

/-- The layout with direct slots in place of indexed ones. -/
def inlined (l : Layout) : Layout :=
  { l with
    slots := l.slots.map Slot.inlined
    sourceStride := sourceSize (l.slots.map Slot.inlined) }

theorem place_inlined (f : VertexFormat) (start : Nat) (a : Attribute) :
    place f.inlined start a = (place f start a).map Slot.inlined := by
  simp only [place, VertexFormat.get_presences_inlined]
  rw [show f.inlined.formats = f.formats from rfl]
  cases (f.formats.get a).components a <;> rfl

theorem placeAll_inlined (f : VertexFormat) (attrs : List Attribute) (start : Nat) :
    placeAll f.inlined start attrs = (placeAll f start attrs).map fun l => l.map Slot.inlined := by
  induction attrs generalizing start with
  | nil => rfl
  | cons a attrs ih =>
    rw [placeAll, placeAll]
    simp only [VertexFormat.get_presences_inlined, Presence.inlined_eq_absent_iff, place_inlined]
    split
    · exact ih start
    · cases place f start a with
      | error e => rfl
      | ok s =>
        have hrest := ih s.stop
        simp only [Except.map, ok_bind] at hrest ⊢
        rw [show s.inlined.stop = s.stop from rfl, hrest]
        cases placeAll f s.stop attrs <;> rfl

theorem ofSlots_inlined (slots : List Slot) :
    ofSlots (slots.map Slot.inlined) = (ofSlots slots).inlined := by
  have hattr : Slot.attr ∘ Slot.inlined = Slot.attr := rfl
  have hstop : Slot.stop ∘ Slot.inlined = Slot.stop := rfl
  simp [ofSlots, lastStop, inlined, hattr, hstop]

/-- The layout of a format whose attributes are made direct. -/
theorem ofFormat_inlined (f : VertexFormat) :
    ofFormat f.inlined = (ofFormat f).map inlined := by
  rw [ofFormat_eq, ofFormat_eq, placeAll_inlined]
  cases placeAll f 0 Attribute.streamOrder with
  | error e => rfl
  | ok slots => exact congrArg Except.ok (ofSlots_inlined slots)

end Layout
end FixedFunction
