import FixedFunction.Proofs.Vertex.Placement
import Mathlib.Order.Bounds.Defs

/-!
# The layout of a format

**Input.**  A vertex format that has a layout.

**Algorithm.**  Each present attribute in stream order is placed at the next multiple of its
component size, and noted in the set of attributes and in the two strides.

**Invariant.**  Each slot is the one that `Layout.place` gives for its attribute behind the slot
before it (`Layout.Chained`).

**Results.**
* `AttributeMask.has_ofList`: the set of a list has the attributes of the list.
* `Layout.placeAll_chained`: the slots of the present attributes form a chain.
* `Layout.laidOut_of_ofFormat`: what a layout is for its format.
-/

namespace FixedFunction

/-! ### Sets of attributes -/

namespace AttributeMask

theorem toBitVec_of (a : Attribute) :
    (of a).bits.toBitVec = BitVec.twoPow 32 (Coded.raw a).toNat := by
  cases a <;> rfl

theorem raw_lt (a : Attribute) : (Coded.raw a).toNat < 32 := by
  cases a <;> decide

/-- A slot is in a set if its bit is set. -/
theorem has_eq (s : AttributeMask) (a : Attribute) :
    s.has a = s.bits.toBitVec.getLsbD (Coded.raw a).toNat := by
  have hne : BitVec.twoPow 32 (Coded.raw a).toNat ≠ 0#32 := by
    intro h
    have hbit := congrArg (fun v => v.getLsbD (Coded.raw a).toNat) h
    simp [raw_lt a] at hbit
  rw [has, Bool.eq_iff_iff, beq_iff_eq, ← UInt32.toBitVec_inj, UInt32.toBitVec_and, toBitVec_of,
    BitVec.and_twoPow]
  split
  case isTrue h => simp [h]
  case isFalse h => simp [h, hne.symm]

@[simp]
theorem has_empty (a : Attribute) : empty.has a = false := by
  simp [has_eq, empty]

@[simp]
theorem has_union (s t : AttributeMask) (a : Attribute) :
    (s.union t).has a = (s.has a || t.has a) := by
  simp [has_eq, union]

@[simp]
theorem has_of (a b : Attribute) : (of a).has b = decide (a = b) := by
  rw [has_eq, toBitVec_of, BitVec.getLsbD_twoPow, decide_eq_true (raw_lt a), Bool.true_and]
  refine decide_eq_decide.mpr ⟨fun h => ?_, fun h => by rw [h]⟩
  have ha : Coded.ofRaw? (Coded.raw b) = some a :=
    Coded.ofRaw?_eq_some_iff.mpr (UInt8.toNat_inj.mp h)
  have hb : Coded.ofRaw? (Coded.raw b) = some b := Coded.ofRaw?_eq_some_iff.mpr rfl
  exact Option.some.inj (ha.symm.trans hb)

theorem has_ofList (l : List Attribute) (a : Attribute) : (ofList l).has a = true ↔ a ∈ l := by
  have hfold : ∀ s : AttributeMask, (l.foldl (fun s a => s.union (of a)) s).has a = true ↔
      s.has a = true ∨ a ∈ l := by
    induction l with
    | nil => simp
    | cons b l ih =>
      intro s
      rw [List.foldl_cons, ih, has_union, has_of, Bool.or_eq_true, decide_eq_true_eq,
        List.mem_cons, or_assoc, @eq_comm _ b a]
  rw [ofList, hfold, has_empty]
  simp

end AttributeMask

namespace Layout

/-! ### Chains of slots -/

theorem isLeast_alignUp (n k : Nat) :
    IsLeast {m | 1 <<< k ∣ m ∧ n ≤ m} (alignUp n (1 <<< k)) :=
  ⟨⟨dvd_alignUp n k, le_alignUp n k⟩, fun _ h => alignUp_le h.2 h.1⟩

/-- Each slot is the slot of its attribute behind the slots before it. -/
def Chained (f : VertexFormat) (start : Nat) : List Slot → Prop
  | [] => True
  | s :: slots => Placement f start s.attr s ∧ Chained f s.stop slots

theorem placeAll_chained {f : VertexFormat} {attrs : List Attribute} {start : Nat}
    {slots : List Slot} (h : placeAll f start attrs = .ok slots) :
    Chained f start slots ∧
      slots.map Slot.attr = attrs.filter fun a => f.presences.get a ≠ .absent := by
  induction attrs generalizing start slots with
  | nil =>
    obtain rfl := Except.ok.inj h
    exact ⟨trivial, rfl⟩
  | cons a attrs ih =>
    rcases placeAll_cons_eq_ok.mp h with ⟨ha, h⟩ | ⟨ha, s, hs, rest, hrest, rfl⟩
    · rw [List.filter_cons_of_neg (by simpa using ha)]
      exact ih h
    · have hplaced := placement_of_place hs
      obtain ⟨hchain, hrest⟩ := ih hrest
      rw [List.filter_cons_of_pos (by simpa using ha), List.map_cons, hplaced.attr_eq, hrest]
      exact ⟨⟨by rwa [hplaced.attr_eq], hchain⟩, rfl⟩

/-- A slot of a chain is placed behind the last slot before it. -/
theorem Chained.placement {f : VertexFormat} {start : Nat} {before after : List Slot} {s : Slot}
    (h : Chained f start (before ++ s :: after)) :
    Placement f ((before.getLast?.map Slot.stop).getD start) s.attr s := by
  induction before generalizing start with
  | nil => exact h.1
  | cons t before ih =>
    have hmid := ih h.2
    rw [List.getLast?_cons, Option.map_some, Option.getD_some]
    rwa [Option.getD_map] at hmid

theorem Chained.placement_of_mem {f : VertexFormat} {start : Nat} {slots : List Slot}
    (h : Chained f start slots) {s : Slot} (hs : s ∈ slots) :
    ∃ n, Placement f n s.attr s := by
  obtain ⟨before, after, rfl⟩ := List.append_of_mem hs
  exact ⟨_, h.placement⟩

/-! ### What a layout is -/

/-- What a layout is for its format. -/
structure LaidOut (f : VertexFormat) (l : Layout) : Prop where
  /-- The slots are those of the present attributes, in stream order. -/
  attrs_eq : l.slots.map Slot.attr =
    Attribute.streamOrder.filter fun a => f.presences.get a ≠ .absent
  /-- No attribute has two slots. -/
  nodup : (l.slots.map Slot.attr).Nodup
  /-- The set of attributes says what is present. -/
  has_iff : ∀ a, l.attributes.has a = true ↔ f.presences.get a ≠ .absent
  /-- Those attributes that are present have a slot. -/
  slot?_iff : ∀ a, (l.slot? a).isSome = true ↔ f.presences.get a ≠ .absent
  /-- A slot is present and stored as the format says. -/
  presence_eq : ∀ s, s ∈ l.slots → s.presence = f.presences.get s.attr
  component_eq : ∀ s, s ∈ l.slots → s.component = (f.formats.get s.attr).storedType s.attr
  size_eq : ∀ s, s ∈ l.slots → (f.formats.get s.attr).byteSize s.attr = .ok s.size
  /-- A slot starts at the least multiple of its component size behind the slot before it. -/
  offset_isLeast : ∀ before s after, l.slots = before ++ s :: after →
    IsLeast {n | s.component.size ∣ n ∧ lastStop before ≤ n} s.offset
  /-- Slots do not overlap. -/
  pairwise : l.slots.Pairwise fun s t => s.stop ≤ t.offset
  /-- A vertex takes the least number of words of 32 bits that its slots fit in. -/
  stride_isLeast : IsLeast {n | 4 ∣ n ∧ lastStop l.slots ≤ n} l.stride
  /-- In the stream a vertex takes the bytes of its values and indices. -/
  sourceStride_eq : l.sourceStride = sourceSize l.slots

theorem nodup_streamOrder : Attribute.streamOrder.Nodup := by
  decide

theorem mem_streamOrder (a : Attribute) : a ∈ Attribute.streamOrder :=
  List.mem_of_getElem? a.getElem_streamIndex

theorem isSome_slot?_iff (l : Layout) (a : Attribute) :
    (l.slot? a).isSome = true ↔ a ∈ l.slots.map Slot.attr := by
  simp [slot?, List.find?_isSome]

/-- What the layout of a format consists of, for every format that has one. -/
theorem laidOut_of_ofFormat {f : VertexFormat} {l : Layout} (h : ofFormat f = .ok l) :
    l.LaidOut f := by
  have hseparate := separate_of_ofFormat h
  obtain ⟨slots, hslots, rfl⟩ := ofFormat_eq_ok.mp h
  obtain ⟨hchain, hattrs⟩ := placeAll_chained hslots
  have hmem : ∀ a, a ∈ slots.map Slot.attr ↔ f.presences.get a ≠ .absent := by
    intro a
    rw [hattrs, List.mem_filter, decide_eq_true_eq]
    exact and_iff_right (mem_streamOrder a)
  exact {
    attrs_eq := hattrs
    nodup := by
      rw [show (ofSlots slots).slots = slots from rfl, hattrs]
      exact nodup_streamOrder.filter _
    has_iff := fun a => (AttributeMask.has_ofList _ a).trans (hmem a)
    slot?_iff := fun a => (isSome_slot?_iff _ a).trans (hmem a)
    presence_eq := by
      intro s hs
      obtain ⟨_, hplaced⟩ := hchain.placement_of_mem hs
      exact hplaced.presence_eq
    component_eq := by
      intro s hs
      obtain ⟨_, hplaced⟩ := hchain.placement_of_mem hs
      exact hplaced.component_eq
    size_eq := by
      intro s hs
      obtain ⟨_, hplaced⟩ := hchain.placement_of_mem hs
      exact hplaced.size_eq
    offset_isLeast := by
      rintro before s after rfl
      obtain ⟨k, hk⟩ := s.component.exists_size
      rw [hchain.placement.offset_eq, hk]
      exact isLeast_alignUp (lastStop before) k
    pairwise := hseparate.pairwise
    stride_isLeast := isLeast_alignUp _ 2
    sourceStride_eq := rfl }

/-- A matrix number, a position behind a gap of three bytes, and a color of three bytes. -/
theorem laidOut_padded :
    let f := VertexFormat.ofEntries [⟨.pnMtxIdx, .direct, {}⟩, ⟨.pos, .index16, { count := 1 }⟩,
      ⟨.clr0, .index8, { component := .rgba8 }⟩]
    let l := ofSlots [⟨.pnMtxIdx, .direct, .u8, 1, 0, 1, 0⟩, ⟨.pos, .index16, .f32, 3, 0, 12, 4⟩,
      ⟨.clr0, .index8, .rgba8, 3, 0, 3, 16⟩]
    ofFormat f = .ok l ∧ l.LaidOut f ∧ l.stride = 20 ∧ l.sourceStride = 4 :=
  ⟨rfl, laidOut_of_ofFormat rfl, rfl, rfl⟩

end Layout
end FixedFunction
