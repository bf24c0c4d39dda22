import FixedFunction.Proofs.Failure
import FixedFunction.Vertex.Layout

/-!
# The slots of a layout do not overlap

A draft says nothing that its slots do not say, so a layout is the list of its slots, each placed
behind the one before.

**Results.**
* `ofFormat_eq`: the layout of a format from the list of its slots.
* `placeAll_placed`: each slot that is placed starts behind the slots before it.
* `Layout.Separate`: what a layout promises to those who write and read packed vertices.
* `separate_of_ofFormat`: the layout of every format promises it.
-/

namespace FixedFunction

theorem ComponentType.exists_size (t : ComponentType) : ∃ k, t.size = 1 <<< k := by
  cases t with
  | u8 | s8 | rgba8 => exact ⟨0, rfl⟩
  | u16 | s16 => exact ⟨1, rfl⟩
  | f32 => exact ⟨2, rfl⟩

theorem le_alignUp_size (n : Nat) (t : ComponentType) : n ≤ alignUp n t.size := by
  obtain ⟨k, hk⟩ := t.exists_size
  rw [hk]
  exact le_alignUp n k

namespace Layout

/-- Places the present attributes among the given ones, the first not before `start`. -/
def placeAll (f : VertexFormat) (start : Nat) : List Attribute → Except Error (List Slot)
  | [] => .ok []
  | a :: rest =>
    if f.presences.get a = .absent then placeAll f start rest
    else do
      let s ← place f start a
      return s :: (← placeAll f s.stop rest)

/-- Bytes of the given slots in the stream of one vertex. -/
def sourceSize (slots : List Slot) : Nat :=
  slots.foldr (fun s n => s.streamSize + n) 0

/-- The end of the last of the given slots in a packed vertex. -/
def lastStop (slots : List Slot) : Nat :=
  (slots.getLast?.map Slot.stop).getD 0

/-- The layout with the given slots. -/
def ofSlots (slots : List Slot) : Layout where
  slots := slots
  attributes := .ofList (slots.map Slot.attr)
  stride := alignUp (lastStop slots) 4
  sourceStride := sourceSize slots

@[simp]
theorem sourceSize_nil : sourceSize [] = 0 := rfl

@[simp]
theorem sourceSize_cons (s : Slot) (slots : List Slot) :
    sourceSize (s :: slots) = s.streamSize + sourceSize slots := rfl

@[simp]
theorem sourceSize_append (slots rest : List Slot) :
    sourceSize (slots ++ rest) = sourceSize slots + sourceSize rest := by
  induction slots with
  | nil => simp
  | cons s slots ih => simp [ih, Nat.add_assoc]

@[simp]
theorem lastStop_nil : lastStop [] = 0 := rfl

@[simp]
theorem lastStop_concat (slots : List Slot) (s : Slot) : lastStop (slots ++ [s]) = s.stop := by
  simp [lastStop]

/-- The draft with the given slots. -/
def Draft.ofSlots (slots : List Slot) : Draft where
  slots := slots
  attributes := .ofList (slots.map Slot.attr)
  stop := lastStop slots
  sourceStride := sourceSize slots

theorem Draft.push_ofSlots (slots : List Slot) (s : Slot) :
    (Draft.ofSlots slots).push s = Draft.ofSlots (slots ++ [s]) := by
  simp [push, Draft.ofSlots, AttributeMask.ofList]

/-- A draft says nothing that its slots do not say, and attributes are placed behind the last of
these. -/
theorem foldlM_add (f : VertexFormat) (attrs : List Attribute) (slots : List Slot) :
    attrs.foldlM (Draft.add f) (Draft.ofSlots slots) =
      (placeAll f (lastStop slots) attrs).map fun rest => Draft.ofSlots (slots ++ rest) := by
  induction attrs generalizing slots with
  | nil => simp [placeAll, Except.map, pure, Except.pure]
  | cons a attrs ih =>
    rw [List.foldlM_cons, placeAll, Draft.add]
    by_cases ha : f.presences.get a = .absent
    · rw [if_pos ha, if_pos ha, ok_bind, ih]
    · rw [if_neg ha, if_neg ha, show (Draft.ofSlots slots).stop = lastStop slots from rfl]
      cases place f (lastStop slots) a with
      | error e => rfl
      | ok s =>
        simp only [Except.map, ok_bind, Draft.push_ofSlots, ih, lastStop_concat]
        cases placeAll f s.stop attrs <;> simp [pure, Except.pure]

theorem ofFormat_eq (f : VertexFormat) :
    ofFormat f = (placeAll f 0 Attribute.streamOrder).map ofSlots := by
  have h := foldlM_add f Attribute.streamOrder []
  rw [show Draft.ofSlots [] = {} from rfl, lastStop_nil] at h
  rw [ofFormat, h]
  cases placeAll f 0 Attribute.streamOrder <;> rfl

/-- What the layout of a format is made of. -/
theorem ofFormat_eq_ok {f : VertexFormat} {l : Layout} :
    ofFormat f = .ok l ↔
      ∃ slots, placeAll f 0 Attribute.streamOrder = .ok slots ∧ ofSlots slots = l := by
  rw [ofFormat_eq, map_eq_ok]

/-- A slot is what the format says of its attribute, at the next multiple of its component size. -/
structure Placement (f : VertexFormat) (start : Nat) (a : Attribute) (s : Slot) : Prop where
  attr_eq : s.attr = a
  presence_eq : s.presence = f.presences.get a
  component_eq : s.component = (f.formats.get a).storedType a
  size_eq : (f.formats.get a).byteSize a = .ok s.size
  offset_eq : s.offset = alignUp start s.component.size

theorem placement_of_place {f : VertexFormat} {start : Nat} {a : Attribute} {s : Slot}
    (h : place f start a = .ok s) : Placement f start a s := by
  obtain ⟨n, hn, h⟩ := bind_eq_ok.mp h
  simp only [pure, Except.pure, Except.ok.injEq] at h
  subst h
  exact {
    attr_eq := rfl
    presence_eq := rfl
    component_eq := rfl
    size_eq := by rw [AttributeFormat.byteSize, hn]; rfl
    offset_eq := rfl }

/-- An absent attribute is passed over, and a present one has a slot in front of the others. -/
theorem placeAll_cons_eq_ok {f : VertexFormat} {start : Nat} {a : Attribute}
    {attrs : List Attribute} {slots : List Slot} :
    placeAll f start (a :: attrs) = .ok slots ↔
      f.presences.get a = .absent ∧ placeAll f start attrs = .ok slots ∨
      f.presences.get a ≠ .absent ∧ ∃ s, place f start a = .ok s ∧
        ∃ rest, placeAll f s.stop attrs = .ok rest ∧ slots = s :: rest := by
  rw [placeAll]
  split
  case isTrue ha => simp [ha]
  case isFalse ha =>
    rw [bind_eq_ok]
    simp only [ha, false_and, false_or, ne_eq, not_false_eq_true, true_and]
    refine exists_congr fun s => and_congr_right fun _ => ?_
    rw [bind_eq_ok]
    simp only [pure, Except.pure, Except.ok.injEq, eq_comm]

/-- The slots are present, and each starts behind those before it, the first not before
`start`. -/
def Placed (start : Nat) : List Slot → Prop
  | [] => True
  | s :: slots => start ≤ s.offset ∧ s.presence ≠ .absent ∧ Placed s.stop slots

theorem placeAll_placed (f : VertexFormat) (attrs : List Attribute) {start : Nat}
    {slots : List Slot} (h : placeAll f start attrs = .ok slots) : Placed start slots := by
  induction attrs generalizing start slots with
  | nil =>
    obtain rfl := Except.ok.inj h
    trivial
  | cons a attrs ih =>
    rcases placeAll_cons_eq_ok.mp h with ⟨_, h⟩ | ⟨ha, s, hs, rest, hrest, rfl⟩
    · exact ih h
    · have hplaced := placement_of_place hs
      refine ⟨?_, ?_, ih hrest⟩
      · rw [hplaced.offset_eq]
        exact le_alignUp_size start _
      · rwa [hplaced.presence_eq]

theorem Placed.start_le {start : Nat} {slots : List Slot} (h : Placed start slots) :
    ∀ s, s ∈ slots → start ≤ s.offset := by
  induction slots generalizing start with
  | nil => simp
  | cons t slots ih =>
    intro s hs
    have ht := h.1
    rcases List.mem_cons.mp hs with rfl | hs
    · exact ht
    · have := ih h.2.2 s hs
      rw [Slot.stop] at this
      omega

theorem Placed.pairwise {start : Nat} {slots : List Slot} (h : Placed start slots) :
    slots.Pairwise fun s t => s.stop ≤ t.offset := by
  induction slots generalizing start with
  | nil => exact List.Pairwise.nil
  | cons t slots ih => exact List.pairwise_cons.mpr ⟨h.2.2.start_le, ih h.2.2⟩

theorem Placed.presence_ne {start : Nat} {slots : List Slot} (h : Placed start slots) :
    ∀ s, s ∈ slots → s.presence ≠ .absent := by
  induction slots generalizing start with
  | nil => simp
  | cons t slots ih =>
    intro s hs
    rcases List.mem_cons.mp hs with rfl | hs
    · exact h.2.1
    · exact ih h.2.2 s hs

theorem stop_le_getLast {slots : List Slot} (h : slots.Pairwise fun s t => s.stop ≤ t.offset) :
    ∀ s, s ∈ slots → s.stop ≤ lastStop slots := by
  intro s hs
  obtain ⟨init, last, rfl⟩ :=
    (List.eq_nil_or_concat slots).resolve_left (List.ne_nil_of_mem hs)
  rw [List.concat_eq_append] at *
  rw [lastStop_concat]
  rcases List.mem_append.mp hs with hs | hs
  · have := (List.pairwise_append.mp h).2.2 s hs last (List.mem_singleton_self last)
    simp only [Slot.stop] at *
    omega
  · obtain rfl := List.mem_singleton.mp hs
    exact Nat.le_refl _

/-- The slots are present and do not overlap, they end inside the packed vertex, and the bytes of
a vertex in the stream are those of its slots. -/
structure Separate (l : Layout) : Prop where
  presence_ne : ∀ s, s ∈ l.slots → s.presence ≠ .absent
  pairwise : l.slots.Pairwise fun s t => s.stop ≤ t.offset
  stop_le : ∀ s, s ∈ l.slots → s.stop ≤ l.stride
  sourceStride_eq : l.sourceStride = sourceSize l.slots

/-- The layout of every format keeps its slots apart. -/
theorem separate_of_ofFormat {f : VertexFormat} {l : Layout} (h : ofFormat f = .ok l) :
    l.Separate := by
  obtain ⟨slots, hslots, rfl⟩ := ofFormat_eq_ok.mp h
  have hplaced := placeAll_placed f _ hslots
  exact {
    presence_ne := hplaced.presence_ne
    pairwise := hplaced.pairwise
    stop_le := fun s hs =>
      Nat.le_trans (stop_le_getLast hplaced.pairwise s hs) (le_alignUp _ 2)
    sourceStride_eq := rfl }

end Layout
end FixedFunction
