import FixedFunction.Proofs.Demand
import FixedFunction.Proofs.Vertex.LaidOut
import Mathlib.Data.List.Induction

/-!
# What a layout depends on

A format is described line by line, and of the lines for one attribute only the last counts.  Of the
format, only what it says of present attributes counts, and for a matrix number neither the
component type nor the count.

**Invariant.**  A table holds for every attribute what the last line so far says of it.

**Results.**
* `VertexFormat.lastLine?`: the last line for an attribute.
* `VertexFormat.get_ofEntries`: what a format says of an attribute.
* `Layout.answers_ofFormat`: what is demanded of a format that has a layout.
* `Layout.ofFormat_congr`: formats that make no difference have the same layout.
* `VertexFormat.layout_of_lines`: formats by their last lines, layouts and refusals by the present
  attributes.
-/

namespace FixedFunction

theorem streamIndex_surjective : Function.Surjective Attribute.streamIndex := by
  intro i
  refine ⟨Attribute.streamOrder[i], ?_⟩
  revert i
  decide

/-- A table is determined by its entries. -/
theorem PerAttribute.ext_get {α : Type} {t u : PerAttribute α} (h : ∀ a, t.get a = u.get a) :
    t = u := by
  obtain ⟨t⟩ := t
  obtain ⟨u⟩ := u
  refine congrArg _ (Vector.ext fun i hi => ?_)
  obtain ⟨a, ha⟩ := streamIndex_surjective ⟨i, hi⟩
  simpa only [get, ha, Fin.getElem_fin] using h a

/-- The counts that mean something for an attribute.  A matrix number has no count, and the combined
normal is refused for a single one. -/
def Attribute.Supports (a : Attribute) (n : UInt8) : Prop :=
  a.isMatrixIndex ∨ if a = .nbt then n ≠ 2 else n = 0 ∨ n = 1

instance (a : Attribute) (n : UInt8) : Decidable (a.Supports n) :=
  inferInstanceAs (Decidable (_ ∨ _))

namespace AttributeFormat

/-- Two ways to store an attribute that make no difference: a matrix number is one byte, whatever
its component type and its count are said to be. -/
def Alike (a : Attribute) (f g : AttributeFormat) : Prop :=
  f.shift = g.shift ∧ (¬ a.isMatrixIndex → f.component = g.component ∧ f.count = g.count)

theorem components_of_isMatrixIndex {a : Attribute} (h : a.isMatrixIndex) (f : AttributeFormat) :
    f.components a = .ok 1 := by
  cases a with
  | pnMtxIdx | tex0MtxIdx | tex1MtxIdx | tex2MtxIdx | tex3MtxIdx | tex4MtxIdx | tex5MtxIdx
  | tex6MtxIdx | tex7MtxIdx => rfl
  | _ => exact absurd h (by decide)

/-- An attribute is refused exactly for a count that means nothing for it. -/
theorem answers_components (f : AttributeFormat) (a : Attribute) :
    Answers (f.components a) [⟨a.Supports f.count, .unsupportedCount a f.count⟩] := by
  by_cases hm : a.isMatrixIndex
  · exact .single (fun _ => ⟨1, components_of_isMatrixIndex hm f⟩) fun h =>
      absurd (.inl hm) (of_decide_eq_false h)
  obtain ⟨component, n, shift⟩ := f
  by_cases h0 : n = 0
  · subst h0
    cases a <;> exact ⟨_, rfl⟩
  by_cases h1 : n = 1
  · subst h1
    cases a <;> exact ⟨_, rfl⟩
  cases a with
  | nbt =>
    by_cases h2 : n = 2
    · subst h2
      rfl
    · have hmet : Attribute.nbt.Supports n := .inr h2
      exact .single (fun _ => ⟨9, by simp [components]⟩) fun h => absurd hmet (of_decide_eq_false h)
  | _ =>
    refine .single (fun h => ?_) fun _ => by simp [components, hm, h0, h1]
    rcases of_decide_eq_true h with h | h | h
    · exact absurd h hm
    · exact absurd h h0
    · exact absurd h h1

theorem eq_of_alike {a : Attribute} {f g : AttributeFormat} (h : Alike a f g)
    (hm : ¬ a.isMatrixIndex) : f = g := by
  obtain ⟨component, n, shift⟩ := f
  obtain ⟨component', n', shift'⟩ := g
  obtain ⟨rfl, hrest⟩ : shift = shift' ∧ _ := h
  obtain ⟨rfl, rfl⟩ : component = component' ∧ n = n' := hrest hm
  rfl

theorem storedType_of_alike {a : Attribute} {f g : AttributeFormat} (h : Alike a f g) :
    f.storedType a = g.storedType a := by
  by_cases hm : a.isMatrixIndex
  · rw [storedType, storedType, if_pos hm, if_pos hm]
  · rw [eq_of_alike h hm]

theorem components_of_alike {a : Attribute} {f g : AttributeFormat} (h : Alike a f g) :
    f.components a = g.components a := by
  by_cases hm : a.isMatrixIndex
  · rw [components_of_isMatrixIndex hm, components_of_isMatrixIndex hm]
  · rw [eq_of_alike h hm]

end AttributeFormat

/-! ### Formats from lines -/

namespace VertexFormat

/-- The last line for an attribute. -/
def lastLine? (lines : List FormatEntry) (a : Attribute) : Option FormatEntry :=
  (lines.filter fun e => e.attr = a).getLast?

theorem lastLine?_concat (lines : List FormatEntry) (e : FormatEntry) (a : Attribute) :
    lastLine? (lines ++ [e]) a = if e.attr = a then some e else lastLine? lines a := by
  rw [lastLine?, List.filter_append]
  split
  case isTrue h => simp [h]
  case isFalse h => simp [h, lastLine?]

/-- Of two lines for an attribute the later counts, and an attribute without a line is absent. -/
theorem get_ofEntries (lines : List FormatEntry) (a : Attribute) :
    (ofEntries lines).presences.get a =
        ((lastLine? lines a).map FormatEntry.presence).getD .absent ∧
      (ofEntries lines).formats.get a = ((lastLine? lines a).map FormatEntry.format).getD {} := by
  -- From the end, as each line is stored over those before it.
  induction lines using List.reverseRecOn with
  | nil => exact ⟨PerAttribute.get_replicate _ a, PerAttribute.get_replicate _ a⟩
  | append_singleton lines e ih =>
    have hstore : ofEntries (lines ++ [e]) = (ofEntries lines).store e := List.foldl_append
    rw [hstore, lastLine?_concat]
    split
    case isTrue h =>
      subst h
      exact ⟨PerAttribute.get_set_self _ _ _, PerAttribute.get_set_self _ _ _⟩
    case isFalse h =>
      rw [← ih.1, ← ih.2]
      exact ⟨PerAttribute.get_set_of_ne _ _ h, PerAttribute.get_set_of_ne _ _ h⟩

theorem ext_get {f g : VertexFormat} (hp : ∀ a, f.presences.get a = g.presences.get a)
    (hf : ∀ a, f.formats.get a = g.formats.get a) : f = g := by
  obtain ⟨formats, presences⟩ := f
  obtain ⟨formats', presences'⟩ := g
  exact congrArg₂ VertexFormat.mk (PerAttribute.ext_get hf) (PerAttribute.ext_get hp)

/-- Lines with the same last line for every attribute describe the same format. -/
theorem ofEntries_congr {lines lines' : List FormatEntry}
    (h : ∀ a, lastLine? lines a = lastLine? lines' a) : ofEntries lines = ofEntries lines' :=
  ext_get (fun a => by rw [(get_ofEntries lines a).1, (get_ofEntries lines' a).1, h])
    fun a => by rw [(get_ofEntries lines a).2, (get_ofEntries lines' a).2, h]

/-- An attribute is present with a count that means nothing for it. -/
def Offends (f : VertexFormat) (a : Attribute) : Prop :=
  f.presences.get a ≠ .absent ∧ ¬ a.Supports (f.formats.get a).count

instance (f : VertexFormat) (a : Attribute) : Decidable (f.Offends a) :=
  inferInstanceAs (Decidable (_ ∧ _))

/-- What is demanded of an attribute. -/
def demand (f : VertexFormat) (a : Attribute) : Demand :=
  ⟨¬ f.Offends a, .unsupportedCount a (f.formats.get a).count⟩

/-- The first demand that is not met is that of the first attribute that offends. -/
theorem firstUnmet_demand_eq_some_iff {f : VertexFormat} {attrs : List Attribute} {d : Demand} :
    firstUnmet (attrs.map f.demand) = some d ↔ ∃ before a after,
      attrs = before ++ a :: after ∧ (∀ b ∈ before, ¬ f.Offends b) ∧ f.Offends a ∧
        d = f.demand a := by
  have hmet : ∀ a, (!(f.demand a).met) = true ↔ f.Offends a := by simp [demand]
  have hmet' : ∀ a, (!(!(f.demand a).met)) = true ↔ ¬ f.Offends a := by simp [demand]
  simp only [firstUnmet, List.find?_map, Option.map_eq_some_iff, List.find?_eq_some_iff_append,
    Function.comp_apply, hmet, hmet']
  constructor
  · rintro ⟨a, ⟨ha, before, after, hsplit, hbefore⟩, rfl⟩
    exact ⟨before, a, after, hsplit, hbefore, ha, rfl⟩
  · rintro ⟨before, a, after, hsplit, hbefore, ha, rfl⟩
    exact ⟨a, ⟨ha, before, after, hsplit, hbefore⟩, rfl⟩

/-- Two formats say the same of which attributes are present, and nothing of these that makes a
difference. -/
def SameLayout (f g : VertexFormat) : Prop :=
  f.presences = g.presences ∧ ∀ a, f.presences.get a ≠ .absent →
    AttributeFormat.Alike a (f.formats.get a) (g.formats.get a)

end VertexFormat

/-! ### Layouts from formats -/

namespace Layout

open VertexFormat (Offends SameLayout)

theorem answers_place (f : VertexFormat) (start : Nat) (a : Attribute) :
    Answers (place f start a) [⟨a.Supports (f.formats.get a).count,
      .unsupportedCount a (f.formats.get a).count⟩] :=
  ((f.formats.get a).answers_components a).bind_ok fun _ => ⟨_, rfl⟩

theorem answers_placeAll (f : VertexFormat) (attrs : List Attribute) (start : Nat) :
    Answers (placeAll f start attrs) (attrs.map f.demand) := by
  induction attrs generalizing start with
  | nil => exact .of_ok []
  | cons a attrs ih =>
    rw [List.map_cons, placeAll]
    split
    case isTrue ha =>
      have hmet : (f.demand a).met = true := decide_eq_true fun h => h.1 ha
      exact (ih start).cons_of_met hmet
    case isFalse ha =>
      have hdemand : f.demand a = ⟨a.Supports (f.formats.get a).count,
          .unsupportedCount a (f.formats.get a).count⟩ := by
        simp [VertexFormat.demand, Offends, ha]
      have hrest (s : Slot) : Answers (do
          let rest ← placeAll f s.stop attrs
          return s :: rest) (attrs.map f.demand) :=
        (ih s.stop).bind_ok fun _ => ⟨_, rfl⟩
      rw [hdemand]
      exact (answers_place f start a).bind fun s _ => hrest s

/-- What is demanded of a format that has a layout, attribute by attribute. -/
theorem answers_ofFormat (f : VertexFormat) :
    Answers (ofFormat f) (Attribute.streamOrder.map f.demand) := by
  rw [ofFormat_eq]
  exact (answers_placeAll f _ 0).map

section SameLayout

variable {f g : VertexFormat} (h : SameLayout f g)
include h

theorem place_congr {a : Attribute} (ha : f.presences.get a ≠ .absent) (start : Nat) :
    place f start a = place g start a := by
  have halike := h.2 a ha
  simp only [place, AttributeFormat.components_of_alike halike,
    AttributeFormat.storedType_of_alike halike, halike.1, h.1]

theorem placeAll_congr (attrs : List Attribute) (start : Nat) :
    placeAll f start attrs = placeAll g start attrs := by
  induction attrs generalizing start with
  | nil => rfl
  | cons a attrs ih =>
    rw [placeAll, placeAll, ← h.1]
    split
    case isTrue => exact ih start
    case isFalse ha =>
      rw [place_congr h ha]
      simp only [ih]

theorem ofFormat_congr : ofFormat f = ofFormat g := by
  rw [ofFormat_eq, ofFormat_eq, placeAll_congr h]

end SameLayout

end Layout

/-- Of the lines of a format the last for each attribute count.  A format has a layout if every
count of a present attribute means something, and otherwise it is refused for the first that does
not, in stream order.  The layout depends on the present attributes only, and on neither the component type
nor the count of matrix numbers. -/
theorem VertexFormat.layout_of_lines :
    (∀ lines a, (ofEntries lines).presences.get a =
        ((lastLine? lines a).map FormatEntry.presence).getD .absent ∧
      (ofEntries lines).formats.get a = ((lastLine? lines a).map FormatEntry.format).getD {}) ∧
    (∀ lines lines', (∀ a, lastLine? lines a = lastLine? lines' a) →
      ofEntries lines = ofEntries lines') ∧
    (∀ f, (∃ l, Layout.ofFormat f = .ok l) ↔
      ∀ a, f.presences.get a ≠ .absent → a.Supports (f.formats.get a).count) ∧
    (∀ f e, Layout.ofFormat f = .error e ↔ ∃ before a after,
      Attribute.streamOrder = before ++ a :: after ∧ (∀ b ∈ before, ¬ f.Offends b) ∧
        f.Offends a ∧ e = .unsupportedCount a (f.formats.get a).count) ∧
    ∀ f g, f.SameLayout g → Layout.ofFormat f = Layout.ofFormat g := by
  refine ⟨get_ofEntries, fun _ _ => ofEntries_congr, fun f => ?_, fun f e => ?_, fun f g => ?_⟩
  · rw [(Layout.answers_ofFormat f).ok_iff, List.forall_mem_map]
    simp [demand, Offends, Layout.mem_streamOrder, or_iff_not_imp_left]
  · simp only [(Layout.answers_ofFormat f).error_iff, firstUnmet_demand_eq_some_iff]
    constructor
    · rintro ⟨_, ⟨before, a, after, hsplit, hbefore, ha, rfl⟩, rfl⟩
      exact ⟨before, a, after, hsplit, hbefore, ha, rfl⟩
    · rintro ⟨before, a, after, hsplit, hbefore, ha, rfl⟩
      exact ⟨_, ⟨before, a, after, hsplit, hbefore, ha, rfl⟩, rfl⟩
  · exact Layout.ofFormat_congr

namespace Sample

/-- Two lines for the position, the first with a count that means nothing, and two attributes that
are refused. -/
def lines : List FormatEntry :=
  [⟨.pos, .direct, { count := 9 }⟩, ⟨.tex0, .direct, { count := 5 }⟩,
    ⟨.pos, .index8, { count := 1 }⟩, ⟨.nbt, .index16, { count := 2 }⟩,
    ⟨.pnMtxIdx, .direct, { count := 7 }⟩]

/-- The lines in another order, in which the position is listed last. -/
def reordered : List FormatEntry :=
  [⟨.pnMtxIdx, .direct, { count := 7 }⟩, ⟨.nbt, .index16, { count := 2 }⟩,
    ⟨.pos, .direct, { count := 9 }⟩, ⟨.tex0, .direct, { count := 5 }⟩,
    ⟨.pos, .index8, { count := 1 }⟩]

end Sample

/-- In both orders the combined normal is refused, which comes before the texture coordinate in the
stream. -/
theorem VertexFormat.layout_of_lines_reordered :
    ofEntries Sample.lines = ofEntries Sample.reordered ∧
    Layout.ofFormat (ofEntries Sample.reordered) = .error (.unsupportedCount .nbt 2) := by
  obtain ⟨_, hcongr, _, herror, _⟩ := layout_of_lines
  refine ⟨hcongr _ _ fun a => by cases a <;> rfl, (herror _ _).mpr ?_⟩
  exact ⟨Attribute.streamOrder.take 11, .nbt, Attribute.streamOrder.drop 12, rfl, by decide,
    by decide, rfl⟩

end FixedFunction
