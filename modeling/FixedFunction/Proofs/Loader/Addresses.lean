import FixedFunction.Proofs.Loader.Outcome
import FixedFunction.Proofs.Vertex.Extent
import FixedFunction.Proofs.Vertex.LaidOut

/-!
# Where the elements of an array are looked up

The address of an element is computed from the offset of its array before it is compared with the
size of the array.  An offset near the end of the address space makes the sum leave its word, so
that the machine stops where the element should be found out of bounds.

**Results.**
* `Loader.Misses`: how looking up an element goes wrong.
* `Loader.failure?_eq_some_iff`: reading a value fails exactly if its element is missed.
* `Loader.run_addresses`: a run ends at the first element that is missed.
* `Loader.run_stops_distant`: an element outside its array that is not found out of bounds.
-/

namespace FixedFunction
namespace Loader

/-- How the element is missed that is looked up for a slot at a place of the display list: there is
no array, the element ends behind the array, or it has no address. -/
inductive Misses (arrays : VertexArrays) (dl : List UInt8) (a : Nat × Slot) : Failure → Prop
  | missing {i : UInt16} : indexAt? dl a.1 a.2 = some i → arrays.get a.2.attr = none →
      Misses arrays dl a (.refused (.missingArray a.2.attr))
  | outside {i : UInt16} {array : VertexArray} : indexAt? dl a.1 a.2 = some i →
      arrays.get a.2.attr = some array →
      array.data.size < array.offset + a.2.size * i.toNat + a.2.size →
      array.offset + a.2.size * i.toNat + a.2.size < 1 <<< 64 →
      Misses arrays dl a (.refused (.arrayOutOfBounds a.2.attr i))
  | overrun {i : UInt16} {array : VertexArray} : indexAt? dl a.1 a.2 = some i →
      arrays.get a.2.attr = some array →
      1 <<< 64 ≤ array.offset + a.2.size * i.toNat + a.2.size →
      Misses arrays dl a (.stopped .overflow)

variable {arrays : VertexArrays} {dl : List UInt8} {l : Loader}

/-! ### One place -/

theorem denoted_of_indexAt? {p : Nat} {s : Slot} {i : UInt16} (h : indexAt? dl p s = some i) :
    denoted arrays dl p s = element arrays s i := by
  unfold indexAt? at h
  unfold denoted
  cases hs : s.presence with
  | absent => simp [hs] at h
  | direct => simp [hs] at h
  | index8 =>
    simp only [hs, Option.map_eq_some_iff] at h
    obtain ⟨b, hb, rfl⟩ := h
    simp only [hb]
  | index16 =>
    simp only [hs] at h
    split at h
    case h_1 =>
      obtain rfl := Option.some.inj h
      rfl
    case h_2 => simp at h

theorem denoted_of_indexAt?_eq_none {p : Nat} {s : Slot} (hroom : p + s.streamSize ≤ dl.length)
    (h : indexAt? dl p s = none) : ∃ v, denoted arrays dl p s = .ok v := by
  cases hs : s.presence with
  | absent => exact ⟨[], by simp [denoted, hs]⟩
  | direct => exact denoted_of_direct hs hroom
  | index8 =>
    simp only [Slot.streamSize, hs, Presence.streamSize] at hroom
    simp only [indexAt?, hs, Option.map_eq_none_iff, List.getElem?_eq_none_iff] at h
    omega
  | index16 =>
    simp only [Slot.streamSize, hs, Presence.streamSize] at hroom
    simp only [indexAt?, hs] at h
    rw [List.getElem?_eq_getElem (by omega), List.getElem?_eq_getElem (by omega)] at h
    simp at h

theorem failure?_of_indexAt? {p : Nat} {s : Slot} {i : UInt16} (h : indexAt? dl p s = some i) :
    failure? arrays dl p s =
      match arrays.get s.attr with
      | none => some (.refused (.missingArray s.attr))
      | some array =>
        if 1 <<< 64 ≤ array.offset + s.size * i.toNat + s.size then some (.stopped .overflow)
        else if array.offset + s.size * i.toNat + s.size ≤ array.data.size then none
        else some (.refused (.arrayOutOfBounds s.attr i)) := by
  rw [failure?, defect, denoted_of_indexAt? h, element]
  cases ha : arrays.get s.attr with
  | none => simp [Overruns, Beyond, ha]
  | some array =>
    simp only [Overruns, Beyond, h, ha, Option.mem_some_iff, exists_eq_left']
    split
    case isTrue => rfl
    case isFalse =>
      by_cases hsize : array.offset + s.size * i.toNat + s.size ≤ array.data.size
      · simp only [if_pos hsize, Option.map_none]
      · simp only [if_neg hsize, Option.map_some]

/-- Where the bytes of a slot are there, reading its value fails exactly if its element is
missed. -/
theorem failure?_eq_some_iff {a : Nat × Slot} (hroom : a.1 + a.2.streamSize ≤ dl.length)
    {x : Failure} : failure? arrays dl a.1 a.2 = some x ↔ Misses arrays dl a x := by
  cases hi : indexAt? dl a.1 a.2 with
  | none =>
    have hdenoted : ∃ v, denoted arrays dl a.1 a.2 = .ok v :=
      denoted_of_indexAt?_eq_none hroom hi
    constructor
    · simp [failure?, Overruns, hi, defect_eq_none_iff.mpr hdenoted]
    · rintro (⟨h, _⟩ | ⟨h, _⟩ | ⟨h, _⟩) <;> simp [hi] at h
  | some i =>
    rw [failure?_of_indexAt? hi]
    constructor
    · cases ha : arrays.get a.2.attr with
      | none =>
        rintro ⟨⟩
        exact .missing hi ha
      | some array =>
        dsimp only
        split
        case isTrue hend =>
          rintro ⟨⟩
          exact .overrun hi ha hend
        case isFalse hend =>
          split
          case isTrue => simp
          case isFalse hsize =>
            rintro ⟨⟩
            exact .outside hi ha (Nat.not_le.mp hsize) (Nat.not_le.mp hend)
    · rintro (⟨h, ha⟩ | ⟨h, ha, hsize, hend⟩ | ⟨h, ha, hend⟩)
      all_goals obtain rfl := Option.some.inj (hi.symm.trans h)
      · rw [ha]
      · rw [ha]
        dsimp only
        rw [if_neg (Nat.not_le.mpr hend), if_neg (Nat.not_le.mpr hsize)]
      · rw [ha]
        exact if_pos hend

/-- An element that has no address is outside its array, whose size is a word. -/
theorem failure?_eq_none_iff {p : Nat} {s : Slot}
    (hdata : ∀ a, arrays.get s.attr = some a → a.data.size < 1 <<< 64) :
    failure? arrays dl p s = none ↔ ∃ v, denoted arrays dl p s = .ok v := by
  have hoverrun : Overruns arrays dl p s → defect arrays dl p s ≠ none := by
    rintro ⟨i, hi, array, ha, hend⟩ hd
    have hsize := hdata array ha
    obtain ⟨v, hv⟩ := defect_eq_none_iff.mp hd
    rw [denoted_of_indexAt? hi, element, ha] at hv
    dsimp only at hv
    rw [if_neg (by omega)] at hv
    simp at hv
  rw [← defect_eq_none_iff, failure?]
  split
  case isTrue h => simpa using hoverrun h
  case isFalse => exact Option.map_eq_none_iff

/-! ### The run -/

theorem size_le_of_compile {f : VertexFormat} (hl : compile f = .ok l) :
    ∀ s, s ∈ l.layout.slots → s.size ≤ 36 := by
  intro s hs
  obtain ⟨layout, hlayout, rfl⟩ := map_eq_ok.mp hl
  obtain ⟨slots, hslots, rfl⟩ := Layout.ofFormat_eq_ok.mp hlayout
  obtain ⟨_, hplaced⟩ := (Layout.placeAll_chained hslots).1.placement_of_mem hs
  exact AttributeFormat.byteSize_le hplaced.size_eq

/-- No element of the arrays overruns if their offsets leave room for the largest of them. -/
theorem not_misses_stopped {a : Nat × Slot} (hsize : a.2.size ≤ 36)
    (hoffset : ∀ array, arrays.get a.2.attr = some array → array.offset + 36 * 65536 < 1 <<< 64)
    (t : Fault) : ¬ Misses arrays dl a (.stopped t) := by
  rintro ⟨⟩
  case overrun i array _ ha hend =>
    have hi := i.toNat_lt
    have hbound := hoffset array ha
    have hmul : a.2.size * i.toNat ≤ 36 * 65535 := Nat.mul_le_mul hsize (by omega)
    omega

/-- A run of a display list whose draw calls are few enough succeeds exactly if the display list
denotes all its values.  It ends at the first element that is missed: without an array or outside of
it, the run is refused for the array and the index, but the machine stops if the element has no
address.  It does not stop where all arrays start far enough from the end of the address space. -/
theorem run_addresses {f : VertexFormat} (hl : compile f = .ok l)
    (hdata : ∀ s, s ∈ l.layout.slots → ∀ a, arrays.get s.attr = some a → a.data.size < 1 <<< 64)
    {calls : List DrawCall} (h : l.drawCalls dl = .ok calls)
    (hmax : DrawCall.vertexTotal calls ≤ 65536) :
    ((∃ m, l.run arrays dl = .ok m) ↔
      ∀ a, a ∈ l.places calls → ∃ v, denoted arrays dl a.1 a.2 = .ok v) ∧
    (∀ x, l.run arrays dl = .error x ↔ ∃ before a after, l.places calls = before ++ a :: after ∧
      (∀ b, b ∈ before → ∃ v, denoted arrays dl b.1 b.2 = .ok v) ∧ Misses arrays dl a x) ∧
    ((∀ s, s ∈ l.layout.slots → ∀ a, arrays.get s.attr = some a →
        a.offset + 36 * 65536 < 1 <<< 64) →
      ∀ t, l.run arrays dl ≠ .error (.stopped t)) := by
  have hfollows : Follows (l.run arrays dl) (firstFailure? arrays dl (l.places calls)) _ :=
    run_follows hl h hmax
  have hplace := places_bounds hl h
  have hnone : ∀ a, a ∈ l.places calls → (failure? arrays dl a.1 a.2 = none ↔
      ∃ v, denoted arrays dl a.1 a.2 = .ok v) :=
    fun a ha => failure?_eq_none_iff (hdata a.2 (hplace a ha).1)
  have herror : ∀ x, l.run arrays dl = .error x ↔ ∃ before a after,
      l.places calls = before ++ a :: after ∧
      (∀ b, b ∈ before → ∃ v, denoted arrays dl b.1 b.2 = .ok v) ∧ Misses arrays dl a x := by
    intro x
    rw [hfollows.eq_error_iff, firstFailure?, List.findSome?_eq_some_iff]
    refine exists_congr fun before => exists_congr fun a => exists_congr fun after =>
      and_congr_right fun hsplit => ?_
    have hmem : ∀ b, b ∈ before ∨ b = a → b ∈ l.places calls := by
      rintro b (hb | rfl)
      · exact hsplit ▸ List.mem_append_left _ hb
      · simp [hsplit]
    rw [and_comm, failure?_eq_some_iff (hplace a (hmem a (.inr rfl))).2]
    exact and_congr_left fun _ => forall₂_congr fun b hb => hnone b (hmem b (.inl hb))
  refine ⟨?_, herror, fun hoffset t hrun => ?_⟩
  · rw [hfollows.exists_ok_iff, firstFailure?, List.findSome?_eq_none_iff]
    exact forall₂_congr hnone
  · obtain ⟨before, a, after, hsplit, _, hmiss⟩ := (herror _).mp hrun
    have hslot := (hplace a (by simp [hsplit])).1
    exact not_misses_stopped (size_le_of_compile hl a.2 hslot) (hoffset a.2 hslot) t hmiss

namespace Sample

/-- The texture coordinates start at the given offset. -/
def shifted (offset : Nat) : VertexArrays :=
  Sample.arrays.set .tex0 (some ⟨#[50, 51, 52], offset⟩)

theorem drawCalls_list :
    loader.drawCalls list = .ok [⟨.triangleStrip, 3, 2, 0⟩, ⟨.triangleFan, 22, 1, 2⟩] := by
  decide +kernel

end Sample

/-- The first texture coordinate is far outside of its array, but it has an address. -/
theorem run_addresses_shifted :
    compile Sample.format = .ok Sample.loader ∧
    (∀ s, s ∈ Sample.loader.layout.slots → ∀ a,
      (Sample.shifted 18446744073709551500).get s.attr = some a → a.data.size < 1 <<< 64) ∧
    Sample.loader.drawCalls Sample.list =
      .ok [⟨.triangleStrip, 3, 2, 0⟩, ⟨.triangleFan, 22, 1, 2⟩] ∧
    DrawCall.vertexTotal [⟨.triangleStrip, 3, 2, 0⟩, ⟨.triangleFan, 22, 1, 2⟩] ≤ 65536 ∧
    Sample.loader.run (Sample.shifted 18446744073709551500) Sample.list =
      .error (.refused (.arrayOutOfBounds .tex0 2)) := by
  have hdata : ∀ s, s ∈ Sample.loader.layout.slots → ∀ a,
      (Sample.shifted 18446744073709551500).get s.attr = some a → a.data.size < 1 <<< 64 := by
    intro s hs a ha
    simp only [Sample.loader, ofLayout, Layout.ofSlots, List.mem_cons, List.not_mem_nil,
      or_false] at hs
    rcases hs with rfl | rfl | rfl | rfl
    all_goals
      simp [Sample.shifted, Sample.arrays, VertexArrays.empty, PerAttribute.get_set_of_ne] at ha
    all_goals
      subst ha
      decide
  refine ⟨Sample.compile_format, hdata, Sample.drawCalls_list, by decide, ?_⟩
  obtain ⟨_, herror, _⟩ :=
    run_addresses Sample.compile_format hdata Sample.drawCalls_list (by decide)
  refine (herror _).mpr ⟨[(3, ⟨.pnMtxIdx, .direct, .u8, 1, 0, 1, 0⟩),
    (4, ⟨.pos, .index16, .s16, 2, 0, 4, 2⟩), (6, ⟨.clr0, .direct, .rgba8, 4, 0, 4, 6⟩)],
    (10, ⟨.tex0, .index8, .u8, 1, 0, 1, 10⟩), _, rfl, ?_, ?_⟩
  · exact firstDefect?_eq_none_iff.mp (by decide)
  · exact .outside rfl rfl (by decide) (by decide)

/-- The first texture coordinate is outside of its array as well, but the machine stops. -/
theorem run_stops_distant :
    compile Sample.format = .ok Sample.loader ∧
    Sample.loader.drawCalls Sample.list =
      .ok [⟨.triangleStrip, 3, 2, 0⟩, ⟨.triangleFan, 22, 1, 2⟩] ∧
    element (Sample.shifted 18446744073709551615) ⟨.tex0, .index8, .u8, 1, 0, 1, 10⟩ 2 =
      .error (.arrayOutOfBounds .tex0 2) ∧
    Sample.loader.run (Sample.shifted 18446744073709551615) Sample.list =
      .error (.stopped .overflow) :=
  ⟨Sample.compile_format, Sample.drawCalls_list, rfl, by decide +kernel⟩

end Loader
end FixedFunction
