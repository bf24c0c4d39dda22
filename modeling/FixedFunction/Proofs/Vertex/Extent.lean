import FixedFunction.Proofs.Vertex.Placement

/-!
# How large a vertex can be

No value has more than nine components of four bytes each, and there is one value for each
attribute at most, so that a vertex stays small in the stream and in its packed form.

**Results.**
* `AttributeFormat.byteSize_le`: the bytes of one value.
* `Layout.extent_of_ofFormat`: the bytes of a vertex.
-/

namespace FixedFunction

theorem ComponentType.size_le (t : ComponentType) : t.size ≤ 4 := by
  cases t <;> decide

namespace AttributeFormat

theorem components_le {f : AttributeFormat} {a : Attribute} {n : Nat}
    (h : f.components a = .ok n) : n ≤ 9 := by
  revert h
  fun_cases components f a
  all_goals
    intro h
    cases h
  all_goals decide

theorem byteSize_le {f : AttributeFormat} {a : Attribute} {n : Nat}
    (h : f.byteSize a = .ok n) : n ≤ 36 := by
  obtain ⟨c, hc, h⟩ := bind_eq_ok.mp h
  obtain rfl := Except.ok.inj h
  have hvalue : (f.storedType a).size * c ≤ 4 * 9 :=
    Nat.mul_le_mul (f.storedType a).size_le (components_le hc)
  exact hvalue

end AttributeFormat

theorem Slot.streamSize_le {s : Slot} (h : s.size ≤ 36) : s.streamSize ≤ 36 := by
  rw [streamSize]
  cases s.presence with
  | absent => exact Nat.zero_le _
  | direct => exact h
  | index8 => exact show 1 ≤ 36 by decide
  | index16 => exact show 2 ≤ 36 by decide

namespace Layout

theorem alignUp_le_add (n : Nat) (t : ComponentType) : alignUp n t.size ≤ n + 3 := by
  have := t.size_le
  rw [alignUp]
  omega

theorem placeAll_extent {f : VertexFormat} {attrs : List Attribute} {start : Nat}
    {slots : List Slot} (h : placeAll f start attrs = .ok slots) :
    sourceSize slots ≤ 36 * attrs.length ∧
      ∀ s, s ∈ slots → s.stop ≤ start + 39 * attrs.length := by
  induction attrs generalizing start slots with
  | nil =>
    obtain rfl := Except.ok.inj h
    exact ⟨Nat.zero_le _, fun s hs => absurd hs List.not_mem_nil⟩
  | cons a attrs ih =>
    rw [List.length_cons]
    rcases placeAll_cons_eq_ok.mp h with ⟨_, h⟩ | ⟨_, s, hs, rest, hrest, rfl⟩
    · obtain ⟨hsource, hstop⟩ := ih h
      refine ⟨by omega, fun s hs => ?_⟩
      have := hstop s hs
      omega
    · obtain ⟨hsource, hstop⟩ := ih hrest
      have hplaced := placement_of_place hs
      have hsize := AttributeFormat.byteSize_le hplaced.size_eq
      have hs_stop : s.stop ≤ start + 39 := by
        have := alignUp_le_add start s.component
        rw [Slot.stop, hplaced.offset_eq]
        omega
      constructor
      · have := Slot.streamSize_le hsize
        rw [sourceSize_cons]
        omega
      · intro t ht
        rcases List.mem_cons.mp ht with rfl | ht
        · omega
        · have := hstop t ht
          omega

theorem lastStop_le {slots : List Slot} {n : Nat} (h : ∀ s, s ∈ slots → s.stop ≤ n) :
    lastStop slots ≤ n := by
  rw [lastStop]
  cases hlast : slots.getLast? with
  | none => exact Nat.zero_le n
  | some s => exact h s (List.mem_of_getLast? hlast)

/-- A vertex takes at most 792 bytes of the stream, and at most 861 bytes when it is packed. -/
theorem extent_of_ofFormat {f : VertexFormat} {l : Layout} (h : ofFormat f = .ok l) :
    l.sourceStride ≤ 792 ∧ l.stride ≤ 861 := by
  obtain ⟨slots, hslots, rfl⟩ := ofFormat_eq_ok.mp h
  obtain ⟨hsource, hstop⟩ := placeAll_extent hslots
  have hlast := lastStop_le hstop
  have hlength : Attribute.streamOrder.length = 22 := rfl
  have halign : (ofSlots slots).stride ≤ lastStop slots + 3 := alignUp_le_add (lastStop slots) .f32
  rw [hlength] at hsource hlast
  exact ⟨hsource, by omega⟩

end Layout
end FixedFunction
