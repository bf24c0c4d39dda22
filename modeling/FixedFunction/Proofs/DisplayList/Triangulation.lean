import FixedFunction.DisplayList.Triangle
import FixedFunction.Proofs.DisplayList.Numbering
import FixedFunction.Proofs.Failure

/-!
# The index buffer of a draw call

The corners of triangles are numbers of vertices, and an index buffer holds them in words of
16 bits.  As long as the vertices of a call are numbered below 65536, no sum and no difference
leaves its word.

**Results.**
* `DrawCall.corners`: the corners of the triangles of a call, one triangle after the other.
* `closingIndices_eq`: the indices of a triangle are its corners.
* `DrawCall.appendIndices_eq`: the indices that a call appends are its corners.
* `DrawCall.corner_bounds`: the corners are vertices of the call.
* `DrawCall.corners_shift`: the corners of a call that is numbered on.
* `DrawCall.length_flatMap_corners`: there are three corners for each triangle.
-/

namespace FixedFunction

/-- The corners of a triangle as a list. -/
def Triangle.toList (t : Triangle) : List Nat :=
  [t.1, t.2.1, t.2.2]

/-- The corners of the triangles of a call, one triangle after the other. -/
def DrawCall.corners (c : DrawCall) : List Nat :=
  c.triangles.flatMap Triangle.toList

theorem toNat_toUInt16 {n : Nat} (h : n < 65536) : n.toUInt16.toNat = n := by
  simp only [Nat.toUInt16, UInt16.toNat_ofNat']
  omega

theorem toUInt16_eq_iff {n m : Nat} (hn : n < 65536) (hm : m < 65536) :
    n.toUInt16 = m.toUInt16 ↔ n = m := by
  rw [← UInt16.toNat_inj, toNat_toUInt16 hn, toNat_toUInt16 hm]

theorem addIndex_eq {n m : Nat} (h : n + m < 65536) :
    addIndex n.toUInt16 m.toUInt16 = .ok (n + m).toUInt16 := by
  rw [addIndex, toNat_toUInt16 (by omega), toNat_toUInt16 (by omega), checkWord_of_lt (by omega)]
  rfl

theorem subIndex_eq {n m : Nat} (h : m ≤ n) (hn : n < 65536) :
    subIndex n.toUInt16 m.toUInt16 = .ok (n - m).toUInt16 := by
  have hle : m.toUInt16 ≤ n.toUInt16 := by
    rw [UInt16.le_iff_toNat_le, toNat_toUInt16 (by omega), toNat_toUInt16 hn]
    exact h
  rw [subIndex, if_pos hle]
  refine congrArg Except.ok (UInt16.toNat_inj.mp ?_)
  rw [UInt16.toNat_sub_of_le _ _ hle, toNat_toUInt16 hn, toNat_toUInt16 (by omega),
    toNat_toUInt16 (by omega)]

/-- The indices of a triangle are its corners. -/
theorem closingIndices_eq (p : Primitive) {first i : Nat} (hi : 2 ≤ i) (h : first + i < 65536) :
    closingIndices p first.toUInt16 i.toUInt16 =
      .ok ((closedBy p first i).toList.map Nat.toUInt16) := by
  have h1 : subIndex (first + i).toUInt16 1 = .ok (first + i - 1).toUInt16 :=
    subIndex_eq (m := 1) (by omega) h
  have h2 : subIndex (first + i).toUInt16 2 = .ok (first + i - 2).toUInt16 :=
    subIndex_eq (m := 2) (by omega) h
  have hodd : i.toUInt16 % 2 = 1 ↔ i % 2 = 1 := by
    rw [← UInt16.toNat_inj, UInt16.toNat_mod, toNat_toUInt16 (by omega)]
    rfl
  have htwo : i.toUInt16 = 2 ↔ i = 2 := toUInt16_eq_iff (m := 2) (by omega) (by omega)
  rw [closingIndices, addIndex_eq h, ok_bind]
  by_cases hi2 : i = 2
  · rw [if_pos (htwo.mpr hi2)]
    subst hi2
    have ha : addIndex first.toUInt16 1 = .ok (first + 1).toUInt16 :=
      addIndex_eq (m := 1) (by omega)
    have hb : addIndex first.toUInt16 2 = .ok (first + 2).toUInt16 := addIndex_eq (m := 2) h
    rw [ha, ok_bind, hb]
    cases p <;> rfl
  · rw [if_neg fun h' => hi2 (htwo.mp h'), h1, h2]
    cases p
    case triangleStrip =>
      simp only [hodd, closedBy]
      split <;> rfl
    all_goals rfl

theorem foldlM_closingIndices (p : Primitive) {first : Nat} {l : List Nat}
    (hl : ∀ i, i ∈ l → 2 ≤ i ∧ first + i < 65536) (out : Array UInt16) :
    l.foldlM (fun out i =>
        return out ++ (← closingIndices p first.toUInt16 i.toUInt16)) out =
      (.ok (out ++ ((l.map (closedBy p first)).flatMap Triangle.toList).map Nat.toUInt16) :
        Except Failure (Array UInt16)) := by
  induction l generalizing out with
  | nil => simp [pure, Except.pure]
  | cons i l ih =>
    obtain ⟨hi, hfit⟩ := hl i (by simp)
    rw [List.foldlM_cons, closingIndices_eq p hi hfit, ok_bind, pure_bind,
      ih fun j hj => hl j (List.mem_cons_of_mem _ hj)]
    refine congrArg Except.ok (Array.toList_inj.mp ?_)
    simp

/-- The indices that a call appends are its corners. -/
theorem DrawCall.appendIndices_eq {c : DrawCall} (hc : c.count < 65536)
    (h : c.first + c.count ≤ 65536) (out : Array UInt16) :
    c.appendIndices out = .ok (out ++ c.corners.map Nat.toUInt16) := by
  rw [DrawCall.appendIndices, toNat_toUInt16 hc, foldlM_closingIndices]
  · rfl
  · intro i hi
    rw [List.mem_range'_1] at hi
    omega

theorem closedBy_bounds (p : Primitive) {first i : Nat} (hi : 2 ≤ i) :
    ∀ k, k ∈ (closedBy p first i).toList → first ≤ k ∧ k ≤ first + i := by
  intro k hk
  unfold closedBy at hk
  split at hk
  · split at hk
    · simp only [Triangle.toList, List.mem_cons, List.not_mem_nil, or_false] at hk
      omega
    · simp only [Triangle.toList, List.mem_cons, List.not_mem_nil, or_false] at hk
      omega
  · simp only [Triangle.toList, List.mem_cons, List.not_mem_nil, or_false] at hk
    omega

theorem closedBy_shift (p : Primitive) (base first : Nat) {i : Nat} (hi : 2 ≤ i) :
    (closedBy p (first + base) i).toList = (closedBy p first i).toList.map (· + base) := by
  unfold closedBy
  split
  · split
    · simp only [Triangle.toList, List.map_cons, List.map_nil, List.cons.injEq, and_true]
      omega
    · simp only [Triangle.toList, List.map_cons, List.map_nil, List.cons.injEq, and_true]
      omega
  · simp only [Triangle.toList, List.map_cons, List.map_nil, List.cons.injEq, true_and, and_true]
    omega

/-- The corners are vertices of the call. -/
theorem DrawCall.corner_bounds (c : DrawCall) :
    ∀ k, k ∈ c.corners → c.first ≤ k ∧ k < c.first + c.count := by
  intro k hk
  obtain ⟨t, ht, hk⟩ := List.mem_flatMap.mp hk
  obtain ⟨i, hi, rfl⟩ := List.mem_map.mp ht
  rw [List.mem_range'_1] at hi
  have := closedBy_bounds c.primitive hi.1 k hk
  omega

namespace DrawCall

theorem length_corners (c : DrawCall) : c.corners.length = 3 * (c.count - 2) := by
  rw [corners, List.length_flatMap]
  show (c.triangles.map fun _ => 3).sum = _
  rw [List.map_const', List.sum_replicate_nat, length_triangles, Nat.mul_comm]

/-- The corners of a call that is numbered on are numbered on as well. -/
theorem corners_shift (base : Nat) (c : DrawCall) :
    (c.shift base).corners = c.corners.map (· + base) := by
  simp only [corners, triangles, List.flatMap_map, List.map_flatMap]
  rw [List.flatMap_def, List.flatMap_def]
  refine congrArg List.flatten (List.map_congr_left fun i hi => ?_)
  rw [List.mem_range'_1] at hi
  exact closedBy_shift c.primitive base c.first hi.1

@[simp]
theorem triangleTotal_nil : triangleTotal [] = 0 := rfl

@[simp]
theorem triangleTotal_cons (c : DrawCall) (calls : List DrawCall) :
    triangleTotal (c :: calls) = c.count - 2 + triangleTotal calls := rfl

@[simp]
theorem triangleTotal_append (calls calls' : List DrawCall) :
    triangleTotal (calls ++ calls') = triangleTotal calls + triangleTotal calls' := by
  induction calls with
  | nil => simp
  | cons c calls ih => simp [ih, Nat.add_assoc]

@[simp]
theorem triangleTotal_map_shift (base : Nat) (calls : List DrawCall) :
    triangleTotal (calls.map (shift base)) = triangleTotal calls := by
  induction calls with
  | nil => rfl
  | cons c calls ih => simp [ih, shift]

theorem triangleTotal_le (calls : List DrawCall) : triangleTotal calls ≤ vertexTotal calls := by
  induction calls with
  | nil => simp
  | cons c calls ih =>
    rw [triangleTotal_cons, vertexTotal_cons]
    omega

theorem length_flatMap_corners (calls : List DrawCall) :
    (calls.flatMap corners).length = 3 * triangleTotal calls := by
  induction calls with
  | nil => rfl
  | cons c calls ih =>
    rw [List.flatMap_cons, List.length_append, ih, length_corners, triangleTotal_cons, Nat.mul_add]

/-- The corners of calls that are numbered through are vertices of these calls. -/
theorem Numbered.corner_bounds {first : Nat} {calls : List DrawCall} (h : Numbered first calls) :
    ∀ k, k ∈ calls.flatMap corners → first ≤ k ∧ k < first + vertexTotal calls := by
  intro k hk
  obtain ⟨c, hc, hk⟩ := List.mem_flatMap.mp hk
  have := h.bounds c hc
  have := c.corner_bounds k hk
  omega

end DrawCall
end FixedFunction
