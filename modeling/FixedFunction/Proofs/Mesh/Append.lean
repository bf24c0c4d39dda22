import FixedFunction.Mesh.Join
import FixedFunction.Proofs.DisplayList.Numbering
import FixedFunction.Proofs.DisplayList.Triangulation

/-!
# Appending a mesh

What is appended is checked in several places.  Where every check succeeds, the result is the plain
concatenation with indices and draw calls that are numbered on.

**Results.**
* `Mesh.appended`: the concatenation of two meshes, without checks.
* `Mesh.append_eq_ok`: a mesh is appended exactly when every check succeeds.
-/

namespace FixedFunction
namespace Mesh

/-- An index that is numbered on from `base`. -/
def shiftIndex (base : Nat) (i : UInt16) : UInt16 :=
  (i.toNat + base).toUInt16

/-- The concatenation of two meshes.  The vertices of the second are numbered on from those of the
first. -/
def appended (m n : Mesh) : Mesh where
  indices := m.indices ++ n.indices.map (shiftIndex m.vertexCount)
  data := m.data ++ n.data
  stride := m.stride
  vertexCount := m.vertexCount + n.vertexCount
  triangleCount := m.triangleCount + n.triangleCount
  calls := m.calls ++ n.calls.map (DrawCall.shift m.vertexCount)

@[simp]
theorem appended_vertexCount (m n : Mesh) :
    (m.appended n).vertexCount = m.vertexCount + n.vertexCount := rfl

@[simp]
theorem appended_triangleCount (m n : Mesh) :
    (m.appended n).triangleCount = m.triangleCount + n.triangleCount := rfl

@[simp]
theorem appended_stride (m n : Mesh) : (m.appended n).stride = m.stride := rfl

/-- What is appended to a mesh without vertices stays as it is. -/
theorem appended_empty (m : Mesh) : appended { stride := m.stride } m = m := by
  have hindex : m.indices.map (shiftIndex 0) = m.indices := by
    rw [show shiftIndex 0 = id from funext fun _ => UInt16.ofNat_toNat, Array.map_id]
  have hcall : m.calls.map (DrawCall.shift 0) = m.calls := List.map_id _
  simp [appended, hindex, hcall]

/-- What is checked when `n` is appended to `m`. -/
structure Appendable (m n : Mesh) : Prop where
  stride_eq : n.stride = m.stride
  room : m.vertexCount + n.vertexCount ≤ maxVertices
  index_lt : ∀ i, i ∈ n.indices → i.toNat < n.vertexCount
  first_lt : ∀ c, c ∈ n.calls → c.first + m.vertexCount < 1 <<< 32
  triangleCount_lt : m.triangleCount + n.triangleCount < 1 <<< 32

theorem rebase_eq_ok (base : Nat) (c d : DrawCall) :
    rebase base c = .ok d ↔ c.first + base < 1 <<< 32 ∧ d = c.shift base := by
  rw [rebase, bind_eq_ok]
  constructor
  · rintro ⟨first, hfirst, h⟩
    obtain ⟨hfit, rfl⟩ := checkWord_eq_ok.mp hfirst
    exact ⟨hfit, (Except.ok.inj h).symm⟩
  · rintro ⟨hfit, rfl⟩
    exact ⟨c.first + base, checkWord_of_lt hfit, rfl⟩

/-- An index of the appended mesh fits, although the number of the vertices before it may not. -/
theorem rebaseIndex_eq_ok {base count : Nat} (hroom : base + count ≤ maxVertices) (i j : UInt16) :
    rebaseIndex base count i = .ok j ↔ i.toNat < count ∧ j = shiftIndex base i := by
  rw [rebaseIndex]
  by_cases hi : count ≤ i.toNat
  · rw [if_pos hi]
    simp only [throw_eq, reduceCtorEq, false_iff]
    omega
  · have hfit : i.toNat + base < 65536 := by
      rw [maxVertices] at hroom
      omega
    have hadd : addIndex i base.toUInt16 = .ok (shiftIndex base i) := by
      have := addIndex_eq hfit
      rwa [show i.toNat.toUInt16 = i from UInt16.ofNat_toNat] at this
    rw [if_neg hi, hadd, Except.ok.injEq, eq_comm]
    exact ⟨fun h => ⟨by omega, h⟩, fun h => h.2⟩

theorem toNat_shiftIndex {base count : Nat} (hroom : base + count ≤ maxVertices) {i : UInt16}
    (hi : i.toNat < count) : (shiftIndex base i).toNat = i.toNat + base := by
  rw [maxVertices] at hroom
  exact toNat_toUInt16 (by omega)

/-- An index that was numbered on is within the two meshes together. -/
theorem index_lt_appended {m n : Mesh} (hm : ∀ i, i ∈ m.indices → i.toNat < m.vertexCount)
    (h : Appendable m n) :
    ∀ i, i ∈ (m.appended n).indices → i.toNat < (m.appended n).vertexCount := by
  intro i hi
  rw [appended_vertexCount]
  rcases Array.mem_append.mp hi with hi | hi
  · have := hm i hi
    omega
  · obtain ⟨j, hj, rfl⟩ := Array.mem_map.mp hi
    have hlt := h.index_lt j hj
    rw [toNat_shiftIndex h.room hlt]
    omega

/-- The indices of the appended mesh are all within it, and they are numbered on. -/
theorem foldlM_rebaseIndex_eq_ok {base count : Nat} (hroom : base + count ≤ maxVertices)
    {indices out out' : Array UInt16} :
    indices.foldlM (fun out i => return out.push (← rebaseIndex base count i)) out = .ok out' ↔
      (∀ i, i ∈ indices → i.toNat < count) ∧ out' = out ++ indices.map (shiftIndex base) := by
  have hout : out ++ indices.toList.map (shiftIndex base) = out ++ indices.map (shiftIndex base) :=
    Array.toList_inj.mp (by simp)
  rw [← Array.foldlM_toList, foldlM_push_eq_ok (rebaseIndex_eq_ok hroom), hout]
  simp only [Array.mem_toList_iff]

/-- A mesh is appended exactly when every check succeeds. -/
theorem append_eq_ok {m n r : Mesh} : m.append n = .ok r ↔ Appendable m n ∧ r = m.appended n := by
  constructor
  · intro h
    rw [append] at h
    split at h
    · simp at h
    rename_i hstride
    rw [Decidable.not_not] at hstride
    obtain ⟨total, htotal, h⟩ := bind_eq_ok.mp h
    obtain ⟨_, rfl⟩ := checkWord_eq_ok.mp htotal
    split at h
    · simp at h
    rename_i hroom
    rw [Nat.not_lt] at hroom
    obtain ⟨indices, hindices, h⟩ := bind_eq_ok.mp h
    obtain ⟨hindex, rfl⟩ := (foldlM_rebaseIndex_eq_ok hroom).mp hindices
    obtain ⟨calls, hcalls, h⟩ := bind_eq_ok.mp h
    obtain ⟨hfirst, rfl⟩ := (mapM_eq_ok (rebase_eq_ok m.vertexCount)).mp hcalls
    obtain ⟨triangles, htriangles, h⟩ := bind_eq_ok.mp h
    obtain ⟨hfit, rfl⟩ := checkWord_eq_ok.mp htriangles
    exact ⟨⟨hstride, hroom, hindex, hfirst, hfit⟩, (Except.ok.inj h).symm⟩
  · rintro ⟨h, rfl⟩
    have hroom := h.room
    have htotal : checkWord 32 (m.vertexCount + n.vertexCount) =
        .ok (m.vertexCount + n.vertexCount) := by
      rw [maxVertices] at hroom
      exact checkWord_of_lt (by omega)
    have hindices : n.indices.foldlM (fun out i =>
        return out.push (← rebaseIndex m.vertexCount n.vertexCount i)) m.indices =
        .ok (m.indices ++ n.indices.map (shiftIndex m.vertexCount)) :=
      (foldlM_rebaseIndex_eq_ok hroom).mpr ⟨h.index_lt, rfl⟩
    have hcalls := (mapM_eq_ok (rebase_eq_ok m.vertexCount)).mpr ⟨h.first_lt, rfl⟩
    have htriangles := checkWord_of_lt h.triangleCount_lt
    simp only [append, ne_eq, h.stride_eq, not_true, if_false, htotal, ok_bind,
      Nat.not_lt.mpr hroom, hindices, hcalls, htriangles]
    rfl

end Mesh
end FixedFunction
