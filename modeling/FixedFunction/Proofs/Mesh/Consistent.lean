import FixedFunction.Proofs.Loader.Run
import FixedFunction.Proofs.Mesh.Append

/-!
# The fields of a mesh agree

**Invariant.**  Everything in a mesh is determined by its draw calls, up to the contents of the
packed vertices: the calls are numbered through, the index buffer holds their triangles one call
after the other, and the counts are those of the calls.  A mesh that is appended is numbered on,
both in its index buffer and in its draw calls, so the triangles stay those of the calls.

**Results.**
* `Mesh.consistent_of_run`: a display list is decoded to a consistent mesh.
* `Mesh.Consistent.appended`: two consistent meshes one after the other are consistent.
* `Mesh.Consistent.append`: consistent meshes are appended unless their strides differ or they have
  too many vertices.
-/

namespace FixedFunction
namespace Mesh

open DisplayList (Commands)

/-- The counts and the index buffer of a mesh are those of its draw calls. -/
structure Consistent (m : Mesh) : Prop where
  data_size : m.data.size = m.stride * m.vertexCount
  vertexCount_eq : m.vertexCount = DrawCall.vertexTotal m.calls
  vertexCount_le : m.vertexCount ≤ maxVertices
  numbered : DrawCall.Numbered 0 m.calls
  draws : ∀ c, c ∈ m.calls → c.primitive = .triangleStrip ∨ c.primitive = .triangleFan
  triangleCount_eq : m.triangleCount = DrawCall.triangleTotal m.calls
  indices_eq : m.indices.toList.map UInt16.toNat = m.calls.flatMap DrawCall.corners

namespace Consistent

variable {m n : Mesh}

theorem indices_size (h : m.Consistent) : m.indices.size = 3 * m.triangleCount := by
  have := congrArg List.length h.indices_eq
  rwa [List.length_map, Array.length_toList, DrawCall.length_flatMap_corners,
    ← h.triangleCount_eq] at this

theorem index_lt (h : m.Consistent) : ∀ i, i ∈ m.indices → i.toNat < m.vertexCount := by
  intro i hi
  have hmem : i.toNat ∈ m.calls.flatMap DrawCall.corners := by
    rw [← h.indices_eq]
    exact List.mem_map_of_mem (Array.mem_toList_iff.mpr hi)
  have := h.numbered.corner_bounds _ hmem
  rw [h.vertexCount_eq]
  omega

theorem triangleCount_le (h : m.Consistent) : m.triangleCount ≤ m.vertexCount := by
  rw [h.triangleCount_eq, h.vertexCount_eq]
  exact DrawCall.triangleTotal_le m.calls

theorem first_le (h : m.Consistent) : ∀ c, c ∈ m.calls → c.first ≤ m.vertexCount := by
  intro c hc
  have := h.numbered.bounds c hc
  rw [h.vertexCount_eq]
  omega

/-- A mesh without vertices. -/
theorem empty (stride : Nat) : Consistent { stride } where
  data_size := rfl
  vertexCount_eq := rfl
  vertexCount_le := Nat.zero_le _
  numbered := trivial
  draws := by simp
  triangleCount_eq := rfl
  indices_eq := rfl

/-- Nothing but the strides and the number of vertices can keep consistent meshes apart. -/
theorem appendable (hm : m.Consistent) (hn : n.Consistent) (hstride : n.stride = m.stride)
    (hroom : m.vertexCount + n.vertexCount ≤ maxVertices) : Appendable m n := by
  have hmax : maxVertices < 1 <<< 32 := by decide
  refine ⟨hstride, hroom, hn.index_lt, ?_, ?_⟩
  · intro c hc
    have := hn.first_le c hc
    omega
  · have := hm.triangleCount_le
    have := hn.triangleCount_le
    omega

/-- The indices that are numbered on are the corners of the calls that are numbered on. -/
theorem shiftIndex_eq {base : Nat} (hn : n.Consistent)
    (hroom : base + n.vertexCount ≤ maxVertices) :
    (n.indices.toList.map (shiftIndex base)).map UInt16.toNat =
      (n.calls.map (DrawCall.shift base)).flatMap DrawCall.corners := by
  calc (n.indices.toList.map (shiftIndex base)).map UInt16.toNat
      = (n.indices.toList.map UInt16.toNat).map (· + base) := by
        rw [List.map_map, List.map_map]
        refine List.map_congr_left fun i hi => ?_
        exact toNat_shiftIndex hroom (hn.index_lt i (Array.mem_toList_iff.mp hi))
    _ = (n.calls.flatMap DrawCall.corners).map (· + base) := by rw [hn.indices_eq]
    _ = (n.calls.map (DrawCall.shift base)).flatMap DrawCall.corners := by
        rw [List.map_flatMap, List.flatMap_map]
        simp only [DrawCall.corners_shift]

/-- Two consistent meshes one after the other are consistent. -/
theorem appended (hm : m.Consistent) (hn : n.Consistent) (h : Appendable m n) :
    (m.appended n).Consistent where
  data_size := by
    simp only [Mesh.appended, Array.size_append, hm.data_size, hn.data_size, h.stride_eq,
      Nat.mul_add]
  vertexCount_eq := by
    simp only [Mesh.appended, DrawCall.vertexTotal_append, DrawCall.vertexTotal_map_shift,
      ← hm.vertexCount_eq, ← hn.vertexCount_eq]
  vertexCount_le := h.room
  numbered := by
    refine DrawCall.numbered_append.mpr ⟨hm.numbered, ?_⟩
    rw [← hm.vertexCount_eq]
    exact DrawCall.numbered_map_shift.mpr hn.numbered
  draws := by
    intro c hc
    rcases List.mem_append.mp hc with hc | hc
    · exact hm.draws c hc
    · obtain ⟨d, hd, rfl⟩ := List.mem_map.mp hc
      exact hn.draws d hd
  triangleCount_eq := by
    simp only [Mesh.appended, DrawCall.triangleTotal_append, DrawCall.triangleTotal_map_shift,
      ← hm.triangleCount_eq, ← hn.triangleCount_eq]
  indices_eq := by
    simp only [Mesh.appended, Array.toList_append, Array.toList_map, List.map_append,
      List.flatMap_append, hm.indices_eq, hn.shiftIndex_eq h.room]

/-- Consistent meshes are appended unless their strides differ or they have too many vertices. -/
theorem append (hm : m.Consistent) (hn : n.Consistent) :
    (m.append n = .ok (m.appended n) ∧ (m.appended n).Consistent) ∨
      (n.stride ≠ m.stride ∧
        m.append n = .error (.refused (.strideMismatch m.stride n.stride))) ∨
      (maxVertices < m.vertexCount + n.vertexCount ∧
        m.append n = .error (.refused (.tooManyVertices (m.vertexCount + n.vertexCount)))) := by
  by_cases hstride : n.stride = m.stride
  case neg =>
    refine .inr (.inl ⟨hstride, ?_⟩)
    rw [Mesh.append, if_pos hstride]
    rfl
  by_cases hroom : m.vertexCount + n.vertexCount ≤ maxVertices
  case neg =>
    refine .inr (.inr ⟨Nat.not_le.mp hroom, ?_⟩)
    have hword : checkWord 32 (m.vertexCount + n.vertexCount) =
        .ok (m.vertexCount + n.vertexCount) := by
      have := hm.vertexCount_le
      have := hn.vertexCount_le
      rw [maxVertices] at *
      exact checkWord_of_lt (by omega)
    simp only [Mesh.append, ne_eq, hstride, not_true, if_false, hword, ok_bind,
      Nat.not_le.mp hroom, if_true]
    rfl
  have happend := hm.appendable hn hstride hroom
  exact .inl ⟨append_eq_ok.mpr ⟨happend, rfl⟩, hm.appended hn happend⟩

end Consistent

/-- A display list is decoded to a consistent mesh. -/
theorem consistent_of_run {f : VertexFormat} {l : Loader} (hl : Loader.compile f = .ok l)
    {arrays : VertexArrays} {dl : List UInt8} {m : Mesh} (h : l.run arrays dl = .ok m) :
    m.Consistent := by
  obtain ⟨calls, out, hcalls, hmax, hrun, rfl⟩ := Loader.run_eq_ok h
  have hbounds := hcalls.mem_bounds
  have hindices := Loader.runPackets_indices hcalls.numbered (fun c hc => (hbounds c hc).2.1)
    (by rw [Nat.zero_add]; exact hmax) hrun
  obtain ⟨hsize, _⟩ :=
    Loader.runPackets_eq_ok (Loader.separate_of_compile hl) hcalls.numbered hrun
  refine ⟨?_, rfl, hmax, hcalls.numbered, fun c hc => (hbounds c hc).1, rfl, ?_⟩
  · simpa [Loader.emptyBuffers] using hsize
  · show out.1.toList.map UInt16.toNat = calls.flatMap DrawCall.corners
    rw [hindices]
    simp only [Loader.emptyBuffers, Array.toList_appendList, List.nil_append, List.map_map]
    refine (List.map_congr_left fun k hk => ?_).trans (List.map_id _)
    have := hcalls.numbered.corner_bounds k hk
    rw [maxVertices] at hmax
    exact toNat_toUInt16 (by omega)

end Mesh
end FixedFunction
