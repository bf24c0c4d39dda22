import FixedFunction.Proofs.Mesh.Consistent

/-!
# Meshes that were not put together by hand

A mesh comes from a display list, or it is joined from meshes that exist already.

**Results.**
* `Mesh.Reachable`: the meshes that exist after any number of runs and joins.
* `Mesh.Reachable.consistent`: they are all consistent.
* `Mesh.Consistent.join`: consistent meshes are joined unless their strides differ or they have too
  many vertices.
* `Mesh.reachable_agrees`: the counts, the draw calls and the index buffer of such a mesh agree, and
  joining such meshes never stops the machine.
-/

namespace FixedFunction
namespace Mesh

/-- The meshes that come from display lists, and those that are joined from such meshes. -/
inductive Reachable : Mesh → Prop
  | run {f : VertexFormat} {l : Loader} {arrays : VertexArrays} {dl : List UInt8} {m : Mesh} :
      Loader.compile f = .ok l → l.run arrays dl = .ok m → Reachable m
  | join {meshes : List Mesh} {m : Mesh} :
      (∀ n, n ∈ meshes → Reachable n) → join meshes = .ok m → Reachable m

/-- Consistent meshes are appended one after the other until their strides differ or they have too
many vertices. -/
theorem Consistent.foldlM_append {meshes : List Mesh} {m : Mesh} (hm : m.Consistent)
    (hmeshes : ∀ n, n ∈ meshes → n.Consistent) :
    (∃ r, meshes.foldlM Mesh.append m = .ok r ∧ r.Consistent) ∨
      (∃ a b, a ≠ b ∧ meshes.foldlM Mesh.append m = .error (.refused (.strideMismatch a b))) ∨
      (∃ n, maxVertices < n ∧
        meshes.foldlM Mesh.append m = .error (.refused (.tooManyVertices n))) := by
  induction meshes generalizing m with
  | nil => exact .inl ⟨m, rfl, hm⟩
  | cons n meshes ih =>
    rw [List.forall_mem_cons] at hmeshes
    rw [List.foldlM_cons]
    rcases hm.append hmeshes.1 with ⟨happend, hr⟩ | ⟨hstride, happend⟩ | ⟨hroom, happend⟩
    · rw [happend, ok_bind]
      exact ih hr hmeshes.2
    · rw [happend, error_bind]
      exact .inr (.inl ⟨_, _, hstride.symm, rfl⟩)
    · rw [happend, error_bind]
      exact .inr (.inr ⟨_, hroom, rfl⟩)

/-- Consistent meshes are joined unless their strides differ or they have too many vertices. -/
theorem Consistent.join {meshes : List Mesh} (h : ∀ n, n ∈ meshes → n.Consistent) :
    (∃ r, join meshes = .ok r ∧ r.Consistent) ∨
      (∃ a b, a ≠ b ∧ join meshes = .error (.refused (.strideMismatch a b))) ∨
      (∃ n, maxVertices < n ∧ join meshes = .error (.refused (.tooManyVertices n))) :=
  Consistent.foldlM_append (.empty _) h

/-- Runs and joins give nothing but consistent meshes. -/
theorem Reachable.consistent {m : Mesh} (h : Reachable m) : m.Consistent := by
  induction h with
  | run hl hrun => exact consistent_of_run hl hrun
  | @join meshes m _ hjoin ih =>
    rcases Consistent.join ih with ⟨r, hr, hcons⟩ | ⟨_, _, _, herr⟩ | ⟨_, _, herr⟩
    · obtain rfl : m = r := Except.ok.inj (hjoin.symm.trans hr)
      exact hcons
    · simp [herr] at hjoin
    · simp [herr] at hjoin

/-- The counts, the draw calls and the index buffer of a mesh agree, however many runs and joins it
comes from.  Joining such meshes never stops the machine, and it is refused for different strides
and for too many vertices only. -/
theorem reachable_agrees :
    (∀ m, Reachable m →
      m.data.size = m.stride * m.vertexCount ∧
      m.vertexCount = DrawCall.vertexTotal m.calls ∧
      m.vertexCount ≤ 65536 ∧
      (∀ before c after, m.calls = before ++ c :: after →
        c.first = DrawCall.vertexTotal before ∧
          (c.primitive = .triangleStrip ∨ c.primitive = .triangleFan)) ∧
      m.indices.toList.map UInt16.toNat = m.calls.flatMap DrawCall.corners ∧
      m.triangleCount = DrawCall.triangleTotal m.calls ∧
      m.indices.size = 3 * m.triangleCount ∧
      ∀ i, i ∈ m.indices → i.toNat < m.vertexCount) ∧
    (∀ meshes : List Mesh, (∀ m, m ∈ meshes → Reachable m) →
      (∃ r, join meshes = .ok r) ∨
      (∃ a b, a ≠ b ∧ join meshes = .error (.refused (.strideMismatch a b))) ∨
      (∃ n, 65536 < n ∧ join meshes = .error (.refused (.tooManyVertices n)))) := by
  constructor
  · intro m hm
    have h := hm.consistent
    refine ⟨h.data_size, h.vertexCount_eq, h.vertexCount_le, ?_, h.indices_eq,
      h.triangleCount_eq, h.indices_size, h.index_lt⟩
    intro before c after hcalls
    refine ⟨?_, h.draws c (by simp [hcalls])⟩
    rw [DrawCall.numbered_iff.mp h.numbered before c after hcalls, Nat.zero_add]
  · intro meshes hmeshes
    rcases Consistent.join fun n hn => (hmeshes n hn).consistent with ⟨r, hr, _⟩ | herr
    · exact .inl ⟨r, hr⟩
    · exact .inr herr

/-! A strip and a fan of four vertices each. -/

namespace Sample

/-- The loader of the format. -/
def loader : Loader :=
  .ofLayout (.ofEntries [⟨.pnMtxIdx, .direct, {}⟩])
    (.ofSlots [⟨.pnMtxIdx, .direct, .u8, 1, 0, 1, 0⟩])

/-- The display list. -/
def list : List UInt8 :=
  [0x98, 0, 4, 0, 3, 6, 9, 0xA0, 0, 4, 12, 15, 18, 21]

/-- The mesh of the display list. -/
def mesh : Mesh where
  indices := #[0, 1, 2, 2, 1, 3, 4, 5, 6, 4, 6, 7]
  data := #[0, 0, 0, 0, 3, 0, 0, 0, 6, 0, 0, 0, 9, 0, 0, 0,
    12, 0, 0, 0, 15, 0, 0, 0, 18, 0, 0, 0, 21, 0, 0, 0]
  stride := 4
  vertexCount := 8
  triangleCount := 4
  calls := [⟨.triangleStrip, 3, 4, 0⟩, ⟨.triangleFan, 10, 4, 4⟩]

theorem reachable_mesh : Reachable mesh := by
  have hcompile : Loader.compile loader.format = .ok loader := rfl
  have hrun : loader.run .empty list = .ok mesh := by
    decide +kernel
  exact .run hcompile hrun

/-- The mesh twice, one after the other. -/
def twice : Mesh :=
  mesh.appended mesh

theorem join_mesh : join [mesh, mesh] = .ok twice := by
  decide +kernel

theorem reachable_twice : Reachable twice := by
  have hmem : ∀ m, m ∈ [mesh, mesh] → Reachable m := by
    simp [reachable_mesh]
  exact .join hmem join_mesh

end Sample

/-- The second copy of the fan closes its triangles with its own vertices, and a third copy of the
mesh does not stop the machine. -/
theorem reachable_agrees_twice :
    Reachable Sample.twice ∧
    Sample.twice.indices.toList.map UInt16.toNat =
      [0, 1, 2, 2, 1, 3, 4, 5, 6, 4, 6, 7, 8, 9, 10, 10, 9, 11, 12, 13, 14, 12, 14, 15] ∧
    Sample.twice.indices.size = 3 * Sample.twice.triangleCount ∧
    ∀ t, join [Sample.twice, Sample.mesh] ≠ .error (.stopped t) := by
  obtain ⟨hagrees, hjoin⟩ := reachable_agrees
  obtain ⟨_, _, _, _, hindices, _, hsize, _⟩ := hagrees Sample.twice Sample.reachable_twice
  refine ⟨Sample.reachable_twice, ?_, hsize, ?_⟩
  · rw [hindices]
    decide
  · intro t ht
    have hmem : ∀ m, m ∈ [Sample.twice, Sample.mesh] → Reachable m := by
      simp [Sample.reachable_twice, Sample.reachable_mesh]
    rcases hjoin _ hmem with ⟨r, hr⟩ | ⟨a, b, _, hr⟩ | ⟨n, _, hr⟩
    all_goals simp [ht] at hr

end Mesh
end FixedFunction
