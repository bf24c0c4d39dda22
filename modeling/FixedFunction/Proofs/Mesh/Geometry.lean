import FixedFunction.Proofs.Mesh.Joining
import FixedFunction.Proofs.Mesh.Reachable

/-!
# The geometry of joined meshes

**Input.**  Meshes that are within themselves (`Mesh.WellFormed`): the buffer holds the vertices
that the mesh counts, and the indices are triples of numbers of these.

**Invariant.**  Appending a mesh moves no byte of the vertices before it, and its own vertices
follow with numbers that have moved by as many vertices as there were.  The indices move by the
same number, so each corner of a triangle keeps the bytes of its vertex.

**Results.**
* `Mesh.vertex_eq_ok`: the bytes of a vertex as a function.
* `Mesh.vertexBytes_appended_left`, `Mesh.vertexBytes_appended_right`,
  `Mesh.faceBytes_appended`: one step.
* `Mesh.Keeps`, `Mesh.keeps_foldl`: all steps.
* `Mesh.join_geometry`: the vertices and triangles of the joined mesh, and when there is one.
-/

namespace FixedFunction
namespace Mesh

/-! ### Triples -/

/-- Three values made from the parts of a triple. -/
def mapTriple {α β : Type} (f : α → β) (t : α × α × α) : β × β × β :=
  (f t.1, f t.2.1, f t.2.2)

section Triples

variable {α β : Type}

theorem triples_map (f : α → β) : ∀ l : List α, triples (l.map f) = (triples l).map (mapTriple f)
  | [] | [_] | [_, _] => rfl
  | a :: b :: c :: l => congrArg ((f a, f b, f c) :: ·) (triples_map f l)

theorem triples_append : ∀ {l : List α} (l' : List α), 3 ∣ l.length →
    triples (l ++ l') = triples l ++ triples l'
  | [], _, _ => rfl
  | [_], _, h | [_, _], _, h => by simp at h
  | a :: b :: c :: l, l', h => by
    have hl : 3 ∣ l.length := by
      simp only [List.length_cons] at h
      omega
    exact congrArg ((a, b, c) :: ·) (triples_append l' hl)

theorem mem_of_mem_triples : ∀ {l : List α} {t : α × α × α}, t ∈ triples l →
    t.1 ∈ l ∧ t.2.1 ∈ l ∧ t.2.2 ∈ l
  | a :: b :: c :: l, t, h => by
    rcases List.mem_cons.mp h with rfl | h
    · simp
    · obtain ⟨h₁, h₂, h₃⟩ := mem_of_mem_triples h
      simp [h₁, h₂, h₃]

end Triples

/-! ### Vertices and faces -/

/-- A mesh that is within itself. -/
structure WellFormed (m : Mesh) : Prop where
  data_size : m.data.size = m.stride * m.vertexCount
  index_lt : ∀ i, i ∈ m.indices → i.toNat < m.vertexCount
  indices_size : 3 ∣ m.indices.size

theorem Consistent.wellFormed {m : Mesh} (h : m.Consistent) : m.WellFormed where
  data_size := h.data_size
  index_lt := h.index_lt
  indices_size := ⟨m.triangleCount, h.indices_size⟩

/-- The triangles of a mesh with the bytes of their corners. -/
def faces (m : Mesh) : Except Failure (List (List UInt8 × List UInt8 × List UInt8)) :=
  m.triangles.mapM fun t =>
    return (← m.vertex t.1.toNat, ← m.vertex t.2.1.toNat, ← m.vertex t.2.2.toNat)

/-- The bytes of a vertex, as far as they are in the buffer. -/
def vertexBytes (m : Mesh) (i : Nat) : List UInt8 :=
  (m.data.extract (i * m.stride) (i * m.stride + m.stride)).toList

/-- The triangles with the bytes of their corners, as far as they are in the buffer. -/
def faceBytes (m : Mesh) : List (List UInt8 × List UInt8 × List UInt8) :=
  m.triangles.map (mapTriple fun i => m.vertexBytes i.toNat)

/-- A vertex ends within the vertices that it is counted with. -/
theorem vertex_stop_le {i count : Nat} (h : i < count) (stride : Nat) :
    i * stride + stride ≤ stride * count := by
  rw [← Nat.succ_mul, Nat.mul_comm stride]
  exact Nat.mul_le_mul_right stride h

theorem vertex_eq_ok {m : Mesh} (h : m.data.size = m.stride * m.vertexCount)
    (hmemory : m.data.size < 1 <<< 64) {i : Nat} (hi : i < m.vertexCount) :
    m.vertex i = .ok (m.vertexBytes i) := by
  have hstop := vertex_stop_le hi m.stride
  rw [← h] at hstop
  rw [vertex, checkWord_of_lt (by omega), ok_bind, checkWord_of_lt (by omega), ok_bind,
    if_pos hstop]
  rfl

theorem WellFormed.faces_eq_ok {m : Mesh} (h : m.WellFormed) (hmemory : m.data.size < 1 <<< 64) :
    m.faces = .ok m.faceBytes := by
  have hvertex : ∀ i, i ∈ m.indices.toList → m.vertex i.toNat = .ok (m.vertexBytes i.toNat) :=
    fun i hi => vertex_eq_ok h.data_size hmemory (h.index_lt i (Array.mem_toList_iff.mp hi))
  refine mapM_of_ok fun t ht => ?_
  obtain ⟨h₁, h₂, h₃⟩ := mem_of_mem_triples ht
  rw [hvertex _ h₁, ok_bind, hvertex _ h₂, ok_bind, hvertex _ h₃, ok_bind]
  rfl

theorem faceBytes_eq (m : Mesh) :
    m.faceBytes = triples (m.indices.toList.map fun i => m.vertexBytes i.toNat) :=
  (triples_map _ _).symm

/-! ### One step -/

section Step

variable {m n : Mesh}

theorem vertexBytes_appended_left (h : m.data.size = m.stride * m.vertexCount) {i : Nat}
    (hi : i < m.vertexCount) : (m.appended n).vertexBytes i = m.vertexBytes i := by
  have hstop := vertex_stop_le hi m.stride
  rw [← h] at hstop
  simp only [vertexBytes, appended]
  rw [Array.extract_append, Nat.sub_eq_zero_of_le hstop]
  simp

theorem vertexBytes_appended_right (h : m.data.size = m.stride * m.vertexCount)
    (hstride : n.stride = m.stride) (i : Nat) :
    (m.appended n).vertexBytes (i + m.vertexCount) = n.vertexBytes i := by
  have hstart : (i + m.vertexCount) * m.stride = i * m.stride + m.data.size := by
    rw [Nat.add_mul, h, Nat.mul_comm m.stride]
  simp only [vertexBytes, appended, hstart, hstride]
  rw [Array.extract_append, Nat.add_sub_cancel, Nat.add_right_comm, Nat.add_sub_cancel,
    Array.extract_empty_of_size_le_start (Nat.le_add_left ..), Array.empty_append]

theorem WellFormed.appended (hm : m.WellFormed) (hn : n.WellFormed) (h : Appendable m n) :
    (m.appended n).WellFormed where
  data_size := by
    simp only [Mesh.appended, Array.size_append, hm.data_size, hn.data_size, h.stride_eq,
      Nat.mul_add]
  index_lt := index_lt_appended hm.index_lt h
  indices_size := by
    have := hm.indices_size
    have := hn.indices_size
    simp only [Mesh.appended, Array.size_append, Array.size_map]
    omega

/-- The triangles of a mesh that is appended follow those before it, corner by corner with the
same bytes. -/
theorem faceBytes_appended (hm : m.WellFormed) (hn : n.WellFormed) (h : Appendable m n) :
    (m.appended n).faceBytes = m.faceBytes ++ n.faceBytes := by
  have hold : ∀ i, i ∈ m.indices.toList →
      (m.appended n).vertexBytes i.toNat = m.vertexBytes i.toNat := fun i hi =>
    vertexBytes_appended_left hm.data_size (hm.index_lt i (Array.mem_toList_iff.mp hi))
  have hnew : (n.indices.toList.map (shiftIndex m.vertexCount)).map (fun i =>
      (m.appended n).vertexBytes i.toNat) = n.indices.toList.map fun i => n.vertexBytes i.toNat := by
    rw [List.map_map]
    refine List.map_congr_left fun i hi => ?_
    rw [Function.comp_apply, toNat_shiftIndex h.room (hn.index_lt i (Array.mem_toList_iff.mp hi))]
    exact vertexBytes_appended_right hm.data_size h.stride_eq i.toNat
  have hindices : (m.appended n).indices.toList =
      m.indices.toList ++ n.indices.toList.map (shiftIndex m.vertexCount) := by
    simp [appended]
  rw [faceBytes_eq, faceBytes_eq, faceBytes_eq, hindices, List.map_append, hnew,
    List.map_congr_left hold]
  exact triples_append _ (by simpa using hm.indices_size)

end Step

/-! ### All steps -/

/-- What a mesh `r` has of `m` and of the meshes that were appended to it. -/
structure Keeps (m r : Mesh) (meshes : List Mesh) : Prop where
  wellFormed : r.WellFormed
  vertexCount_eq : r.vertexCount = m.vertexCount + countTotal meshes
  data_le : m.data.size ≤ r.data.size ∧ ∀ n, n ∈ meshes → n.data.size ≤ r.data.size
  old : ∀ i, i < m.vertexCount → r.vertexBytes i = m.vertexBytes i
  new : ∀ before n after, meshes = before ++ n :: after → ∀ i, i < n.vertexCount →
    r.vertexBytes (m.vertexCount + countTotal before + i) = n.vertexBytes i
  faceBytes_eq : r.faceBytes = m.faceBytes ++ meshes.flatMap faceBytes

theorem keeps_foldl {meshes : List Mesh} {m : Mesh} (hm : m.WellFormed)
    (hwell : ∀ n, n ∈ meshes → n.WellFormed) (h : Joinable m meshes) :
    Keeps m (meshes.foldl appended m) meshes := by
  induction meshes generalizing m with
  | nil => exact ⟨hm, rfl, by simp, fun _ _ => rfl, by simp, by simp⟩
  | cons n meshes ih =>
    rw [List.forall_mem_cons] at hwell
    have hkeeps := ih (hm.appended hwell.1 h.1) hwell.2 h.2
    have hsize : (m.appended n).data.size = m.data.size + n.data.size := Array.size_append
    have hle := hkeeps.data_le
    rw [hsize] at hle
    refine ⟨hkeeps.wellFormed, ?_, ?_, ?_, ?_, ?_⟩
    · rw [List.foldl_cons, hkeeps.vertexCount_eq, appended_vertexCount, countTotal_cons,
        Nat.add_assoc]
    · rw [List.foldl_cons, List.forall_mem_cons]
      exact ⟨by omega, by omega, hle.2⟩
    · intro i hi
      rw [List.foldl_cons, hkeeps.old i (by rw [appended_vertexCount]; omega)]
      exact vertexBytes_appended_left hm.data_size hi
    · rintro (_ | ⟨_, before⟩) k after hsplit i hi
      · obtain ⟨rfl, rfl⟩ := List.cons.inj hsplit
        rw [List.foldl_cons, countTotal_nil, Nat.add_zero, Nat.add_comm,
          hkeeps.old _ (by rw [appended_vertexCount]; omega)]
        exact vertexBytes_appended_right hm.data_size h.1.stride_eq i
      · obtain ⟨rfl, rfl⟩ := List.cons.inj hsplit
        rw [List.foldl_cons, countTotal_cons, ← Nat.add_assoc]
        exact hkeeps.new before k after rfl i hi
    · rw [List.foldl_cons, hkeeps.faceBytes_eq, faceBytes_appended hm hwell.1 h.1,
        List.flatMap_cons, List.append_assoc]

/-- All strides are the first one exactly if they are all equal. -/
theorem stride_eq_head_iff (meshes : List Mesh) :
    (∀ n, n ∈ meshes → n.stride = (meshes.head?.map stride).getD 0) ↔
      ∀ m, m ∈ meshes → ∀ n, n ∈ meshes → m.stride = n.stride := by
  constructor
  · intro h m hm n hn
    rw [h m hm, h n hn]
  · intro h n hn
    cases meshes with
    | nil => simp at hn
    | cons m meshes => exact h n hn m List.mem_cons_self

/-- A joined mesh has the vertices of the meshes one after the other, byte by byte, and their
triangles one after the other, corner by corner with the same bytes.  A mesh is joined unless
strides differ or there are more vertices than indices can number, where the other counts fit their
words.  No buffer is larger than the memory. -/
theorem join_geometry {meshes : List Mesh} (hwell : ∀ m, m ∈ meshes → m.WellFormed) :
    (∀ r, join meshes = .ok r → r.data.size < 1 <<< 64 →
      (∀ before n after, meshes = before ++ n :: after → ∀ i, i < n.vertexCount →
        ∃ bytes, n.vertex i = .ok bytes ∧ r.vertex (countTotal before + i) = .ok bytes) ∧
      ∃ parts, meshes.mapM faces = .ok parts ∧ r.faces = .ok parts.flatten) ∧
    (triangleSum meshes < 1 <<< 32 →
      (∀ before n after, meshes = before ++ n :: after →
        ∀ c, c ∈ n.calls → c.first + countTotal before < 1 <<< 32) →
      ((∃ r, join meshes = .ok r) ↔
        (∀ m, m ∈ meshes → ∀ n, n ∈ meshes → m.stride = n.stride) ∧
          countTotal meshes ≤ 65536)) := by
  constructor
  · intro r hr hmemory
    obtain ⟨hjoin, hfold⟩ := foldlM_append_eq_ok.mp hr
    have hkeeps := keeps_foldl ⟨rfl, by simp, by simp⟩ hwell hjoin
    rw [← hfold] at hkeeps
    have hsmall : ∀ n, n ∈ meshes → n.data.size < 1 <<< 64 := fun n hn =>
      Nat.lt_of_le_of_lt (hkeeps.data_le.2 n hn) hmemory
    constructor
    · rintro before n after rfl i hi
      have hn : n ∈ before ++ n :: after := List.mem_append_right _ List.mem_cons_self
      have hlt : countTotal before + i < r.vertexCount := by
        rw [hkeeps.vertexCount_eq, countTotal_append, countTotal_cons]
        omega
      refine ⟨n.vertexBytes i, vertex_eq_ok (hwell n hn).data_size (hsmall n hn) hi, ?_⟩
      rw [vertex_eq_ok hkeeps.wellFormed.data_size hmemory hlt, ← hkeeps.new before n after rfl i hi,
        Nat.zero_add]
    · refine ⟨meshes.map faceBytes, ?_, ?_⟩
      · exact mapM_of_ok fun n hn => (hwell n hn).faces_eq_ok (hsmall n hn)
      · rw [hkeeps.wellFormed.faces_eq_ok hmemory, hkeeps.faceBytes_eq]
        rfl
  · intro htriangles hcalls
    have hfit : CallsFit 0 meshes := by
      intro before n after hsplit c hc
      rw [Nat.zero_add]
      exact hcalls before n after hsplit c hc
    have hiff := @joinable_iff meshes { stride := (meshes.head?.map stride).getD 0 }
      (Nat.zero_le _) (fun n hn => (hwell n hn).index_lt) (by simpa using htriangles) hfit
    rw [stride_eq_head_iff, Nat.zero_add] at hiff
    rw [← maxVertices, ← hiff]
    constructor
    · rintro ⟨r, hr⟩
      exact (foldlM_append_eq_ok.mp hr).1
    · intro hjoin
      exact ⟨_, foldlM_append_eq_ok.mpr ⟨hjoin, rfl⟩⟩

/-- The fourth vertex of the second copy of a mesh, and as many vertices as indices can number with
a mesh behind them that has none. -/
theorem join_geometry_twice :
    join [Sample.mesh, Sample.mesh] = .ok Sample.twice ∧
    (∃ bytes, Sample.mesh.vertex 3 = .ok bytes ∧ Sample.twice.vertex (8 + 3) = .ok bytes) ∧
    (∃ parts, [Sample.mesh, Sample.mesh].mapM faces = .ok parts ∧
      Sample.twice.faces = .ok parts.flatten) ∧
    ∃ r, join [{ vertexCount := 65536 }, {}] = .ok r := by
  have hmesh : ∀ m, m ∈ [Sample.mesh, Sample.mesh] → m.WellFormed := by
    simp [Sample.reachable_mesh.consistent.wellFormed]
  have hfull : ∀ m, m ∈ [({ vertexCount := 65536 } : Mesh), {}] → m.WellFormed := by
    rw [List.forall_mem_cons, List.forall_mem_singleton]
    exact ⟨⟨rfl, by simp, by simp⟩, ⟨rfl, by simp, by simp⟩⟩
  have hcalls : ∀ n, n ∈ [({ vertexCount := 65536 } : Mesh), {}] → n.calls = [] := by
    simp
  obtain ⟨hvertices, hfaces⟩ :=
    (join_geometry hmesh).1 Sample.twice Sample.join_mesh (by decide +kernel)
  refine ⟨Sample.join_mesh, hvertices [Sample.mesh] Sample.mesh [] rfl 3 (by decide), hfaces, ?_⟩
  refine ((join_geometry hfull).2 (by decide) ?_).mpr ⟨?_, by decide⟩
  · rintro before n after hsplit c hc
    rw [hcalls n (by simp [hsplit])] at hc
    contradiction
  · simp

end Mesh
end FixedFunction
