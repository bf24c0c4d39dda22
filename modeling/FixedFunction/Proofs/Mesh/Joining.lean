import FixedFunction.Proofs.Mesh.Append

/-!
# Joining any number of meshes

**Algorithm.**  Meshes are appended one after the other, and each step checks what it appends
against the vertices and triangles so far.

**Results.**
* `Mesh.foldlM_append_eq_ok`: where every check succeeds, the joined mesh is the plain
  concatenation.
* `Mesh.joinable_iff_fits`: the checks of all steps are checks of the sums (`Mesh.Fits`).
* `Mesh.joinable_iff`: for meshes that are within themselves and whose counts fit, the checks come
  down to equal strides and to the limit on the number of vertices.
-/

namespace FixedFunction
namespace Mesh

/-- Number of vertices of the given meshes. -/
def countTotal (meshes : List Mesh) : Nat :=
  meshes.foldr (fun m n => m.vertexCount + n) 0

/-- Number of triangles that the given meshes have according to their fields. -/
def triangleSum (meshes : List Mesh) : Nat :=
  meshes.foldr (fun m n => m.triangleCount + n) 0

@[simp]
theorem countTotal_nil : countTotal [] = 0 := rfl

@[simp]
theorem countTotal_cons (m : Mesh) (meshes : List Mesh) :
    countTotal (m :: meshes) = m.vertexCount + countTotal meshes := rfl

@[simp]
theorem countTotal_append (meshes meshes' : List Mesh) :
    countTotal (meshes ++ meshes') = countTotal meshes + countTotal meshes' := by
  induction meshes with
  | nil => simp
  | cons m meshes ih => simp [ih, Nat.add_assoc]

@[simp]
theorem triangleSum_cons (m : Mesh) (meshes : List Mesh) :
    triangleSum (m :: meshes) = m.triangleCount + triangleSum meshes := rfl

/-- Each of the meshes can be appended to `m` with those before it. -/
def Joinable (m : Mesh) : List Mesh → Prop
  | [] => True
  | n :: meshes => Appendable m n ∧ Joinable (m.appended n) meshes

theorem foldlM_append_eq_ok {meshes : List Mesh} {m r : Mesh} :
    meshes.foldlM append m = .ok r ↔ Joinable m meshes ∧ r = meshes.foldl appended m := by
  induction meshes generalizing m with
  | nil => simp [Joinable, pure, Except.pure, eq_comm]
  | cons n meshes ih =>
    rw [List.foldlM_cons, bind_eq_ok, List.foldl_cons, Joinable]
    constructor
    · rintro ⟨s, hs, h⟩
      obtain ⟨happend, rfl⟩ := append_eq_ok.mp hs
      obtain ⟨hjoin, hr⟩ := ih.mp h
      exact ⟨⟨happend, hjoin⟩, hr⟩
    · rintro ⟨⟨happend, hjoin⟩, hr⟩
      exact ⟨_, append_eq_ok.mpr ⟨happend, rfl⟩, ih.mpr ⟨hjoin, hr⟩⟩

/-- The first vertices of all draw calls fit a word after they are numbered on from `base`. -/
def CallsFit (base : Nat) (meshes : List Mesh) : Prop :=
  ∀ before n after, meshes = before ++ n :: after →
    ∀ c, c ∈ n.calls → c.first + (base + countTotal before) < 1 <<< 32

theorem CallsFit.head {base : Nat} {n : Mesh} {meshes : List Mesh}
    (h : CallsFit base (n :: meshes)) : ∀ c, c ∈ n.calls → c.first + base < 1 <<< 32 :=
  h [] n meshes rfl

theorem CallsFit.tail {base : Nat} {n : Mesh} {meshes : List Mesh}
    (h : CallsFit base (n :: meshes)) : CallsFit (base + n.vertexCount) meshes := by
  rintro before k after rfl c hc
  have := h (n :: before) k after rfl c hc
  rwa [countTotal_cons, ← Nat.add_assoc base] at this

theorem CallsFit.cons {base : Nat} {n : Mesh} {meshes : List Mesh}
    (hhead : ∀ c, c ∈ n.calls → c.first + base < 1 <<< 32)
    (htail : CallsFit (base + n.vertexCount) meshes) : CallsFit base (n :: meshes) := by
  rintro (_ | ⟨_, before⟩) k after hsplit c hc
  · obtain ⟨rfl, rfl⟩ := List.cons.inj hsplit
    exact hhead c hc
  · obtain ⟨rfl, rfl⟩ := List.cons.inj hsplit
    rw [countTotal_cons, ← Nat.add_assoc base]
    exact htail before k after rfl c hc

/-- What is checked of meshes that are appended to `base` vertices and `triangles` triangles, apart
from their strides. -/
structure Fits (base triangles : Nat) (meshes : List Mesh) : Prop where
  index_lt : ∀ n, n ∈ meshes → ∀ i, i ∈ n.indices → i.toNat < n.vertexCount
  room : base + countTotal meshes ≤ maxVertices
  calls : CallsFit base meshes
  triangles_lt : triangles + triangleSum meshes < 1 <<< 32

/-- The checks of all steps come down to checks of the sums. -/
theorem joinable_iff_fits {meshes : List Mesh} {m : Mesh} (hm : m.vertexCount ≤ maxVertices)
    (ht : m.triangleCount < 1 <<< 32) :
    Joinable m meshes ↔
      (∀ n, n ∈ meshes → n.stride = m.stride) ∧ Fits m.vertexCount m.triangleCount meshes := by
  induction meshes generalizing m with
  | nil =>
    refine ⟨fun _ => ⟨by simp, by simp, hm, ?_, ht⟩, fun _ => trivial⟩
    rintro (_ | _) n after hsplit <;> simp at hsplit
  | cons n meshes ih =>
    rw [Joinable, List.forall_mem_cons]
    constructor
    · rintro ⟨happend, hrest⟩
      obtain ⟨hstride, hfits⟩ := (ih happend.room happend.triangleCount_lt).mp hrest
      refine ⟨⟨happend.stride_eq, hstride⟩, ?_, ?_, .cons happend.first_lt hfits.calls, ?_⟩
      · exact List.forall_mem_cons.mpr ⟨happend.index_lt, hfits.index_lt⟩
      · rw [countTotal_cons, ← Nat.add_assoc]
        exact hfits.room
      · rw [triangleSum_cons, ← Nat.add_assoc]
        exact hfits.triangles_lt
    · rintro ⟨⟨hn, hstride⟩, hindex, hroom, hcalls, htriangles⟩
      rw [List.forall_mem_cons] at hindex
      rw [countTotal_cons, ← Nat.add_assoc] at hroom
      rw [triangleSum_cons, ← Nat.add_assoc] at htriangles
      -- The first mesh fits because the sums with all meshes do.
      have happend : Appendable m n := ⟨hn, by omega, hindex.1, hcalls.head, by omega⟩
      exact ⟨happend, (ih happend.room happend.triangleCount_lt).mpr
        ⟨hstride, hindex.2, hroom, hcalls.tail, htriangles⟩⟩

/-- For meshes that are within themselves and whose counts fit, only the strides and the number of
vertices are left to check. -/
theorem joinable_iff {meshes : List Mesh} {m : Mesh} (hm : m.vertexCount ≤ maxVertices)
    (hindex : ∀ n, n ∈ meshes → ∀ i, i ∈ n.indices → i.toNat < n.vertexCount)
    (htriangles : m.triangleCount + triangleSum meshes < 1 <<< 32)
    (hcalls : CallsFit m.vertexCount meshes) :
    Joinable m meshes ↔
      (∀ n, n ∈ meshes → n.stride = m.stride) ∧
        m.vertexCount + countTotal meshes ≤ maxVertices := by
  rw [joinable_iff_fits hm (by omega)]
  refine and_congr_right fun _ => ⟨Fits.room, fun hroom => ?_⟩
  exact ⟨hindex, hroom, hcalls, htriangles⟩

end Mesh
end FixedFunction
