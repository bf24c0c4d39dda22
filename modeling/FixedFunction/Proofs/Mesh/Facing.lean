import FixedFunction.Proofs.Loader.SingleVertex
import FixedFunction.Proofs.Mesh.Geometry
import Mathlib.Data.List.Chain

/-!
# The surface of a draw call

The order of the corners of a triangle says which of its sides is the front.  Two triangles that
share an edge face the same side if they go along it in opposite directions.

**Input.**  A mesh that a display list is decoded to, and one of its draw calls.

**Results.**
* `Triangle.Adjoins`: two triangles share one edge and face the same side.
* `Surface`: triangles that cover the vertices of a strip or a fan, all with the same facing.
* `DrawCall.surface`: the triangles of a call are a surface.
* `Mesh.surface_of_run`: each call has its own part of the triangles of the mesh, which is a surface
  of the vertices of this call.
-/

namespace FixedFunction

namespace Triangle

/-- The edges of a triangle, each from one corner to the next. -/
def edges (t : Triangle) : List (Nat × Nat) :=
  [(t.1, t.2.1), (t.2.1, t.2.2), (t.2.2, t.1)]

/-- Two triangles share exactly one edge, and go along it in opposite directions. -/
structure Adjoins (t u : Triangle) : Prop where
  shared : ∃! e, e ∈ t.edges ∧ e.swap ∈ u.edges
  opposed : ∀ e ∈ t.edges, e ∉ u.edges

variable {t : Triangle} {a b k : Nat}

theorem mem_toList : k ∈ t.toList ↔ k = t.1 ∨ k = t.2.1 ∨ k = t.2.2 := by
  simp [toList]

theorem nodup_toList : t.toList.Nodup ↔ t.1 ≠ t.2.1 ∧ t.1 ≠ t.2.2 ∧ t.2.1 ≠ t.2.2 := by
  simp [toList, and_assoc]

theorem mem_edges : (a, b) ∈ t.edges ↔
    a = t.1 ∧ b = t.2.1 ∨ a = t.2.1 ∧ b = t.2.2 ∨ a = t.2.2 ∧ b = t.1 := by
  simp only [edges, List.mem_cons, Prod.mk.injEq, List.not_mem_nil, or_false]

end Triangle

/-- Triangles that cover `count` vertices from `first` on, one after the other. -/
structure Surface (first count : Nat) (ts : List Triangle) : Prop where
  length : ts.length = count - 2
  nodup : ∀ t ∈ ts, t.toList.Nodup
  bounds : ∀ t ∈ ts, ∀ k ∈ t.toList, first ≤ k ∧ k < first + count
  head : ts.head? = some (first, first + 1, first + 2)
  adjoin : ts.IsChain Triangle.Adjoins
  /-- No two triangles go along an edge in the same direction. -/
  facing : ts.Pairwise fun t u => ∀ e ∈ t.edges, e ∉ u.edges
  covers : ∀ k, first ≤ k → k < first + count → ∃ t ∈ ts, k ∈ t.toList

section ClosedBy

open Triangle (mem_toList nodup_toList mem_edges)

variable {p : Primitive} {first i j : Nat}

/-- Only strips are not closed like fans. -/
theorem closedBy_cases (p : Primitive) (first : Nat) : p = .triangleStrip ∨
    ∀ i, closedBy p first i = (first, first + i - 1, first + i) := by
  cases p <;> simp [closedBy]

theorem closedBy_two (p : Primitive) (first : Nat) :
    closedBy p first 2 = (first, first + 1, first + 2) := by
  cases p <;> rfl

theorem nodup_closedBy (hi : 2 ≤ i) : (closedBy p first i).toList.Nodup := by
  rw [nodup_toList]
  rcases closedBy_cases p first with rfl | hfan
  · simp only [closedBy]
    split <;> simp only <;> omega
  · simp only [hfan]
    omega

theorem mem_closedBy (p : Primitive) (first i : Nat) :
    first + i ∈ (closedBy p first i).toList := by
  rw [mem_toList]
  unfold closedBy
  split
  · split <;> simp
  · simp

/-- No two triangles of a strip or a fan go along an edge in the same direction. -/
theorem closedBy_opposed (hi : 2 ≤ i) (hij : i < j) :
    ∀ e ∈ (closedBy p first i).edges, e ∉ (closedBy p first j).edges := by
  rintro ⟨a, b⟩ ht hu
  rw [mem_edges] at ht hu
  rcases closedBy_cases p first with rfl | hfan
  · simp only [closedBy] at ht hu
    split at ht <;> split at hu <;> simp only at ht hu <;> omega
  · simp only [hfan] at ht hu
    omega

/-- The edge that two consecutive triangles share: a strip goes on from the last edge, and a fan
from the edge that leads back to its first vertex. -/
def sharedEdge (p : Primitive) (first i : Nat) : Nat × Nat :=
  match p with
  | .triangleStrip =>
    if i % 2 = 1 then (first + i, first + i - 1) else (first + i - 1, first + i)
  | _ => (first + i, first)

theorem mem_edges_closedBy_iff (hi : 2 ≤ i) (e : Nat × Nat) :
    e ∈ (closedBy p first i).edges ∧ e.swap ∈ (closedBy p first (i + 1)).edges ↔
      e = sharedEdge p first i := by
  obtain ⟨a, b⟩ := e
  rw [Prod.swap_prod_mk, mem_edges, mem_edges]
  unfold closedBy sharedEdge
  split
  · split <;> split <;> simp only [Prod.mk.injEq] <;> omega
  · simp only [Prod.mk.injEq]
    omega

theorem closedBy_adjoins (hi : 2 ≤ i) :
    Triangle.Adjoins (closedBy p first i) (closedBy p first (i + 1)) where
  shared := by
    simp only [mem_edges_closedBy_iff hi]
    exact ⟨_, rfl, fun _ h => h⟩
  opposed := closedBy_opposed hi (Nat.lt_succ_self i)

end ClosedBy

namespace DrawCall

/-- The triangles of a call with at least three vertices are a surface of these. -/
theorem surface {c : DrawCall} (h : 3 ≤ c.count) :
    Surface c.first c.count c.triangles := by
  have hmem : ∀ t ∈ c.triangles, ∃ i, 2 ≤ i ∧ i < c.count ∧
      closedBy c.primitive c.first i = t := by
    intro t ht
    obtain ⟨i, hi, rfl⟩ := List.mem_map.mp ht
    rw [List.mem_range'_1] at hi
    exact ⟨i, hi.1, by omega, rfl⟩
  have hclosed : ∀ i, 2 ≤ i → i < c.count →
      closedBy c.primitive c.first i ∈ c.triangles := fun i hi hlt =>
    List.mem_map_of_mem (List.mem_range'_1.mpr ⟨hi, by omega⟩)
  have hpairs : (List.range' 2 (c.count - 2)).Pairwise (· < ·) := List.pairwise_lt_range'
  constructor
  case length => exact c.length_triangles
  case nodup =>
    intro t ht
    obtain ⟨i, hi, -, rfl⟩ := hmem t ht
    exact nodup_closedBy hi
  case bounds => exact fun t ht k hk => c.corner_bounds k (List.mem_flatMap.mpr ⟨t, ht, hk⟩)
  case head =>
    obtain ⟨n, hn⟩ : ∃ n, c.count - 2 = n + 1 := ⟨c.count - 3, by omega⟩
    rw [triangles, hn, List.range'_succ, List.map_cons, List.head?_cons, closedBy_two]
  case adjoin =>
    refine List.isChain_iff_getElem.mpr fun i hi => ?_
    simp only [triangles, List.getElem_map, List.getElem_range', Nat.one_mul]
    exact closedBy_adjoins (Nat.le_add_right 2 i)
  case facing =>
    refine List.pairwise_map.mpr (hpairs.imp_of_mem fun hi _ hij => ?_)
    exact closedBy_opposed (List.mem_range'_1.mp hi).1 hij
  case covers =>
    intro k hfirst hlast
    obtain ⟨i, rfl⟩ := Nat.exists_eq_add_of_le hfirst
    rcases Nat.lt_or_ge i 2 with hi | hi
    · -- The first two vertices close no triangle, but the third one closes a triangle with them.
      refine ⟨_, hclosed 2 (Nat.le_refl 2) h, ?_⟩
      rw [closedBy_two, Triangle.mem_toList]
      simp only
      omega
    · exact ⟨_, hclosed i hi (by omega), mem_closedBy c.primitive c.first i⟩

theorem length_flatMap_triangles (calls : List DrawCall) :
    (calls.flatMap triangles).length = triangleTotal calls := by
  induction calls with
  | nil => rfl
  | cons c calls ih =>
    rw [List.flatMap_cons, List.length_append, ih, length_triangles, triangleTotal_cons]

/-- The vertices of a call are those of no other call. -/
theorem Numbered.apart {first : Nat} {before after : List DrawCall} {c : DrawCall}
    (h : Numbered first (before ++ c :: after)) :
    ∀ d ∈ before ++ after, d.first + d.count ≤ c.first ∨ c.first + c.count ≤ d.first := by
  obtain ⟨hbefore, hc, hafter⟩ := numbered_append.mp h
  intro d hd
  rcases List.mem_append.mp hd with hd | hd
  · have := hbefore.bounds d hd
    omega
  · have := hafter.bounds d hd
    omega

end DrawCall

namespace Mesh

theorem triples_flatMap_toList (ts : List Triangle) :
    triples (ts.flatMap Triangle.toList) = ts := by
  induction ts with
  | nil => rfl
  | cons t ts ih => exact congrArg (t :: ·) ih

/-- The triangles of a mesh are those of its calls, one call after the other. -/
theorem Consistent.triangles_eq {m : Mesh} (h : m.Consistent) :
    m.triangles.map (mapTriple UInt16.toNat) = m.calls.flatMap DrawCall.triangles := by
  rw [triangles, ← triples_map, h.indices_eq, ← triples_flatMap_toList (m.calls.flatMap _),
    List.flatMap_assoc]
  rfl

/-- The triangles of a mesh that a display list is decoded to consist of one part for each of its
draw calls.  A call with at least three vertices has as many triangles as there are vertices but
two.  They are a surface of these vertices, and have no corner among the vertices of another
call. -/
theorem surface_of_run {f : VertexFormat} {l : Loader} (hl : Loader.compile f = .ok l)
    {arrays : VertexArrays} {dl : List UInt8} {m : Mesh} (h : l.run arrays dl = .ok m) :
    l.drawCalls dl = .ok m.calls ∧
    ∀ before c after, m.calls = before ++ c :: after → 3 ≤ c.count →
      ∃ front ts back, m.triangles = front ++ ts ++ back ∧
        front.length = DrawCall.triangleTotal before ∧
        back.length = DrawCall.triangleTotal after ∧
        Surface c.first c.count (ts.map (mapTriple UInt16.toNat)) ∧
        ∀ t : Triangle, t ∈ ts.map (mapTriple UInt16.toNat) → ∀ k ∈ t.toList,
          ∀ d ∈ before ++ after, k < d.first ∨ d.first + d.count ≤ k := by
  have hm := consistent_of_run hl h
  constructor
  · obtain ⟨calls, out, hcalls, -, -, rfl⟩ := Loader.run_eq_ok h
    exact Loader.drawCalls_eq_ok_iff.mpr hcalls
  · intro before c after hcalls hcount
    have hparts : m.triangles.map (mapTriple UInt16.toNat) =
        before.flatMap DrawCall.triangles ++ c.triangles ++ after.flatMap DrawCall.triangles := by
      rw [hm.triangles_eq, hcalls, List.flatMap_append, List.flatMap_cons, List.append_assoc]
    obtain ⟨upTo, back, htriangles, hupTo, hback⟩ := List.map_eq_append_iff.mp hparts
    obtain ⟨front, ts, rfl, hfront, hts⟩ := List.map_eq_append_iff.mp hupTo
    have hsurface := DrawCall.surface hcount
    rw [← hts] at hsurface
    refine ⟨front, ts, back, htriangles, ?_, ?_, hsurface, fun t ht k hk d hd => ?_⟩
    · rw [← DrawCall.length_flatMap_triangles, ← hfront, List.length_map]
    · rw [← DrawCall.length_flatMap_triangles, ← hback, List.length_map]
    · have hnumbered := hm.numbered
      rw [hcalls] at hnumbered
      have := hsurface.bounds t ht k hk
      have := hnumbered.apart d hd
      omega

/-- The two triangles of the fan follow those of the strip. -/
theorem surface_of_run_sample :
    Sample.loader.run .empty Sample.list = .ok Sample.mesh ∧
    ∃ front ts back, Sample.mesh.triangles = front ++ ts ++ back ∧ front.length = 2 ∧
      back.length = 0 ∧ Surface 4 4 (ts.map (mapTriple UInt16.toNat)) ∧
      ∀ t : Triangle, t ∈ ts.map (mapTriple UInt16.toNat) → ∀ k ∈ t.toList, 4 ≤ k := by
  have hcompile : Loader.compile Sample.loader.format = .ok Sample.loader := rfl
  have hrun : Sample.loader.run .empty Sample.list = .ok Sample.mesh := by decide +kernel
  obtain ⟨front, ts, back, htriangles, hfront, hback, hsurface, hother⟩ :=
    (surface_of_run hcompile hrun).2 [⟨.triangleStrip, 3, 4, 0⟩] ⟨.triangleFan, 10, 4, 4⟩ [] rfl
      (by decide)
  refine ⟨hrun, front, ts, back, htriangles, hfront, hback, hsurface, fun t ht k hk => ?_⟩
  exact (hother t ht k hk ⟨.triangleStrip, 3, 4, 0⟩ List.mem_cons_self).resolve_left
    (Nat.not_lt_zero k)

end Mesh
end FixedFunction
