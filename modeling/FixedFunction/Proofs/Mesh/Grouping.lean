import FixedFunction.Proofs.Mesh.Joining
import FixedFunction.Proofs.Mesh.Reachable
import Mathlib.Data.List.Forall2

/-!
# Joining in groups

Meshes can be joined all at once, or in groups whose results are joined in turn.  Both ways number
the vertices of a mesh on from those of all meshes before it, once directly and once in two steps.

**Algorithm.**  Appending is associative where nothing is checked.  The checks are those of one
mesh after the other in either case, because what was joined passes its own checks again.

**Results.**
* `Mesh.appended_assoc`: the concatenation of meshes is associative.
* `Mesh.appendable_foldl_iff`: a joined mesh can be appended exactly if its parts can be appended
  one after the other.
* `Mesh.join_groups`: joining in groups is joining at once, and a mesh alone is joined to itself.
-/

namespace FixedFunction
namespace Mesh

variable {m n k r : Mesh} {meshes : List Mesh}

/-! ### The concatenation -/

theorem shiftIndex_shiftIndex (base count : Nat) (i : UInt16) :
    shiftIndex base (shiftIndex count i) = shiftIndex (base + count) i := by
  rw [← UInt16.toNat_inj]
  simp only [shiftIndex, Nat.toUInt16, UInt16.toNat_ofNat']
  omega

theorem shift_shift (base count : Nat) (c : DrawCall) :
    (c.shift count).shift base = c.shift (base + count) := by
  simp only [DrawCall.shift, DrawCall.mk.injEq, true_and]
  omega

/-- The concatenation of meshes is associative. -/
theorem appended_assoc (m n k : Mesh) :
    (m.appended n).appended k = m.appended (n.appended k) := by
  simp [appended, Function.comp_def, shiftIndex_shiftIndex, shift_shift, Array.append_assoc,
    Nat.add_assoc]

instance : Std.Associative appended := ⟨appended_assoc⟩

theorem foldl_appended_stride (n : Mesh) (meshes : List Mesh) :
    (meshes.foldl appended n).stride = n.stride := by
  induction meshes generalizing n with
  | nil => rfl
  | cons k meshes ih => rw [List.foldl_cons, ih, appended_stride]

/-! ### The checks -/

theorem appendable_appended_iff (hn : ∀ i, i ∈ n.indices → i.toNat < n.vertexCount)
    (h : Appendable n k) :
    Appendable m (n.appended k) ↔ Appendable m n ∧ Appendable (m.appended n) k := by
  constructor
  · intro hboth
    have hroom := hboth.room
    have htriangles := hboth.triangleCount_lt
    have hfirst : ∀ c, c ∈ n.calls ++ k.calls.map (DrawCall.shift n.vertexCount) →
        c.first + m.vertexCount < 1 <<< 32 := hboth.first_lt
    rw [appended_vertexCount] at hroom
    rw [appended_triangleCount] at htriangles
    refine ⟨⟨hboth.stride_eq, by omega, hn, ?_, by omega⟩, ⟨?_, ?_, h.index_lt, ?_, ?_⟩⟩
    · exact fun c hc => hfirst c (List.mem_append_left _ hc)
    · exact h.stride_eq.trans hboth.stride_eq
    · rwa [appended_vertexCount, Nat.add_assoc]
    · intro c hc
      have := hfirst _ (List.mem_append_right _ (List.mem_map_of_mem hc))
      rw [appended_vertexCount]
      simp only [DrawCall.shift] at this
      omega
    · rwa [appended_triangleCount, Nat.add_assoc]
  · rintro ⟨hfst, hsnd⟩
    have hroom := hsnd.room
    have htriangles := hsnd.triangleCount_lt
    rw [appended_vertexCount, Nat.add_assoc] at hroom
    rw [appended_triangleCount, Nat.add_assoc] at htriangles
    refine ⟨hfst.stride_eq, hroom, index_lt_appended hn h, ?_, htriangles⟩
    intro c hc
    rcases List.mem_append.mp hc with hc | hc
    · exact hfst.first_lt c hc
    · obtain ⟨d, hd, rfl⟩ := List.mem_map.mp hc
      have := hsnd.first_lt d hd
      rw [appended_vertexCount] at this
      simp only [DrawCall.shift]
      omega

/-- A joined mesh can be appended exactly if its parts can be appended one after the other. -/
theorem appendable_foldl_iff (hn : ∀ i, i ∈ n.indices → i.toNat < n.vertexCount)
    (h : Joinable n meshes) :
    Appendable m (meshes.foldl appended n) ↔ Joinable m (n :: meshes) := by
  induction meshes generalizing m n with
  | nil => simp [Joinable]
  | cons k meshes ih =>
    obtain ⟨happend, hrest⟩ := h
    rw [List.foldl_cons, ih (index_lt_appended hn happend) hrest, Joinable,
      appendable_appended_iff hn happend, Joinable, Joinable, appended_assoc, and_assoc]

theorem joinable_append {meshes' : List Mesh} :
    Joinable m (meshes ++ meshes') ↔
      Joinable m meshes ∧ Joinable (meshes.foldl appended m) meshes' := by
  induction meshes generalizing m with
  | nil => simp [Joinable]
  | cons n meshes ih => rw [List.cons_append, Joinable, ih, Joinable, List.foldl_cons, and_assoc]

/-! ### Groups -/

theorem join_cons_eq_ok :
    join (n :: meshes) = .ok r ↔
      Appendable { stride := n.stride } n ∧ Joinable n meshes ∧ r = meshes.foldl appended n := by
  show (n :: meshes).foldlM append { stride := n.stride } = .ok r ↔ _
  rw [foldlM_append_eq_ok, Joinable, List.foldl_cons, appended_empty, and_assoc]

/-- What was joined from a group stands for the group. -/
theorem joinable_group {g : List Mesh} (hg : g ≠ []) (h : join g = .ok r) (m : Mesh) :
    (Joinable m g ↔ Appendable m r) ∧ g.foldl appended m = m.appended r := by
  obtain ⟨n, meshes, rfl⟩ := List.exists_cons_of_ne_nil hg
  obtain ⟨hfirst, hjoin, rfl⟩ := join_cons_eq_ok.mp h
  exact ⟨(appendable_foldl_iff hfirst.index_lt hjoin).symm, List.foldl_assoc⟩

theorem joinable_flatten {groups : List (List Mesh)} {joined : List Mesh}
    (h : List.Forall₂ (fun g m => join g = .ok m) groups joined) (hne : ∀ g, g ∈ groups → g ≠ [])
    (m : Mesh) :
    (Joinable m groups.flatten ↔ Joinable m joined) ∧
      groups.flatten.foldl appended m = joined.foldl appended m := by
  induction h generalizing m with
  | nil => exact ⟨Iff.rfl, rfl⟩
  | @cons g r groups joined hg _ ih =>
    rw [List.forall_mem_cons] at hne
    obtain ⟨happend, hfold⟩ := joinable_group hne.1 hg m
    obtain ⟨hjoin, hrest⟩ := ih hne.2 (m.appended r)
    rw [List.flatten_cons, joinable_append, happend, hfold, hjoin, List.foldl_append, hfold, hrest]
    exact ⟨Iff.rfl, rfl⟩

theorem head_stride_flatten {groups : List (List Mesh)} {joined : List Mesh}
    (h : List.Forall₂ (fun g m => join g = .ok m) groups joined)
    (hne : ∀ g, g ∈ groups → g ≠ []) :
    groups.flatten.head?.map stride = joined.head?.map stride := by
  cases h with
  | nil => rfl
  | @cons g r groups joined hg _ =>
    obtain ⟨n, meshes, rfl⟩ := List.exists_cons_of_ne_nil (hne g List.mem_cons_self)
    obtain ⟨_, _, rfl⟩ := join_cons_eq_ok.mp hg
    exact congrArg some (foldl_appended_stride n meshes).symm

/-- The numbers of a mesh are words of 32 bits. -/
structure InWords (m : Mesh) : Prop where
  vertexCount_lt : m.vertexCount < 1 <<< 32
  triangleCount_lt : m.triangleCount < 1 <<< 32
  count_lt : ∀ c, c ∈ m.calls → c.count < 1 <<< 32
  first_lt : ∀ c, c ∈ m.calls → c.first < 1 <<< 32

/-- Joining the results of groups is joining all meshes at once: one succeeds exactly if the other
does, and with the same mesh.  A mesh alone that is within itself is joined to itself. -/
theorem join_groups :
    (∀ (groups : List (List Mesh)) (joined : List Mesh), (∀ g, g ∈ groups → g ≠ []) →
      List.Forall₂ (fun g m => join g = .ok m) groups joined →
      ∀ r, join groups.flatten = .ok r ↔ join joined = .ok r) ∧
    ∀ m : Mesh, m.InWords → (∀ i, i ∈ m.indices → i.toNat < m.vertexCount) →
      m.vertexCount ≤ 65536 → join [m] = .ok m := by
  refine ⟨fun groups joined hne hjoined r => ?_, fun m hwords hindex hroom => ?_⟩
  · obtain ⟨hjoin, hfold⟩ := joinable_flatten hjoined hne
      { stride := (joined.head?.map stride).getD 0 }
    rw [join, join, head_stride_flatten hjoined hne, foldlM_append_eq_ok, foldlM_append_eq_ok,
      hjoin, hfold]
  · refine join_cons_eq_ok.mpr ⟨⟨rfl, ?_, hindex, hwords.first_lt, ?_⟩, trivial, rfl⟩
    · simpa [maxVertices] using hroom
    · simpa using hwords.triangleCount_lt

/-- Two copies of a mesh and a third one by itself, against three copies at once. -/
theorem join_groups_uneven :
    Sample.mesh.InWords ∧
    join [Sample.mesh] = .ok Sample.mesh ∧
    List.Forall₂ (fun g m => join g = .ok m) [[Sample.mesh, Sample.mesh], [Sample.mesh]]
      [Sample.twice, Sample.mesh] ∧
    ∃ r, join [Sample.twice, Sample.mesh] = .ok r ∧
      join [Sample.mesh, Sample.mesh, Sample.mesh] = .ok r := by
  have hwords : Sample.mesh.InWords := ⟨by decide, by decide, by decide, by decide⟩
  have hmesh : join [Sample.mesh] = .ok Sample.mesh :=
    join_groups.2 Sample.mesh hwords Sample.reachable_mesh.consistent.index_lt (by decide)
  have hgroups : List.Forall₂ (fun g m => join g = .ok m)
      [[Sample.mesh, Sample.mesh], [Sample.mesh]] [Sample.twice, Sample.mesh] :=
    .cons Sample.join_mesh (.cons hmesh .nil)
  have hthree : join [Sample.twice, Sample.mesh] = .ok (Sample.twice.appended Sample.mesh) := by
    decide +kernel
  refine ⟨hwords, hmesh, hgroups, _, hthree, ?_⟩
  exact (join_groups.1 _ _ (by simp) hgroups _).mpr hthree

end Mesh
end FixedFunction
