import FixedFunction.Proofs.Loader.Locality
import FixedFunction.Proofs.Mesh.Reachable

/-!
# Display lists one after the other

Two display lists can be run as one, or run apart and their meshes joined.  The first way numbers
the vertices of the second list on while it scans, and the second way numbers them on in the
finished mesh.

**Results.**
* `Mesh.join_pair`: two consistent meshes are joined by appending the second.
* `Loader.meshOf_append`: the mesh of two lists of calls.
* `Loader.run_append`: both ways give the same mesh, up to the places of the calls, or both find
  the same number of vertices too large.
-/

namespace FixedFunction

namespace DrawCall

theorem corners_move (n base : Nat) (c : DrawCall) :
    (c.move n base).corners = c.corners.map (· + base) :=
  corners_shift base c

@[simp]
theorem triangleTotal_map_move (n base : Nat) (calls : List DrawCall) :
    triangleTotal (calls.map (move n base)) = triangleTotal calls := by
  induction calls with
  | nil => rfl
  | cons c calls ih =>
    rw [List.map_cons, triangleTotal_cons, triangleTotal_cons, ih]
    rfl

end DrawCall

namespace Mesh

theorem shiftIndex_toUInt16 (base k : Nat) :
    shiftIndex base k.toUInt16 = (k + base).toUInt16 := by
  rw [← UInt16.toNat_inj, shiftIndex]
  simp only [Nat.toUInt16, UInt16.toNat_ofNat']
  omega

/-- Two consistent meshes are joined by appending the second. -/
theorem join_pair {m n : Mesh} (hm : m.Consistent) : join [m, n] = m.append n := by
  have hfirst : append { stride := m.stride } m = .ok m := by
    have happend := (Consistent.empty m.stride).appendable hm rfl
      (by simpa using hm.vertexCount_le)
    exact append_eq_ok.mpr ⟨happend, (appended_empty m).symm⟩
  show [m, n].foldlM append { stride := m.stride } = _
  rw [List.foldlM_cons, hfirst, ok_bind, List.foldlM_cons]
  exact bind_pure _

end Mesh

namespace Loader

open DisplayList (Commands)

variable {l : Loader}

/-- The scan of a display list succeeds and ends with the last byte, not at a zero byte. -/
def ReachesEnd (l : Loader) (dl : List UInt8) : Prop :=
  ∃ calls, l.drawCalls dl = .ok calls ∧
    DisplayList.stop l.layout.sourceStride 0 calls = dl.length

/-- The draw calls of a display list that is read to its end, followed by another. -/
theorem drawCalls_append {dl dl' : List UInt8} {calls calls' : List DrawCall}
    (h : l.drawCalls dl = .ok calls)
    (hend : DisplayList.stop l.layout.sourceStride 0 calls = dl.length)
    (h' : l.drawCalls dl' = .ok calls')
    (hfit : DrawCall.vertexTotal calls + DrawCall.vertexTotal calls' < 1 <<< 32) :
    l.drawCalls (dl ++ dl') =
      .ok (calls ++ calls'.map (DrawCall.move dl.length (DrawCall.vertexTotal calls))) := by
  rw [drawCalls_eq_ok_iff] at *
  have hmoved := h'.move dl hfit
  rw [Nat.zero_add] at hmoved
  refine h.append hend ?_
  rwa [Nat.zero_add] at hmoved ⊢

/-- The mesh of two lists of calls, the second of which is numbered on. -/
theorem meshOf_append (calls calls' : List DrawCall) (n : Nat) (data data' : Array UInt8) :
    l.meshOf (calls ++ calls'.map (DrawCall.move n (DrawCall.vertexTotal calls))) (data ++ data') =
      { (l.meshOf calls data).appended (l.meshOf calls' data') with
        calls := calls ++ calls'.map (DrawCall.move n (DrawCall.vertexTotal calls)) } := by
  simp only [meshOf, Mesh.appended, DrawCall.vertexTotal_append, DrawCall.triangleTotal_append,
    DrawCall.vertexTotal_map_move, DrawCall.triangleTotal_map_move, Mesh.mk.injEq, and_true]
  refine Array.toList_inj.mp ?_
  simp [List.flatMap_map, List.map_flatMap, DrawCall.corners_move, Mesh.shiftIndex_toUInt16,
    Function.comp_def]

/-- The vertices of two display lists, read from the one behind the other. -/
theorem packCalls_concat {arrays : VertexArrays} {dl dl' : List UInt8}
    {calls calls' : List DrawCall} (hcalls : ∀ c, c ∈ calls → c.source ≤ dl.length)
    {data data' : Array UInt8} (hdata : l.packCalls arrays dl calls = .ok data)
    (hdata' : l.packCalls arrays dl' calls' = .ok data') (base : Nat) :
    l.packCalls arrays (dl ++ dl') (calls ++ calls'.map (DrawCall.move dl.length base)) =
      .ok (data ++ data') := by
  have hkept : l.packCalls arrays (dl ++ dl') (calls.map id) = .ok data := by
    refine packCalls_mono hdata fun c hc => ⟨rfl, ?_⟩
    rw [id, List.drop_append_of_le_length (hcalls c hc)]
    exact List.prefix_append ..
  have hmoved : l.packCalls arrays (dl ++ dl') (calls'.map (DrawCall.move dl.length base)) =
      .ok data' := by
    refine packCalls_mono hdata' fun c _ => ⟨rfl, ?_⟩
    have hdrop : (dl ++ dl').drop (c.source + dl.length) = dl'.drop c.source := by
      rw [Nat.add_comm, List.drop_length_add_append]
    exact hdrop ▸ List.prefix_refl _
  rw [List.map_id] at hkept
  exact packCalls_append hkept hmoved

/-- Running one display list behind another gives what joining their two meshes gives. -/
theorem run_append {f : VertexFormat} (hl : compile f = .ok l) {arrays : VertexArrays}
    {dl dl' : List UInt8} (hend : l.ReachesEnd dl) {m m' : Mesh} (hm : l.run arrays dl = .ok m)
    (hm' : l.run arrays dl' = .ok m') :
    (∃ n, 65536 < n ∧
      l.run arrays (dl ++ dl') = .error (.refused (.tooManyVertices n)) ∧
      Mesh.join [m, m'] = .error (.refused (.tooManyVertices n))) ∨
    ∃ r, Mesh.join [m, m'] = .ok r ∧
      r.calls = m.calls ++ m'.calls.map (DrawCall.shift m.vertexCount) ∧
      l.run arrays (dl ++ dl') = .ok { r with
        calls := m.calls ++ m'.calls.map (DrawCall.move dl.length m.vertexCount) } := by
  have hcons := Mesh.consistent_of_run hl hm
  have hcons' := Mesh.consistent_of_run hl hm'
  obtain ⟨calls, data, hcalls, hmax, hdata, rfl⟩ := run_eq_ok_iff.mp hm
  obtain ⟨calls', data', hcalls', hmax', hdata', rfl⟩ := run_eq_ok_iff.mp hm'
  have hplace : ∀ c, c ∈ calls → c.source ≤ dl.length := by
    intro c hc
    have := (hcalls.mem_bounds c hc).2.2
    omega
  rw [← drawCalls_eq_ok_iff] at hcalls hcalls'
  obtain ⟨_, hcalls₀, hstop⟩ := hend
  obtain rfl := Except.ok.inj (hcalls.symm.trans hcalls₀)
  have hfit : DrawCall.vertexTotal calls + DrawCall.vertexTotal calls' < 1 <<< 32 := by
    rw [Mesh.maxVertices] at hmax hmax'
    omega
  have hall := drawCalls_append hcalls hstop hcalls' hfit
  have htotal : DrawCall.vertexTotal
      (calls ++ calls'.map (DrawCall.move dl.length (DrawCall.vertexTotal calls))) =
        DrawCall.vertexTotal calls + DrawCall.vertexTotal calls' := by
    rw [DrawCall.vertexTotal_append, DrawCall.vertexTotal_map_move]
  rw [Mesh.join_pair hcons]
  rcases hcons.append hcons' with ⟨happend, _⟩ | ⟨hstride, _⟩ | ⟨hlt, happend⟩
  · right
    refine ⟨_, happend, rfl, ?_⟩
    have hroom := (Mesh.append_eq_ok.mp happend).1.room
    rw [run_eq_packCalls hall (htotal ▸ hroom), packCalls_concat hplace hdata hdata']
    exact congrArg Except.ok (meshOf_append calls calls' dl.length data data')
  · -- Both meshes come from the same loader.
    exact absurd rfl hstride
  · left
    refine ⟨_, hlt, ?_, happend⟩
    rw [run_of_lt_vertexTotal hall (htotal ▸ hlt), htotal]
    rfl

/-- A strip and a fan, run twice in one list. -/
theorem run_append_twice :
    compile Mesh.Sample.loader.format = .ok Mesh.Sample.loader ∧
    Mesh.Sample.loader.ReachesEnd Mesh.Sample.list ∧
    Mesh.Sample.loader.run .empty Mesh.Sample.list = .ok Mesh.Sample.mesh ∧
    Mesh.Sample.loader.run .empty (Mesh.Sample.list ++ Mesh.Sample.list) =
      .ok { Mesh.Sample.twice with
        calls := [⟨.triangleStrip, 3, 4, 0⟩, ⟨.triangleFan, 10, 4, 4⟩, ⟨.triangleStrip, 17, 4, 8⟩,
          ⟨.triangleFan, 24, 4, 12⟩] } := by
  have hl : compile Mesh.Sample.loader.format = .ok Mesh.Sample.loader := rfl
  have hend : Mesh.Sample.loader.ReachesEnd Mesh.Sample.list :=
    ⟨Mesh.Sample.mesh.calls, by decide +kernel, by decide⟩
  have hrun : Mesh.Sample.loader.run .empty Mesh.Sample.list = .ok Mesh.Sample.mesh := by
    decide +kernel
  refine ⟨hl, hend, hrun, ?_⟩
  rcases run_append hl hend hrun hrun with ⟨n, _, _, hjoin⟩ | ⟨r, hjoin, _, happend⟩
  · simp [Mesh.Sample.join_mesh] at hjoin
  · obtain rfl := Except.ok.inj (Mesh.Sample.join_mesh.symm.trans hjoin)
    exact happend

end Loader
end FixedFunction
