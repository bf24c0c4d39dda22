import FixedFunction.Proofs.DisplayList.Scanning
import FixedFunction.Proofs.Loader.Outcome

/-!
# Vertices one at a time

All vertices of a run share one buffer.  Each of them only touches its own part, so it can as well
be packed into a buffer of its own, and the buffer of the run is the concatenation of these.  This
holds for runs that fail, too: they fail with the first vertex that cannot be packed.

**Results.**
* `Loader.packVertex`, `Loader.packVertices`, `Loader.packCalls`: vertices without a common buffer.
* `Loader.readVertex_frame`, `Loader.readVertices_frame`: a vertex in the middle of a buffer leaves
  what is before it and behind it.
* `Loader.run_eq_packCalls`: a run packs the vertices of its calls one after the other.
* `Loader.run_eq_ok_iff`: exactly the runs that succeed, and their meshes.
-/

namespace FixedFunction
namespace Loader

open DisplayList (Commands Cursor packetOf map_call_packetOf)

section Defs

variable (l : Loader) (arrays : VertexArrays)

/-- One vertex in a buffer of its own, and the place behind it in the stream. -/
def packVertex (cur : Cursor) : Except Failure (Cursor × Array UInt8) :=
  readVertex l.layout.stride arrays 0 l.transfers cur (.replicate l.layout.stride 0)

/-- `n` vertices, each packed in a buffer of its own. -/
def packVertices : Nat → Cursor → Except Failure (Cursor × Array UInt8)
  | 0, cur => .ok (cur, #[])
  | n + 1, cur => do
    let (cur, vertex) ← l.packVertex arrays cur
    let (cur, vertices) ← packVertices n cur
    return (cur, vertex ++ vertices)

/-- The vertices of all calls, call after call. -/
def packCalls (dl : List UInt8) : List DrawCall → Except Failure (Array UInt8)
  | [] => .ok #[]
  | c :: calls => do
    let (_, vertices) ← l.packVertices arrays c.count (.ofOffset dl c.source)
    let rest ← packCalls dl calls
    return vertices ++ rest

/-- The mesh with the given draw calls and packed vertices. -/
def meshOf (calls : List DrawCall) (data : Array UInt8) : Mesh where
  indices := ((calls.flatMap DrawCall.corners).map Nat.toUInt16).toArray
  data := data
  stride := l.layout.stride
  vertexCount := DrawCall.vertexTotal calls
  triangleCount := DrawCall.triangleTotal calls
  calls := calls

end Defs

theorem overwrite_append {front mid back : Array UInt8} {k : Nat} {value : List UInt8}
    (hroom : k + value.length ≤ mid.size) :
    overwrite (front ++ mid ++ back) (front.size + k) value =
      front ++ overwrite mid k value ++ back := by
  induction value generalizing mid k with
  | nil => rfl
  | cons b value ih =>
    rw [List.length_cons] at hroom
    have hset : (front ++ mid ++ back).setIfInBounds (front.size + k) b =
        front ++ mid.setIfInBounds k b ++ back := by
      rw [Array.setIfInBounds_append_left (by rw [Array.size_append]; omega),
        Array.setIfInBounds_append_right (by omega), Nat.add_sub_cancel_left]
    rw [overwrite, overwrite, hset, Nat.add_assoc,
      ih (by rw [Array.size_setIfInBounds]; omega)]

variable {arrays : VertexArrays} {stride : Nat}

/-- A value is checked against its vertex only, wherever the vertex is in the buffer. -/
theorem writeValue_frame {front mid back : Array UInt8} (hmid : mid.size = stride) (t : Transfer)
    (value : List UInt8) :
    writeValue stride front.size t value (front ++ mid ++ back) =
      (writeValue stride 0 t value mid).map fun out => front ++ out ++ back := by
  have hsize : front.size + stride ≤ (front ++ mid ++ back).size := by
    rw [Array.size_append, Array.size_append]
    omega
  rw [writeValue, writeValue]
  by_cases h : value.length = t.size ∧ t.offset + t.size ≤ stride
  · rw [if_pos ⟨h.1, h.2, hsize⟩, if_pos ⟨h.1, h.2, by omega⟩, Nat.zero_add,
      overwrite_append (by omega)]
    rfl
  · rw [if_neg fun h' => h ⟨h'.1, h'.2.1⟩, if_neg fun h' => h ⟨h'.1, h'.2.1⟩]
    rfl

theorem size_of_writeValue {base : Nat} {t : Transfer} {value : List UInt8}
    {out out' : Array UInt8} (h : writeValue stride base t value out = .ok out') :
    out'.size = out.size := by
  obtain ⟨_, rfl⟩ := writeValue_eq_ok.mp h
  exact size_overwrite ..

theorem size_of_readVertex {base : Nat} {ts : List Transfer} {cur : Cursor} {out : Array UInt8}
    {r : Cursor × Array UInt8} (h : readVertex stride arrays base ts cur out = .ok r) :
    r.2.size = out.size := by
  induction ts generalizing cur out with
  | nil =>
    obtain rfl : (cur, out) = r := by simpa [readVertex] using h
    rfl
  | cons t ts ih =>
    rw [readVertex] at h
    obtain ⟨⟨v, cur'⟩, _, h⟩ := bind_eq_ok.mp h
    obtain ⟨out', hwrite, h⟩ := bind_eq_ok.mp h
    rw [ih h, size_of_writeValue hwrite]

/-- A vertex in the middle of a buffer is read like a vertex alone. -/
theorem readVertex_frame {front mid back : Array UInt8} (hmid : mid.size = stride)
    (ts : List Transfer) (cur : Cursor) :
    readVertex stride arrays front.size ts cur (front ++ mid ++ back) =
      (readVertex stride arrays 0 ts cur mid).map fun r => (r.1, front ++ r.2 ++ back) := by
  induction ts generalizing cur mid with
  | nil => rfl
  | cons t ts ih =>
    rw [readVertex, readVertex]
    cases readValue arrays t cur with
    | error e => rfl
    | ok r =>
      simp only [ok_bind, writeValue_frame hmid]
      cases hwrite : writeValue stride 0 t r.1 mid with
      | error e => rfl
      | ok out => exact ih ((size_of_writeValue hwrite).trans hmid) r.2

variable {l : Loader}

theorem size_of_packVertex {cur : Cursor} {r : Cursor × Array UInt8}
    (h : l.packVertex arrays cur = .ok r) : r.2.size = l.layout.stride := by
  rw [size_of_readVertex h, Array.size_replicate]

/-- Vertices in the middle of a buffer are read like vertices alone. -/
theorem readVertices_frame {n first : Nat} {front : Array UInt8}
    (hfront : front.size = first * l.layout.stride) (back : Array UInt8) (cur : Cursor) :
    l.readVertices arrays n first cur (front ++ .replicate (n * l.layout.stride) 0 ++ back) =
      (l.packVertices arrays n cur).map fun r => (r.1, front ++ r.2 ++ back) := by
  induction n generalizing first front cur with
  | zero => simp [readVertices, packVertices, Except.map]
  | succ n ih =>
    have hout : front ++ .replicate ((n + 1) * l.layout.stride) 0 ++ back =
        front ++ .replicate l.layout.stride 0 ++ (.replicate (n * l.layout.stride) 0 ++ back) := by
      rw [Nat.succ_mul, Nat.add_comm, ← Array.replicate_append_replicate]
      simp only [Array.append_assoc]
    rw [readVertices, packVertices, hout, ← hfront, readVertex_frame Array.size_replicate]
    cases hread : readVertex l.layout.stride arrays 0 l.transfers cur
        (.replicate l.layout.stride 0) with
    | error e => simp [packVertex, hread, Except.map]
    | ok r =>
      have hsize : (front ++ r.2).size = (first + 1) * l.layout.stride := by
        rw [Array.size_append, hfront, size_of_packVertex hread, Nat.succ_mul]
      have hrest := ih hsize r.1
      simp only [packVertex, hread, Except.map, ok_bind, ← Array.append_assoc] at hrest ⊢
      rw [hrest]
      cases l.packVertices arrays n r.1 with
      | error e => rfl
      | ok r' => simp [pure, Except.pure]

theorem size_of_packVertices {n : Nat} {cur : Cursor} {r : Cursor × Array UInt8}
    (h : l.packVertices arrays n cur = .ok r) : r.2.size = n * l.layout.stride := by
  induction n generalizing cur r with
  | zero =>
    obtain rfl : (cur, #[]) = r := by simpa [packVertices] using h
    simp
  | succ n ih =>
    rw [packVertices] at h
    obtain ⟨r₁, h₁, h⟩ := bind_eq_ok.mp h
    obtain ⟨r₂, h₂, h⟩ := bind_eq_ok.mp h
    obtain rfl : (r₂.1, r₁.2 ++ r₂.2) = r := Except.ok.inj h
    rw [Array.size_append, size_of_packVertex h₁, ih h₂, Nat.succ_mul, Nat.add_comm]

/-- The calls of a display list append their corners to the indices and their vertices to the
buffer. -/
theorem runPackets_frame {dl : List UInt8} {calls : List DrawCall} {first : Nat}
    (hnum : DrawCall.Numbered first calls) (hcount : ∀ c, c ∈ calls → c.count < 65536)
    (hfit : first + DrawCall.vertexTotal calls ≤ 65536) (indices : Array UInt16)
    {front : Array UInt8} (hfront : front.size = first * l.layout.stride) :
    (calls.map (packetOf dl)).foldlM (l.runPacket arrays)
        (indices, front ++ .replicate (DrawCall.vertexTotal calls * l.layout.stride) 0) =
      (l.packCalls arrays dl calls).map fun data =>
        (indices ++ ((calls.flatMap DrawCall.corners).map Nat.toUInt16).toArray,
          front ++ data) := by
  induction calls generalizing first indices front with
  | nil => simp [packCalls, Except.map, pure, Except.pure]
  | cons c calls ih =>
    rw [List.forall_mem_cons] at hcount
    have hfirst : c.first = first := hnum.1
    rw [DrawCall.vertexTotal_cons] at hfit
    have hzeros : front ++ .replicate (DrawCall.vertexTotal (c :: calls) * l.layout.stride) 0 =
        front ++ .replicate (c.count * l.layout.stride) 0 ++
          .replicate (DrawCall.vertexTotal calls * l.layout.stride) 0 := by
      rw [DrawCall.vertexTotal_cons, Nat.add_mul, ← Array.replicate_append_replicate]
      simp only [Array.append_assoc]
    have hcorners : c.appendIndices indices =
        .ok (indices ++ (c.corners.map Nat.toUInt16).toArray) := by
      rw [DrawCall.appendIndices_eq hcount.1 (by omega)]
      exact congrArg Except.ok (Array.toList_inj.mp (by simp))
    rw [List.map_cons, List.foldlM_cons, runPacket, packetOf, hzeros, hcorners, ok_bind,
      packCalls, readVertices_frame (hfirst ▸ hfront)]
    cases hread : l.packVertices arrays c.count (.ofOffset dl c.source) with
    | error e => rfl
    | ok r =>
      have hsize : (front ++ r.2).size = (first + c.count) * l.layout.stride := by
        rw [Array.size_append, hfront, size_of_packVertices hread, Nat.add_mul]
      have hrest := ih hnum.2 hcount.2 (by omega)
        (indices ++ (c.corners.map Nat.toUInt16).toArray) hsize
      simp only [Except.map, ok_bind, pure_bind] at hrest ⊢
      rw [hrest]
      cases l.packCalls arrays dl calls with
      | error e => rfl
      | ok data => simp [pure, Except.pure]

section Run

variable {dl : List UInt8} {calls : List DrawCall}

/-- A run packs the vertices of its calls one after the other. -/
theorem run_eq_packCalls (h : l.drawCalls dl = .ok calls)
    (hmax : DrawCall.vertexTotal calls ≤ Mesh.maxVertices) :
    l.run arrays dl = (l.packCalls arrays dl calls).map (l.meshOf calls) := by
  obtain ⟨hcalls, hp⟩ := drawCalls_eq_ok h
  have hpackets : (calls.map (packetOf dl)).foldlM (l.runPacket arrays)
      (#[], #[] ++ .replicate (DrawCall.vertexTotal calls * l.layout.stride) 0) =
        (l.packCalls arrays dl calls).map fun data =>
          (#[] ++ ((calls.flatMap DrawCall.corners).map Nat.toUInt16).toArray, #[] ++ data) :=
    runPackets_frame hcalls.numbered (fun c hc => (hcalls.mem_bounds c hc).2.1)
      (by rwa [Nat.zero_add]) #[] (by simp)
  rw [Array.empty_append, Nat.mul_comm] at hpackets
  rw [run, hp, ok_bind]
  simp only [map_call_packetOf, if_neg (Nat.not_lt.mpr hmax)]
  rw [hpackets]
  cases l.packCalls arrays dl calls with
  | error e => rfl
  | ok data => simp [meshOf, Except.map, pure, Except.pure]

/-- The draw calls of a display list are exactly those that it holds. -/
theorem drawCalls_eq_ok_iff :
    l.drawCalls dl = .ok calls ↔ Commands l.layout.sourceStride dl 0 0 calls := by
  refine ⟨fun h => (drawCalls_eq_ok h).1, fun h => ?_⟩
  have hp : l.packets dl = .ok (calls.map (packetOf dl)) :=
    DisplayList.scan_eq_ok_iff.mpr ⟨calls, h, rfl⟩
  rw [drawCalls, hp]
  exact congrArg Except.ok (map_call_packetOf dl calls)

/-- Exactly the runs that succeed, and their meshes. -/
theorem run_eq_ok_iff {m : Mesh} :
    l.run arrays dl = .ok m ↔
      ∃ calls data, Commands l.layout.sourceStride dl 0 0 calls ∧
        DrawCall.vertexTotal calls ≤ Mesh.maxVertices ∧
        l.packCalls arrays dl calls = .ok data ∧ m = l.meshOf calls data := by
  simp only [← drawCalls_eq_ok_iff]
  constructor
  · intro h
    cases hcalls : l.drawCalls dl with
    | error e => simp [run_of_drawCalls_error hcalls] at h
    | ok calls =>
      have hmax : DrawCall.vertexTotal calls ≤ Mesh.maxVertices := by
        refine Nat.le_of_not_lt fun hlt => ?_
        simp [run_of_lt_vertexTotal hcalls hlt] at h
      rw [run_eq_packCalls hcalls hmax] at h
      cases hdata : l.packCalls arrays dl calls with
      | error e => simp [hdata, Except.map] at h
      | ok data =>
        rw [hdata] at h
        exact ⟨calls, data, rfl, hmax, hdata, (Except.ok.inj h).symm⟩
  · rintro ⟨calls, data, hcalls, hmax, hdata, rfl⟩
    rw [run_eq_packCalls hcalls hmax, hdata]
    rfl

end Run

end Loader
end FixedFunction
