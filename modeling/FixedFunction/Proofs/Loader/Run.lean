import FixedFunction.Proofs.DisplayList.Triangulation
import FixedFunction.Proofs.Loader.Vertices

/-!
# The steps of a run

**Results.**
* `Loader.packets_eq_ok`, `Loader.drawCalls_eq_ok`: the draw calls of a display list.
* `Loader.run_eq_ok`: what a run that succeeds has gone through.
* `Loader.runPackets_indices`: the index buffer of a run.
-/

namespace FixedFunction
namespace Loader

open DisplayList (Commands Packet packetOf commands_of_scan map_call_packetOf)

/-- The buffers of a run before any vertex is read. -/
def emptyBuffers (l : Loader) (vertexCount : Nat) : Array UInt16 × Array UInt8 :=
  (#[], Array.replicate (l.layout.stride * vertexCount) 0)

section Steps

variable {l : Loader} {arrays : VertexArrays} {dl : List UInt8}

theorem separate_of_compile {f : VertexFormat} (h : compile f = .ok l) : l.layout.Separate := by
  obtain ⟨layout, hlayout, rfl⟩ := map_eq_ok.mp h
  exact Layout.separate_of_ofFormat hlayout

theorem packets_eq_ok {packets : List Packet} (h : l.packets dl = .ok packets) :
    ∃ calls, Commands l.layout.sourceStride dl 0 0 calls ∧
      packets = calls.map (packetOf dl) ∧ packets.map Packet.call = calls := by
  obtain ⟨calls, hcalls, rfl⟩ := commands_of_scan h
  exact ⟨calls, hcalls, rfl, map_call_packetOf dl calls⟩

/-- The draw calls of a display list are those that it holds, and each is run from where its
vertices start. -/
theorem drawCalls_eq_ok {calls : List DrawCall} (h : l.drawCalls dl = .ok calls) :
    Commands l.layout.sourceStride dl 0 0 calls ∧
      l.packets dl = .ok (calls.map (packetOf dl)) := by
  obtain ⟨packets, hpackets, rfl⟩ := map_eq_ok.mp h
  obtain ⟨calls, hcalls, rfl, hmap⟩ := packets_eq_ok hpackets
  rw [hmap]
  exact ⟨hcalls, hpackets⟩

theorem packets_eq_error {e : Failure} (h : l.drawCalls dl = .error e) :
    l.packets dl = .error e := by
  cases hp : l.packets dl with
  | ok packets => simp [drawCalls, hp, Except.map] at h
  | error e' => simpa [drawCalls, hp, Except.map] using h

/-- What a run that succeeds has gone through. -/
theorem run_eq_ok {m : Mesh} (h : l.run arrays dl = .ok m) :
    ∃ calls out, Commands l.layout.sourceStride dl 0 0 calls ∧
      DrawCall.vertexTotal calls ≤ Mesh.maxVertices ∧
      (calls.map (packetOf dl)).foldlM (l.runPacket arrays)
        (l.emptyBuffers (DrawCall.vertexTotal calls)) = .ok out ∧
      m = {
        indices := out.1
        data := out.2
        stride := l.layout.stride
        vertexCount := DrawCall.vertexTotal calls
        triangleCount := DrawCall.triangleTotal calls
        calls } := by
  obtain ⟨packets, hpackets, h⟩ := bind_eq_ok.mp h
  obtain ⟨calls, hcalls, rfl, hmap⟩ := packets_eq_ok hpackets
  rw [hmap] at h
  by_cases hmax : Mesh.maxVertices < DrawCall.vertexTotal calls
  · simp [hmax] at h
  · rw [if_neg hmax] at h
    obtain ⟨out, hout, h⟩ := bind_eq_ok.mp h
    refine ⟨calls, out, hcalls, by omega, hout, ?_⟩
    simpa [pure, Except.pure] using h.symm

/-- The indices of all calls are their corners, one call after the other. -/
theorem runPackets_indices {calls : List DrawCall} {first : Nat}
    (hnum : DrawCall.Numbered first calls) (hcount : ∀ c, c ∈ calls → c.count < 65536)
    (hfit : first + DrawCall.vertexTotal calls ≤ 65536) {out out' : Array UInt16 × Array UInt8}
    (h : (calls.map (packetOf dl)).foldlM (l.runPacket arrays) out = .ok out') :
    out'.1 = out.1 ++ (calls.flatMap DrawCall.corners).map Nat.toUInt16 := by
  induction calls generalizing first out with
  | nil =>
    obtain rfl : out = out' := by simpa [pure, Except.pure] using h
    simp
  | cons c calls ih =>
    rw [List.map_cons, List.foldlM_cons] at h
    obtain ⟨out₁, hrun, h⟩ := bind_eq_ok.mp h
    obtain ⟨hindices, _⟩ := runPacket_eq_ok hrun
    rw [List.forall_mem_cons] at hcount
    have hfirst : c.first = first := hnum.1
    rw [DrawCall.vertexTotal_cons] at hfit
    have hc : c.appendIndices out.1 = .ok (out.1 ++ c.corners.map Nat.toUInt16) :=
      DrawCall.appendIndices_eq hcount.1 (by omega) out.1
    have hout : out.1 ++ c.corners.map Nat.toUInt16 = out₁.1 :=
      Except.ok.inj (hc.symm.trans hindices)
    rw [ih hnum.2 hcount.2 (by omega) h, ← hout]
    refine Array.toList_inj.mp ?_
    simp

end Steps

/-! A loader with a value of each presence and with two gaps in its packed vertices. -/

namespace Sample

/-- A matrix number, a position, a color and a texture coordinate. -/
def format : VertexFormat :=
  .ofEntries [⟨.pnMtxIdx, .direct, {}⟩, ⟨.pos, .index16, { component := .s16 }⟩,
    ⟨.clr0, .direct, { component := .rgba8, count := 1 }⟩,
    ⟨.tex0, .index8, { component := .u8 }⟩]

/-- The loader of the format. -/
def loader : Loader :=
  .ofLayout format <| .ofSlots
    [⟨.pnMtxIdx, .direct, .u8, 1, 0, 1, 0⟩, ⟨.pos, .index16, .s16, 2, 0, 4, 2⟩,
      ⟨.clr0, .direct, .rgba8, 4, 0, 4, 6⟩, ⟨.tex0, .index8, .u8, 1, 0, 1, 10⟩]

/-- Two positions behind one byte that is not used, and three texture coordinates. -/
def arrays : VertexArrays :=
  (VertexArrays.empty.set .pos (some ⟨#[0xEE, 10, 11, 12, 13, 14, 15, 16, 17], 1⟩)).set .tex0
    (some ⟨#[50, 51, 52], 0⟩)

/-- A strip of two vertices and a fan of one, a zero byte, and a byte that is not read. -/
def list : List UInt8 :=
  [0x98, 0, 2, 3, 0, 1, 1, 2, 3, 4, 2, 6, 0, 0, 5, 6, 7, 8, 0,
    0xA7, 0, 1, 9, 0, 1, 9, 10, 11, 12, 1, 0, 0xFF]

/-- A fan of two vertices.  The texture coordinate of the second has no value. -/
def brokenList : List UInt8 :=
  [0xA0, 0, 2, 3, 0, 1, 1, 2, 3, 4, 2, 6, 0, 0, 5, 6, 7, 8, 7]

/-- The mesh of the display list. -/
def mesh : Mesh where
  data := #[3, 0, 14, 15, 16, 17, 1, 2, 3, 4, 52, 0, 6, 0, 10, 11, 12, 13, 5, 6, 7, 8, 50, 0,
    9, 0, 14, 15, 16, 17, 9, 10, 11, 12, 51, 0]
  stride := 12
  vertexCount := 3
  calls := [⟨.triangleStrip, 3, 2, 0⟩, ⟨.triangleFan, 22, 1, 2⟩]

theorem compile_format : compile format = .ok loader := by
  rfl

theorem run_list : loader.run arrays list = .ok mesh := by
  decide +kernel

end Sample
end Loader
end FixedFunction
