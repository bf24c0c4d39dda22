import FixedFunction.Proofs.Loader.Run

/-!
# Packed vertices are what the stream denotes

**Results.**
* `Loader.run_packs`: every value of the packed vertices is the one that the display list denotes
  for its place, and every other byte is zero.
-/

namespace FixedFunction
namespace Loader

/-- The packed vertices of a mesh.  The value of each slot is the one that the display list denotes
at the position of the slot in the stream, and the bytes that belong to no slot are zero. -/
theorem run_packs {f : VertexFormat} {l : Loader} (hl : compile f = .ok l)
    {arrays : VertexArrays} {dl : List UInt8} {m : Mesh} (h : l.run arrays dl = .ok m) :
    m.stride = l.layout.stride ∧
    m.data.size = m.stride * m.vertexCount ∧
    (∀ c, c ∈ m.calls → ∀ i, i < c.count →
      ∀ before s after, l.layout.slots = before ++ s :: after →
        ∃ v, denoted arrays dl
            (c.source + i * l.layout.sourceStride + Layout.sourceSize before) s = .ok v ∧
          v.length = s.size ∧
          (m.data.extract ((c.first + i) * m.stride + s.offset)
            ((c.first + i) * m.stride + s.offset + s.size)).toList = v) ∧
    (∀ n, n < m.vertexCount → ∀ j, j < m.stride →
      (∀ s, s ∈ l.layout.slots → ¬ (s.offset ≤ j ∧ j < s.offset + s.size)) →
      m.data[n * m.stride + j]? = some 0) := by
  obtain ⟨calls, out, hcalls, _, hrun, rfl⟩ := run_eq_ok h
  have hsep := separate_of_compile hl
  obtain ⟨hsize, hfilled, hsame⟩ := runPackets_eq_ok hsep hcalls.numbered hrun
  refine ⟨rfl, ?_, ?_, ?_⟩
  · simpa [emptyBuffers] using hsize
  · intro c hc i hi before s after hs
    obtain ⟨v, hv, hlen, hout⟩ := hfilled c hc i hi before s after hs
    refine ⟨v, hv, hlen, ?_⟩
    rwa [Slot.stop, ← Nat.add_assoc] at hout
  · intro n hn j hj hgap
    replace hj : j < l.layout.stride := hj
    have hkey : out.2[n * l.layout.stride + j]? =
        (l.emptyBuffers (DrawCall.vertexTotal calls)).2[n * l.layout.stride + j]? := by
      refine hsame _ fun n' _ _ hk => ?_
      have hn' : n = n' := by
        rw [← hk.div_eq hsep.stop_le, Nat.mul_comm, Nat.mul_add_div (by omega),
          Nat.div_eq_of_lt hj, Nat.add_zero]
      obtain ⟨s, hs, hk, hk'⟩ := hk
      refine hgap s hs ?_
      rw [← hn'] at hk hk'
      simp only [Slot.stop] at hk'
      omega
    have hroom : n * l.layout.stride + j < l.layout.stride * DrawCall.vertexTotal calls :=
      calc n * l.layout.stride + j < n * l.layout.stride + l.layout.stride := by omega
        _ = l.layout.stride * (n + 1) := by rw [Nat.mul_add_one, Nat.mul_comm]
        _ ≤ l.layout.stride * DrawCall.vertexTotal calls := Nat.mul_le_mul_left _ hn
    rw [hkey, emptyBuffers, Array.getElem?_replicate, if_pos hroom]

/-- The position of the second vertex, and the gap at its end. -/
theorem run_packs_sample :
    compile Sample.format = .ok Sample.loader ∧
    Sample.loader.run Sample.arrays Sample.list = .ok Sample.mesh ∧
    Sample.mesh.data.size = Sample.mesh.stride * Sample.mesh.vertexCount ∧
    (∃ v, denoted Sample.arrays Sample.list (3 + 1 * 8 + 1)
        ⟨.pos, .index16, .s16, 2, 0, 4, 2⟩ = .ok v ∧ v.length = 4 ∧
      (Sample.mesh.data.extract 14 18).toList = v) ∧
    Sample.mesh.data[1 * 12 + 11]? = some 0 := by
  obtain ⟨_, hsize, hvalue, hgap⟩ := run_packs Sample.compile_format Sample.run_list
  refine ⟨Sample.compile_format, Sample.run_list, hsize, ?_, ?_⟩
  · exact hvalue ⟨.triangleStrip, 3, 2, 0⟩ (by decide) 1 (by decide)
      [⟨.pnMtxIdx, .direct, .u8, 1, 0, 1, 0⟩] _
      [⟨.clr0, .direct, .rgba8, 4, 0, 4, 6⟩, ⟨.tex0, .index8, .u8, 1, 0, 1, 10⟩] rfl
  · exact hgap 1 (by decide) 11 (by decide) (by decide)

end Loader
end FixedFunction
