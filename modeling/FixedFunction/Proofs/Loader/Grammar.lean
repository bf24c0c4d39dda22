import FixedFunction.Proofs.DisplayList.Encoding
import FixedFunction.Proofs.Loader.SingleVertex

/-!
# The grammar of display lists

**Results.**
* `Loader.drawCalls_grammar`: a loader finds draw calls in exactly the display lists that are
  written from strips and fans, and these are the strips and fans again.
-/

namespace FixedFunction

open DisplayList (Drawing Ended Lists encode commands_iff_encode lists_callsFrom)

/-- What a draw call draws, the number of its vertices, and their bytes. -/
def DrawCall.content (stride : Nat) (dl : List UInt8) (c : DrawCall) :
    Primitive × Nat × List UInt8 :=
  (c.primitive, c.count, (dl.drop c.source).take (stride * c.count))

namespace DisplayList

variable {stride : Nat}

/-- The same of a strip or a fan. -/
def Drawing.content (d : Drawing stride) : Primitive × Nat × List UInt8 :=
  (d.primitive, d.count.toNat, d.vertices)

/-- What is read back of strips and fans. -/
theorem Lists.content {ds : List (Drawing stride)} {calls : List DrawCall}
    (h : Lists ds calls) (tail : List UInt8) :
    calls.map (DrawCall.content stride (encode ds ++ tail)) = ds.map Drawing.content := by
  refine List.ext_getElem? fun i => ?_
  rw [List.getElem?_map, List.getElem?_map]
  rcases Nat.lt_or_ge i ds.length with hi | hi
  · have hbytes : encode ds =
        encode (ds.take i) ++ (ds[i].bytes ++ encode (ds.drop (i + 1))) := by
      rw [← DisplayList.encode_cons, ← DisplayList.encode_append]
      simp
    have hvertices (more : List UInt8) : (ds[i].bytes ++ more).drop 3 = ds[i].vertices ++ more :=
      rfl
    rw [h.getElem? hi, List.getElem?_eq_getElem hi, hbytes, Option.map_some, Option.map_some,
      DrawCall.content, ← List.drop_drop, List.append_assoc, List.append_assoc, List.drop_left,
      hvertices, ← ds[i].length_vertices, List.take_left]
    rfl
  · rw [List.getElem?_eq_none (h.length ▸ hi), List.getElem?_eq_none hi]
    rfl

end DisplayList

namespace Loader

/-- A loader finds draw calls in exactly the display lists that are written from strips and fans of
fewer than `2 ^ 32` vertices.  The calls are these in order, and writing any strips and fans and
finding the draw calls gives them back. -/
theorem drawCalls_grammar (l : Loader) :
    (∀ dl calls, l.drawCalls dl = .ok calls ↔
      ∃ (ds : List (Drawing l.layout.sourceStride)) (tail : List UInt8),
        dl = encode ds ++ tail ∧ Ended tail ∧ Drawing.total ds < 1 <<< 32 ∧ Lists ds calls) ∧
    ∀ (ds : List (Drawing l.layout.sourceStride)) (tail : List UInt8), Ended tail →
      Drawing.total ds < 1 <<< 32 → ∃ calls, l.drawCalls (encode ds ++ tail) = .ok calls ∧
        calls.map (DrawCall.content l.layout.sourceStride (encode ds ++ tail)) =
          ds.map Drawing.content := by
  refine ⟨fun dl calls => drawCalls_eq_ok_iff.trans commands_iff_encode, ?_⟩
  intro ds tail htail htotal
  have hlists := lists_callsFrom ds
  have hcalls := commands_iff_encode.mpr ⟨ds, tail, rfl, htail, htotal, hlists⟩
  exact ⟨_, drawCalls_eq_ok_iff.mpr hcalls, hlists.content tail⟩

namespace Sample

/-- The strip and the fan of the display list. -/
def drawings : List (Drawing 8) :=
  [⟨0x98, .triangleStrip, 2, [3, 0, 1, 1, 2, 3, 4, 2, 6, 0, 0, 5, 6, 7, 8, 0], by decide, rfl⟩,
    ⟨0xA7, .triangleFan, 1, [9, 0, 1, 9, 10, 11, 12, 1], by decide, rfl⟩]

end Sample

/-- The display list is written from the strip and the fan, and they are found in it. -/
theorem drawCalls_grammar_sample :
    encode Sample.drawings ++ [0, 0xFF] = Sample.list ∧
      ∃ calls, Sample.loader.drawCalls Sample.list = .ok calls ∧
        calls.map (DrawCall.content 8 Sample.list) = Sample.drawings.map Drawing.content :=
  ⟨rfl, (drawCalls_grammar Sample.loader).2 Sample.drawings [0, 0xFF] (.inr ⟨_, rfl⟩) (by decide)⟩

end Loader
end FixedFunction
