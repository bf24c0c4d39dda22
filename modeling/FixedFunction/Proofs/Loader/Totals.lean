import FixedFunction.Proofs.DisplayList.Overflow
import FixedFunction.Proofs.DisplayList.Words
import FixedFunction.Proofs.Loader.Outcome
import FixedFunction.Proofs.Vertex.Extent

/-!
# The totals of a run

Before it reads a vertex, a run adds up the vertices and the triangles of its draw calls.  The sums
are right, and they fit the words that they are kept in, whenever the draw calls are found at all.
The scan that looks for them stops where it cannot count their vertices, although a display list
with so many vertices would be refused.

**Results.**
* `FitsWords`: the numbers that a run computes from its draw calls are words.
* `totals_exact`: when a scan stops, and what holds of the totals when it does not.
* `scan_stops_uncountable`: a display list with too many vertices that is not refused.
-/

namespace FixedFunction
namespace Loader

open DisplayList

/-- What a run computes from its draw calls before it reads a vertex.  Each vertex number is the
exact sum of the counts before it, and each total is kept in a word that it fits. -/
structure FitsWords (l : Loader) (calls : List DrawCall) : Prop where
  numbered : DrawCall.Numbered 0 calls
  vertexTotal_lt : DrawCall.vertexTotal calls < 1 <<< 32
  triangleTotal_lt : DrawCall.triangleTotal calls < 1 <<< 32
  indices_lt : 3 * DrawCall.triangleTotal calls < 1 <<< 64
  data_lt : l.layout.stride * DrawCall.vertexTotal calls < 1 <<< 64

theorem extent_of_compile {f : VertexFormat} {l : Loader} (h : compile f = .ok l) :
    l.layout.sourceStride ≤ 792 ∧ l.layout.stride ≤ 861 := by
  obtain ⟨layout, hlayout, rfl⟩ := map_eq_ok.mp h
  exact Layout.extent_of_ofFormat hlayout

theorem drawCalls_eq_error_iff {l : Loader} {dl : List UInt8} {e : Failure} :
    l.drawCalls dl = .error e ↔ scan l.layout.sourceStride dl = .error e := by
  refine ⟨packets_eq_error, fun h => ?_⟩
  rw [drawCalls, packets, h]
  rfl

/-- The vertices of draw calls that were found are fewer than a word of 32 bits has values. -/
theorem vertexTotal_lt_of_commands {stride p first : Nat} {dl : List UInt8}
    {calls : List DrawCall} (h : Commands stride dl p first calls) (hfirst : first < 1 <<< 32) :
    first + DrawCall.vertexTotal calls < 1 <<< 32 := by
  induction h with
  | done _ => exact hfirst
  | @call p first b hi lo c calls _ _ _ _ _ _ _ _ _ _ hfit _ ih =>
    rw [DrawCall.vertexTotal_cons, ← Nat.add_assoc]
    exact ih hfit

theorem fitsWords_of_drawCalls {f : VertexFormat} {l : Loader} (hl : compile f = .ok l)
    {dl : List UInt8} {calls : List DrawCall} (h : l.drawCalls dl = .ok calls) :
    l.FitsWords calls := by
  have hcalls := (drawCalls_eq_ok h).1
  have hvertices := vertexTotal_lt_of_commands hcalls (by decide)
  rw [Nat.zero_add] at hvertices
  have htriangles := DrawCall.triangleTotal_le calls
  have hdata : l.layout.stride * DrawCall.vertexTotal calls ≤ 861 * 1 <<< 32 :=
    Nat.mul_le_mul (extent_of_compile hl).2 (Nat.le_of_lt hvertices)
  exact {
    numbered := hcalls.numbered
    vertexTotal_lt := hvertices
    triangleTotal_lt := by omega
    indices_lt := by omega
    data_lt := by omega }

/-- A scan leaves no word but that of the number of vertices.  It leaves this one exactly if the
display list begins with strips and fans that have more vertices than it can count.  Shorter lists
than those of a certain length cannot have so many, and of every greater length there is one that
has.  Otherwise the totals are exact, and they decide on the refusal of a display list with too many
vertices. -/
theorem totals_exact {f : VertexFormat} {l : Loader} (hl : compile f = .ok l) {dl : List UInt8}
    (hdl : dl.length < 1 <<< 63) :
    scanWords l.layout.sourceStride dl = l.packets dl ∧
    (∀ t, l.drawCalls dl = .error (.stopped t) ↔
      t = .overflow ∧ ∃ (ds : List (Drawing l.layout.sourceStride)) (tail : List UInt8),
        dl = encode ds ++ tail ∧ 1 <<< 32 ≤ Drawing.total ds) ∧
    (dl.length < 196614 + l.layout.sourceStride * 1 <<< 32 →
      ∀ t, l.drawCalls dl ≠ .error (.stopped t)) ∧
    (∀ n, (∃ list : List UInt8, list.length = n ∧
      l.drawCalls list = .error (.stopped .overflow)) ↔
        196614 + l.layout.sourceStride * 1 <<< 32 ≤ n) ∧
    ∀ calls, l.drawCalls dl = .ok calls →
      l.FitsWords calls ∧
      (Mesh.maxVertices < DrawCall.vertexTotal calls → ∀ arrays,
        l.run arrays dl = .error (.refused (.tooManyVertices (DrawCall.vertexTotal calls)))) := by
  have hstride : l.layout.sourceStride < 1 <<< 32 :=
    Nat.lt_of_le_of_lt (extent_of_compile hl).1 (by decide)
  refine ⟨scanWords_eq hstride hdl, fun t => ?_, fun hshort t h => ?_, fun n => ?_,
    fun calls h => ?_⟩
  · rw [drawCalls_eq_error_iff]
    exact scan_eq_stopped_iff
  · exact scan_ne_stopped hshort t (drawCalls_eq_error_iff.mp h)
  · simp only [drawCalls_eq_error_iff]
    exact exists_scan_stopped_iff
  · exact ⟨fitsWords_of_drawCalls hl h, fun hmax _ => run_of_lt_vertexTotal h hmax⟩

namespace Sample

/-- The loader of a format without attributes, whose vertices take no bytes. -/
def bare : Loader where
  format := default
  layout := Layout.ofSlots []
  transfers := []
  transfers_eq := rfl

theorem compile_bare : compile default = .ok bare := by
  decide +kernel

/-- Two strips with one vertex more than a mesh can have. -/
def crowded : List UInt8 :=
  [0x98, 0xFF, 0xFF, 0x98, 0, 2]

end Sample

theorem totals_exact_crowded :
    compile default = .ok Sample.bare ∧ Sample.crowded.length < 1 <<< 63 ∧
    Sample.bare.run .empty Sample.crowded = .error (.refused (.tooManyVertices 65537)) := by
  have hdl : Sample.crowded.length < 1 <<< 63 := by decide
  have hcalls : Sample.bare.drawCalls Sample.crowded =
      .ok [⟨.triangleStrip, 3, 65535, 0⟩, ⟨.triangleStrip, 6, 2, 65535⟩] := by
    decide +kernel
  obtain ⟨_, _, _, _, htotals⟩ := totals_exact Sample.compile_bare hdl
  exact ⟨Sample.compile_bare, hdl, (htotals _ hcalls).2 (by decide) .empty⟩

theorem encode_uncountable_bare :
    encode (uncountable 0) = (List.replicate 65537 [0x98, 0xFF, 0xFF]).flatten ++ [0x98, 0, 1] := by
  rw [uncountable, encode_append, encode, List.flatMap, List.map_replicate]
  rfl

/-- A display list of 65538 commands with as many vertices as a word of 32 bits has values.  Their
number is more than a mesh can have, but the list is not refused for it. -/
theorem scan_stops_uncountable :
    compile default = .ok Sample.bare ∧
    encode (uncountable 0) =
      (List.replicate 65537 [0x98, 0xFF, 0xFF]).flatten ++ [0x98, 0, 1] ∧
    Drawing.total (uncountable 0) = 1 <<< 32 ∧
    Sample.bare.drawCalls (encode (uncountable 0)) = .error (.stopped .overflow) ∧
    Sample.bare.run .empty (encode (uncountable 0)) = .error (.stopped .overflow) := by
  have hstop : Sample.bare.drawCalls (encode (uncountable 0)) = .error (.stopped .overflow) := by
    refine drawCalls_eq_error_iff.mpr (scan_eq_stopped_iff.mpr ⟨rfl, uncountable 0, [], ?_, ?_⟩)
    · exact (List.append_nil _).symm
    · exact Nat.le_of_eq (total_uncountable 0).symm
  exact ⟨Sample.compile_bare, encode_uncountable_bare, total_uncountable 0, hstop,
    run_of_drawCalls_error hstop⟩

end Loader
end FixedFunction
