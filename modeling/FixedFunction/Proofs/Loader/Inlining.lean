import FixedFunction.Proofs.Loader.SingleVertex
import FixedFunction.Proofs.Vertex.Inlining

/-!
# Display lists without indices

Every index of a display list can be replaced by the value that it stands for.  The new list is
read by the loader of the format without indices, which needs no arrays.

**Invariant.**  The two loaders read streams of different lengths, but before every slot, vertex and
call the new stream continues with the values of those that are left.

**Results.**
* `Loader.inlineCalls`: the draw calls of a display list, written with values in place of indices.
* `Loader.readVertex_inlined`, `Loader.packVertices_inlined`, `Loader.commands_inlined`: the
  invariant for the slots of a vertex, the vertices of a call, and the calls.
* `Loader.run_inlined`: the new list gives the same mesh, up to the places of the calls.
-/

namespace FixedFunction

namespace DrawCall

/-- A draw call, wherever its vertices are. -/
def unplaced (c : DrawCall) : DrawCall :=
  { c with source := 0 }

variable {calls calls' : List DrawCall} (h : calls'.map unplaced = calls.map unplaced)
include h

theorem vertexTotal_of_unplaced : vertexTotal calls' = vertexTotal calls := by
  have hcount : ∀ c, (unplaced c).count = c.count := fun _ => rfl
  rw [← vertexTotal_map hcount calls', h, vertexTotal_map hcount]

theorem triangleTotal_of_unplaced : triangleTotal calls' = triangleTotal calls := by
  have htotal : ∀ cs : List DrawCall, triangleTotal (cs.map unplaced) = triangleTotal cs := by
    intro cs
    induction cs with
    | nil => rfl
    | cons c cs ih =>
      rw [List.map_cons, triangleTotal_cons, triangleTotal_cons, ih]
      rfl
  rw [← htotal calls', h, htotal]

theorem corners_of_unplaced : calls'.flatMap corners = calls.flatMap corners := by
  have hcorners : ∀ cs : List DrawCall, (cs.map unplaced).flatMap corners = cs.flatMap corners := by
    intro cs
    rw [List.flatMap_map]
    rfl
  rw [← hcorners calls', h, hcorners]

end DrawCall

namespace Loader

open DisplayList (Commands Cursor)

section Defs

variable (arrays : VertexArrays) (dl : List UInt8)

/-- The values of one vertex that starts at position `p`, one after the other. -/
def inlineSlots : Nat → List Slot → Except Error (List UInt8)
  | _, [] => .ok []
  | p, s :: slots => do
    let value ← denoted arrays dl p s
    let rest ← inlineSlots (p + s.streamSize) slots
    return value ++ rest

variable (l : Loader)

/-- The values of `n` vertices, the first of which starts at position `p`. -/
def inlineVertices : Nat → Nat → Except Error (List UInt8)
  | 0, _ => .ok []
  | n + 1, p => do
    let values ← inlineSlots arrays dl p l.layout.slots
    let rest ← inlineVertices n (p + l.layout.sourceStride)
    return values ++ rest

/-- Draw calls with values in place of indices.  The command and the count of a call are the three
bytes before its vertices. -/
def inlineCalls : List DrawCall → Except Error (List UInt8)
  | [] => .ok []
  | c :: calls => do
    let values ← inlineVertices arrays dl l c.count c.source
    let rest ← inlineCalls calls
    return (dl.drop (c.source - 3)).take 3 ++ (values ++ rest)

/-- The loader for the values. -/
def inlined : Loader :=
  ofLayout l.format.inlined l.layout.inlined

end Defs

/-- The loader of the format without indices. -/
theorem compile_inlined {f : VertexFormat} {l : Loader} (h : compile f = .ok l) :
    compile f.inlined = .ok l.inlined := by
  obtain ⟨layout, hlayout, rfl⟩ := map_eq_ok.mp h
  rw [compile, Layout.ofFormat_inlined, hlayout]
  rfl

/-- A mesh does not depend on where its calls are. -/
theorem meshOf_unplaced {l l' : Loader} (hstride : l'.layout.stride = l.layout.stride)
    {calls calls' : List DrawCall}
    (hcalls : calls'.map DrawCall.unplaced = calls.map DrawCall.unplaced) (data : Array UInt8) :
    l'.meshOf calls' data = { l.meshOf calls data with calls := calls' } := by
  simp only [meshOf, hstride, DrawCall.vertexTotal_of_unplaced hcalls,
    DrawCall.triangleTotal_of_unplaced hcalls, DrawCall.corners_of_unplaced hcalls]

variable {arrays : VertexArrays} {dl : List UInt8}

/-- A direct value is read from where it stands. -/
theorem readValue_inlined {s : Slot} {v : List UInt8} (hlen : v.length = s.size) (q : Nat)
    (more : List UInt8) :
    readValue .empty (s.inlined.transfer .direct) ⟨q, v ++ more⟩ =
      .ok (v, ⟨q + v.length, more⟩) := by
  have hsize : (s.inlined.transfer .direct).size = v.length := hlen.symm
  have hbytes : Cursor.bytes ⟨q, v ++ more⟩ v.length = .ok (v, ⟨q + v.length, more⟩) := by
    rw [Cursor.bytes_eq, if_pos (by simp)]
    simp
  rw [readValue, hsize, hbytes]
  rfl

/-- The values of a vertex are read like the vertex itself. -/
theorem readVertex_inlined {stride base : Nat} {slots : List Slot}
    (hpresent : ∀ s, s ∈ slots → s.presence ≠ .absent) {p : Nat} {out : Array UInt8}
    {r : Cursor × Array UInt8}
    (h : readVertex stride arrays base (slots.filterMap Transfer.ofSlot?) (.ofOffset dl p) out =
      .ok r) :
    ∃ values, inlineSlots arrays dl p slots = .ok values ∧
      values.length = Layout.sourceSize (slots.map Slot.inlined) ∧
      r.1 = .ofOffset dl (p + Layout.sourceSize slots) ∧
      ∀ q more, readVertex stride .empty base
        ((slots.map Slot.inlined).filterMap Transfer.ofSlot?) ⟨q, values ++ more⟩ out =
          .ok (⟨q + values.length, more⟩, r.2) := by
  induction slots generalizing p out with
  | nil =>
    obtain rfl : (Cursor.ofOffset dl p, out) = r := by simpa [readVertex] using h
    exact ⟨[], rfl, rfl, rfl, fun q more => rfl⟩
  | cons s slots ih =>
    rw [List.forall_mem_cons] at hpresent
    obtain ⟨source, hsource, ht⟩ := Transfer.ofSlot?_of_present hpresent.1
    have hdirect : s.inlined.presence = .direct := Presence.inlined_of_present hpresent.1
    have ht' : Transfer.ofSlot? s.inlined = some (s.inlined.transfer .direct) := by
      rw [Transfer.ofSlot?, hdirect]
      rfl
    rw [List.filterMap_cons_some ht, readVertex] at h
    obtain ⟨⟨v, cur⟩, hread, h⟩ := bind_eq_ok.mp h
    obtain ⟨hv, rfl⟩ := readValue_eq_ok hsource hread
    obtain ⟨out₁, hwrite, h⟩ := bind_eq_ok.mp h
    obtain ⟨values, hvalues, hlen, hcur, hrest⟩ := ih hpresent.2 h
    have hsize := length_of_denoted hpresent.1 hv
    refine ⟨v ++ values, ?_, ?_, ?_, fun q more => ?_⟩
    · rw [inlineSlots, hv, ok_bind, hvalues]
      rfl
    · rw [List.length_append, hlen, hsize, List.map_cons, Layout.sourceSize_cons, Slot.streamSize,
        hdirect]
      rfl
    · rw [hcur, Layout.sourceSize_cons, Nat.add_assoc]
    · have hwrite' : writeValue stride base (s.inlined.transfer .direct) v out = .ok out₁ := hwrite
      rw [List.map_cons, List.filterMap_cons_some ht', readVertex, List.append_assoc,
        readValue_inlined hsize, ok_bind]
      simp only [hwrite', ok_bind]
      rw [hrest, List.length_append, Nat.add_assoc]

variable {l : Loader}

section Separate

variable (hl : l.layout.Separate)
include hl

/-- The values of vertices are read like the vertices themselves. -/
theorem packVertices_inlined {n p : Nat} {r : Cursor × Array UInt8}
    (h : l.packVertices arrays n (.ofOffset dl p) = .ok r) :
    ∃ values, inlineVertices arrays dl l n p = .ok values ∧
      values.length = l.inlined.layout.sourceStride * n ∧
      ∀ q more, l.inlined.packVertices .empty n ⟨q, values ++ more⟩ =
        .ok (⟨q + values.length, more⟩, r.2) := by
  induction n generalizing p r with
  | zero =>
    obtain rfl : (Cursor.ofOffset dl p, #[]) = r := by simpa [packVertices] using h
    exact ⟨[], rfl, rfl, fun q more => rfl⟩
  | succ n ih =>
    rw [packVertices] at h
    obtain ⟨⟨cur, vertex⟩, hvertex, h⟩ := bind_eq_ok.mp h
    obtain ⟨⟨cur', vertices⟩, hvertices, h⟩ := bind_eq_ok.mp h
    obtain rfl : (cur', vertex ++ vertices) = r := Except.ok.inj h
    rw [packVertex, l.transfers_eq] at hvertex
    obtain ⟨values, hvalues, hlen, hcur, hread⟩ := readVertex_inlined hl.presence_ne hvertex
    obtain rfl : cur = _ := hcur
    rw [← hl.sourceStride_eq] at hvertices
    obtain ⟨rest, hrest, hlen', hread'⟩ := ih hvertices
    refine ⟨values ++ rest, ?_, ?_, fun q more => ?_⟩
    · rw [inlineVertices, hvalues, ok_bind, hrest]
      rfl
    · rw [List.length_append, hlen, hlen', Nat.mul_add_one, Nat.add_comm]
      rfl
    · have hfirst : l.inlined.packVertex .empty ⟨q, values ++ (rest ++ more)⟩ =
          .ok (⟨q + values.length, rest ++ more⟩, vertex) := hread q (rest ++ more)
      rw [packVertices, List.append_assoc, hfirst, ok_bind]
      simp only [hread', ok_bind, List.length_append, Nat.add_assoc]
      rfl

/-- The calls of a display list stand in the new list one after the other, each with its vertices,
wherever the new list stands. -/
theorem commands_inlined {p first : Nat} {calls : List DrawCall}
    (hcalls : Commands l.layout.sourceStride dl p first calls) {data : Array UInt8}
    (hdata : l.packCalls arrays dl calls = .ok data) :
    ∃ bytes, inlineCalls arrays dl l calls = .ok bytes ∧
      ∀ pre tail : List UInt8, tail[0]? = none ∨ tail[0]? = some 0 →
        ∃ calls', calls'.map DrawCall.unplaced = calls.map DrawCall.unplaced ∧
          Commands l.inlined.layout.sourceStride (pre ++ (bytes ++ tail)) pre.length first calls' ∧
          l.inlined.packCalls .empty (pre ++ (bytes ++ tail)) calls' = .ok data := by
  induction hcalls generalizing data with
  | done _ =>
    refine ⟨[], rfl, fun pre tail htail => ⟨[], rfl, .done ?_, hdata⟩⟩
    rwa [List.nil_append, List.getElem?_append_right (Nat.le_refl _), Nat.sub_self]
  | @call p first b hi lo c calls hb hb0 hraw hdraws hhi hlo hcount hsource hfirst _ hfit _ ih =>
    rw [packCalls] at hdata
    obtain ⟨⟨cur, vertices⟩, hvertices, hdata⟩ := bind_eq_ok.mp hdata
    obtain ⟨rest, hrest, hdata⟩ := bind_eq_ok.mp hdata
    obtain rfl : vertices ++ rest = data := Except.ok.inj hdata
    obtain ⟨values, hvalues, hlen, hread⟩ := packVertices_inlined hl hvertices
    obtain ⟨bytes, hbytes, hnext⟩ := ih hrest
    have hhead : (dl.drop (c.source - 3)).take 3 = [b, hi, lo] := by
      apply List.ext_getElem?
      intro i
      rw [List.getElem?_take, List.getElem?_drop, hsource, Nat.add_sub_cancel]
      rcases i with _ | _ | _ | i
      · simpa using hb
      · simpa using hhi
      · simpa using hlo
      · rw [if_neg (by omega)]
        rfl
    refine ⟨[b, hi, lo] ++ (values ++ bytes), ?_, fun pre tail htail => ?_⟩
    · rw [inlineCalls, hvalues, ok_bind, hbytes, hhead]
      rfl
    · obtain ⟨calls', hsame, hcommands, hpacked⟩ :=
        hnext (pre ++ ([b, hi, lo] ++ values)) tail htail
      have hsplit : pre ++ ([b, hi, lo] ++ values) ++ (bytes ++ tail) =
          pre ++ ([b, hi, lo] ++ (values ++ bytes) ++ tail) := by
        simp only [List.append_assoc]
      have hstop : (pre ++ ([b, hi, lo] ++ values)).length =
          pre.length + 3 + l.inlined.layout.sourceStride * c.count := by
        rw [List.length_append, List.length_append, hlen, Nat.add_assoc]
        rfl
      rw [hsplit, hstop] at hcommands
      rw [hsplit] at hpacked
      have hget : ∀ i, (pre ++ ([b, hi, lo] ++ (values ++ bytes) ++ tail))[pre.length + i]? =
          ([b, hi, lo] ++ (values ++ bytes) ++ tail)[i]? := by
        intro i
        rw [List.getElem?_append_right (by omega), Nat.add_sub_cancel_left]
      have hroom : pre.length + 3 + l.inlined.layout.sourceStride * c.count ≤
          (pre ++ ([b, hi, lo] ++ (values ++ bytes) ++ tail)).length := by
        rw [← hsplit, List.length_append, hstop]
        omega
      refine ⟨{ c with source := pre.length + 3 } :: calls', ?_, ?_, ?_⟩
      · rw [List.map_cons, List.map_cons, hsame]
        rfl
      · exact .call (hget 0) hb0 hraw hdraws (hget 1) (hget 2) hcount rfl hfirst hroom hfit
          hcommands
      · have hplace : Cursor.ofOffset (pre ++ ([b, hi, lo] ++ (values ++ bytes) ++ tail))
            (pre.length + 3) = ⟨pre.length + 3, values ++ (bytes ++ tail)⟩ := by
          rw [Cursor.ofOffset, List.drop_length_add_append]
          simp
        rw [packCalls, hplace, hread, ok_bind]
        simp only [hpacked, ok_bind]
        rfl

end Separate

/-- A display list with values in place of indices, whatever follows behind a zero byte, is run
without arrays to the same mesh, up to the places of its calls. -/
theorem run_inlined {f : VertexFormat} (hl : compile f = .ok l) {m : Mesh}
    (hm : l.run arrays dl = .ok m) :
    ∃ l' bytes, compile f.inlined = .ok l' ∧
      l'.layout.slots = l.layout.slots.map Slot.inlined ∧
      l'.layout.stride = l.layout.stride ∧
      inlineCalls arrays dl l m.calls = .ok bytes ∧
      ∀ tail : List UInt8, tail[0]? = none ∨ tail[0]? = some 0 →
        ∃ calls, calls.map DrawCall.unplaced = m.calls.map DrawCall.unplaced ∧
          l'.run .empty (bytes ++ tail) = .ok { m with calls } := by
  obtain ⟨calls, data, hcalls, hmax, hdata, rfl⟩ := run_eq_ok_iff.mp hm
  obtain ⟨bytes, hbytes, hnew⟩ := commands_inlined (separate_of_compile hl) hcalls hdata
  refine ⟨l.inlined, bytes, compile_inlined hl, rfl, rfl, hbytes, fun tail htail => ?_⟩
  obtain ⟨calls', hsame, hcommands, hpacked⟩ := hnew [] tail htail
  refine ⟨calls', hsame, run_eq_ok_iff.mpr ⟨calls', data, hcommands, ?_, hpacked, ?_⟩⟩
  · rwa [DrawCall.vertexTotal_of_unplaced hsame]
  · exact (meshOf_unplaced rfl hsame data).symm

namespace Sample

/-- The draw calls of the sample with positions and texture coordinates in place of indices. -/
def inlinedList : List UInt8 :=
  [0x98, 0, 2, 3, 14, 15, 16, 17, 1, 2, 3, 4, 52, 6, 10, 11, 12, 13, 5, 6, 7, 8, 50,
    0xA7, 0, 1, 9, 14, 15, 16, 17, 9, 10, 11, 12, 51]

end Sample

/-- The list with values is run to the same mesh, also with a zero byte and another byte behind
it. -/
theorem run_inlined_sample :
    compile Sample.format = .ok Sample.loader ∧
    Sample.loader.run Sample.arrays Sample.list = .ok Sample.mesh ∧
    inlineCalls Sample.arrays Sample.list Sample.loader Sample.mesh.calls =
      .ok Sample.inlinedList ∧
    ∃ l' calls, compile Sample.format.inlined = .ok l' ∧
      calls.map DrawCall.unplaced = Sample.mesh.calls.map DrawCall.unplaced ∧
      l'.run .empty (Sample.inlinedList ++ [0, 0xFF]) = .ok { Sample.mesh with calls } := by
  have hbytes : inlineCalls Sample.arrays Sample.list Sample.loader Sample.mesh.calls =
      .ok Sample.inlinedList := by
    decide +kernel
  obtain ⟨l', bytes, hl', _, _, hbytes', hnew⟩ :=
    run_inlined Sample.compile_format Sample.run_list
  obtain rfl := Except.ok.inj (hbytes.symm.trans hbytes')
  obtain ⟨calls, hcalls, hrun⟩ := hnew [0, 0xFF] (.inr rfl)
  exact ⟨Sample.compile_format, Sample.run_list, hbytes, l', calls, hl', hcalls, hrun⟩

end Loader
end FixedFunction
