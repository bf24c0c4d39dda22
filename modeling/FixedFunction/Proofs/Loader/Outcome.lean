import FixedFunction.Proofs.DisplayList.Triangulation
import FixedFunction.Proofs.Loader.Run

/-!
# Which display lists can be run

A run reads the values of a display list in stream order: call after call, vertex after vertex,
slot after slot.  It stops at the first place at which an element overruns the addresses of the
machine, or is refused at the first place at which the display list denotes no value, whichever
place comes first.

**Results.**
* `Loader.places`: the places of all values in stream order.
* `Loader.FirstDefect`: the first place at which no value is denoted.
* `Loader.readVertex_follows`, `Loader.readVertices_follows`, `Loader.runPackets_follows`,
  `Loader.run_follows`: reading fails exactly with the first failure.
* `Loader.run_ok_iff`, `Loader.run_error_iff`: which display lists can be run, and the cause for
  which each other one is refused.
-/

namespace FixedFunction
namespace Loader

open DisplayList (Commands Cursor packetOf map_call_packetOf)

/-- The slots of one vertex with their positions in the stream, where the vertex starts at `p`. -/
def placesFrom (p : Nat) : List Slot → List (Nat × Slot)
  | [] => []
  | s :: slots => (p, s) :: placesFrom (p + s.streamSize) slots

/-- The places of `n` vertices, where the first vertex starts at `p`. -/
def vertexPlaces (l : Loader) (p n : Nat) : List (Nat × Slot) :=
  (List.range n).flatMap fun i => placesFrom (p + i * l.layout.sourceStride) l.layout.slots

/-- The places of all values in stream order. -/
def places (l : Loader) (calls : List DrawCall) : List (Nat × Slot) :=
  calls.flatMap fun c => l.vertexPlaces c.source c.count

variable (arrays : VertexArrays) (dl : List UInt8)

/-- The cause for which no value is denoted at the first place without one. -/
def firstDefect? (places : List (Nat × Slot)) : Option Error :=
  places.findSome? fun a => defect arrays dl a.1 a.2

/-- The failure at the first place at which reading fails. -/
def firstFailure? (places : List (Nat × Slot)) : Option Failure :=
  places.findSome? fun a => failure? arrays dl a.1 a.2

/-- No value is denoted at one of the places, and at all places before it there is one. -/
def FirstDefect (places : List (Nat × Slot)) (e : Error) : Prop :=
  ∃ before a after, places = before ++ a :: after ∧
    (∀ b, b ∈ before → ∃ v, denoted arrays dl b.1 b.2 = .ok v) ∧
    denoted arrays dl a.1 a.2 = .error e

variable {arrays dl} {l : Loader}

theorem defect_eq_none_iff {p : Nat} {s : Slot} :
    defect arrays dl p s = none ↔ ∃ v, denoted arrays dl p s = .ok v := by
  unfold defect
  split <;> simp_all

theorem defect_eq_some_iff {p : Nat} {s : Slot} {e : Error} :
    defect arrays dl p s = some e ↔ denoted arrays dl p s = .error e := by
  unfold defect
  split <;> simp_all

theorem firstDefect?_eq_none_iff {places : List (Nat × Slot)} :
    firstDefect? arrays dl places = none ↔
      ∀ a, a ∈ places → ∃ v, denoted arrays dl a.1 a.2 = .ok v := by
  simp only [firstDefect?, List.findSome?_eq_none_iff, defect_eq_none_iff]

theorem firstDefect?_eq_some_iff {places : List (Nat × Slot)} {e : Error} :
    firstDefect? arrays dl places = some e ↔ FirstDefect arrays dl places e := by
  simp only [firstDefect?, List.findSome?_eq_some_iff, defect_eq_none_iff, defect_eq_some_iff]
  constructor
  · rintro ⟨before, a, after, h, he, hb⟩
    exact ⟨before, a, after, h, hb, he⟩
  · rintro ⟨before, a, after, h, hb, he⟩
    exact ⟨before, a, after, h, he, hb⟩

theorem firstFailure?_cons (a : Nat × Slot) (places : List (Nat × Slot)) :
    firstFailure? arrays dl (a :: places) =
      (failure? arrays dl a.1 a.2).or (firstFailure? arrays dl places) := by
  cases h : failure? arrays dl a.1 a.2 <;> simp [firstFailure?, h]

theorem firstFailure?_append (places places' : List (Nat × Slot)) :
    firstFailure? arrays dl (places ++ places') =
      (firstFailure? arrays dl places).or (firstFailure? arrays dl places') :=
  List.findSome?_append

/-- A refusal is due to a defect. -/
theorem exists_defect_of_firstFailure? {places : List (Nat × Slot)} {e : Error}
    (h : firstFailure? arrays dl places = some (.refused e)) :
    ∃ a, a ∈ places ∧ denoted arrays dl a.1 a.2 = .error e := by
  obtain ⟨a, ha, h⟩ := List.exists_of_findSome?_eq_some h
  rw [failure?] at h
  split at h
  case isTrue => simp at h
  case isFalse =>
    obtain ⟨e', he, h⟩ := Option.map_eq_some_iff.mp h
    obtain rfl := Failure.refused.inj h
    exact ⟨a, ha, defect_eq_some_iff.mp he⟩

theorem firstFailure?_of_addressable {places : List (Nat × Slot)}
    (h : ∀ a, a ∈ places → Addressable arrays a.2) :
    firstFailure? arrays dl places = (firstDefect? arrays dl places).map .refused := by
  induction places with
  | nil => rfl
  | cons a places ih =>
    rw [List.forall_mem_cons] at h
    rw [firstFailure?_cons, failure?_of_addressable h.1, ih h.2, firstDefect?, firstDefect?,
      List.findSome?_cons]
    cases defect arrays dl a.1 a.2 <;> rfl

theorem vertexPlaces_succ (p n : Nat) :
    l.vertexPlaces p (n + 1) =
      placesFrom p l.layout.slots ++ l.vertexPlaces (p + l.layout.sourceStride) n := by
  rw [vertexPlaces, List.range_succ_eq_map, List.flatMap_cons, List.flatMap_map, Nat.zero_mul,
    Nat.add_zero, vertexPlaces]
  simp only [Nat.succ_mul, Nat.add_assoc, Nat.add_comm l.layout.sourceStride]

/-- The bytes of every place are among those of its vertex. -/
theorem placesFrom_bounds {slots : List Slot} {p : Nat} :
    ∀ a, a ∈ placesFrom p slots →
      a.2 ∈ slots ∧ a.1 + a.2.streamSize ≤ p + Layout.sourceSize slots := by
  induction slots generalizing p with
  | nil => simp [placesFrom]
  | cons s slots ih =>
    intro a ha
    rw [Layout.sourceSize_cons]
    rcases List.mem_cons.mp ha with rfl | ha
    · refine ⟨by simp, ?_⟩
      show p + s.streamSize ≤ _
      omega
    · have := ih a ha
      exact ⟨List.mem_cons_of_mem _ this.1, by omega⟩

/-- The bytes of every place are among those of its call. -/
theorem vertexPlaces_bounds (hl : l.layout.Separate) {p n : Nat} :
    ∀ a, a ∈ l.vertexPlaces p n →
      a.2 ∈ l.layout.slots ∧ a.1 + a.2.streamSize ≤ p + l.layout.sourceStride * n := by
  intro a ha
  obtain ⟨i, hi, ha⟩ := List.mem_flatMap.mp ha
  rw [List.mem_range] at hi
  have hplace := placesFrom_bounds a ha
  rw [← hl.sourceStride_eq] at hplace
  have hle : i * l.layout.sourceStride + l.layout.sourceStride ≤ l.layout.sourceStride * n :=
    calc i * l.layout.sourceStride + l.layout.sourceStride
        = l.layout.sourceStride * (i + 1) := by rw [Nat.mul_add_one, Nat.mul_comm]
      _ ≤ l.layout.sourceStride * n := Nat.mul_le_mul_left _ hi
  exact ⟨hplace.1, by omega⟩

theorem readVertex_follows {stride base : Nat} {slots : List Slot}
    (hpresent : ∀ s, s ∈ slots → s.presence ≠ .absent)
    (hstop : ∀ s, s ∈ slots → s.stop ≤ stride)
    {p : Nat} {out : Array UInt8} (hroom : base + stride ≤ out.size) :
    Follows (readVertex stride arrays base (slots.filterMap Transfer.ofSlot?) (.ofOffset dl p) out)
      (firstFailure? arrays dl (placesFrom p slots)) fun r =>
        r.1 = .ofOffset dl (p + Layout.sourceSize slots) ∧ r.2.size = out.size := by
  induction slots generalizing p out with
  | nil => exact .of_ok ⟨rfl, rfl⟩
  | cons s slots ih =>
    rw [List.forall_mem_cons] at hpresent hstop
    obtain ⟨source, hsource, ht⟩ := Transfer.ofSlot?_of_present hpresent.1
    rw [placesFrom, firstFailure?_cons, List.filterMap_cons_some ht, readVertex]
    refine (readValue_follows hsource).bind ?_
    rintro ⟨v, cur⟩ ⟨hv, rfl⟩
    have hlen := length_of_denoted hpresent.1 hv
    have hwrite : writeValue stride base (s.transfer source) v out =
        .ok (overwrite out (base + s.offset) v) :=
      writeValue_eq_ok.mpr ⟨⟨hlen, hstop.1, hroom⟩, rfl⟩
    have hroom' : base + stride ≤ (overwrite out (base + s.offset) v).size := by
      rwa [size_overwrite]
    have hrest := ih hpresent.2 hstop.2 (p := p + s.streamSize) hroom'
    rw [Nat.add_assoc, ← Layout.sourceSize_cons, size_overwrite] at hrest
    simpa only [hwrite, ok_bind] using hrest

section Layout

variable (hl : l.layout.Separate)
include hl

theorem readVertices_follows {n first p : Nat} {out : Array UInt8}
    (hroom : (first + n) * l.layout.stride ≤ out.size) :
    Follows (l.readVertices arrays n first (.ofOffset dl p) out)
      (firstFailure? arrays dl (l.vertexPlaces p n)) fun r =>
        r.1 = .ofOffset dl (p + l.layout.sourceStride * n) ∧ r.2.size = out.size := by
  induction n generalizing first p out with
  | zero => exact .of_ok ⟨rfl, rfl⟩
  | succ n ih =>
    rw [vertexPlaces_succ, firstFailure?_append, readVertices, l.transfers_eq]
    have hfirst : first * l.layout.stride + l.layout.stride ≤ out.size :=
      calc first * l.layout.stride + l.layout.stride = (first + 1) * l.layout.stride := by
            rw [Nat.succ_mul]
        _ ≤ (first + (n + 1)) * l.layout.stride := Nat.mul_le_mul_right _ (by omega)
        _ ≤ out.size := hroom
    refine (readVertex_follows hl.presence_ne hl.stop_le hfirst).bind ?_
    rintro ⟨cur, out'⟩ ⟨rfl, hsize⟩
    rw [← hl.sourceStride_eq]
    have hroom' : (first + 1 + n) * l.layout.stride ≤ out'.size := by
      rwa [hsize, Nat.add_assoc, Nat.add_comm 1]
    have hrest := ih (p := p + l.layout.sourceStride) hroom'
    rw [hsize, Nat.add_assoc, Nat.add_comm l.layout.sourceStride, ← Nat.mul_add_one] at hrest
    exact hrest

/-- Running the calls of a display list fails exactly with the first failure. -/
theorem runPackets_follows {calls : List DrawCall} {out : Array UInt16 × Array UInt8}
    (hcalls : ∀ c, c ∈ calls → c.count < 65536 ∧ c.first + c.count ≤ 65536 ∧
      (c.first + c.count) * l.layout.stride ≤ out.2.size) :
    Follows ((calls.map (packetOf dl)).foldlM (l.runPacket arrays) out)
      (firstFailure? arrays dl (l.places calls)) fun _ => True := by
  induction calls generalizing out with
  | nil => exact .of_ok trivial
  | cons c calls ih =>
    obtain ⟨hcount, hfit, hroom⟩ := hcalls c (by simp)
    have hplaces : l.places (c :: calls) = l.vertexPlaces c.source c.count ++ l.places calls := by
      rw [places, List.flatMap_cons, places]
    have hcall : Follows (l.runPacket arrays out (packetOf dl c))
        (firstFailure? arrays dl (l.vertexPlaces c.source c.count)) fun out' =>
          out'.2.size = out.2.size := by
      rw [runPacket, packetOf, DrawCall.appendIndices_eq hcount hfit, ok_bind,
        ← Option.or_none (o := firstFailure? arrays dl (l.vertexPlaces c.source c.count))]
      refine (readVertices_follows hl hroom).bind ?_
      rintro ⟨cur, out'⟩ ⟨_, hsize⟩
      exact .of_ok hsize
    rw [List.map_cons, List.foldlM_cons, hplaces, firstFailure?_append]
    refine hcall.bind fun out' hsize => ih fun d hd => ?_
    rw [hsize]
    exact hcalls d (List.mem_cons_of_mem _ hd)

/-- A call is read to the end of its vertices, and nothing is missing there. -/
theorem readVertices_call {before after : List DrawCall} {c : DrawCall}
    (hcalls : Commands l.layout.sourceStride dl 0 0 (before ++ c :: after)) {out : Array UInt8}
    (hout : out.size = l.layout.stride * DrawCall.vertexTotal (before ++ c :: after)) :
    (∀ p n, l.readVertices arrays c.count c.first (.ofOffset dl c.source) out ≠
      .error (.refused (.truncatedList p n))) ∧
    ∀ cur out', l.readVertices arrays c.count c.first (.ofOffset dl c.source) out =
        .ok (cur, out') →
      cur = .ofOffset dl (c.source + l.layout.sourceStride * c.count) := by
  have hc : c ∈ before ++ c :: after := by simp
  have hbounds := hcalls.numbered.bounds c hc
  have hroom : (c.first + c.count) * l.layout.stride ≤ out.size := by
    rw [hout, Nat.mul_comm]
    exact Nat.mul_le_mul_left _ (by omega)
  have hfollows : Follows (l.readVertices arrays c.count c.first (.ofOffset dl c.source) out)
      (firstFailure? arrays dl (l.vertexPlaces c.source c.count)) _ :=
    readVertices_follows hl hroom
  constructor
  · intro p n h
    obtain ⟨a, ha, hd⟩ := exists_defect_of_firstFailure? (hfollows.eq_error_iff.mp h)
    have hplace := vertexPlaces_bounds hl a ha
    have hlen := (hcalls.mem_bounds c hc).2.2
    rcases error_of_denoted (by omega) hd with h | ⟨i, h⟩ <;> simp at h
  · intro cur out' h
    exact (hfollows.of_eq_ok h).1

end Layout

theorem run_of_drawCalls_error {e : Failure} (h : l.drawCalls dl = .error e) :
    l.run arrays dl = .error e := by
  simp [run, packets_eq_error h]

theorem run_of_lt_vertexTotal {calls : List DrawCall} (h : l.drawCalls dl = .ok calls)
    (hmax : Mesh.maxVertices < DrawCall.vertexTotal calls) :
    l.run arrays dl = .error (.refused (.tooManyVertices (DrawCall.vertexTotal calls))) := by
  obtain ⟨_, hp⟩ := drawCalls_eq_ok h
  rw [run, hp, ok_bind]
  simp only [map_call_packetOf, if_pos hmax]
  rfl

/-- A run of a display list whose draw calls are few enough fails exactly with the first failure. -/
theorem run_follows {f : VertexFormat} (hl : compile f = .ok l)
    {calls : List DrawCall} (h : l.drawCalls dl = .ok calls)
    (hmax : DrawCall.vertexTotal calls ≤ Mesh.maxVertices) :
    Follows (l.run arrays dl) (firstFailure? arrays dl (l.places calls)) fun _ => True := by
  obtain ⟨hcalls, hp⟩ := drawCalls_eq_ok h
  have hpackets : Follows ((calls.map (packetOf dl)).foldlM (l.runPacket arrays)
      (l.emptyBuffers (DrawCall.vertexTotal calls)))
      (firstFailure? arrays dl (l.places calls)) fun _ => True := by
    refine runPackets_follows (separate_of_compile hl) fun c hc => ?_
    have hbounds := hcalls.numbered.bounds c hc
    have hcount := (hcalls.mem_bounds c hc).2.1
    rw [Nat.zero_add] at hbounds
    refine ⟨hcount, Nat.le_trans hbounds.2 hmax, ?_⟩
    rw [emptyBuffers, Array.size_replicate, Nat.mul_comm]
    exact Nat.mul_le_mul_left _ hbounds.2
  rw [run, hp, ok_bind]
  simp only [map_call_packetOf, if_neg (Nat.not_lt.mpr hmax)]
  rw [← Option.or_none (o := firstFailure? arrays dl (l.places calls))]
  exact hpackets.bind fun out _ => .of_ok trivial

section Places

variable {f : VertexFormat} (hl : compile f = .ok l) {calls : List DrawCall}
  (h : l.drawCalls dl = .ok calls)
include hl h

/-- The bytes of every place of a display list are there. -/
theorem places_bounds :
    ∀ a, a ∈ l.places calls → a.2 ∈ l.layout.slots ∧ a.1 + a.2.streamSize ≤ dl.length := by
  intro a ha
  obtain ⟨c, hc, ha⟩ := List.mem_flatMap.mp ha
  have hplace := vertexPlaces_bounds (separate_of_compile hl) a ha
  have hroom := ((drawCalls_eq_ok h).1.mem_bounds c hc).2.2
  exact ⟨hplace.1, by omega⟩

/-- In the places of a display list, only an array can be at fault. -/
theorem error_of_firstDefect {e : Error} (he : FirstDefect arrays dl (l.places calls) e) :
    ∃ s, s ∈ l.layout.slots ∧ (e = .missingArray s.attr ∨ ∃ i, e = .arrayOutOfBounds s.attr i) := by
  obtain ⟨before, a, after, hplaces, _, ha⟩ := he
  have hplace := places_bounds hl h a (by rw [hplaces]; simp)
  exact ⟨a.2, hplace.1, error_of_denoted hplace.2 ha⟩

/-- Direct values are always denoted. -/
theorem denoted_places_iff :
    (∀ a, a ∈ l.places calls → ∃ v, denoted arrays dl a.1 a.2 = .ok v) ↔
      ∀ a, a ∈ l.places calls → a.2.presence ≠ .direct →
        ∃ v, denoted arrays dl a.1 a.2 = .ok v := by
  refine ⟨fun hall a ha _ => hall a ha, fun hindexed a ha => ?_⟩
  by_cases hs : a.2.presence = .direct
  · exact denoted_of_direct hs (places_bounds hl h a ha).2
  · exact hindexed a ha hs

end Places

section Compiled

variable {f : VertexFormat} (hl : compile f = .ok l)
  (haddr : ∀ s, s ∈ l.layout.slots → Addressable arrays s)
include hl haddr

theorem run_follows_defect {calls : List DrawCall} (h : l.drawCalls dl = .ok calls)
    (hmax : DrawCall.vertexTotal calls ≤ Mesh.maxVertices) :
    Follows (l.run arrays dl) ((firstDefect? arrays dl (l.places calls)).map .refused)
      fun _ => True := by
  rw [← firstFailure?_of_addressable fun a ha => haddr a.2 (places_bounds hl h a ha).1]
  exact run_follows hl h hmax

theorem run_ok_iff :
    (∃ m, l.run arrays dl = .ok m) ↔
      ∃ calls, l.drawCalls dl = .ok calls ∧ DrawCall.vertexTotal calls ≤ Mesh.maxVertices ∧
        ∀ a, a ∈ l.places calls → ∃ v, denoted arrays dl a.1 a.2 = .ok v := by
  simp only [← firstDefect?_eq_none_iff]
  constructor
  · rintro ⟨m, hm⟩
    cases h : l.drawCalls dl with
    | error e => simp [run_of_drawCalls_error h] at hm
    | ok calls =>
      have hmax : DrawCall.vertexTotal calls ≤ Mesh.maxVertices := by
        refine Nat.le_of_not_lt fun hlt => ?_
        simp [run_of_lt_vertexTotal h hlt] at hm
      have hnone := (run_follows_defect hl haddr h hmax).exists_ok_iff.mp ⟨m, hm⟩
      exact ⟨calls, rfl, hmax, Option.map_eq_none_iff.mp hnone⟩
  · rintro ⟨calls, h, hmax, hd⟩
    exact (run_follows_defect hl haddr h hmax).exists_ok_iff.mpr (Option.map_eq_none_iff.mpr hd)

theorem run_error_iff {x : Failure} :
    l.run arrays dl = .error x ↔
      l.drawCalls dl = .error x ∨
      ∃ calls, l.drawCalls dl = .ok calls ∧
        (Mesh.maxVertices < DrawCall.vertexTotal calls ∧
            x = .refused (.tooManyVertices (DrawCall.vertexTotal calls)) ∨
          DrawCall.vertexTotal calls ≤ Mesh.maxVertices ∧
            ∃ e, x = .refused e ∧ FirstDefect arrays dl (l.places calls) e) := by
  simp only [← firstDefect?_eq_some_iff]
  cases h : l.drawCalls dl with
  | error e => simp [run_of_drawCalls_error h]
  | ok calls =>
    rcases Nat.lt_or_ge Mesh.maxVertices (DrawCall.vertexTotal calls) with hmax | hmax
    · simp [run_of_lt_vertexTotal h hmax, hmax, Nat.not_le.mpr hmax, eq_comm]
    · rw [(run_follows_defect hl haddr h hmax).eq_error_iff, Option.map_eq_some_iff]
      simp [hmax, Nat.not_lt.mpr hmax, eq_comm, and_comm]

end Compiled

/-- Exactly which display lists can be run, and with which cause each other one is refused.  The
vertices of a call are read to where the next command begins, so that nothing is ever missing in
the second pass. -/
theorem run_outcome {f : VertexFormat} (hl : compile f = .ok l)
    (haddr : ∀ s, s ∈ l.layout.slots → ∀ a, arrays.get s.attr = some a →
      a.offset + s.size * 65536 < 1 <<< 64)
    (hdl : l.drawCalls dl ≠ .error (.stopped .overflow)) :
    ((∃ m, l.run arrays dl = .ok m) ↔
      ∃ calls, l.drawCalls dl = .ok calls ∧ DrawCall.vertexTotal calls ≤ 65536 ∧
        ∀ a, a ∈ l.places calls → a.2.presence ≠ .direct →
          ∃ v, denoted arrays dl a.1 a.2 = .ok v) ∧
    (∀ x, l.run arrays dl = .error x ↔
      ∃ e, x = .refused e ∧
        (l.drawCalls dl = .error (.refused e) ∨
        ∃ calls, l.drawCalls dl = .ok calls ∧
          (65536 < DrawCall.vertexTotal calls ∧
              e = .tooManyVertices (DrawCall.vertexTotal calls) ∨
            DrawCall.vertexTotal calls ≤ 65536 ∧
              FirstDefect arrays dl (l.places calls) e ∧
              ∃ s, s ∈ l.layout.slots ∧
                (e = .missingArray s.attr ∨ ∃ i, e = .arrayOutOfBounds s.attr i)))) ∧
    (∀ before c after, l.drawCalls dl = .ok (before ++ c :: after) →
      ∀ out : Array UInt8,
        out.size = l.layout.stride * DrawCall.vertexTotal (before ++ c :: after) →
        (∀ p n, l.readVertices arrays c.count c.first (.ofOffset dl c.source) out ≠
          .error (.refused (.truncatedList p n))) ∧
        ∀ cur out', l.readVertices arrays c.count c.first (.ofOffset dl c.source) out =
            .ok (cur, out') →
          cur.offset = c.source + l.layout.sourceStride * c.count ∧
          (after = [] → dl[cur.offset]? = none ∨ dl[cur.offset]? = some 0) ∧
          ∀ next later, after = next :: later → next.source = cur.offset + 3) := by
  refine ⟨?_, fun x => ?_, fun before c after h out hout => ?_⟩
  · rw [run_ok_iff hl haddr]
    refine exists_congr fun calls => and_congr_right fun h => and_congr_right fun _ => ?_
    exact denoted_places_iff hl h
  · rw [run_error_iff hl haddr]
    constructor
    · rintro (h | ⟨calls, h, ⟨hmax, rfl⟩ | ⟨hmax, e, rfl, he⟩⟩)
      · cases x with
        | refused e => exact ⟨e, rfl, .inl h⟩
        | stopped t =>
          rw [DisplayList.stopped_of_scanFrom (packets_eq_error h)] at h
          contradiction
      · exact ⟨_, rfl, .inr ⟨calls, h, .inl ⟨hmax, rfl⟩⟩⟩
      · exact ⟨e, rfl, .inr ⟨calls, h, .inr ⟨hmax, he, error_of_firstDefect hl h he⟩⟩⟩
    · rintro ⟨e, rfl, h | ⟨calls, h, ⟨hmax, rfl⟩ | ⟨hmax, he, _⟩⟩⟩
      · exact .inl h
      · exact .inr ⟨calls, h, .inl ⟨hmax, rfl⟩⟩
      · exact .inr ⟨calls, h, .inr ⟨hmax, e, rfl, he⟩⟩
  · obtain ⟨hcalls, _⟩ := drawCalls_eq_ok h
    obtain ⟨hmissing, hread⟩ := readVertices_call (separate_of_compile hl) hcalls hout
    refine ⟨hmissing, fun cur out' h' => ?_⟩
    rw [hread cur out' h']
    refine ⟨rfl, ?_, ?_⟩
    · rintro rfl
      cases hcalls.drop with
      | done hend => exact hend
    · rintro next later rfl
      cases hcalls.drop with
      | call _ _ _ _ _ _ _ hsource => exact hsource

/-- The texture coordinate of the second vertex has an index that its array does not hold. -/
theorem run_outcome_sample :
    compile Sample.format = .ok Sample.loader ∧
    (∀ s, s ∈ Sample.loader.layout.slots → ∀ a, Sample.arrays.get s.attr = some a →
      a.offset + s.size * 65536 < 1 <<< 64) ∧
    Sample.loader.drawCalls Sample.brokenList ≠ .error (.stopped .overflow) ∧
    Sample.loader.run Sample.arrays Sample.brokenList =
      .error (.refused (.arrayOutOfBounds .tex0 7)) := by
  have haddr : ∀ s, s ∈ Sample.loader.layout.slots → ∀ a, Sample.arrays.get s.attr = some a →
      a.offset + s.size * 65536 < 1 <<< 64 := by
    intro s hs a ha
    simp only [Sample.loader, ofLayout, Layout.ofSlots, List.mem_cons, List.not_mem_nil,
      or_false] at hs
    rcases hs with rfl | rfl | rfl | rfl
    all_goals
      simp [Sample.arrays, VertexArrays.empty, PerAttribute.get_set_of_ne] at ha
    all_goals
      subst ha
      decide
  have hcalls : Sample.loader.drawCalls Sample.brokenList = .ok [⟨.triangleFan, 3, 2, 0⟩] := by
    decide +kernel
  have hdefect : FirstDefect Sample.arrays Sample.brokenList
      (Sample.loader.places [⟨.triangleFan, 3, 2, 0⟩]) (.arrayOutOfBounds .tex0 7) :=
    firstDefect?_eq_some_iff.mp (by decide)
  have hdl : Sample.loader.drawCalls Sample.brokenList ≠ .error (.stopped .overflow) := by
    rw [hcalls]
    simp
  refine ⟨Sample.compile_format, haddr, hdl, ?_⟩
  obtain ⟨_, herror, _⟩ := run_outcome Sample.compile_format haddr hdl
  refine (herror _).mpr ⟨_, rfl, .inr ⟨_, hcalls, .inr ⟨by decide, hdefect, ?_⟩⟩⟩
  exact ⟨⟨.tex0, .index8, .u8, 1, 0, 1, 10⟩, by decide, .inr ⟨7, rfl⟩⟩

end Loader
end FixedFunction
