import FixedFunction.Proofs.Loader.Buffer
import FixedFunction.Proofs.Loader.Denotation
import FixedFunction.Proofs.Vertex.Placement

/-!
# Vertices in the common buffer

All vertices of a mesh are written into one buffer, slot after slot, while one place moves on in
the display list.

**Invariant.**  The place in the display list is determined by the slots that have been read.  The
slots that have been written hold what the display list denotes for them, and every byte that
belongs to no written slot is as it was.  Later writes keep this because the slots of a vertex do
not overlap and the vertices do not overlap.

**Results.**
* `Loader.Filled`: a vertex of the buffer holds what the display list denotes.
* `Loader.readVertex_eq_ok`, `Loader.readVertices_eq_ok`, `Loader.runPackets_eq_ok`: the invariant
  for one vertex, for the vertices of one call, and for all calls.
-/

namespace FixedFunction
namespace Loader

open DisplayList (Cursor packetOf)

/-- Byte `k` of the buffer belongs to a slot of the vertex that starts at `base`. -/
def Covers (slots : List Slot) (base k : Nat) : Prop :=
  ∃ s, s ∈ slots ∧ base + s.offset ≤ k ∧ k < base + s.stop

theorem Covers.cons {s : Slot} {slots : List Slot} {base k : Nat} (h : Covers slots base k) :
    Covers (s :: slots) base k := by
  obtain ⟨t, ht, hk⟩ := h
  exact ⟨t, List.mem_cons_of_mem s ht, hk⟩

/-- The vertex that starts at `base` holds in every slot what the display list denotes for it,
where the bytes of the vertex in the stream start at position `p`. -/
def Filled (arrays : VertexArrays) (dl : List UInt8) (slots : List Slot) (p base : Nat)
    (out : Array UInt8) : Prop :=
  ∀ before s after, slots = before ++ s :: after →
    ∃ v, denoted arrays dl (p + Layout.sourceSize before) s = .ok v ∧ v.length = s.size ∧
      (out.extract (base + s.offset) (base + s.stop)).toList = v

variable {arrays : VertexArrays} {dl : List UInt8}

/-- A vertex keeps its values as long as the bytes of its slots stay. -/
theorem Filled.congr {slots : List Slot} {p base : Nat} {out out' : Array UInt8}
    (h : Filled arrays dl slots p base out) (hsize : out'.size = out.size)
    (hsame : ∀ k, Covers slots base k → out'[k]? = out[k]?) :
    Filled arrays dl slots p base out' := by
  intro before s after hs
  obtain ⟨v, hv, hlen, hout⟩ := h before s after hs
  refine ⟨v, hv, hlen, ?_⟩
  rw [extract_congr hsize fun k hk hk' => hsame k ⟨s, by simp [hs], hk, hk'⟩]
  exact hout

theorem Filled.cons {s : Slot} {slots : List Slot} {p base : Nat} {out : Array UInt8}
    {v : List UInt8} (hv : denoted arrays dl p s = .ok v) (hlen : v.length = s.size)
    (hout : (out.extract (base + s.offset) (base + s.stop)).toList = v)
    (h : Filled arrays dl slots (p + s.streamSize) base out) :
    Filled arrays dl (s :: slots) p base out := by
  intro before t after hslots
  cases before with
  | nil =>
    obtain ⟨rfl, _⟩ : s = t ∧ slots = after := by simpa using hslots
    exact ⟨v, hv, hlen, hout⟩
  | cons s' before =>
    obtain ⟨rfl, htail⟩ : s = s' ∧ slots = before ++ t :: after := by simpa using hslots
    obtain ⟨w, hw, hrest⟩ := h before t after htail
    exact ⟨w, by rwa [Layout.sourceSize_cons, ← Nat.add_assoc], hrest⟩

/-- A vertex that has been read holds what the display list denotes, and no other byte of the
buffer has changed. -/
theorem readVertex_eq_ok {stride base : Nat} {slots : List Slot}
    (hpresent : ∀ s, s ∈ slots → s.presence ≠ .absent)
    (hpair : slots.Pairwise fun s t => s.stop ≤ t.offset)
    {p : Nat} {out out' : Array UInt8} {cur : Cursor}
    (h : readVertex stride arrays base (slots.filterMap Transfer.ofSlot?) (.ofOffset dl p) out =
      .ok (cur, out')) :
    cur = .ofOffset dl (p + Layout.sourceSize slots) ∧ out'.size = out.size ∧
      Filled arrays dl slots p base out' ∧
      ∀ k, ¬ Covers slots base k → out'[k]? = out[k]? := by
  induction slots generalizing p out with
  | nil =>
    obtain ⟨rfl, rfl⟩ : Cursor.ofOffset dl p = cur ∧ out = out' := by simpa [readVertex] using h
    refine ⟨rfl, rfl, ?_, fun _ _ => rfl⟩
    intro before s after hs
    simp at hs
  | cons s slots ih =>
    rw [List.forall_mem_cons] at hpresent
    rw [List.pairwise_cons] at hpair
    obtain ⟨source, hsource, ht⟩ := Transfer.ofSlot?_of_present hpresent.1
    rw [List.filterMap_cons_some ht, readVertex] at h
    obtain ⟨⟨v, cur₁⟩, hread, h⟩ := bind_eq_ok.mp h
    obtain ⟨hv, rfl⟩ := readValue_eq_ok hsource hread
    obtain ⟨out₁, hwrite, h⟩ := bind_eq_ok.mp h
    obtain ⟨⟨hlen, hstop, hroom⟩, rfl⟩ := writeValue_eq_ok.mp hwrite
    obtain ⟨hcur, hsize, hfilled, hsame⟩ := ih hpresent.2 hpair.2 h
    simp only [Slot.transfer] at hlen hstop hsize hfilled hsame
    rw [size_overwrite] at hsize
    have hend : base + s.offset + v.length = base + s.stop := by
      rw [hlen, Slot.stop, Nat.add_assoc]
    have hback : ((overwrite out (base + s.offset) v).extract (base + s.offset)
        (base + s.offset + v.length)).toList = v :=
      extract_overwrite (by omega)
    refine ⟨?_, hsize, hfilled.cons hv hlen ?_, ?_⟩
    · rw [hcur, Layout.sourceSize_cons, Nat.add_assoc]
    · -- The slots behind this one start where it ends.
      have hkept : out'.extract (base + s.offset) (base + s.stop) =
          (overwrite out (base + s.offset) v).extract (base + s.offset) (base + s.stop) := by
        refine extract_congr (by simpa using hsize) fun k _ hk => hsame k ?_
        rintro ⟨t, ht, hkt, _⟩
        have := hpair.1 t ht
        omega
      rw [hkept, ← hend]
      exact hback
    · intro k hk
      rw [hsame k fun hcovers => hk hcovers.cons]
      refine getElem?_overwrite_of_outside fun hks => hk ⟨s, by simp, hks.1, ?_⟩
      omega

/-- A byte of a slot tells the number of its vertex. -/
theorem Covers.div_eq {stride n k : Nat} {slots : List Slot}
    (hstop : ∀ s, s ∈ slots → s.stop ≤ stride) (h : Covers slots (n * stride) k) :
    k / stride = n := by
  obtain ⟨s, hs, hk, hk'⟩ := h
  have := hstop s hs
  refine Nat.div_eq_of_lt_le (by omega) ?_
  rw [Nat.succ_mul]
  omega

variable {l : Loader}

/-- The vertices of a call that have been read hold what the display list denotes, and no other
byte of the buffer has changed. -/
theorem readVertices_eq_ok (hl : l.layout.Separate) {n first p : Nat} {out out' : Array UInt8}
    {cur : Cursor} (h : l.readVertices arrays n first (.ofOffset dl p) out = .ok (cur, out')) :
    cur = .ofOffset dl (p + n * l.layout.sourceStride) ∧ out'.size = out.size ∧
      (∀ i, i < n → Filled arrays dl l.layout.slots (p + i * l.layout.sourceStride)
        ((first + i) * l.layout.stride) out') ∧
      ∀ k, (∀ i, i < n → ¬ Covers l.layout.slots ((first + i) * l.layout.stride) k) →
        out'[k]? = out[k]? := by
  induction n generalizing first p out with
  | zero =>
    obtain ⟨rfl, rfl⟩ : Cursor.ofOffset dl p = cur ∧ out = out' := by
      simpa [readVertices] using h
    refine ⟨by simp, rfl, ?_, fun _ _ => rfl⟩
    intro i hi
    omega
  | succ n ih =>
    rw [readVertices, l.transfers_eq] at h
    obtain ⟨⟨cur₁, out₁⟩, hread, h⟩ := bind_eq_ok.mp h
    obtain ⟨rfl, hsize₁, hfilled₁, hsame₁⟩ :=
      readVertex_eq_ok hl.presence_ne hl.pairwise hread
    rw [← hl.sourceStride_eq] at h
    obtain ⟨hcur, hsize, hfilled, hsame⟩ := ih h
    have hnext : ∀ i, first + 1 + i = first + (i + 1) := by omega
    have hplace : ∀ i, p + l.layout.sourceStride + i * l.layout.sourceStride =
        p + (i + 1) * l.layout.sourceStride := by
      intro i
      rw [Nat.succ_mul]
      omega
    simp only [hnext, hplace] at hcur hfilled hsame
    refine ⟨hcur, hsize.trans hsize₁, ?_, ?_⟩
    · intro i hi
      cases i with
      | succ i => exact hfilled i (by omega)
      | zero =>
        rw [Nat.zero_mul, Nat.add_zero, Nat.add_zero]
        refine hfilled₁.congr hsize fun k hk => hsame k fun i _ hk' => ?_
        have := hk.div_eq hl.stop_le
        have := hk'.div_eq hl.stop_le
        omega
    · intro k hk
      rw [hsame k fun i hi => hk (i + 1) (by omega), hsame₁ k]
      simpa using hk 0 (by omega)

/-- One packet extends the indices and writes to the vertices, independently. -/
theorem runPacket_eq_ok {packet : DisplayList.Packet} {out out' : Array UInt16 × Array UInt8}
    (h : l.runPacket arrays out packet = .ok out') :
    packet.call.appendIndices out.1 = .ok out'.1 ∧
      ∃ cur, l.readVertices arrays packet.call.count packet.call.first packet.start out.2 =
        .ok (cur, out'.2) := by
  obtain ⟨indices, hindices, h⟩ := bind_eq_ok.mp h
  obtain ⟨⟨cur, data⟩, hread, h⟩ := bind_eq_ok.mp h
  obtain rfl : (indices, data) = out' := Except.ok.inj h
  exact ⟨hindices, cur, hread⟩

/-- The vertices of all calls that have been read hold what the display list denotes, and no other
byte of the buffer has changed. -/
theorem runPackets_eq_ok (hl : l.layout.Separate) {calls : List DrawCall} {first : Nat}
    (hnum : DrawCall.Numbered first calls) {out out' : Array UInt16 × Array UInt8}
    (h : (calls.map (packetOf dl)).foldlM (l.runPacket arrays) out = .ok out') :
    out'.2.size = out.2.size ∧
      (∀ c, c ∈ calls → ∀ i, i < c.count →
        Filled arrays dl l.layout.slots (c.source + i * l.layout.sourceStride)
          ((c.first + i) * l.layout.stride) out'.2) ∧
      ∀ k, (∀ n, first ≤ n → n < first + DrawCall.vertexTotal calls →
        ¬ Covers l.layout.slots (n * l.layout.stride) k) → out'.2[k]? = out.2[k]? := by
  induction calls generalizing first out with
  | nil =>
    obtain rfl : out = out' := by simpa [pure, Except.pure] using h
    refine ⟨rfl, ?_, fun _ _ => rfl⟩
    intro c hc
    simp at hc
  | cons c calls ih =>
    rw [List.map_cons, List.foldlM_cons] at h
    obtain ⟨out₁, hrun, h⟩ := bind_eq_ok.mp h
    obtain ⟨_, cur, hread⟩ := runPacket_eq_ok hrun
    obtain ⟨_, hsize₁, hfilled₁, hsame₁⟩ := readVertices_eq_ok hl hread
    obtain ⟨hsize, hfilled, hsame⟩ := ih hnum.2 h
    have hfirst : c.first = first := hnum.1
    refine ⟨hsize.trans hsize₁, ?_, ?_⟩
    · intro d hd i hi
      rcases List.mem_cons.mp hd with rfl | hd
      · -- The later calls write vertices with higher numbers only.
        refine (hfilled₁ i hi).congr hsize fun k hk => hsame k fun n hn _ hk' => ?_
        have := hk.div_eq hl.stop_le
        have := hk'.div_eq hl.stop_le
        simp only [packetOf] at *
        omega
      · exact hfilled d hd i hi
    · intro k hk
      rw [DrawCall.vertexTotal_cons] at hk
      rw [hsame k fun n hn hn' => hk n (by omega) (by omega)]
      refine hsame₁ k fun i hi => hk (c.first + i) (by omega) ?_
      simp only [packetOf] at hi
      omega

end Loader
end FixedFunction
