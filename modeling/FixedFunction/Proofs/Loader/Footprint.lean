import FixedFunction.Proofs.Loader.Addresses
import FixedFunction.Proofs.Loader.Cutting

/-!
# What a mesh depends on

A run reads the bytes of a display list up to its end, and of the arrays it reads the elements whose
indices stand there.  Nothing else that is in the arrays or behind the end has any influence, nor
where in its array an element is.

**Input.**  A run that succeeds, other arrays, and a display list with the same commands.

**Invariant.**  Two runs that read the same value at every place have the same buffer before every
slot, vertex and call.

**Results.**
* `Loader.SharesElement`: two arrays have the same bytes for an index.
* `Loader.sharesElement_iff`: this is what it takes for the same element to be looked up in both.
* `Loader.SameValue`: at a place of two display lists the same value is read.
* `Loader.readVertex_of_sameValue`, `Loader.packVertices_of_sameValue`,
  `Loader.packCalls_of_sameValue`: the invariant for the slots of a vertex, the vertices of a call,
  and the calls.
* `Loader.run_footprint`: exactly when the other run gives the same mesh.
-/

namespace FixedFunction
namespace Loader

open DisplayList (Commands Cursor stop stop_append stop_le le_stop)

/-- The element with index `i` of a slot is there in the arrays of both sides, with the same
bytes. -/
def SharesElement (arrays arrays' : VertexArrays) (s : Slot) (i : UInt16) : Prop :=
  ∃ a ∈ arrays.get s.attr, ∃ a' ∈ arrays'.get s.attr,
    a.offset + s.size * (i.toNat + 1) ≤ a.data.size ∧
    a'.offset + s.size * (i.toNat + 1) ≤ a'.data.size ∧
    ∀ j < s.size,
      a'.data[a'.offset + s.size * i.toNat + j]? = a.data[a.offset + s.size * i.toNat + j]?

instance (arrays arrays' : VertexArrays) (s : Slot) (i : UInt16) :
    Decidable (SharesElement arrays arrays' s i) :=
  inferInstanceAs (Decidable (∃ a ∈ arrays.get s.attr, ∃ a' ∈ arrays'.get s.attr, _))

/-- A display list is another one up to the zero byte behind the given calls and with it, or all of
it where no such byte ends the calls. -/
def SameCommands (stride : Nat) (calls : List DrawCall) (dl dl' : List UInt8) : Prop :=
  dl' = dl ∨ dl[stop stride 0 calls]? = some 0 ∧
    dl'.take (stop stride 0 calls + 1) = dl.take (stop stride 0 calls + 1)

/-- At a place of two display lists the same value is read: its bytes are the same, and the element
whose index stands there is the same. -/
structure SameValue (arrays arrays' : VertexArrays) (dl dl' : List UInt8) (a : Nat × Slot) :
    Prop where
  bytes : ∀ q, a.1 ≤ q → q < a.1 + a.2.streamSize → dl'[q]? = dl[q]?
  element : ∀ i ∈ indexAt? dl a.1 a.2, SharesElement arrays arrays' a.2 i

variable {arrays arrays' : VertexArrays} {dl dl' : List UInt8} {l : Loader}

/-! ### One value -/

theorem extract_eq_iff {a b : Array UInt8} {p q n : Nat} (ha : p + n ≤ a.size)
    (hb : q + n ≤ b.size) :
    (a.extract p (p + n)).toList = (b.extract q (q + n)).toList ↔
      ∀ j < n, a[p + j]? = b[q + j]? := by
  have hget : ∀ {bytes : Array UInt8} {r : Nat}, r + n ≤ bytes.size → ∀ j < n,
      (bytes.extract r (r + n)).toList[j]? = bytes[r + j]? := by
    intro bytes r hbytes j hj
    rw [Array.getElem?_toList, Array.getElem?_extract, if_pos (by omega)]
  constructor
  · intro h j hj
    rw [← hget ha j hj, ← hget hb j hj, h]
  · intro h
    refine List.ext_getElem? fun j => ?_
    rcases Nat.lt_or_ge j n with hj | hj
    · rw [hget ha j hj, hget hb j hj, h j hj]
    · rw [List.getElem?_eq_none (by simp; omega), List.getElem?_eq_none (by simp; omega)]

theorem element_eq_ok {s : Slot} {i : UInt16} {v : List UInt8} :
    element arrays s i = .ok v ↔ ∃ a ∈ arrays.get s.attr,
      a.offset + s.size * i.toNat + s.size ≤ a.data.size ∧
      (a.data.extract (a.offset + s.size * i.toNat)
        (a.offset + s.size * i.toNat + s.size)).toList = v := by
  rw [element]
  cases arrays.get s.attr with
  | none => simp
  | some a =>
    dsimp only
    split
    case isTrue h => simp [h]
    case isFalse h => simp [h]

/-- Two arrays share an element if the same value is looked up in both. -/
theorem sharesElement_iff {s : Slot} {i : UInt16} :
    SharesElement arrays arrays' s i ↔
      ∃ v, element arrays s i = .ok v ∧ element arrays' s i = .ok v := by
  simp only [element_eq_ok, SharesElement, Nat.mul_succ, ← Nat.add_assoc]
  constructor
  · rintro ⟨a, ha, a', ha', hroom, hroom', hsame⟩
    exact ⟨_, ⟨a, ha, hroom, rfl⟩, a', ha', hroom', (extract_eq_iff hroom' hroom).mpr hsame⟩
  · rintro ⟨v, ⟨a, ha, hroom, hv⟩, a', ha', hroom', hv'⟩
    exact ⟨a, ha, a', ha', hroom, hroom',
      (extract_eq_iff hroom' hroom).mp (hv'.trans hv.symm)⟩

/-- An element that both arrays have has an address in the other. -/
theorem SharesElement.not_beyond {s : Slot} {i : UInt16} (h : SharesElement arrays arrays' s i)
    (hdata : ∀ a array, arrays'.get a = some array → array.data.size < 1 <<< 64) :
    ¬ Beyond arrays' s i := by
  obtain ⟨_, _, a', ha', _, hroom, _⟩ := h
  rintro ⟨b, hb, hend⟩
  obtain rfl : a' = b := Option.some.inj (ha'.symm.trans hb)
  have hsize := hdata s.attr a' ha'
  rw [Nat.mul_succ] at hroom
  omega

theorem indexAt?_congr {p : Nat} {s : Slot}
    (h : ∀ q, p ≤ q → q < p + s.streamSize → dl'[q]? = dl[q]?) :
    indexAt? dl' p s = indexAt? dl p s := by
  rw [Slot.streamSize] at h
  cases hs : s.presence with
  | absent => simp only [indexAt?, hs]
  | direct => simp only [indexAt?, hs]
  | index8 =>
    simp only [hs, Presence.streamSize] at h
    simp only [indexAt?, hs, h p (by omega) (by omega)]
  | index16 =>
    simp only [hs, Presence.streamSize] at h
    simp only [indexAt?, hs, h p (by omega) (by omega), h (p + 1) (by omega) (by omega)]

/-- A value for which no index is read stands in the display list. -/
theorem denoted_congr_of_indexAt?_eq_none {p : Nat} {s : Slot} {v : List UInt8}
    (h : ∀ q, p ≤ q → q < p + s.streamSize → dl'[q]? = dl[q]?) (hi : indexAt? dl p s = none)
    (hv : denoted arrays dl p s = .ok v) : denoted arrays' dl' p s = .ok v := by
  rw [Slot.streamSize] at h
  cases hs : s.presence with
  | absent => simpa only [denoted, hs] using hv
  | direct =>
    simp only [hs, Presence.streamSize] at h
    simp only [denoted, hs, List.length_drop] at hv ⊢
    split at hv
    case isFalse => simp at hv
    rename_i hroom
    have hroom' : s.size ≤ dl'.length - p := by
      refine Nat.le_of_not_lt fun hshort => ?_
      have hlast := h (p + s.size - 1) (by omega) (by omega)
      rw [List.getElem?_eq_none (by omega), List.getElem?_eq_getElem (by omega)] at hlast
      simp at hlast
    rw [if_pos hroom', ← hv]
    refine congrArg Except.ok (List.ext_getElem? fun j => ?_)
    rw [List.getElem?_take, List.getElem?_take, List.getElem?_drop, List.getElem?_drop]
    split
    case isTrue hj => exact h (p + j) (by omega) (by omega)
    case isFalse => rfl
  | index8 =>
    simp only [indexAt?, hs, Option.map_eq_none_iff] at hi
    simp [denoted, hs, hi] at hv
  | index16 =>
    simp only [indexAt?, hs] at hi
    simp only [denoted, hs] at hv
    split at hv
    case h_1 hhi hlo => simp [hhi, hlo] at hi
    case h_2 => simp at hv

namespace SameValue

variable {a : Nat × Slot} (h : SameValue arrays arrays' dl dl' a)
include h

theorem denoted_eq {v : List UInt8} (hv : denoted arrays dl a.1 a.2 = .ok v) :
    denoted arrays' dl' a.1 a.2 = .ok v := by
  have hindex := indexAt?_congr h.bytes
  cases hi : indexAt? dl a.1 a.2 with
  | none => exact denoted_congr_of_indexAt?_eq_none h.bytes hi hv
  | some i =>
    obtain ⟨w, hw, hw'⟩ := sharesElement_iff.mp (h.element i hi)
    rw [denoted_of_indexAt? hi, hw] at hv
    rw [denoted_of_indexAt? (hindex.trans hi), hw', ← hv]

theorem not_overruns
    (hdata : ∀ b array, arrays'.get b = some array → array.data.size < 1 <<< 64) :
    ¬ Overruns arrays' dl' a.1 a.2 := by
  rintro ⟨i, hi, hbeyond⟩
  rw [indexAt?_congr h.bytes] at hi
  exact (h.element i hi).not_beyond hdata hbeyond

end SameValue

/-! ### All values -/

section Read

variable (hdata : ∀ a array, arrays'.get a = some array → array.data.size < 1 <<< 64)
include hdata

theorem readVertex_of_sameValue {stride base : Nat} {slots : List Slot}
    (hpresent : ∀ s, s ∈ slots → s.presence ≠ .absent) {p : Nat} {out out' : Array UInt8}
    {cur : Cursor} (hsame : ∀ a ∈ placesFrom p slots, SameValue arrays arrays' dl dl' a)
    (h : readVertex stride arrays base (slots.filterMap Transfer.ofSlot?) (.ofOffset dl p) out =
      .ok (cur, out')) :
    cur = .ofOffset dl (p + Layout.sourceSize slots) ∧
      readVertex stride arrays' base (slots.filterMap Transfer.ofSlot?) (.ofOffset dl' p) out =
        .ok (.ofOffset dl' (p + Layout.sourceSize slots), out') := by
  induction slots generalizing p out with
  | nil =>
    obtain ⟨rfl, rfl⟩ : Cursor.ofOffset dl p = cur ∧ out = out' := by simpa [readVertex] using h
    exact ⟨rfl, rfl⟩
  | cons s slots ih =>
    rw [List.forall_mem_cons] at hpresent
    rw [placesFrom, List.forall_mem_cons] at hsame
    obtain ⟨source, hsource, ht⟩ := Transfer.ofSlot?_of_present hpresent.1
    rw [List.filterMap_cons_some ht, readVertex] at h
    obtain ⟨⟨v, cur₁⟩, hread, h⟩ := bind_eq_ok.mp h
    obtain ⟨out₁, hwrite, h⟩ := bind_eq_ok.mp h
    obtain ⟨hv, rfl⟩ := readValue_eq_ok hsource hread
    have hread' : readValue arrays' (s.transfer source) (.ofOffset dl' p) =
        .ok (v, .ofOffset dl' (p + s.streamSize)) := by
      rw [readValue_eq hsource, if_neg (hsame.1.not_overruns hdata), hsame.1.denoted_eq hv]
      rfl
    rw [Layout.sourceSize_cons, ← Nat.add_assoc, List.filterMap_cons_some ht, readVertex, hread',
      ok_bind]
    simp only [hwrite, ok_bind]
    exact ih hpresent.2 hsame.2 h

variable (hl : l.layout.Separate)
include hl

theorem packVertices_of_sameValue {n p : Nat} {cur : Cursor} {data : Array UInt8}
    (hsame : ∀ a ∈ l.vertexPlaces p n, SameValue arrays arrays' dl dl' a)
    (h : l.packVertices arrays n (.ofOffset dl p) = .ok (cur, data)) :
    ∃ cur', l.packVertices arrays' n (.ofOffset dl' p) = .ok (cur', data) := by
  induction n generalizing p cur data with
  | zero =>
    obtain ⟨_, rfl⟩ : Cursor.ofOffset dl p = cur ∧ #[] = data := by simpa [packVertices] using h
    exact ⟨_, rfl⟩
  | succ n ih =>
    rw [vertexPlaces_succ, List.forall_mem_append] at hsame
    rw [packVertices] at h
    obtain ⟨⟨cur₁, vertex⟩, hvertex, h⟩ := bind_eq_ok.mp h
    obtain ⟨⟨cur₂, vertices⟩, hvertices, h⟩ := bind_eq_ok.mp h
    obtain ⟨rfl, rfl⟩ : cur₂ = cur ∧ vertex ++ vertices = data := by
      simpa [pure, Except.pure] using h
    rw [packVertex, l.transfers_eq] at hvertex
    obtain ⟨rfl, hvertex'⟩ := readVertex_of_sameValue hdata hl.presence_ne hsame.1 hvertex
    rw [← hl.sourceStride_eq] at hvertices hvertex'
    obtain ⟨cur', hvertices'⟩ := ih hsame.2 hvertices
    refine ⟨cur', ?_⟩
    rw [packVertices, packVertex, l.transfers_eq, hvertex', ok_bind]
    simp only [hvertices', ok_bind]
    rfl

theorem packCalls_of_sameValue {calls : List DrawCall} {data : Array UInt8}
    (hsame : ∀ a ∈ l.places calls, SameValue arrays arrays' dl dl' a)
    (h : l.packCalls arrays dl calls = .ok data) : l.packCalls arrays' dl' calls = .ok data := by
  induction calls generalizing data with
  | nil => exact h
  | cons c calls ih =>
    rw [places, List.flatMap_cons, List.forall_mem_append] at hsame
    rw [packCalls] at h
    obtain ⟨⟨cur, vertices⟩, hvertices, h⟩ := bind_eq_ok.mp h
    obtain ⟨rest, hrest, h⟩ := bind_eq_ok.mp h
    obtain ⟨cur', hvertices'⟩ := packVertices_of_sameValue hdata hl hsame.1 hvertices
    rw [packCalls, hvertices', ok_bind]
    simp only [ih hsame.2 hrest, ok_bind]
    exact h

end Read

/-! ### What is in the buffer -/

theorem mem_placesFrom {slots : List Slot} {p : Nat} {a : Nat × Slot} (h : a ∈ placesFrom p slots) :
    ∃ before after, slots = before ++ a.2 :: after ∧ a.1 = p + Layout.sourceSize before := by
  induction slots generalizing p with
  | nil => simp [placesFrom] at h
  | cons s slots ih =>
    rcases List.mem_cons.mp h with rfl | h
    · exact ⟨[], slots, rfl, rfl⟩
    · obtain ⟨before, after, rfl, hp⟩ := ih h
      exact ⟨s :: before, after, rfl, by rw [hp, Layout.sourceSize_cons, Nat.add_assoc]⟩

/-- The vertices of a mesh hold what the display list denotes. -/
theorem filled_of_run (hl : l.layout.Separate) {m : Mesh} (h : l.run arrays dl = .ok m) :
    ∀ c ∈ m.calls, ∀ i < c.count,
      Filled arrays dl l.layout.slots (c.source + i * l.layout.sourceStride)
        ((c.first + i) * l.layout.stride) m.data := by
  obtain ⟨calls, out, hcalls, _, hrun, rfl⟩ := run_eq_ok h
  exact (runPackets_eq_ok hl hcalls.numbered hrun).2.1

/-- At every place of two runs with the same mesh the same value is denoted. -/
theorem exists_denoted_of_run (hl : l.layout.Separate) {m : Mesh} (h : l.run arrays dl = .ok m)
    (h' : l.run arrays' dl' = .ok m) :
    ∀ a ∈ l.places m.calls,
      ∃ v, denoted arrays dl a.1 a.2 = .ok v ∧ denoted arrays' dl' a.1 a.2 = .ok v := by
  intro a ha
  obtain ⟨c, hc, ha⟩ := List.mem_flatMap.mp ha
  obtain ⟨i, hi, ha⟩ := List.mem_flatMap.mp ha
  obtain ⟨before, after, hslots, hp⟩ := mem_placesFrom ha
  rw [List.mem_range] at hi
  obtain ⟨v, hv, _, hdata⟩ := filled_of_run hl h c hc i hi before a.2 after hslots
  obtain ⟨v', hv', _, hdata'⟩ := filled_of_run hl h' c hc i hi before a.2 after hslots
  rw [hp]
  exact ⟨v, hv, hdata.symm.trans hdata' ▸ hv'⟩

/-! ### The run -/

section SameCommands

variable {stride : Nat} {calls : List DrawCall} (h : SameCommands stride calls dl dl')
include h

theorem SameCommands.getElem? {q : Nat} (hq : q ≤ stop stride 0 calls) : dl'[q]? = dl[q]? := by
  rcases h with rfl | ⟨_, h⟩
  · rfl
  · rw [← List.getElem?_take_of_lt (Nat.lt_succ_of_le hq), h, List.getElem?_take_of_lt (by omega)]

theorem SameCommands.commands (hcalls : Commands stride dl 0 0 calls) :
    Commands stride dl' 0 0 calls := by
  rw [← List.append_nil calls] at hcalls
  have hle := stop_le hcalls (Nat.zero_le _)
  refine hcalls.front ?_ (fun q hq => h.getElem? (Nat.le_of_lt hq)) ?_
  · rcases h with rfl | ⟨hzero, h⟩
    · exact hle
    · have hlen := congrArg List.length h
      have hlt := (List.getElem?_eq_some_iff.mp hzero).1
      rw [List.length_take, List.length_take] at hlen
      omega
  · rw [h.getElem? (Nat.le_refl _)]
    rw [List.append_nil] at hcalls
    exact hcalls.ended

end SameCommands

/-- The bytes of every place come before the end of the calls. -/
theorem places_le_stop (hl : l.layout.Separate) {calls : List DrawCall}
    (hcalls : Commands l.layout.sourceStride dl 0 0 calls) :
    ∀ a ∈ l.places calls, a.1 + a.2.streamSize ≤ stop l.layout.sourceStride 0 calls := by
  intro a ha
  obtain ⟨c, hc, hplace⟩ := List.mem_flatMap.mp ha
  replace hplace := (vertexPlaces_bounds hl a hplace).2
  obtain ⟨before, after, rfl⟩ := List.append_of_mem hc
  have hrest : Commands l.layout.sourceStride dl (c.source + l.layout.sourceStride * c.count)
      (c.first + c.count) (after ++ []) := by
    rw [List.append_nil]
    exact hcalls.drop
  have hstop : stop l.layout.sourceStride 0 (before ++ c :: after) =
      stop l.layout.sourceStride (c.source + l.layout.sourceStride * c.count) after := by
    rw [stop_append, stop]
  have hle := le_stop hrest
  omega

/-- A run of a display list with the same commands gives the same mesh exactly if its arrays have
the same elements for the indices that stand in the display list.  The arrays of attributes that are
direct or absent do not matter, nor other elements, nor the offsets of the arrays and their sizes,
which are words as all sizes in memory are. -/
theorem run_footprint {f : VertexFormat} (hl : compile f = .ok l) {m : Mesh}
    (h : l.run arrays dl = .ok m)
    (hdata : ∀ a array, arrays'.get a = some array → array.data.size < 1 <<< 64)
    (hdl : SameCommands l.layout.sourceStride m.calls dl dl') :
    l.run arrays' dl' = .ok m ↔
      ∀ a ∈ l.places m.calls, ∀ i ∈ indexAt? dl a.1 a.2, SharesElement arrays arrays' a.2 i := by
  have hsep := separate_of_compile hl
  obtain ⟨calls, data, hcalls, hmax, hpack, rfl⟩ := run_eq_ok_iff.mp h
  replace hdl : SameCommands l.layout.sourceStride calls dl dl' := hdl
  have hbytes : ∀ a ∈ l.places calls, ∀ q, a.1 ≤ q → q < a.1 + a.2.streamSize →
      dl'[q]? = dl[q]? := by
    intro a ha q _ hq
    have := places_le_stop hsep hcalls a ha
    exact hdl.getElem? (by omega)
  constructor
  · intro h' a ha i hi
    obtain ⟨v, hv, hv'⟩ := exists_denoted_of_run hsep h h' a ha
    have hi' := (indexAt?_congr (hbytes a ha)).trans hi
    rw [denoted_of_indexAt? hi] at hv
    rw [denoted_of_indexAt? hi'] at hv'
    exact sharesElement_iff.mpr ⟨v, hv, hv'⟩
  · intro hshared
    have hsame : ∀ a ∈ l.places calls, SameValue arrays arrays' dl dl' a :=
      fun a ha => ⟨hbytes a ha, hshared a ha⟩
    exact run_eq_ok_iff.mpr ⟨calls, data, hdl.commands hcalls, hmax,
      packCalls_of_sameValue hdata hsep hsame hpack, rfl⟩

namespace Sample

/-- The same elements at other offsets and among others, and an array of a direct attribute. -/
def rearranged : VertexArrays :=
  ((VertexArrays.empty.set .pos (some ⟨#[10, 11, 12, 13, 14, 15, 16, 17], 0⟩)).set .tex0
    (some ⟨#[1, 2, 50, 51, 52, 53], 2⟩)).set .clr0 (some ⟨#[], 7⟩)

/-- The display list with other bytes behind its end. -/
def relisted : List UInt8 :=
  list.take 31 ++ [0x98, 0xFF]

end Sample

/-- The mesh is the same where the elements are elsewhere and the display list goes on behind its
zero byte. -/
theorem run_footprint_rearranged :
    compile Sample.format = .ok Sample.loader ∧
    Sample.loader.run Sample.arrays Sample.list = .ok Sample.mesh ∧
    (∀ a array, Sample.rearranged.get a = some array → array.data.size < 1 <<< 64) ∧
    SameCommands 8 Sample.mesh.calls Sample.list Sample.relisted ∧
    Sample.loader.run Sample.rearranged Sample.relisted = .ok Sample.mesh := by
  have hdata : ∀ a array, Sample.rearranged.get a = some array → array.data.size < 1 <<< 64 := by
    have hmem : ∀ a, ∀ array ∈ Sample.rearranged.get a, array.data.size < 1 <<< 64 := by
      intro a
      cases a <;> decide
    exact hmem
  have hdl : SameCommands 8 Sample.mesh.calls Sample.list Sample.relisted := .inr ⟨rfl, rfl⟩
  have hshared : ∀ a ∈ Sample.loader.places Sample.mesh.calls,
      ∀ i ∈ indexAt? Sample.list a.1 a.2,
        SharesElement Sample.arrays Sample.rearranged a.2 i := by
    -- Not decided as it stands, as all words would be tried for the index.
    have hall : (Sample.loader.places Sample.mesh.calls).all fun a =>
        (indexAt? Sample.list a.1 a.2).all fun i =>
          SharesElement Sample.arrays Sample.rearranged a.2 i := by
      decide +kernel
    simpa only [List.all_eq_true, Option.all_eq_true, decide_eq_true_eq, Option.mem_def] using hall
  exact ⟨Sample.compile_format, Sample.run_list, hdata, hdl,
    (run_footprint Sample.compile_format Sample.run_list hdata hdl).mpr hshared⟩

end Loader
end FixedFunction
