import FixedFunction.Proofs.DisplayList.Scanning

/-!
# Writing display lists

A display list is written by putting the commands of its strips and fans one after the other.  What
follows the last command is either nothing, or a zero byte and anything behind it.

**Input.**  Strips and fans with the bytes of their vertices.

**Results.**
* `encode`: the display list without its end.
* `lists_iff`: the draw calls that strips and fans are.
* `commands_iff_encode`: the display lists that hold commands are exactly those that are written.
-/

namespace FixedFunction
namespace DisplayList

/-- A number in two bytes, most significant first. -/
def wordBytes (n : UInt16) : List UInt8 :=
  [(n.toNat / 256).toUInt8, (n.toNat % 256).toUInt8]

/-- A strip or a fan with the bytes of its vertices, where a vertex takes `stride` bytes. -/
structure Drawing (stride : Nat) where
  /-- The command byte. -/
  command : UInt8
  /-- What is drawn. -/
  primitive : Primitive
  /-- Number of vertices. -/
  count : UInt16
  /-- The bytes of the vertices. -/
  vertices : List UInt8
  /-- The high five bits of the command say what is drawn.  The low three can be anything. -/
  command_high : command &&& 0xF8 = 0x98 ∧ primitive = .triangleStrip ∨
    command &&& 0xF8 = 0xA0 ∧ primitive = .triangleFan
  length_vertices : vertices.length = stride * count.toNat

/-- A list ends where there is nothing more, or a zero byte. -/
def Ended (tail : List UInt8) : Prop :=
  tail = [] ∨ ∃ rest, tail = 0 :: rest

section Defs

variable {stride : Nat}

/-- The bytes of a strip or a fan. -/
def Drawing.bytes (d : Drawing stride) : List UInt8 :=
  d.command :: (wordBytes d.count ++ d.vertices)

/-- Strips and fans, one after the other. -/
def encode (ds : List (Drawing stride)) : List UInt8 :=
  ds.flatMap Drawing.bytes

/-- Number of vertices of the given strips and fans. -/
def Drawing.total (ds : List (Drawing stride)) : Nat :=
  ds.foldr (fun d n => d.count.toNat + n) 0

/-- The calls are the strips and fans in order.  The vertices of each start behind the three bytes of
its command and count, and are numbered on from those of the ones before it. -/
structure Lists (ds : List (Drawing stride)) (calls : List DrawCall) : Prop where
  length : calls.length = ds.length
  call : ∀ before d after, ds = before ++ d :: after → calls[before.length]? =
    some ⟨d.primitive, (encode before).length + 3, d.count.toNat, Drawing.total before⟩

/-- The draw calls of strips and fans that start at position `p`, where `first` vertices came
before. -/
def callsFrom (p first : Nat) : List (Drawing stride) → List DrawCall
  | [] => []
  | d :: ds =>
    ⟨d.primitive, p + 3, d.count.toNat, first⟩ ::
      callsFrom (p + d.bytes.length) (first + d.count.toNat) ds

end Defs

section Encode

variable {stride : Nat}

@[simp]
theorem encode_nil : encode ([] : List (Drawing stride)) = [] := rfl

@[simp]
theorem encode_cons (d : Drawing stride) (ds : List (Drawing stride)) :
    encode (d :: ds) = d.bytes ++ encode ds := rfl

@[simp]
theorem encode_append (ds ds' : List (Drawing stride)) :
    encode (ds ++ ds') = encode ds ++ encode ds' :=
  List.flatMap_append

@[simp]
theorem total_nil : Drawing.total ([] : List (Drawing stride)) = 0 := rfl

@[simp]
theorem total_cons (d : Drawing stride) (ds : List (Drawing stride)) :
    Drawing.total (d :: ds) = d.count.toNat + Drawing.total ds := rfl

theorem Drawing.length_bytes (d : Drawing stride) :
    d.bytes.length = 3 + stride * d.count.toNat := by
  simp only [bytes, wordBytes, List.length_cons, List.length_append, List.length_nil,
    d.length_vertices]
  omega

/-- A number is read back from its two bytes. -/
theorem toNat_wordBytes (n : UInt16) :
    256 * (n.toNat / 256).toUInt8.toNat + (n.toNat % 256).toUInt8.toNat = n.toNat := by
  have := n.toNat_lt
  simp only [Nat.toUInt8, UInt8.toNat_ofNat']
  omega

theorem wordBytes_wordOf (hi lo : UInt8) : wordBytes (Cursor.wordOf hi lo) = [hi, lo] := by
  have := hi.toNat_lt
  have := lo.toNat_lt
  rw [wordBytes, Cursor.toNat_wordOf, List.cons.injEq, List.cons.injEq, ← UInt8.toNat_inj,
    ← UInt8.toNat_inj]
  simp only [Nat.toUInt8, UInt8.toNat_ofNat', and_true]
  omega

theorem length_callsFrom (p first : Nat) (ds : List (Drawing stride)) :
    (callsFrom p first ds).length = ds.length := by
  induction ds generalizing p first with
  | nil => rfl
  | cons d ds ih => rw [callsFrom, List.length_cons, List.length_cons, ih]

/-- The call of one strip or fan among others. -/
theorem getElem?_callsFrom (d : Drawing stride) (after : List (Drawing stride)) :
    ∀ (before : List (Drawing stride)) (p first : Nat),
      (callsFrom p first (before ++ d :: after))[before.length]? =
        some ⟨d.primitive, p + (encode before).length + 3, d.count.toNat,
          first + Drawing.total before⟩
  | [], _, _ => rfl
  | e :: before, p, first => by
    rw [List.cons_append, callsFrom, List.length_cons, List.getElem?_cons_succ,
      getElem?_callsFrom d after before, encode_cons, total_cons, List.length_append,
      Nat.add_assoc p, Nat.add_assoc first]

theorem lists_callsFrom (ds : List (Drawing stride)) : Lists ds (callsFrom 0 0 ds) := by
  refine ⟨length_callsFrom 0 0 ds, ?_⟩
  rintro before d after rfl
  simpa using getElem?_callsFrom d after before 0 0

theorem Lists.getElem? {ds : List (Drawing stride)} {calls : List DrawCall} (h : Lists ds calls)
    {i : Nat} (hi : i < ds.length) : calls[i]? =
      some ⟨ds[i].primitive, (encode (ds.take i)).length + 3, ds[i].count.toNat,
        Drawing.total (ds.take i)⟩ := by
  have hlen : (ds.take i).length = i := List.length_take_of_le (Nat.le_of_lt hi)
  have hcall := h.call (ds.take i) ds[i] (ds.drop (i + 1)) (by simp)
  rwa [hlen] at hcall

/-- Strips and fans are one list of draw calls only. -/
theorem lists_iff {ds : List (Drawing stride)} {calls : List DrawCall} :
    Lists ds calls ↔ calls = callsFrom 0 0 ds := by
  constructor
  · intro h
    refine List.ext_getElem? fun i => ?_
    rcases Nat.lt_or_ge i ds.length with hi | hi
    · rw [h.getElem? hi, (lists_callsFrom ds).getElem? hi]
    · rw [List.getElem?_eq_none (h.length ▸ hi),
        List.getElem?_eq_none (length_callsFrom 0 0 ds ▸ hi)]
  · rintro rfl
    exact lists_callsFrom ds

end Encode

section Commands

variable {stride : Nat} {dl : List UInt8}

/-- What a command byte says. -/
theorem command_iff {b : UInt8} {p : Primitive} :
    Coded.ofRaw? (b &&& 0xF8) = some p ∧ Command.draws p = true ↔
      b &&& 0xF8 = 0x98 ∧ p = .triangleStrip ∨ b &&& 0xF8 = 0xA0 ∧ p = .triangleFan := by
  rw [Coded.ofRaw?_eq_some_iff]
  constructor
  · rintro ⟨hraw, hdraws⟩
    rcases Bool.or_eq_true_iff.mp hdraws with hp | hp
    · obtain rfl := of_decide_eq_true hp
      exact .inl ⟨hraw.symm, rfl⟩
    · obtain rfl := of_decide_eq_true hp
      exact .inr ⟨hraw.symm, rfl⟩
  · rintro (⟨hb, rfl⟩ | ⟨hb, rfl⟩)
    · exact ⟨hb.symm, rfl⟩
    · exact ⟨hb.symm, rfl⟩

theorem Drawing.command_ne_zero (d : Drawing stride) : d.command ≠ 0 := by
  intro h
  rcases d.command_high with ⟨hb, -⟩ | ⟨hb, -⟩
  · exact absurd (h ▸ hb) (by decide)
  · exact absurd (h ▸ hb) (by decide)

theorem ended_drop_iff {p : Nat} : Ended (dl.drop p) ↔ dl[p]? = none ∨ dl[p]? = some 0 := by
  rw [← List.head?_drop, Ended]
  cases dl.drop p <;> simp

/-- The bytes of a command are those of a strip or a fan. -/
theorem exists_drawing {p : Nat} {b hi lo : UInt8} {prim : Primitive} (hb : dl[p]? = some b)
    (hraw : Coded.ofRaw? (b &&& 0xF8) = some prim) (hdraws : Command.draws prim = true)
    (hhi : dl[p + 1]? = some hi) (hlo : dl[p + 2]? = some lo)
    (hroom : p + 3 + stride * (256 * hi.toNat + lo.toNat) ≤ dl.length) :
    ∃ d : Drawing stride, d.primitive = prim ∧ d.count.toNat = 256 * hi.toNat + lo.toNat ∧
      dl.drop p = d.bytes ++ dl.drop (p + 3 + stride * (256 * hi.toNat + lo.toNat)) := by
  have hword : (Cursor.wordOf hi lo).toNat = 256 * hi.toNat + lo.toNat := Cursor.toNat_wordOf hi lo
  refine ⟨{
    command := b
    primitive := prim
    count := Cursor.wordOf hi lo
    vertices := (dl.drop (p + 3)).take (stride * (256 * hi.toNat + lo.toNat))
    command_high := command_iff.mp ⟨hraw, hdraws⟩
    length_vertices := ?_ }, rfl, hword, ?_⟩
  · rw [hword, List.length_take, List.length_drop]
    omega
  · obtain ⟨hp, rfl⟩ := List.getElem?_eq_some_iff.mp hb
    obtain ⟨hp1, rfl⟩ := List.getElem?_eq_some_iff.mp hhi
    obtain ⟨hp2, rfl⟩ := List.getElem?_eq_some_iff.mp hlo
    simp only [Drawing.bytes, List.cons_append, List.append_assoc, wordBytes_wordOf]
    rw [← List.drop_drop (j := p + 3), List.take_append_drop, List.drop_eq_getElem_cons hp,
      List.drop_eq_getElem_cons hp1, List.drop_eq_getElem_cons hp2]
    rfl

/-- The bytes of a strip or a fan are found where they stand. -/
theorem Drawing.found_of_drop {d : Drawing stride} {p : Nat} {rest : List UInt8}
    (h : dl.drop p = d.bytes ++ rest) :
    (dl[p]? = some d.command ∧ dl[p + 1]? = some (d.count.toNat / 256).toUInt8 ∧
      dl[p + 2]? = some (d.count.toNat % 256).toUInt8) ∧
    p + 3 + stride * d.count.toNat ≤ dl.length ∧
    dl.drop (p + 3 + stride * d.count.toNat) = rest := by
  have hget : ∀ i, dl[p + i]? = (d.bytes ++ rest)[i]? := by
    intro i
    rw [← List.getElem?_drop, h]
  have hend : p + 3 + stride * d.count.toNat = p + d.bytes.length := by
    rw [d.length_bytes]
    omega
  have hlen := congrArg List.length h
  have hpos := d.length_bytes
  rw [List.length_drop, List.length_append] at hlen
  refine ⟨⟨hget 0, hget 1, hget 2⟩, by omega, ?_⟩
  rw [hend, ← List.drop_drop, h, List.drop_left]

/-- A display list that holds commands is written from strips and fans. -/
theorem encode_of_commands {p first : Nat} {calls : List DrawCall}
    (h : Commands stride dl p first calls) (hfirst : first < 1 <<< 32) :
    ∃ (ds : List (Drawing stride)) (tail : List UInt8), dl.drop p = encode ds ++ tail ∧
      Ended tail ∧ first + Drawing.total ds < 1 <<< 32 ∧ calls = callsFrom p first ds := by
  induction h with
  | done hend => exact ⟨[], _, rfl, ended_drop_iff.mpr hend, hfirst, rfl⟩
  | @call p first b hi lo c calls hb hb0 hraw hdraws hhi hlo hcount hsource hfst hroom hfit _ ih =>
    obtain ⟨ds, tail, hdrop, htail, htotal, rfl⟩ := ih hfit
    rw [hsource, hcount] at hroom hdrop
    obtain ⟨d, hprim, hd, hbytes⟩ := exists_drawing hb hraw hdraws hhi hlo hroom
    have hlen : p + d.bytes.length = c.source + stride * c.count := by
      rw [d.length_bytes, hsource, hd, hcount]
      omega
    refine ⟨d :: ds, tail, ?_, htail, ?_, ?_⟩
    · rw [encode_cons, List.append_assoc, ← hdrop, hbytes]
    · rw [total_cons, hd, ← hcount]
      omega
    · rw [callsFrom, hlen, hd, ← hcount, hprim, ← hsource, ← hfst]

/-- Strips and fans are found where they are written. -/
theorem commands_of_encode {tail : List UInt8} (htail : Ended tail)
    (ds : List (Drawing stride)) {p first : Nat} (hdrop : dl.drop p = encode ds ++ tail)
    (hfit : first + Drawing.total ds < 1 <<< 32) :
    Commands stride dl p first (callsFrom p first ds) := by
  induction ds generalizing p first with
  | nil => exact .done (ended_drop_iff.mp (hdrop ▸ htail))
  | cons d ds ih =>
    rw [total_cons] at hfit
    rw [encode_cons, List.append_assoc] at hdrop
    obtain ⟨⟨hb, hhi, hlo⟩, hroom, hrest⟩ := d.found_of_drop hdrop
    obtain ⟨hraw, hdraws⟩ := command_iff.mpr d.command_high
    have hend : p + d.bytes.length = p + 3 + stride * d.count.toNat := by
      rw [d.length_bytes]
      omega
    have hcount : first + d.count.toNat < 1 <<< 32 := by omega
    rw [callsFrom, hend]
    exact .call hb d.command_ne_zero hraw hdraws hhi hlo (toNat_wordBytes d.count).symm rfl rfl
      hroom hcount (ih hrest (by rwa [Nat.add_assoc]))

/-- The display lists that hold commands are exactly those that are written from strips and fans. -/
theorem commands_iff_encode {calls : List DrawCall} :
    Commands stride dl 0 0 calls ↔
      ∃ (ds : List (Drawing stride)) (tail : List UInt8), dl = encode ds ++ tail ∧ Ended tail ∧
        Drawing.total ds < 1 <<< 32 ∧ Lists ds calls := by
  simp only [lists_iff]
  constructor
  · intro h
    obtain ⟨ds, tail, hdrop, htail, htotal, hcalls⟩ := encode_of_commands h (by decide)
    exact ⟨ds, tail, hdrop, htail, by omega, hcalls⟩
  · rintro ⟨ds, tail, rfl, htail, htotal, rfl⟩
    exact commands_of_encode htail ds rfl (by omega)

end Commands
end DisplayList
end FixedFunction
