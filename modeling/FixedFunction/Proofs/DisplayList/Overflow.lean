import FixedFunction.Proofs.DisplayList.Encoding

/-!
# Display lists with too many vertices to count

A scan counts the vertices of a display list in a word of 32 bits before anything limits their
number.  A count takes two bytes only, and where a vertex takes no byte of the stream a command is
three bytes long, so that short lists already hold more vertices than the word can count.

**Invariant.**  The scan has counted the vertices of the strips and fans that it has read.

**Results.**
* `scan_eq_stopped_iff`: a scan stops exactly where the display list begins with strips and fans
  whose vertices are more than the word can count.
* `scan_ne_stopped`: the scan of a list that is short enough does not stop.
* `exists_scan_stopped_iff`: this bound is sharp, whatever the bytes of a vertex are.
-/

namespace FixedFunction
namespace DisplayList

section Stop

variable {stride : Nat} {dl : List UInt8}

theorem Drawing.read_of_drop {d : Drawing stride} {p : Nat} {rest : List UInt8}
    (h : dl.drop p = d.bytes ++ rest) :
    Command.read stride (.ofOffset dl p) =
      .ok (some (⟨d.primitive, d.count.toNat, .ofOffset dl (p + 3)⟩,
        .ofOffset dl (p + 3 + stride * d.count.toNat))) := by
  obtain ⟨⟨hb, hhi, hlo⟩, hroom, -⟩ := d.found_of_drop h
  obtain ⟨hraw, hdraws⟩ := command_iff.mpr d.command_high
  rw [← toNat_wordBytes d.count] at hroom ⊢
  exact read_eq_ok hb d.command_ne_zero hraw hdraws hhi hlo hroom

/-- The scan stops at the vertex that the word cannot count, whatever follows. -/
theorem scanFrom_of_total {tail : List UInt8} (ds : List (Drawing stride)) {p first : Nat}
    (hfirst : first < 1 <<< 32) (hdrop : dl.drop p = encode ds ++ tail)
    (htotal : 1 <<< 32 ≤ first + Drawing.total ds) (done : Array Packet) :
    scanFrom stride first (.ofOffset dl p) done = .error (.stopped .overflow) := by
  induction ds generalizing p first done with
  | nil => exact absurd hfirst (Nat.not_lt.mpr htotal)
  | cons d ds ih =>
    rw [encode_cons, List.append_assoc] at hdrop
    rw [total_cons, ← Nat.add_assoc] at htotal
    rw [scanFrom_of_command (d.read_of_drop hdrop)]
    rcases Nat.lt_or_ge (first + d.count.toNat) (1 <<< 32) with hfit | hover
    · rw [checkWord_of_lt hfit]
      exact ih hfit (d.found_of_drop hdrop).2.2 htotal _
    · rw [checkWord_of_le hover]
      rfl

theorem total_of_scanFrom {p first : Nat} {done : Array Packet} {t : Fault}
    (h : scanFrom stride first (.ofOffset dl p) done = .error (.stopped t)) :
    ∃ (ds : List (Drawing stride)) (tail : List UInt8), dl.drop p = encode ds ++ tail ∧
      1 <<< 32 ≤ first + Drawing.total ds := by
  generalize hcur : Cursor.ofOffset dl p = cur at h
  fun_induction scanFrom stride first cur done generalizing p with
  | case1 first cur done e hread => simp at h
  | case2 first cur done hread => simp at h
  | case3 first cur done c next hread f hword =>
    rw [← hcur] at hread
    obtain ⟨b, hi, lo, hb, -, hraw, hdraws, hhi, hlo, hcount, -, hroom, -⟩ := command_of_read hread
    rw [hcount] at hroom
    obtain ⟨d, -, hd, hbytes⟩ := exists_drawing hb hraw hdraws hhi hlo hroom
    refine ⟨[d], _, by simpa using hbytes, ?_⟩
    rw [total_cons, total_nil, hd, ← hcount]
    by_contra hfit
    rw [checkWord_of_lt (by omega)] at hword
    simp at hword
  | case4 first cur done c next hread total hword ih =>
    rw [← hcur] at hread
    obtain ⟨b, hi, lo, hb, -, hraw, hdraws, hhi, hlo, hcount, -, hroom, hnext⟩ :=
      command_of_read hread
    obtain ⟨-, rfl⟩ := checkWord_eq_ok.mp hword
    obtain ⟨ds, tail, hdrop, htotal⟩ := ih hnext.symm h
    rw [hcount] at hroom hdrop htotal
    obtain ⟨d, -, hd, hbytes⟩ := exists_drawing hb hraw hdraws hhi hlo hroom
    refine ⟨d :: ds, tail, ?_, ?_⟩
    · rw [encode_cons, List.append_assoc, ← hdrop, hbytes]
    · rwa [total_cons, hd, ← Nat.add_assoc]

/-- A scan stops exactly where the display list begins with strips and fans whose vertices are more
than a word of 32 bits can count. -/
theorem scan_eq_stopped_iff {t : Fault} :
    scan stride dl = .error (.stopped t) ↔
      t = .overflow ∧ ∃ (ds : List (Drawing stride)) (tail : List UInt8),
        dl = encode ds ++ tail ∧ 1 <<< 32 ≤ Drawing.total ds := by
  constructor
  · intro h
    obtain ⟨ds, tail, hdrop, htotal⟩ := total_of_scanFrom (p := 0) h
    exact ⟨stopped_of_scanFrom h, ds, tail, hdrop, by omega⟩
  · rintro ⟨rfl, ds, tail, hdl, htotal⟩
    exact scanFrom_of_total ds (p := 0) (by decide) hdl (by omega) #[]

theorem length_encode (ds : List (Drawing stride)) :
    (encode ds).length = 3 * ds.length + stride * Drawing.total ds := by
  induction ds with
  | nil => rfl
  | cons d ds ih =>
    have hstride := Nat.mul_add stride d.count.toNat (Drawing.total ds)
    rw [encode_cons, total_cons, List.length_append, List.length_cons, d.length_bytes, ih]
    omega

theorem total_le (ds : List (Drawing stride)) : Drawing.total ds ≤ 65535 * ds.length := by
  induction ds with
  | nil => exact Nat.le_refl 0
  | cons d ds ih =>
    have := d.count.toNat_lt
    rw [total_cons, List.length_cons]
    omega

/-- It takes 65538 commands to hold more vertices than the word can count. -/
theorem scan_ne_stopped (h : dl.length < 196614 + stride * 1 <<< 32) (t : Fault) :
    scan stride dl ≠ .error (.stopped t) := by
  intro hscan
  obtain ⟨-, ds, tail, rfl, htotal⟩ := scan_eq_stopped_iff.mp hscan
  have hcommands : 65538 ≤ ds.length := by
    have := total_le ds
    omega
  have hvertices : stride * 1 <<< 32 ≤ stride * Drawing.total ds := Nat.mul_le_mul_left _ htotal
  rw [List.length_append, length_encode] at h
  omega

end Stop

/-! ### The shortest such list -/

theorem strip_command :
    (0x98 : UInt8) &&& 0xF8 = 0x98 ∧ Primitive.triangleStrip = .triangleStrip ∨
      (0x98 : UInt8) &&& 0xF8 = 0xA0 ∧ Primitive.triangleStrip = .triangleFan :=
  .inl ⟨rfl, rfl⟩

/-- A strip whose vertices are zero bytes. -/
def zeroStrip (stride : Nat) (n : UInt16) : Drawing stride where
  command := 0x98
  primitive := .triangleStrip
  count := n
  vertices := List.replicate (stride * n.toNat) 0
  command_high := strip_command
  length_vertices := List.length_replicate

/-- Strips of 65535 vertices each, and one vertex more than the word can count. -/
def uncountable (stride : Nat) : List (Drawing stride) :=
  List.replicate 65537 (zeroStrip stride 65535) ++ [zeroStrip stride 1]

theorem total_append {stride : Nat} (ds ds' : List (Drawing stride)) :
    Drawing.total (ds ++ ds') = Drawing.total ds + Drawing.total ds' := by
  induction ds with
  | nil => rw [List.nil_append, total_nil, Nat.zero_add]
  | cons d ds ih => rw [List.cons_append, total_cons, total_cons, ih, Nat.add_assoc]

theorem total_replicate {stride : Nat} (n : Nat) (d : Drawing stride) :
    Drawing.total (List.replicate n d) = n * d.count.toNat := by
  induction n with
  | zero => rw [List.replicate_zero, total_nil, Nat.zero_mul]
  | succ n ih => rw [List.replicate_succ, total_cons, ih, Nat.succ_mul, Nat.add_comm]

theorem total_uncountable (stride : Nat) : Drawing.total (uncountable stride) = 1 <<< 32 := by
  have hfull : (zeroStrip stride 65535).count.toNat = 65535 := rfl
  have hone : (zeroStrip stride 1).count.toNat = 1 := rfl
  rw [uncountable, total_append, total_replicate, total_cons, total_nil, hfull, hone]
  decide

theorem length_uncountable (stride : Nat) :
    (encode (uncountable stride)).length = 196614 + stride * 1 <<< 32 := by
  rw [length_encode, total_uncountable, uncountable, List.length_append, List.length_replicate,
    List.length_singleton]

/-- There are display lists of a length where the scan stops exactly from that of 65538 commands
on, and vertices as many as the word has values. -/
theorem exists_scan_stopped_iff {stride n : Nat} :
    (∃ dl : List UInt8, dl.length = n ∧ scan stride dl = .error (.stopped .overflow)) ↔
      196614 + stride * 1 <<< 32 ≤ n := by
  constructor
  · rintro ⟨dl, rfl, hscan⟩
    by_contra hshort
    exact scan_ne_stopped (Nat.not_le.mp hshort) .overflow hscan
  · intro hlong
    have hlen := length_uncountable stride
    refine ⟨encode (uncountable stride) ++ List.replicate (n - (196614 + stride * 1 <<< 32)) 0, ?_,
      scan_eq_stopped_iff.mpr ⟨rfl, uncountable stride, _, rfl, ?_⟩⟩
    · rw [List.length_append, List.length_replicate]
      omega
    · exact Nat.le_of_eq (total_uncountable stride).symm

end DisplayList
end FixedFunction
