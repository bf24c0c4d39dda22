import FixedFunction.Proofs.Lz.Steps

/-!
# The bytes that a decoder reads

A decoder reads a buffer from the front, each byte once, and stops with the declared size.  What it
gives therefore depends on the bytes up to a certain one, and it needs all of these.

**Invariant.**  From each state on, a decoding that succeeds reads a number of bytes.  A step that
reads one or two bytes adds them to the number, and cutting a step in the middle is noticed by the
step itself.

**Results.**
* `Consumes`: the decoder reads the first bytes of a body and no others.
* `exists_consumes`: a decoding that succeeds reads some number of bytes.
* `decompress_consumes`: the same for a whole buffer.
-/

namespace FixedFunction
namespace Lz

/-- From a state on, the decoder gives `r` and reads the first `n` bytes: what follows them does not
matter, and it stops where one of them is missing. -/
structure Consumes (size : Nat) (pending : List Bool) (src : List UInt8) (out r : Array UInt8)
    (n : Nat) : Prop where
  le_length : n ≤ src.length
  enough : ∀ total t, decodeFrom total size pending (src.take n ++ t) out = .ok r
  needed : ∀ total k, k < n →
    decodeFrom total size pending (src.take k) out = .error (.truncatedStream total)

namespace Consumes

variable {size n : Nat} {pending : List Bool} {src : List UInt8} {out r : Array UInt8}

theorem done (h : size ≤ out.size) : Consumes size pending src out out 0 where
  le_length := Nat.zero_le _
  enough := fun _ _ => decodeFrom_of_le h
  needed := fun _ _ hk => absurd hk (Nat.not_lt_zero _)

theorem flag (h : out.size < size) {f : UInt8} (hrest : Consumes size (flags f) src out r n) :
    Consumes size [] (f :: src) out r (n + 1) where
  le_length := Nat.succ_le_succ hrest.le_length
  enough := by
    intro total t
    rw [List.take_succ_cons, List.cons_append, decodeFrom_flag h]
    exact hrest.enough total t
  needed := by
    rintro total (_ | k) hk
    · exact decodeFrom_nil h
    · rw [List.take_succ_cons, decodeFrom_flag h]
      exact hrest.needed total k (Nat.lt_of_succ_lt_succ hk)

theorem literal (h : out.size < size) {b : UInt8}
    (hrest : Consumes size pending src (out.push b) r n) :
    Consumes size (false :: pending) (b :: src) out r (n + 1) where
  le_length := Nat.succ_le_succ hrest.le_length
  enough := by
    intro total t
    rw [List.take_succ_cons, List.cons_append, decodeFrom_literal h]
    exact hrest.enough total t
  needed := by
    rintro total (_ | k) hk
    · exact decodeFrom_nil h
    · rw [List.take_succ_cons, decodeFrom_literal h]
      exact hrest.needed total k (Nat.lt_of_succ_lt_succ hk)

theorem copy (h : out.size < size) {hi lo : UInt8} (hd : distance hi lo ≤ out.size)
    (hrest : Consumes size pending src
      (copyBack (distance hi lo) (min (length hi) (size - out.size)) out) r n) :
    Consumes size (true :: pending) (hi :: lo :: src) out r (n + 2) where
  le_length := Nat.add_le_add_right hrest.le_length 2
  enough := by
    intro total t
    rw [List.take_succ_cons, List.take_succ_cons, List.cons_append, List.cons_append,
      decodeFrom_copy h hd]
    exact hrest.enough total t
  needed := by
    -- The distance is looked at when both bytes are there, so that half a token is just missing.
    rintro total (_ | _ | k) hk
    · exact decodeFrom_nil h
    · exact decodeFrom_half h hi
    · rw [List.take_succ_cons, List.take_succ_cons, decodeFrom_copy h hd]
      exact hrest.needed total k (by omega)

end Consumes

/-- A decoding that succeeds reads some number of bytes. -/
theorem exists_consumes {total size : Nat} {pending : List Bool} {src : List UInt8}
    {out r : Array UInt8} (h : decodeFrom total size pending src out = .ok r) :
    ∃ n, Consumes size pending src out r n := by
  induction pending, src, out using @decodeFrom_induction size with
  | done pending src out hsize =>
    rw [decodeFrom_of_le hsize] at h
    obtain rfl := Except.ok.inj h
    exact ⟨0, .done hsize⟩
  | flag f src out hsize ih =>
    rw [decodeFrom_flag hsize] at h
    obtain ⟨n, hn⟩ := ih h
    exact ⟨n + 1, .flag hsize hn⟩
  | literal pending b src out hsize ih =>
    rw [decodeFrom_literal hsize] at h
    obtain ⟨n, hn⟩ := ih h
    exact ⟨n + 1, .literal hsize hn⟩
  | far pending hi lo src out hsize hd =>
    rw [decodeFrom_far hsize hd] at h
    simp at h
  | copy pending hi lo src out hsize hd ih =>
    rw [decodeFrom_copy hsize hd] at h
    obtain ⟨n, hn⟩ := ih h
    exact ⟨n + 2, .copy hsize hd hn⟩
  | missing pending out hsize =>
    rw [decodeFrom_nil hsize] at h
    simp at h
  | half pending hi out hsize =>
    rw [decodeFrom_half hsize] at h
    simp at h

theorem decompress_cut {front : List UInt8} (h : front.length < 3) :
    decompress (magic ++ front) = .error (.truncatedStream (magic.length + front.length)) := by
  rw [decompress, uncompressedSize_cut h]
  rfl

/-- A buffer that is decoded has a number of bytes that the output depends on.  The bytes behind
them can be any others, and if only some of them are there, the first missing byte is reported,
wherever behind the magic the buffer was cut. -/
theorem decompress_consumes {src : List UInt8} {out : Array UInt8}
    (h : decompress src = .ok out) :
    ∃ n, 8 ≤ n ∧ n ≤ src.length ∧ (∀ t, decompress (src.take n ++ t) = .ok out) ∧
      ∀ k, 5 ≤ k → k < n → decompress (src.take k) = .error (.truncatedStream k) := by
  obtain ⟨size, hheader, _⟩ := bind_eq_ok.mp h
  obtain ⟨hsize, body, rfl⟩ := uncompressedSize_eq_ok_iff.mp hheader
  rw [decompress_eq hsize] at h
  obtain ⟨n, hn⟩ := exists_consumes h
  refine ⟨headerSize + n, Nat.le_add_right .., ?_, fun t => ?_, fun k hk hkn => ?_⟩
  · rw [length_header_append]
    exact Nat.add_le_add_left hn.le_length _
  · rw [take_header, List.append_assoc, decompress_eq hsize]
    exact hn.enough _ t
  · rcases Nat.lt_or_ge k headerSize with hk8 | hk8
    · -- The cut lies in the three bytes of the declared size.
      obtain ⟨j, rfl⟩ := Nat.exists_eq_add_of_le hk
      have hj : ((sizeBytes size ++ body).take j).length = j := by
        rw [List.length_take, List.length_append]
        simp only [sizeBytes, headerSize, List.length_cons, List.length_nil] at *
        omega
      rw [List.append_assoc, show 5 + j = magic.length + j from rfl, List.take_length_add_append,
        decompress_cut (by rw [hj]; simp only [headerSize] at hk8; omega), hj]
    · obtain ⟨j, rfl⟩ := Nat.exists_eq_add_of_le hk8
      have hj : (body.take j).length = j := by
        have := hn.le_length
        rw [List.length_take]
        omega
      rw [take_header, decompress_eq hsize, hj]
      exact hn.needed _ j (by omega)

namespace Sample

/-- A literal and a copy of the nine bytes after it, and a byte behind them that is not read. -/
def source : List UInt8 :=
  magic ++ sizeBytes 10 ++ [0x40, 7, 0x60, 0, 0xFF]

/-- The same byte ten times. -/
def output : Array UInt8 :=
  .replicate 10 7

theorem decompress_source : decompress source = .ok output := by
  rfl

end Sample

theorem decompress_consumes_copied :
    decompress Sample.source = .ok Sample.output ∧
    ∃ n, 8 ≤ n ∧ n ≤ Sample.source.length ∧
      (∀ t, decompress (Sample.source.take n ++ t) = .ok Sample.output) ∧
      ∀ k, 5 ≤ k → k < n → decompress (Sample.source.take k) = .error (.truncatedStream k) :=
  ⟨Sample.decompress_source, decompress_consumes Sample.decompress_source⟩

end Lz
end FixedFunction
