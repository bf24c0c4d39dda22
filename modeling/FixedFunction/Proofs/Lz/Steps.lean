import FixedFunction.Proofs.Failure
import FixedFunction.Proofs.Lz.Factorization

/-!
# The decoder step by step

**Results.**
* `decodeFrom_of_le`, `decodeFrom_flag`, `decodeFrom_literal`, `decodeFrom_copy`: what the decoder
  does with the next bytes of a body.
* `decodeFrom_far`: a back reference that reaches too far.
* `decodeFrom_nil`, `decodeFrom_half`: a body that ends too early.
* `decodeFrom_induction`: induction along these steps.
* `length_header_append`, `drop_header`, `take_header`: what stands behind a header.
* `uncompressedSize_eq_ok_iff`: the buffers that have a header.
* `decompress_eq`: behind its header, a buffer is decoded as a body.
-/

namespace FixedFunction
namespace Lz

section Steps

variable {total size : Nat} {pending : List Bool} {src : List UInt8} {out : Array UInt8}

theorem decodeFrom_of_le (h : size ≤ out.size) :
    decodeFrom total size pending src out = .ok out := by
  rw [decodeFrom.eq_def, if_pos h]

theorem decodeFrom_flag (h : out.size < size) (f : UInt8) :
    decodeFrom total size [] (f :: src) out = decodeFrom total size (flags f) src out := by
  rw [decodeFrom.eq_def, if_neg (by omega)]

theorem decodeFrom_literal (h : out.size < size) (b : UInt8) :
    decodeFrom total size (false :: pending) (b :: src) out =
      decodeFrom total size pending src (out.push b) := by
  rw [decodeFrom.eq_def, if_neg (by omega)]

/-- The bytes of a back reference are appended up to the declared size. -/
theorem decodeFrom_copy (h : out.size < size) {hi lo : UInt8} (hd : distance hi lo ≤ out.size) :
    decodeFrom total size (true :: pending) (hi :: lo :: src) out =
      decodeFrom total size pending src
        (copyBack (distance hi lo) (min (length hi) (size - out.size)) out) := by
  rw [decodeFrom.eq_def, if_neg (by omega)]
  exact if_neg (by omega)

theorem decodeFrom_far (h : out.size < size) {hi lo : UInt8} (hd : out.size < distance hi lo) :
    decodeFrom total size (true :: pending) (hi :: lo :: src) out =
      .error (.badBackReference (distance hi lo) out.size) := by
  rw [decodeFrom.eq_def, if_neg (by omega)]
  exact if_pos hd

theorem decodeFrom_nil (h : out.size < size) :
    decodeFrom total size pending [] out = .error (.truncatedStream total) := by
  rw [decodeFrom.eq_def, if_neg (by omega)]
  rcases pending with _ | ⟨_ | _, pending⟩ <;> rfl

theorem decodeFrom_half (h : out.size < size) (hi : UInt8) :
    decodeFrom total size (true :: pending) [hi] out = .error (.truncatedStream total) := by
  rw [decodeFrom.eq_def, if_neg (by omega)]

/-- Induction along a body: on each step the decoder is done, takes one flag byte, one literal or one
token, or misses a byte. -/
@[elab_as_elim]
theorem decodeFrom_induction {motive : List Bool → List UInt8 → Array UInt8 → Prop}
    (done : ∀ pending src out, size ≤ out.size → motive pending src out)
    (flag : ∀ f src out, out.size < size → motive (flags f) src out → motive [] (f :: src) out)
    (literal : ∀ pending b src out, out.size < size → motive pending src (out.push b) →
      motive (false :: pending) (b :: src) out)
    (far : ∀ pending hi lo src out, out.size < size → out.size < distance hi lo →
      motive (true :: pending) (hi :: lo :: src) out)
    (copy : ∀ pending hi lo src out, out.size < size → distance hi lo ≤ out.size →
      motive pending src (copyBack (distance hi lo) (min (length hi) (size - out.size)) out) →
      motive (true :: pending) (hi :: lo :: src) out)
    (missing : ∀ pending out, out.size < size → motive pending [] out)
    (half : ∀ pending hi out, out.size < size → motive (true :: pending) [hi] out)
    (pending : List Bool) (src : List UInt8) (out : Array UInt8) : motive pending src out := by
  fun_induction decodeFrom 0 size pending src out with
  | case1 src pending out hsize => exact done pending src out hsize
  | case2 out hsize f src ih => exact flag f src out (by omega) ih
  | case3 out hsize pending b src ih => exact literal pending b src out (by omega) ih
  | case4 out hsize pending hi lo src hd => exact far pending hi lo src out (by omega) hd
  | case5 out hsize pending hi lo src hd ih =>
    exact copy pending hi lo src out (by omega) (by omega) ih
  | case6 src pending out hsize hflag hliteral htoken =>
    rcases src with _ | ⟨b, src⟩
    · exact missing pending out (by omega)
    · rcases pending with _ | ⟨_ | _, pending⟩
      · exact absurd rfl (hflag b src rfl)
      · exact absurd rfl (hliteral pending b src rfl)
      · cases src with
        | nil => exact half pending b out (by omega)
        | cons lo src => exact absurd rfl (htoken pending b lo src rfl)

end Steps

/-! ### The header -/

theorem sizeBytes_eq (a b c : UInt8) :
    sizeBytes (a.toNat + 256 * b.toNat + 65536 * c.toNat) = [a, b, c] := by
  have := a.toNat_lt
  have := b.toNat_lt
  have := c.toNat_lt
  simp only [sizeBytes, List.cons.injEq, ← UInt8.toNat_inj, Nat.toUInt8, UInt8.toNat_ofNat',
    Nat.shiftRight_eq_div_pow, and_true]
  omega

theorem isCompressed_eq_true_iff {src : List UInt8} : isCompressed src = true ↔ magic <+: src :=
  List.isPrefixOf_iff_prefix

section Header

variable (size : Nat) (body : List UInt8)

theorem starts_with_magic : magic <+: magic ++ sizeBytes size ++ body := by
  rw [List.append_assoc]
  exact List.prefix_append _ _

theorem length_header_append :
    (magic ++ sizeBytes size ++ body).length = headerSize + body.length := by
  rw [List.length_append]
  rfl

theorem drop_header : (magic ++ sizeBytes size ++ body).drop headerSize = body :=
  List.drop_left' rfl

theorem take_header (k : Nat) :
    (magic ++ sizeBytes size ++ body).take (headerSize + k) =
      magic ++ sizeBytes size ++ body.take k := by
  have hheader : headerSize = (magic ++ sizeBytes size).length := rfl
  rw [hheader, List.take_length_add_append]

end Header

/-- A header declares a size of 24 bits. -/
theorem uncompressedSize_eq_ok_iff {src : List UInt8} {size : Nat} :
    uncompressedSize src = .ok size ↔
      size < 1 <<< 24 ∧ ∃ body, src = magic ++ sizeBytes size ++ body := by
  constructor
  · intro h
    rw [uncompressedSize] at h
    split at h
    case isFalse => simp at h
    rename_i hmagic
    obtain ⟨rest, rfl⟩ := isCompressed_eq_true_iff.mp hmagic
    rw [List.drop_left] at h
    split at h
    case h_2 => simp at h
    rename_i a b c body
    obtain rfl := Except.ok.inj h
    have := a.toNat_lt
    have := b.toNat_lt
    have := c.toNat_lt
    refine ⟨by omega, body, ?_⟩
    rw [sizeBytes_eq, List.append_assoc]
    rfl
  · rintro ⟨hsize, body, rfl⟩
    have hmagic := isCompressed_eq_true_iff.mpr (starts_with_magic size body)
    rw [uncompressedSize, if_pos hmagic, List.append_assoc, List.drop_left]
    simp only [sizeBytes, List.cons_append, Nat.toUInt8, UInt8.toNat_ofNat',
      Nat.shiftRight_eq_div_pow, Except.ok.injEq]
    omega

/-- A header that is cut is reported at the end of the buffer. -/
theorem uncompressedSize_cut {front : List UInt8} (h : front.length < 3) :
    uncompressedSize (magic ++ front) = .error (.truncatedStream (magic.length + front.length)) := by
  rw [uncompressedSize, if_pos (isCompressed_eq_true_iff.mpr (List.prefix_append _ _)),
    List.drop_left, List.length_append]
  match front, h with
  | [], _ | [_], _ | [_, _], _ => rfl

/-- Behind its header, a buffer is decoded as a body. -/
theorem decompress_eq {size : Nat} (hsize : size < 1 <<< 24) (body : List UInt8) :
    decompress (magic ++ sizeBytes size ++ body) =
      decodeFrom (headerSize + body.length) size [] body #[] := by
  rw [decompress, uncompressedSize_eq_ok_iff.mpr ⟨hsize, body, rfl⟩, ok_bind,
    length_header_append, drop_header]

end Lz
end FixedFunction
