import FixedFunction.Proofs.Lz.Steps

/-!
# Decoding by offsets

A machine does not take bytes off a list.  It keeps the offset of the next byte and looks the byte
up, and it copies from a place of the output that it computes.

**Algorithm.**  `decodeAt` reads the buffer at an offset.  Each sum is checked against a word of 64
bits, each difference against zero, and each byte of a copy against the end of the output at that
moment.  A byte that the buffer does not have is reported at its offset.

**Invariant.**  The offset is never behind the end of the buffer, and the output never larger than
its declared size, which has 24 bits.

**Results.**
* `copyFrom_eq`: a copy reads bytes only that are there.
* `decodeAt_eq`, `decompressAt_eq`: no check ever fails, and the answer is that of the decoder.
-/

namespace FixedFunction
namespace Lz

/-- The difference of two words.  The machine stops where it is below zero. -/
def subWord (m n : Nat) : Except Failure Nat :=
  if n ≤ m then .ok (m - n) else .error (.stopped .overflow)

/-- Appends the `n` bytes from the place `start + i` on, one after the other.  The machine stops
where a place lies outside the output. -/
def copyFrom (start : Nat) : (n i : Nat) → Array UInt8 → Except Failure (Array UInt8)
  | 0, _, out => .ok out
  | n + 1, i, out => do
    let place ← checkWord 64 (start + i)
    if h : place < out.size then copyFrom start n (i + 1) (out.push out[place])
    else .error (.stopped .outOfRange)

/-- Appends the bytes of a back reference, as far as the declared size. -/
def copyToken (size : Nat) (hi lo : UInt8) (out : Array UInt8) :
    Except Failure (Array UInt8) := do
  if out.size < distance hi lo then
    throw (.refused (.badBackReference (distance hi lo) out.size))
  let start ← subWord out.size (distance hi lo)
  let left ← subWord size out.size
  copyFrom start (min (length hi) left) 0 out

/-- Decodes the rest of a body from an offset of the buffer on. -/
def decodeAt (src : List UInt8) (size : Nat) (pending : List Bool) (offset : Nat)
    (out : Array UInt8) : Except Failure (Array UInt8) :=
  if size ≤ out.size then .ok out
  else if h : offset < src.length then do
    let _ ← checkWord 64 (offset + 1)
    match pending with
    | [] => decodeAt src size (flags src[offset]) (offset + 1) out
    | false :: pending => decodeAt src size pending (offset + 1) (out.push src[offset])
    | true :: pending =>
      if h' : offset + 1 < src.length then do
        let _ ← checkWord 64 (offset + 2)
        let out ← copyToken size src[offset] src[offset + 1] out
        decodeAt src size pending (offset + 2) out
      else .error (.refused (.truncatedStream (offset + 1)))
  else .error (.refused (.truncatedStream offset))
termination_by src.length - offset

/-- The output of a compressed buffer. -/
def decompressAt (src : List UInt8) : Except Failure (Array UInt8) := do
  let size ← uncompressedSize src
  decodeAt src size [] headerSize #[]

/-- The bytes of a copy are there, because the place that is read stays behind the end by the
distance. -/
theorem copyFrom_eq {d : Nat} (hd : 1 ≤ d) (n : Nat) {start i : Nat} {out : Array UInt8}
    (hplace : start + i + d = out.size) (hfit : out.size + n < 1 <<< 64) :
    copyFrom start n i out = .ok (copyBack d n out) := by
  induction n generalizing i out with
  | zero => rfl
  | succ n ih =>
    have hlt : start + i < out.size := by omega
    have hbyte : out.getD (out.size - d) 0 = out[start + i] := by
      rw [Array.getD_eq_getD_getElem?, show out.size - d = start + i by omega,
        Array.getElem?_eq_getElem hlt, Option.getD_some]
    rw [copyFrom, checkWord_of_lt (by omega), ok_bind, dif_pos hlt, copyBack, hbyte]
    exact ih (by rw [Array.size_push]; omega) (by rw [Array.size_push]; omega)

theorem copyToken_eq {size : Nat} (hsize : size < 1 <<< 24) {out : Array UInt8}
    (hout : out.size < size) {hi lo : UInt8} (hd : distance hi lo ≤ out.size) :
    copyToken size hi lo out =
      .ok (copyBack (distance hi lo) (min (length hi) (size - out.size)) out) := by
  rw [copyToken, if_neg (by omega), subWord, if_pos hd, subWord, if_pos (by omega)]
  exact copyFrom_eq (distance_bounds hi lo).1 _ (by omega) (by omega)

theorem copyToken_far {size : Nat} {out : Array UInt8} {hi lo : UInt8}
    (hd : out.size < distance hi lo) :
    copyToken size hi lo out =
      .error (.refused (.badBackReference (distance hi lo) out.size)) := by
  rw [copyToken, if_pos hd]
  rfl

theorem of_drop_eq_cons {src rest : List UInt8} {offset : Nat} {b : UInt8}
    (h : src.drop offset = b :: rest) :
    ∃ hlt : offset < src.length, src[offset] = b ∧ src.drop (offset + 1) = rest := by
  have hlt : offset < src.length := by
    have := congrArg List.length h
    rw [List.length_drop, List.length_cons] at this
    omega
  rw [List.drop_eq_getElem_cons hlt, List.cons.injEq] at h
  exact ⟨hlt, h⟩

/-- Decoding by offsets is decoding from the front, and no check fails. -/
theorem decodeAt_eq {src : List UInt8} (hsrc : src.length < 1 <<< 64) {size : Nat}
    (hsize : size < 1 <<< 24) (pending : List Bool) {offset : Nat} (out : Array UInt8)
    (hoffset : offset ≤ src.length) :
    decodeAt src size pending offset out =
      liftM (decodeFrom src.length size pending (src.drop offset) out) := by
  generalize hrest : src.drop offset = rest
  induction pending, rest, out using @decodeFrom_induction size generalizing offset with
  | done pending rest out hout =>
    rw [decodeFrom_of_le hout, decodeAt, if_pos hout]
    rfl
  | flag f rest out hout ih =>
    obtain ⟨hlt, rfl, hnext⟩ := of_drop_eq_cons hrest
    rw [decodeFrom_flag hout, ← ih hlt hnext, decodeAt, if_neg (by omega), dif_pos hlt,
      checkWord_of_lt (by omega), ok_bind]
  | literal pending b rest out hout ih =>
    obtain ⟨hlt, rfl, hnext⟩ := of_drop_eq_cons hrest
    rw [decodeFrom_literal hout, ← ih hlt hnext, decodeAt, if_neg (by omega), dif_pos hlt,
      checkWord_of_lt (by omega), ok_bind]
  | far pending hi lo rest out hout hd =>
    obtain ⟨hlt, rfl, hnext⟩ := of_drop_eq_cons hrest
    obtain ⟨hlt', rfl, hlast⟩ := of_drop_eq_cons hnext
    rw [decodeFrom_far hout hd, decodeAt, if_neg (by omega), dif_pos hlt,
      checkWord_of_lt (by omega), ok_bind]
    simp only [dif_pos hlt', checkWord_of_lt (show offset + 2 < 1 <<< 64 by omega), ok_bind,
      copyToken_far hd, error_bind, lift_error]
  | copy pending hi lo rest out hout hd ih =>
    obtain ⟨hlt, rfl, hnext⟩ := of_drop_eq_cons hrest
    obtain ⟨hlt', rfl, hlast⟩ := of_drop_eq_cons hnext
    rw [decodeFrom_copy hout hd, ← ih hlt' hlast, decodeAt, if_neg (by omega), dif_pos hlt,
      checkWord_of_lt (by omega), ok_bind]
    simp only [dif_pos hlt', checkWord_of_lt (show offset + 2 < 1 <<< 64 by omega), ok_bind,
      copyToken_eq hsize hout hd]
  | missing pending out hout =>
    obtain rfl : offset = src.length := by
      have := List.drop_eq_nil_iff.mp hrest
      omega
    rw [decodeFrom_nil hout, decodeAt, if_neg (by omega), dif_neg (by omega)]
    rfl
  | half pending hi out hout =>
    obtain ⟨hlt, rfl, hnext⟩ := of_drop_eq_cons hrest
    have hend : src.length = offset + 1 := by
      have := List.drop_eq_nil_iff.mp hnext
      omega
    rw [decodeFrom_half hout, decodeAt, if_neg (by omega), dif_pos hlt,
      checkWord_of_lt (by omega), ok_bind]
    refine (dif_neg (by omega)).trans ?_
    rw [hend]
    rfl

/-- The decoder reads no byte outside the buffer or the output, and none of its sums and differences
leaves a word of 64 bits. -/
theorem decompressAt_eq {src : List UInt8} (hsrc : src.length < 1 <<< 64) :
    decompressAt src = liftM (decompress src) := by
  rw [decompressAt, decompress]
  cases hheader : uncompressedSize src with
  | error e => rfl
  | ok size =>
    obtain ⟨hsize, body, rfl⟩ := uncompressedSize_eq_ok_iff.mp hheader
    refine decodeAt_eq hsrc hsize [] #[] ?_
    rw [length_header_append]
    exact Nat.le_add_right _ _

end Lz
end FixedFunction
