import FixedFunction.Lz.Stream

/-!
# Factorizations and their encoding

A compressor cuts its input into steps.  A step is a literal, or a copy of bytes that were
produced before.  This module says which sequences of steps produce an input, and how they are
written down.

**Input.**  The bytes to compress, and any sequence of steps that produces them.

**Encoding.**  The steps are cut into groups of eight, and each group is led by a flag byte.  The
last group may be shorter.  The bits of its flag byte that no step uses are free.

**Results.**
* `Factors`: the sequences of steps that produce the bytes from a position on.
* `encode`: the compressed buffer.
* `flags_groupFlags`: the flags that a decoder reads off a flag byte.
* `distance_token`, `length_token`: the distance and length that it reads off a token.
-/

namespace FixedFunction
namespace Lz

/-- One step of a factorization. -/
inductive Step where
  /-- The next byte. -/
  | literal (b : UInt8)
  /-- A copy of bytes that lie `distance` before those that it produces. -/
  | copy (distance length : Nat)
deriving DecidableEq

/-- The steps produce `data` from position `p` on.  Every step starts inside `data`, so only the
last one can run past its end. -/
inductive Factors (data : List UInt8) : Nat → List Step → Prop
  | done {p : Nat} : data.length ≤ p → Factors data p []
  | literal {p : Nat} {b : UInt8} {steps : List Step} :
      data[p]? = some b →
      Factors data (p + 1) steps →
      Factors data p (.literal b :: steps)
  | copy {p d n : Nat} {steps : List Step} :
      p < data.length →
      1 ≤ d → d ≤ 4096 → d ≤ p →
      3 ≤ n → n ≤ 18 →
      (∀ j, j < n → p + j < data.length → data[p + j]? = data[p + j - d]?) →
      Factors data (p + n) steps →
      Factors data p (.copy d n :: steps)

namespace Step

/-- The flag of a step. -/
def isCopy : Step → Bool
  | literal _ => false
  | copy _ _ => true

/-- The number that a copy is written as. -/
def token (distance length : Nat) : Nat :=
  (length - 3) <<< 12 ||| (distance - 1)

/-- The bytes of a step. -/
def bytes : Step → List UInt8
  | literal b => [b]
  | copy d n => [(token d n >>> 8).toUInt8, (token d n).toUInt8]

end Step

/-- The byte with the given bits, highest first. -/
def byteOfBits (bits : List Bool) : UInt8 :=
  (bits.foldl (fun (n : Nat) (b : Bool) => 2 * n + b.toNat) 0).toUInt8

/-- The flag byte of a group.  The bits that no step uses are those of `spare`. -/
def groupFlags (spare : UInt8) (group : List Step) : UInt8 :=
  byteOfBits (group.map Step.isCopy ++ (flags spare).drop group.length)

/-- The groups of a sequence of steps, one after the other. -/
def encodeBody (spare : UInt8) (steps : List Step) : List UInt8 :=
  match steps with
  | [] => []
  | s :: rest =>
    groupFlags spare ((s :: rest).take 8) ::
      (((s :: rest).take 8).flatMap Step.bytes ++ encodeBody spare ((s :: rest).drop 8))
termination_by steps.length

/-- The size of the output in three bytes, least significant first. -/
def sizeBytes (n : Nat) : List UInt8 :=
  [n.toUInt8, (n >>> 8).toUInt8, (n >>> 16).toUInt8]

/-- The compressed buffer of `data` for the given steps. -/
def encode (spare : UInt8) (data : List UInt8) (steps : List Step) : List UInt8 :=
  magic ++ sizeBytes data.length ++ encodeBody spare steps

theorem flags_byteOfBits {bits : List Bool} (h : bits.length = 8) :
    flags (byteOfBits bits) = bits := by
  match bits, h with
  | [b7, b6, b5, b4, b3, b2, b1, b0], _ =>
    revert b7 b6 b5 b4 b3 b2 b1 b0
    decide +kernel

@[simp]
theorem length_flags (f : UInt8) : (flags f).length = 8 := by
  simp [flags]

theorem flags_groupFlags (spare : UInt8) {group : List Step} (h : group.length ≤ 8) :
    flags (groupFlags spare group) =
      group.map Step.isCopy ++ (flags spare).drop group.length := by
  apply flags_byteOfBits
  simp
  omega

/-- The two parts of a token do not overlap. -/
theorem token_eq {d n : Nat} (hd : 1 ≤ d) (hd' : d ≤ 4096) :
    Step.token d n = 4096 * (n - 3) + (d - 1) := by
  rw [Step.token, ← Nat.shiftLeft_add_eq_or_of_lt (by omega), Nat.shiftLeft_eq]
  omega

theorem distance_token {d : Nat} (hd : 1 ≤ d) (hd' : d ≤ 4096) (n : Nat) :
    distance (Step.token d n >>> 8).toUInt8 (Step.token d n).toUInt8 = d := by
  rw [token_eq hd hd', Nat.shiftRight_eq_div_pow, distance]
  simp only [Nat.toUInt8, UInt8.toNat_ofNat']
  omega

theorem length_token {d n : Nat} (hd : 1 ≤ d) (hd' : d ≤ 4096) (hn : 3 ≤ n) (hn' : n ≤ 18) :
    length (Step.token d n >>> 8).toUInt8 = n := by
  rw [token_eq hd hd', Nat.shiftRight_eq_div_pow, length]
  simp only [Nat.toUInt8, UInt8.toNat_ofNat']
  omega

end Lz
end FixedFunction
