import FixedFunction.Proofs.Lz.Factorization

/-!
# The steps that a body holds

The bytes of a body are read as steps, flag by flag.  Whatever the bytes are, what was read of them
is written in the same way again, up to the bits of the last flag byte that no step used.

**Invariant.**  The steps that are left of the current group have the flags that are pending, and
the steps behind them start a group of their own.

**Results.**
* `byteOfBits_flags`, `bytes_copy`: a flag byte and a token are written as they were read.
* `Begins`: the steps that are read off the front of a body.
* `Begins.exists_encodeBody`: a body begins with the encoding of the steps that are read off it.
-/

namespace FixedFunction
namespace Lz

theorem byteOfBits_flags (f : UInt8) : byteOfBits (flags f) = f := by
  have hall : ∀ n, n < 256 → byteOfBits (flags n.toUInt8) = n.toUInt8 := by
    decide +kernel
  have := hall f.toNat f.toNat_lt
  rwa [show f.toNat.toUInt8 = f from UInt8.ofNat_toNat] at this

/-- A token is written as it was read. -/
theorem bytes_copy (hi lo : UInt8) : Step.bytes (.copy (distance hi lo) (length hi)) = [hi, lo] := by
  obtain ⟨hd, hd'⟩ := distance_bounds hi lo
  have := hi.toNat_lt
  have := lo.toNat_lt
  rw [Step.bytes, token_eq hd hd']
  simp only [List.cons.injEq, ← UInt8.toNat_inj, Nat.toUInt8, UInt8.toNat_ofNat',
    Nat.shiftRight_eq_div_pow, distance, length, and_true]
  omega

/-- The bytes begin with the given steps, where some flags of a group are still to be used. -/
inductive Begins : List Bool → List UInt8 → List Step → Prop
  | nil {pending : List Bool} {src : List UInt8} : Begins pending src []
  | flag {f : UInt8} {src : List UInt8} {steps : List Step} :
      Begins (flags f) src steps →
      Begins [] (f :: src) steps
  | literal {pending : List Bool} {b : UInt8} {src : List UInt8} {steps : List Step} :
      Begins pending src steps →
      Begins (false :: pending) (b :: src) (.literal b :: steps)
  | copy {pending : List Bool} {hi lo : UInt8} {src : List UInt8} {steps : List Step} :
      Begins pending src steps →
      Begins (true :: pending) (hi :: lo :: src) (.copy (distance hi lo) (length hi) :: steps)

/-- The flags of a group are those of its flag byte.  A full group leaves no bit of it over. -/
theorem groupFlags_eq {spare f : UInt8} {steps : List Step}
    (h : (steps.map Step.isCopy).take 8 = (flags f).take steps.length)
    (hspare : steps.length ≤ 8 → spare = f) : groupFlags spare (steps.take 8) = f := by
  rw [groupFlags, List.map_take, h]
  rcases Nat.lt_or_ge 8 steps.length with hlen | hlen
  · rw [List.length_take_of_le (Nat.le_of_lt hlen), List.take_of_length_le (by simp; omega),
      List.drop_of_length_le (by simp), List.append_nil, byteOfBits_flags]
  · rw [hspare hlen, List.take_of_length_le hlen, List.take_append_drop, byteOfBits_flags]

/-- What is left of the current group stands in front of the groups that follow. -/
theorem Begins.exists_groups {pending : List Bool} {src : List UInt8} {steps : List Step}
    (h : Begins pending src steps) :
    (steps.map Step.isCopy).take pending.length = pending.take steps.length ∧
      ∃ spare rest, src = (steps.take pending.length).flatMap Step.bytes ++
        (encodeBody spare (steps.drop pending.length) ++ rest) := by
  induction h with
  | @nil pending src => exact ⟨by simp, 0, src, by simp [encodeBody]⟩
  | @flag f src steps _ ih =>
    obtain ⟨hflags, spare, rest, rfl⟩ := ih
    rw [length_flags] at hflags
    refine ⟨by simp, ?_⟩
    cases steps with
    | nil => exact ⟨0, f :: rest, by simp [encodeBody]⟩
    | cons s steps =>
      simp only [length_flags, List.length_nil, List.take_zero, List.drop_zero,
        List.flatMap_nil, List.nil_append]
      -- Only a group that is not full has bits of its own, and then no group follows it.
      rcases Nat.lt_or_ge 8 (s :: steps).length with hlen | hlen
      · refine ⟨spare, rest, ?_⟩
        rw [encodeBody, groupFlags_eq hflags fun h => absurd h (Nat.not_le.mpr hlen),
          List.cons_append, List.append_assoc]
      · refine ⟨f, rest, ?_⟩
        rw [encodeBody, groupFlags_eq hflags fun _ => rfl, List.cons_append, List.append_assoc,
          List.drop_of_length_le hlen, encodeBody, encodeBody]
  | @literal pending b src steps _ ih =>
    obtain ⟨hflags, spare, rest, rfl⟩ := ih
    refine ⟨?_, spare, rest, ?_⟩
    · simpa [Step.isCopy] using hflags
    · simp [Step.bytes]
  | @copy pending hi lo src steps _ ih =>
    obtain ⟨hflags, spare, rest, rfl⟩ := ih
    refine ⟨?_, spare, rest, ?_⟩
    · simpa [Step.isCopy] using hflags
    · simp [bytes_copy]

/-- A body begins with the encoding of the steps that are read off it. -/
theorem Begins.exists_encodeBody {body : List UInt8} {steps : List Step}
    (h : Begins [] body steps) : ∃ spare rest, body = encodeBody spare steps ++ rest :=
  h.exists_groups.2

end Lz
end FixedFunction
