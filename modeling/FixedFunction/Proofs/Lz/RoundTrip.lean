import FixedFunction.Proofs.Lz.Steps

/-!
# Decompression undoes compression

Whatever factorization a compressor chooses, the output of the compressed buffer is what was
compressed.

**Invariant.**  In front of each step the output is a prefix of the data.  The flags that are
pending are those of the steps that are left of the current group, with some unused ones behind
them if there is no later group.

**Results.**
* `copyBack_take`: a copy extends a prefix of the data, also where it overlaps itself.
* `decodeFrom_of_factors`: the body of a factorization is decoded to the data.
* `decompress_encode_append`: the round trip.
-/

namespace FixedFunction
namespace Lz

theorem push_take {data : List UInt8} {p : Nat} {b : UInt8} (h : data[p]? = some b) :
    (data.take p).toArray.push b = (data.take (p + 1)).toArray := by
  rw [List.push_toArray, List.take_add_one, h]
  rfl

/-- A copy extends a prefix of the data, also where it overlaps itself. -/
theorem copyBack_take {data : List UInt8} {d : Nat} (hd : 1 ≤ d) (n : Nat) {p : Nat}
    (hdp : d ≤ p) (hn : p + n ≤ data.length)
    (h : ∀ j, j < n → data[p + j]? = data[p + j - d]?) :
    copyBack d n (data.take p).toArray = (data.take (p + n)).toArray := by
  induction n generalizing p with
  | zero => rfl
  | succ n ih =>
    -- The byte that is copied first lies in the prefix that is already there.
    have hlen : (data.take p).length = p := by
      rw [List.length_take]
      omega
    have hbyte : data[p]? = some ((data.take p).toArray.getD (p - d) 0) := by
      have h0 := h 0 (by omega)
      rw [Nat.add_zero] at h0
      rw [h0, Array.getD_eq_getD_getElem?, List.getElem?_toArray,
        List.getElem?_take_of_lt (by omega), List.getElem?_eq_getElem (by omega)]
      rfl
    rw [copyBack, List.size_toArray, hlen, push_take hbyte, ih (by omega) (by omega) ?_]
    · congr 2
      omega
    · intro j hj
      have := h (j + 1) (by omega)
      rwa [← Nat.add_assoc, Nat.add_right_comm] at this

section Groups

variable (total : Nat) (spare : UInt8) (tail data : List UInt8)

/-- Wherever the groups are cut, the decoder completes the data from position `p` on. -/
def Completes (p : Nat) (steps : List Step) : Prop :=
  ∀ (group later : List Step) (unused : List Bool),
    steps = group ++ later → (later ≠ [] → unused = []) →
    decodeFrom total data.length (group.map Step.isCopy ++ unused)
      (group.flatMap Step.bytes ++ (encodeBody spare later ++ tail)) (data.take p).toArray =
      .ok data.toArray

variable {total spare tail data}

theorem completes_of_le {p : Nat} (h : data.length ≤ p) (steps : List Step) :
    Completes total spare tail data p steps := by
  intro group later unused _ _
  rw [List.take_of_length_le h]
  exact decodeFrom_of_le (Nat.le_of_eq List.size_toArray.symm)

theorem size_take_lt {p : Nat} (hp : p < data.length) :
    (data.take p).toArray.size < data.length := by
  rw [List.size_toArray, List.length_take]
  omega

/-- It is enough to look at a group that is not used up, because a group that is used up is
followed by a flag byte and the next group. -/
theorem completes_cons {p : Nat} (hp : p < data.length) {s : Step} {steps : List Step}
    (h : ∀ (group later : List Step) (unused : List Bool),
      steps = group ++ later → (later ≠ [] → unused = []) →
      decodeFrom total data.length (s.isCopy :: (group.map Step.isCopy ++ unused))
        (s.bytes ++ (group.flatMap Step.bytes ++ (encodeBody spare later ++ tail)))
        (data.take p).toArray = .ok data.toArray) :
    Completes total spare tail data p (s :: steps) := by
  intro group later unused hs hu
  cases group with
  | cons s' group =>
    simp only [List.cons_append, List.cons.injEq] at hs
    obtain ⟨rfl, hs⟩ := hs
    simpa using h group later unused hs hu
  | nil =>
    rw [List.nil_append] at hs
    subst hs
    rw [hu (List.cons_ne_nil _ _), encodeBody]
    have hcut := h (steps.take 7) (steps.drop 7)
      ((flags spare).drop ((s :: steps).take 8).length) (List.take_append_drop 7 steps).symm ?_
    · simp only [List.map_nil, List.nil_append, List.flatMap_nil, List.cons_append]
      rw [decodeFrom_flag (size_take_lt hp),
        flags_groupFlags spare (List.length_take_le 8 (s :: steps))]
      simpa using hcut
    · intro hlater
      have : 7 < steps.length := by simpa using hlater
      apply List.drop_eq_nil_of_le
      simp
      omega

/-- The invariant holds in front of each step of a factorization. -/
theorem decodeFrom_of_factors {p : Nat} {steps : List Step} (h : Factors data p steps) :
    Completes total spare tail data p steps := by
  induction h with
  | done hp => exact completes_of_le hp []
  | @literal p b steps hb _ ih =>
    have hp : p < data.length := (List.getElem?_eq_some_iff.mp hb).1
    refine completes_cons hp fun group later unused hs hu => ?_
    simp only [Step.isCopy, Step.bytes, List.cons_append, List.nil_append]
    rw [decodeFrom_literal (size_take_lt hp), push_take hb]
    exact ih group later unused hs hu
  | @copy p d n steps hp hd hd' hdp hn hn' hcopy _ ih =>
    refine completes_cons hp fun group later unused hs hu => ?_
    have hlen : (data.take p).toArray.size = p := by
      simp
      omega
    simp only [Step.isCopy, Step.bytes, List.cons_append, List.nil_append]
    rw [decodeFrom_copy (size_take_lt hp) (by rw [distance_token hd hd', hlen]; exact hdp),
      distance_token hd hd', length_token hd hd' hn hn', hlen,
      copyBack_take hd _ hdp (by omega) fun j hj => hcopy j (by omega) (by omega)]
    have := ih group later unused hs hu
    by_cases hend : p + n ≤ data.length
    · rwa [Nat.min_eq_left (by omega)]
    · rw [Nat.min_eq_right (by omega)]
      rwa [List.take_of_length_le (by omega)] at this ⊢

end Groups

theorem uncompressedSize_encode {n : Nat} (hn : n < 1 <<< 24) (body : List UInt8) :
    uncompressedSize (magic ++ sizeBytes n ++ body) = .ok n :=
  uncompressedSize_eq_ok_iff.mpr ⟨hn, body, rfl⟩

/-- Decompression undoes compression, whatever factorization was chosen, whatever the unused bits
of the last flag byte are, and whatever follows the last step. -/
theorem decompress_encode_append {data : List UInt8} {steps : List Step}
    (hn : data.length < 1 <<< 24) (h : Factors data 0 steps) (spare : UInt8) (tail : List UInt8) :
    decompress (encode spare data steps ++ tail) = .ok data.toArray := by
  have hbuffer : encode spare data steps ++ tail =
      magic ++ sizeBytes data.length ++ (encodeBody spare steps ++ tail) := by
    simp [encode]
  have hbody : (encode spare data steps ++ tail).drop headerSize =
      encodeBody spare steps ++ tail := by
    rw [hbuffer]
    rfl
  have hcompletes : Completes (encode spare data steps ++ tail).length spare tail data 0 steps :=
    decodeFrom_of_factors h
  have hdecode := hcompletes [] steps [] rfl fun _ => rfl
  rw [decompress, hbody, hbuffer, uncompressedSize_encode hn]
  rw [hbuffer] at hdecode
  exact hdecode

/-- Two groups with two copies that overlap themselves.  The second copy is the last step and runs
past the end of the data. -/
theorem factors_overlapping :
    Factors [1, 2, 1, 2, 1, 2, 1, 3, 4, 5, 6, 7, 8, 6, 7, 8, 6] 0
      [.literal 1, .literal 2, .copy 2 5, .literal 3, .literal 4, .literal 5, .literal 6,
        .literal 7, .literal 8, .copy 3 18] := by
  refine .literal rfl (.literal rfl ?_)
  refine .copy (by decide) (by decide) (by decide) (by decide) (by decide) (by decide)
    (by decide) ?_
  refine .literal rfl (.literal rfl (.literal rfl (.literal rfl (.literal rfl (.literal rfl ?_)))))
  refine .copy (by decide) (by decide) (by decide) (by decide) (by decide) (by decide)
    (by decide) (.done (by decide))

theorem decompress_encode_overlapping :
    ([1, 2, 1, 2, 1, 2, 1, 3, 4, 5, 6, 7, 8, 6, 7, 8, 6] : List UInt8).length < 1 <<< 24 ∧
    decompress
      (encode 0x3F [1, 2, 1, 2, 1, 2, 1, 3, 4, 5, 6, 7, 8, 6, 7, 8, 6]
        [.literal 1, .literal 2, .copy 2 5, .literal 3, .literal 4, .literal 5, .literal 6,
          .literal 7, .literal 8, .copy 3 18] ++ [0xFF, 0x00]) =
      .ok #[1, 2, 1, 2, 1, 2, 1, 3, 4, 5, 6, 7, 8, 6, 7, 8, 6] :=
  ⟨by decide, decompress_encode_append (by decide) factors_overlapping 0x3F [0xFF, 0x00]⟩

end Lz
end FixedFunction
