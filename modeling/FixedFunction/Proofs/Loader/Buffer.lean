import FixedFunction.Loader.Basic
import FixedFunction.Proofs.Failure

/-!
# Writing values into a buffer

**Results.**
* `Loader.getElem?_overwrite_of_outside`: a write leaves the bytes outside its range as they were.
* `Loader.extract_overwrite`: what was written is read back.
* `Loader.writeValue_eq_ok`: a value is written exactly if it has the expected size and lies in its
  vertex, and the vertex lies in the buffer.
-/

namespace FixedFunction
namespace Loader

@[simp]
theorem size_overwrite (out : Array UInt8) (start : Nat) (value : List UInt8) :
    (overwrite out start value).size = out.size := by
  induction value generalizing out start with
  | nil => rfl
  | cons b value ih => rw [overwrite, ih, Array.size_setIfInBounds]

/-- A write leaves the bytes outside its range as they were. -/
theorem getElem?_overwrite_of_outside {out : Array UInt8} {start k : Nat} {value : List UInt8}
    (h : ¬ (start ≤ k ∧ k < start + value.length)) :
    (overwrite out start value)[k]? = out[k]? := by
  induction value generalizing out start with
  | nil => rfl
  | cons b value ih =>
    rw [List.length_cons] at h
    rw [overwrite, ih (by omega), Array.getElem?_setIfInBounds_ne (by omega)]

theorem getElem?_overwrite_of_lt {out : Array UInt8} {start j : Nat} {value : List UInt8}
    (hroom : start + value.length ≤ out.size) (hj : j < value.length) :
    (overwrite out start value)[start + j]? = value[j]? := by
  induction value generalizing out start j with
  | nil => simp at hj
  | cons b value ih =>
    rw [List.length_cons] at hroom hj
    rw [overwrite]
    cases j with
    | zero =>
      rw [getElem?_overwrite_of_outside (by omega), Nat.add_zero,
        Array.getElem?_setIfInBounds_self_of_lt (by omega)]
      rfl
    | succ j =>
      rw [← Nat.add_assoc, Nat.add_right_comm, ih (by simp; omega) (by omega)]
      rfl

/-- Ranges of two buffers with the same bytes. -/
theorem extract_congr {out out' : Array UInt8} {start stop : Nat} (hsize : out'.size = out.size)
    (h : ∀ k, start ≤ k → k < stop → out'[k]? = out[k]?) :
    out'.extract start stop = out.extract start stop := by
  apply Array.ext_getElem?
  intro i
  rw [Array.getElem?_extract, Array.getElem?_extract, hsize]
  split
  · exact h _ (by omega) (by omega)
  · rfl

/-- What was written is read back. -/
theorem extract_overwrite {out : Array UInt8} {start : Nat} {value : List UInt8}
    (hroom : start + value.length ≤ out.size) :
    ((overwrite out start value).extract start (start + value.length)).toList = value := by
  apply List.ext_getElem?
  intro i
  rw [Array.getElem?_toList, Array.getElem?_extract, size_overwrite]
  by_cases hi : i < value.length
  · rw [if_pos (by omega), getElem?_overwrite_of_lt hroom hi]
  · rw [if_neg (by omega), List.getElem?_eq_none (by omega)]

theorem writeValue_eq_ok {stride base : Nat} {t : Transfer} {value : List UInt8}
    {out out' : Array UInt8} :
    writeValue stride base t value out = .ok out' ↔
      (value.length = t.size ∧ t.offset + t.size ≤ stride ∧ base + stride ≤ out.size) ∧
        out' = overwrite out (base + t.offset) value := by
  rw [writeValue]
  split
  · rename_i h
    simp [h, eq_comm]
  · rename_i h
    exact ⟨fun h' => by simp at h', fun h' => absurd h'.1 h⟩

end Loader
end FixedFunction
