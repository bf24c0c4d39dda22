import FixedFunction.Error

/-!
# Places in a display list

A display list is read from the front.  What is left to read is carried together with the number
of bytes that came before, which is the place that a refusal names.

**Results.**
* `splitExact?_eq`: splitting off a number of elements fails only where there are fewer.
* `Cursor.bytes`, `Cursor.byte`, `Cursor.word`: the next bytes and the place behind them, or the
  refusal of a list that ends before.
-/

namespace FixedFunction
namespace DisplayList

/-- Splits off exactly `n` elements; `front` holds those already split off, last first. -/
def splitFrom {α : Type} : Nat → List α → List α → Option (List α × List α)
  | 0, front, l => some (front.reverse, l)
  | _ + 1, _, [] => none
  | n + 1, front, x :: l => splitFrom n (x :: front) l

/-- The first `n` elements of a list and the others, if there are `n`. -/
def splitExact? {α : Type} (n : Nat) (l : List α) : Option (List α × List α) :=
  splitFrom n [] l

theorem splitFrom_eq {α : Type} (n : Nat) (front l : List α) :
    splitFrom n front l =
      if n ≤ l.length then some (front.reverse ++ l.take n, l.drop n) else none := by
  induction n generalizing front l with
  | zero => simp [splitFrom]
  | succ n ih =>
    cases l with
    | nil => simp [splitFrom]
    | cons x l => simp [splitFrom, ih]

theorem splitExact?_eq {α : Type} (n : Nat) (l : List α) :
    splitExact? n l = if n ≤ l.length then some (l.take n, l.drop n) else none := by
  simp [splitExact?, splitFrom_eq]

/-- A place in a display list. -/
structure Cursor where
  /-- Number of bytes before the place. -/
  offset : Nat
  /-- The bytes from the place on. -/
  rest : List UInt8

namespace Cursor

/-- The next `n` bytes. -/
def bytes (c : Cursor) (n : Nat) : Except Error (List UInt8 × Cursor) :=
  match splitExact? n c.rest with
  | some (front, rest) => .ok (front, ⟨c.offset + n, rest⟩)
  | none => .error (.truncatedList c.offset n)

/-- The next byte. -/
def byte (c : Cursor) : Except Error (UInt8 × Cursor) :=
  match c.rest with
  | b :: rest => .ok (b, ⟨c.offset + 1, rest⟩)
  | [] => .error (.truncatedList c.offset 1)

/-- The number with the given bytes, most significant first. -/
def wordOf (hi lo : UInt8) : UInt16 :=
  (256 * hi.toNat + lo.toNat).toUInt16

@[simp]
theorem toNat_wordOf (hi lo : UInt8) : (wordOf hi lo).toNat = 256 * hi.toNat + lo.toNat := by
  have := hi.toNat_lt
  have := lo.toNat_lt
  simp only [wordOf, Nat.toUInt16, UInt16.toNat_ofNat']
  omega

/-- The number in the next two bytes, most significant first. -/
def word (c : Cursor) : Except Error (UInt16 × Cursor) :=
  match c.rest with
  | hi :: lo :: rest => .ok (wordOf hi lo, ⟨c.offset + 2, rest⟩)
  | _ => .error (.truncatedList c.offset 2)

theorem bytes_eq (c : Cursor) (n : Nat) :
    c.bytes n =
      if n ≤ c.rest.length then .ok (c.rest.take n, ⟨c.offset + n, c.rest.drop n⟩)
      else .error (.truncatedList c.offset n) := by
  by_cases h : n ≤ c.rest.length <;> simp [bytes, splitExact?_eq, h]

theorem length_of_bytes {c c' : Cursor} {n : Nat} {l : List UInt8} (h : c.bytes n = .ok (l, c')) :
    c'.rest.length + n = c.rest.length := by
  rw [bytes_eq] at h
  split at h
  · simp only [Except.ok.injEq, Prod.mk.injEq] at h
    rw [← h.2, List.length_drop]
    omega
  · simp at h

theorem length_of_word {c c' : Cursor} {n : UInt16} (h : c.word = .ok (n, c')) :
    c'.rest.length + 2 = c.rest.length := by
  unfold word at h
  split at h
  · rename_i hc
    simp only [Except.ok.injEq, Prod.mk.injEq] at h
    simp [← h.2, hc]
  · simp at h

end Cursor
end DisplayList
end FixedFunction
