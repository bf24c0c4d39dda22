import FixedFunction.Loader.Basic
import FixedFunction.Proofs.DisplayList.Commands

/-!
# What a stream denotes

The value of a slot is determined by a position in the display list.  A direct value stands there
itself.  Otherwise an index stands there, and the value is an element of the array of the
attribute.

**Results.**
* `Loader.denoted`: the value that a display list denotes for a slot at a position, or the cause
  for which it denotes none.
* `Transfer.ofSlot?_of_present`: there is a transfer into each slot of a present attribute.
* `Loader.Overruns`: the machine has no address for the end of the element that a slot asks for.
* `Loader.readValue_eq_ok`: a value that is read is the value that the display list denotes.
* `Loader.readValue_follows`: reading stops exactly where an element overruns, and fails for another
  cause exactly where the display list denotes nothing.
-/

namespace FixedFunction

/-- There is a transfer into each slot of a present attribute. -/
theorem Transfer.ofSlot?_of_present {s : Slot} (h : s.presence ≠ .absent) :
    ∃ source, Source.ofPresence? s.presence = some source ∧
      Transfer.ofSlot? s = some (s.transfer source) := by
  rw [Transfer.ofSlot?]
  cases hs : s.presence with
  | absent => contradiction
  | direct => exact ⟨.direct, rfl, rfl⟩
  | index8 => exact ⟨.index8, rfl, rfl⟩
  | index16 => exact ⟨.index16, rfl, rfl⟩

namespace Loader

open DisplayList (Cursor)

/-- The element with index `i` of the array of an attribute. -/
def element (arrays : VertexArrays) (s : Slot) (i : UInt16) : Except Error (List UInt8) :=
  match arrays.get s.attr with
  | none => .error (.missingArray s.attr)
  | some a =>
    if a.offset + s.size * i.toNat + s.size ≤ a.data.size then
      .ok (a.data.extract (a.offset + s.size * i.toNat)
        (a.offset + s.size * i.toNat + s.size)).toList
    else .error (.arrayOutOfBounds s.attr i)

/-- The value that a display list denotes for a slot at position `p`. -/
def denoted (arrays : VertexArrays) (dl : List UInt8) (p : Nat) (s : Slot) :
    Except Error (List UInt8) :=
  match s.presence with
  | .absent => .ok []
  | .direct =>
    if s.size ≤ (dl.drop p).length then .ok ((dl.drop p).take s.size)
    else .error (.truncatedList p s.size)
  | .index8 =>
    match dl[p]? with
    | some i => element arrays s i.toUInt16
    | none => .error (.truncatedList p 1)
  | .index16 =>
    match dl[p]?, dl[p + 1]? with
    | some hi, some lo => element arrays s (Cursor.wordOf hi lo)
    | _, _ => .error (.truncatedList p 2)

/-- The cause for which a display list denotes no value. -/
def defect (arrays : VertexArrays) (dl : List UInt8) (p : Nat) (s : Slot) : Option Error :=
  match denoted arrays dl p s with
  | .ok _ => none
  | .error e => some e

/-- The index that stands at position `p` for a slot that is looked up. -/
def indexAt? (dl : List UInt8) (p : Nat) (s : Slot) : Option UInt16 :=
  match s.presence with
  | .absent => none
  | .direct => none
  | .index8 => dl[p]?.map UInt8.toUInt16
  | .index16 =>
    match dl[p]?, dl[p + 1]? with
    | some hi, some lo => some (Cursor.wordOf hi lo)
    | _, _ => none

/-- The element with index `i` does not end at a word of 64 bits. -/
def Beyond (arrays : VertexArrays) (s : Slot) (i : UInt16) : Prop :=
  ∃ a ∈ arrays.get s.attr, 1 <<< 64 ≤ a.offset + s.size * i.toNat + s.size

instance (arrays : VertexArrays) (s : Slot) (i : UInt16) : Decidable (Beyond arrays s i) :=
  inferInstanceAs (Decidable (∃ a ∈ arrays.get s.attr, _))

/-- The element that is looked up at position `p` does not end at a word of 64 bits. -/
def Overruns (arrays : VertexArrays) (dl : List UInt8) (p : Nat) (s : Slot) : Prop :=
  ∃ i ∈ indexAt? dl p s, Beyond arrays s i

instance (arrays : VertexArrays) (dl : List UInt8) (p : Nat) (s : Slot) :
    Decidable (Overruns arrays dl p s) :=
  inferInstanceAs (Decidable (∃ i ∈ indexAt? dl p s, _))

/-- How reading the value of a slot fails.  Addresses are taken before bounds are checked. -/
def failure? (arrays : VertexArrays) (dl : List UInt8) (p : Nat) (s : Slot) : Option Failure :=
  if Overruns arrays dl p s then some (.stopped .overflow)
  else (defect arrays dl p s).map .refused

/-- The addresses of all elements of a slot are words of 64 bits. -/
def Addressable (arrays : VertexArrays) (s : Slot) : Prop :=
  ∀ a, arrays.get s.attr = some a → a.offset + s.size * 65536 < 1 <<< 64

theorem length_of_element {arrays : VertexArrays} {s : Slot} {i : UInt16} {v : List UInt8}
    (h : element arrays s i = .ok v) : v.length = s.size := by
  unfold element at h
  split at h
  · simp at h
  · split at h
    · obtain rfl := Except.ok.inj h
      simp
      omega
    · simp at h

/-- A value that is denoted is as long as its slot. -/
theorem length_of_denoted {arrays : VertexArrays} {dl : List UInt8} {p : Nat} {s : Slot}
    {v : List UInt8} (hs : s.presence ≠ .absent) (h : denoted arrays dl p s = .ok v) :
    v.length = s.size := by
  unfold denoted at h
  split at h
  · contradiction
  · split at h
    · rename_i hroom
      obtain rfl := Except.ok.inj h
      exact List.length_take_of_le hroom
    · simp at h
  · split at h
    · exact length_of_element h
    · simp at h
  · split at h
    · exact length_of_element h
    · simp at h

theorem error_of_element {arrays : VertexArrays} {s : Slot} {i : UInt16} {e : Error}
    (h : element arrays s i = .error e) :
    e = .missingArray s.attr ∨ ∃ i, e = .arrayOutOfBounds s.attr i := by
  unfold element at h
  split at h
  · exact .inl (Except.error.inj h).symm
  · split at h
    · simp at h
    · exact .inr ⟨i, (Except.error.inj h).symm⟩

theorem denoted_of_direct {arrays : VertexArrays} {dl : List UInt8} {p : Nat} {s : Slot}
    (hs : s.presence = .direct) (hroom : p + s.streamSize ≤ dl.length) :
    ∃ v, denoted arrays dl p s = .ok v := by
  simp only [Slot.streamSize, hs, Presence.streamSize] at hroom
  have hsize : s.size ≤ (dl.drop p).length := by
    rw [List.length_drop]
    omega
  simp only [denoted, hs]
  exact ⟨(dl.drop p).take s.size, if_pos hsize⟩

/-- Where the bytes of the slot are there, only an array can be at fault. -/
theorem error_of_denoted {arrays : VertexArrays} {dl : List UInt8} {p : Nat} {s : Slot}
    {e : Error} (hroom : p + s.streamSize ≤ dl.length) (h : denoted arrays dl p s = .error e) :
    e = .missingArray s.attr ∨ ∃ i, e = .arrayOutOfBounds s.attr i := by
  rw [Slot.streamSize] at hroom
  cases hs : s.presence with
  | absent => simp [denoted, hs] at h
  | direct =>
    simp only [hs, Presence.streamSize] at hroom
    simp only [denoted, hs] at h
    rw [if_pos (by rw [List.length_drop]; omega)] at h
    simp at h
  | index8 =>
    simp only [hs, Presence.streamSize] at hroom
    simp only [denoted, hs] at h
    rw [List.getElem?_eq_getElem (by omega)] at h
    exact error_of_element h
  | index16 =>
    simp only [hs, Presence.streamSize] at hroom
    simp only [denoted, hs] at h
    rw [List.getElem?_eq_getElem (by omega), List.getElem?_eq_getElem (by omega)] at h
    exact error_of_element h

section Read

variable {arrays : VertexArrays} {s : Slot} {source : Source}

theorem fetch_eq (i : UInt16) :
    fetch arrays (s.transfer source) i =
      if Beyond arrays s i then .error (.stopped .overflow) else liftM (element arrays s i) := by
  cases ha : arrays.get s.attr with
  | none => simp [fetch, Slot.transfer, element, Beyond, ha]
  | some a =>
    have hbeyond : Beyond arrays s i ↔ 1 <<< 64 ≤ a.offset + s.size * i.toNat + s.size := by
      simp [Beyond, ha]
    simp only [fetch, Slot.transfer, element, ha, hbeyond]
    rcases Nat.lt_or_ge (a.offset + s.size * i.toNat + s.size) (1 <<< 64) with hend | hend
    · rw [if_neg (Nat.not_le.mpr hend), checkWord_of_lt (by omega), ok_bind,
        checkWord_of_lt hend, ok_bind]
      split <;> rfl
    · rw [if_pos hend]
      rcases Nat.lt_or_ge (a.offset + s.size * i.toNat) (1 <<< 64) with hstart | hstart
      · rw [checkWord_of_lt hstart, ok_bind, checkWord_of_le hend, error_bind]
      · rw [checkWord_of_le hstart, error_bind]

theorem not_beyond (hs : Addressable arrays s) (i : UInt16) : ¬ Beyond arrays s i := by
  rintro ⟨a, ha, hend⟩
  have hi := i.toNat_lt
  have hmul : s.size * i.toNat + s.size ≤ s.size * 65536 :=
    calc s.size * i.toNat + s.size = s.size * (i.toNat + 1) := rfl
      _ ≤ s.size * 65536 := Nat.mul_le_mul_left _ (by omega)
  have hbound := hs a ha
  omega

variable {dl : List UInt8} {p : Nat}

theorem failure?_of_addressable (hs : Addressable arrays s) :
    failure? arrays dl p s = (defect arrays dl p s).map .refused :=
  if_neg fun ⟨i, _, h⟩ => not_beyond hs i h

variable (hsource : Source.ofPresence? s.presence = some source)
include hsource

theorem readValue_eq :
    readValue arrays (s.transfer source) (.ofOffset dl p) =
      if Overruns arrays dl p s then .error (.stopped .overflow)
      else liftM ((denoted arrays dl p s).map fun v =>
        (v, Cursor.ofOffset dl (p + s.streamSize))) := by
  have hfetch : ∀ i, fetch arrays (s.transfer source) i = _ := fetch_eq
  rw [Slot.streamSize]
  cases hs : s.presence with
  | absent => simp [hs, Source.ofPresence?] at hsource
  | direct =>
    rw [hs] at hsource
    obtain rfl := Option.some.inj hsource
    simp only [readValue, Slot.transfer, denoted, Overruns, indexAt?, hs, Presence.streamSize,
      Cursor.bytes_ofOffset]
    split <;> simp [Except.map]
  | index8 =>
    rw [hs] at hsource
    obtain rfl := Option.some.inj hsource
    simp only [Slot.transfer] at hfetch
    simp only [readValue, Slot.transfer, denoted, Overruns, indexAt?, hs, Presence.streamSize,
      Cursor.byte_ofOffset]
    cases dl[p]? with
    | none => simp [Except.map]
    | some i =>
      simp only [lift_ok, ok_bind, hfetch, Option.map_some, Option.mem_some_iff, exists_eq_left']
      split
      case isTrue => rfl
      case isFalse => cases element arrays s i.toUInt16 <;> rfl
  | index16 =>
    rw [hs] at hsource
    obtain rfl := Option.some.inj hsource
    simp only [Slot.transfer] at hfetch
    simp only [readValue, Slot.transfer, denoted, Overruns, indexAt?, hs, Presence.streamSize,
      Cursor.word_ofOffset]
    cases dl[p]? with
    | none => simp [Except.map]
    | some hi =>
      cases dl[p + 1]? with
      | none => simp [Except.map]
      | some lo =>
        simp only [lift_ok, ok_bind, hfetch, Option.mem_some_iff, exists_eq_left']
        split
        case isTrue => rfl
        case isFalse => cases element arrays s (Cursor.wordOf hi lo) <;> rfl

/-- A value that is read is the value that the display list denotes, and reading moves on by the
bytes of the slot. -/
theorem readValue_eq_ok {v : List UInt8} {cur : Cursor}
    (h : readValue arrays (s.transfer source) (.ofOffset dl p) = .ok (v, cur)) :
    denoted arrays dl p s = .ok v ∧ cur = .ofOffset dl (p + s.streamSize) := by
  rw [readValue_eq hsource] at h
  split at h
  case isTrue => simp at h
  case isFalse =>
    obtain ⟨_, hv, h⟩ := map_eq_ok.mp (lift_eq_ok.mp h)
    obtain ⟨rfl, rfl⟩ := Prod.mk.inj h
    exact ⟨hv, rfl⟩

/-- Reading fails exactly where an element overruns or the display list denotes nothing. -/
theorem readValue_follows :
    Follows (readValue arrays (s.transfer source) (.ofOffset dl p)) (failure? arrays dl p s)
      fun r => denoted arrays dl p s = .ok r.1 ∧ r.2 = .ofOffset dl (p + s.streamSize) := by
  rw [readValue_eq hsource, failure?, defect]
  split
  case isTrue => rfl
  case isFalse =>
    cases denoted arrays dl p s with
    | ok v => exact .of_ok ⟨rfl, rfl⟩
    | error e => rfl

end Read

end Loader
end FixedFunction
