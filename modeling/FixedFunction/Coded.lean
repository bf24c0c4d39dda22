/-!
# Register fields with named codes

A register field of the pipeline holds one byte, and each byte that the hardware knows has a
name.  The same name is written in material files and in messages.

**Input.**  `Coded.codes`, the table of a field: one row per value, with its name and its byte.

**Results.**
* `Coded.ofRaw?_eq_some_iff`: a byte decodes to a value exactly when it is that value's byte.
* `Coded.ofName?_eq_some_iff`: a name reads as a value exactly when it is that value's name.
-/

namespace FixedFunction

/-- One row of a register field's table. -/
structure Code (α : Type) where
  /-- The value. -/
  value : α
  /-- Its name in material files and in messages. -/
  name : String
  /-- Its byte in the register. -/
  raw : UInt8

/-- A register field given by a table in which every value, name and byte occurs once. -/
class Coded (α : Type) [DecidableEq α] where
  /-- The table, in the order of the hardware manual. -/
  codes : List (Code α)
  /-- Every value has a row. -/
  complete : ∀ a, a ∈ codes.map Code.value
  /-- No value has two rows. -/
  values_nodup : (codes.map Code.value).Nodup
  /-- No name is given twice. -/
  names_nodup : (codes.map Code.name).Nodup
  /-- No byte is given twice. -/
  raws_nodup : (codes.map Code.raw).Nodup

namespace Coded

/-- In a list whose keys do not repeat, the first row with a key is the row with that key. -/
theorem find?_eq_of_nodup {α κ : Type} [BEq κ] [LawfulBEq κ] {key : Code α → κ} {l : List (Code α)}
    (hl : (l.map key).Nodup) {c : Code α} (hc : c ∈ l) :
    l.find? (fun d => key d == key c) = some c := by
  induction l with
  | nil => simp at hc
  | cons d l ih =>
    simp only [List.map_cons, List.nodup_cons] at hl
    rcases List.mem_cons.1 hc with rfl | hc
    · simp
    · have hne : (key d == key c) = false := by
        simp only [beq_eq_false_iff_ne, ne_eq]
        intro h
        exact hl.1 (h ▸ List.mem_map_of_mem hc)
      simp [hne, ih hl.2 hc]

variable {α : Type} [DecidableEq α] [Coded α]

/-- All values of the field, in table order. -/
def values (α : Type) [DecidableEq α] [Coded α] : List α :=
  (codes (α := α)).map Code.value

/-- The row of a value. -/
def row (a : α) : Code α :=
  (codes.find? (fun c => c.value == a)).getD ⟨a, "", 0⟩

/-- The name of a value. -/
def name (a : α) : String :=
  (row a).name

/-- The byte of a value. -/
def raw (a : α) : UInt8 :=
  (row a).raw

/-- The value with the given byte. -/
def ofRaw? (r : UInt8) : Option α :=
  (codes.find? (fun c => c.raw == r)).map Code.value

/-- The value with the given name. -/
def ofName? (s : String) : Option α :=
  (codes.find? (fun c => c.name == s)).map Code.value

theorem row_mem (a : α) : row a ∈ codes (α := α) := by
  obtain ⟨c, hc, rfl⟩ := List.mem_map.1 (complete a)
  simp [row, find?_eq_of_nodup values_nodup hc, hc]

@[simp]
theorem value_row (a : α) : (row a).value = a := by
  obtain ⟨c, hc, rfl⟩ := List.mem_map.1 (complete a)
  simp [row, find?_eq_of_nodup values_nodup hc]

theorem row_value {c : Code α} (hc : c ∈ codes) : row c.value = c := by
  simp [row, find?_eq_of_nodup values_nodup hc]

/-- A byte decodes to a value exactly when it is that value's byte. -/
theorem ofRaw?_eq_some_iff {r : UInt8} {a : α} : ofRaw? r = some a ↔ raw a = r := by
  constructor
  · intro h
    obtain ⟨c, hc, rfl⟩ := Option.map_eq_some_iff.1 h
    have hr : c.raw = r := by simpa using List.find?_some hc
    rw [raw, row_value (List.mem_of_find?_eq_some hc), hr]
  · rintro rfl
    simp [ofRaw?, raw, find?_eq_of_nodup raws_nodup (row_mem a)]

/-- A name reads as a value exactly when it is that value's name. -/
theorem ofName?_eq_some_iff {s : String} {a : α} : ofName? s = some a ↔ name a = s := by
  constructor
  · intro h
    obtain ⟨c, hc, rfl⟩ := Option.map_eq_some_iff.1 h
    have hr : c.name = s := by simpa using List.find?_some hc
    rw [name, row_value (List.mem_of_find?_eq_some hc), hr]
  · rintro rfl
    simp [ofName?, name, find?_eq_of_nodup names_nodup (row_mem a)]

end Coded
end FixedFunction
