import FixedFunction.Json.Codec
import FixedFunction.Proofs.Json.Deletion
import Mathlib.Data.List.Forall2

/-!
# Reading what was written

Values without parts are read back.  A record that lost fields is read field by field, and each
field is read from what is left of it.

**Results.**
* `ScalarCodec`: the types whose values have no parts.
* `Json.readRecord?_without`: reading a record that lost fields.
* `Json.read?_vector_iff`: reading a vector.
-/

namespace FixedFunction
namespace Json

/-! ### Types without fields -/

/-- The types whose values are written as scalars and read back. -/
class ScalarCodec (α : Type) [Codec α] : Prop where
  isScalar_write (a : α) : (Codec.write a).isScalar
  read?_write (a : α) : read? (Codec.write a) = some a

section Scalars

theorem readBelow?_natCast {limit n : Nat} (h : n < limit) : readBelow? limit (int n) = some n := by
  simp [readBelow?, h]

instance : ScalarCodec Bool where
  isScalar_write _ := rfl
  read?_write _ := rfl

instance : ScalarCodec String where
  isScalar_write _ := rfl
  read?_write _ := rfl

instance : ScalarCodec UInt8 where
  isScalar_write _ := rfl
  read?_write n := by
    change (readBelow? UInt8.size (int n.toNat)).map Nat.toUInt8 = some n
    rw [readBelow?_natCast n.toNat_lt]
    exact congrArg some (UInt8.ofNat_toNat)

instance : ScalarCodec (Option UInt8) where
  isScalar_write
    | some _ => rfl
    | none => rfl
  read?_write
    | some n => congrArg (Option.map some) (ScalarCodec.read?_write n)
    | none => rfl

instance {α : Type} [DecidableEq α] [Coded α] : ScalarCodec α where
  isScalar_write _ := rfl
  read?_write _ := Coded.ofName?_eq_some_iff.2 rfl

end Scalars

/-! ### Lists and vectors -/

section Vectors

variable {α : Type} [Codec α]

theorem mapM_eq_some_iff {β γ : Type} {f : β → Option γ} {l : List β} {l' : List γ} :
    l.mapM f = some l' ↔ List.Forall₂ (fun b c => f b = some c) l l' := by
  induction l generalizing l' with
  | nil => simp [eq_comm]
  | cons b l ih =>
    rw [List.mapM_cons, List.forall₂_cons_left_iff]
    simp only [Option.bind_eq_bind, Option.bind_eq_some_iff, Option.pure_def, Option.some.injEq, ih]
    grind

/-- A vector is read as the list of its elements, if their number is right. -/
theorem read?_vector_iff {n : Nat} {v : Json} {xs : Vector α n} :
    read? v = some xs ↔ (read? v : Option (List α)) = some xs.toList := by
  change ((read? v : Option (List α)).bind fun l =>
    if h : l.length = n then some (⟨l.toArray, by simpa using h⟩ : Vector α n) else none) = _ ↔ _
  cases hv : (read? v : Option (List α)) with
  | none => simp
  | some l =>
    rw [Option.bind_some, Option.some.injEq]
    constructor
    · intro h
      split at h
      case isTrue => rw [← Option.some.inj h]; rfl
      case isFalse => exact absurd h (Option.some_ne_none xs).symm
    · rintro rfl
      rw [dif_pos (by simp)]
      rfl

end Vectors

/-! ### Records -/

section Records

variable {σ : Type} {required : Bool} {fields : List (RecordField σ)}

/-- Reads a field of a record that lost fields into a record. -/
def RecordField.readLeft (f : RecordField σ) (required : Bool) (d : Deletion) (s t : σ) :
    Option σ :=
  if d.takes [.field f.key] then (if required then none else some t)
  else f.read? t ((f.write s).without (d.below (.field f.key)))

theorem lookup_writeRecord (hkeys : (fields.map RecordField.key).Nodup) {f : RecordField σ}
    (hf : f ∈ fields) (s : σ) :
    lookup f.key (fields.map fun f => (f.key, f.write s)) = some (f.write s) := by
  refine lookup_of_mem ?_ (List.mem_map.2 ⟨f, hf, rfl⟩)
  rwa [List.map_map]

/-- A record that lost fields is read field by field. -/
theorem readRecord?_without (hkeys : (fields.map RecordField.key).Nodup) (start s : σ)
    (d : Deletion) :
    readRecord? required fields start ((writeRecord fields s).without d) =
      fields.foldlM (fun t f => f.readLeft required d s t) start := by
  let left := withoutFields d (fields.map fun f => (f.key, f.write s))
  have hlookup : ∀ f ∈ fields, lookup f.key left = if d.takes [.field f.key] then none
      else some ((f.write s).without (d.below (.field f.key))) := by
    intro f hf
    rw [lookup_withoutFields, lookup_writeRecord hkeys hf, Option.map_some]
  change readFields required fields left start = _
  clear_value left
  clear hkeys
  unfold readFields
  induction fields generalizing start with
  | nil => rfl
  | cons f fields ih =>
    rw [List.foldlM_cons, List.foldlM_cons]
    refine congrArg₂ bind ?_ (funext fun t => ih t fun g hg => hlookup g (List.mem_cons_of_mem _ hg))
    rw [hlookup f List.mem_cons_self, RecordField.readLeft]
    split_ifs <;> rfl

/-- A field of a record is where a deletion meets it. -/
theorem meets_writeRecord {d : Deletion} {s : σ} (h : d.Meets (writeRecord fields s)) :
    ∃ f ∈ fields, d.takes [.field f.key] ∨ (d.below (.field f.key)).Meets (f.write s) := by
  obtain ⟨step, w, hchild, hd⟩ := Deletion.meets_iff.1 h
  cases step with
  | field key =>
    obtain ⟨f, hf, hpair⟩ := List.mem_map.1 (mem_of_lookup hchild)
    obtain ⟨rfl, rfl⟩ := Prod.mk.injEq .. ▸ hpair
    exact ⟨f, hf, hd⟩
  | element i => exact absurd hchild (Option.some_ne_none w).symm

theorem foldlM_eq_none {α : Type} {step : σ → α → Option σ} {l : List α} {a : α} (ha : a ∈ l)
    (h : ∀ t, step t a = none) (t : σ) : l.foldlM step t = none := by
  induction l generalizing t with
  | nil => simp at ha
  | cons b l ih =>
    rw [List.foldlM_cons]
    rcases List.mem_cons.1 ha with rfl | ha
    · rw [h]
      rfl
    · exact Option.bind_eq_none_iff.2 fun t' _ => ih ha t'

end Records

end Json
end FixedFunction
