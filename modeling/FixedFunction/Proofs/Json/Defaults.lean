import FixedFunction.Proofs.Binary.Widening
import FixedFunction.Proofs.Json.Records

/-!
# Values whose fields have defaults

**Input.**  A value that was written, and a deletion of fields.

**Invariant.**  While a record is read, the fields from the current one on are those of the record
with all defaults.

**Results.**
* `Restore`: the value that is expected, and whether all its numbers are finite.
* `Lenient`: the types for which this value is read, if its numbers are finite.
* `Json.Rebuilds.read?_without`: records whose fields have defaults.
-/

namespace FixedFunction
namespace Json

/-- The types whose values may lose fields before they are read. -/
class Restore (α : Type) where
  /-- The value in which fields that were taken out have the defaults of their records. -/
  restore : Deletion → α → α
  /-- Whether all numbers of a value are finite. -/
  finite : α → Bool

export Restore (restore finite)

/-- What is read for a field with the given default and value. -/
def Deletion.left {τ : Type} [Restore τ] (d : Deletion) (key : String) (default value : τ) : τ :=
  if d.takes [.field key] then default else restore (d.below (.field key)) value

/-- The types whose values are read also after fields were taken out, if all numbers that are left
are finite. -/
class Lenient (α : Type) [Codec α] [Restore α] : Prop where
  restore_nothing (a : α) : restore .nothing a = a
  finite_restore (d : Deletion) {a : α} (h : finite a) : finite (restore d a)
  read?_without {d : Deletion} (hd : d.FieldsOnly) (a : α) :
    (read? ((Codec.write a).without d) : Option α) =
      if finite (restore d a) then some (restore d a) else none

section Lenient

variable {α : Type} [Codec α]

instance [ScalarCodec α] : Restore α where
  restore _ a := a
  finite _ := true

instance [ScalarCodec α] : Lenient α where
  restore_nothing _ := rfl
  finite_restore _ _ h := h
  read?_without {d} _ a := by
    rw [without_of_isScalar (ScalarCodec.isScalar_write a), ScalarCodec.read?_write]
    rfl

instance : Restore Float32 where
  restore _ x := x
  finite := Float32.isFinite

/-- The numbers that are read back are the finite ones. -/
theorem read?_write_iff_isFinite {x : Float32} : read? (Codec.write x) = some x ↔ x.isFinite := by
  change read? (if x.isFinite then float (Binary.widen x) else null) = some x ↔ x.isFinite
  split
  case isTrue h => exact iff_of_true (congrArg some (Binary.narrow_widen h)) h
  case isFalse h => exact iff_of_false (Option.some_ne_none x).symm h

instance : Lenient Float32 where
  restore_nothing _ := rfl
  finite_restore _ _ h := h
  read?_without {d} _ x := by
    change (read? ((if x.isFinite then float (Binary.widen x) else null).without d)
      : Option Float32) = if x.isFinite then some x else none
    split
    case isTrue h => exact congrArg some (Binary.narrow_widen h)
    case isFalse => rfl

variable [Restore α]

instance : Restore (List α) where
  restore d xs := xs.mapIdx fun i x => restore (d.below (.element i)) x
  finite xs := xs.all finite

instance {n : Nat} : Restore (Vector α n) where
  restore d xs := xs.mapIdx fun i x => restore (d.below (.element i)) x
  finite xs := xs.toList.all finite

omit [Codec α] in
theorem toList_restore {n : Nat} (d : Deletion) (xs : Vector α n) :
    (restore d xs).toList = restore d xs.toList :=
  Vector.toList_mapIdx ..

variable [Lenient α]

theorem mapM_mapIdx_restore (d : Nat → Deletion) (hd : ∀ i, (d i).FieldsOnly) (xs : List α) :
    ((xs.map Codec.write).mapIdx fun i v => v.without (d i)).mapM read? =
      if (xs.mapIdx fun i x => restore (d i) x).all finite then
        some (xs.mapIdx fun i x => restore (d i) x)
      else none := by
  induction xs generalizing d with
  | nil => rfl
  | cons x xs ih =>
    rw [List.map_cons, List.mapIdx_cons, List.mapM_cons, ih (fun i => d (i + 1)) fun i => hd (i + 1),
      Lenient.read?_without (hd 0), List.mapIdx_cons, List.all_cons]
    cases finite (restore (d 0) x) with
    | false => rfl
    | true => cases (xs.mapIdx fun i x => restore (d (i + 1)) x).all finite <;> rfl

theorem mapIdx_restore_nothing (xs : List α) :
    (xs.mapIdx fun _ x => restore .nothing x) = xs := by
  simp [Lenient.restore_nothing, List.mapIdx_eq_iff]

instance : Lenient (List α) where
  restore_nothing xs := mapIdx_restore_nothing xs
  finite_restore d xs h := by
    refine List.all_eq_true.2 fun y hy => ?_
    obtain ⟨i, hi, rfl⟩ := List.mem_mapIdx.1 hy
    exact Lenient.finite_restore _ (List.all_eq_true.1 h _ (List.getElem_mem hi))
  read?_without {d} hd xs := by
    change (withoutElements d 0 (xs.map Codec.write)).mapM read? = _
    rw [withoutElements_of_kept fun i _ => hd [] (0 + i)]
    simp only [Nat.zero_add]
    exact mapM_mapIdx_restore (fun i => d.below (.element i)) (fun i => hd.below _) xs

instance {n : Nat} : Lenient (Vector α n) where
  restore_nothing xs := by
    rw [← Vector.toList_inj, toList_restore, Lenient.restore_nothing]
  finite_restore d xs h := by
    change finite (restore d xs).toList
    rw [toList_restore]
    exact Lenient.finite_restore d (a := xs.toList) h
  read?_without {d} hd xs := by
    have hlist := Lenient.read?_without hd xs.toList
    rw [← toList_restore] at hlist
    change _ = if finite (restore d xs).toList then _ else none
    cases hfinite : finite (restore d xs).toList with
    | true => exact read?_vector_iff.2 (hlist.trans (if_pos hfinite))
    | false =>
      refine Option.eq_none_iff_forall_ne_some.2 fun ys hys => ?_
      have hnone := (read?_vector_iff.1 hys).symm.trans (hlist.trans (if_neg (by simp [hfinite])))
      exact absurd hnone (Option.some_ne_none _)

theorem Lenient.read?_write {a : α} (h : finite a) : read? (Codec.write a) = some a := by
  have hread := Lenient.read?_without Deletion.FieldsOnly.nothing a
  rwa [without_nothing, Lenient.restore_nothing, if_pos h] at hread

end Lenient

/-! ### Records whose fields have defaults -/

/-- Reading some fields of a record that lost fields, over the record `start` with all defaults,
takes the record `t` to `t'`.  It succeeds if `b` is true. -/
inductive Rebuilds {σ : Type} (d : Deletion) (start s : σ) :
    List (RecordField σ) → σ → σ → Bool → Prop
  | nil {t : σ} : Rebuilds d start s [] t t true
  | field {τ : Type} [Codec τ] [Restore τ] [Lenient τ] {key : String} {get : σ → τ}
      {set : σ → τ → σ} {fields : List (RecordField σ)} {t t' : σ} {b : Bool}
      (rest : Rebuilds d start s fields (set t (d.left key (get start) (get s))) t' b)
      (unread : get t = get start := by rfl) (set_get : set t (get t) = t := by rfl)
      (finite_start : finite (get start) = true := by rfl) :
      Rebuilds d start s (Json.field key get set :: fields) t t'
        (finite (d.left key (get start) (get s)) && b)

section Rebuilds

variable {σ : Type} {d : Deletion} {start s t t' : σ} {fields : List (RecordField σ)} {b : Bool}

theorem readLeft_field {τ : Type} [Codec τ] [Restore τ] [Lenient τ] {key : String} {get : σ → τ}
    {set : σ → τ → σ} (hd : d.FieldsOnly) (hset : set t (get t) = t)
    (hfinite : finite (get t) = true) :
    (Json.field key get set).readLeft false d s t =
      if finite (d.left key (get t) (get s)) then some (set t (d.left key (get t) (get s)))
      else none := by
  change (if d.takes [.field key] then some t
    else (read? ((Codec.write (get s)).without (d.below (.field key)))).map (set t)) = _
  rw [Deletion.left, Lenient.read?_without (hd.below _)]
  cases d.takes [.field key] with
  | true => rw [if_pos rfl, if_pos rfl, if_pos hfinite, hset]
  | false =>
    simp only [Bool.false_eq_true, if_false]
    split <;> rfl

theorem Rebuilds.foldlM_eq (hd : d.FieldsOnly) (h : Rebuilds d start s fields t t' b) :
    fields.foldlM (fun t f => f.readLeft false d s t) t = if b then some t' else none := by
  induction h with
  | nil => rfl
  | @field τ _ _ _ key get set fields t t' b rest unread set_get finite_start ih =>
    rw [List.foldlM_cons, readLeft_field hd set_get (unread ▸ finite_start), unread]
    cases finite (d.left key (get start) (get s)) with
    | false => rfl
    | true => exact ih

theorem Rebuilds.read?_without [Restore σ] (hd : d.FieldsOnly)
    (hkeys : (fields.map RecordField.key).Nodup)
    (h : Rebuilds d start s fields start (restore d s) b) (hb : finite (restore d s) = b) :
    readRecord? false fields start ((writeRecord fields s).without d) =
      if finite (restore d s) then some (restore d s) else none := by
  rw [readRecord?_without hkeys, h.foldlM_eq hd, hb]

end Rebuilds

section Left

variable {τ : Type} [Codec τ] [Restore τ] [Lenient τ] {default value : τ}

theorem Deletion.left_nothing (key : String) : Deletion.nothing.left key default value = value :=
  Lenient.restore_nothing value

theorem Deletion.finite_left (d : Deletion) (key : String) (hdefault : finite default)
    (hvalue : finite value) : finite (d.left key default value) := by
  rw [Deletion.left]
  split
  case isTrue => exact hdefault
  case isFalse => exact Lenient.finite_restore _ hvalue

end Left

end Json
end FixedFunction
