import FixedFunction.Proofs.Json.Records

/-!
# Values all of whose parts are required

**Input.**  A value that was written, and a deletion.

**Results.**
* `Strict`: the types whose values are read back, but not after any part was taken out.
* `Json.Fills.read?_write`, `Json.Fills.read?_without`: records all of whose fields are required.
-/

namespace FixedFunction
namespace Json

/-- The types whose values cannot be read after a part was taken out. -/
class Strict (α : Type) [Codec α] : Prop where
  read?_write (a : α) : read? (Codec.write a) = some a
  read?_without {d : Deletion} {a : α} (h : d.Meets (Codec.write a)) :
    (read? ((Codec.write a).without d) : Option α) = none

section Strict

variable {α : Type} [Codec α]

instance [ScalarCodec α] : Strict α where
  read?_write := ScalarCodec.read?_write
  read?_without h := absurd h (Deletion.not_meets_of_isScalar (ScalarCodec.isScalar_write _))

theorem forall₂_read?_write [Strict α] (xs : List α) :
    List.Forall₂ (fun v x => read? v = some x) (xs.map Codec.write) xs := by
  rw [List.forall₂_map_left_iff, List.forall₂_same]
  exact fun x _ => Strict.read?_write x

instance {n : Nat} [Strict α] : Strict (Vector α n) where
  read?_write xs := read?_vector_iff.2 (mapM_eq_some_iff.2 (forall₂_read?_write xs.toList))
  read?_without {d xs} h := by
    refine Option.eq_none_iff_forall_ne_some.2 fun ys hys => ?_
    let vs := xs.toList.map Codec.write
    have hlist := mapM_eq_some_iff.1 (read?_vector_iff.1 hys :
      (withoutElements d 0 vs).mapM read? = some ys.toList)
    have hlength : (withoutElements d 0 vs).length = vs.length := by
      rw [hlist.length_eq]
      simp [vs]
    have hkept (i : Nat) (hi : i < vs.length) : d.takes [.element (0 + i)] = false :=
      Bool.eq_false_iff.2 fun htakes => Nat.ne_of_lt (length_withoutElements_lt hi htakes) hlength
    rw [withoutElements_of_kept hkept] at hlist
    obtain ⟨step, w, hchild, hd⟩ := Deletion.meets_iff.1 h
    cases step with
    | field key => exact absurd hchild (Option.some_ne_none w).symm
    | element i =>
      obtain ⟨hi, hget⟩ := List.getElem?_eq_some_iff.1 (show vs[i]? = some w from hchild)
      obtain ⟨x, -, rfl⟩ := List.mem_map.1 (hget ▸ List.getElem_mem hi)
      have hmeets : (d.below (.element i)).Meets (Codec.write x) := by
        refine hd.resolve_left fun htakes => Bool.false_ne_true ?_
        rw [← hkept i hi, Nat.zero_add, htakes]
      have hread := (List.forall₂_iff_get.1 hlist).2 i (by simpa using hi) (by simpa [vs] using hi)
      rw [List.get_eq_getElem, List.getElem_mapIdx, Nat.zero_add, hget,
        Strict.read?_without hmeets] at hread
      exact absurd hread (Option.some_ne_none _).symm

end Strict

/-! ### Records all of whose fields are required -/

/-- Reading some fields of a record takes the record `t` to `t'`. -/
inductive Fills {σ : Type} (s : σ) : List (RecordField σ) → σ → σ → Prop
  | nil {t : σ} : Fills s [] t t
  | field {τ : Type} [Codec τ] [Strict τ] {key : String} {get : σ → τ} {set : σ → τ → σ}
      {fields : List (RecordField σ)} {t t' : σ} (rest : Fills s fields (set t (get s)) t') :
      Fills s (Json.field key get set :: fields) t t'

namespace Fills

variable {σ : Type} {fields : List (RecordField σ)} {s t t' : σ}

theorem readLeft_eq_none (h : Fills s fields t t') {f : RecordField σ} (hf : f ∈ fields)
    {d : Deletion}
    (hd : d.takes [.field f.key] ∨ (d.below (.field f.key)).Meets (f.write s)) (u : σ) :
    f.readLeft true d s u = none := by
  induction h with
  | nil => simp at hf
  | field rest ih =>
    rcases List.mem_cons.1 hf with rfl | hf
    · rw [RecordField.readLeft]
      split
      case isTrue => rfl
      case isFalse htakes =>
        have hmeets := hd.resolve_left htakes
        exact congrArg (Option.map _) (Strict.read?_without hmeets)
    · exact ih hf

theorem foldlM_eq (h : Fills s fields t t') (required : Bool) :
    fields.foldlM (fun t f => f.readLeft required .nothing s t) t = some t' := by
  induction h with
  | nil => rfl
  | @field τ _ _ key get set fields t t' rest ih =>
    have hread : (Json.field key get set).readLeft required .nothing s t = some (set t (get s)) := by
      rw [RecordField.readLeft, Deletion.takes_nothing, if_neg Bool.false_ne_true,
        Deletion.below_nothing, without_nothing]
      exact congrArg (Option.map _) (Strict.read?_write _)
    rw [List.foldlM_cons, hread]
    exact ih

theorem read?_write (h : Fills s fields t t') (hkeys : (fields.map RecordField.key).Nodup) :
    readRecord? true fields t (writeRecord fields s) = some t' := by
  rw [← without_nothing (writeRecord fields s), readRecord?_without hkeys, h.foldlM_eq]

theorem read?_without (h : Fills s fields t t') (hkeys : (fields.map RecordField.key).Nodup)
    {d : Deletion} (hd : d.Meets (writeRecord fields s)) :
    readRecord? true fields t ((writeRecord fields s).without d) = none := by
  obtain ⟨f, hf, hd⟩ := meets_writeRecord hd
  rw [readRecord?_without hkeys]
  exact foldlM_eq_none hf (h.readLeft_eq_none hf hd) t

end Fills

end Json
end FixedFunction
