import FixedFunction.Json.Basic
import Mathlib.Data.List.Basic

/-!
# Deleting parts of a value

A JSON value has parts: the fields of objects and the elements of arrays, at any depth.  A deletion
takes some of them out, each with everything below it.

**Results.**
* `Json.without`: the value that is left.
* `Json.lookup_withoutFields`: what is left under a key.
* `Deletion.meets_iff`: a deletion takes something out of a value at its first step or below it.
-/

namespace FixedFunction
namespace Json

/-- One step down in a value. -/
inductive Step where
  /-- To the field with a key. -/
  | field (key : String)
  /-- To the element at a place. -/
  | element (place : Nat)
deriving DecidableEq

/-- The way from a value down to one of its parts. -/
abbrev Path := List Step

/-- The parts to be taken out of a value. -/
structure Deletion where
  /-- Whether the part at the end of a path is taken out. -/
  takes : Path → Bool

namespace Deletion

/-- Nothing is taken out. -/
def nothing : Deletion := ⟨fun _ => false⟩

/-- What is taken out of the part that is one step down. -/
def below (d : Deletion) (s : Step) : Deletion := ⟨fun p => d.takes (s :: p)⟩

/-- The parts at the ends of some paths are taken out. -/
def of (paths : List Path) : Deletion := ⟨fun p => paths.contains p⟩

/-- No element of an array is taken out. -/
def FieldsOnly (d : Deletion) : Prop :=
  ∀ p i, d.takes (p ++ [.element i]) = false

theorem FieldsOnly.below {d : Deletion} (h : d.FieldsOnly) (s : Step) : (d.below s).FieldsOnly :=
  fun p i => h (s :: p) i

theorem FieldsOnly.nothing : nothing.FieldsOnly :=
  fun _ _ => rfl

theorem FieldsOnly.of {paths : List Path} (h : ∀ p ∈ paths, ∃ key, p.getLast? = some (.field key)) :
    (Deletion.of paths).FieldsOnly := by
  intro p i
  refine Bool.eq_false_iff.2 fun htakes => ?_
  obtain ⟨key, hkey⟩ := h _ (List.contains_iff_mem.1 htakes)
  simp at hkey

@[simp]
theorem takes_nothing (p : Path) : nothing.takes p = false :=
  rfl

@[simp]
theorem below_nothing (s : Step) : nothing.below s = nothing :=
  rfl

end Deletion

mutual

/-- The value that is left. -/
def without (d : Deletion) : Json → Json
  | arr vs => arr (withoutElements d 0 vs)
  | obj fields => obj (withoutFields d fields)
  | v => v

/-- The elements that are left of those from place `i` on. -/
def withoutElements (d : Deletion) (i : Nat) : List Json → List Json
  | [] => []
  | v :: vs =>
    if d.takes [.element i] then withoutElements d (i + 1) vs
    else without (d.below (.element i)) v :: withoutElements d (i + 1) vs

/-- The fields that are left. -/
def withoutFields (d : Deletion) : List (String × Json) → List (String × Json)
  | [] => []
  | (k, v) :: fields =>
    if d.takes [.field k] then withoutFields d fields
    else (k, without (d.below (.field k)) v) :: withoutFields d fields

end

/-- The part one step down. -/
def child? : Json → Step → Option Json
  | obj fields, .field key => lookup key fields
  | arr vs, .element i => vs[i]?
  | _, _ => none

/-- The part at the end of a path. -/
def at? (v : Json) (p : Path) : Option Json :=
  p.foldlM child? v

/-- Whether a value has no parts. -/
def isScalar : Json → Bool
  | arr _ | obj _ => false
  | _ => true

/-- A deletion takes something out of a value. -/
def Deletion.Meets (d : Deletion) (v : Json) : Prop :=
  ∃ p, p ≠ [] ∧ d.takes p ∧ (v.at? p).isSome

/-! ### Fields -/

section Fields

variable {key k : String} {v : Json} {fields : List (String × Json)}

@[simp]
theorem lookup_nil : lookup key [] = none :=
  rfl

theorem lookup_cons :
    lookup key ((k, v) :: fields) = (lookup key fields).or (if k = key then some v else none) := by
  suffices h : ∀ found, fields.foldl (fun found f => if f.1 = key then some f.2 else found) found =
      (lookup key fields).or found from h _
  unfold lookup
  induction fields with
  | nil => simp
  | cons f fields ih =>
    intro found
    rw [List.foldl_cons, List.foldl_cons, ih, ih (if f.1 = key then some f.2 else none)]
    split <;> simp

theorem mem_of_lookup (h : lookup key fields = some v) : (key, v) ∈ fields := by
  induction fields with
  | nil => simp at h
  | cons f fields ih =>
    obtain ⟨k, w⟩ := f
    rw [lookup_cons, Option.or_eq_some_iff, Option.ite_none_right_eq_some, Option.some.injEq] at h
    rcases h with h | ⟨-, rfl, rfl⟩
    · exact List.mem_cons_of_mem _ (ih h)
    · exact List.mem_cons_self

/-- Where no key is repeated, every field is found under its key. -/
theorem lookup_of_mem (hkeys : (fields.map Prod.fst).Nodup) (h : (key, v) ∈ fields) :
    lookup key fields = some v := by
  induction fields with
  | nil => simp at h
  | cons f fields ih =>
    rw [List.map_cons, List.nodup_cons] at hkeys
    rw [lookup_cons]
    rcases List.mem_cons.1 h with rfl | h
    · have hnone : lookup key fields = none :=
        Option.eq_none_iff_forall_ne_some.2 fun w hw =>
          hkeys.1 (List.mem_map.2 ⟨(key, w), mem_of_lookup hw, rfl⟩)
      simp [hnone]
    · rw [ih hkeys.2 h, Option.some_or]

/-- What is left under a key. -/
theorem lookup_withoutFields (d : Deletion) :
    lookup key (withoutFields d fields) =
      if d.takes [.field key] then none
      else (lookup key fields).map (without (d.below (.field key))) := by
  induction fields with
  | nil => simp [withoutFields]
  | cons f fields ih =>
    obtain ⟨k, v⟩ := f
    rw [withoutFields, lookup_cons]
    by_cases hk : k = key
    · subst hk
      split <;> simp_all [lookup_cons]
    · split <;> simp_all [lookup_cons]

end Fields

/-! ### Elements -/

section Elements

variable {d : Deletion} {i : Nat} {vs : List Json}

theorem withoutElements_of_kept (h : ∀ j < vs.length, d.takes [.element (i + j)] = false) :
    withoutElements d i vs = vs.mapIdx fun j v => v.without (d.below (.element (i + j))) := by
  induction vs generalizing i with
  | nil => rfl
  | cons v vs ih =>
    have hkept : d.takes [.element i] = false := h 0 (Nat.succ_pos _)
    have hrest : ∀ j < vs.length, d.takes [.element (i + 1 + j)] = false := fun j hj => by
      rw [Nat.add_assoc, Nat.add_comm 1]
      exact h (j + 1) (Nat.succ_lt_succ hj)
    rw [withoutElements, hkept, if_neg Bool.false_ne_true, ih hrest, List.mapIdx_cons]
    simp only [Nat.add_zero, Nat.add_assoc, Nat.add_comm 1]

theorem length_withoutElements_le : (withoutElements d i vs).length ≤ vs.length := by
  induction vs generalizing i with
  | nil => exact Nat.le_refl _
  | cons v vs ih =>
    rw [withoutElements]
    split
    case isTrue => exact Nat.le_succ_of_le ih
    case isFalse => exact Nat.succ_le_succ ih

theorem length_withoutElements_lt {j : Nat} (hj : j < vs.length) (h : d.takes [.element (i + j)]) :
    (withoutElements d i vs).length < vs.length := by
  induction vs generalizing i j with
  | nil => exact absurd hj (Nat.not_lt_zero j)
  | cons v vs ih =>
    rw [withoutElements]
    cases j with
    | zero =>
      rw [Nat.add_zero] at h
      rw [if_pos h]
      exact Nat.lt_succ_of_le length_withoutElements_le
    | succ j =>
      have hlt : (withoutElements d (i + 1) vs).length < vs.length :=
        ih (Nat.lt_of_succ_lt_succ hj) (by rwa [Nat.add_assoc, Nat.add_comm 1])
      split
      case isTrue => exact Nat.lt_succ_of_lt hlt
      case isFalse => exact Nat.succ_lt_succ hlt

end Elements

/-! ### Parts -/

section Parts

variable {v : Json}

theorem at?_cons (s : Step) (p : Path) : v.at? (s :: p) = (v.child? s).bind (at? · p) :=
  rfl

theorem without_of_isScalar (h : v.isScalar) (d : Deletion) : v.without d = v := by
  cases v <;> simp_all [isScalar, without]

theorem child?_of_isScalar (h : v.isScalar) (s : Step) : v.child? s = none := by
  cases v <;> simp_all [isScalar, child?]

mutual

@[simp]
theorem without_nothing : ∀ v : Json, v.without .nothing = v
  | arr vs => by rw [without, withoutElements_nothing]
  | obj fields => by rw [without, withoutFields_nothing]
  | null | bool _ | int _ | float _ | str _ => rfl

theorem withoutElements_nothing (i : Nat) : ∀ vs, withoutElements .nothing i vs = vs
  | [] => rfl
  | v :: vs => by
    rw [withoutElements, Deletion.below_nothing, without_nothing v, withoutElements_nothing _ vs]
    rfl

theorem withoutFields_nothing : ∀ fields, withoutFields .nothing fields = fields
  | [] => rfl
  | (k, v) :: fields => by
    rw [withoutFields, Deletion.below_nothing, without_nothing v, withoutFields_nothing fields]
    rfl

end

end Parts

namespace Deletion

variable {d : Deletion} {v : Json}

/-- A deletion takes something out of a value at its first step or below it. -/
theorem meets_iff : d.Meets v ↔ ∃ s w, v.child? s = some w ∧ (d.takes [s] ∨ (d.below s).Meets w) := by
  constructor
  · rintro ⟨p, hne, hd, hsome⟩
    obtain ⟨s, p, rfl⟩ := List.exists_cons_of_ne_nil hne
    rw [at?_cons, Option.isSome_bind, Option.any_eq_true] at hsome
    obtain ⟨w, hw, hsome⟩ := hsome
    refine ⟨s, w, hw, ?_⟩
    rcases p with _ | ⟨s', p⟩
    · exact .inl hd
    · exact .inr ⟨s' :: p, List.cons_ne_nil _ _, hd, hsome⟩
  · rintro ⟨s, w, hw, hd | ⟨p, -, hd, hsome⟩⟩
    · exact ⟨[s], List.cons_ne_nil _ _, hd, by simp [hw, at?]⟩
    · exact ⟨s :: p, List.cons_ne_nil _ _, hd, by simpa [at?_cons, hw] using hsome⟩

theorem not_meets_of_isScalar (h : v.isScalar) : ¬d.Meets v := by
  rw [meets_iff]
  rintro ⟨s, w, hw, -⟩
  rw [child?_of_isScalar h] at hw
  exact absurd hw (Option.some_ne_none w).symm

end Deletion

end Json
end FixedFunction
