import FixedFunction.Proofs.Failure

/-!
# Demands

A computation that refuses what it does not support is described by its demands, in the order in
which they are made.  It succeeds if its input meets all of them, and otherwise it fails with the
refusal of the first that is not met.

**Results.**
* `Answers`: a computation is described by a list of demands.
* `Answers.bind`: the demands of one step come before those of the next.
* `Answers.ok_iff`, `Answers.error_iff`: when a computation succeeds, and how it fails.
-/

namespace FixedFunction

/-- A condition on an input, with the refusal of an input that does not meet it. -/
structure Demand where
  /-- Whether the input meets the condition. -/
  met : Bool
  refusal : Error

/-- The first demand that is not met. -/
def firstUnmet (ds : List Demand) : Option Demand :=
  ds.find? fun d => !d.met

section FirstUnmet

variable {ds ds' : List Demand}

theorem firstUnmet_append : firstUnmet (ds ++ ds') = (firstUnmet ds).or (firstUnmet ds') :=
  List.find?_append

theorem firstUnmet_eq_none_iff : firstUnmet ds = none ↔ ∀ d ∈ ds, d.met := by
  simp [firstUnmet]

/-- The demands before the first that is not met are met. -/
theorem firstUnmet_eq_some_iff {d : Demand} :
    firstUnmet ds = some d ↔
      d.met = false ∧ ∃ before after, ds = before ++ d :: after ∧ ∀ d' ∈ before, d'.met := by
  simp [firstUnmet, List.find?_eq_some_iff_append]

end FirstUnmet

variable {α β : Type}

/-- The computation succeeds if all demands are met, and fails with the refusal of the first one
otherwise. -/
def Answers (x : Except Error α) (ds : List Demand) : Prop :=
  match firstUnmet ds with
  | none => ∃ a, x = .ok a
  | some d => x = .error d.refusal

namespace Answers

variable {x : Except Error α} {ds ds' : List Demand}

theorem of_ok (a : α) : Answers (.ok a) [] :=
  ⟨a, rfl⟩

/-- A single demand. -/
theorem single {met : Bool} {e : Error} (hmet : met = true → ∃ a, x = .ok a)
    (hunmet : met = false → x = .error e) : Answers x [⟨met, e⟩] := by
  cases met with
  | true => exact hmet rfl
  | false => exact hunmet rfl

/-- A demand that is met, in front of the others. -/
theorem cons_of_met {d : Demand} (h : Answers x ds) (hd : d.met = true) : Answers x (d :: ds) := by
  have hfirst : firstUnmet (d :: ds) = firstUnmet ds := by simp [firstUnmet, hd]
  rwa [Answers, hfirst]

/-- A refusal in front of the other steps. -/
theorem guard {p : Prop} [Decidable p] {met : Bool} {e : Error} {f : β → Except Error α}
    (hmet : met = true ↔ ¬p) (h : Answers x ds) :
    Answers (if p then throw e >>= f else x) (⟨met, e⟩ :: ds) := by
  by_cases hp : p
  · obtain rfl : met = false := by simpa [hp] using hmet
    rw [if_pos hp]
    rfl
  · obtain rfl : met = true := hmet.mpr hp
    rw [if_neg hp]
    exact h

theorem bind {f : α → Except Error β} (h : Answers x ds)
    (hf : ∀ a, x = .ok a → Answers (f a) ds') : Answers (x >>= f) (ds ++ ds') := by
  unfold Answers at h ⊢
  rw [firstUnmet_append]
  split at h
  case h_1 hds =>
    obtain ⟨a, rfl⟩ := h
    rw [hds]
    exact hf a rfl
  case h_2 d hds =>
    rw [hds, h]
    rfl

/-- A last step that does not fail. -/
theorem bind_ok {f : α → Except Error β} (h : Answers x ds) (hf : ∀ a, ∃ b, f a = .ok b) :
    Answers (x >>= f) ds := by
  rw [← List.append_nil ds]
  refine h.bind fun a _ => ?_
  obtain ⟨b, hb⟩ := hf a
  exact hb ▸ of_ok b

theorem map {f : α → β} (h : Answers x ds) : Answers (x.map f) ds := by
  have hmap : x.map f = x >>= fun a => .ok (f a) := by cases x <;> rfl
  exact hmap ▸ h.bind_ok fun a => ⟨f a, rfl⟩

theorem ok_iff (h : Answers x ds) : (∃ a, x = .ok a) ↔ ∀ d ∈ ds, d.met := by
  rw [← firstUnmet_eq_none_iff]
  unfold Answers at h
  split at h
  case h_1 hds => exact ⟨fun _ => hds, fun _ => h⟩
  case h_2 d hds => simp [hds, h]

theorem error_iff (h : Answers x ds) {e : Error} :
    x = .error e ↔ ∃ d, firstUnmet ds = some d ∧ d.refusal = e := by
  unfold Answers at h
  split at h
  case h_1 hds =>
    obtain ⟨a, rfl⟩ := h
    simp [hds]
  case h_2 d hds => simp [hds, h]

end Answers
end FixedFunction
