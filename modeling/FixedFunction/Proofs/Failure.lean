import FixedFunction.Error
import Mathlib.Control.Monad.Basic

/-!
# Computations that can fail

A computation in several steps succeeds exactly when every step does, and it fails with the first
step that fails.

**Results.**
* `bind_eq_ok`, `map_eq_ok`, `lift_eq_ok`, `checkWord_eq_ok`: what is known of the steps of a
  computation that succeeds.
* `mapM_eq_ok`, `mapM_of_ok`, `foldlM_push_eq_ok`: the same for one step taken along a list.
* `Follows`: a computation whose failure is predicted.
* `Follows.bind`: the first predicted failure counts.
-/

namespace FixedFunction

variable {α β ε : Type}

theorem bind_eq_ok {x : Except ε α} {f : α → Except ε β} {b : β} :
    (x >>= f) = .ok b ↔ ∃ a, x = .ok a ∧ f a = .ok b := by
  cases x <;> simp [bind, Except.bind]

theorem map_eq_ok {x : Except ε α} {f : α → β} {b : β} :
    x.map f = .ok b ↔ ∃ a, x = .ok a ∧ f a = b := by
  cases x <;> simp [Except.map]

@[simp]
theorem throw_eq (e : ε) : (throw e : Except ε α) = .error e := rfl

@[simp]
theorem ok_bind (a : α) (f : α → Except ε β) : (.ok a >>= f : Except ε β) = f a := rfl

@[simp]
theorem error_bind (e : ε) (f : α → Except ε β) : (.error e >>= f : Except ε β) = .error e := rfl

@[simp]
theorem lift_ok (a : α) : (liftM (.ok a : Except Error α) : Except Failure α) = .ok a := rfl

@[simp]
theorem lift_error (e : Error) :
    (liftM (.error e : Except Error α) : Except Failure α) = .error (.refused e) := rfl

theorem lift_eq_ok {x : Except Error α} {a : α} :
    (liftM x : Except Failure α) = .ok a ↔ x = .ok a := by
  cases x <;> simp

theorem checkWord_eq_ok {width n m : Nat} :
    checkWord width n = .ok m ↔ n < 1 <<< width ∧ m = n := by
  rw [checkWord]
  split
  case isTrue h =>
    rw [Except.ok.injEq]
    exact ⟨fun he => ⟨h, he.symm⟩, fun he => he.2.symm⟩
  case isFalse h =>
    exact ⟨fun he => by simp at he, fun he => absurd he.1 h⟩

theorem checkWord_of_lt {width n : Nat} (h : n < 1 <<< width) : checkWord width n = .ok n :=
  checkWord_eq_ok.mpr ⟨h, rfl⟩

theorem checkWord_of_le {width n : Nat} (h : 1 <<< width ≤ n) :
    checkWord width n = .error (.stopped .overflow) :=
  if_neg (Nat.not_lt.mpr h)

/-- Steps that succeed under a condition each, with a value that is known, taken for all elements of
a list. -/
theorem mapM_eq_ok {f : α → Except ε β} {p : α → Prop} {g : α → β}
    (hf : ∀ a b, f a = .ok b ↔ p a ∧ b = g a) {l : List α} {l' : List β} :
    l.mapM f = .ok l' ↔ (∀ a, a ∈ l → p a) ∧ l' = l.map g := by
  induction l generalizing l' with
  | nil => simp [pure, Except.pure, eq_comm]
  | cons a l ih =>
    rw [List.mapM_cons, bind_eq_ok, List.forall_mem_cons]
    constructor
    · rintro ⟨b, hb, h⟩
      obtain ⟨bs, hbs, h⟩ := bind_eq_ok.mp h
      obtain ⟨ha, rfl⟩ := (hf a b).mp hb
      obtain ⟨hl, rfl⟩ := ih.mp hbs
      obtain rfl : g a :: l.map g = l' := Except.ok.inj h
      exact ⟨⟨ha, hl⟩, rfl⟩
    · rintro ⟨⟨ha, hl⟩, rfl⟩
      refine ⟨g a, (hf a _).mpr ⟨ha, rfl⟩, ?_⟩
      rw [ih.mpr ⟨hl, rfl⟩]
      rfl

/-- Steps that succeed for all elements of a list. -/
theorem mapM_of_ok {f : α → Except ε β} {g : α → β} {l : List α}
    (h : ∀ a, a ∈ l → f a = .ok (g a)) : l.mapM f = .ok (l.map g) := by
  induction l with
  | nil => rfl
  | cons a l ih =>
    rw [List.forall_mem_cons] at h
    rw [List.mapM_cons, h.1, ok_bind, ih h.2]
    rfl

/-- The same for steps that extend an array. -/
theorem foldlM_push_eq_ok {f : α → Except ε β} {p : α → Prop} {g : α → β}
    (hf : ∀ a b, f a = .ok b ↔ p a ∧ b = g a) {l : List α} {out out' : Array β} :
    l.foldlM (fun out a => return out.push (← f a)) out = .ok out' ↔
      (∀ a, a ∈ l → p a) ∧ out' = out ++ l.map g := by
  induction l generalizing out with
  | nil => simp [pure, Except.pure, eq_comm]
  | cons a l ih =>
    rw [List.foldlM_cons, bind_eq_ok, List.forall_mem_cons]
    constructor
    · rintro ⟨out₁, h₁, h⟩
      obtain ⟨b, hb, h₁⟩ := bind_eq_ok.mp h₁
      obtain ⟨ha, rfl⟩ := (hf a b).mp hb
      obtain rfl : out.push (g a) = out₁ := Except.ok.inj h₁
      obtain ⟨hl, rfl⟩ := ih.mp h
      exact ⟨⟨ha, hl⟩, by simp⟩
    · rintro ⟨⟨ha, hl⟩, rfl⟩
      refine ⟨out.push (g a), ?_, ih.mpr ⟨hl, by simp⟩⟩
      rw [(hf a _).mpr ⟨ha, rfl⟩]
      rfl

/-- The computation fails with the predicted failure, or succeeds with a value that has the given
property if none is predicted. -/
def Follows (x : Except Failure α) (failure : Option Failure) (P : α → Prop) : Prop :=
  match failure with
  | some e => x = .error e
  | none => ∃ a, x = .ok a ∧ P a

namespace Follows

variable {x : Except Failure α} {d : Option Failure} {P : α → Prop} {Q : β → Prop}

theorem of_ok {a : α} (h : P a) : Follows (.ok a) none P :=
  ⟨a, rfl, h⟩

/-- Of two steps, the first predicted failure counts. -/
theorem bind {f : α → Except Failure β} {d' : Option Failure} (h : Follows x d P)
    (hf : ∀ a, P a → Follows (f a) d' Q) : Follows (x >>= f) (d.or d') Q := by
  cases d with
  | some e =>
    show x >>= f = .error e
    rw [show x = .error e from h]
    rfl
  | none =>
    obtain ⟨a, rfl, ha⟩ := h
    exact hf a ha

theorem of_eq_ok {a : α} (h : Follows x d P) (hx : x = .ok a) : P a := by
  subst hx
  cases d with
  | some e => simp [Follows] at h
  | none =>
    obtain ⟨b, hb, hP⟩ := h
    rwa [Except.ok.inj hb]

theorem exists_ok_iff (h : Follows x d P) : (∃ a, x = .ok a) ↔ d = none := by
  cases d with
  | some e => simp [show x = .error e from h]
  | none =>
    obtain ⟨a, ha, _⟩ := h
    simp [ha]

theorem eq_error_iff (h : Follows x d P) {e : Failure} : x = .error e ↔ d = some e := by
  cases d with
  | some e' => simp [show x = .error e' from h]
  | none =>
    obtain ⟨a, ha, _⟩ := h
    simp [ha]

end Follows
end FixedFunction
