import FixedFunction.DisplayList.Scan

/-!
# The numbers of vertices

The vertices of several draw calls are numbered through: each call starts with the number that
follows the last vertex of the call before it.

**Results.**
* `DrawCall.numbered_append`: the numbering goes on from one list of calls to the next.
* `DrawCall.numbered_iff`: the first vertex of a call has as many vertices before it as the
  calls before it have.
* `DrawCall.numbered_map_shift`: calls that are numbered on.
-/

namespace FixedFunction
namespace DrawCall

@[simp]
theorem vertexTotal_nil : vertexTotal [] = 0 := rfl

@[simp]
theorem vertexTotal_cons (c : DrawCall) (calls : List DrawCall) :
    vertexTotal (c :: calls) = c.count + vertexTotal calls := rfl

@[simp]
theorem vertexTotal_append (calls calls' : List DrawCall) :
    vertexTotal (calls ++ calls') = vertexTotal calls + vertexTotal calls' := by
  induction calls with
  | nil => simp
  | cons c calls ih => simp [ih, Nat.add_assoc]

/-- The vertices of the calls are numbered through, from `first` on. -/
def Numbered (first : Nat) : List DrawCall → Prop
  | [] => True
  | c :: calls => c.first = first ∧ Numbered (first + c.count) calls

theorem numbered_append {first : Nat} {calls calls' : List DrawCall} :
    Numbered first (calls ++ calls') ↔
      Numbered first calls ∧ Numbered (first + vertexTotal calls) calls' := by
  induction calls generalizing first with
  | nil => simp [Numbered]
  | cons c calls ih => simp [Numbered, ih, Nat.add_assoc, and_assoc]

/-- The first vertex of a call has as many vertices before it as the calls before it have. -/
theorem numbered_iff {first : Nat} {calls : List DrawCall} :
    Numbered first calls ↔
      ∀ before c after, calls = before ++ c :: after → c.first = first + vertexTotal before := by
  constructor
  · rintro h before c after rfl
    exact (numbered_append.mp h).2.1
  · intro h
    induction calls generalizing first with
    | nil => trivial
    | cons c calls ih =>
      refine ⟨h [] c calls rfl, ih fun before d after hcalls => ?_⟩
      have := h (c :: before) d after (by rw [hcalls]; rfl)
      rw [vertexTotal_cons] at this
      omega

theorem Numbered.bounds {first : Nat} {calls : List DrawCall} (h : Numbered first calls) :
    ∀ c, c ∈ calls → first ≤ c.first ∧ c.first + c.count ≤ first + vertexTotal calls := by
  induction calls generalizing first with
  | nil => simp
  | cons d calls ih =>
    intro c hc
    have hd := h.1
    rw [vertexTotal_cons]
    rcases List.mem_cons.mp hc with rfl | hc
    · omega
    · have := ih h.2 c hc
      omega

/-- A draw call whose vertices are numbered on from `base`. -/
def shift (base : Nat) (c : DrawCall) : DrawCall :=
  { c with first := c.first + base }

@[simp]
theorem vertexTotal_map_shift (base : Nat) (calls : List DrawCall) :
    vertexTotal (calls.map (shift base)) = vertexTotal calls := by
  induction calls with
  | nil => rfl
  | cons c calls ih => simp [ih, shift]

theorem numbered_map_shift {base first : Nat} {calls : List DrawCall} :
    Numbered (first + base) (calls.map (shift base)) ↔ Numbered first calls := by
  induction calls generalizing first with
  | nil => simp [Numbered]
  | cons c calls ih =>
    simp [Numbered, shift, Nat.add_right_comm first base, ih]

end DrawCall
end FixedFunction
