import FixedFunction.Proofs.Shader.Combining
import FixedFunction.Proofs.Shader.Mentions

/-!
# Which fragments are dropped

An alpha test is written down four times: as the settings of a material, as an outcome that does not
depend on alpha, as the check of a program, and as the condition of a statement.  All of them keep
the same fragments, also where alpha is infinite or not a number.

**Algorithm.**  Comparisons stay what they are, and a test is left out only if neither comparison
looks at alpha.  The condition under which the statement drops a fragment is the negation of the
whole test, so that no comparison is negated by itself.

**Results.**
* `AlphaTest.passes_of_constant?`, `AlphaTest.passes_of_lower`: the outcome that is known, and the
  check of a program.
* `Shader.kept`: whether a fragment is kept by some statements.
* `Shader.kept_discardStmts`, `Shader.kept_fragmentBody`: the statements of a check, and a fragment
  shader.
* `Shader.discards_fragmentShader`: which fragment shaders can drop fragments.
* `Material.keeps_of_lower`: the alpha test of every material that is lowered.
-/

namespace FixedFunction

theorem Comparison.holds_of_constant? {c : Comparison} {b : Bool} (h : c.constant? = some b)
    (x y : Float32) : c.holds x y = b := by
  cases c with
  | never | always => exact Option.some.inj h
  | _ => simp [constant?] at h

namespace AlphaTest

variable {t : AlphaTest}

/-- An outcome that is known is the outcome for every alpha. -/
theorem passes_of_constant? {b : Bool} (h : t.constant? = some b) (alpha : Float32) :
    t.passes alpha = b := by
  obtain ⟨a, ha, h⟩ := Option.bind_eq_some_iff.mp h
  obtain ⟨b', hb, h⟩ := Option.bind_eq_some_iff.mp h
  rw [passes, Comparison.holds_of_constant? ha, Comparison.holds_of_constant? hb]
  exact Option.some.inj h

/-- What an alpha test is lowered to. -/
theorem lower_eq_ok {c : AlphaCheck} (h : t.lower = .ok c) :
    t.constant? = some true ∧ c = .keepAll ∨ t.constant? = some false ∧ c = .dropAll ∨
      t.constant? = none ∧
        c = .compare t.logic t.compareA t.referenceA t.compareB t.referenceB := by
  rw [lower] at h
  cases ht : t.constant? with
  | some b =>
    rw [ht] at h
    cases b with
    | false => exact .inr (.inl ⟨rfl, (Except.ok.inj h).symm⟩)
    | true => exact .inl ⟨rfl, (Except.ok.inj h).symm⟩
  | none =>
    rw [ht] at h
    dsimp only at h
    split at h
    case isTrue => exact .inr (.inr ⟨rfl, (Except.ok.inj h).symm⟩)
    case isFalse => simp at h

theorem passes_of_lower {c : AlphaCheck} (h : t.lower = .ok c) (alpha : Float32) :
    c.passes alpha = t.passes alpha := by
  rcases lower_eq_ok h with ⟨ht, rfl⟩ | ⟨ht, rfl⟩ | ⟨_, rfl⟩
  · exact (passes_of_constant? ht alpha).symm
  · exact (passes_of_constant? ht alpha).symm
  · rfl

theorem ne_keepAll_of_lower {c : AlphaCheck} (h : t.lower = .ok c) :
    c ≠ .keepAll ↔ t.constant? ≠ some true := by
  rcases lower_eq_ok h with ⟨ht, rfl⟩ | ⟨ht, rfl⟩ | ⟨ht, rfl⟩ <;> simp [ht]

end AlphaTest

namespace Shader

open Shader.Expr

/-! ### Statements that drop fragments -/

section Kept

variable {σ : Type} (A : Arithmetic σ)

/-- Whether a fragment goes on behind a statement. -/
def Stmt.keeps (e : Env σ) : Stmt → Bool
  | discardIf x => !(x.eval A e).truth
  | bind _ _ | declare _ _ | assign _ _ | addAssign _ _ | .return _ | remark _ => true

/-- Whether a fragment is kept by some statements. -/
def kept : Env σ → List Stmt → Bool
  | _, [] => true
  | e, s :: body => s.keeps A e && kept (s.exec A e) body

variable {A} {e : Env σ}

theorem kept_append (body rest : List Stmt) :
    kept A e (body ++ rest) = (kept A e body && kept A (run A e body) rest) := by
  induction body generalizing e with
  | nil => rfl
  | cons s body ih =>
    rw [List.cons_append, kept, kept, ih, Bool.and_assoc]
    rfl

theorem kept_of_not_isDiscard {body : List Stmt} (h : body.all fun s => !s.isDiscard) :
    kept A e body = true := by
  induction body generalizing e with
  | nil => rfl
  | cons s body ih =>
    rw [List.all_cons, Bool.and_eq_true] at h
    rw [kept, ih h.2, Bool.and_true]
    cases s with
    | discardIf x => simp [Stmt.isDiscard] at h
    | _ => rfl

end Kept

/-! ### The condition of a check -/

/-- Literals are the numbers themselves, and numbers compare as those of single precision do. -/
structure Arithmetic.Ieee (A : Arithmetic Float32) : Prop where
  lit_eq : ∀ x, A.lit x = x
  lt_eq : ∀ x y, A.compare .lt x y = decide (x < y)
  le_eq : ∀ x y, A.compare .le x y = decide (x ≤ y)
  gt_eq : ∀ x y, A.compare .gt x y = decide (y < x)
  ge_eq : ∀ x y, A.compare .ge x y = decide (y ≤ x)
  eq_eq : ∀ x y, A.compare .eq x y = (x == y)
  ne_eq : ∀ x y, A.compare .ne x y = (x != y)

section Check

variable {A : Arithmetic Float32} (hA : A.Ieee) {e : Env Float32} {v : Vec4 Float32}
  (hv : e (.register .prev) = .vector v.list)
include hA hv

theorem eval_comparison (c : Comparison) (x : Float32) :
    (comparison c x).eval A e = .bool (c.holds v.a x) := by
  have halpha : finalAlpha.eval A e = .vector [v.a] := by
    rw [finalAlpha, eval, eval, hv]
    rfl
  have htest (op : Operator) (hop : A.operate op = A.compared op) :
      (paren (binary op finalAlpha (lit x))).eval A e = .bool (A.compare op v.a x) := by
    rw [eval_paren, eval, hop, halpha, eval, hA.lit_eq]
    rfl
  cases c with
  | never | always => rfl
  | less => exact (htest .lt rfl).trans (congrArg _ (hA.lt_eq _ _))
  | equal => exact (htest .eq rfl).trans (congrArg _ (hA.eq_eq _ _))
  | lessEqual => exact (htest .le rfl).trans (congrArg _ (hA.le_eq _ _))
  | greater => exact (htest .gt rfl).trans (congrArg _ (hA.gt_eq _ _))
  | notEqual => exact (htest .ne rfl).trans (congrArg _ (hA.ne_eq _ _))
  | greaterEqual => exact (htest .ge rfl).trans (congrArg _ (hA.ge_eq _ _))

/-- The statements of a check keep the fragments that the check keeps. -/
theorem kept_discardStmts (c : AlphaCheck) : kept A e (discardStmts c) = c.passes v.a := by
  cases c with
  | keepAll => rfl
  | dropAll => rfl
  | compare logic a x b y =>
    have hjoin : (binary (logicOperator logic) (comparison a x) (comparison b y)).eval A e =
        .bool (logic.join (a.holds v.a x) (b.holds v.a y)) := by
      rw [eval, eval_comparison hA hv, eval_comparison hA hv]
      cases logic <;> rfl
    have hnot : (not (paren (binary (logicOperator logic) (comparison a x)
        (comparison b y)))).eval A e =
        .bool (!logic.join (a.holds v.a x) (b.holds v.a y)) := by
      rw [eval, eval_paren, hjoin]
      rfl
    rw [discardStmts, kept, kept, Bool.and_true, Stmt.keeps, hnot]
    exact Bool.not_not _

end Check

/-! ### Fragment shaders -/

theorem not_isDiscard_stageStmts (k : Nat) (s : Stage) :
    (stageStmts k s).all fun x => !x.isDiscard := by
  have hsample : (sampleStmts k s).all fun x => !x.isDiscard := by
    unfold sampleStmts
    split
    case h_1 =>
      unfold coordStmts
      split_ifs <;> rfl
    case h_2 => rfl
  simp only [stageStmts, List.all_append, List.all_cons, hsample]
  rfl

/-- The statements before those of the check drop no fragments. -/
theorem not_isDiscard_stages (p : Program) :
    (openingStmts p ++ (p.stages.mapIdx stageStmts).flatten).all fun s => !s.isDiscard := by
  have hbody : (fragmentBody { p with alphaCheck := .keepAll }).all fun s => !s.isDiscard :=
    all_fragmentBody _ rfl (fun _ _ _ => rfl) (fun i s _ => not_isDiscard_stageStmts i s) rfl
  rw [fragmentBody, List.all_append, List.all_append, Bool.and_eq_true, Bool.and_eq_true] at hbody
  exact hbody.1.1

theorem any_isDiscard_discardStmts (c : AlphaCheck) :
    (discardStmts c).any Stmt.isDiscard = decide (c ≠ .keepAll) := by
  cases c <;> rfl

theorem any_isDiscard_fragmentBody (p : Program) :
    (fragmentBody p).any Stmt.isDiscard = p.canDiscard := by
  have hstages := not_isDiscard_stages p
  rw [← List.not_any_eq_all_not, Bool.not_eq_true'] at hstages
  rw [fragmentBody, List.any_append, List.any_append, hstages, any_isDiscard_discardStmts]
  simp [Stmt.isDiscard, Program.canDiscard]

/-- A fragment shader can drop fragments exactly if its program can. -/
theorem discards_fragmentShader (p : Program) : (fragmentShader p).discards = p.canDiscard := by
  have hhelpers : (Source.functions products ++ Source.functions overflowDecls).any
      (fun f => f.body.any Stmt.isDiscard) = false := by decide
  rw [Source.discards, functions_fragmentShader, List.any_append, hhelpers, Bool.false_or,
    List.any_cons, any_isDiscard_fragmentBody, List.any_nil, Bool.or_false]

/-- A fragment shader keeps the fragments for which the check holds of the alpha of the first
register after all stages. -/
theorem kept_fragmentBody {A : Arithmetic Float32} (hA : A.Ieee) (F : Frame Float32) {p : Program}
    (hp : p.Resolved) :
    kept A (env F) (fragmentBody p) =
      p.alphaCheck.passes ((p.combine A F).registers .prev).a := by
  have h := run_stages (run_openingStmts (A := A) (F := F) (p := p)) hp.stage
  rw [← run_stmts_append] at h
  rw [fragmentBody, kept_append, kept_append, kept_of_not_isDiscard (not_isDiscard_stages p),
    kept_discardStmts hA (h.register .prev), kept_of_not_isDiscard rfl, Bool.and_true]
  rfl

end Shader

open Shader

/-- The alpha test of a material that is lowered keeps the same fragments everywhere: in the check
of the program, in the statements of the check, and in the whole fragment shader as its text is
read, which tests the alpha of the first register that it returns.  If the outcome is known, then it
is the outcome for every alpha, and the text of the shader says `discard` exactly if it is not known
that all fragments are kept. -/
theorem Material.keeps_of_lower {o : Omissions} {m : Material} {p : Program}
    (h : m.lower o = .ok p) :
    (∀ alpha, p.alphaCheck.passes alpha = m.alphaTest.passes alpha) ∧
    entryBody? .fragment (fragmentShader p).text = some (fragmentBody p) ∧
    (∀ A : Arithmetic Float32, A.Ieee →
      (∀ (e : Env Float32) (v : Vec4 Float32), e (.register .prev) = .vector v.list →
        kept A e (discardStmts p.alphaCheck) = m.alphaTest.passes v.a) ∧
      ∀ F, ∃ v : Vec4 Float32, run A (env F) (fragmentBody p) (.register .prev) = .vector v.list ∧
        kept A (env F) (fragmentBody p) = m.alphaTest.passes v.a) ∧
    (∀ b, m.alphaTest.constant? = some b → ∀ alpha, m.alphaTest.passes alpha = b) ∧
    (Mentions (fragmentShader p).text ↔ p.canDiscard) ∧
    (p.canDiscard ↔ m.alphaTest.constant? ≠ some true) := by
  obtain ⟨_, _, check, _, _, hcheck, hp⟩ := lower_eq_ok h
  have hcheck : m.alphaTest.lower = .ok p.alphaCheck := by rw [hcheck, hp]; rfl
  have hpasses := AlphaTest.passes_of_lower hcheck
  have hresolved := resolved_of_lower h
  refine ⟨hpasses, entryBody?_fragmentShader (finite_of_lower h),
    fun A hA => ⟨fun e v hv => ?_, fun F => ?_⟩, fun b hb => ?_, ?_, ?_⟩
  · rw [kept_discardStmts hA hv, hpasses]
  · refine ⟨_, (run_fragmentBody hresolved).2 .prev, ?_⟩
    rw [kept_fragmentBody hA F hresolved, hpasses]
  · exact AlphaTest.passes_of_constant? hb
  · rw [Source.mentions_iff, discards_fragmentShader]
  · rw [Program.canDiscard, decide_eq_true_iff]
    exact AlphaTest.ne_keepAll_of_lower hcheck

namespace Sample

/-- A material that keeps fragments whose alpha is below one of two numbers but differs from the
other, or the reverse. -/
def tested : Material where
  stages := [{}]
  alphaTest := {
    logic := .xor
    compareA := .less
    referenceA := 0.5
    compareB := .notEqual
    referenceB := 0.25 }

theorem ieee_single : single.Ieee where
  lit_eq _ := rfl
  lt_eq _ _ := rfl
  le_eq _ _ := rfl
  gt_eq _ _ := rfl
  ge_eq _ _ := rfl
  eq_eq _ _ := rfl
  ne_eq _ _ := rfl

end Sample

/-- The fragment shader of the material can drop fragments, and it keeps those that the test
keeps, for example where alpha is not a number. -/
theorem keeps_tested : ∃ p, Sample.tested.lower {} = .ok p ∧ p.canDiscard ∧
    p.alphaCheck.passes (0 / 0) = true ∧
    Mentions (fragmentShader p).text ∧ Sample.tested.alphaTest.constant? ≠ some true ∧
    ∃ v : Vec4 Float32,
      run Sample.single (env Sample.middle) (fragmentBody p) (.register .prev) = .vector v.list ∧
      kept Sample.single (env Sample.middle) (fragmentBody p) =
        Sample.tested.alphaTest.passes v.a := by
  obtain ⟨p, hp⟩ : ∃ p, Sample.tested.lower {} = .ok p := ⟨_, rfl⟩
  obtain ⟨hpasses, -, hkept, -, hmentions, hdiscard⟩ := Material.keeps_of_lower hp
  have hconstant : Sample.tested.alphaTest.constant? ≠ some true := by decide
  have hcan := hdiscard.mpr hconstant
  have hnan : Sample.tested.alphaTest.passes (0 / 0) = true := by decide +kernel
  exact ⟨p, hp, hcan, (hpasses _).trans hnan, hmentions.mpr hcan, hconstant,
    (hkept Sample.single Sample.ieee_single).2 Sample.middle⟩

end FixedFunction
