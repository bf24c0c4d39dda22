import FixedFunction.Proofs.Shader.Brackets
import FixedFunction.Proofs.Shader.Literals
import FixedFunction.Proofs.Shader.Spelling

/-!
# The text of an expression is read as the expression

**Input.**  An expression that has all its brackets and no number without a text.

**Invariant.**  What has been read of an expression is the expression up to the last operand.  The
operators that are still to come bind more tightly than those before the last operand.

**Results.**
* `exists_row`: the operands of an expression are read one after another.
* `operand_append`, `Expr.read_append`: operands and expressions are read up to what may follow.
-/

namespace FixedFunction
namespace Shader

/-! ### What follows an operand -/

/-- Texts that may follow something that a part is selected of. -/
def EndsPrimary (rest : List Char) : Prop :=
  ∀ c ∈ rest.head?, c ∈ [' ', ';', ')', ',', ']', '.', '[']

/-- Texts that may follow an operand. -/
def EndsOperand (rest : List Char) : Prop :=
  ∀ c ∈ rest.head?, c ∈ [' ', ';', ')', ',', ']']

/-- Texts that may follow an expression. -/
structure EndsExpression (rest : List Char) : Prop where
  operand : EndsOperand rest
  operator : operator rest = none

section Ends

variable {rest : List Char}

theorem EndsPrimary.endsName (h : EndsPrimary rest) : EndsName rest := by
  cases rest with
  | nil => exact ⟨by simp [EndsWord], rfl⟩
  | cons c rest =>
    have := h c rfl
    fin_cases this
    · exact endsName_append (s := " ") rfl rfl rest
    · exact endsName_append (s := ";") rfl rfl rest
    · exact endsName_append (s := ")") rfl rfl rest
    · exact endsName_append (s := ",") rfl rfl rest
    · exact endsName_append (s := "]") rfl rfl rest
    · exact endsName_append (s := ".") rfl rfl rest
    · exact endsName_append (s := "[") rfl rfl rest

theorem EndsPrimary.ne_open (h : EndsPrimary rest) (cs : List Char) : rest ≠ '(' :: cs := by
  rintro rfl
  simpa using h '(' rfl

theorem EndsOperand.endsPrimary (h : EndsOperand rest) : EndsPrimary rest := by
  intro c hc
  have := h c hc
  fin_cases this <;> decide

theorem EndsOperand.endsDecimal (h : EndsOperand rest) : Decimal.EndsDecimal rest := by
  intro c hc
  have := h c hc
  fin_cases this <;> decide

theorem EndsOperand.selection_eq (h : EndsOperand rest)
    (inner : List Char → Option (Expr × List Char)) (e : Expr) :
    selection inner e rest = none := by
  cases rest with
  | nil => rfl
  | cons c rest =>
    have := h c rfl
    fin_cases this <;> rfl

theorem endsOperand_append {s : String}
    (h : s.toList.head?.any fun c => c ∈ [' ', ';', ')', ',', ']']) (rest : List Char) :
    EndsOperand (s.toList ++ rest) := by
  cases hs : s.toList with
  | nil => simp [hs] at h
  | cons c cs => simpa [EndsOperand, hs] using h

theorem endsExpression_append {s : String}
    (h : s.toList.head?.any fun c => c ∈ [' ', ';', ')', ',', ']'])
    (hoperator : Operator.all.all fun op => differ op.symbol s) (rest : List Char) :
    EndsExpression (s.toList ++ rest) := by
  refine ⟨endsOperand_append h rest, List.findSome?_eq_none_iff.2 fun op hop => ?_⟩
  rw [expect_differ (List.all_eq_true.1 hoperator op hop), Option.map_none]

theorem operator_append (op : Operator) (rest : List Char) :
    operator (op.symbol.toList ++ rest) = some (op, rest) := by
  cases op <;>
    simp [operator, Operator.all, expect, List.dropPrefix?, Operator.symbol, Operator.text]

end Ends

/-! ### Rows of operands -/

open Shader.Expr

section Rows

variable {inner : List Char → Option (Expr × List Char)}

theorem extend_of_le {op : Operator} {a : Expr} (h : op.level ≤ a.level) (x : Expr) :
    a.extend op x = binary op a x := by
  cases a with
  | binary op' a b => exact if_neg h.not_gt
  | _ => rfl

/-- What stands before an operand, as a function of the operand, if the operators behind the operand
that bind as tightly as given take the operand only. -/
def Passes (before : Expr → Expr) (level : ℕ) : Prop :=
  ∀ x op y, level ≤ op.level → (before x).extend op y = before (x.extend op y)

/-- The operands of an expression are read one after another, whatever stands before the first. -/
theorem exists_row {e : Expr} (he : e.bracketed)
    (hinner : ∀ x : Expr, x.text.length ≤ e.text.length → 4 ≤ x.level → x.bracketed → x.finite →
      ∀ rest, EndsOperand rest → inner (x.text.toList ++ rest) = some (x, rest))
    (hfinite : e.finite) {before : Expr → Expr} (hbefore : Passes before e.level) {rest : List Char}
    (hrest : EndsOperand rest) :
    ∃ x r, inner (e.text.toList ++ rest) = some (x, r) ∧
      r.length ≤ (e.text.toList ++ rest).length ∧ ∀ k ≥ r.length, ∃ k' ≥ rest.length,
        iterate (extension inner) k (before x) r =
          iterate (extension inner) k' (before e) rest := by
  induction e generalizing before rest with
  | binary op a b iha ihb =>
    rw [bracketed, Bool.and_eq_true, Bool.and_eq_true, Bool.and_eq_true, Bool.or_eq_true,
      Bool.and_eq_true, decide_eq_true_iff, decide_eq_true_iff, decide_eq_true_iff,
      decide_eq_true_iff] at he
    obtain ⟨⟨⟨hleft, hright⟩, ha⟩, hb⟩ := he
    rw [finite, Bool.and_eq_true] at hfinite
    have hle : op.level ≤ a.level := hleft.elim le_of_lt fun h => h.1.le
    have hlength : (binary op a b).text.length =
        a.text.length + op.symbol.length + b.text.length := by
      simp [text, Operator.symbol]
      omega
    have htext : (binary op a b).text.toList ++ rest =
        a.text.toList ++ (op.symbol.toList ++ (b.text.toList ++ rest)) := by
      simp [text, Operator.symbol]
    have hinfix : EndsOperand (op.symbol.toList ++ (b.text.toList ++ rest)) := by
      cases op <;> exact endsOperand_append (s := " ") rfl _
    -- the operators behind the last operand of `b` do not reach `a`
    have hpasses : Passes (fun x => before (binary op a x)) b.level := by
      intro x op' y hop
      have hlt : op.level < op'.level := hright.trans_le hop
      rw [hbefore _ _ _ hlt.le, extend, if_pos hlt]
    obtain ⟨x, r, hx, hr, hrow⟩ := iha ha (fun x hx => hinner x (by omega)) hfinite.1
      (fun x op' y hop => hbefore x op' y (hle.trans hop)) hinfix
    obtain ⟨y, r', hy, hr', hrow'⟩ :=
      ihb hb (fun x hx => hinner x (by omega)) hfinite.2 hpasses hrest
    refine ⟨x, r, by rw [htext, hx], by rwa [htext], fun k hk => ?_⟩
    obtain ⟨k', hk', hsame⟩ := hrow k hk
    have hextension : extension inner (before a)
        (op.symbol.toList ++ (b.text.toList ++ rest)) =
          some (before (binary op a y), r') := by
      rw [extension, operator_append, ← extend_of_le hle, ← hbefore a op y le_rfl]
      simp only [Option.bind_eq_bind, Option.bind_some, hy]
      rfl
    have hpos : r'.length + 1 ≤ k' := by
      have hblank : 0 < op.symbol.toList.length := by cases op <;> decide
      rw [List.length_append] at hk'
      omega
    obtain ⟨k'', rfl⟩ := Nat.exists_eq_add_of_le' hpos
    obtain ⟨j, hj, hsame'⟩ := hrow' (k'' + r'.length) (by omega)
    refine ⟨j, hj, ?_⟩
    rw [hsame, ← Nat.add_assoc, iterate_succ hextension, hsame']
  | _ =>
    refine ⟨_, rest, hinner _ le_rfl ?_ he hfinite rest hrest, by simp, fun k hk => ⟨k, hk, rfl⟩⟩
    exact of_decide_eq_true rfl

theorem expression_append {e : Expr} (he : e.bracketed)
    (hinner : ∀ x : Expr, x.text.length ≤ e.text.length → 4 ≤ x.level → x.bracketed → x.finite →
      ∀ rest, EndsOperand rest → inner (x.text.toList ++ rest) = some (x, rest))
    (hfinite : e.finite) {rest : List Char} (hrest : EndsExpression rest) :
    expression inner (e.text.toList ++ rest) = some (e, rest) := by
  have hbefore : Passes id e.level := fun _ _ _ _ => rfl
  obtain ⟨x, r, hx, -, hrow⟩ := exists_row he hinner hfinite hbefore hrest.operand
  obtain ⟨k, -, hk⟩ := hrow r.length le_rfl
  have hstop : extension inner e rest = none := by
    rw [extension, hrest.operator]
    rfl
  rw [id, id, iterate_stop hstop] at hk
  rw [expression, hx, Option.bind_eq_bind, Option.bind_some]
  exact congrArg some hk

end Rows

/-! ### Operands -/

section Operands

variable {inner : List Char → Option (Expr × List Char)}

theorem isDigit_of_isAlpha {c : Char} (h : c.isAlpha) : c.isDigit = false := by
  simp only [Char.isAlpha, Char.isUpper, Char.isLower, Char.isDigit] at h ⊢
  grind

/-- What begins with a letter or with a bracket is no number and has no sign. -/
theorem signed_of_primary {e : Expr} {c : Char} {cs rest : List Char} (hc : c.isAlpha ∨ c = '(')
    (h : primary inner (c :: cs) = some (e, rest)) :
    signed inner (c :: cs) = some (iterate (selection inner) rest.length e rest) := by
  have hdigit : c.isDigit = false := by
    rcases hc with hc | rfl
    · exact isDigit_of_isAlpha hc
    · rfl
  unfold signed
  split
  case h_1 => simp_all
  case h_2 => simp_all
  case h_3 => simp [hdigit, h]

theorem primary_of_name {s w : String} {rest r : List Char}
    (hletter : ∃ c cs, s.toList = c :: cs ∧ c.isAlpha) (h : name (s.toList ++ rest) = (w, r)) :
    primary inner (s.toList ++ rest) = named inner w r := by
  obtain ⟨c, cs, hcons, hc⟩ := hletter
  unfold primary
  split
  case h_1 heq =>
    rw [hcons, List.cons_append] at heq
    obtain ⟨rfl, -⟩ := List.cons.inj heq
    exact absurd hc (by decide)
  case h_2 => rw [h]

theorem primary_word {s : String} {e : Expr} (hletter : ∃ c cs, s.toList = c :: cs ∧ c.isAlpha)
    (hword : s.toList.all isWord) (he : ofWord? s = some e) {rest : List Char}
    (hrest : EndsPrimary rest) : primary inner (s.toList ++ rest) = some (e, rest) := by
  rw [primary_of_name hletter (name_append (spelled_of_word hword) hrest.endsName)]
  unfold named
  split
  case h_1 => exact absurd rfl (hrest.ne_open _)
  case h_2 => rw [he, Option.map_some]

theorem primary_call {f : Fn} {args : List Expr} {e : Expr} (hcall : call? f args = some e)
    (hargs : ∀ a ∈ args, ∀ rest, EndsExpression rest →
      expression inner (a.text.toList ++ rest) = some (a, rest))
    (hclose : ∀ cs, inner (')' :: cs) = none) (rest : List Char) :
    primary inner (f.text.toList ++ '(' :: ((", ".intercalate (args.map text)).toList ++
      ')' :: rest)) = some (e, rest) := by
  have hname : name (f.text.toList ++ '(' :: ((", ".intercalate (args.map text)).toList ++
      ')' :: rest)) = _ :=
    name_append f.spelled_text (endsName_append (s := "(") rfl rfl _)
  have hlisted : listed (expression inner) ((", ".intercalate (args.map text)).toList ++
      ')' :: rest) = (args, ')' :: rest) :=
    listed_append EndsExpression hargs (fun cs => endsExpression_append rfl rfl cs)
      (endsExpression_append (s := ")") rfl rfl rest) (by simp [expression, hclose])
      (expect_differ (s := ")") rfl rest)
  have hexpect : expect ")" (')' :: rest) = some rest := expect_append ")" rest
  rw [primary_of_name f.exists_letter hname]
  simp only [named, f.read?_text, Option.bind_eq_bind, Option.bind_some, hlisted, hexpect, hcall]
  rfl

/-- What is selected of an expression is read behind it. -/
theorem iterate_selection {e e' : Expr} {cs rest : List Char}
    (hselect : selection inner e cs = some (e', rest)) (hlength : rest.length < cs.length)
    (h : ∃ k ≥ cs.length, signed inner (e.text.toList ++ cs) =
      some (iterate (selection inner) k e cs)) :
    ∃ k ≥ rest.length, signed inner (e.text.toList ++ cs) =
      some (iterate (selection inner) k e' rest) := by
  obtain ⟨k, hk, hread⟩ := h
  obtain ⟨k, rfl⟩ := Nat.exists_eq_add_of_lt (hlength.trans_le hk)
  exact ⟨rest.length + k, Nat.le_add_right _ _, by rw [hread, iterate_succ hselect]⟩

theorem select?_member (e : Expr) (m : Member) : e.select? m.text = some (member e m) := by
  rw [select?, m.mapM_read?_text, m.read?_text]
  rfl

theorem select?_swizzle (e : Expr) {cs : List Component} (h : cs ≠ []) :
    e.select? (String.join (cs.map Component.text)) = some (swizzle e cs) := by
  obtain ⟨c, cs, rfl⟩ := List.exists_cons_of_ne_nil h
  rw [select?, mapM_read?_components]

theorem selection_point {e e' : Expr} {s : String} (hs : s.toList.all isWord)
    (he : e.select? s = some e') {rest : List Char} (hrest : EndsPrimary rest) :
    selection inner e ('.' :: (s.toList ++ rest)) = some (e', rest) := by
  simp only [selection, word_append hs hrest.endsName.word, he, Option.bind_eq_bind,
    Option.bind_some]
  rfl

theorem selection_bracket {e i : Expr} {rest : List Char}
    (hi : expression inner (i.text.toList ++ ']' :: rest) = some (i, ']' :: rest)) :
    selection inner e ('[' :: (i.text.toList ++ ']' :: rest)) = some (e.at i, rest) := by
  have hexpect : expect "]" (']' :: rest) = some rest := expect_append "]" rest
  simp only [selection, hi, hexpect, Option.bind_eq_bind, Option.bind_some]
  rfl

/-- The expressions with fewer characters than given are read, up to what may follow. -/
def ReadsBelow (inner : List Char → Option (Expr × List Char)) (n : ℕ) : Prop :=
  ∀ e : Expr, e.text.length < n → e.bracketed → e.finite → ∀ rest, EndsExpression rest →
    expression inner (e.text.toList ++ rest) = some (e, rest)

theorem text_of_call? {f : Fn} {args : List Expr} {e : Expr} (h : call? f args = some e) :
    e.text = f.text ++ "(" ++ ", ".intercalate (args.map text) ++ ")" := by
  unfold call? at h
  split at h <;> cases h
  all_goals simp [text, String.intercalate_cons_cons, String.append_assoc]

/-- A call is read as the call. -/
theorem exists_call {n : ℕ} (hinner : ReadsBelow inner n) (hclose : ∀ cs, inner (')' :: cs) = none)
    {e : Expr} (hlength : e.text.length ≤ n) {f : Fn} (args : List Expr)
    (hcall : call? f args = some e) (hargs : ∀ a ∈ args, a.bracketed ∧ a.finite)
    (rest : List Char) :
    ∃ k ≥ rest.length, signed inner (e.text.toList ++ rest) =
      some (iterate (selection inner) k e rest) := by
  obtain ⟨c, cs, hcons, hc⟩ := f.exists_letter
  have hlist : e.text.toList ++ rest = f.text.toList ++
      '(' :: ((", ".intercalate (args.map text)).toList ++ ')' :: rest) := by
    rw [text_of_call? hcall]
    simp only [String.toList_append, List.append_assoc]
    rfl
  have hprimary : primary inner (e.text.toList ++ rest) = some (e, rest) := by
    rw [hlist]
    refine primary_call hcall (fun a ha rest hrest => ?_) hclose rest
    refine hinner a ?_ (hargs a ha).1 (hargs a ha).2 rest hrest
    have ha := length_le_intercalate ", " (List.mem_map_of_mem (f := text) ha)
    have hlen := congrArg List.length hlist
    simp only [List.length_append, List.length_cons, String.length_toList] at hlen
    omega
  rw [hlist, hcons, List.cons_append] at hprimary ⊢
  exact ⟨_, le_rfl, signed_of_primary (.inl hc) hprimary⟩

/-- An operand that holds together most tightly is read up to what is selected of it. -/
theorem exists_selection {n : ℕ} (hinner : ReadsBelow inner n)
    (hclose : ∀ cs, inner (')' :: cs) = none) {e : Expr} (hlength : e.text.length ≤ n)
    (hlevel : e.level = 5) (he : e.bracketed) (hfinite : e.finite) {rest : List Char}
    (hrest : EndsPrimary rest) :
    ∃ k ≥ rest.length, signed inner (e.text.toList ++ rest) =
      some (iterate (selection inner) k e rest) := by
  induction e generalizing rest with
  | lit x => exact absurd hlevel (by simp [level])
  | int i => exact absurd hlevel (by simp [level])
  | not e ih => exact absurd hlevel (by simp [level])
  | binary op a b iha ihb => exact absurd hlevel (by cases op <;> simp [level, Operator.level])
  | bool b =>
    obtain ⟨c, cs, hcons, hc⟩ : ∃ c cs, (bool b).text.toList = c :: cs ∧ c.isAlpha := by
      cases b <;> exact ⟨_, _, rfl, rfl⟩
    have hprimary : primary inner ((bool b).text.toList ++ rest) = some (bool b, rest) := by
      refine primary_word ⟨c, cs, hcons, hc⟩ ?_ ?_ hrest <;> cases b <;> rfl
    rw [hcons] at hprimary ⊢
    exact ⟨_, le_rfl, signed_of_primary (.inl hc) hprimary⟩
  | var x =>
    obtain ⟨c, cs, hcons, hc⟩ := x.exists_letter
    have hword : ofWord? x.text = some (var x) := by
      rw [ofWord?, if_neg (x.text_ne (by decide)), if_neg (x.text_ne (by decide)), x.read?_text]
      rfl
    have hprimary : primary inner (x.text.toList ++ rest) = _ :=
      primary_word x.exists_letter x.isWord_text hword hrest
    rw [text]
    rw [hcons] at hprimary ⊢
    exact ⟨_, le_rfl, signed_of_primary (.inl hc) hprimary⟩
  | member e m ih =>
    rw [bracketed, Bool.and_eq_true, decide_eq_true_iff] at he
    have htext : (member e m).text.toList ++ rest =
        e.text.toList ++ '.' :: (m.text.toList ++ rest) := by simp [text]
    have hlen : e.text.length ≤ (member e m).text.length := by simp [text]; omega
    rw [htext]
    exact iterate_selection (selection_point m.isWord_text (select?_member e m) hrest) (by simp)
      (ih (hlen.trans hlength) he.1 he.2 hfinite (by simp [EndsPrimary]))
  | swizzle e cs ih =>
    rw [bracketed, Bool.and_eq_true, Bool.and_eq_true, decide_eq_true_iff] at he
    have hcs : cs ≠ [] := by simpa using he.2
    have htext : (swizzle e cs).text.toList ++ rest =
        e.text.toList ++ '.' :: ((String.join (cs.map Component.text)).toList ++ rest) := by
      simp [text]
    have hlen : e.text.length ≤ (swizzle e cs).text.length := by simp [text]; omega
    rw [htext]
    exact iterate_selection
      (selection_point (isWord_components cs) (select?_swizzle e hcs) hrest) (by simp)
      (ih (hlen.trans hlength) he.1.1 he.1.2 hfinite (by simp [EndsPrimary]))
  | index e i ih =>
    rw [bracketed, Bool.and_eq_true, decide_eq_true_iff] at he
    have htext : (index e i).text.toList ++ rest =
        e.text.toList ++ '[' :: ((int i).text.toList ++ ']' :: rest) := by simp [text]
    have hlen := congrArg List.length htext
    simp only [List.length_append, List.length_cons, String.length_toList] at hlen
    have hi := hinner (int i) (by omega) rfl rfl (']' :: rest)
      (endsExpression_append (s := "]") rfl rfl rest)
    rw [htext]
    exact iterate_selection (selection_bracket hi) (by simp; omega)
      (ih (by omega) he.1 he.2 hfinite (by simp [EndsPrimary]))
  | element e i ih ihi =>
    rw [bracketed, Bool.and_eq_true, Bool.and_eq_true, Bool.and_eq_true, decide_eq_true_iff] at he
    rw [finite, Bool.and_eq_true] at hfinite
    have htext : (element e i).text.toList ++ rest =
        e.text.toList ++ '[' :: (i.text.toList ++ ']' :: rest) := by simp [text]
    have hlen := congrArg List.length htext
    simp only [List.length_append, List.length_cons, String.length_toList] at hlen
    have hi := hinner i (by omega) he.1.2 hfinite.2 (']' :: rest)
      (endsExpression_append (s := "]") rfl rfl rest)
    have hat : e.at i = element e i := by
      cases i with
      | int k => exact absurd he.2 (by simp [isInt])
      | _ => rfl
    rw [htext]
    exact iterate_selection (hat ▸ selection_bracket hi) (by simp; omega)
      (ih (by omega) he.1.1.1 he.1.1.2 hfinite.1 (by simp [EndsPrimary]))
  | paren e ih =>
    have htext : (paren e).text.toList ++ rest = '(' :: (e.text.toList ++ ')' :: rest) := by
      simp [text]
    have hlen := congrArg List.length htext
    simp only [List.length_append, List.length_cons, String.length_toList] at hlen
    have hread := hinner e (by omega) he hfinite (')' :: rest)
      (endsExpression_append (s := ")") rfl rfl rest)
    have hexpect : expect ")" (')' :: rest) = some rest := expect_append ")" rest
    rw [htext]
    refine ⟨_, le_rfl, signed_of_primary (.inr rfl) ?_⟩
    simp only [primary, hread, hexpect, Option.bind_eq_bind, Option.bind_some]
    rfl
  | call0 f => exact exists_call hinner hclose hlength [] rfl (by simp) rest
  | call1 f a =>
    exact exists_call hinner hclose hlength [a] rfl (by simpa using ⟨he, hfinite⟩) rest
  | call2 f a b =>
    exact exists_call hinner hclose hlength [a, b] rfl (by simp_all) rest
  | call3 f a b c =>
    exact exists_call hinner hclose hlength [a, b, c] rfl (by simp_all) rest
  | call4 f a b c d =>
    exact exists_call hinner hclose hlength [a, b, c, d] rfl (by simp_all) rest

/-! ### Numbers -/

theorem exists_digit_of_decimal {cs rest : List Char} {d : ℕ × Option ℤ}
    (h : Decimal.decimal cs = some (d, rest)) : ∃ c l, cs = c :: l ∧ c.isDigit := by
  obtain ⟨⟨ds, r⟩, hds, -⟩ := Option.bind_eq_some_iff.1 h
  cases cs with
  | nil => exact absurd hds (by simp [Json.digits])
  | cons c l =>
    refine ⟨c, l, rfl, ?_⟩
    by_contra hc
    rw [Bool.not_eq_true] at hc
    simp [Json.digits, List.span_eq_takeWhile_dropWhile, hc] at hds

/-- What begins with a decimal is a number. -/
theorem signed_eq_number {cs rest : List Char} {d : ℕ × Option ℤ}
    (h : Decimal.decimal cs = some (d, rest)) : signed inner cs = number false cs := by
  obtain ⟨c, l, rfl, hc⟩ := exists_digit_of_decimal h
  unfold signed
  split
  case h_1 heq => exact absurd hc (by rw [(List.cons.inj heq).1]; decide)
  case h_2 heq => exact absurd hc (by rw [(List.cons.inj heq).1]; decide)
  case h_3 => simp [hc]

theorem signed_lit {x : Float32} (hx : x.isFinite) {rest : List Char} (hrest : EndsOperand rest) :
    signed inner ((lit x).text.toList ++ rest) = some (lit x, rest) := by
  obtain ⟨negative, body, htext, hbody⟩ := Decimal.exists_literal hx
  obtain ⟨n, k, hread, hvalue⟩ := hbody rest hrest.endsDecimal
  rw [text, htext]
  cases negative with
  | true =>
    change number true (body ++ rest) = _
    rw [number, hread]
    exact congrArg (fun x => some (lit x, rest)) hvalue
  | false =>
    change signed inner (body ++ rest) = _
    rw [signed_eq_number hread, number, hread]
    exact congrArg (fun x => some (lit x, rest)) hvalue

theorem signed_int (n : ℕ) {rest : List Char} (hrest : EndsOperand rest) :
    signed inner ((int n).text.toList ++ rest) = some (int n, rest) := by
  have hends := hrest.endsDecimal
  have hread : Decimal.decimal ((int n).text.toList ++ rest) = some ((n, none), rest) := by
    have hdigits := Decimal.digits_toDigits n fun c hc => (hends c hc).1
    have hfraction := Decimal.fraction_none fun c hc => (hends c hc).2.1
    have hexponent := Decimal.exponent_none fun c hc => (hends c hc).2.2
    have htext : (int n).text.toList = Nat.toDigits 10 n := by simp [text]
    rw [htext]
    simp only [Decimal.decimal, hdigits, hfraction, hexponent, Option.bind_eq_bind,
      Option.bind_some, Decimal.digitsValue_toDigits]
    rfl
  rw [signed_eq_number hread, number, hread]
  rfl

end Operands

/-! ### Expressions -/

/-- A bracket that closes is no operand. -/
theorem operand_close (fuel : ℕ) (cs : List Char) : operand fuel (')' :: cs) = none := by
  cases fuel with
  | zero => rfl
  | succ fuel =>
    have hname : name (')' :: cs) = ("", ')' :: cs) :=
      name_append (s := "") rfl (endsName_append (s := ")") rfl rfl cs)
    have hword : ofWord? "" = none := by decide
    simp [operand, signed, primary, named, hname, hword]

/-- Operands are read, up to what may follow. -/
theorem operand_append (fuel : ℕ) {e : Expr} (hfuel : e.text.length < fuel) (hlevel : 4 ≤ e.level)
    (he : e.bracketed) (hfinite : e.finite) {rest : List Char} (hrest : EndsOperand rest) :
    operand fuel (e.text.toList ++ rest) = some (e, rest) := by
  induction fuel generalizing e rest with
  | zero => exact absurd hfuel (Nat.not_lt_zero _)
  | succ fuel ih =>
    have hinner : ReadsBelow (operand fuel) fuel := by
      intro x hx hb hf r hr
      exact expression_append hb (fun y hy h4 hb hf r hr => ih (hy.trans_lt hx) h4 hb hf hr) hf hr
    have hselected (h : e.level = 5) :
        operand (fuel + 1) (e.text.toList ++ rest) = some (e, rest) := by
      obtain ⟨k, -, hk⟩ := exists_selection hinner (operand_close fuel) (Nat.le_of_lt_succ hfuel) h
        he hfinite hrest.endsPrimary
      rw [operand, hk, iterate_stop (hrest.selection_eq _ _)]
    cases e with
    | lit x => exact signed_lit hfinite hrest
    | int n => exact signed_int n hrest
    | binary op a b => exact absurd hlevel (by cases op <;> simp [level, Operator.level])
    | not e =>
      rw [bracketed, Bool.and_eq_true, decide_eq_true_iff] at he
      have htext : (not e).text.toList ++ rest = '!' :: (e.text.toList ++ rest) := by simp [text]
      have hlen := congrArg List.length htext
      simp only [List.length_append, List.length_cons, String.length_toList] at hlen
      have hread := ih (by omega) he.1 he.2 hfinite hrest
      rw [htext, operand, signed, hread, Option.map_some]
    | _ => exact hselected rfl

/-- Expressions are read, up to what may follow. -/
theorem Expr.read_append {e : Expr} (he : e.bracketed) (hfinite : e.finite) {rest : List Char}
    (hrest : EndsExpression rest) : Expr.read (e.text.toList ++ rest) = some (e, rest) := by
  refine expression_append he (fun x hx h4 hb hf r hr => ?_) hfinite hrest
  refine operand_append _ ?_ h4 hb hf hr
  rw [List.length_append, String.length_toList]
  omega

end Shader
end FixedFunction
