import FixedFunction.Proofs.Shader.Names
import FixedFunction.Proofs.Shader.Scope
import Mathlib.Data.List.Infix

/-!
# Where a shader text says `discard`

The pieces of a text stand between characters that are not in the word `discard`, so that the word
cannot come about where two pieces meet.  It is then in the text exactly if one of the statements
drops fragments.

**Results.**
* `infix_append_iff_of_last`, `infix_append_iff_of_head`: a word is in one of two parts if the
  character before or behind their border is not in it.
* `Expr.not_mentions`, `Stmt.mentions_iff`, `Decl.mentions_iff`: what the parts of a text say.
* `Source.mentions_iff`: a text says `discard` exactly if a statement of its shader drops fragments.
-/

namespace FixedFunction
namespace Shader

/-! ### Words in a text -/

section Infix

variable {α : Type} {w xs ys : List α}

theorem infix_append_iff_of_head (h : ∀ c ∈ ys.head?, c ∉ w) :
    w <:+: xs ++ ys ↔ w <:+: xs ∨ w <:+: ys := by
  rw [List.infix_append_iff]
  constructor
  · rintro (hx | hy | ⟨l, l', rfl, hl, hl'⟩)
    · exact .inl hx
    · exact .inr hy
    · cases l' with
      | nil => exact .inl (by simpa using hl.isInfix)
      | cons c l' =>
        obtain ⟨rest, rfl⟩ := hl'
        exact absurd (by simp) (h c rfl)
  · rintro (hx | hy)
    · exact .inl hx
    · exact .inr (.inl hy)

theorem infix_append_iff_of_last (h : ∀ c ∈ xs.getLast?, c ∉ w) :
    w <:+: xs ++ ys ↔ w <:+: xs ∨ w <:+: ys := by
  have hhead : ∀ c ∈ xs.reverse.head?, c ∉ w.reverse := by
    simpa using h
  rw [← List.reverse_infix, List.reverse_append, infix_append_iff_of_head hhead,
    List.reverse_infix, List.reverse_infix, or_comm]

end Infix

/-- The text says `discard`. -/
def Mentions (s : String) : Prop :=
  "discard".toList <:+: s.toList

instance (s : String) : Decidable (Mentions s) :=
  inferInstanceAs (Decidable ("discard".toList <:+: s.toList))

/-- The first character of the text is not in the word. -/
def Opens (s : String) : Prop :=
  ∃ c ∈ s.toList.head?, c ∉ "discard".toList

-- This looks at one character, where a quantifier over characters may be decided on all of them.
instance (s : String) : Decidable (Opens s) :=
  decidable_of_iff (s.toList.head?.any (· ∉ "discard".toList)) (by
    simp only [Opens, Option.any_eq_true, decide_eq_true_iff, Option.mem_def])

/-- The last character of the text is not in the word. -/
def Closes (s : String) : Prop :=
  ∃ c ∈ s.toList.getLast?, c ∉ "discard".toList

instance (s : String) : Decidable (Closes s) :=
  decidable_of_iff (s.toList.getLast?.any (· ∉ "discard".toList)) (by
    simp only [Closes, Option.any_eq_true, decide_eq_true_iff, Option.mem_def])

/-- A text that can stand between two others without making the word with them. -/
def Separates (s : String) : Prop :=
  Opens s ∧ Closes s ∧ ¬ Mentions s

instance (s : String) : Decidable (Separates s) :=
  inferInstanceAs (Decidable (_ ∧ _ ∧ _))

section Append

variable {s sep t : String}

theorem Closes.append (h : Closes t) : Closes (s ++ t) := by
  obtain ⟨c, hc, hw⟩ := h
  refine ⟨c, ?_, hw⟩
  rw [String.toList_append, List.getLast?_append, Option.mem_def.mp hc]
  rfl

theorem Closes.mentions_append (h : Closes s) : Mentions (s ++ t) ↔ Mentions s ∨ Mentions t := by
  obtain ⟨c, hc, hw⟩ := h
  rw [Mentions, String.toList_append]
  refine infix_append_iff_of_last fun d hd => ?_
  rwa [← Option.mem_unique hc hd]

theorem mentions_append_of_opens (h : Opens t ∧ ¬ Mentions t) :
    Mentions (s ++ t) ↔ Mentions s := by
  obtain ⟨⟨c, hc, hw⟩, ht⟩ := h
  rw [Mentions, String.toList_append, infix_append_iff_of_head fun d hd => by
    rwa [← Option.mem_unique hc hd]]
  exact or_iff_left ht

theorem mentions_append_of_closes (h : Closes s ∧ ¬ Mentions s) :
    Mentions (s ++ t) ↔ Mentions t := by
  rw [h.1.mentions_append]
  exact or_iff_right h.2

theorem mentions_framed {closing : String} (hs : Closes s ∧ ¬ Mentions s)
    (hc : Opens closing ∧ ¬ Mentions closing) : Mentions (s ++ t ++ closing) ↔ Mentions t := by
  rw [mentions_append_of_opens hc, mentions_append_of_closes hs]

theorem mentions_separated (h : Separates sep) :
    Mentions (s ++ sep ++ t) ↔ Mentions s ∨ Mentions t := by
  rw [Closes.mentions_append (Closes.append h.2.1), mentions_append_of_opens ⟨h.1, h.2.2⟩]

end Append

theorem mentions_join {l : List String} (h : ∀ s, s ∈ l → Closes s) :
    Mentions (String.join l) ↔ ∃ s, s ∈ l ∧ Mentions s := by
  induction l with
  | nil => exact iff_of_false (by decide) (by simp)
  | cons s l ih =>
    rw [List.forall_mem_cons] at h
    rw [String.join_cons, Closes.mentions_append h.1, ih h.2]
    simp

theorem mentions_intercalate {sep : String} (hsep : Separates sep) {l : List String} :
    Mentions (sep.intercalate l) ↔ ∃ s, s ∈ l ∧ Mentions s := by
  induction l with
  | nil => exact iff_of_false (show ¬ Mentions "" by decide) (by simp)
  | cons s l ih =>
    cases l with
    | nil => simp
    | cons t l =>
      rw [String.intercalate_cons_cons, mentions_separated hsep, ih]
      simp

/-! ### Names and numbers -/

theorem not_mentions_of_not_mem {s : String} {c : Char} (hc : c ∈ "discard".toList)
    (h : c ∉ s.toList) : ¬ Mentions s :=
  fun hs => h (hs.subset hc)

theorem mentions_append_repr (s : String) (k : Nat) : Mentions (s ++ k.repr) ↔ Mentions s := by
  have hdigit : ∀ c ∈ k.repr.toList, c ∉ "discard".toList := fun c hc hw => by
    have hletters : "discard".toList.all (fun c => !c.isDigit) := by decide
    have hletter := List.all_eq_true.mp hletters c hw
    rw [isDigit_of_mem_repr k c hc] at hletter
    contradiction
  rw [Mentions, String.toList_append, infix_append_iff_of_head fun c hc =>
    hdigit c (List.mem_of_mem_head? hc)]
  refine or_iff_left (not_mentions_of_not_mem (c := 'd') (by decide) fun hd => ?_)
  exact hdigit 'd' hd (by decide)

theorem not_mentions_numbered {s : String} (hs : ¬ Mentions s) (k : Nat) :
    ¬ Mentions (s ++ k.repr) :=
  (mentions_append_repr s k).not.mpr hs

theorem not_mentions_repr (k : Nat) : ¬ Mentions k.repr := by
  have h := not_mentions_numbered (s := "") (by decide) k
  rwa [String.empty_append] at h

theorem StageInput.not_mentions (i : StageInput) : ¬ Mentions i.text := by
  cases i <;> decide

theorem Ident.not_mentions (n : Ident) : ¬ Mentions n.text := by
  cases n with
  | register r => cases r <;> decide
  | coordBase k => exact not_mentions_numbered (by decide) k
  | sample k => exact not_mentions_numbered (by decide) k
  | operand k i =>
    change ¬ Mentions ("t_tev" ++ k.repr ++ "_" ++ i.text)
    rw [mentions_separated (by decide)]
    exact not_or.mpr ⟨not_mentions_numbered (by decide) k, i.not_mentions⟩
  | indirect k => exact not_mentions_numbered (by decide) k
  | texture t => exact not_mentions_numbered (by decide) t.toNat
  | sampler t => exact not_mentions_numbered (by decide) t.toNat
  | _ => decide

theorem Member.not_mentions (m : Member) : ¬ Mentions m.text := by
  cases m with
  | channel i => exact not_mentions_numbered (by decide) i
  | coord i => exact not_mentions_numbered (by decide) i
  | tex i => exact not_mentions_numbered (by decide) i
  | _ => decide

theorem StructName.not_mentions (s : StructName) : ¬ Mentions s.text := by
  cases s <;> decide

theorem Fn.not_mentions (f : Fn) : ¬ Mentions f.text := by
  cases f with
  | new s => exact s.not_mentions
  | _ => decide

theorem Operator.not_mentions (op : Operator) : ¬ Mentions op.text := by
  cases op <;> decide

theorem not_mentions_components (cs : List Component) :
    ¬ Mentions (String.join (cs.map Component.text)) := by
  refine not_mentions_of_not_mem (c := 'd') (by decide) ?_
  rw [String.toList_join, List.flatMap_map, List.mem_flatMap]
  rintro ⟨c, -, hc⟩
  cases c <;> exact absurd hc (by decide)

end Shader

namespace Decimal

/-- The letters in a decimal are those of its exponent and of what is no number. -/
theorem Digits.not_mem_text (d : Digits) : 'c' ∉ d.text.toList := by
  have hdecimal (k : Nat) : 'c' ∉ Nat.toDigits 10 k := fun h =>
    absurd (Nat.isDigit_of_mem_toDigits (by decide) (by decide) h) (by decide)
  have hdigits := hdecimal d.digits
  have hexponent (e : Int) : 'c' ∉ e.repr.toList := by
    cases e with
    | ofNat k => simpa [Int.repr] using hdecimal k
    | negSucc k => simpa [Int.repr] using hdecimal (k + 1)
  have htake (n : Nat) : 'c' ∉ (Nat.toDigits 10 d.digits).take n := fun h =>
    hdigits (List.mem_of_mem_take h)
  have hdrop (n : Nat) : 'c' ∉ (Nat.toDigits 10 d.digits).drop n := fun h =>
    hdigits (List.mem_of_mem_drop h)
  have htail : 'c' ∉ (Nat.toDigits 10 d.digits).tail := fun h =>
    hdigits (List.mem_of_mem_tail h)
  simp only [text, String.toList_ofList]
  split
  · split <;> simp [*]
  · split
    · simp [*]
    · split <;> simp [*]

theorem not_mem_text (f : Binary.Format) (bits : Nat) : 'c' ∉ (text f bits).toList := by
  have hsign : 'c' ∉ (if f.isNegative bits then "-" else "").toList := by
    split <;> decide
  unfold text
  dsimp only
  split
  · decide
  · split
    · simp [hsign]
    · split
      · simp [hsign]
      · simp [hsign, Digits.not_mem_text]

end Decimal

namespace Shader

/-! ### Expressions and statements -/

theorem Expr.not_mentions (e : Expr) : ¬ Mentions e.text := by
  induction e with
  | lit x => exact not_mentions_of_not_mem (c := 'c') (by decide) (Decimal.not_mem_text _ _)
  | int n => exact not_mentions_repr n
  | bool b => cases b <;> decide
  | var n => exact n.not_mentions
  | member e m ih =>
    rw [text, mentions_separated (by decide)]
    exact not_or.mpr ⟨ih, m.not_mentions⟩
  | swizzle e cs ih =>
    rw [text, mentions_separated (by decide)]
    exact not_or.mpr ⟨ih, not_mentions_components cs⟩
  | index e i ih =>
    rw [text, mentions_append_of_opens (by decide), mentions_separated (by decide)]
    exact not_or.mpr ⟨ih, not_mentions_repr i⟩
  | element e i ihe ihi =>
    rw [text, mentions_append_of_opens (by decide), mentions_separated (by decide)]
    exact not_or.mpr ⟨ihe, ihi⟩
  | paren e ih => rwa [text, mentions_framed (by decide) (by decide)]
  | not e ih => rwa [text, mentions_append_of_closes (by decide)]
  | binary op a b iha ihb =>
    simp (disch := decide) only [text, mentions_separated, not_or]
    exact ⟨⟨iha, op.not_mentions⟩, ihb⟩
  | call0 f =>
    rw [text, mentions_append_of_opens (by decide)]
    exact f.not_mentions
  | call1 f a ih =>
    simp (disch := decide) only [text, mentions_append_of_opens, mentions_separated, not_or]
    exact ⟨f.not_mentions, ih⟩
  | call2 f a b iha ihb =>
    simp (disch := decide) only [text, mentions_append_of_opens, mentions_separated, not_or]
    exact ⟨⟨f.not_mentions, iha⟩, ihb⟩
  | call3 f a b c iha ihb ihc =>
    simp (disch := decide) only [text, mentions_append_of_opens, mentions_separated, not_or]
    exact ⟨⟨⟨f.not_mentions, iha⟩, ihb⟩, ihc⟩
  | call4 f a b c d iha ihb ihc ihd =>
    simp (disch := decide) only [text, mentions_append_of_opens, mentions_separated, not_or]
    exact ⟨⟨⟨⟨f.not_mentions, iha⟩, ihb⟩, ihc⟩, ihd⟩

theorem Place.not_mentions (p : Place) : ¬ Mentions p.text := by
  cases p with
  | var n => exact n.not_mentions
  | member n m =>
    rw [text, mentions_separated (by decide)]
    exact not_or.mpr ⟨n.not_mentions, m.not_mentions⟩
  | component n c =>
    rw [text, mentions_separated (by decide)]
    exact not_or.mpr ⟨n.not_mentions, by cases c <;> decide⟩

/-- Whether a statement drops fragments. -/
def Stmt.isDiscard : Stmt → Bool
  | discardIf _ => true
  | bind _ _ | declare _ _ | assign _ _ | addAssign _ _ | .return _ | remark _ => false

/-- A line that gives the value of an expression to a name or a place. -/
theorem not_mentions_line {opening x sep : String} (ho : Closes opening ∧ ¬ Mentions opening)
    (hsep : Separates sep) (hx : ¬ Mentions x) (e : Expr) :
    ¬ Mentions (opening ++ x ++ sep ++ e.text ++ ";\n") := by
  rw [mentions_append_of_opens (by decide), mentions_separated hsep,
    mentions_append_of_closes ho]
  exact not_or.mpr ⟨hx, e.not_mentions⟩

theorem Stmt.mentions_iff (s : Stmt) : Mentions s.text ↔ s.isDiscard := by
  have hkeeps {s : Stmt} (hs : ¬ Mentions s.text) (hd : s.isDiscard = false) :
      Mentions s.text ↔ s.isDiscard :=
    iff_of_false hs (by simp [hd])
  cases s with
  | bind n e =>
    refine hkeeps ?_ rfl
    change ¬ Mentions ("    let " ++ n.text ++ " = " ++ e.text ++ ";\n")
    exact not_mentions_line (by decide) (by decide) n.not_mentions e
  | declare n e =>
    refine hkeeps ?_ rfl
    change ¬ Mentions ("    var " ++ n.text ++ " = " ++ e.text ++ ";\n")
    exact not_mentions_line (by decide) (by decide) n.not_mentions e
  | assign p e =>
    refine hkeeps ?_ rfl
    change ¬ Mentions ("    " ++ p.text ++ " = " ++ e.text ++ ";\n")
    exact not_mentions_line (by decide) (by decide) p.not_mentions e
  | addAssign p e =>
    refine hkeeps ?_ rfl
    change ¬ Mentions ("    " ++ p.text ++ " += " ++ e.text ++ ";\n")
    exact not_mentions_line (by decide) (by decide) p.not_mentions e
  | «return» e =>
    refine hkeeps ?_ rfl
    change ¬ Mentions ("    return " ++ e.text ++ ";\n")
    rw [mentions_framed (by decide) (by decide)]
    exact e.not_mentions
  | remark k =>
    refine hkeeps ?_ rfl
    change ¬ Mentions ("    // Stage " ++ k.repr ++ "\n")
    rw [mentions_framed (by decide) (by decide)]
    exact not_mentions_repr k
  | discardIf e =>
    have hword : Mentions " \x7b\n        discard;\n    \x7d\n" := by decide
    change Mentions ("    if " ++ e.text ++ " \x7b\n        discard;\n    \x7d\n") ↔ _
    rw [Mentions, String.toList_append]
    exact iff_of_true (hword.trans (List.suffix_append _ _).isInfix) rfl

theorem Stmt.closes (s : Stmt) : Closes s.text := by
  cases s <;> exact Closes.append (by decide)

/-! ### Declarations and sources -/

theorem Ty.not_mentions (t : Ty) : ¬ Mentions t.text := by
  induction t with
  | struct s => exact s.not_mentions
  | array e n ih =>
    simp (disch := decide) only [text, mentions_append_of_opens, mentions_append_of_closes,
      mentions_separated, not_or]
    exact ⟨ih, not_mentions_repr n⟩
  | _ => decide

theorem MemberDecl.not_mentions (m : MemberDecl) : ¬ Mentions m.text := by
  obtain ⟨link, name, type⟩ := m
  have hlink : Closes ("    " ++ link.text) ∧ ¬ Mentions ("    " ++ link.text) := by
    cases link with
    | location i =>
      simp (disch := decide) only [Link.text, ← String.append_assoc, mentions_append_of_opens,
        mentions_append_of_closes]
      exact ⟨Closes.append (by decide), not_mentions_repr i⟩
    | _ => decide
  simp (disch := decide) only [text, mentions_append_of_opens, mentions_separated,
    mentions_append_of_closes hlink, not_or]
  exact ⟨name.not_mentions, type.not_mentions⟩

theorem MemberDecl.closes (m : MemberDecl) : Closes m.text :=
  Closes.append (by decide)

theorem Decl.mentions_iff (d : Decl) :
    Mentions d.text ↔ d.functions.any fun f => f.body.any Stmt.isDiscard := by
  cases d with
  | struct name members =>
    have hmembers : ¬ Mentions (String.join (members.map MemberDecl.text)) := by
      rw [mentions_join (by simpa using fun m _ => m.closes)]
      simp [MemberDecl.not_mentions]
    change Mentions ("struct " ++ name.text ++ " \x7b\n" ++
      String.join (members.map MemberDecl.text) ++ "\x7d\n") ↔ _
    rw [mentions_append_of_opens (by decide), mentions_separated (by decide),
      mentions_append_of_closes (by decide)]
    exact iff_of_false (not_or.mpr ⟨name.not_mentions, hmembers⟩) (by simp [functions])
  | global group binding uniform name type =>
    have hnumbers : ¬ Mentions ("@group(" ++ group.repr ++ ") @binding(" ++ binding.repr ++
        ") var") := by
      rw [mentions_append_of_opens (by decide), mentions_separated (by decide),
        mentions_append_of_closes (by decide)]
      exact not_or.mpr ⟨not_mentions_repr group, not_mentions_repr binding⟩
    have hkind : ¬ Mentions ("@group(" ++ group.repr ++ ") @binding(" ++ binding.repr ++
        ") var" ++ (if uniform then "<uniform>" else "")) := by
      cases uniform with
      | false => simpa using hnumbers
      | true => exact (mentions_append_of_opens (by decide)).not.mpr hnumbers
    change Mentions ("@group(" ++ group.repr ++ ") @binding(" ++ binding.repr ++ ") var" ++
      (if uniform then "<uniform>" else "") ++ " " ++ name.text ++ ": " ++ type.text ++ ";\n") ↔ _
    rw [mentions_append_of_opens (by decide), mentions_separated (by decide),
      mentions_separated (by decide)]
    exact iff_of_false
      (not_or.mpr ⟨not_or.mpr ⟨hkind, name.not_mentions⟩, type.not_mentions⟩) (by simp [functions])
  | function entry name params result body =>
    have hentry : Closes (entry.text ++ "fn ") ∧ ¬ Mentions (entry.text ++ "fn ") := by
      cases entry <;> decide
    have hparams : ¬ Mentions
        (", ".intercalate (params.map fun p => p.1.text ++ ": " ++ p.2.text)) := by
      rw [mentions_intercalate (by decide)]
      rintro ⟨_, hs, h⟩
      obtain ⟨p, _, rfl⟩ := List.mem_map.mp hs
      rw [mentions_separated (by decide)] at h
      exact h.elim p.1.not_mentions p.2.not_mentions
    change Mentions (entry.text ++ "fn " ++ name.text ++ "(" ++
      ", ".intercalate (params.map fun p => p.1.text ++ ": " ++ p.2.text) ++ ") -> " ++
      result.text ++ " \x7b\n" ++ String.join (body.map Stmt.text) ++ "\x7d\n") ↔ _
    rw [mentions_append_of_opens (by decide), mentions_separated (by decide),
      mentions_separated (by decide), mentions_separated (by decide),
      mentions_append_of_closes hentry,
      mentions_join (by simpa using fun s _ => s.closes)]
    simp [functions, Stmt.mentions_iff, name.not_mentions, hparams, result.not_mentions]

theorem Decl.closes (d : Decl) : Closes d.text := by
  cases d <;> exact Closes.append (by decide)

/-- Whether a function of a source drops fragments. -/
def Source.discards (src : Source) : Bool :=
  src.functions.any fun f => f.body.any Stmt.isDiscard

/-- A text says `discard` exactly if a statement of its shader drops fragments. -/
theorem Source.mentions_iff (src : Source) : Mentions src.text ↔ src.discards := by
  have hgroup (group : List Decl) : Mentions (String.join (group.map Decl.text)) ↔
      ∃ d, d ∈ group ∧ Mentions d.text := by
    rw [mentions_join (by simpa using fun d _ => d.closes)]
    simp
  rw [text, mentions_intercalate (by decide)]
  simp only [List.mem_map, exists_exists_and_eq_and, hgroup, Decl.mentions_iff, discards,
    functions, List.any_flatMap, List.any_flatten]
  simp

end Shader
end FixedFunction
