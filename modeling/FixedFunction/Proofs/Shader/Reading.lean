import FixedFunction.Proofs.Program.Acceptance
import FixedFunction.Proofs.Shader.Operands

/-!
# The text of a shader is read as the shader

**Input.**  A source that has all its brackets and no number without a text.

**Results.**
* `Source.read?_text`: the text of the source is read as the source.
* `Material.read?_of_compile`: this holds of both shaders of a material that compiles.
* `Material.entryBody?_of_compile`: what its fragment shader executes, by the text.
-/

namespace FixedFunction
namespace Shader

open Shader.Expr

/-! ### Statements -/

section Statements

variable {rest : List Char}

theorem endsExpression_semicolon (cs : List Char) : EndsExpression (";\n".toList ++ cs) :=
  endsExpression_append rfl rfl cs

theorem definition_append (n : Ident) {e : Expr} (he : e.bracketed) (hfinite : e.finite) :
    definition (" ".toList ++ (n.text.toList ++ (" = ".toList ++ (e.text.toList ++
      (";\n".toList ++ rest))))) = some ((n, e), rest) := by
  have hword := word_append n.isWord_text
    (endsWord_append (s := " = ") rfl (e.text.toList ++ (";\n".toList ++ rest)))
  have hread := Expr.read_append he hfinite (endsExpression_semicolon rest)
  simp only [definition, expect_append, hword, n.read?_text, hread, Option.bind_eq_bind,
    Option.bind_some]
  rfl

theorem Place.read_append (p : Place) (hrest : EndsWord rest) (hpoint : ∀ cs, rest ≠ '.' :: cs) :
    Place.read (p.text.toList ++ rest) = some (p, rest) := by
  cases p with
  | var n =>
    have hword := word_append n.isWord_text hrest
    rw [text, read, hword]
    simp only [n.read?_text, Option.bind_eq_bind, Option.bind_some]
    rfl
  | member n m =>
    have htext : (member n m).text.toList ++ rest =
        n.text.toList ++ '.' :: (m.text.toList ++ rest) := by simp [text]
    have hword : word (n.text.toList ++ '.' :: (m.text.toList ++ rest)) = _ :=
      word_append n.isWord_text (endsWord_append (s := ".") rfl _)
    rw [htext, read, hword]
    simp only [n.read?_text, word_append m.isWord_text hrest, m.mapM_read?_text, m.read?_text,
      Option.bind_eq_bind, Option.bind_some, Option.map_some]
  | component n c =>
    have htext : (component n c).text.toList ++ rest =
        n.text.toList ++ '.' :: ((String.join ([c].map Component.text)).toList ++ rest) := by
      simp [text]
    have hword : word (n.text.toList ++ '.' :: ((String.join ([c].map Component.text)).toList ++
        rest)) = _ :=
      word_append n.isWord_text (endsWord_append (s := ".") rfl _)
    rw [htext, read, hword]
    simp only [n.read?_text, word_append (isWord_components [c]) hrest, mapM_read?_components,
      Option.bind_eq_bind, Option.bind_some]
    rfl

theorem Stmt.read_keyword {w : String} (hw : w ∈ keywords) (hrest : EndsWord rest) :
    Stmt.read ("    ".toList ++ (w.toList ++ rest)) = readBehind w rest := by
  have hletter : ∃ c cs, w.toList = c :: cs ∧ c.isAlpha := by
    fin_cases hw <;> exact ⟨_, _, rfl, rfl⟩
  have hword : w.toList.all isWord := by
    fin_cases hw <;> rfl
  have hremark : expect "// Stage " (w.toList ++ rest) = none :=
    expect_of_letter ⟨_, _, rfl, rfl⟩ hletter rest
  simp only [read, expect_append, hremark, word_append hword hrest, if_pos hw,
    Option.bind_eq_bind, Option.bind_some]

theorem Place.exists_text (p : Place) (hrest : EndsWord rest) :
    ∃ t : String, p.text = p.name.text ++ t ∧ EndsWord (t.toList ++ rest) := by
  have hpoint (s : String) : EndsWord (("." ++ s).toList ++ rest) := by
    rw [String.toList_append, List.append_assoc]
    exact endsWord_append rfl _
  cases p with
  | var n => exact ⟨"", by simp [text, name], by simpa using hrest⟩
  | member n m => exact ⟨"." ++ m.text, String.append_assoc .., hpoint m.text⟩
  | component n c => exact ⟨"." ++ c.text, String.append_assoc .., hpoint c.text⟩

/-- What begins with no keyword is an assignment. -/
theorem Stmt.read_assignment (p : Place) (hrest : EndsWord rest) :
    Stmt.read ("    ".toList ++ (p.text.toList ++ rest)) = assignment (p.text.toList ++ rest) := by
  obtain ⟨t, htext, ht⟩ := p.exists_text hrest
  -- the text begins with the name of a variable, and keywords are the names of none
  have hkeyword : p.name.text ∉ keywords := by
    have hne (s : String) (hs : s ∈ keywords) : p.name.text ≠ s :=
      p.name.text_ne (by fin_cases hs <;> decide)
    exact fun h => hne _ h rfl
  have hremark : expect "// Stage " (p.name.text.toList ++ (t.toList ++ rest)) = none :=
    expect_of_letter ⟨_, _, rfl, rfl⟩ p.name.exists_letter _
  rw [htext, String.toList_append, List.append_assoc]
  simp only [read, expect_append, hremark, word_append p.name.isWord_text ht, if_neg hkeyword,
    Option.bind_eq_bind, Option.bind_some]

theorem Stmt.read_append {s : Stmt} (hs : s.bracketed) (hfinite : s.finite) :
    Stmt.read (s.text.toList ++ rest) = some (s, rest) := by
  cases s with
  | bind n e =>
    have htext : (bind n e).text.toList ++ rest = "    ".toList ++ ("let".toList ++ (" ".toList ++
        (n.text.toList ++ (" = ".toList ++ (e.text.toList ++ (";\n".toList ++ rest)))))) := by
      simp [text]
    rw [htext, read_keyword (by decide) (endsWord_append rfl _), readBehind,
      definition_append n hs hfinite]
    rfl
  | declare n e =>
    have htext : (declare n e).text.toList ++ rest = "    ".toList ++ ("var".toList ++
        (" ".toList ++ (n.text.toList ++ (" = ".toList ++ (e.text.toList ++
          (";\n".toList ++ rest)))))) := by
      simp [text]
    rw [htext, read_keyword (by decide) (endsWord_append rfl _), readBehind,
      definition_append n hs hfinite]
    rfl
  | assign p e =>
    have htext : (assign p e).text.toList ++ rest = "    ".toList ++ (p.text.toList ++
        (" = ".toList ++ (e.text.toList ++ (";\n".toList ++ rest)))) := by
      simp [text]
    have hplace := p.read_append
      (endsWord_append (s := " = ") rfl (e.text.toList ++ (";\n".toList ++ rest))) (by simp)
    have hread := Expr.read_append hs hfinite (endsExpression_semicolon rest)
    rw [htext, read_assignment p (endsWord_append rfl _)]
    simp only [assignment, hplace, expect_append, hread, Option.bind_eq_bind, Option.bind_some]
    rfl
  | addAssign p e =>
    have htext : (addAssign p e).text.toList ++ rest = "    ".toList ++ (p.text.toList ++
        (" += ".toList ++ (e.text.toList ++ (";\n".toList ++ rest)))) := by
      simp [text]
    have hplace := p.read_append
      (endsWord_append (s := " += ") rfl (e.text.toList ++ (";\n".toList ++ rest))) (by simp)
    have hsign : expect " = " (" += ".toList ++ (e.text.toList ++ (";\n".toList ++ rest))) = none :=
      expect_differ rfl _
    have hread := Expr.read_append hs hfinite (endsExpression_semicolon rest)
    rw [htext, read_assignment p (endsWord_append rfl _)]
    simp only [assignment, hplace, hsign, expect_append, hread, Option.bind_eq_bind,
      Option.bind_some]
    rfl
  | discardIf e =>
    have htext : (discardIf e).text.toList ++ rest = "    ".toList ++ ("if".toList ++
        (" ".toList ++ (e.text.toList ++
          (" \x7b\n        discard;\n    \x7d\n".toList ++ rest)))) := by
      simp [text]
    have hread := Expr.read_append hs hfinite
      (endsExpression_append (s := " \x7b\n        discard;\n    \x7d\n") rfl rfl rest)
    rw [htext, read_keyword (by decide) (endsWord_append rfl _), readBehind]
    simp only [expect_append, hread, Option.bind_eq_bind, Option.bind_some]
    rfl
  | «return» e =>
    have htext : (Stmt.return e).text.toList ++ rest = "    ".toList ++ ("return".toList ++
        (" ".toList ++ (e.text.toList ++ (";\n".toList ++ rest)))) := by
      simp [text]
    have hread := Expr.read_append hs hfinite (endsExpression_semicolon rest)
    rw [htext, read_keyword (by decide) (endsWord_append rfl _), readBehind]
    simp only [expect_append, hread, Option.bind_eq_bind, Option.bind_some]
    rfl
  | remark k =>
    have htext : (remark k).text.toList ++ rest = "    ".toList ++ ("// Stage ".toList ++
        ((toString k).toList ++ ("\n".toList ++ rest))) := by
      simp [text]
    have hnatural := natural_append k (endsWord_append (s := "\n") rfl rest)
    rw [htext]
    simp only [read, readRemark, expect_append, hnatural, Option.bind_eq_bind, Option.bind_some]
    rfl

end Statements

/-! ### Declarations -/

section Declarations

variable {rest : List Char}

/-- The types without elements. -/
theorem Ty.read_plain {t : Ty} (fuel : ℕ) (ht : Ty.read? t.text = some t)
    (hspelled : spelled t.text) (harray : t.text ≠ "array") (hrest : EndsName rest) :
    Ty.readWith (fuel + 1) (t.text.toList ++ rest) = some (t, rest) := by
  rw [readWith, name_append hspelled hrest]
  simp only [if_neg harray, ht, Option.bind_eq_bind, Option.bind_some]
  rfl

theorem Ty.expect_parameter (t : Ty) (cs : List Char) :
    expect "<f32>" ("<".toList ++ (t.text.toList ++ (", ".toList ++ cs))) = none := by
  -- only `f32` begins like a parameter, and as an element it has a comma behind it
  change expect "f32>" (t.text.toList ++ (", ".toList ++ cs)) = none
  cases t with
  | f32 => exact expect_differ (s := "f32, ") rfl cs
  | array e n =>
    simp only [text, String.toList_append, List.append_assoc]
    exact expect_differ rfl _
  | struct s => cases s <;> exact expect_differ rfl _
  | _ => exact expect_differ rfl _

theorem Ty.readWith_append (t : Ty) {fuel : ℕ} (hfuel : t.text.length < fuel)
    (hrest : EndsName rest) : Ty.readWith fuel (t.text.toList ++ rest) = some (t, rest) := by
  induction fuel generalizing t rest with
  | zero => exact absurd hfuel (Nat.not_lt_zero _)
  | succ fuel ih =>
    cases t with
    | struct s => cases s <;> exact read_plain fuel rfl rfl (by decide) hrest
    | array e n =>
      have htext : (array e n).text.toList ++ rest = "array".toList ++ ("<".toList ++
          (e.text.toList ++ (", ".toList ++ ((toString n).toList ++ (">".toList ++ rest))))) := by
        simp [text]
      have hlen := congrArg List.length htext
      simp only [List.length_append, String.length_toList] at hlen
      have hname := name_append (s := "array") rfl ⟨endsWord_append rfl _,
        e.expect_parameter ((toString n).toList ++ (">".toList ++ rest))⟩
      have hpos : 0 < "<".length := by decide
      have helement := ih e (by omega)
        (endsName_append (s := ", ") rfl rfl ((toString n).toList ++ (">".toList ++ rest)))
      have hsize := natural_append n (endsWord_append (s := ">") rfl rest)
      rw [htext, readWith, hname]
      simp only [if_true, expect_append, helement, hsize, Option.bind_eq_bind, Option.bind_some]
      rfl
    | _ => exact read_plain fuel rfl rfl (by decide) hrest

theorem Ty.read_append (t : Ty) (hrest : EndsName rest) :
    Ty.read (t.text.toList ++ rest) = some (t, rest) := by
  refine t.readWith_append ?_ hrest
  rw [List.length_append, String.length_toList]
  omega

theorem StructName.isWord_text (s : StructName) : s.text.toList.all isWord := by
  cases s <;> rfl

theorem Link.read_append (l : Link) {n : String} (hletter : ∃ c cs, n.toList = c :: cs ∧ c.isAlpha)
    (cs : List Char) :
    Link.read (l.text.toList ++ (n.toList ++ cs)) = some (l, n.toList ++ cs) := by
  cases l with
  | none =>
    change Link.read (n.toList ++ cs) = _
    rw [read, expect_of_letter ⟨_, _, rfl, rfl⟩ hletter, expect_of_letter ⟨_, _, rfl, rfl⟩ hletter]
  | screen => rw [read, text, expect_append]
  | location i =>
    have htext : (location i).text.toList ++ (n.toList ++ cs) =
        "@location(".toList ++ ((toString i).toList ++ (") ".toList ++ (n.toList ++ cs))) := by
      simp [text]
    have hscreen : expect "@builtin(position) " ("@location(".toList ++
        ((toString i).toList ++ (") ".toList ++ (n.toList ++ cs)))) = .none :=
      expect_differ rfl _
    have hnumber := natural_append i (endsWord_append (s := ") ") rfl (n.toList ++ cs))
    rw [htext, read, hscreen]
    simp only [expect_append, hnumber, Option.bind_eq_bind, Option.bind_some]
    rfl

theorem MemberDecl.read_append (m : MemberDecl) :
    MemberDecl.read (m.text.toList ++ rest) = some (m, rest) := by
  have htext : m.text.toList ++ rest = "    ".toList ++ (m.link.text.toList ++
      (m.name.text.toList ++ (": ".toList ++ (m.type.text.toList ++ (",\n".toList ++ rest))))) := by
    simp only [text, String.toList_append, List.append_assoc]
  have hlink := m.link.read_append m.name.exists_letter
    (": ".toList ++ (m.type.text.toList ++ (",\n".toList ++ rest)))
  have hword := word_append m.name.isWord_text
    (endsWord_append (s := ": ") rfl (m.type.text.toList ++ (",\n".toList ++ rest)))
  have htype := m.type.read_append (endsName_append (s := ",\n") rfl rfl rest)
  rw [htext, read]
  simp only [expect_append, hlink, hword, m.name.read?_text, htype, Option.bind_eq_bind,
    Option.bind_some]
  rfl

theorem parameter_append (p : Ident × Ty) (hrest : EndsName rest) :
    parameter ((p.1.text ++ ": " ++ p.2.text).toList ++ rest) = some (p, rest) := by
  have hword := word_append p.1.isWord_text
    (endsWord_append (s := ": ") rfl (p.2.text.toList ++ rest))
  simp only [String.toList_append, List.append_assoc, parameter, hword, p.1.read?_text,
    expect_append, p.2.read_append hrest, Option.bind_eq_bind, Option.bind_some]
  rfl

theorem Entry.read_append (e : Entry) (cs : List Char) :
    Entry.read (e.text.toList ++ ("fn ".toList ++ cs)) = (e, "fn ".toList ++ cs) := by
  cases e with
  | none =>
    change Entry.read ("fn ".toList ++ cs) = _
    rw [read, expect_differ rfl, expect_differ rfl]
  | vertex => rw [read, text, expect_append]
  | fragment => rw [read, expect_differ rfl, text, expect_append]

/-- What begins neither with an attribute nor with the keyword of functions. -/
theorem Entry.expect_differ {w : String} (hvertex : differ w vertex.text)
    (hfragment : differ w fragment.text) (hnone : differ w "fn ") (e : Entry) (cs : List Char) :
    expect w (e.text.toList ++ ("fn ".toList ++ cs)) = .none := by
  cases e with
  | vertex => exact Shader.expect_differ hvertex _
  | fragment => exact Shader.expect_differ hfragment _
  | none => exact Shader.expect_differ hnone cs

namespace Decl

theorem read_struct (name : StructName) (members : List MemberDecl) :
    Decl.read ((struct name members).text.toList ++ rest) = some (struct name members, rest) := by
  have htext : (struct name members).text.toList ++ rest = "struct ".toList ++ (name.text.toList ++
      (" \x7b\n".toList ++ ((String.join (members.map MemberDecl.text)).toList ++
        ("\x7d\n".toList ++ rest)))) := by
    change ("struct " ++ name.text ++ " \x7b\n" ++ String.join (members.map MemberDecl.text) ++
      "\x7d\n").toList ++ rest = _
    simp only [String.toList_append, List.append_assoc]
  have hword := word_append name.isWord_text (endsWord_append (s := " \x7b\n") rfl
    ((String.join (members.map MemberDecl.text)).toList ++ ("\x7d\n".toList ++ rest)))
  have hstop : MemberDecl.read ("\x7d\n".toList ++ rest) = none := by
    rw [MemberDecl.read, expect_differ rfl]
    rfl
  have hmembers : items MemberDecl.read [] ((String.join (members.map MemberDecl.text)).toList ++
      ("\x7d\n".toList ++ rest)) = (members, "\x7d\n".toList ++ rest) :=
    items_append (fun _ => True) (fun m _ _ _ => m.read_append) (fun _ _ _ => trivial) trivial
      hstop []
  rw [htext, read, expect_append]
  simp only [readStruct, hword, name.read?_text, expect_append, hmembers, Option.bind_eq_bind,
    Option.bind_some]
  rfl

theorem read_global (group binding : ℕ) (uniform : Bool) (name : Ident) (type : Ty) :
    Decl.read ((global group binding uniform name type).text.toList ++ rest) =
      some (global group binding uniform name type, rest) := by
  let tail := name.text.toList ++ (": ".toList ++ (type.text.toList ++ (";\n".toList ++ rest)))
  have htext : (global group binding uniform name type).text.toList ++ rest = "@group(".toList ++
      ((toString group).toList ++ (") @binding(".toList ++ ((toString binding).toList ++
        (") var".toList ++ ((if uniform then "<uniform>" else "").toList ++
          (" ".toList ++ tail)))))) := by
    change ("@group(" ++ toString group ++ ") @binding(" ++ toString binding ++ ") var" ++
      (if uniform then "<uniform>" else "") ++ " " ++ name.text ++ ": " ++ type.text ++
        ";\n").toList ++ rest = _
    simp only [String.toList_append, List.append_assoc, tail]
  have hgroup := natural_append group (endsWord_append (s := ") @binding(") rfl
    ((toString binding).toList ++ (") var".toList ++
      ((if uniform then "<uniform>" else "").toList ++ (" ".toList ++ tail)))))
  have hbinding := natural_append binding (endsWord_append (s := ") var") rfl
    ((if uniform then "<uniform>" else "").toList ++ (" ".toList ++ tail)))
  have huniform : readUniform ((if uniform then "<uniform>" else "").toList ++
      (" ".toList ++ tail)) = (uniform, " ".toList ++ tail) := by
    cases uniform with
    | true => rw [if_pos rfl, readUniform, expect_append]
    | false =>
      change readUniform (" ".toList ++ tail) = _
      rw [readUniform, expect_differ rfl]
  have hword : word tail =
      (name.text, ": ".toList ++ (type.text.toList ++ (";\n".toList ++ rest))) :=
    word_append name.isWord_text (endsWord_append rfl _)
  have htype := type.read_append (endsName_append (s := ";\n") rfl rfl rest)
  have hstruct : expect "struct " ("@group(".toList ++ ((toString group).toList ++
      (") @binding(".toList ++ ((toString binding).toList ++ (") var".toList ++
        ((if uniform then "<uniform>" else "").toList ++ (" ".toList ++ tail))))))) = none :=
    expect_differ rfl _
  rw [htext, read, hstruct]
  simp only [readGlobal, hgroup, hbinding, huniform, hword, name.read?_text, htype, expect_append,
    Option.bind_eq_bind, Option.bind_some]
  rfl

theorem read_function (entry : Entry) (f : Fn) (params : List (Ident × Ty)) (result : Ty)
    {body : List Stmt} (hbody : body.all Stmt.bracketed) (hfinite : body.all Stmt.finite) :
    Decl.read ((function entry f params result body).text.toList ++ rest) =
      some (function entry f params result body, rest) := by
  rw [List.all_eq_true] at hbody hfinite
  let close := "\x7d\n".toList ++ rest
  let block := " \x7b\n".toList ++ ((String.join (body.map Stmt.text)).toList ++ close)
  let arrow := ") -> ".toList ++ (result.text.toList ++ block)
  let paramsText := ", ".intercalate (params.map fun p => p.1.text ++ ": " ++ p.2.text)
  have htext : (function entry f params result body).text.toList ++ rest =
      entry.text.toList ++ ("fn ".toList ++ (f.text.toList ++ ("(".toList ++
        (paramsText.toList ++ arrow)))) := by
    change (entry.text ++ "fn " ++ f.text ++ "(" ++ paramsText ++ ") -> " ++ result.text ++
      " \x7b\n" ++ String.join (body.map Stmt.text) ++ "\x7d\n").toList ++ rest = _
    simp only [String.toList_append, List.append_assoc, close, block, arrow]
  have hname := name_append f.spelled_text
    (endsName_append (s := "(") rfl rfl (paramsText.toList ++ arrow))
  have hnone : parameter arrow = none := by
    have hempty : Ident.read? "" = none := by decide
    have hword : word arrow = ("", arrow) :=
      word_append (s := "") rfl (endsWord_append (s := ") -> ") rfl _)
    rw [parameter, hword]
    simp only [hempty, Option.bind_eq_bind, Option.bind_none]
  have hparams : listed parameter (paramsText.toList ++ arrow) = (params, arrow) :=
    listed_append EndsName (fun p _ cs hcs => parameter_append p hcs)
      (fun cs => endsName_append rfl rfl cs) (endsName_append rfl rfl _) hnone (expect_differ rfl _)
  have hresult : Ty.read (result.text.toList ++ block) = some (result, block) :=
    result.read_append (endsName_append rfl rfl _)
  have hstop : Stmt.read close = none := by
    rw [Stmt.read, expect_differ rfl]
    rfl
  have hbody : items Stmt.read [] ((String.join (body.map Stmt.text)).toList ++ close) =
      (body, close) :=
    items_append (fun _ => True) (fun s hs cs _ => s.read_append (hbody s hs) (hfinite s hs))
      (fun _ _ _ => trivial) trivial hstop []
  have harrow : expect ") -> " arrow = some (result.text.toList ++ block) := expect_append _ _
  have hblock : expect " \x7b\n" block =
      some ((String.join (body.map Stmt.text)).toList ++ close) := expect_append _ _
  have hclose : expect "\x7d\n" close = some rest := expect_append _ _
  have hstruct : expect "struct " (entry.text.toList ++ ("fn ".toList ++ (f.text.toList ++
      ("(".toList ++ (paramsText.toList ++ arrow))))) = none :=
    Entry.expect_differ (by rfl) (by rfl) (by rfl) entry _
  have hglobal : expect "@group(" (entry.text.toList ++ ("fn ".toList ++ (f.text.toList ++
      ("(".toList ++ (paramsText.toList ++ arrow))))) = none :=
    Entry.expect_differ (by rfl) (by rfl) (by rfl) entry _
  rw [htext, read, hstruct, hglobal]
  simp only [readFunction, entry.read_append, hname, f.read?_text, hparams, harrow, hresult,
    hblock, hbody, hclose, expect_append, Option.bind_eq_bind, Option.bind_some]
  rfl

end Decl

/-- Whether the statements of a declaration are read as they are. -/
def Decl.readable (d : Decl) : Prop :=
  ∀ f ∈ d.functions, f.body.all Stmt.bracketed ∧ f.body.all Stmt.finite

theorem Decl.read_append {d : Decl} (hd : d.readable) :
    Decl.read (d.text.toList ++ rest) = some (d, rest) := by
  cases d with
  | struct name members => exact read_struct name members
  | global group binding uniform name type => exact read_global group binding uniform name type
  | function entry f params result body =>
    obtain ⟨hbody, hfinite⟩ := hd ⟨params, body⟩ (List.mem_singleton.2 rfl)
    exact read_function entry f params result hbody hfinite

end Declarations

/-! ### Sources -/

section Sources

variable {rest : List Char}

theorem items_decls {group : List Decl} (hgroup : ∀ d ∈ group, d.readable)
    (hrest : Decl.read rest = none) :
    items Decl.read [] ((String.join (group.map Decl.text)).toList ++ rest) = (group, rest) :=
  items_append (fun _ => True) (fun d hd _ _ => Decl.read_append (hgroup d hd))
    (fun _ _ _ => trivial) trivial hrest []

theorem Decl.read_line (cs : List Char) : Decl.read ("\n".toList ++ cs) = none := by
  have hentry : Entry.read ("\n".toList ++ cs) = (.none, "\n".toList ++ cs) := by
    rw [Entry.read, expect_differ rfl, expect_differ rfl]
  rw [read, expect_differ rfl, expect_differ rfl]
  simp only [readFunction, hentry]
  rw [expect_differ rfl]
  rfl

/-- The text of a source that has all its brackets is read as the source. -/
theorem Source.read?_text {src : Source} (hne : src ≠ []) (hbracketed : src.bracketed)
    (hfinite : src.finite) : Source.read? src.text = some src := by
  have hreadable (group : List Decl) (hgroup : group ∈ src) (d : Decl) (hd : d ∈ group) :
      d.readable := by
    intro f hf
    have hmem : f ∈ src.functions :=
      List.mem_flatMap.2 ⟨d, List.mem_flatten.2 ⟨group, hgroup, hd⟩, hf⟩
    exact ⟨List.all_eq_true.1 hbracketed f hmem, List.all_eq_true.1 hfinite f hmem⟩
  obtain ⟨group, groups, rfl⟩ := List.exists_cons_of_ne_nil hne
  obtain ⟨hgroup, hgroups⟩ := List.forall_mem_cons.1 hreadable
  let groupText (g : List Decl) := "\n" ++ String.join (g.map Decl.text)
  have htext : (Source.text (group :: groups)).toList =
      (String.join (group.map Decl.text)).toList ++
        ((String.join (groups.map groupText)).toList ++ []) := by
    rw [text, List.map_cons, intercalate_cons, String.toList_append, List.map_map, List.append_nil]
    rfl
  have hread (g : List Decl) (hg : g ∈ groups) (cs : List Char) (hcs : Decl.read cs = none) :
      readGroup ((groupText g).toList ++ cs) = some (g, cs) := by
    rw [String.toList_append, List.append_assoc, readGroup, expect_append, Option.map_some,
      items_decls (hgroups g hg) hcs]
  -- no declaration begins with the empty line before the next group
  have hlines (g : List Decl) (cs : List Char) : Decl.read ((groupText g).toList ++ cs) = none := by
    rw [String.toList_append, List.append_assoc]
    exact Decl.read_line _
  have hstop : Decl.read ((String.join (groups.map groupText)).toList ++ []) = none := by
    cases groups with
    | nil => decide
    | cons g groups =>
      rw [List.map_cons, String.join_cons, String.toList_append, List.append_assoc]
      exact hlines g _
  have hrest : items readGroup [group] ((String.join (groups.map groupText)).toList ++ []) =
      (group :: groups, []) :=
    items_append (fun cs => Decl.read cs = none) hread (fun g _ cs => hlines g cs) rfl rfl [group]
  rw [read?, htext, items_decls hgroup hstop]
  simp only [hrest]
  rfl

end Sources

/-! ### Shaders -/

section Shaders

variable {p : Program}

theorem read?_vertexShader (p : Program) :
    Source.read? (vertexShader p).text = some (vertexShader p) :=
  Source.read?_text (List.cons_ne_nil _ _) (bracketed_vertexShader p) (finite_vertexShader p)

theorem read?_fragmentShader (h : p.Finite) :
    Source.read? (fragmentShader p).text = some (fragmentShader p) :=
  Source.read?_text (List.cons_ne_nil _ _) (bracketed_fragmentShader p) (finite_fragmentShader h)

/-- The last function of a fragment shader is the only entry. -/
theorem entryBody?_fragmentShader (h : p.Finite) :
    entryBody? .fragment (fragmentShader p).text = some (fragmentBody p) := by
  have hcommon : (common p).flatten.findSome? (Decl.entryBody? .fragment) = none := rfl
  have htextures : (textureDecls p).findSome? (Decl.entryBody? .fragment) = none := by
    rw [List.findSome?_eq_none_iff]
    intro d hd
    obtain ⟨t, -, ht⟩ := List.mem_flatMap.1 hd
    fin_cases ht <;> rfl
  have htextures' : (if p.textures.isEmpty then [] else [textureDecls p]).flatten.findSome?
      (Decl.entryBody? .fragment) = none := by
    split_ifs <;> simp [htextures]
  rw [entryBody?, read?_fragmentShader h, Option.bind_some, fragmentShader]
  simp only [List.flatten_append, List.findSome?_append, hcommon, htextures', Option.none_or]
  rfl

theorem Source.text_concat {src : Source} (hne : src ≠ []) (group : List Decl) :
    Source.text (src ++ [group]) = src.text ++ "\n" ++ String.join (group.map Decl.text) := by
  obtain ⟨g, gs, rfl⟩ := List.exists_cons_of_ne_nil hne
  rw [List.cons_append, text, text, List.map_cons, List.map_cons, intercalate_cons,
    intercalate_cons, List.map_append, List.map_append, String.join_append]
  simp [String.append_assoc]

/-- The text of a fragment shader ends with the statements of its body. -/
theorem text_fragmentShader (p : Program) : ∃ before, (fragmentShader p).text =
    before ++ "@fragment\nfn fs_main(in: VertexOutput) -> FragmentOutput \x7b\n" ++
      String.join ((fragmentBody p).map Stmt.text) ++ "\x7d\n" := by
  let entry : List Decl := [.function .fragment .fragmentMain [(.input, .struct .vertexOutput)]
    (.struct .fragmentOutput) (fragmentBody p)]
  obtain ⟨src, hne, hsplit⟩ : ∃ src : Source, src ≠ [] ∧ fragmentShader p = src ++ [entry] := by
    refine ⟨common p ++ (if p.textures.isEmpty then [] else [textureDecls p]) ++ overflowDecls ++
      [[.struct .fragmentOutput [located 0 .color .vec4]]], List.cons_ne_nil _ _, ?_⟩
    rw [List.append_assoc _ _ [entry]]
    rfl
  have hentry : String.join (entry.map Decl.text) =
      "@fragment\nfn fs_main(in: VertexOutput) -> FragmentOutput \x7b\n" ++
        String.join ((fragmentBody p).map Stmt.text) ++ "\x7d\n" := by
    rw [List.map_singleton, String.join_cons, String.join_nil, String.append_empty]
    change "@fragment\n" ++ "fn " ++ "fs_main" ++ "(" ++ ("in" ++ ": " ++ "VertexOutput") ++
      ") -> " ++ "FragmentOutput" ++ " \x7b\n" ++ String.join ((fragmentBody p).map Stmt.text) ++
        "\x7d\n" = _
    simp only [← String.append_assoc]
    rfl
  refine ⟨src.text ++ "\n", ?_⟩
  rw [hsplit, Source.text_concat hne, hentry]
  simp only [String.append_assoc]

end Shaders
end Shader

open Shader

section Materials

variable {o : Omissions} {m : Material} {c : Compiled}

/-- The texts of a material that compiles are read as its shaders. -/
theorem Material.read?_of_compile (h : m.compile o = .ok c) :
    Source.read? c.vertexText = some (vertexShader c.program) ∧
      Source.read? c.fragmentText = some (fragmentShader c.program) :=
  ⟨read?_vertexShader c.program, read?_fragmentShader (finite_of_lower (compile_eq_ok h).1)⟩

/-- What the fragment shader of a material that compiles executes, by its text. -/
theorem Material.entryBody?_of_compile (h : m.compile o = .ok c) :
    entryBody? .fragment c.fragmentText = some (fragmentBody c.program) :=
  entryBody?_fragmentShader (finite_of_lower (compile_eq_ok h).1)

end Materials

end FixedFunction
