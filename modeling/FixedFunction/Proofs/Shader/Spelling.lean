import FixedFunction.Proofs.Shader.Reader
import Mathlib.Tactic.FinCases

/-!
# The parts of a shader text

**Input.**  A text that begins with a part of a shader: a symbol, a list, a number or a name.

**Results.**
* `items_append`, `listed_append`: a list is read item by item.
* `word_append`, `name_append`, `natural_append`: words, names and numbers are read up to something
  else.
-/

namespace FixedFunction
namespace Shader

/-! ### Characters -/

section Characters

variable {α : Type} {rest : List Char}

theorem expect_append (s : String) (rest : List Char) :
    expect s (s.toList ++ rest) = some rest := by
  rw [expect, List.dropPrefix?_eq_some_iff]
  exact ⟨s.toList, rfl, beq_self_eq_true _⟩

/-- Whether two texts differ before one of them ends. -/
def differ (s t : String) : Bool :=
  (s.toList.zip t.toList).any fun p => p.1 ≠ p.2

theorem expect_differ {w s : String} (h : differ w s) (rest : List Char) :
    expect w (s.toList ++ rest) = none := by
  have hlists (l m : List Char) (h : (l.zip m).any fun p => p.1 ≠ p.2) :
      (m ++ rest).dropPrefix? l = none := by
    induction l generalizing m with
    | nil => exact absurd h (by simp)
    | cons c l ih =>
      cases m with
      | nil => exact absurd h (by simp)
      | cons d m =>
        by_cases hcd : c = d
        · subst hcd
          simpa [List.dropPrefix?] using ih m (by simpa using h)
        · simp [List.dropPrefix?, Ne.symm hcd]
  exact hlists _ _ h

section Iterate

variable {step : α → List Char → Option (α × List Char)} {a b : α} {cs cs' : List Char}

theorem iterate_stop (h : step a cs = none) (fuel : ℕ) : iterate step fuel a cs = (a, cs) := by
  cases fuel with
  | zero => rfl
  | succ fuel => rw [iterate, h]

theorem iterate_succ (h : step a cs = some (b, cs')) (fuel : ℕ) :
    iterate step (fuel + 1) a cs = iterate step fuel b cs' := by
  rw [iterate, h]

end Iterate

section Items

variable {item : List Char → Option (α × List Char)} {text : α → String}

/-- Items are read one after another, if each is read before what may follow it. -/
theorem iterate_items {as : List α} (follows : List Char → Prop)
    (hread : ∀ a ∈ as, ∀ cs, follows cs → item ((text a).toList ++ cs) = some (a, cs))
    (hfollows : ∀ a ∈ as, ∀ cs, follows ((text a).toList ++ cs))
    (hrest : follows rest) (hstop : item rest = none) {fuel : ℕ} (hfuel : as.length ≤ fuel)
    (front : List α) :
    iterate (fun front cs => (item cs).map fun r => (front ++ [r.1], r.2)) fuel front
      ((String.join (as.map text)).toList ++ rest) = (front ++ as, rest) := by
  induction as generalizing fuel front with
  | nil => rw [iterate_stop] <;> simp [hstop]
  | cons a as ih =>
    obtain ⟨fuel, rfl⟩ := Nat.exists_eq_add_of_lt (Nat.lt_of_lt_of_le (Nat.succ_pos _) hfuel)
    have hcs : follows ((String.join (as.map text)).toList ++ rest) := by
      cases as with
      | nil => simpa using hrest
      | cons b as =>
        rw [List.map_cons, String.join_cons, String.toList_append, List.append_assoc]
        exact hfollows b (by simp) _
    have ha := hread a List.mem_cons_self _ hcs
    rw [List.map_cons, String.join_cons, String.toList_append, List.append_assoc, Nat.zero_add,
      iterate_succ (by rw [ha]; rfl), ih (fun x hx => hread x (.tail _ hx))
        (fun x hx => hfollows x (.tail _ hx)) (by simpa using hfuel)]
    simp

/-- Each item takes a character at least. -/
theorem length_le_join {as : List α} (h : ∀ a ∈ as, (text a).toList ≠ []) :
    as.length ≤ (String.join (as.map text)).toList.length := by
  induction as with
  | nil => exact Nat.zero_le _
  | cons a as ih =>
    obtain ⟨ha, has⟩ := List.forall_mem_cons.1 h
    have hpos := List.length_pos_iff.2 ha
    have hle := ih has
    rw [List.map_cons, String.join_cons, String.toList_append, List.length_append, List.length_cons]
    omega

theorem items_append {as : List α} (follows : List Char → Prop)
    (hread : ∀ a ∈ as, ∀ cs, follows cs → item ((text a).toList ++ cs) = some (a, cs))
    (hfollows : ∀ a ∈ as, ∀ cs, follows ((text a).toList ++ cs))
    (hrest : follows rest) (hstop : item rest = none) (front : List α) :
    items item front ((String.join (as.map text)).toList ++ rest) = (front ++ as, rest) := by
  have hne (a : α) (ha : a ∈ as) : (text a).toList ≠ [] := by
    intro hnil
    have := hread a ha rest hrest
    rw [hnil, List.nil_append, hstop] at this
    exact Option.some_ne_none _ this.symm
  refine iterate_items follows hread hfollows hrest hstop ?_ front
  rw [List.length_append]
  exact (length_le_join hne).trans (Nat.le_add_right _ _)

theorem intercalate_cons (sep s : String) (l : List String) :
    sep.intercalate (s :: l) = s ++ String.join (l.map (sep ++ ·)) := by
  induction l generalizing s with
  | nil => simp
  | cons t l ih =>
    rw [String.intercalate_cons_cons, ih, List.map_cons, String.join_cons]
    simp only [String.append_assoc]

theorem length_le_intercalate (sep : String) {s : String} {l : List String} (h : s ∈ l) :
    s.length ≤ (sep.intercalate l).length := by
  induction l with
  | nil => exact absurd h (by simp)
  | cons t l ih =>
    cases l with
    | nil =>
      obtain rfl := List.mem_singleton.1 h
      simp
    | cons u l =>
      rw [String.intercalate_cons_cons, String.length_append, String.length_append]
      rcases List.mem_cons.1 h with rfl | h
      · omega
      · have := ih h
        omega

/-- Items with commas between them are read up to something else. -/
theorem listed_append {as : List α} (follows : List Char → Prop)
    (hread : ∀ a ∈ as, ∀ cs, follows cs → item ((text a).toList ++ cs) = some (a, cs))
    (hcomma : ∀ cs, follows (", ".toList ++ cs)) (hrest : follows rest) (hstop : item rest = none)
    (hend : expect ", " rest = none) :
    listed item ((", ".intercalate (as.map text)).toList ++ rest) = (as, rest) := by
  cases as with
  | nil =>
    have hnil : (", ".intercalate (([] : List α).map text)).toList ++ rest = rest := by simp
    rw [hnil, listed, hstop]
  | cons a as =>
    have htext : ", ".intercalate ((a :: as).map text) =
        text a ++ String.join (as.map fun a => ", " ++ text a) := by
      rw [List.map_cons, intercalate_cons, List.map_map]
      rfl
    have hcs : follows ((String.join (as.map fun a => ", " ++ text a)).toList ++ rest) := by
      cases as with
      | nil => simpa using hrest
      | cons b as =>
        simp only [List.map_cons, String.join_cons, String.toList_append, List.append_assoc]
        exact hcomma _
    rw [htext, String.toList_append, List.append_assoc, listed,
      hread a List.mem_cons_self _ hcs]
    refine items_append follows ?_ ?_ hrest ?_ [a]
    · intro x hx cs h
      rw [String.toList_append, List.append_assoc, expect_append]
      exact hread x (.tail _ hx) cs h
    · intro x hx cs
      rw [String.toList_append, List.append_assoc]
      exact hcomma _
    · rw [hend]
      rfl

end Items

/-- Texts that do not go on a word. -/
def EndsWord (rest : List Char) : Prop :=
  ∀ c ∈ rest.head?, isWord c = false

theorem endsWord_append {s : String} (h : s.toList.head?.any fun c => !isWord c)
    (rest : List Char) : EndsWord (s.toList ++ rest) := by
  cases hs : s.toList with
  | nil => simp [hs] at h
  | cons c cs => simpa [EndsWord, hs] using h

/-- Texts that do not go on the name of a type or of a function. -/
structure EndsName (rest : List Char) : Prop where
  word : EndsWord rest
  parameter : expect "<f32>" rest = none

theorem endsName_append {s : String} (h : s.toList.head?.any fun c => !isWord c)
    (hparameter : differ "<f32>" s) (rest : List Char) : EndsName (s.toList ++ rest) :=
  ⟨endsWord_append h rest, expect_differ hparameter rest⟩

theorem word_append {s : String} (h : s.toList.all isWord) (hrest : EndsWord rest) :
    word (s.toList ++ rest) = (s, rest) := by
  rw [List.all_eq_true] at h
  rw [word, List.takeWhile_append_of_pos h, List.dropWhile_append_of_pos h]
  cases rest with
  | nil => simp
  | cons c rest => simp [hrest c rfl]

/-- Names of types and functions: words, some with a parameter. -/
def spelled (s : String) : Bool :=
  let w := s.toList.takeWhile isWord
  s.toList = w || s.toList = w ++ "<f32>".toList

theorem spelled_of_word {s : String} (h : s.toList.all isWord) : spelled s := by
  rw [List.all_eq_true] at h
  simp [spelled, List.takeWhile_eq_self_iff.2 h]

theorem name_append {s : String} (h : spelled s) (hrest : EndsName rest) :
    name (s.toList ++ rest) = (s, rest) := by
  have hword : (s.toList.takeWhile isWord).all isWord :=
    List.all_eq_true.2 fun c hc => List.mem_takeWhile_imp hc
  rw [spelled, Bool.or_eq_true, decide_eq_true_iff, decide_eq_true_iff] at h
  generalize s.toList.takeWhile isWord = w at h hword
  have hw : (String.ofList w).toList.all isWord := by rwa [String.toList_ofList]
  rcases h with h | h
  · obtain rfl : String.ofList w = s := by rw [← h, String.ofList_toList]
    rw [name, word_append hw hrest.word]
    simp only [hrest.parameter]
  · have hread := word_append hw (endsWord_append (s := "<f32>") rfl rest)
    rw [String.toList_ofList] at hread
    rw [h, List.append_assoc, name, hread]
    simp only [expect_append]
    congr 1
    rw [← String.toList_inj, String.toList_append, String.toList_ofList, h]

theorem natural_append (k : ℕ) (hrest : EndsWord rest) :
    natural ((toString k).toList ++ rest) = some (k, rest) := by
  have hdigit : ∀ c ∈ rest.head?, c.isDigit = false := by
    intro c hc
    have := hrest c hc
    simp_all [isWord, Char.isAlphanum]
  rw [natural]
  change (Json.digits (k.repr.toList ++ rest)).map _ = _
  rw [Nat.toList_repr, Decimal.digits_toDigits k hdigit, Option.map_some,
    Decimal.digitsValue_toDigits]

end Characters

/-! ### Names -/

section Names

theorem isWord_repr (k : ℕ) : k.repr.toList.all isWord := by
  rw [List.all_eq_true]
  intro c hc
  have := isDigit_of_mem_repr k c hc
  simp [isWord, Char.isAlphanum, this]

theorem isWord_append {s t : String} (hs : s.toList.all isWord) (ht : t.toList.all isWord) :
    (s ++ t).toList.all isWord := by
  rw [String.toList_append, List.all_append, hs, ht, Bool.and_self]

theorem Ident.isWord_text (n : Ident) : n.text.toList.all isWord := by
  have hnumbered (s : String) (k : ℕ) (hs : s.toList.all isWord) :
      (s ++ k.repr).toList.all isWord := isWord_append hs (isWord_repr k)
  cases n with
  | register r => cases r <;> rfl
  | coordBase k => exact hnumbered "t_tex_coord_base" k rfl
  | sample k => exact hnumbered "t_tex" k rfl
  | operand k i =>
    have hinput : i.text.toList.all isWord := by cases i <;> rfl
    exact isWord_append (isWord_append (hnumbered "t_tev" k rfl) rfl) hinput
  | indirect k => exact hnumbered "t_ind_tex_coord" k rfl
  | texture t => exact hnumbered "r_texture" t.toNat rfl
  | sampler t => exact hnumbered "r_sampler" t.toNat rfl
  | _ => rfl

theorem Member.isWord_text (m : Member) : m.text.toList.all isWord := by
  cases m with
  | channel i => exact isWord_append (s := "color") rfl (isWord_repr i)
  | coord i => exact isWord_append (s := "tex_coord") rfl (isWord_repr i)
  | tex i => exact isWord_append (s := "tex") rfl (isWord_repr i)
  | _ => rfl

theorem Ident.read?_text (n : Ident) : Ident.read? n.text = some n := by
  rw [read?, ofText_text, if_pos rfl]

theorem Member.read?_text (m : Member) : Member.read? m.text = some m := by
  rw [read?, ofText_text, if_pos rfl]

theorem StructName.read?_text (s : StructName) : StructName.read? s.text = some s := by
  cases s <;> rfl

theorem Fn.read?_text (f : Fn) : Fn.read? f.text = some f := by
  cases f with
  | new s => cases s <;> rfl
  | _ => rfl

theorem Fn.spelled_text (f : Fn) : spelled f.text := by
  cases f with
  | new s => cases s <;> decide
  | _ => decide

/-- The letters of components are read as the components. -/
theorem mapM_read?_components (cs : List Component) :
    (String.join (cs.map Component.text)).toList.mapM Component.read? = some cs := by
  induction cs with
  | nil => simp
  | cons c cs ih =>
    rw [List.map_cons, String.join_cons, String.toList_append]
    have hc : ∃ x, c.text.toList = [x] ∧ Component.read? x = some c := by
      cases c <;> exact ⟨_, rfl, rfl⟩
    obtain ⟨x, hx, hread⟩ := hc
    rw [hx, List.singleton_append, List.mapM_cons, hread, ih]
    rfl

theorem isWord_components (cs : List Component) :
    (String.join (cs.map Component.text)).toList.all isWord := by
  induction cs with
  | nil => simp
  | cons c cs ih =>
    have hc : c.text.toList.all isWord := by cases c <;> rfl
    rw [List.map_cons, String.join_cons]
    exact isWord_append hc ih

theorem exists_letter_append {s : String} (t : String)
    (h : ∃ c cs, s.toList = c :: cs ∧ c.isAlpha) :
    ∃ c cs, (s ++ t).toList = c :: cs ∧ c.isAlpha := by
  obtain ⟨c, cs, hcons, hc⟩ := h
  exact ⟨c, cs ++ t.toList, by rw [String.toList_append, hcons, List.cons_append], hc⟩

/-- Names begin with a letter. -/
theorem Ident.exists_letter (n : Ident) : ∃ c cs, n.text.toList = c :: cs ∧ c.isAlpha := by
  cases n with
  | register r => cases r <;> exact ⟨_, _, rfl, rfl⟩
  | coordBase k => exact exists_letter_append (s := "t_tex_coord_base") k.repr ⟨_, _, rfl, rfl⟩
  | sample k => exact exists_letter_append (s := "t_tex") k.repr ⟨_, _, rfl, rfl⟩
  | operand k i =>
    exact exists_letter_append i.text (exists_letter_append "_"
      (exists_letter_append (s := "t_tev") k.repr ⟨_, _, rfl, rfl⟩))
  | indirect k => exact exists_letter_append (s := "t_ind_tex_coord") k.repr ⟨_, _, rfl, rfl⟩
  | texture t => exact exists_letter_append (s := "r_texture") t.toNat.repr ⟨_, _, rfl, rfl⟩
  | sampler t => exact exists_letter_append (s := "r_sampler") t.toNat.repr ⟨_, _, rfl, rfl⟩
  | _ => exact ⟨_, _, rfl, rfl⟩

theorem Member.exists_letter (m : Member) : ∃ c cs, m.text.toList = c :: cs ∧ c.isAlpha := by
  cases m with
  | channel i => exact exists_letter_append (s := "color") i.repr ⟨_, _, rfl, rfl⟩
  | coord i => exact exists_letter_append (s := "tex_coord") i.repr ⟨_, _, rfl, rfl⟩
  | tex i => exact exists_letter_append (s := "tex") i.repr ⟨_, _, rfl, rfl⟩
  | _ => exact ⟨_, _, rfl, rfl⟩

theorem Fn.exists_letter (f : Fn) : ∃ c cs, f.text.toList = c :: cs ∧ c.isAlpha := by
  cases f with
  | new s => cases s <;> exact ⟨_, _, rfl, rfl⟩
  | _ => exact ⟨_, _, rfl, rfl⟩

/-- Where a name stands there is no symbol. -/
theorem expect_of_letter {w s : String} (hw : ∃ c cs, w.toList = c :: cs ∧ c.isAlpha = false)
    (hs : ∃ c cs, s.toList = c :: cs ∧ c.isAlpha) (rest : List Char) :
    expect w (s.toList ++ rest) = none := by
  obtain ⟨c, cs, hcons, hc⟩ := hs
  obtain ⟨c', cs', hcons', hc'⟩ := hw
  have hne : c' ≠ c := by
    rintro rfl
    exact absurd hc (by rw [hc']; decide)
  refine expect_differ ?_ rest
  simp [differ, hcons, hcons', hne]

/-- No variable is a keyword. -/
theorem Ident.text_ne (n : Ident) {s : String} (h : (ofText s).text ≠ s) : n.text ≠ s := by
  rintro rfl
  rw [ofText_text] at h
  exact h rfl

/-- No member has a name that is made of components. -/
theorem Member.mapM_read?_text (m : Member) : m.text.toList.mapM Component.read? = none := by
  have hnumbered (s : String) (k : ℕ) (hs : ∃ x xs, s.toList = x :: xs ∧ Component.read? x = none) :
      (s ++ k.repr).toList.mapM Component.read? = none := by
    obtain ⟨x, xs, hx, hread⟩ := hs
    rw [String.toList_append, hx, List.cons_append, List.mapM_cons, hread]
    rfl
  cases m with
  | channel i => exact hnumbered "color" i ⟨_, _, rfl, rfl⟩
  | coord i => exact hnumbered "tex_coord" i ⟨_, _, rfl, rfl⟩
  | tex i => exact hnumbered "tex" i ⟨_, _, rfl, rfl⟩
  | _ => rfl

end Names

end Shader
end FixedFunction
