import FixedFunction.Shader.Printer
import Mathlib.Data.List.Basic

/-!
# Names in shader texts

A name in a text has at most one number in it.  So it can be read back from its letters and from
its digits, and two variables, or two members, never have the same name.

**Results.**
* `Ident.text_injective`, `Member.text_injective`: different names are different texts.
-/

namespace FixedFunction
namespace Shader

/-- The characters of a name that are not digits. -/
def nameLetters (s : String) : String :=
  String.ofList (s.toList.filter fun c => !c.isDigit)

/-- The number that the digits of a name make. -/
def nameNumber (s : String) : Nat :=
  Nat.ofDigitChars 10 (s.toList.filter Char.isDigit) 0

theorem isDigit_of_mem_repr (k : Nat) : ∀ c ∈ k.repr.toList, c.isDigit := by
  intro c hc
  rw [Nat.toList_repr] at hc
  exact Nat.isDigit_of_mem_toDigits (by decide) (by decide) hc

theorem nameLetters_append (s t : String) :
    nameLetters (s ++ t) = nameLetters s ++ nameLetters t := by
  simp [nameLetters]

theorem nameLetters_repr (k : Nat) : nameLetters k.repr = "" := by
  simpa [nameLetters] using isDigit_of_mem_repr k

theorem nameNumber_append_repr (s : String) (k : Nat)
    (hs : s.toList.filter Char.isDigit = []) : nameNumber (s ++ k.repr) = k := by
  have h := List.filter_eq_self.2 (isDigit_of_mem_repr k)
  rw [nameNumber, String.toList_append, List.filter_append, hs, h, List.nil_append,
    Nat.toList_repr, Nat.ofDigitChars_ten_toDigits]

theorem nameNumber_append (s t : String) (ht : t.toList.filter Char.isDigit = []) :
    nameNumber (s ++ t) = nameNumber s := by
  rw [nameNumber, String.toList_append, List.filter_append, ht, List.append_nil, nameNumber]

theorem nameLetters_append_repr (s : String) (k : Nat) :
    nameLetters (s ++ k.repr) = nameLetters s := by
  rw [nameLetters_append, nameLetters_repr, String.append_empty]

namespace Ident

/-- The variable whose name has the given letters and the given number. -/
def ofParts (letters : String) (k : Nat) : Ident :=
  if letters = "u_scene" then scene
  else if letters = "u_material" then material
  else if letters = "u_packet" then packet
  else if letters = "in" then input
  else if letters = "out" then output
  else if letters = "pos_mtx" then positionMatrix
  else if letters = "t_position" then transformed
  else if letters = "t_color_prev" then register .prev
  else if letters = "t_color" then
    register (if k = 0 then .reg0 else if k = 1 then .reg1 else .reg2)
  else if letters = "t_tex_coord" then coord
  else if letters = "t_tex_coord_base" then coordBase k
  else if letters = "t_tex" then sample k
  else if letters = "t_tev_a" then operand k .a
  else if letters = "t_tev_b" then operand k .b
  else if letters = "t_tev_c" then operand k .c
  else if letters = "t_tev_d" then operand k .d
  else if letters = "t_ind_tex_coord" then indirect k
  else if letters = "r_texture" then texture k.toUInt8
  else if letters = "r_sampler" then sampler k.toUInt8
  else if letters = "m" then matrixArg
  else if letters = "v" then vectorArg
  else scalarArg

/-- The variable with the given name. -/
def ofText (s : String) : Ident :=
  ofParts (nameLetters s) (nameNumber s)

theorem ofText_append_repr (s : String) (k : Nat) (hs : s.toList.filter Char.isDigit = []) :
    ofText (s ++ k.repr) = ofParts (nameLetters s) k := by
  rw [ofText, nameLetters_append_repr, nameNumber_append_repr s k hs]

theorem ofText_operand (k : Nat) (i : StageInput) : ofText (operand k i).text = operand k i := by
  have hdigits : i.text.toList.filter Char.isDigit = [] := by cases i <;> rfl
  have hletters : nameLetters (operand k i).text = "t_tev_" ++ nameLetters i.text := by
    change nameLetters ("t_tev" ++ k.repr ++ "_" ++ i.text) = _
    rw [nameLetters_append, nameLetters_append, nameLetters_append_repr]
    rfl
  have hnumber : nameNumber (operand k i).text = k := by
    change nameNumber ("t_tev" ++ k.repr ++ "_" ++ i.text) = _
    rw [nameNumber_append _ _ hdigits, nameNumber_append _ _ (by decide),
      nameNumber_append_repr _ _ (by decide)]
  rw [ofText, hletters, hnumber]
  cases i <;> simp [nameLetters, StageInput.text, ofParts]

theorem ofText_text (n : Ident) : ofText n.text = n := by
  have hnumbered (s : String) (k : Nat) (hs : s.toList.filter Char.isDigit = []) :=
    ofText_append_repr s k hs
  cases n with
  | register r => cases r <;> rfl
  | coordBase k => exact (hnumbered "t_tex_coord_base" k (by decide)).trans (by
      simp [nameLetters, ofParts])
  | sample k => exact (hnumbered "t_tex" k (by decide)).trans (by simp [nameLetters, ofParts])
  | operand k i => exact ofText_operand k i
  | indirect k => exact (hnumbered "t_ind_tex_coord" k (by decide)).trans (by
      simp [nameLetters, ofParts])
  | texture t => exact (hnumbered "r_texture" t.toNat (by decide)).trans (by
      simp [nameLetters, ofParts])
  | sampler t => exact (hnumbered "r_sampler" t.toNat (by decide)).trans (by
      simp [nameLetters, ofParts])
  | _ => rfl

/-- Different variables have different names. -/
theorem text_injective : Function.Injective text :=
  Function.LeftInverse.injective ofText_text

end Ident

namespace Member

/-- The member whose name has the given letters and the given number. -/
def ofParts (letters : String) (k : Nat) : Member :=
  if letters = "mx" then mx
  else if letters = "my" then my
  else if letters = "mz" then mz
  else if letters = "projection" then projection
  else if letters = "misc" then misc0
  else if letters = "color_mat_reg" then colorMatReg
  else if letters = "color_amb_reg" then colorAmbReg
  else if letters = "konst_color" then konstColor
  else if letters = "tex_mtx" then texMtx
  else if letters = "post_tex_mtx" then postTexMtx
  else if letters = "texture_params" then textureParams
  else if letters = "ind_tex_mtx" then indTexMtx
  else if letters = "pos_mtx" then posMtx
  else if letters = "position" then position
  else if letters = "color" then channel k
  else if letters = "tex_coord" then coord k
  else if letters = "pn_mtx_idx" then pnMtxIdx
  else if letters = "normal" then normal
  else if letters = "binormal" then binormal
  else if letters = "tangent" then tangent
  else tex k

/-- The member with the given name.  Of the color of a fragment there is only one, so that it has
no number. -/
def ofText (s : String) : Member :=
  if s = "color" then color else ofParts (nameLetters s) (nameNumber s)

theorem ofText_append_repr (s : String) (k : Nat) (hs : s.toList.filter Char.isDigit = []) :
    ofText (s ++ k.repr) = ofParts (nameLetters s) k := by
  have hcolor : s ++ k.repr ≠ "color" := by
    intro h
    have hdigits := congrArg (fun t => t.toList.filter Char.isDigit) h
    rw [String.toList_append, List.filter_append, hs,
      List.filter_eq_self.2 (isDigit_of_mem_repr k), Nat.toList_repr] at hdigits
    exact Nat.toDigits_ne_nil hdigits
  rw [ofText, if_neg hcolor, nameLetters_append_repr, nameNumber_append_repr s k hs]

theorem ofText_text (m : Member) : ofText m.text = m := by
  cases m with
  | channel i => exact (ofText_append_repr "color" i (by decide)).trans (by
      simp [nameLetters, ofParts])
  | coord i => exact (ofText_append_repr "tex_coord" i (by decide)).trans (by
      simp [nameLetters, ofParts])
  | tex i => exact (ofText_append_repr "tex" i (by decide)).trans (by
      simp [nameLetters, ofParts])
  | _ => rfl

/-- Different members have different names. -/
theorem text_injective : Function.Injective text :=
  Function.LeftInverse.injective ofText_text

end Member
end Shader
end FixedFunction
