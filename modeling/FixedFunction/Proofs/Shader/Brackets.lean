import FixedFunction.Proofs.Shader.FragmentScope
import FixedFunction.Proofs.Shader.Reader
import FixedFunction.Proofs.Shader.VertexScope

/-!
# Shaders have all their brackets

Trees are written out without further brackets.  That the text of a tree is read as that tree, so
that what is said of the tree holds of the text, needs each operand to hold together more tightly
than the operator next to it.

**Results.**
* `bracketed_fragmentShader`, `bracketed_vertexShader`: this holds in both shaders of every program.
-/

namespace FixedFunction
namespace Shader

namespace Expr

/-- How tightly an expression holds together.  A number may start with a sign, and a point behind it
belongs to it. -/
def level : Expr → Nat
  | binary op _ _ => op.level
  | lit _ | int _ | not _ => 4
  | bool _ | var _ | member _ _ | swizzle _ _ | index _ _ | element _ _ | paren _ => 5
  | call0 _ | call1 _ _ | call2 _ _ _ | call3 _ _ _ _ | call4 _ _ _ _ _ => 5

/-- Whether an expression is a whole number.  An element with such a number is a constant one. -/
def isInt : Expr → Bool
  | int _ => true
  | _ => false

/-- Whether the text of an expression is read as the expression.  Sums and products associate to
the left, and other operators do not associate. -/
@[simp] def bracketed : Expr → Bool
  | lit _ | int _ | bool _ | var _ | call0 _ => true
  | member e _ | index e _ => e.level = 5 && e.bracketed
  | swizzle e cs => e.level = 5 && e.bracketed && !cs.isEmpty
  | element e i => e.level = 5 && e.bracketed && i.bracketed && !i.isInt
  | paren e | call1 _ e => e.bracketed
  | not e => 4 ≤ e.level && e.bracketed
  | binary op a b =>
    (op.level < a.level || op.level = a.level && 2 ≤ op.level) && op.level < b.level &&
      a.bracketed && b.bracketed
  | call2 _ a b => a.bracketed && b.bracketed
  | call3 _ a b c => a.bracketed && b.bracketed && c.bracketed
  | call4 _ a b c d => a.bracketed && b.bracketed && c.bracketed && d.bracketed

end Expr

/-- Whether the expression of a statement is read as it is. -/
def Stmt.bracketed : Stmt → Bool
  | bind _ e | declare _ e | assign _ e | addAssign _ e | discardIf e | .return e => e.bracketed
  | remark _ => true

/-- Whether this holds of all statements of a source. -/
def Source.bracketed (src : Source) : Bool :=
  src.functions.all fun f => f.body.all Stmt.bracketed

open Shader.Expr

section Fragment

theorem bracketed_planeCoord (c : Option UInt8) :
    (planeCoord c).level = 5 ∧ (planeCoord c).bracketed := by
  cases c <;> exact ⟨rfl, rfl⟩

theorem bracketed_indirectSample (s : IndirectSample) : (indirectSample s).bracketed := by
  cases hs : s.texture with
  | none =>
    rw [indirectSample, hs]
    rfl
  | some t => cases hc : s.coord <;> rw [indirectSample, hs, hc] <;> rfl

theorem bracketed_wrapped (k : Nat) (axis : Component) (w : Wrap) :
    (wrapped k axis w).bracketed := by
  cases w <;> rfl

theorem bracketed_baseCoord (k : Nat) (c : StageCoord) :
    (baseCoord k c).level = 5 ∧ (baseCoord k c).bracketed := by
  unfold baseCoord
  split
  case isTrue => exact ⟨rfl, by simp [bracketed_wrapped]⟩
  case isFalse => exact bracketed_planeCoord c.coord

theorem bracketed_offset (o : IndirectOffset) : 2 < (offset o).level ∧ (offset o).bracketed := by
  cases ho : o.texture <;> rw [offset, ho] <;> exact ⟨of_decide_eq_true rfl, rfl⟩

theorem bracketed_stageCoord (k : Nat) (c : StageCoord) : (stageCoord k c).bracketed := by
  obtain ⟨hlevel, hbase⟩ := bracketed_baseCoord k c
  unfold stageCoord
  split
  case h_1 o _ =>
    obtain ⟨hoffset, hbracketed⟩ := bracketed_offset o
    change ((2 < (baseCoord k c).level || _) && 2 < (offset o).level && (baseCoord k c).bracketed &&
      (offset o).bracketed) = true
    simp [hlevel, hbase, hoffset, hbracketed]
  case h_2 => exact hbase

theorem bracketed_rasterColor (r : Option RasterSource) :
    (rasterColor r).bracketed := by
  rcases r with _ | ⟨i⟩ | _ <;> rfl

theorem bracketed_operandPair (k : Nat) (s : Stage) (a b : Operand) :
    (operandPair k s a b).bracketed := by
  have hraster := bracketed_rasterColor s.raster
  have hcolor : (colorOperand k s.raster a).bracketed := by
    cases a with
    | register r t | texture t | rasterized t | konst i t =>
      cases t <;> simp [colorOperand, colorComponents, level, material, hraster]
    | constant x => rfl
  have halpha : (alphaOperand k s.raster b).bracketed := by
    cases b with
    | register r t | texture t | rasterized t | konst i t =>
      cases t <;> simp [alphaOperand, alphaComponent, level, material, hraster]
    | constant x => rfl
  simp [operandPair, hcolor, halpha]

theorem bracketed_combined (k : Nat) {cs : List Component} (hcs : cs ≠ []) {zero : Expr}
    (hzero : zero.bracketed) (h : Half) : (combined k cs zero h).bracketed := by
  obtain ⟨c, cs, rfl⟩ := List.exists_cons_of_ne_nil hcs
  unfold combined
  cases h.op with
  | add | sub => dsimp only; split_ifs <;> rfl
  | greater => dsimp only; split_ifs <;> simp [level, Operator.level, hzero]

theorem bracketed_stageStmts (k : Nat) (s : Stage) : (stageStmts k s).all Stmt.bracketed := by
  have hsample : (sampleStmts k s).all Stmt.bracketed := by
    unfold sampleStmts
    split
    case h_1 t c _ _ =>
      have hcoord := bracketed_stageCoord k c
      have hplane := (bracketed_planeCoord c.coord).2
      unfold coordStmts
      split_ifs <;> simp [Stmt.bracketed, hcoord, hplane] <;> rfl
    case h_2 => rfl
  have hoperands : (operandStmts k s).all Stmt.bracketed := by
    simp [operandStmts, Stmt.bracketed, bracketed_operandPair]
  have hwrites : (writeStmts k s).all Stmt.bracketed := by
    have hcolor : (combinedColor k s.color).bracketed := bracketed_combined k (by simp) rfl s.color
    have halpha : (combinedAlpha k s.alpha).bracketed := bracketed_combined k (by simp) rfl s.alpha
    simp [writeStmts, Stmt.bracketed, hcolor, halpha, level]
  simp [stageStmts, hsample, hoperands, hwrites, Stmt.bracketed]

theorem bracketed_discardStmts (c : AlphaCheck) : (discardStmts c).all Stmt.bracketed := by
  cases c with
  | keepAll | dropAll => rfl
  | compare logic a x b y => cases logic <;> cases a <;> cases b <;> rfl

theorem bracketed_fragmentBody (p : Program) : (fragmentBody p).all Stmt.bracketed :=
  all_fragmentBody p rfl (fun _ s _ => bracketed_indirectSample s)
    (fun i s _ => bracketed_stageStmts i s) (bracketed_discardStmts p.alphaCheck)

end Fragment

section Vertex

theorem bracketed_sourceColor (c : ColorOrigin) :
    (sourceColor c).level = 5 ∧ (sourceColor c).bracketed := by
  cases c <;> exact ⟨rfl, rfl⟩

theorem bracketed_channelValue (v : ChannelHalf) : (channelValue v).bracketed := by
  unfold channelValue
  split
  case h_1 ambient _ => cases ambient <;> cases v.material <;> rfl
  case h_2 => exact (bracketed_sourceColor v.material).2

theorem bracketed_color (p : Program) (i : Nat) : (color p i).bracketed := by
  unfold color
  split
  case h_1 c _ =>
    unfold channelColor
    split_ifs <;> simp [level, bracketed_channelValue]
  case h_2 => rfl

theorem bracketed_coordSource (c : CoordSource) :
    (coordSource c).level = 5 ∧ (coordSource c).bracketed := by
  cases c <;> exact ⟨rfl, rfl⟩

theorem bracketed_coordTransformed (g : CoordGen) : (coordTransformed g).bracketed := by
  have hsource := bracketed_coordSource g.source
  unfold coordTransformed
  cases g.matrix with
  | identity => simp [hsource]
  | position i | texture i => simp [level, packet, material, hsource]

theorem bracketed_coord (g : CoordGen) : (coord g).bracketed := by
  have hplain : (coordPlain g).bracketed := by
    have hsource := bracketed_coordSource g.source
    unfold coordPlain
    cases g.kind with
    | srtg => simp [hsource]
    | mtx2x4 => simp [level, bracketed_coordTransformed]
    | mtx3x4 => exact bracketed_coordTransformed g
  have hnormalized : (coordNormalized g).bracketed := by
    unfold coordNormalized
    split_ifs <;> exact hplain
  unfold coord
  split
  case h_1 => simp [level, material, hnormalized]
  case h_2 => exact hnormalized

theorem bracketed_vertexBody (p : Program) : (vertexBody p).all Stmt.bracketed := by
  have hgens : (p.coordGens.mapIdx fun i g =>
      Stmt.assign (.member .output (.coord i)) (coord g)).all Stmt.bracketed := by
    refine List.all_eq_true.2 fun x hx => ?_
    obtain ⟨i, hi, rfl⟩ := List.mem_mapIdx.1 hx
    exact bracketed_coord _
  simp only [vertexBody, List.all_append, List.all_cons, Stmt.bracketed, bracketed_color, hgens]
  rfl

end Vertex

/-- Fragment shaders have all their brackets. -/
theorem bracketed_fragmentShader (p : Program) : (fragmentShader p).bracketed := by
  rw [Source.bracketed, functions_fragmentShader, List.all_append, Bool.and_eq_true]
  exact ⟨rfl, by simp [bracketed_fragmentBody]⟩

/-- Vertex shaders have all their brackets. -/
theorem bracketed_vertexShader (p : Program) : (vertexShader p).bracketed := by
  rw [Source.bracketed, functions_vertexShader, List.all_append, Bool.and_eq_true]
  exact ⟨rfl, by simp [bracketed_vertexBody]⟩

end Shader
end FixedFunction
