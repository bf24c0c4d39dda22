import FixedFunction.Program.Compile
import FixedFunction.Proofs.Shader.FragmentScope
import FixedFunction.Proofs.Shader.VertexScope

/-!
# Numbers in shaders

A number that is infinite or not a number has no text.

**Input.**  A program.  The numbers that its settings bring into the fragment shader are the
literals, which are checked before the shader is written, and the moduli of wraps, which are not.

**Results.**
* `Program.texts_eq_ok_iff`: the two shaders are written exactly if all literals are finite.
* `finite_fragmentShader`, `finite_vertexShader`: if the moduli are finite too, then no number in
  the shaders is without a text.
-/

namespace FixedFunction

section Defs

open Shader

/-- Whether all numbers of an expression are finite. -/
@[simp] def Shader.Expr.finite : Expr → Bool
  | .lit x => x.isFinite
  | .int _ | .bool _ | .var _ | .call0 _ => true
  | .member e _ | .swizzle e _ | .index e _ | .paren e | .not e | .call1 _ e => e.finite
  | .element a b | .binary _ a b | .call2 _ a b => a.finite && b.finite
  | .call3 _ a b c => a.finite && b.finite && c.finite
  | .call4 _ a b c d => a.finite && b.finite && c.finite && d.finite

/-- Whether all numbers of a statement are finite. -/
def Shader.Stmt.finite : Stmt → Bool
  | .bind _ e | .declare _ e | .assign _ e | .addAssign _ e | .discardIf e | .return e => e.finite
  | .remark _ => true

/-- Whether all numbers of a source are finite. -/
def Shader.Source.finite (src : Source) : Bool :=
  src.functions.all fun f => f.body.all Stmt.finite

/-- All literals of a list are finite. -/
def FiniteLiterals (l : List Literal) : Prop :=
  ∀ x ∈ l, x.value.isFinite

instance (l : List Literal) : Decidable (FiniteLiterals l) :=
  inferInstanceAs (Decidable (∀ x ∈ l, x.value.isFinite))

/-- The modulus of a wrap, if it has one, is finite. -/
def Wrap.Finite : Wrap → Prop
  | .off | .zero => True
  | .modulo m => m.toUInt32.toFloat32.isFinite

/-- The moduli of the wraps of a coordinate are finite. -/
structure StageCoord.FiniteWraps (c : StageCoord) : Prop where
  wrapS : c.wrapS.Finite
  wrapT : c.wrapT.Finite

/-- The numbers that the settings of a program bring into its shaders are finite. -/
structure Program.Finite (p : Program) : Prop where
  literals : FiniteLiterals (literals p)
  wraps : ∀ s ∈ p.stages, ∀ c, s.coord = some c → c.FiniteWraps

end Defs

namespace FiniteLiterals

open Shader

variable {l l' : List Literal}

theorem append : FiniteLiterals (l ++ l') ↔ FiniteLiterals l ∧ FiniteLiterals l' :=
  List.forall_mem_append

theorem cons {x : Literal} : FiniteLiterals (x :: l) ↔ x.value.isFinite ∧ FiniteLiterals l :=
  List.forall_mem_cons

theorem single {x : Literal} : FiniteLiterals [x] ↔ x.value.isFinite :=
  List.forall_mem_singleton

theorem flatMap {α : Type} {f : α → List Literal} {xs : List α} :
    FiniteLiterals (xs.flatMap f) ↔ ∀ x ∈ xs, FiniteLiterals (f x) := by
  simp only [FiniteLiterals, List.mem_flatMap, forall_exists_index, and_imp]
  exact ⟨fun h x hx y hy => h y x hx hy, fun h y x hx hy => h x hx y hy⟩

/-- The checks along a list pass exactly if all literals are finite. -/
theorem forM_check_eq_ok : l.forM Literal.check = .ok () ↔ FiniteLiterals l := by
  have hcheck (x : Literal) : x.check = .ok () ↔ x.value.isFinite := by
    unfold Literal.check
    split <;> simp_all
  rw [List.forM_eq_forM]
  induction l with
  | nil => exact ⟨fun _ => by simp [FiniteLiterals], fun _ => rfl⟩
  | cons x l ih =>
    rw [List.forM_cons, bind_eq_ok, cons]
    constructor
    · rintro ⟨_, hx, hl⟩
      exact ⟨(hcheck x).1 hx, ih.1 hl⟩
    · rintro ⟨hx, hl⟩
      exact ⟨(), (hcheck x).2 hx, ih.2 hl⟩

end FiniteLiterals

/-- Both shaders are written exactly if all numbers that are checked are finite. -/
theorem Program.texts_eq_ok_iff {p : Program} {t : String × String} :
    p.texts = .ok t ↔ FiniteLiterals (Shader.literals p) ∧
      t = (Shader.Source.text (Shader.vertexShader p),
        Shader.Source.text (Shader.fragmentShader p)) := by
  rw [texts, bind_eq_ok, ← FiniteLiterals.forM_check_eq_ok]
  constructor
  · rintro ⟨_, hchecks, ht⟩
    exact ⟨hchecks, (Except.ok.inj ht).symm⟩
  · rintro ⟨hchecks, rfl⟩
    exact ⟨(), hchecks, rfl⟩

namespace Shader

open Shader.Expr

section Operators

variable (a b : Expr)

@[simp]
theorem finite_add : (a + b).finite = (a.finite && b.finite) := rfl

@[simp]
theorem finite_sub : (a - b).finite = (a.finite && b.finite) := rfl

@[simp]
theorem finite_mul : (a * b).finite = (a.finite && b.finite) := rfl

@[simp]
theorem finite_div : (a / b).finite = (a.finite && b.finite) := rfl

end Operators

section Fragment

theorem finite_planeCoord (c : Option UInt8) : (planeCoord c).finite := by
  cases c <;> rfl

theorem finite_sampleTexture (t : UInt8) {c : Expr} (h : c.finite) : (sampleTexture t c).finite := by
  simpa [sampleTexture, levelBias, scene, textureParams, material] using h

theorem finite_indirectSample {s : IndirectSample} (h : FiniteLiterals (sampleLiterals s)) :
    (indirectSample s).finite := by
  unfold indirectSample
  unfold sampleLiterals at h
  cases hs : s.texture with
  | none => rfl
  | some t =>
    rw [hs] at h
    obtain ⟨hS, hT⟩ := FiniteLiterals.cons.1 h
    have hscale : Float32.isFinite 255 := rfl
    have hcoord := finite_planeCoord s.coord
    simp [finite_sampleTexture, reciprocal, hscale, hcoord, hS, FiniteLiterals.single.1 hT]

theorem finite_wrapped (k : Nat) (axis : Component) {w : Wrap} (h : w.Finite) :
    (wrapped k axis w).finite := by
  cases w with
  | off | zero => rfl
  | modulo m => exact h

theorem finite_baseCoord (k : Nat) {c : StageCoord} (h : c.FiniteWraps) :
    (baseCoord k c).finite := by
  unfold baseCoord
  split
  case isTrue => simp [finite_wrapped, h.wrapS, h.wrapT]
  case isFalse => exact finite_planeCoord c.coord

theorem finite_offset {o : IndirectOffset} (h : FiniteLiterals (offsetLiterals o)) :
    (offset o).finite := by
  obtain ⟨hS, h⟩ := FiniteLiterals.cons.1 h
  obtain ⟨hT, hU⟩ := FiniteLiterals.cons.1 h
  have hzero : Float32.isFinite 0 := rfl
  have hone : Float32.isFinite 1 := rfl
  unfold offset
  cases o.texture with
  | none => simp [material, hzero, hS, hT, FiniteLiterals.single.1 hU]
  | some t =>
    simp [material, textureParams, hzero, hone, hS, hT, FiniteLiterals.single.1 hU]

theorem finite_stageCoord (k : Nat) {c : StageCoord} (hwraps : c.FiniteWraps)
    (hoffset : ∀ o, c.indirect = some o → FiniteLiterals (offsetLiterals o)) :
    (stageCoord k c).finite := by
  have hbase := finite_baseCoord k hwraps
  unfold stageCoord
  split
  case h_1 o ho => simp [hbase, finite_offset (hoffset o ho)]
  case h_2 => exact hbase

theorem finite_sampleStmts {k : Nat} {s : Stage} (hliterals : FiniteLiterals (coordLiterals s))
    (hwraps : ∀ c, s.coord = some c → c.FiniteWraps) : (sampleStmts k s).all Stmt.finite := by
  unfold sampleStmts
  unfold coordLiterals at hliterals
  split
  case h_1 t c ht hc =>
    rw [ht, hc] at hliterals
    have hcoord : (stageCoord k c).finite := by
      refine finite_stageCoord k (hwraps c hc) fun o ho => ?_
      obtain ⟨_, _, _, _, _⟩ := c
      obtain rfl := ho
      exact hliterals
    have hplane := finite_planeCoord c.coord
    have hsample : (sampleTexture t (var .coord)).finite := finite_sampleTexture t rfl
    unfold coordStmts
    split_ifs <;> simp [Stmt.finite, hcoord, hplane, hsample]
  case h_2 => rfl

theorem finite_rasterColor (r : Option RasterSource) : (rasterColor r).finite := by
  rcases r with _ | ⟨i⟩ | _ <;> rfl

theorem finite_operandPair (k : Nat) (s : Stage) {a b : Operand}
    (h : FiniteLiterals (pairLiterals a b)) : (operandPair k s a b).finite := by
  obtain ⟨ha, hb⟩ := FiniteLiterals.append.1 h
  have hraster := finite_rasterColor s.raster
  have hcolor : (colorOperand k s.raster a).finite := by
    cases a with
    | constant x =>
      rw [operandLiterals, FiniteLiterals.single] at ha
      simpa [colorOperand, splat] using ha
    | _ => simp [colorOperand, material, hraster]
  have halpha : (alphaOperand k s.raster b).finite := by
    cases b with
    | constant x =>
      rw [operandLiterals, FiniteLiterals.single] at hb
      simpa [alphaOperand] using hb
    | _ => simp [alphaOperand, material, hraster]
  simp [operandPair, hcolor, halpha]

theorem finite_combined (k : Nat) (cs : List Component) {zero : Expr} (hzero : zero.finite)
    {h : Half} (hliterals : FiniteLiterals (halfLiterals h)) : (combined k cs zero h).finite := by
  unfold halfLiterals at hliterals
  unfold combined
  cases hop : h.op with
  | add | sub =>
    rw [hop] at hliterals
    obtain ⟨hbias, hscale⟩ := FiniteLiterals.append.1 hliterals
    dsimp only
    split_ifs <;> simp_all [FiniteLiterals.single]
  | greater =>
    dsimp only
    split_ifs <;> simp [hzero]

theorem finite_stageStmts (k : Nat) {s : Stage} (hliterals : FiniteLiterals (stageLiterals s))
    (hwraps : ∀ c, s.coord = some c → c.FiniteWraps) : (stageStmts k s).all Stmt.finite := by
  simp only [stageLiterals, FiniteLiterals.append] at hliterals
  obtain ⟨⟨hsample, ⟨⟨ha, hb⟩, hc⟩, hd⟩, hcolor, halpha⟩ := hliterals
  have hoperands : (operandStmts k s).all Stmt.finite := by
    simp [operandStmts, Stmt.finite, finite_operandPair, ha, hb, hc, hd]
  have hwrites : (writeStmts k s).all Stmt.finite := by
    have hcolor : (combinedColor k s.color).finite := finite_combined k _ rfl hcolor
    have halpha : (combinedAlpha k s.alpha).finite := finite_combined k _ rfl halpha
    simp [writeStmts, Stmt.finite, hcolor, halpha]
  simp [stageStmts, Stmt.finite, finite_sampleStmts hsample hwraps, hoperands, hwrites]

theorem finite_comparison {c : Comparison} {x : Float32}
    (h : FiniteLiterals (comparisonLiterals c x)) : (comparison c x).finite := by
  cases c with
  | never | always => rfl
  | _ =>
    simp only [comparisonLiterals, FiniteLiterals.single] at h
    simp [comparison, finalAlpha, h]

theorem finite_discardStmts {c : AlphaCheck} (h : FiniteLiterals (alphaLiterals c)) :
    (discardStmts c).all Stmt.finite := by
  cases c with
  | keepAll | dropAll => rfl
  | compare logic a x b y =>
    obtain ⟨ha, hb⟩ := FiniteLiterals.append.1 h
    simp [discardStmts, Stmt.finite, finite_comparison ha, finite_comparison hb]

theorem finite_fragmentBody {p : Program} (h : p.Finite) : (fragmentBody p).all Stmt.finite := by
  have hliterals := h.literals
  simp only [literals, FiniteLiterals.append, FiniteLiterals.flatMap] at hliterals
  obtain ⟨⟨hsamples, hstages⟩, hdiscard⟩ := hliterals
  refine all_fragmentBody p rfl (fun _ s hs => ?_) (fun i s hs => ?_) (finite_discardStmts hdiscard)
  · exact finite_indirectSample (hsamples s hs)
  · exact finite_stageStmts i (hstages s hs) (h.wraps s hs)

end Fragment

section Vertex

theorem finite_sourceColor (c : ColorOrigin) : (sourceColor c).finite := by
  cases c <;> rfl

theorem finite_channelValue (v : ChannelHalf) : (channelValue v).finite := by
  have hshare : ambientShare.isFinite := rfl
  unfold channelValue
  split
  case h_1 => simp [hshare, finite_sourceColor]
  case h_2 => exact finite_sourceColor v.material

theorem finite_color (p : Program) (i : Nat) : (color p i).finite := by
  unfold color
  split
  case h_1 c _ =>
    unfold channelColor
    split_ifs <;> simp [finite_channelValue]
  case h_2 => rfl

theorem finite_coordSource (c : CoordSource) : (coordSource c).finite := by
  cases c <;> rfl

theorem finite_coord (g : CoordGen) : (coord g).finite := by
  have hone : Float32.isFinite 1 := rfl
  have hsource := finite_coordSource g.source
  have htransformed : (coordTransformed g).finite := by
    unfold coordTransformed
    cases g.matrix <;> simp [packet, material, hsource]
  have hplain : (coordPlain g).finite := by
    unfold coordPlain
    cases g.kind <;> simp [hone, hsource, htransformed]
  have hnormalized : (coordNormalized g).finite := by
    unfold coordNormalized
    split_ifs <;> exact hplain
  unfold coord
  split
  case h_1 => simp [material, hone, hnormalized]
  case h_2 => exact hnormalized

theorem finite_vertexBody (p : Program) : (vertexBody p).all Stmt.finite := by
  have hgens : (p.coordGens.mapIdx fun i g =>
      Stmt.assign (.member .output (.coord i)) (coord g)).all Stmt.finite := by
    refine List.all_eq_true.2 fun x hx => ?_
    obtain ⟨i, hi, rfl⟩ := List.mem_mapIdx.1 hx
    exact finite_coord _
  simp only [vertexBody, List.all_append, List.all_cons, Stmt.finite, finite_color, hgens]
  rfl

end Vertex

/-- In the fragment shader of a program whose numbers are finite, all numbers are. -/
theorem finite_fragmentShader {p : Program} (h : p.Finite) : (fragmentShader p).finite := by
  rw [Source.finite, functions_fragmentShader, List.all_append, Bool.and_eq_true]
  exact ⟨rfl, by simp [finite_fragmentBody h]⟩

/-- In the vertex shader of every program, all numbers are finite. -/
theorem finite_vertexShader (p : Program) : (vertexShader p).finite := by
  rw [Source.finite, functions_vertexShader, List.all_append, Bool.and_eq_true]
  exact ⟨rfl, by simp [finite_vertexBody]⟩

end Shader
end FixedFunction
