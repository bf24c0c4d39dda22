import FixedFunction.Shader.Fragment
import FixedFunction.Proofs.Program.Resolved
import FixedFunction.Proofs.Shader.CommonScope
import Mathlib.Data.List.Induction

/-!
# The scope of fragment shaders

**Invariant.**  Before each stage the parameter blocks, the textures of the program, the colors and
coordinates of the fragment, the registers, the running coordinate, and the indirect samples are
visible.  A stage reads its texture sample only if it takes one.

**Results.**
* `fragmentBody_closed`: each statement of a fragment shader mentions only what is visible.
-/

namespace FixedFunction
namespace Shader

open Shader.Expr

/-- What the body of a fragment shader finds. -/
structure FragmentScope (p : Program) (v : List Mention) : Prop where
  misc0 : ⟨.scene, some .misc0⟩ ∈ v
  registers : ⟨.material, some .color⟩ ∈ v
  konst : ⟨.material, some .konstColor⟩ ∈ v
  textureParams : ⟨.material, some .textureParams⟩ ∈ v
  indTexMtx : ⟨.material, some .indTexMtx⟩ ∈ v
  channel : ∀ i < 2, ⟨.input, some (.channel i)⟩ ∈ v
  coord : ∀ i < p.coordGens.length, ⟨.input, some (.coord i)⟩ ∈ v
  texture : ∀ t ∈ p.textures, ⟨.texture t, none⟩ ∈ v
  sampler : ∀ t ∈ p.textures, ⟨.sampler t, none⟩ ∈ v

/-- What a stage finds. -/
structure StageScope (p : Program) (v : List Mention) : Prop extends FragmentScope p v where
  register : ∀ r, ⟨.register r, none⟩ ∈ v
  running : ⟨.coord, none⟩ ∈ v
  indirect : ∀ i < p.indirectSamples.length, ⟨.indirect i, none⟩ ∈ v

theorem FragmentScope.mono {p : Program} {v w : List Mention} (h : FragmentScope p v)
    (hvw : v ⊆ w) : FragmentScope p w where
  misc0 := hvw h.misc0
  registers := hvw h.registers
  konst := hvw h.konst
  textureParams := hvw h.textureParams
  indTexMtx := hvw h.indTexMtx
  channel i hi := hvw (h.channel i hi)
  coord i hi := hvw (h.coord i hi)
  texture t ht := hvw (h.texture t ht)
  sampler t ht := hvw (h.sampler t ht)

theorem StageScope.mono {p : Program} {v w : List Mention} (h : StageScope p v)
    (hvw : v ⊆ w) : StageScope p w where
  toFragmentScope := h.toFragmentScope.mono hvw
  register r := hvw (h.register r)
  running := hvw h.running
  indirect i hi := hvw (h.indirect i hi)

section Expressions

variable {p : Program} {v : List Mention}

theorem planeCoord_subset (hv : FragmentScope p v) {c : Option UInt8}
    (hc : ∀ k, c = some k → k.toNat < p.coordGens.length) : (planeCoord c).mentions ⊆ v := by
  cases c with
  | none => exact List.nil_subset _
  | some k => simp [planeCoord, hv.coord k.toNat (hc k rfl)]

theorem sampleTexture_subset (hv : FragmentScope p v) {t : UInt8} (ht : t ∈ p.textures) {e : Expr}
    (he : e.mentions ⊆ v) : (sampleTexture t e).mentions ⊆ v := by
  simp [sampleTexture, levelBias, textureParams, hv.texture t ht, hv.sampler t ht, hv.misc0,
    hv.textureParams, he]

theorem indirectSample_subset (hv : FragmentScope p v) {s : IndirectSample} (hs : s.Resolved p) :
    (indirectSample s).mentions ⊆ v := by
  unfold indirectSample
  split
  case h_1 t ht =>
    have hsample := sampleTexture_subset hv (hs.texture t ht)
      (e := planeCoord s.coord * call2 .vec2 (reciprocal s.scaleS) (reciprocal s.scaleT))
      (by simp [reciprocal, planeCoord_subset hv hs.coord])
    simpa using hsample
  case h_2 => exact List.nil_subset _

theorem wrapped_subset {k : Nat} (hbase : ⟨.coordBase k, none⟩ ∈ v) (c : Component) (w : Wrap) :
    (wrapped k c w).mentions ⊆ v := by
  cases w <;> simp [wrapped, hbase]

theorem offset_subset (hv : StageScope p v) {o : IndirectOffset}
    (ho : o.stage.toNat < p.indirectSamples.length) : (offset o).mentions ⊆ v := by
  have hindirect := hv.indirect _ ho
  unfold offset
  split <;> simp [textureParams, hv.indTexMtx, hv.textureParams, hindirect]

theorem baseCoord_subset (hv : StageScope p v) {k : Nat} {c : StageCoord} (hc : c.Resolved p)
    (hbase : isWrapped c → ⟨.coordBase k, none⟩ ∈ v) : (baseCoord k c).mentions ⊆ v := by
  unfold baseCoord
  split
  case isTrue h =>
    simp [wrapped_subset (hbase h)]
  case isFalse => exact planeCoord_subset hv.toFragmentScope hc.coord

theorem stageCoord_subset (hv : StageScope p v) {k : Nat} {c : StageCoord} (hc : c.Resolved p)
    (hbase : isWrapped c → ⟨.coordBase k, none⟩ ∈ v) : (stageCoord k c).mentions ⊆ v := by
  have hcoord := baseCoord_subset hv hc hbase
  unfold stageCoord
  split
  case h_1 o ho => simp [hcoord, offset_subset hv (hc.indirect o ho)]
  case h_2 => exact hcoord

theorem rasterColor_subset (hv : FragmentScope p v) {r : Option RasterSource}
    (hr : ∀ i, r = some (.channel i) → i.toNat < 2) : (rasterColor r).mentions ⊆ v := by
  unfold rasterColor
  split
  case h_1 i => simp [hv.channel i.toNat (hr i rfl)]
  case h_2 => exact List.nil_subset _

theorem operand_subset (hv : StageScope p v) {k : Nat} {s : Stage} (hs : s.Resolved p)
    (hsample : s.texture.isSome → ⟨.sample k, none⟩ ∈ v) {x : Operand}
    (hx : x ∈ s.color.operands ++ s.alpha.operands) :
    (colorOperand k s.raster x).mentions ⊆ v ∧ (alphaOperand k s.raster x).mentions ⊆ v := by
  cases x with
  | register r w => simp [colorOperand, alphaOperand, hv.register r]
  | texture w => simp [colorOperand, alphaOperand, hsample (hs.operand _ hx w rfl)]
  | rasterized w =>
    simp [colorOperand, alphaOperand, rasterColor_subset hv.toFragmentScope hs.raster]
  | konst i w => simp [colorOperand, alphaOperand, hv.konst]
  | constant x => exact ⟨List.nil_subset _, List.nil_subset _⟩

theorem combined_subset {k : Nat} (hoperand : ∀ i, ⟨.operand k i, none⟩ ∈ v)
    (cs : List Component) (zero : Expr) (hzero : zero.mentions ⊆ v) (h : Half) :
    (combined k cs zero h).mentions ⊆ v := by
  unfold combined
  cases h.op <;> dsimp only <;> split_ifs <;> simp [hoperand, hzero]

end Expressions

section Statements

variable {p : Program} {v : List Mention}

theorem closed_coordStmts (hv : StageScope p v) {k : Nat} {c : StageCoord} (hc : c.Resolved p) :
    Closed v (coordStmts k c) := by
  have hplane := planeCoord_subset hv.toFragmentScope hc.coord
  have hmove {w : List Mention} (hvw : v ⊆ w)
      (hbase : isWrapped c → ⟨.coordBase k, none⟩ ∈ w) :
      Closed w [if c.addPrevious then .addAssign (.var .coord) (stageCoord k c)
        else .assign (.var .coord) (stageCoord k c)] := by
    have hcoord := stageCoord_subset (hv.mono hvw) hc hbase
    split <;> simp [Closed, Stmt.mentions, Place.name, hcoord, hvw hv.running]
  unfold coordStmts
  split
  case isTrue =>
    refine ⟨hplane, hmove (List.subset_append_left _ _) fun _ => ?_⟩
    exact List.mem_append_right _ List.mem_cons_self
  case isFalse h => exact hmove (List.Subset.refl v) fun hwrapped => absurd hwrapped h

theorem closed_sampleStmts (hv : StageScope p v) {k : Nat} {s : Stage} (hs : s.Resolved p) :
    Closed v (sampleStmts k s) := by
  unfold sampleStmts
  split
  case h_1 t c ht hc =>
    refine closed_append.2 ⟨closed_coordStmts hv (hs.coord c hc), ?_, trivial⟩
    have hv' := hv.mono (List.subset_append_left v ((coordStmts k c).flatMap Stmt.provided))
    exact sampleTexture_subset hv'.toFragmentScope (hs.texture t ht)
      (by simpa using hv'.running)
  case h_2 => trivial

theorem sample_mem_provided {k : Nat} {s : Stage} (hs : s.Resolved p) (h : s.texture.isSome) :
    ⟨.sample k, none⟩ ∈ (sampleStmts k s).flatMap Stmt.provided := by
  obtain ⟨t, ht⟩ := Option.isSome_iff_exists.1 h
  obtain ⟨c, hc⟩ := Option.isSome_iff_exists.1 (hs.coord_isSome.trans h)
  simp [sampleStmts, ht, hc, Stmt.provided, Stmt.declared]

theorem closed_operandStmts (hv : StageScope p v) {k : Nat} {s : Stage} (hs : s.Resolved p)
    (hsample : s.texture.isSome → ⟨.sample k, none⟩ ∈ v) : Closed v (operandStmts k s) := by
  refine closed_of_subset fun x hx => ?_
  have hoperand {x : Operand} (hx : x ∈ s.color.operands ++ s.alpha.operands) :=
    operand_subset hv hs hsample hx
  have hpair {a b : Operand} (ha : a ∈ s.color.operands) (hb : b ∈ s.alpha.operands) :
      (operandPair k s a b).mentions ⊆ v := by
    simp [operandPair, hoperand (List.mem_append_left _ ha), hoperand (List.mem_append_right _ hb)]
  simp only [operandStmts, List.mem_cons, List.not_mem_nil, or_false] at hx
  rcases hx with rfl | rfl | rfl | rfl
  all_goals exact hpair (by simp [Half.operands]) (by simp [Half.operands])

theorem operand_mem_provided (k : Nat) (s : Stage) (i : StageInput) :
    ⟨.operand k i, none⟩ ∈ (operandStmts k s).flatMap Stmt.provided := by
  cases i <;> simp [operandStmts, Stmt.provided, Stmt.declared]

theorem closed_writeStmts (hv : StageScope p v) {k : Nat} (s : Stage)
    (hoperand : ∀ i, ⟨.operand k i, none⟩ ∈ v) : Closed v (writeStmts k s) := by
  refine closed_of_subset fun x hx => ?_
  have hcolor : (combinedColor k s.color).mentions ⊆ v :=
    combined_subset hoperand [.r, .g, .b] (splat .vec3 0) (List.nil_subset _) s.color
  have halpha : (combinedAlpha k s.alpha).mentions ⊆ v :=
    combined_subset hoperand [.a] (.lit 0) (List.nil_subset _) s.alpha
  simp only [writeStmts, List.mem_cons, List.not_mem_nil, or_false] at hx
  rcases hx with rfl | rfl
  · simp [Stmt.mentions, Place.name, hcolor, hv.register]
  · simp [Stmt.mentions, Place.name, halpha, hv.register]

theorem closed_stageStmts (hv : StageScope p v) {k : Nat} {s : Stage} (hs : s.Resolved p) :
    Closed v (stageStmts k s) := by
  have hsample (w : List Mention) : v ⊆ v ++ w := List.subset_append_left v w
  rw [stageStmts, closed_append, closed_append]
  refine ⟨⟨⟨List.nil_subset _, closed_sampleStmts (hv.mono (hsample _)) hs⟩, ?_⟩, ?_⟩
  · refine closed_operandStmts (hv.mono (hsample _)) hs fun h => ?_
    exact List.mem_append_right _ (sample_mem_provided hs h)
  · rw [List.flatMap_append, ← List.append_assoc]
    refine closed_writeStmts (hv.mono (List.subset_append_of_subset_left _ (hsample _))) s
      fun i => ?_
    exact List.mem_append_right _ (operand_mem_provided k s i)

/-- Each stage finds what it mentions, however many stages are before it. -/
theorem closed_stages (hv : StageScope p v) {stages : List Stage}
    (hstages : ∀ s ∈ stages, s.Resolved p) : Closed v (stages.mapIdx stageStmts).flatten := by
  induction stages using List.reverseRecOn with
  | nil => trivial
  | append_singleton stages s ih =>
    rw [List.mapIdx_concat, List.flatten_concat, closed_append]
    have hs := hstages s (List.mem_append_right _ List.mem_cons_self)
    constructor
    · exact ih fun t ht => hstages t (List.mem_append_left _ ht)
    · exact closed_stageStmts (hv.mono (List.subset_append_left _ _)) hs

theorem closed_openingStmts (hv : FragmentScope p v)
    (hsamples : ∀ s ∈ p.indirectSamples, s.Resolved p) : Closed v (openingStmts p) := by
  refine closed_of_subset fun x hx => ?_
  rcases List.mem_append.1 hx with hx | hx
  · simp only [List.mem_cons, List.not_mem_nil, or_false] at hx
    rcases hx with rfl | rfl | rfl | rfl | rfl | rfl
    all_goals simp [Stmt.mentions, initialRegister, hv.registers]
  · obtain ⟨i, hi, rfl⟩ := List.mem_mapIdx.1 hx
    exact indirectSample_subset hv (hsamples _ (List.getElem_mem hi))

/-- The opening declares all that a stage finds. -/
theorem stageScope_opening (hv : FragmentScope p v) :
    StageScope p (v ++ (openingStmts p).flatMap Stmt.provided) where
  toFragmentScope := hv.mono (List.subset_append_left _ _)
  register r := by
    refine List.mem_append_right _ ?_
    cases r <;> simp [openingStmts, Stmt.provided, Stmt.declared]
  running := by
    refine List.mem_append_right _ ?_
    simp [openingStmts, Stmt.provided, Stmt.declared]
  indirect i hi := by
    refine List.mem_append_right _ (List.mem_flatMap.2 ⟨.bind (.indirect i)
      (indirectSample p.indirectSamples[i]), ?_, List.mem_cons_self⟩)
    exact List.mem_append_right _ (List.mem_mapIdx.2 ⟨i, hi, rfl⟩)

theorem comparison_subset (hv : ⟨.register .prev, none⟩ ∈ v) (c : Comparison) (x : Float32) :
    (comparison c x).mentions ⊆ v := by
  cases c <;> simp [comparison, finalAlpha, hv]

theorem closed_discardStmts (hv : ⟨.register .prev, none⟩ ∈ v) (check : AlphaCheck) :
    Closed v (discardStmts check) := by
  cases check with
  | keepAll => trivial
  | dropAll => exact ⟨List.nil_subset _, trivial⟩
  | compare logic a x b y =>
    refine ⟨?_, trivial⟩
    simp [Stmt.mentions, comparison_subset hv]

/-- Each statement of a fragment shader mentions only what is visible before it. -/
theorem closed_fragmentBody (hp : p.Resolved) (hv : FragmentScope p v) :
    Closed v (fragmentBody p) := by
  have hscope := stageScope_opening hv
  have houtput : ⟨.output, none⟩ ∈ v ++ (openingStmts p).flatMap Stmt.provided :=
    List.mem_append_right _ List.mem_cons_self
  have hrest (rest : List Stmt) : v ++ (openingStmts p).flatMap Stmt.provided ⊆
      v ++ (openingStmts p ++ rest).flatMap Stmt.provided := by
    rw [List.flatMap_append, ← List.append_assoc]
    exact List.subset_append_left _ _
  rw [fragmentBody, closed_append, closed_append, closed_append]
  refine ⟨⟨⟨closed_openingStmts hv hp.sample, closed_stages hscope hp.stage⟩, ?_⟩, ?_⟩
  · exact closed_discardStmts (hrest _ (hscope.register .prev)) _
  · rw [List.append_assoc (openingStmts p)]
    refine closed_of_subset fun s hs => ?_
    simp only [List.mem_cons, List.not_mem_nil, or_false] at hs
    rcases hs with rfl | rfl
    · exact List.cons_subset.2 ⟨hrest _ houtput,
        List.cons_subset.2 ⟨hrest _ (hscope.register .prev), List.nil_subset _⟩⟩
    · exact List.cons_subset.2 ⟨hrest _ houtput, List.nil_subset _⟩

end Statements

section Names

variable (p : Program)

theorem ranked_stageStmts (k : Nat) (s : Stage) :
    Ranked (5 + k) (5 + k + 1) ((stageStmts k s).flatMap Stmt.declared) := by
  have hsample : (sampleStmts k s).flatMap Stmt.declared = [] ∨
      (sampleStmts k s).flatMap Stmt.declared = [.sample k] ∨
      (sampleStmts k s).flatMap Stmt.declared = [.coordBase k, .sample k] := by
    unfold sampleStmts
    split
    case h_1 t c _ _ =>
      unfold coordStmts
      split_ifs <;> simp [Stmt.declared]
    case h_2 => exact .inl rfl
  have hstage : (stageStmts k s).flatMap Stmt.declared = (sampleStmts k s).flatMap Stmt.declared ++
      [.operand k .a, .operand k .b, .operand k .c, .operand k .d] := by
    simp [stageStmts, operandStmts, writeStmts, Stmt.declared]
  rw [hstage]
  rcases hsample with h | h | h <;> rw [h] <;> constructor <;> simp [Ident.rank]

theorem ranked_stages (stages : List Stage) : Ranked 5 (5 + stages.length)
    ((stages.mapIdx stageStmts).flatten.flatMap Stmt.declared) := by
  induction stages using List.reverseRecOn with
  | nil => exact ⟨List.nodup_nil, fun n hn => absurd hn List.not_mem_nil⟩
  | append_singleton stages s ih =>
    rw [List.mapIdx_concat, List.flatten_concat, List.flatMap_append, List.length_append]
    exact ih.append (ranked_stageStmts _ s) (by omega) (by omega)

theorem ranked_opening : Ranked 3 5 ((openingStmts p).flatMap Stmt.declared) := by
  rw [openingStmts, List.flatMap_append]
  have hsamples : (p.indirectSamples.mapIdx fun i s =>
      Stmt.bind (.indirect i) (indirectSample s)).flatMap Stmt.declared =
        (List.range p.indirectSamples.length).map .indirect := by
    induction p.indirectSamples using List.reverseRecOn with
    | nil => rfl
    | append_singleton samples s ih =>
      rw [List.mapIdx_concat, List.flatMap_append, ih, List.length_append, List.length_singleton,
        List.range_succ, List.map_append]
      rfl
  refine Ranked.append (b := 4) ⟨by decide, by decide⟩ ?_ (by decide) (by decide)
  rw [hsamples]
  constructor
  · exact List.nodup_range.map fun i j h => Ident.indirect.inj h
  · simp [Ident.rank]

theorem ranked_fragmentBody : Ranked 3 (5 + p.stages.length)
    ((fragmentBody p).flatMap Stmt.declared) := by
  have hdiscard : (discardStmts p.alphaCheck).flatMap Stmt.declared = [] := by
    cases p.alphaCheck <;> rfl
  rw [fragmentBody, List.flatMap_append, List.flatMap_append, List.flatMap_append, hdiscard,
    List.append_nil]
  refine ((ranked_opening p).append (ranked_stages p.stages) (by decide) (by omega)).append
    ⟨List.nodup_nil, fun n hn => absurd hn List.not_mem_nil⟩ (by omega) (Nat.le_refl _)

theorem assigned_stageStmts (k : Nat) (s : Stage) :
    (stageStmts k s).flatMap Stmt.assigned = [] := by
  have hsample : (sampleStmts k s).flatMap Stmt.assigned = [] := by
    unfold sampleStmts
    split
    case h_1 t c _ _ =>
      unfold coordStmts
      split_ifs <;> rfl
    case h_2 => rfl
  rw [stageStmts, List.flatMap_append, List.flatMap_append, List.flatMap_cons, hsample]
  rfl

/-- The only member that a fragment shader assigns is the color that it returns. -/
theorem assigned_fragmentBody : (fragmentBody p).flatMap Stmt.assigned = [(.output, .color)] := by
  have hopening : (openingStmts p).flatMap Stmt.assigned = [] := by
    refine List.flatMap_eq_nil_iff.2 fun x hx => ?_
    rcases List.mem_append.1 hx with hx | hx
    · simp only [List.mem_cons, List.not_mem_nil, or_false] at hx
      rcases hx with rfl | rfl | rfl | rfl | rfl | rfl <;> rfl
    · obtain ⟨i, hi, rfl⟩ := List.mem_mapIdx.1 hx
      rfl
  have hstages : (p.stages.mapIdx stageStmts).flatten.flatMap Stmt.assigned = [] := by
    refine List.flatMap_eq_nil_iff.2 fun x hx => ?_
    obtain ⟨l, hl, hx⟩ := List.mem_flatten.1 hx
    obtain ⟨i, hi, rfl⟩ := List.mem_mapIdx.1 hl
    exact List.flatMap_eq_nil_iff.1 (assigned_stageStmts i _) x hx
  have hdiscard : (discardStmts p.alphaCheck).flatMap Stmt.assigned = [] := by
    cases p.alphaCheck <;> rfl
  rw [fragmentBody, List.flatMap_append, List.flatMap_append, List.flatMap_append, hopening,
    hstages, hdiscard]
  rfl

end Names

section Shader

open Source

variable (p : Program)

/-- The global variables of a texture. -/
def textureGlobals (t : UInt8) : List Global :=
  [⟨1, 2 * t.toNat, .texture t, .texture⟩, ⟨1, 2 * t.toNat + 1, .sampler t, .sampler⟩]

theorem globals_fragmentShader : globals (fragmentShader p) =
    globals (common p) ++ p.textures.flatMap textureGlobals := by
  have htextures : globals (if p.textures.isEmpty then [] else [textureDecls p]) =
      p.textures.flatMap textureGlobals := by
    split
    case isTrue h =>
      rw [List.isEmpty_iff.1 h]
      rfl
    case isFalse =>
      rw [globals, List.flatten_singleton, textureDecls, List.flatMap_assoc]
      rfl
  simp only [fragmentShader, globals_append, htextures]
  exact (List.append_nil _).trans (List.append_nil _)

theorem functions_fragmentShader : functions (fragmentShader p) =
    functions products ++ functions overflowDecls ++
      [⟨[(.input, .struct .vertexOutput)], fragmentBody p⟩] := by
  have htextures : functions (if p.textures.isEmpty then [] else [textureDecls p]) = [] := by
    split
    case isTrue => rfl
    case isFalse => simp [functions, textureDecls, List.flatMap_assoc, Decl.functions]
  simp only [fragmentShader, functions_append, htextures, functions_common, List.append_nil]
  rfl

/-- A check passes on the body of a fragment shader if it passes on the statements that all bodies
have, and on those of the parts of the program. -/
theorem all_fragmentBody {P : Stmt → Bool}
    (hfixed : (fragmentBody
      { p with indirectSamples := [], stages := [], alphaCheck := .keepAll }).all P)
    (hsample : ∀ i, ∀ s ∈ p.indirectSamples, P (.bind (.indirect i) (indirectSample s)))
    (hstage : ∀ i, ∀ s ∈ p.stages, (stageStmts i s).all P)
    (hdiscard : (discardStmts p.alphaCheck).all P) : (fragmentBody p).all P := by
  have hsamples : (p.indirectSamples.mapIdx fun i s =>
      Stmt.bind (.indirect i) (indirectSample s)).all P := by
    refine List.all_eq_true.2 fun x hx => ?_
    obtain ⟨i, hi, rfl⟩ := List.mem_mapIdx.1 hx
    exact hsample i _ (List.getElem_mem hi)
  have hstages : (p.stages.mapIdx stageStmts).flatten.all P := by
    rw [List.all_flatten]
    refine List.all_eq_true.2 fun x hx => ?_
    obtain ⟨i, hi, rfl⟩ := List.mem_mapIdx.1 hx
    exact hstage i _ (List.getElem_mem hi)
  simp only [fragmentBody, openingStmts, List.all_append, Bool.and_eq_true] at hfixed ⊢
  obtain ⟨⟨⟨⟨hopening, -⟩, -⟩, -⟩, hclosing⟩ := hfixed
  exact ⟨⟨⟨⟨hopening, hsamples⟩, hstages⟩, hdiscard⟩, hclosing⟩

theorem fields_fragmentShader (t : StructName) : fields (fragmentShader p) t =
    fields (common p) t ++ if t = .fragmentOutput then [located 0 .color .vec4] else [] := by
  have htextures : fields (if p.textures.isEmpty then [] else [textureDecls p]) t = [] := by
    split
    case isTrue => rfl
    case isFalse => simp [fields, textureDecls, List.flatMap_assoc, Decl.fields]
  simp only [fragmentShader, fields_append, htextures, List.append_nil]
  rw [List.append_assoc]
  cases t <;> rfl

section Textures

variable {textures : List UInt8}

theorem nodup_textures {α : Type} {f : Global → α}
    (hself : ∀ t, ((textureGlobals t).map f).Nodup)
    (hne : ∀ t u, t.toNat < u.toNat →
      ((textureGlobals t).map f).Disjoint ((textureGlobals u).map f))
    (h : textures.Pairwise (·.toNat < ·.toNat)) :
    ((textures.flatMap textureGlobals).map f).Nodup := by
  rw [List.map_flatMap, List.nodup_flatMap]
  exact ⟨fun t _ => hself t, h.imp fun htu => hne _ _ htu⟩

theorem ranked_textures (h : textures.Pairwise (·.toNat < ·.toNat)) :
    Ranked 1 2 ((textures.flatMap textureGlobals).map (·.name)) := by
  constructor
  · refine nodup_textures (fun t => ?_) (fun t u htu => ?_) h
    · simp [textureGlobals]
    · have hne : u ≠ t := by
        rintro rfl
        exact Nat.lt_irrefl _ htu
      simp [textureGlobals, hne]
  · intro n hn
    obtain ⟨g, hg, rfl⟩ := List.mem_map.1 hn
    obtain ⟨t, -, hg⟩ := List.mem_flatMap.1 hg
    simp only [textureGlobals, List.mem_cons, List.not_mem_nil, or_false] at hg
    rcases hg with rfl | rfl <;> simp [Ident.rank]

theorem nodup_textureBindings (h : textures.Pairwise (·.toNat < ·.toNat)) :
    ((textures.flatMap textureGlobals).map fun g => (g.group, g.binding)).Nodup := by
  refine nodup_textures (fun t => ?_) (fun t u htu => ?_) h
  · simp [textureGlobals]
  · simp [textureGlobals]
    omega

end Textures

variable {p}

theorem ranked_globals_fragmentShader (hp : p.Resolved) :
    Ranked 0 2 ((globals (fragmentShader p)).map (·.name)) := by
  rw [globals_fragmentShader, List.map_append]
  exact (ranked_globals_common p).append (ranked_textures hp.textures) (by decide) (by decide)

theorem nodup_bindings_fragmentShader (hp : p.Resolved) :
    ((globals (fragmentShader p)).map fun g => (g.group, g.binding)).Nodup := by
  rw [globals_fragmentShader, List.map_append]
  refine List.nodup_append.2 ⟨?_, nodup_textureBindings hp.textures, ?_⟩
  · rw [globals_common]
    decide
  · -- the parameter blocks are in group 0, the textures in group 1
    have hcommon : ∀ x ∈ (globals (common p)).map fun g => (g.group, g.binding), x.1 = 0 := by
      rw [globals_common]
      decide
    intro x hx y hy hxy
    obtain ⟨g, hg, rfl⟩ := List.mem_map.1 hy
    obtain ⟨t, -, hg⟩ := List.mem_flatMap.1 hg
    have hgroup : g.group = 1 := by
      simp only [textureGlobals, List.mem_cons, List.not_mem_nil, or_false] at hg
      rcases hg with rfl | rfl <;> rfl
    have hx0 := hcommon x hx
    rw [hxy, hgroup] at hx0
    exact absurd hx0 Nat.one_ne_zero

theorem nodup_fields_fragmentShader (t : StructName) :
    ((fields (fragmentShader p) t).map (·.name)).Nodup := by
  rw [fields_fragmentShader]
  cases t with
  | fragmentOutput =>
    rw [fields_common, if_neg (by decide)]
    decide
  | _ =>
    rw [if_neg (by decide), List.append_nil]
    exact nodup_fields_common p _

/-- The entry of a fragment shader. -/
def fragmentEntry (p : Program) : FunctionDecl :=
  ⟨[(.input, .struct .vertexOutput)], fragmentBody p⟩

theorem visible_fragmentShader (f : FunctionDecl) :
    visible blocks f ⊆ visible (fragmentShader p) f :=
  List.Subset.trans (visible_common p f) <|
    List.Subset.trans (visible_subset_append _ _ f) <|
      List.Subset.trans (visible_subset_append _ _ f) (visible_subset_append _ _ f)

theorem fragmentScope_visible : FragmentScope p (visible (fragmentShader p) (fragmentEntry p)) := by
  have hblock {x : Mention} (hx : x ∈ visible blocks ⟨[], []⟩) :
      x ∈ visible (fragmentShader p) (fragmentEntry p) :=
    visible_fragmentShader _ (mem_visible_blocks hx _)
  have htexture {t : UInt8} (ht : t ∈ p.textures) {g : Global} (h : g ∈ textureGlobals t) :
      ⟨g.name, none⟩ ∈ visible (fragmentShader p) (fragmentEntry p) := by
    refine mem_visible (t := g.type) (List.mem_append_left _ (List.mem_map.2 ⟨g, ?_, rfl⟩))
    rw [globals_fragmentShader]
    exact List.mem_append_right _ (List.mem_flatMap.2 ⟨t, ht, h⟩)
  have hinput {m : Member} (hm : m ∈ (vertexOutput p).map (·.name)) :
      ⟨.input, some m⟩ ∈ visible (fragmentShader p) (fragmentEntry p) := by
    refine field_mem_visible (t := .vertexOutput) (List.mem_append_right _ List.mem_cons_self) ?_
    rw [fields_fragmentShader, fields_common, List.map_append, List.map_append]
    exact List.mem_append_left _ (List.mem_append_right _ hm)
  exact {
    misc0 := hblock (by decide)
    registers := hblock (by decide)
    konst := hblock (by decide)
    textureParams := hblock (by decide)
    indTexMtx := hblock (by decide)
    channel := fun i hi => hinput (channel_mem_vertexOutput p hi)
    coord := fun i hi => hinput (coord_mem_vertexOutput p hi)
    texture := fun t ht => htexture ht List.mem_cons_self
    sampler := fun t ht => htexture ht (List.mem_cons_of_mem _ List.mem_cons_self) }

theorem helper_overflowDecls : ∀ f ∈ functions overflowDecls, Helper f := by
  decide

/-- The fragment shader of a program that refers only to what is there is well scoped. -/
theorem wellScoped_fragmentShader (hp : p.Resolved) : (fragmentShader p).WellScoped := by
  have hhelpers : ∀ f ∈ functions products ++ functions overflowDecls, Helper f := by
    intro f hf
    rcases List.mem_append.1 hf with hf | hf
    · exact helper_products f hf
    · exact helper_overflowDecls f hf
  refine wellScoped_of_entry (functions_fragmentShader p) visible_fragmentShader hhelpers
    (closed_fragmentBody hp fragmentScope_visible) ?_ (ranked_globals_fragmentShader hp)
    (ranked_fragmentBody p) (by omega) nodup_fields_fragmentShader
    (nodup_bindings_fragmentShader hp)
  rw [assigned_fragmentBody]
  decide

end Shader

end Shader
end FixedFunction
