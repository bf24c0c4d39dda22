import FixedFunction.Proofs.Program.Demands
import FixedFunction.Proofs.Shader.Literals

/-!
# Supported materials

**Input.**  A material.

**Results.**
* `Material.Supported`: the materials that have a program and a raster state.
* `Material.finite_of_lower`: a program that a material is lowered to has finite numbers only.
* `Material.compile_outcome`: the supported materials are those that compile, the others are refused
  for the first demand that they do not meet, and the shaders of a program can always be written.
-/

namespace FixedFunction

section Defs

/-- The generator with number `k` is supported. -/
structure TexGen.Supported (k : Nat) (g : TexGen) : Prop where
  kind : g.kind = .srtg ∨ g.kind = .mtx2x4 ∨ g.kind = .mtx3x4
  source : ∀ i, g.source.coordNumber? = some i → i < k
  post : g.post.row = 125 ∨ ∃ j < 20, g.post.row.toNat = 64 + 3 * j

/-- The indirect settings of a stage of a material are supported. -/
def CombinerStage.IndirectSupported (m : Material) (s : CombinerStage) : Prop :=
  s.indirect.matrix = .off ∨
    (s.indirect.matrix = .m0 ∨ s.indirect.matrix = .m1 ∨ s.indirect.matrix = .m2) ∧
      s.indirect.format = .f8 ∧ s.indirect.stage.toNat < m.indirectStages.length

/-- An operation is supported. -/
def CombineOp.Supported (op : CombineOp) : Prop :=
  op = .add ∨ op = .sub ∨ op = .compR8Gt

/-- A stage of a material is supported. -/
structure CombinerStage.Supported (m : Material) (s : CombinerStage) : Prop where
  indirect : s.IndirectSupported m
  channel : .rasC ∈ s.color.inputs ∨ .rasA ∈ s.color.inputs ∨ .rasA ∈ s.alpha.inputs →
    s.channel ∈ [.color0, .color1, .color0A0, .color1A1, .colorZero]
  colorOp : s.color.op.Supported
  alphaOp : s.alpha.op.Supported

/-- Neither comparison looks at its reference, or both references are finite. -/
def AlphaTest.Supported (t : AlphaTest) : Prop :=
  (t.compareA = .never ∨ t.compareA = .always) ∧ (t.compareB = .never ∨ t.compareB = .always) ∨
    t.referenceA.isFinite ∧ t.referenceB.isFinite

/-- A material is supported. -/
structure Material.Supported (m : Material) : Prop where
  texGens : ∀ k (g : TexGen), m.texGens[k]? = some g → g.Supported k
  stages : ∀ s ∈ m.stages, s.Supported m
  alphaTest : m.alphaTest.Supported
  blend : m.output.blend.mode ≠ .logic

end Defs

section Supported

theorem forall_mem_mapIdx_flatten {α β : Type} {f : Nat → α → List β} {P : β → Prop} {l : List α} :
    (∀ y ∈ (l.mapIdx f).flatten, P y) ↔ ∀ k x, l[k]? = some x → ∀ y ∈ f k x, P y := by
  constructor
  · intro h k x hx y hy
    refine h y (List.mem_flatten.2 ⟨f k x, ?_, hy⟩)
    exact List.mem_iff_getElem?.2 ⟨k, by rw [List.getElem?_mapIdx, hx]; rfl⟩
  · intro h y hy
    obtain ⟨ys, hys, hy⟩ := List.mem_flatten.1 hy
    obtain ⟨k, hk, rfl⟩ := List.mem_mapIdx.1 hys
    exact h k _ (List.getElem?_eq_getElem hk) y hy

theorem TexGen.supported_iff {k : Nat} {g : TexGen} :
    g.Supported k ↔ ∀ d ∈ g.demands k, d.met := by
  have hsource : (∀ i, g.source.coordNumber? = some i → i < k) ↔
      g.source.coordNumber?.all (· < k) := by
    cases g.source.coordNumber? <;> simp
  simp only [TexGen.demands, List.forall_mem_cons, ← hsource]
  simp only [decide_eq_true_eq, List.mem_cons, List.not_mem_nil]
  constructor
  · rintro ⟨hkind, hsource, hpost⟩
    exact ⟨by simpa using hkind, hsource, hpost, by simp⟩
  · rintro ⟨hkind, hsource, hpost, -⟩
    exact ⟨by simpa using hkind, hsource, hpost⟩

theorem CombinerStage.indirectSupported_iff {m : Material} {k : Nat} {s : CombinerStage} :
    s.IndirectSupported m ↔ ∀ d ∈ s.indirectDemands m k, d.met := by
  unfold IndirectSupported indirectDemands
  cases s.indirect.matrix <;> simp

theorem CombinerStage.rasterDemand_met_iff {s : CombinerStage} : s.rasterDemand.met ↔
    (.rasC ∈ s.color.inputs ∨ .rasA ∈ s.color.inputs ∨ .rasA ∈ s.alpha.inputs →
      s.channel ∈ [.color0, .color1, .color0A0, .color1A1, .colorZero]) := by
  rw [← readsRaster_iff, rasterDemand, decide_eq_true_eq]
  cases s.readsRaster <;> simp

theorem CombineOp.supported_iff {op : CombineOp} : op.Supported ↔ op.demand.met := by
  simp [Supported, demand]

theorem CombinerStage.supported_iff {m : Material} {k : Nat} {s : CombinerStage} :
    s.Supported m ↔ ∀ d ∈ s.demands m k, d.met := by
  simp only [demands, List.forall_mem_append, List.forall_mem_cons, ← indirectSupported_iff,
    rasterDemand_met_iff, ← CombineOp.supported_iff]
  constructor
  · rintro ⟨hindirect, hchannel, hcolor, halpha⟩
    exact ⟨hindirect, hchannel, hcolor, halpha, List.forall_mem_nil _⟩
  · rintro ⟨hindirect, hchannel, hcolor, halpha, -⟩
    exact ⟨hindirect, hchannel, hcolor, halpha⟩

theorem AlphaTest.supported_iff {t : AlphaTest} : t.Supported ↔ t.demand.met := by
  simp [Supported, demand]

/-- The supported materials are those that meet all demands. -/
theorem Material.supported_iff {m : Material} : m.Supported ↔ ∀ d ∈ m.demands, d.met := by
  have hstages : (∀ s ∈ m.stages, s.Supported m) ↔
      ∀ k (s : CombinerStage), m.stages[k]? = some s → ∀ d ∈ s.demands m k, d.met := by
    constructor
    · intro h k s hs
      exact CombinerStage.supported_iff.1 (h s (List.mem_of_getElem? hs))
    · intro h s hs
      obtain ⟨k, hk⟩ := List.mem_iff_getElem?.1 hs
      exact CombinerStage.supported_iff.2 (h k s hk)
  simp only [demands, programDemands, List.forall_mem_append, forall_mem_mapIdx_flatten,
    List.forall_mem_singleton, ← TexGen.supported_iff, ← hstages, ← AlphaTest.supported_iff]
  constructor
  · rintro ⟨hgens, hstages, halpha, hblend⟩
    exact ⟨⟨⟨hgens, hstages⟩, halpha⟩, decide_eq_true hblend⟩
  · rintro ⟨⟨⟨hgens, hstages⟩, halpha⟩, hblend⟩
    exact ⟨hgens, hstages, halpha, of_decide_eq_true hblend⟩

end Supported

section Finite

open Shader

theorem KonstColor.finite_operand (k : KonstColor) :
    FiniteLiterals (operandLiterals k.operand) := by
  cases k <;> decide +kernel

theorem KonstAlpha.finite_operand (k : KonstAlpha) :
    FiniteLiterals (operandLiterals k.operand) := by
  cases k <;> decide +kernel

theorem finite_textureOperand (t : Option UInt8) (w : Swizzle) :
    FiniteLiterals (operandLiterals (textureOperand t w)) := by
  cases t with
  | none => exact FiniteLiterals.single.2 rfl
  | some t => exact List.forall_mem_nil _

theorem ColorInput.finite_operand (k : KonstColor) (t : Option UInt8) (i : ColorInput) :
    FiniteLiterals (operandLiterals (i.operand k t)) := by
  cases i with
  | texC | texA => exact finite_textureOperand t _
  | konst => exact k.finite_operand
  | one | half | zero => exact FiniteLiterals.single.2 rfl
  | _ => exact List.forall_mem_nil _

theorem AlphaInput.finite_operand (k : KonstAlpha) (t : Option UInt8) (i : AlphaInput) :
    FiniteLiterals (operandLiterals (i.operand k t)) := by
  cases i with
  | texA => exact finite_textureOperand t _
  | konst => exact k.finite_operand
  | zero => exact FiniteLiterals.single.2 rfl
  | _ => exact List.forall_mem_nil _

theorem CombineBias.finite_value (b : CombineBias) : b.value.isFinite := by
  cases b <;> decide +kernel

theorem CombineScale.finite_value (s : CombineScale) : s.value.isFinite := by
  cases s <;> decide +kernel

theorem IndirectScale.finite_reciprocal (s : IndirectScale) :
    (1 / s.divisor.toUInt32.toFloat32).isFinite := by
  cases s <;> decide +kernel

theorem IndirectWrap.finite_lower (w : IndirectWrap) : w.lower.Finite := by
  cases w with
  | off | w0 => trivial
  | _ =>
    change Float32.isFinite _ = true
    decide +kernel

theorem finite_biasValue (on : Bool) : (biasValue on).isFinite := by
  cases on <;> decide

variable {o : Omissions} {m : Material}

theorem IndirectStage.finite_lower (s : IndirectStage) :
    FiniteLiterals (sampleLiterals (s.lower o m)) := by
  unfold sampleLiterals
  split
  case h_1 =>
    have hS := s.scaleS.finite_reciprocal
    have hT := s.scaleT.finite_reciprocal
    exact FiniteLiterals.cons.2 ⟨hS, FiniteLiterals.single.2 hT⟩
  case h_2 => exact List.forall_mem_nil _

/-- A half of a stage has finite numbers if its operands have. -/
theorem CombinerHalf.finite_lower {ι : Type} {operand : ι → Operand} {h : CombinerHalf ι} {x : Half}
    (hoperand : ∀ i, FiniteLiterals (operandLiterals (operand i))) (hx : h.lower operand = .ok x) :
    (∀ y ∈ x.operands, FiniteLiterals (operandLiterals y)) ∧ FiniteLiterals (halfLiterals x) := by
  constructor
  · intro y hy
    rw [operands_of_lower hx] at hy
    obtain ⟨i, -, rfl⟩ := List.mem_map.1 hy
    exact hoperand i
  · obtain ⟨op, -, rfl⟩ := lower_eq_ok hx
    have hbias := h.bias.finite_value
    have hscale := h.scale.finite_value
    cases op with
    | add | sub =>
      refine FiniteLiterals.append.2 ⟨?_, ?_⟩
      · split
        · exact List.forall_mem_nil _
        · exact FiniteLiterals.single.2 hbias
      · split
        · exact List.forall_mem_nil _
        · exact FiniteLiterals.single.2 hscale
    | greater => exact List.forall_mem_nil _

theorem CombinerStage.finite_stageCoord {k : Nat} {s : CombinerStage} {c : StageCoord}
    (h : s.stageCoord m k = .ok c) :
    c.FiniteWraps ∧ ∀ x, c.indirect = some x → FiniteLiterals (offsetLiterals x) := by
  obtain ⟨indirect, hindirect, rfl⟩ := stageCoord_eq_ok h
  refine ⟨⟨s.indirect.wrapS.finite_lower, s.indirect.wrapT.finite_lower⟩, ?_⟩
  rintro x rfl
  obtain ⟨-, matrix, -, rfl⟩ := offset_eq_ok hindirect
  have hbias := finite_biasValue
  exact FiniteLiterals.cons.2 ⟨hbias _, FiniteLiterals.cons.2 ⟨hbias _,
    FiniteLiterals.single.2 (hbias _)⟩⟩

theorem CombinerStage.finite_lower {k : Nat} {s : CombinerStage} {t : Stage}
    (h : s.lower o m k = .ok t) :
    FiniteLiterals (stageLiterals t) ∧ ∀ c, t.coord = some c → c.FiniteWraps := by
  obtain ⟨coord, raster, color, alpha, hcoord, -, hcolor, halpha, rfl⟩ := lower_eq_ok h
  obtain ⟨hwraps, hoffset⟩ := finite_stageCoord hcoord
  obtain ⟨hcolors, hcolor⟩ := CombinerHalf.finite_lower (ColorInput.finite_operand _ _) hcolor
  obtain ⟨halphas, halpha⟩ := CombinerHalf.finite_lower (AlphaInput.finite_operand _ _) halpha
  simp only [Half.operands, List.forall_mem_cons] at hcolors halphas
  obtain ⟨ha, hb, hc, hd, -⟩ := hcolors
  obtain ⟨ha', hb', hc', hd', -⟩ := halphas
  constructor
  · simp only [stageLiterals, pairLiterals, FiniteLiterals.append]
    refine ⟨⟨?_, ⟨⟨⟨ha, ha'⟩, hb, hb'⟩, hc, hc'⟩, hd, hd'⟩, hcolor, halpha⟩
    unfold coordLiterals
    split
    case h_1 x _ hx =>
      obtain ⟨_, -, rfl⟩ := Option.map_eq_some_iff.1 hx
      exact hoffset x rfl
    case h_2 => exact List.forall_mem_nil _
  · intro c hc
    obtain ⟨_, -, rfl⟩ := Option.map_eq_some_iff.1 hc
    exact hwraps

theorem AlphaTest.finite_lower {t : AlphaTest} {c : AlphaCheck} (h : t.lower = .ok c) :
    FiniteLiterals (alphaLiterals c) := by
  have hcomparison (r : Comparison) {x : Float32} (hx : x.isFinite) :
      FiniteLiterals (comparisonLiterals r x) := by
    cases r with
    | never | always => exact List.forall_mem_nil _
    | _ => exact FiniteLiterals.single.2 hx
  unfold lower at h
  split at h
  case h_1 | h_2 =>
    obtain rfl := Except.ok.inj h
    exact List.forall_mem_nil _
  case h_3 =>
    split at h
    case isTrue hfinite =>
      obtain ⟨ha, hb⟩ := Bool.and_eq_true_iff.1 hfinite
      obtain rfl := Except.ok.inj h
      exact FiniteLiterals.append.2 ⟨hcomparison _ ha, hcomparison _ hb⟩
    case isFalse => exact absurd h (by simp)

/-- A lowered program brings finite numbers only into its shaders. -/
theorem Material.finite_of_lower {p : Program} (h : m.lower o = .ok p) : p.Finite := by
  obtain ⟨gens, stages, check, -, hstages, hcheck, rfl⟩ := lower_eq_ok h
  have hstage (s : Stage) (hs : s ∈ stages) :
      FiniteLiterals (stageLiterals s) ∧ ∀ c, s.coord = some c → c.FiniteWraps := by
    obtain ⟨k, x, -, hx⟩ := mem_of_refuseFirst hstages hs
    exact CombinerStage.finite_lower hx
  refine ⟨?_, fun s hs => (hstage s hs).2⟩
  simp only [literals, FiniteLiterals.append, FiniteLiterals.flatMap]
  refine ⟨⟨fun s hs => ?_, fun s hs => (hstage s hs).1⟩, AlphaTest.finite_lower hcheck⟩
  obtain ⟨x, -, rfl⟩ := List.mem_map.1 hs
  exact x.finite_lower

end Finite

open Shader

/-- A material compiles to two texts exactly if it is supported, and otherwise it is refused for the
first demand that it does not meet.  After it is lowered, both shaders can be written, with numbers
that are finite. -/
theorem Material.compile_outcome (o : Omissions) (m : Material) :
    ((∃ c, m.compile o = .ok c ∧ c.program.texts = .ok (c.vertexText, c.fragmentText)) ↔
        m.Supported) ∧
      (∀ e, m.compile o = .error e ↔ ∃ before d after, m.demands = before ++ d :: after ∧
        (∀ d' ∈ before, d'.met) ∧ d.met = false ∧ e = d.refusal) ∧
      ∀ p, m.lower o = .ok p →
        p.texts = .ok (Source.text (vertexShader p), Source.text (fragmentShader p)) ∧
        (vertexShader p).finite ∧ (fragmentShader p).finite := by
  have hanswers := m.answers_compile o
  have htexts (p : Program) (hp : m.lower o = .ok p) :
      p.texts = .ok (Source.text (vertexShader p), Source.text (fragmentShader p)) :=
    Program.texts_eq_ok_iff.2 ⟨(finite_of_lower hp).literals, rfl⟩
  refine ⟨⟨?_, fun hm => ?_⟩, fun e => ?_, fun p hp => ?_⟩
  · rintro ⟨c, hc, -⟩
    exact supported_iff.2 (hanswers.ok_iff.1 ⟨c, hc⟩)
  · obtain ⟨c, hc⟩ := hanswers.ok_iff.2 (supported_iff.1 hm)
    exact ⟨c, hc, htexts c.program (compile_eq_ok hc).1⟩
  · rw [hanswers.error_iff]
    constructor
    · rintro ⟨d, hd, rfl⟩
      obtain ⟨hunmet, before, after, hsplit, hbefore⟩ := firstUnmet_eq_some_iff.1 hd
      exact ⟨before, d, after, hsplit, hbefore, hunmet, rfl⟩
    · rintro ⟨before, d, after, hsplit, hbefore, hunmet, rfl⟩
      exact ⟨d, firstUnmet_eq_some_iff.2 ⟨hunmet, before, after, hsplit, hbefore⟩, rfl⟩
  · exact ⟨htexts p hp, finite_vertexShader p, finite_fragmentShader (finite_of_lower hp)⟩

namespace Sample

/-- A material with an indirect offset, a post matrix and a test that looks at alpha. -/
def compared : Material where
  texGens := [{ source := .tex0 }, { source := .texCoord0, post := ⟨67⟩ }]
  indirectStages := [{ coord := some 1, texture := some 5 }]
  stages := [
    CombinerStage.modulate 0 2 .color0A0,
    { CombinerStage.modulate 1 3 .colorZero with indirect := { matrix := .m2 } }]
  alphaTest := { compareA := .greater, referenceA := 0.5, compareB := .lessEqual, referenceB := 1 }

/-- A generator that reads itself through a post matrix that is not there, in a material whose
blending is not supported either. -/
def circular : Material where
  texGens := [{ source := .tex0 }, { source := .texCoord1, post := ⟨66⟩ }]
  output := { blend := { mode := .logic } }

end Sample

open Sample in
/-- The one compiles to two texts, and the other is refused for the source of its second
generator. -/
theorem Material.compile_outcome_compared_circular :
    (∃ c, compared.compile {} = .ok c ∧
        c.program.texts = .ok (c.vertexText, c.fragmentText)) ∧
      (∃ p, compared.lower {} = .ok p ∧ (fragmentShader p).finite) ∧
      circular.compile {} = .error (.invalidValue "tex_gen_source" 13) := by
  obtain ⟨haccepts, -, hwrites⟩ := compile_outcome {} compared
  obtain ⟨p, hp⟩ : ∃ p, compared.lower {} = .ok p := ⟨_, rfl⟩
  refine ⟨haccepts.2 (supported_iff.2 (by decide +kernel)), ⟨p, hp, (hwrites p hp).2.2⟩, ?_⟩
  refine ((compile_outcome {} circular).2.1 _).2 ⟨circular.demands.take 4, _, _, rfl, ?_, ?_, ?_⟩
  · decide +kernel
  · rfl
  · rfl

end FixedFunction
