import FixedFunction.Proofs.Combiner.Stages
import FixedFunction.Proofs.Shader.Reading

/-!
# Fragment shaders run the combiner

**Invariant.**  Before each stage the variables hold what the machine of the combiner holds: the
registers, the running coordinate, and the indirect samples; and what the fragment reads from
outside is as it was.

**Results.**
* `Shader.run_stageStmts`: a stage does to the variables what it does to the machine.
* `Material.combine_of_compile`: the fragment shader of every material that compiles returns the
  first register of the machine after all stages.
-/

namespace FixedFunction
namespace Shader

open Shader.Expr

variable {σ : Type}

/-- The variables that a fragment shader finds. -/
def env (F : Frame σ) : Env σ
  | .scene => .record fun
    | .misc0 => .vector F.misc0.list
    | _ => .vector []
  | .material => .record fun
    | .color => .array fun i => .vector (F.registers i).list
    | .konstColor => .array fun i => .vector (F.konst i).list
    | .textureParams => .array fun i => .vector (F.textureParams i).list
    | .indTexMtx => .array fun i => .record fun
      | .mx => .vector (F.indirectMatrix i).1.list
      | .my => .vector (F.indirectMatrix i).2.list
      | _ => .vector []
    | _ => .vector []
  | .input => .record fun
    | .channel i => .vector (F.channel i).list
    | .coord i => .vector (F.coord i).list
    | _ => .vector []
  | .texture t => .texture t
  | .sampler t => .sampler t
  | _ => .vector []

section Eval

variable (A : Arithmetic σ) (e : Env σ) (a b : Expr)

@[simp] theorem eval_paren : (paren a).eval A e = a.eval A e := rfl

@[simp] theorem eval_add : (a + b).eval A e = A.operate .add (a.eval A e) (b.eval A e) := rfl

@[simp] theorem eval_sub : (a - b).eval A e = A.operate .sub (a.eval A e) (b.eval A e) := rfl

@[simp] theorem eval_mul : (a * b).eval A e = A.operate .mul (a.eval A e) (b.eval A e) := rfl

@[simp] theorem eval_div : (a / b).eval A e = A.operate .div (a.eval A e) (b.eval A e) := rfl

@[simp] theorem eval_mod : (a % b).eval A e = A.operate .rem (a.eval A e) (b.eval A e) := rfl

end Eval

section Outside

variable {A : Arithmetic σ} {F : Frame σ} {e : Env σ}

-- What a fragment reads from outside is as it was.
variable (he : ∀ n, n.rank < 3 → e n = env F n)

include he

theorem eval_planeCoord (c : Option UInt8) :
    (planeCoord c).eval A e = .vector (F.plane A c).list := by
  cases c with
  | none => rfl
  | some k =>
    simp only [planeCoord, input, eval_paren, eval_div, eval, he .input (by decide)]
    rfl

theorem eval_sampleTexture (t : UInt8) {x : Expr} {v : Vec2 σ}
    (hx : x.eval A e = .vector v.list) :
    (sampleTexture t x).eval A e = .vector (F.sample A t v).list := by
  have htexture := he (.texture t) (by simp [Ident.rank])
  have hsampler := he (.sampler t) (by simp [Ident.rank])
  simp only [sampleTexture, levelBias, textureParams, scene, material, eval, hx, htexture, hsampler,
    he .scene (by decide), he .material (by decide)]
  rfl

theorem eval_indirectSample (s : IndirectSample) :
    (indirectSample s).eval A e = .vector (s.value A F).list := by
  cases ht : s.texture with
  | none =>
    simp only [indirectSample, IndirectSample.value, ht]
    rfl
  | some t =>
    let v : Vec2 σ := ⟨A.mul (F.plane A s.coord).x (A.lit (1 / s.scaleS.toUInt32.toFloat32)),
      A.mul (F.plane A s.coord).y (A.lit (1 / s.scaleT.toUInt32.toFloat32))⟩
    have hpoint : (planeCoord s.coord * call2 .vec2 (reciprocal s.scaleS)
        (reciprocal s.scaleT)).eval A e = .vector v.list := by
      rw [eval_mul, eval_planeCoord he]
      rfl
    simp only [indirectSample, IndirectSample.value, ht, eval_mul, eval,
      eval_sampleTexture he t hpoint]
    rfl

theorem eval_rasterColor (r : Option RasterSource) :
    (call1 .saturate (rasterColor r)).eval A e = .vector (F.raster A r).list := by
  rcases r with _ | ⟨i⟩ | _
  · rfl
  · simp only [rasterColor, input, eval, he .input (by decide)]
    rfl
  · rfl

end Outside

section Combined

variable {A : Arithmetic σ} {e : Env σ} {k : Nat} {i : StageInputs σ}

theorem eval_adjust {x : Expr} {xs : List σ} (hx : x.eval A e = .vector xs) (h : Half) :
    (let biased := if h.bias == 0 then x else paren (x + lit h.bias)
      if h.scale == 1 then biased else paren biased * lit h.scale).eval A e =
        .vector (xs.map (h.adjust A)) := by
  have hbiased : (if h.bias == 0 then x else paren (x + lit h.bias)).eval A e =
      .vector (xs.map fun y => if h.bias == 0 then y else A.add y (A.lit h.bias)) := by
    split
    case isTrue => simpa using hx
    case isFalse =>
      rw [eval, eval_add, hx]
      exact congrArg _ (broadcast_single _ _ _)
  unfold Half.adjust
  dsimp only
  split
  case isTrue => exact hbiased
  case isFalse =>
    rw [eval_mul, eval_paren, hbiased]
    refine congrArg _ ((broadcast_single _ _ _).trans ?_)
    exact List.map_map

theorem eval_limit {x : Expr} {xs : List σ} (hx : x.eval A e = .vector xs) (h : Half) :
    (if h.clamp then call1 .saturate x else x).eval A e = .vector (xs.map (h.limit A)) := by
  unfold Half.limit
  split
  case isTrue =>
    rw [eval, hx]
    rfl
  case isFalse => simpa using hx

/-- The value of some components of a half. -/
theorem eval_combined (he : ∀ x, e (.operand k x) = .vector (i.get x).list) (h : Half)
    (cs : List Component) {zero : Expr}
    (hzero : zero.eval A e = .vector (cs.map fun _ => A.lit 0)) :
    (combined k cs zero h).eval A e = .vector (cs.map fun c =>
      h.component A (i.greater A) (i.a.get c) (i.b.get c) (i.c.get c) (i.d.get c)) := by
  have harg (x : StageInput) (cs : List Component) :
      (swizzle (var (.operand k x)) cs).eval A e = .vector (cs.map (i.get x).get) := by
    rw [eval, eval, he]
    exact congrArg _ (components_list _ _)
  have hmix : (call3 .mix (swizzle (var (.operand k .a)) cs) (swizzle (var (.operand k .b)) cs)
      (swizzle (var (.operand k .c)) cs)).eval A e =
        .vector (cs.map fun c => A.mix (i.a.get c) (i.b.get c) (i.c.get c)) := by
    rw [eval, harg, harg, harg]
    exact congrArg _ (zipWith3_map _ _ _ _ _)
  cases hop : h.op with
  | add =>
    have hsum : (call3 .mix (swizzle (var (.operand k .a)) cs) (swizzle (var (.operand k .b)) cs)
        (swizzle (var (.operand k .c)) cs) + swizzle (var (.operand k .d)) cs).eval A e =
          .vector (cs.map fun c =>
            A.add (A.mix (i.a.get c) (i.b.get c) (i.c.get c)) (i.d.get c)) := by
      rw [eval_add, hmix, harg]
      exact congrArg _ (broadcast_map _ _ _ _)
    simp only [combined, Half.component, hop]
    refine (eval_limit (eval_adjust hsum h) h).trans ?_
    rw [List.map_map, List.map_map]
    rfl
  | sub =>
    have hdifference : (call3 .mix (swizzle (var (.operand k .a)) cs)
        (swizzle (var (.operand k .b)) cs) (swizzle (var (.operand k .c)) cs) -
          swizzle (var (.operand k .d)) cs).eval A e = .vector (cs.map fun c =>
            A.sub (A.mix (i.a.get c) (i.b.get c) (i.c.get c)) (i.d.get c)) := by
      rw [eval_sub, hmix, harg]
      exact congrArg _ (broadcast_map _ _ _ _)
    simp only [combined, Half.component, hop]
    refine (eval_limit (eval_adjust hdifference h) h).trans ?_
    rw [List.map_map, List.map_map]
    rfl
  | greater =>
    have hselect : (call3 .select zero (swizzle (var (.operand k .c)) cs)
        (binary .gt (swizzle (var (.operand k .a)) [.r])
          (swizzle (var (.operand k .b)) [.r]))).eval A e =
        .vector (cs.map fun c => if i.greater A then i.c.get c else A.lit 0) := by
      rw [eval, hzero, harg, eval, harg, harg]
      change (if i.greater A then Value.vector (cs.map i.c.get) else _) = _
      cases i.greater A <;> rfl
    simp only [combined, Half.component, hop]
    refine (eval_limit hselect h).trans ?_
    rw [List.map_map]
    rfl

theorem eval_combinedColor (he : ∀ x, e (.operand k x) = .vector (i.get x).list) (h : Half) :
    (combinedColor k h).eval A e = .vector (i.color A h).list :=
  eval_combined he h [.r, .g, .b] rfl

theorem eval_combinedAlpha (he : ∀ x, e (.operand k x) = .vector (i.get x).list) (h : Half) :
    (combinedAlpha k h).eval A e = .vector [i.alpha A h] :=
  eval_combined he h [.a] rfl

end Combined

/-- What the stages find and leave as it is. -/
structure Setting (A : Arithmetic σ) (F : Frame σ) (p : Program) (e : Env σ) : Prop where
  outside : ∀ n, n.rank < 3 → e n = env F n
  output : e .output = .record fun _ => .vector []
  indirect : ∀ i < p.indirectSamples.length, e (.indirect i) = .vector (p.indirectValue A F i).list

/-- The variables hold what the machine holds. -/
structure Agrees (A : Arithmetic σ) (F : Frame σ) (p : Program) (m : Machine σ) (e : Env σ) : Prop
    extends Setting A F p e where
  register : ∀ r, e (.register r) = .vector (m.registers r).list
  coord : e .coord = .vector m.coord.list

section Agrees

variable {A : Arithmetic σ} {F : Frame σ} {p : Program} {m : Machine σ} {e : Env σ}

theorem Setting.update (h : Setting A F p e) {n : Ident} (hlow : 3 ≤ n.rank) (hrank : n.rank ≠ 4)
    (hout : n ≠ .output) (v : Value σ) : Setting A F p (Function.update e n v) where
  outside n' hn' := by
    rw [Function.update_of_ne (by rintro rfl; omega), h.outside n' hn']
  output := by
    rw [Function.update_of_ne hout.symm, h.output]
  indirect i hi := by
    rw [Function.update_of_ne (by rintro rfl; exact hrank rfl), h.indirect i hi]

namespace Agrees

/-- The variables of a stage are not part of the machine. -/
theorem update_stage (h : Agrees A F p m e) {n : Ident} (hn : 5 ≤ n.rank) (v : Value σ) :
    Agrees A F p m (Function.update e n v) where
  toSetting :=
    h.toSetting.update (by omega) (by omega) (by rintro rfl; exact absurd hn (by decide)) v
  register r := by
    rw [Function.update_of_ne (by rintro rfl; exact absurd hn (by simp [Ident.rank])), h.register]
  coord := by
    rw [Function.update_of_ne (by rintro rfl; exact absurd hn (by decide)), h.coord]

theorem update_coord (h : Agrees A F p m e) (v : Vec2 σ) :
    Agrees A F p { m with coord := v } (Function.update e .coord (.vector v.list)) where
  toSetting := h.toSetting.update (by decide) (by decide) (by decide) _
  register r := by
    rw [Function.update_of_ne (by simp), h.register]
  coord := Function.update_self _ _ _

theorem update_register (h : Agrees A F p m e) (r : Register) (v : Vec4 σ) :
    Agrees A F p { m with registers := Function.update m.registers r v }
      (Function.update e (.register r) (.vector v.list)) where
  toSetting := h.toSetting.update (by simp [Ident.rank]) (by simp [Ident.rank]) (by simp) _
  register r' := by
    change _ = Value.vector (Function.update m.registers r v r').list
    by_cases hr : r' = r
    · rw [hr, Function.update_self, Function.update_self]
    · rw [Function.update_of_ne (by simpa using hr), Function.update_of_ne hr, h.register]
  coord := by
    rw [Function.update_of_ne (by simp), h.coord]

end Agrees

end Agrees

section Stage

variable {A : Arithmetic σ} {F : Frame σ} {p : Program} {m : Machine σ} {e : Env σ} {k : Nat}

theorem eval_color {x : Expr} {v : Vec4 σ} (hx : x.eval A e = .vector v.list) (w : Swizzle) :
    (swizzle x (colorComponents w)).eval A e = .vector (w.color v).list := by
  rw [eval, hx]
  cases w <;> rfl

theorem eval_alpha {x : Expr} {v : Vec4 σ} (hx : x.eval A e = .vector v.list) (w : Swizzle) :
    (swizzle x (alphaComponent w)).eval A e = .vector [w.alpha v] := by
  rw [eval, hx]
  cases w <;> rfl

theorem eval_offset (h : Agrees A F p m e) {o : IndirectOffset}
    (ho : o.stage.toNat < p.indirectSamples.length) :
    (offset o).eval A e = .vector (o.value A F (p.indirectValue A F)).list := by
  have hindirect := h.indirect _ ho
  have hmaterial := h.outside .material (by decide)
  cases ht : o.texture with
  | none =>
    simp only [offset, IndirectOffset.value, ht, material, eval, hindirect, hmaterial]
    rfl
  | some t =>
    simp only [offset, IndirectOffset.value, ht, material, textureParams, eval, eval_mul, eval_div,
      hindirect, hmaterial]
    rfl

/-- The coordinate of a stage is the configured one. -/
theorem eval_stageCoord (h : Agrees A F p m e) {c : StageCoord} (hc : c.Resolved p)
    (hbase : isWrapped c → e (.coordBase k) = .vector (F.plane A c.coord).list) :
    (stageCoord k c).eval A e = .vector (c.value A F (p.indirectValue A F)).list := by
  -- A coordinate that is not wrapped is written without the variable that holds its base.
  have hcoord : (baseCoord k c).eval A e =
      .vector (⟨c.wrapS.apply A (F.plane A c.coord).x, c.wrapT.apply A (F.plane A c.coord).y⟩ :
        Vec2 σ).list := by
    unfold baseCoord
    split
    case isTrue hwrapped =>
      have haxis (w : Wrap) (axis : Component) (y : σ)
          (hy : components (F.plane A c.coord).list [axis] = [y]) :
          (wrapped k axis w).eval A e = .vector [w.apply A y] := by
        have hread : (swizzle (var (.coordBase k)) [axis]).eval A e = .vector [y] := by
          rw [eval, eval, hbase hwrapped]
          exact congrArg Value.vector hy
        cases w with
        | off => exact hread
        | zero => rfl
        | modulo n =>
          rw [wrapped, eval_paren, eval_mod, hread]
          rfl
      rw [eval, haxis _ .x _ rfl, haxis _ .y _ rfl]
      rfl
    case isFalse hplain =>
      obtain ⟨hs, ht⟩ : c.wrapS = .off ∧ c.wrapT = .off := by
        simpa [isWrapped, wrapActs] using hplain
      rw [eval_planeCoord h.outside, hs, ht]
      rfl
  cases hi : c.indirect with
  | none =>
    simp only [stageCoord, StageCoord.value, hi]
    exact hcoord
  | some o =>
    simp only [stageCoord, StageCoord.value, hi, eval_add, hcoord, eval_offset h (hc.indirect o hi)]
    rfl

/-- The coordinate moves as configured. -/
theorem run_coordStmts (h : Agrees A F p m e) {c : StageCoord} (hc : c.Resolved p) :
    Agrees A F p { m with coord := c.move A F (p.indirectValue A F) m.coord }
      (run A e (coordStmts k c)) := by
  have hbind : ∃ e', run A e (if isWrapped c then [.bind (.coordBase k) (planeCoord c.coord)]
      else []) = e' ∧ Agrees A F p m e' ∧
        (isWrapped c → e' (.coordBase k) = .vector (F.plane A c.coord).list) := by
    split
    case isTrue hwrapped =>
      refine ⟨_, rfl, h.update_stage (n := .coordBase k) (Nat.le_add_right 5 k) _, fun _ => ?_⟩
      exact (Function.update_self _ _ _).trans (eval_planeCoord h.outside _)
    case isFalse hplain => exact ⟨e, rfl, h, fun hwrapped => absurd hwrapped hplain⟩
  obtain ⟨e', he', h', hbase⟩ := hbind
  rw [coordStmts, run_stmts_append, he']
  have hvalue := eval_stageCoord h' hc hbase
  unfold StageCoord.move
  split
  case isTrue =>
    change Agrees A F p _ (Function.update e' .coord
      (A.operate .add (e' .coord) ((stageCoord k c).eval A e')))
    rw [h'.coord, hvalue]
    exact h'.update_coord _
  case isFalse =>
    change Agrees A F p _ (Function.update e' .coord ((stageCoord k c).eval A e'))
    rw [hvalue]
    exact h'.update_coord _

/-- The coordinate of stage `k` has moved, and the sample is taken if there is a texture. -/
structure Sampled (A : Arithmetic σ) (F : Frame σ) (p : Program) (k : Nat) (s : Stage)
    (m : Machine σ) (e : Env σ) : Prop
    extends Agrees A F p { m with coord := s.move A F (p.indirectValue A F) m.coord } e where
  sample : s.texture.isSome →
    e (.sample k) = .vector (s.reads A F (p.indirectValue A F) m).texture.list

theorem run_sampleStmts (h : Agrees A F p m e) {s : Stage} (hs : s.Resolved p) :
    Sampled A F p k s m (run A e (sampleStmts k s)) := by
  have hsome := hs.coord_isSome
  cases ht : s.texture with
  | none =>
    have hmove : s.move A F (p.indirectValue A F) m.coord = m.coord := by
      rw [Stage.move, ht]
    have hstmts : sampleStmts k s = [] := by
      rw [sampleStmts, ht]
    rw [hstmts]
    exact ⟨hmove.symm ▸ h, by simp [ht]⟩
  | some t =>
    obtain ⟨c, hc⟩ := Option.isSome_iff_exists.1 (hsome.trans (congrArg Option.isSome ht))
    have hmove : s.move A F (p.indirectValue A F) m.coord =
        c.move A F (p.indirectValue A F) m.coord := by
      rw [Stage.move, ht, hc]
    have hstmts : sampleStmts k s =
        coordStmts k c ++ [.bind (.sample k) (sampleTexture t (var .coord))] := by
      rw [sampleStmts, ht, hc]
    have h' := run_coordStmts (k := k) h (hs.coord c hc)
    rw [← hmove] at h'
    rw [hstmts, run_stmts_append]
    refine ⟨h'.update_stage (n := .sample k) (Nat.le_add_right 5 k) _, fun _ => ?_⟩
    refine (Function.update_self _ _ _).trans ?_
    rw [Stage.reads, ht]
    exact eval_sampleTexture h'.outside t h'.coord

section Sampled

variable {s : Stage}

theorem Sampled.update_operand (h : Sampled A F p k s m e) (i : StageInput) (v : Value σ) :
    Sampled A F p k s m (Function.update e (.operand k i) v) where
  toAgrees := h.toAgrees.update_stage (n := .operand k i) (Nat.le_add_right 5 k) v
  sample ht := by
    rw [Function.update_of_ne (by simp), h.sample ht]

/-- An operand of either half has the value that the stage reads. -/
theorem eval_operand (h : Sampled A F p k s m e) {x : Operand}
    (hx : ∀ w, x = .texture w → s.texture.isSome) :
    (colorOperand k s.raster x).eval A e =
        .vector (x.color A (s.reads A F (p.indirectValue A F) m)).list ∧
      (alphaOperand k s.raster x).eval A e =
        .vector [x.alpha A (s.reads A F (p.indirectValue A F) m)] := by
  cases x with
  | register r w =>
    have hvalue : (var (.register r)).eval A e = .vector (m.registers r).list := h.register r
    exact ⟨eval_color hvalue w, eval_alpha hvalue w⟩
  | texture w =>
    have hvalue : (var (.sample k)).eval A e =
        .vector (s.reads A F (p.indirectValue A F) m).texture.list := h.sample (hx w rfl)
    exact ⟨eval_color hvalue w, eval_alpha hvalue w⟩
  | rasterized w =>
    have hvalue := eval_rasterColor (A := A) h.outside s.raster
    exact ⟨eval_color hvalue w, eval_alpha hvalue w⟩
  | konst i w =>
    have hvalue : (index (material .konstColor) i.toNat).eval A e =
        .vector (F.konst i.toNat).list := by
      rw [material, eval, eval, eval, h.outside .material (by decide)]
      rfl
    exact ⟨eval_color hvalue w, eval_alpha hvalue w⟩
  | constant c => exact ⟨rfl, rfl⟩

/-- Both operands of an input of a stage. -/
theorem eval_operandPair (h : Sampled A F p k s m e) (hs : s.Resolved p) {a b : Operand}
    (ha : a ∈ s.color.operands) (hb : b ∈ s.alpha.operands) :
    (operandPair k s a b).eval A e =
      .vector (Stage.input A (s.reads A F (p.indirectValue A F) m) a b).list := by
  rw [operandPair, eval, (eval_operand h (hs.operand a (List.mem_append_left _ ha))).1,
    (eval_operand h (hs.operand b (List.mem_append_right _ hb))).2]
  rfl

/-- An input of a stage that wraps around. -/
theorem eval_overflow (h : Sampled A F p k s m e) (hs : s.Resolved p) {a b : Operand}
    (ha : a ∈ s.color.operands) (hb : b ∈ s.alpha.operands) :
    (call1 .overflow (operandPair k s a b)).eval A e =
      .vector (A.overflow (Stage.input A (s.reads A F (p.indirectValue A F) m) a b)).list := by
  rw [eval, eval_operandPair h hs ha hb]
  rfl

/-- The four inputs of a stage are evaluated. -/
theorem run_operandStmts (h : Sampled A F p k s m e) (hs : s.Resolved p) :
    Sampled A F p k s m (run A e (operandStmts k s)) ∧
      ∀ i, run A e (operandStmts k s) (.operand k i) =
        .vector ((s.inputs A (s.reads A F (p.indirectValue A F) m)).get i).list := by
  let v i : Value σ := .vector ((s.inputs A (s.reads A F (p.indirectValue A F) m)).get i).list
  -- Binding an input changes nothing that the next inputs read.
  have h₁ := h.update_operand .a (v .a)
  have h₂ := h₁.update_operand .b (v .b)
  have h₃ := h₂.update_operand .c (v .c)
  have hrun : run A e (operandStmts k s) = Function.update (Function.update (Function.update
      (Function.update e (.operand k .a) (v .a)) (.operand k .b) (v .b)) (.operand k .c) (v .c))
      (.operand k .d) (v .d) := by
    rw [operandStmts, run_bind (v := v .a), run_bind (v := v .b), run_bind (v := v .c),
      run_bind (v := v .d)]
    · rfl
    · exact eval_operandPair h₃ hs (by simp [Half.operands]) (by simp [Half.operands])
    · exact eval_overflow h₂ hs (by simp [Half.operands]) (by simp [Half.operands])
    · exact eval_overflow h₁ hs (by simp [Half.operands]) (by simp [Half.operands])
    · exact eval_overflow h hs (by simp [Half.operands]) (by simp [Half.operands])
  rw [hrun]
  refine ⟨h₃.update_operand .d _, fun i => ?_⟩
  cases i <;> simp [v]

theorem setComponent_alpha (v : Vec4 σ) (x : σ) :
    (Value.vector v.list).setComponent .a (.vector [x]) =
      .vector (⟨v.r, v.g, v.b, x⟩ : Vec4 σ).list :=
  rfl

/-- Both halves of a stage are written, each from the inputs alone. -/
theorem run_writeStmts (h : Sampled A F p k s m e)
    (hinputs : ∀ i, e (.operand k i) =
      .vector ((s.inputs A (s.reads A F (p.indirectValue A F) m)).get i).list) :
    Agrees A F p (s.step A F (p.indirectValue A F) m) (run A e (writeStmts k s)) := by
  let inputs := s.inputs A (s.reads A F (p.indirectValue A F) m)
  let color := inputs.color A s.color
  let v : Vec4 σ := ⟨color.r, color.g, color.b, (m.registers s.color.dest).a⟩
  have hcolor : (call2 .vec4 (combinedColor k s.color)
      (swizzle (var (.register s.color.dest)) [.a])).eval A e = .vector v.list := by
    rw [eval, eval_combinedColor hinputs, eval, eval, h.register]
    rfl
  have h₁ := h.toAgrees.update_register s.color.dest v
  have halpha := eval_combinedAlpha (A := A) (h := s.alpha) (k := k) (i := inputs)
    (e := Function.update e (.register s.color.dest) (.vector v.list)) (fun i => by
      rw [Function.update_of_ne (by simp), hinputs i])
  rw [writeStmts, run_assign hcolor, Place.store, run_assign halpha, Place.store, h₁.register,
    setComponent_alpha, Stage.step_eq]
  exact h₁.update_register s.alpha.dest _

end Sampled

/-- A stage does to the variables what it does to the machine. -/
theorem run_stageStmts (h : Agrees A F p m e) {s : Stage} (hs : s.Resolved p) :
    Agrees A F p (s.step A F (p.indirectValue A F) m) (run A e (stageStmts k s)) := by
  have hrun : run A e (stageStmts k s) =
      run A (run A (run A e (sampleStmts k s)) (operandStmts k s)) (writeStmts k s) := by
    rw [← run_stmts_append, ← run_stmts_append, ← List.append_assoc]
    rfl
  obtain ⟨hsampled, hinputs⟩ := run_operandStmts (run_sampleStmts (k := k) h hs) hs
  rw [hrun]
  exact run_writeStmts hsampled hinputs

end Stage

section Stages

variable {A : Arithmetic σ} {F : Frame σ} {p : Program} {m : Machine σ} {e : Env σ}

theorem run_stages (h : Agrees A F p m e) {l : List Stage} (hl : ∀ s ∈ l, s.Resolved p) :
    Agrees A F p (l.foldl (fun m s => s.step A F (p.indirectValue A F) m) m)
      (run A e (l.mapIdx stageStmts).flatten) := by
  -- From the end, as stages are numbered from the front.
  induction l using List.reverseRecOn with
  | nil => exact h
  | append_singleton l s ih =>
    rw [List.mapIdx_concat, List.flatten_concat, run_stmts_append, List.foldl_concat]
    exact run_stageStmts (ih fun s hs => hl s (List.mem_append_left _ hs))
      (hl s (List.mem_append_right _ (List.mem_singleton_self s)))

/-- The statements that declare the variables of the combiner. -/
def declareStmts : List Stmt :=
  [.declare .output (call0 (.new .fragmentOutput)),
    .declare (.register .prev) (initialRegister 0),
    .declare (.register .reg0) (initialRegister 1),
    .declare (.register .reg1) (initialRegister 2),
    .declare (.register .reg2) (initialRegister 3),
    .declare .coord (splat .vec2 0)]

/-- The statements that take the indirect samples. -/
def indirectStmts (l : List IndirectSample) : List Stmt :=
  l.mapIdx fun i s => .bind (.indirect i) (indirectSample s)

/-- The indirect samples are taken, and nothing else is changed. -/
theorem run_indirectStmts (he : ∀ n, n.rank < 3 → e n = env F n) (l : List IndirectSample) :
    (∀ n, n.rank ≠ 4 → run A e (indirectStmts l) n = e n) ∧
      ∀ i s, l[i]? = some s →
        run A e (indirectStmts l) (.indirect i) = .vector (s.value A F).list := by
  induction l using List.reverseRecOn with
  | nil => exact ⟨fun _ _ => rfl, by simp⟩
  | append_singleton l s ih =>
    obtain ⟨hframe, hvalue⟩ := ih
    have houtside : ∀ n, n.rank < 3 → run A e (indirectStmts l) n = env F n := fun n hn =>
      (hframe n (by omega)).trans (he n hn)
    rw [indirectStmts, List.mapIdx_concat, ← indirectStmts, run_stmts_append,
      run_bind (eval_indirectSample houtside s)]
    constructor
    · intro n hn
      exact (Function.update_of_ne (by rintro rfl; exact hn rfl) _ _).trans (hframe n hn)
    · intro i s' hs'
      rcases Nat.lt_or_ge i l.length with hi | hi
      · rw [List.getElem?_append_left hi] at hs'
        refine (Function.update_of_ne ?_ _ _).trans (hvalue i s' hs')
        simpa using Nat.ne_of_lt hi
      · obtain rfl : i = l.length := by
          have := (List.getElem?_eq_some_iff.1 hs').1
          rw [List.length_append, List.length_singleton] at this
          omega
        obtain rfl : s = s' := by simpa using hs'
        exact Function.update_self _ _ _

theorem openingStmts_eq : openingStmts p = declareStmts ++ indirectStmts p.indirectSamples :=
  rfl

/-- The variables before the first stage hold what the machine holds at the start. -/
theorem run_openingStmts : Agrees A F p (F.start A) (run A (env F) (openingStmts p)) := by
  have houtside : ∀ n, n.rank < 3 → run A (env F) declareStmts n = env F n := by
    intro n hn
    cases n <;> first | rfl | exact absurd hn (by simp [Ident.rank])
  obtain ⟨hframe, hvalue⟩ := run_indirectStmts (A := A) houtside p.indirectSamples
  rw [openingStmts_eq, run_stmts_append]
  refine ⟨⟨?_, ?_, ?_⟩, ?_, ?_⟩
  · intro n hn
    exact (hframe n (by omega)).trans (houtside n hn)
  · exact hframe .output (by decide)
  · intro i hi
    have hsample := List.getElem?_eq_getElem hi
    rw [hvalue i _ hsample, Program.indirectValue, hsample]
  · intro r
    refine (hframe (.register r) (by simp [Ident.rank])).trans ?_
    cases r <;> rfl
  · exact hframe .coord (by decide)

theorem run_discardStmts (c : AlphaCheck) : run A e (discardStmts c) = e := by
  cases c <;> rfl

/-- The body of a fragment shader returns the first register of the machine. -/
theorem run_fragmentBody (hp : p.Resolved) :
    (run A (env F) (fragmentBody p) .output).member .color =
        .vector ((p.combine A F).registers .prev).list ∧
      ∀ r, run A (env F) (fragmentBody p) (.register r) =
        .vector ((p.combine A F).registers r).list := by
  have h := run_stages (run_openingStmts (A := A) (F := F) (p := p)) hp.stage
  rw [← run_stmts_append] at h
  rw [fragmentBody, run_stmts_append, run_stmts_append, run_discardStmts]
  generalize run A (env F) (openingStmts p ++ (p.stages.mapIdx stageStmts).flatten) = e at h ⊢
  have hprev : (var (.register .prev)).eval A e = .vector ((p.combine A F).registers .prev).list :=
    h.register .prev
  rw [run_assign hprev, run_return, Place.store, h.output]
  constructor
  · rw [Function.update_self, Value.member_setMember]
  · intro r
    rw [Function.update_of_ne (by simp), h.register]
    rfl

end Stages

end Shader

open Shader

/-- The fragment shader of a material that compiles, as its text is read, runs the stages of its
program, one after another, on the registers, and returns the first register. -/
theorem Material.combine_of_compile {o : Omissions} {m : Material} {c : Compiled}
    (h : m.compile o = .ok c) (A : Arithmetic σ) (F : Frame σ) :
    (∃ before, c.fragmentText =
      before ++ "@fragment\nfn fs_main(in: VertexOutput) -> FragmentOutput \x7b\n" ++
        String.join ((fragmentBody c.program).map Stmt.text) ++ "\x7d\n") ∧
    entryBody? .fragment c.fragmentText = some (fragmentBody c.program) ∧
    let final := run A (env F) (fragmentBody c.program)
    let machine := c.program.combine A F
    (final .output).member .color = .vector (machine.registers .prev).list ∧
      ∀ r, final (.register r) = .vector (machine.registers r).list :=
  ⟨text_fragmentShader c.program, entryBody?_of_compile h,
    run_fragmentBody (resolved_of_lower (compile_eq_ok h).1)⟩

namespace Sample

/-- A material whose second stage exchanges parts of two registers, and whose third stage writes
both halves of one that both halves read. -/
def crossed : Material where
  texGens := [{ source := .tex0 }]
  stages := [
    CombinerStage.modulate 0 0 .color0A0,
    { color := { a := .zero, b := .zero, c := .zero, d := .aPrev, dest := .reg0 },
      alpha := { a := .zero, b := .zero, c := .zero, d := .a0 } },
    { color := { a := .cPrev, b := .c0, c := .aPrev, d := .zero },
      alpha := { a := .aPrev, b := .a0, c := .aPrev, d := .zero } }]

/-- Numbers of single precision, and textures that show their coordinates. -/
def single : Arithmetic Float32 where
  lit x := x
  int n := n.toUInt32.toFloat32
  add x y := x + y
  sub x y := x - y
  mul x y := x * y
  div x y := x / y
  rem x y := x - y * (if x / y < 0 then (x / y).ceil else (x / y).floor)
  compare op x y :=
    match op with
    | .lt => x < y
    | .le => x ≤ y
    | .gt => y < x
    | .ge => y ≤ x
    | .eq => x == y
    | _ => x != y
  mix x y c := x * (1 - c) + y * c
  saturate x := if x < 0 then 0 else if 1 < x then 1 else x
  dot xs ys := (xs.zipWith (· * ·) ys).foldl (· + ·) 0
  overflow v :=
    let wrap x := (x * (255 / 256) - (x * (255 / 256)).floor) * (256 / 255)
    ⟨wrap v.r, wrap v.g, wrap v.b, ((v.a * 255).toInt32 % 256).toFloat32 / 255⟩
  sample _ _ point _ := ⟨point.x, point.y, 0, 1⟩
  place x := x.toUInt32.toNat
  call _ _ := []

/-- A fragment at the middle of its texture. -/
def middle : Frame Float32 where
  misc0 := ⟨0, 0, 0, 0⟩
  registers i := ⟨i.toUInt32.toFloat32 / 4, 0, 0, 1⟩
  konst _ := ⟨1, 1, 1, 1⟩
  textureParams _ := ⟨64, 64, 0, 0⟩
  indirectMatrix _ := (⟨1, 0, 0, 0⟩, ⟨0, 1, 0, 0⟩)
  channel _ := ⟨1, 1, 1, 1⟩
  coord _ := ⟨0.5, 0.5, 1⟩

end Sample

/-- The fragment shader of the material returns what the three stages compute. -/
theorem combine_crossed : ∃ c, Sample.crossed.compile {} = .ok c ∧
    c.program.stages.map (fun s => (s.color.dest, s.alpha.dest)) =
      [(.prev, .prev), (.reg0, .prev), (.prev, .prev)] ∧
    let final := run Sample.single (env Sample.middle) (fragmentBody c.program)
    let machine := c.program.combine Sample.single Sample.middle
    (final .output).member .color = .vector (machine.registers .prev).list ∧
      ∀ r, final (.register r) = .vector (machine.registers r).list := by
  obtain ⟨c, hc, hdest⟩ : ∃ c, Sample.crossed.compile {} = .ok c ∧
      c.program.stages.map (fun s => (s.color.dest, s.alpha.dest)) =
        [(.prev, .prev), (.reg0, .prev), (.prev, .prev)] := ⟨_, rfl, by decide +kernel⟩
  exact ⟨c, hc, hdest, (Material.combine_of_compile hc Sample.single Sample.middle).2.2⟩

end FixedFunction
