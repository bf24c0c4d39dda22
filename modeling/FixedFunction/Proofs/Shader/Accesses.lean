import FixedFunction.Proofs.Shader.FragmentScope
import FixedFunction.Proofs.Shader.VertexScope

/-!
# The array elements that a shader reads

The elements that the functions of a shader read with constant numbers.  The position matrix of a
vertex has a computed number and is not among them.

**Input.**  A program.

**Results.**
* `accesses_vertexShader`, `accesses_fragmentShader`: the elements that the two shaders read, from
  the parts of the program.
-/

namespace FixedFunction

namespace Shader

/-- A read of the element of an array with a constant number. -/
structure Access where
  array : Expr
  number : Nat
deriving DecidableEq

/-- The elements that an expression reads. -/
@[simp] def Expr.accesses : Expr → List Access
  | lit _ | int _ | bool _ | var _ | call0 _ => []
  | index e i => ⟨e, i⟩ :: e.accesses
  | member e _ | swizzle e _ | paren e | not e | call1 _ e => e.accesses
  | element a b | binary _ a b | call2 _ a b => a.accesses ++ b.accesses
  | call3 _ a b c => a.accesses ++ b.accesses ++ c.accesses
  | call4 _ a b c d => a.accesses ++ b.accesses ++ c.accesses ++ d.accesses

def Stmt.accesses : Stmt → List Access
  | bind _ e | declare _ e | assign _ e | addAssign _ e | discardIf e | .return e => e.accesses
  | remark _ => []

/-- The elements that the functions of a source read. -/
def Source.accesses (src : Source) : List Access :=
  src.functions.flatMap fun f => f.body.flatMap Stmt.accesses

/-- The element that holds the parameters of a texture. -/
def textureAccess (t : UInt8) : Access :=
  ⟨material .textureParams, t.toNat⟩

/-- The parameters of the texture that is sampled. -/
def textureAccesses (t : Option UInt8) : List Access :=
  (t.map textureAccess).toList

end Shader

open Shader

/-! ### What the parts of a program read -/

section Parts

def ColorOrigin.accesses : ColorOrigin → List Access
  | materialRegister i => [⟨material .colorMatReg, i.toNat⟩]
  | ambientRegister i => [⟨material .colorAmbReg, i.toNat⟩]
  | vertex _ | white => []

def ChannelHalf.accesses (v : ChannelHalf) : List Access :=
  (v.ambient.map ColorOrigin.accesses).getD [] ++ v.material.accesses

-- Two halves that are the same are written once.
def Channel.accesses (c : Channel) : List Access :=
  if c.color = c.alpha then c.color.accesses else c.color.accesses ++ c.alpha.accesses

def CoordMatrix.accesses : CoordMatrix → List Access
  | identity => []
  | position i => [⟨packet .posMtx, i.toNat⟩]
  | texture i => [⟨material .texMtx, i.toNat⟩]

-- Red and green of a source are not transformed.
def CoordGen.accesses (g : CoordGen) : List Access :=
  (g.post.map fun i => ⟨material .postTexMtx, i.toNat⟩).toList ++
    if g.kind = .srtg then [] else g.matrix.accesses

def Operand.accesses : Operand → List Access
  | konst k _ => [⟨material .konstColor, k.toNat⟩]
  | _ => []

/-- The matrix of an offset, and the parameters of the texture by whose size it is divided. -/
def IndirectOffset.accesses (o : IndirectOffset) : List Access :=
  ⟨material .indTexMtx, o.matrix.toNat⟩ :: textureAccesses o.texture

def StageCoord.accesses (c : StageCoord) : List Access :=
  (c.indirect.map IndirectOffset.accesses).getD []

def Stage.sampleAccesses (s : Stage) : List Access :=
  match s.texture, s.coord with
  | some t, some c => c.accesses ++ [textureAccess t]
  | _, _ => []

def Stage.accesses (s : Stage) : List Access :=
  s.sampleAccesses ++ (s.color.operands.zip s.alpha.operands).flatMap fun x =>
    x.1.accesses ++ x.2.accesses

/-- The initial values of the registers. -/
def registerAccesses : List Access :=
  [⟨material .color, 0⟩, ⟨material .color, 1⟩, ⟨material .color, 2⟩, ⟨material .color, 3⟩]

end Parts

namespace Shader

open Source Shader.Expr

section Expressions

variable (a b : Expr)

@[simp] theorem accesses_add : (a + b).accesses = a.accesses ++ b.accesses := rfl

@[simp] theorem accesses_sub : (a - b).accesses = a.accesses ++ b.accesses := rfl

@[simp] theorem accesses_mul : (a * b).accesses = a.accesses ++ b.accesses := rfl

@[simp] theorem accesses_div : (a / b).accesses = a.accesses ++ b.accesses := rfl

@[simp] theorem accesses_mod : (a % b).accesses = a.accesses ++ b.accesses := rfl

@[simp] theorem accesses_input (m : Member) : (input m).accesses = [] := rfl

@[simp] theorem accesses_output (m : Member) : (output m).accesses = [] := rfl

@[simp] theorem accesses_scene (m : Member) : (scene m).accesses = [] := rfl

@[simp] theorem accesses_material (m : Member) : (material m).accesses = [] := rfl

@[simp] theorem accesses_packet (m : Member) : (packet m).accesses = [] := rfl

@[simp] theorem accesses_splat (f : Fn) (x : Float32) : (splat f x).accesses = [] := rfl

/-- What is read of a list of parts, if it does not depend on their numbers. -/
theorem flatMap_mapIdx {α β : Type} {f : Nat → α → β} {reads : β → List Access}
    {g : α → List Access} {l : List α} (h : ∀ k x, reads (f k x) = g x) :
    (l.mapIdx f).flatMap reads = l.flatMap g := by
  induction l generalizing f with
  | nil => rfl
  | cons x l ih =>
    rw [List.mapIdx_cons, List.flatMap_cons, List.flatMap_cons, h, ih fun k x => h (k + 1) x]

end Expressions

/-! ### What the shaders read -/

section Fragment

@[simp] theorem accesses_planeCoord (c : Option UInt8) : (planeCoord c).accesses = [] := by
  cases c <;> rfl

@[simp] theorem accesses_sampleTexture (t : UInt8) (e : Expr) :
    (sampleTexture t e).accesses = e.accesses ++ [textureAccess t] := by
  simp [sampleTexture, levelBias, textureParams, textureAccess]

theorem accesses_indirectSample (s : IndirectSample) :
    (indirectSample s).accesses = textureAccesses s.texture := by
  rw [indirectSample]
  cases s.texture with
  | none => rfl
  | some t => simp [textureAccesses, reciprocal]

@[simp] theorem accesses_rasterColor (r : Option RasterSource) : (rasterColor r).accesses = [] := by
  rcases r with _ | _ | _ <;> rfl

@[simp] theorem accesses_operandPair (k : Nat) (s : Stage) (x y : Operand) :
    (operandPair k s x y).accesses = x.accesses ++ y.accesses := by
  have hcolor : (colorOperand k s.raster x).accesses = x.accesses := by
    cases x <;> simp [colorOperand, Operand.accesses]
  have halpha : (alphaOperand k s.raster y).accesses = y.accesses := by
    cases y <;> simp [alphaOperand, Operand.accesses]
  simp [operandPair, hcolor, halpha]

theorem accesses_combined (k : Nat) (cs : List Component) {zero : Expr}
    (hzero : zero.accesses = []) (h : Half) : (combined k cs zero h).accesses = [] := by
  unfold combined
  cases h.op with
  | add | sub =>
    dsimp only
    split_ifs <;> simp
  | greater =>
    dsimp only
    split_ifs <;> simp [hzero]

theorem accesses_baseCoord (k : Nat) (c : StageCoord) : (baseCoord k c).accesses = [] := by
  have hwrapped (axis : Component) (w : Wrap) : (wrapped k axis w).accesses = [] := by
    cases w <;> rfl
  unfold baseCoord
  split_ifs <;> simp [hwrapped]

theorem accesses_offset (o : IndirectOffset) : (offset o).accesses = o.accesses := by
  unfold offset IndirectOffset.accesses
  cases o.texture <;> simp [textureAccesses, textureParams, textureAccess]

theorem accesses_stageCoord (k : Nat) (c : StageCoord) :
    (stageCoord k c).accesses = c.accesses := by
  unfold stageCoord StageCoord.accesses
  cases c.indirect <;> simp [accesses_baseCoord, accesses_offset]

theorem accesses_coordStmts (k : Nat) (c : StageCoord) :
    (coordStmts k c).flatMap Stmt.accesses = c.accesses := by
  unfold coordStmts
  split_ifs <;> simp [Stmt.accesses, accesses_stageCoord]

theorem accesses_sampleStmts (k : Nat) (s : Stage) :
    (sampleStmts k s).flatMap Stmt.accesses = s.sampleAccesses := by
  unfold sampleStmts Stage.sampleAccesses
  cases s.texture with
  | none => rfl
  | some t =>
    cases s.coord with
    | none => rfl
    | some c => simp [accesses_coordStmts, Stmt.accesses]

theorem accesses_stageStmts (k : Nat) (s : Stage) :
    (stageStmts k s).flatMap Stmt.accesses = s.accesses := by
  have hoperands : (operandStmts k s).flatMap Stmt.accesses =
      (s.color.operands.zip s.alpha.operands).flatMap fun x => x.1.accesses ++ x.2.accesses := by
    simp [operandStmts, Half.operands, Stmt.accesses]
  have hwrites : (writeStmts k s).flatMap Stmt.accesses = [] := by
    have hcolor : (combinedColor k s.color).accesses = [] := accesses_combined k _ rfl s.color
    have halpha : (combinedAlpha k s.alpha).accesses = [] := accesses_combined k _ rfl s.alpha
    simp [writeStmts, Stmt.accesses, hcolor, halpha]
  rw [stageStmts, List.cons_append, List.cons_append, List.flatMap_cons, List.flatMap_append,
    List.flatMap_append, accesses_sampleStmts, hoperands, hwrites, List.append_nil]
  rfl

theorem accesses_discardStmts (c : AlphaCheck) : (discardStmts c).flatMap Stmt.accesses = [] := by
  have hcomparison (r : Comparison) (x : Float32) : (comparison r x).accesses = [] := by
    cases r <;> rfl
  cases c with
  | keepAll | dropAll => rfl
  | compare => simp [discardStmts, Stmt.accesses, hcomparison]

theorem accesses_openingStmts (p : Program) : (openingStmts p).flatMap Stmt.accesses =
    registerAccesses ++ p.indirectSamples.flatMap fun s => textureAccesses s.texture := by
  have hsamples : (p.indirectSamples.mapIdx fun i s =>
      Stmt.bind (.indirect i) (indirectSample s)).flatMap Stmt.accesses =
        p.indirectSamples.flatMap fun s => textureAccesses s.texture :=
    flatMap_mapIdx fun _ s => accesses_indirectSample s
  rw [openingStmts, List.flatMap_append, hsamples]
  rfl

theorem accesses_stages (stages : List Stage) :
    (stages.mapIdx stageStmts).flatten.flatMap Stmt.accesses = stages.flatMap Stage.accesses := by
  rw [← List.flatMap_id, List.flatMap_assoc]
  exact flatMap_mapIdx accesses_stageStmts

/-- What the fragment shader of a program reads. -/
theorem accesses_fragmentShader (p : Program) : (fragmentShader p).accesses =
    registerAccesses ++ (p.indirectSamples.flatMap fun s => textureAccesses s.texture) ++
      p.stages.flatMap Stage.accesses := by
  have hbody : (fragmentBody p).flatMap Stmt.accesses = registerAccesses ++
      (p.indirectSamples.flatMap fun s => textureAccesses s.texture) ++
        p.stages.flatMap Stage.accesses := by
    simp only [fragmentBody, List.flatMap_append, accesses_openingStmts, accesses_stages,
      accesses_discardStmts]
    simp [Stmt.accesses]
  rw [Source.accesses, functions_fragmentShader, List.flatMap_append, List.flatMap_singleton, hbody]
  rfl

end Fragment

section Vertex

theorem accesses_channelValue (v : ChannelHalf) : (channelValue v).accesses = v.accesses := by
  have hsource (c : ColorOrigin) : (sourceColor c).accesses = c.accesses := by
    cases c <;> rfl
  unfold channelValue ChannelHalf.accesses
  cases v.ambient <;> simp [hsource]

theorem accesses_color (p : Program) (i : Nat) :
    (color p i).accesses = (p.channels[i]?.map Channel.accesses).getD [] := by
  unfold color
  cases p.channels[i]? with
  | none => rfl
  | some c =>
    dsimp only [Option.map_some, Option.getD_some]
    unfold channelColor Channel.accesses
    split_ifs <;> simp [accesses_channelValue]

theorem accesses_coord (g : CoordGen) : (coord g).accesses = g.accesses := by
  have hsource : (coordSource g.source).accesses = [] := by
    cases g.source <;> rfl
  have htransformed : (coordTransformed g).accesses = g.matrix.accesses := by
    unfold coordTransformed CoordMatrix.accesses
    cases g.matrix <;> simp [hsource]
  have hplain : (coordPlain g).accesses = if g.kind = .srtg then [] else g.matrix.accesses := by
    unfold coordPlain
    cases g.kind <;> simp [hsource, htransformed]
  have hnormalized : (coordNormalized g).accesses =
      if g.kind = .srtg then [] else g.matrix.accesses := by
    rw [← hplain]
    unfold coordNormalized
    split_ifs <;> simp
  unfold coord CoordGen.accesses
  cases g.post <;> simp [hnormalized]

/-- What the vertex shader of a program reads. -/
theorem accesses_vertexShader (p : Program) : (vertexShader p).accesses =
    (p.channels[0]?.map Channel.accesses).getD [] ++
      (p.channels[1]?.map Channel.accesses).getD [] ++ p.coordGens.flatMap CoordGen.accesses := by
  have hopening : (vertexOpening p).flatMap Stmt.accesses =
      (p.channels[0]?.map Channel.accesses).getD [] ++
        (p.channels[1]?.map Channel.accesses).getD [] := by
    simp [vertexOpening, Stmt.accesses, matrixNumber, accesses_color]
  have hgens : (p.coordGens.mapIdx genStmt).flatMap Stmt.accesses =
      p.coordGens.flatMap CoordGen.accesses :=
    flatMap_mapIdx fun _ g => accesses_coord g
  have hbody : (vertexBody p).flatMap Stmt.accesses =
      (p.channels[0]?.map Channel.accesses).getD [] ++
        (p.channels[1]?.map Channel.accesses).getD [] ++
          p.coordGens.flatMap CoordGen.accesses := by
    rw [vertexBody_eq, List.flatMap_append, List.flatMap_append, hopening, hgens]
    exact List.append_nil _
  rw [Source.accesses, functions_vertexShader, List.flatMap_append, List.flatMap_singleton, hbody]
  rfl

end Vertex

end Shader
end FixedFunction
