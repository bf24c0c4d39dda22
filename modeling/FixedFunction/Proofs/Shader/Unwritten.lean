import FixedFunction.Program.Compile
import FixedFunction.Proofs.Program.Unread

/-!
# Settings that are not written

**Input.**  A material.

**Algorithm.**  Besides the settings that are not read, two are read into the program but into
neither shader: the matrix of a generator that takes red and green of its source, and the bias and
the scale of a comparison.  Resetting them in the material is resetting them in its program.

**Results.**
* `Material.written`, `Program.written`: a material and a program without these settings.
* `Material.lower_written`: they can be reset before and after a material is lowered.
* `Shader.vertexShader_written`, `Shader.fragmentShader_written`: the shaders stay as they are.
* `Material.compile_unread`: settings that are not read or not written cannot change what is
  compiled.
-/

namespace FixedFunction

section Defs

/-- A generator without its matrix, if it does not apply it. -/
def TexGen.written (g : TexGen) : TexGen :=
  { g with matrix := if g.kind = .srtg then default else g.matrix }

/-- A half without its bias and its scale, if it is a comparison. -/
def CombinerHalf.written {ι : Type} (h : CombinerHalf ι) : CombinerHalf ι :=
  { h with
    bias := if h.op = .compR8Gt then default else h.bias
    scale := if h.op = .compR8Gt then default else h.scale }

def CombinerStage.written (s : CombinerStage) : CombinerStage :=
  { s with color := s.color.written, alpha := s.alpha.written }

/-- A material without the settings that are read but not written. -/
def Material.written (m : Material) : Material :=
  { m with texGens := m.texGens.map (·.written), stages := m.stages.map (·.written) }

/-- A generator without its matrix, if it does not apply it. -/
def CoordGen.written (g : CoordGen) : CoordGen :=
  { g with matrix := if g.kind = .srtg then .identity else g.matrix }

/-- A half without its bias and its scale, if it is a comparison. -/
def Half.written (h : Half) : Half :=
  { h with
    bias := if h.op = .greater then 0 else h.bias
    scale := if h.op = .greater then 1 else h.scale }

def Stage.written (s : Stage) : Stage :=
  { s with color := s.color.written, alpha := s.alpha.written }

/-- A program without the settings that are not written. -/
def Program.written (p : Program) : Program :=
  { p with coordGens := p.coordGens.map (·.written), stages := p.stages.map (·.written) }

end Defs

theorem mapIdx_map {α β γ : Type} (f : Nat → β → γ) (g : α → β) (l : List α) :
    (l.map g).mapIdx f = l.mapIdx fun i x => f i (g x) := by
  refine List.ext_getElem? fun i => ?_
  simp only [List.getElem?_mapIdx, List.getElem?_map, Option.map_map]
  rfl

namespace Shader

/-! ### The shaders of a program -/

theorem coord_written (g : CoordGen) : coord g.written = coord g := by
  have hplain : coordPlain g.written = coordPlain g := by
    cases hkind : g.kind <;>
      simp [coordPlain, coordTransformed, CoordGen.written, hkind]
  have hnormalized : coordNormalized g.written = coordNormalized g := by
    rw [coordNormalized, hplain]
    rfl
  rw [coord, hnormalized]
  rfl

theorem combined_written (k : Nat) (cs : List Component) (zero : Expr) (h : Half) :
    combined k cs zero h.written = combined k cs zero h := by
  cases hop : h.op <;> simp [combined, Half.written, hop]

theorem stageStmts_written (k : Nat) (s : Stage) : stageStmts k s.written = stageStmts k s := by
  have hwrites : writeStmts k s.written = writeStmts k s := by
    rw [writeStmts, combinedColor, combinedAlpha, Stage.written, combined_written,
      combined_written]
    rfl
  rw [stageStmts, hwrites]
  rfl

theorem common_written (p : Program) : common p.written = common p := by
  rw [common, vertexOutput, Program.written, List.length_map]
  rfl

/-- The vertex shader has no matrix that is not applied. -/
theorem vertexShader_written (p : Program) : vertexShader p.written = vertexShader p := by
  have hbody : vertexBody p.written = vertexBody p := by
    rw [vertexBody, Program.written, mapIdx_map]
    simp only [coord_written]
    rfl
  rw [vertexShader, common_written, hbody]
  rfl

/-- The fragment shader has no bias and no scale of a comparison. -/
theorem fragmentShader_written (p : Program) : fragmentShader p.written = fragmentShader p := by
  have hbody : fragmentBody p.written = fragmentBody p := by
    rw [fragmentBody, Program.written, mapIdx_map]
    simp only [stageStmts_written]
    rfl
  rw [fragmentShader, common_written, hbody]
  rfl

end Shader

/-! ### Lowering -/

theorem TexGen.lower_written (g : TexGen) (i : Nat) :
    g.written.lower i = (g.lower i).map (·.written) := by
  rw [lower, lower, show g.written.kind = g.kind from rfl,
    show g.written.source = g.source from rfl, show g.written.post = g.post from rfl]
  cases hkind : g.kind with
  | srtg | mtx2x4 | mtx3x4 =>
    simp only [TexGenKind.lower, ok_bind, written, hkind]
    cases g.source.lower i with
    | error e => rfl
    | ok source => cases g.post.index? <;> rfl
  | _ => rfl

theorem CombinerHalf.lower_written {ι : Type} (h : CombinerHalf ι) (operand : ι → Operand) :
    h.written.lower operand = (h.lower operand).map (·.written) := by
  rw [lower, lower, show h.written.op = h.op from rfl]
  cases hop : h.op with
  | add | sub | compR8Gt =>
    simp only [CombineOp.lower, ok_bind, written, hop]
    rfl
  | _ => rfl

namespace CombinerStage

theorem stageCoord_written (m : Material) (k : Nat) (s : CombinerStage) :
    s.written.stageCoord m.written k = s.stageCoord m k := by
  have hcoord : m.written.coord s.coord = m.coord s.coord := by
    simp [Material.coord, Material.written]
  have hoffset : s.written.offset m.written k = s.offset m k := rfl
  rw [stageCoord, hoffset, show s.written.coord = s.coord from rfl, hcoord]
  rfl

theorem lower_written (o : Omissions) (m : Material) (k : Nat) (s : CombinerStage) :
    s.written.lower o m.written k = (s.lower o m k).map (·.written) := by
  have hsampled : s.written.sampled o = s.sampled o := rfl
  have hraster : s.written.raster = s.raster := rfl
  have hcolor := s.color.lower_written (ColorInput.operand s.konstColor (s.sampled o))
  have halpha := s.alpha.lower_written (AlphaInput.operand s.konstAlpha (s.sampled o))
  rw [lower, lower, stageCoord_written, hsampled, hraster]
  simp only [written, hcolor, halpha]
  cases s.stageCoord m k with
  | error e => rfl
  | ok coord =>
    cases s.raster with
    | error e => rfl
    | ok raster =>
      simp only [ok_bind]
      cases s.color.lower (ColorInput.operand s.konstColor (s.sampled o)) with
      | error e => rfl
      | ok color =>
        cases s.alpha.lower (AlphaInput.operand s.konstAlpha (s.sampled o)) <;> rfl

end CombinerStage

/-- No vertex input and no texture is read for a setting that is not written. -/
theorem Program.written_ofParts {channels : List Channel} {gens : List CoordGen}
    {samples : List IndirectSample} {stages : List Stage} {check : AlphaCheck} :
    (ofParts channels gens samples stages check).written =
      ofParts channels (gens.map (·.written)) samples (stages.map (·.written)) check := by
  have hread (v : ShaderInput) :
      v.isRead channels (gens.map (·.written)) = v.isRead channels gens := by
    cases v <;> simp [ShaderInput.isRead, CoordGen.written, Function.comp_def]
  have htextures : texturesRead samples (stages.map (·.written)) = texturesRead samples stages := by
    simp [texturesRead, Stage.written, Function.comp_def]
  simp only [ofParts, hread, htextures]
  rfl

/-- Settings that are not written can be reset before and after a material is lowered. -/
theorem Material.lower_written (o : Omissions) (m : Material) :
    m.written.lower o = (m.lower o).map (·.written) := by
  have hgens : refuseFirst TexGen.lower 0 m.written.texGens =
      (refuseFirst TexGen.lower 0 m.texGens).map (List.map (·.written)) := by
    rw [← refuseFirst_map_output, show m.written.texGens = m.texGens.map (·.written) from rfl,
      refuseFirst_map]
    simp only [TexGen.lower_written]
  have hstages : refuseFirst (CombinerStage.lower o m.written) 0 m.written.stages =
      (refuseFirst (CombinerStage.lower o m) 0 m.stages).map (List.map (·.written)) := by
    rw [← refuseFirst_map_output, show m.written.stages = m.stages.map (·.written) from rfl,
      refuseFirst_map]
    simp only [CombinerStage.lower_written]
  have hsamples : m.written.loweredSamples o = m.loweredSamples o := by
    simp [loweredSamples, IndirectStage.lower, coord, written]
  rw [lower_eq, lower_eq, hgens, hstages, hsamples]
  cases refuseFirst TexGen.lower 0 m.texGens with
  | error e => rfl
  | ok gens =>
    cases refuseFirst (CombinerStage.lower o m) 0 m.stages with
    | error e => rfl
    | ok stages =>
      cases hcheck : m.alphaTest.lower with
      | error e =>
        simp only [Except.map, ok_bind, show m.written.alphaTest = m.alphaTest from rfl, hcheck]
        rfl
      | ok check =>
        simp only [Except.map, ok_bind, show m.written.alphaTest = m.alphaTest from rfl, hcheck]
        exact congrArg Except.ok Program.written_ofParts.symm

/-! ### Compiling -/

/-- The name of a material makes no difference. -/
theorem Material.map_compile {β : Type} (f : Program → RasterState → β) (o : Omissions)
    (m : Material) :
    (m.compile o).map (fun c => f c.program c.state) = do
      let program ← m.lower o
      let state ← m.rasterState
      return f program state := by
  rw [compile]
  cases m.lower o with
  | error e => rfl
  | ok program => cases m.rasterState <;> rfl

/-- Two materials that differ in settings only that are not read are compiled to the same program,
the same state and the same texts, or refused for the same cause.  Of two materials that differ
besides in settings only that are not written, the same is true less the program. -/
theorem Material.compile_unread (o : Omissions) (m n : Material) :
    (m.pruned = n.pruned →
      (m.compile o).map (fun c => (c.program, c.state, c.vertexText, c.fragmentText)) =
        (n.compile o).map fun c => (c.program, c.state, c.vertexText, c.fragmentText)) ∧
    (m.pruned.written = n.pruned.written →
      (m.compile o).map (fun c => (c.state, c.vertexText, c.fragmentText)) =
        (n.compile o).map fun c => (c.state, c.vertexText, c.fragmentText)) := by
  constructor
  · intro h
    let f (p : Program) (s : RasterState) :=
      (p, s, (Shader.vertexShader p).text, (Shader.fragmentShader p).text)
    have hpruned (m : Material) : (m.compile o).map (fun c => f c.program c.state) =
        (m.pruned.compile o).map fun c => f c.program c.state := by
      rw [map_compile, map_compile, lower_pruned, show m.pruned.rasterState = m.rasterState from rfl]
    exact (hpruned m).trans (h ▸ (hpruned n).symm)
  · intro h
    let f (p : Program) (s : RasterState) :=
      (s, (Shader.vertexShader p).text, (Shader.fragmentShader p).text)
    have hf (p : Program) (s : RasterState) : f p.written s = f p s := by
      simp only [f, Shader.vertexShader_written, Shader.fragmentShader_written]
    have hwritten (m : Material) : (m.compile o).map (fun c => f c.program c.state) =
        (m.pruned.written.compile o).map fun c => f c.program c.state := by
      rw [map_compile, map_compile, lower_written, lower_pruned,
        show m.pruned.written.rasterState = m.rasterState from rfl]
      cases m.lower o with
      | error e => rfl
      | ok p => simp only [Except.map, ok_bind, hf]
    exact (hwritten m).trans (h ▸ (hwritten n).symm)

namespace Sample

/-- A material that has few settings. -/
def frugal : Material where
  channels := [{}, {}]
  texGens := [{ kind := .srtg, source := .color0 }]
  stages := [{ color := { a := .cPrev, b := .c0, c := .one, d := .zero, op := .compR8Gt } }]

/-- The material with settings of things that it does not use. -/
def lavish : Material where
  name := "lavish"
  channels := [{ color := { ambient := .vertex } }, {}, { alpha := { lit := true } }]
  texGens := [{ kind := .srtg, source := .color0 }]
  stages := [{
    color := { a := .cPrev, b := .c0, c := .one, d := .zero, op := .compR8Gt }
    coord := some 4
    texture := some 200
    channel := .alphaBump
    konstColor := .k0
    konstAlpha := .k3A
    indirect := {
      stage := 9
      format := .f3
      bias := .stu
      wrapS := .w16
      wrapT := .w0
      addPrevious := true } }]
  alphaTest := { referenceA := 0.5, referenceB := 1 / 0 }
  konst := .replicate 4 (.replicate 4 1)

/-- The material with a matrix and a bias that it does not use either. -/
def profuse : Material :=
  { lavish with
    texGens := [{ kind := .srtg, source := .color0, matrix := .texMtx3 }]
    stages := [{
      color := {
        a := .cPrev
        b := .c0
        c := .one
        d := .zero
        op := .compR8Gt
        bias := .addHalf
        scale := .scale4 } }] }

end Sample

/-- The three materials compile, to the same texts. -/
theorem Material.compile_unread_lavish_profuse :
    (∃ c, Sample.frugal.compile {} = .ok c) ∧
    Sample.lavish.pruned = Sample.frugal.pruned ∧
    Sample.profuse.pruned.written = Sample.frugal.pruned.written ∧
    (Sample.lavish.compile {}).map (fun c => (c.program, c.state, c.vertexText, c.fragmentText)) =
      (Sample.frugal.compile {}).map
        (fun c => (c.program, c.state, c.vertexText, c.fragmentText)) ∧
    (Sample.profuse.compile {}).map (fun c => (c.state, c.vertexText, c.fragmentText)) =
      (Sample.frugal.compile {}).map fun c => (c.state, c.vertexText, c.fragmentText) := by
  have hpruned : Sample.lavish.pruned = Sample.frugal.pruned := rfl
  have hwritten : Sample.profuse.pruned.written = Sample.frugal.pruned.written := rfl
  exact ⟨⟨_, rfl⟩, hpruned, hwritten, (compile_unread {} _ _).1 hpruned,
    (compile_unread {} _ _).2 hwritten⟩

end FixedFunction
