import FixedFunction.Shader.Vertex
import FixedFunction.Proofs.Program.Resolved
import FixedFunction.Proofs.Shader.CommonScope
import Mathlib.Data.List.Induction

/-!
# The scope of vertex shaders

**Invariant.**  Before generator `k` the parameter blocks, the declared vertex inputs, the two
colors and the coordinates of all generators before it are visible.

**Results.**
* `closed_vertexBody`: each statement of a vertex shader mentions only what is visible before it.
* `wellScoped_vertexShader`: the vertex shader of a program that refers only to what is there is
  well scoped.
-/

namespace FixedFunction
namespace Shader

open Shader.Expr

/-- What the body of a vertex shader finds. -/
structure VertexScope (p : Program) (v : List Mention) : Prop where
  projection : ⟨.scene, some .projection⟩ ∈ v
  colorMatReg : ⟨.material, some .colorMatReg⟩ ∈ v
  colorAmbReg : ⟨.material, some .colorAmbReg⟩ ∈ v
  texMtx : ⟨.material, some .texMtx⟩ ∈ v
  postTexMtx : ⟨.material, some .postTexMtx⟩ ∈ v
  posMtx : ⟨.packet, some .posMtx⟩ ∈ v
  input : ∀ w ∈ p.vertexInputs, ⟨.input, some (inputMember w)⟩ ∈ v

/-- What generator `k` finds. -/
structure GenScope (p : Program) (k : Nat) (v : List Mention) : Prop extends VertexScope p v where
  output : ⟨.output, none⟩ ∈ v
  channel : ∀ i < 2, ⟨.output, some (.channel i)⟩ ∈ v
  coord : ∀ i < k, ⟨.output, some (.coord i)⟩ ∈ v

theorem VertexScope.mono {p : Program} {v w : List Mention} (h : VertexScope p v) (hvw : v ⊆ w) :
    VertexScope p w where
  projection := hvw h.projection
  colorMatReg := hvw h.colorMatReg
  colorAmbReg := hvw h.colorAmbReg
  texMtx := hvw h.texMtx
  postTexMtx := hvw h.postTexMtx
  posMtx := hvw h.posMtx
  input w hw := hvw (h.input w hw)

section Expressions

variable {p : Program} {v : List Mention}

theorem sourceColor_subset (hv : VertexScope p v) {c : ColorOrigin}
    (hc : ∀ i, c = .vertex i → .color i ∈ p.vertexInputs) : (sourceColor c).mentions ⊆ v := by
  cases c with
  | vertex i => simpa [sourceColor, inputMember] using hv.input _ (hc i rfl)
  | materialRegister i => simp [sourceColor, hv.colorMatReg]
  | ambientRegister i => simp [sourceColor, hv.colorAmbReg]
  | white => exact List.nil_subset _

theorem channelValue_subset (hv : VertexScope p v) {h : ChannelHalf}
    (hh : ∀ i, h.readsVertex i → .color i ∈ p.vertexInputs) : (channelValue h).mentions ⊆ v := by
  have hmaterial : (sourceColor h.material).mentions ⊆ v :=
    sourceColor_subset hv fun i hi => hh i (by simp [ChannelHalf.readsVertex, hi])
  unfold channelValue
  split
  case h_1 ambient hambient =>
    have hsource : (sourceColor ambient).mentions ⊆ v :=
      sourceColor_subset hv fun i hi => hh i (by simp [ChannelHalf.readsVertex, hambient, hi])
    simp [hmaterial, hsource]
  case h_2 => exact hmaterial

theorem color_subset (hv : VertexScope p v) (hp : p.Resolved) (i : Nat) :
    (color p i).mentions ⊆ v := by
  unfold color
  split
  case h_1 c hc =>
    have hread := hp.channel c (List.mem_of_getElem? hc)
    have hcolor : (channelValue c.color).mentions ⊆ v :=
      channelValue_subset hv fun i hi => hread i (by simp [hi])
    have halpha : (channelValue c.alpha).mentions ⊆ v :=
      channelValue_subset hv fun i hi => hread i (by simp [hi])
    unfold channelColor
    split
    case isTrue => exact hcolor
    case isFalse => simp [hcolor, halpha]
  case h_2 => exact List.nil_subset _

theorem coordSource_subset {k : Nat} (hv : GenScope p k v) {g : CoordGen} (hg : g.Resolved p k) :
    (coordSource g.source).mentions ⊆ v := by
  have hinput {w : ShaderInput} (hw : g.source.input? = some w) := hv.input w (hg.input w hw)
  cases hs : g.source with
  | position | normal | binormal | tangent | tex i =>
    rw [hs] at hinput
    simpa [coordSource, inputMember] using hinput rfl
  | color i => simp [coordSource, hv.channel _ (hg.color i hs)]
  | coord i => simp [coordSource, hv.coord _ (hg.coord i hs)]

theorem coord_subset {k : Nat} (hv : GenScope p k v) {g : CoordGen} (hg : g.Resolved p k) :
    (coord g).mentions ⊆ v := by
  have hsource := coordSource_subset hv hg
  have htransformed : (coordTransformed g).mentions ⊆ v := by
    unfold coordTransformed
    split <;> simp [hsource, hv.posMtx, hv.texMtx]
  have hplain : (coordPlain g).mentions ⊆ v := by
    unfold coordPlain
    split <;> simp [hsource, htransformed]
  have hnormalized : (coordNormalized g).mentions ⊆ v := by
    unfold coordNormalized
    split <;> simp [hplain]
  unfold coord
  split
  case h_1 => simp [hv.postTexMtx, hnormalized]
  case h_2 => exact hnormalized

end Expressions

section Statements

variable {p : Program} {v : List Mention}

/-- The statements before the first generator. -/
def vertexOpening (p : Program) : List Stmt :=
  [.declare .output (call0 (.new .vertexOutput)),
    .bind .positionMatrix (element (packet .posMtx) matrixNumber),
    .bind .transformed
      (call2 .mulMat4x3 (var .positionMatrix) (call2 .vec4 (input .position) (lit 1))),
    .assign (.member .output .position)
      (scene .projection * call2 .vec4 (var .transformed) (lit 1)),
    .assign (.member .output (.channel 0)) (color p 0),
    .assign (.member .output (.channel 1)) (color p 1)]

/-- The statement of generator `i`. -/
def genStmt (i : Nat) (g : CoordGen) : Stmt :=
  .assign (.member .output (.coord i)) (coord g)

theorem vertexBody_eq (p : Program) :
    vertexBody p = vertexOpening p ++ p.coordGens.mapIdx genStmt ++ [.return (var .output)] := rfl

theorem closed_vertexOpening (hv : VertexScope p v) (hp : p.Resolved) :
    Closed v (vertexOpening p) := by
  have hnumber : ⟨.input, some .pnMtxIdx⟩ ∈ v := hv.input _ hp.positionMatrix
  have hposition : ⟨.input, some .position⟩ ∈ v := hv.input _ hp.position
  have hcolor {w : List Mention} (hvw : v ⊆ w) (i : Nat) : (color p i).mentions ⊆ w :=
    color_subset (hv.mono hvw) hp i
  refine ⟨List.nil_subset _, ?_, ?_, ?_, ?_, ?_, trivial⟩
  all_goals
    simp [Stmt.mentions, Stmt.provided, Stmt.declared, Stmt.assigned, Place.name, matrixNumber,
      hv.posMtx, hnumber, hposition, hv.projection]
  · exact hcolor (List.subset_append_left _ _) 0
  · exact hcolor (List.subset_append_left _ _) 1

theorem genScope_gens (hv : GenScope p 0 v) (gens : List CoordGen) :
    GenScope p gens.length (v ++ (gens.mapIdx genStmt).flatMap Stmt.provided) where
  toVertexScope := hv.toVertexScope.mono (List.subset_append_left _ _)
  output := List.mem_append_left _ hv.output
  channel i hi := List.mem_append_left _ (hv.channel i hi)
  coord i hi := by
    refine List.mem_append_right _ (List.mem_flatMap.2 ⟨genStmt i gens[i], ?_, List.mem_cons_self⟩)
    exact List.mem_mapIdx.2 ⟨i, hi, rfl⟩

/-- Each generator finds what it mentions, however many generators are before it. -/
theorem closed_gens (hv : GenScope p 0 v) {gens : List CoordGen}
    (hgens : ∀ i (g : CoordGen), gens[i]? = some g → g.Resolved p i) :
    Closed v (gens.mapIdx genStmt) := by
  induction gens using List.reverseRecOn with
  | nil => trivial
  | append_singleton gens g ih =>
    rw [List.mapIdx_concat, closed_append]
    constructor
    · refine ih fun i x hx => hgens i x ?_
      rwa [List.getElem?_append_left (List.getElem?_eq_some_iff.1 hx).1]
    · have hscope := genScope_gens hv gens
      have hg : g.Resolved p gens.length := hgens gens.length g List.getElem?_concat_length
      exact ⟨List.cons_subset.2 ⟨hscope.output, coord_subset hscope hg⟩, trivial⟩

/-- Each statement of a vertex shader mentions only what is visible before it. -/
theorem closed_vertexBody (hp : p.Resolved) (hv : VertexScope p v) : Closed v (vertexBody p) := by
  have hscope : GenScope p 0 (v ++ (vertexOpening p).flatMap Stmt.provided) := by
    refine ⟨hv.mono (List.subset_append_left _ _), ?_, ?_,
      fun i hi => absurd hi (Nat.not_lt_zero i)⟩
    · exact List.mem_append_right _ List.mem_cons_self
    · have hchannels : ∀ i < 2, (⟨.output, some (.channel i)⟩ : Mention) ∈
          [⟨.output, some (.channel 0)⟩, ⟨.output, some (.channel 1)⟩] := by decide
      intro i hi
      refine List.mem_append_right _ ?_
      have hprovided : [⟨.output, some (.channel 0)⟩, ⟨.output, some (.channel 1)⟩] ⊆
          (vertexOpening p).flatMap Stmt.provided := by
        simp [vertexOpening, Stmt.provided, Stmt.declared, Stmt.assigned]
      exact hprovided (hchannels i hi)
  rw [vertexBody_eq, closed_append, closed_append]
  refine ⟨⟨closed_vertexOpening hv hp, closed_gens hscope hp.gen⟩, ?_, trivial⟩
  rw [List.flatMap_append, ← List.append_assoc]
  exact List.cons_subset.2 ⟨(genScope_gens hscope p.coordGens).output, List.nil_subset _⟩

end Statements

section Shader

open Source

variable (p : Program)

theorem globals_vertexShader : globals (vertexShader p) = globals (common p) := by
  rw [vertexShader, globals_append]
  exact List.append_nil _

theorem functions_vertexShader : functions (vertexShader p) =
    functions products ++ [⟨[(.input, .struct .vertexData)], vertexBody p⟩] := by
  rw [vertexShader, functions_append, functions_common]
  rfl

theorem fields_vertexShader (t : StructName) : fields (vertexShader p) t =
    fields (common p) t ++ if t = .vertexData then vertexData p else [] := by
  rw [vertexShader, fields_append]
  cases t <;> first | rfl | exact congrArg _ (List.append_nil _)

theorem declared_vertexBody : (vertexBody p).flatMap Stmt.declared =
    [.output, .positionMatrix, .transformed] := by
  have hgens : (p.coordGens.mapIdx genStmt).flatMap Stmt.declared = [] := by
    refine List.flatMap_eq_nil_iff.2 fun x hx => ?_
    obtain ⟨i, hi, rfl⟩ := List.mem_mapIdx.1 hx
    rfl
  rw [vertexBody_eq, List.flatMap_append, List.flatMap_append, hgens]
  rfl

theorem assigned_vertexBody : ∀ x ∈ (vertexBody p).flatMap Stmt.assigned, x.1 = .output := by
  intro x hx
  rw [vertexBody_eq, List.flatMap_append, List.flatMap_append] at hx
  rcases List.mem_append.1 hx with hx | hx
  · rcases List.mem_append.1 hx with hx | hx
    · have hopening : (vertexOpening p).flatMap Stmt.assigned =
          [(.output, .position), (.output, .channel 0), (.output, .channel 1)] := rfl
      simp only [hopening, List.mem_cons, List.not_mem_nil, or_false] at hx
      rcases hx with rfl | rfl | rfl <;> rfl
    · obtain ⟨s, hs, hx⟩ := List.mem_flatMap.1 hx
      obtain ⟨i, hi, rfl⟩ := List.mem_mapIdx.1 hs
      rw [List.mem_singleton.1 hx]
  · exact absurd hx List.not_mem_nil

variable {p}

theorem nodup_fields_vertexShader (hp : p.Resolved) (t : StructName) :
    ((fields (vertexShader p) t).map (·.name)).Nodup := by
  have hinputs : ((vertexData p).map (·.name)).Nodup := by
    rw [vertexData, List.map_map]
    exact (hp.inputs.map _).nodup (by decide)
  rw [fields_vertexShader]
  cases t with
  | vertexData =>
    rw [fields_common, if_neg (by decide)]
    exact hinputs
  | _ =>
    rw [if_neg (by decide), List.append_nil]
    exact nodup_fields_common p _

/-- The entry of a vertex shader. -/
def vertexEntry (p : Program) : FunctionDecl :=
  ⟨[(.input, .struct .vertexData)], vertexBody p⟩

theorem visible_vertexShader (f : FunctionDecl) : visible blocks f ⊆ visible (vertexShader p) f :=
  List.Subset.trans (visible_common p f) (visible_subset_append _ _ f)

theorem vertexScope_visible : VertexScope p
    (visible (vertexShader p) (vertexEntry p)) := by
  have hblock {x : Mention} (hx : x ∈ visible blocks ⟨[], []⟩) :
      x ∈ visible (vertexShader p) (vertexEntry p) :=
    visible_vertexShader _ (mem_visible_blocks hx _)
  exact {
    projection := hblock (by decide)
    colorMatReg := hblock (by decide)
    colorAmbReg := hblock (by decide)
    texMtx := hblock (by decide)
    postTexMtx := hblock (by decide)
    posMtx := hblock (by decide)
    input := by
      intro w hw
      refine field_mem_visible (t := .vertexData) (List.mem_append_right _ List.mem_cons_self) ?_
      rw [fields_vertexShader, List.map_append]
      exact List.mem_append_right _ (List.mem_map.2 ⟨_, List.mem_map_of_mem hw, rfl⟩) }

/-- The vertex shader of a program that refers only to what is there is well scoped. -/
theorem wellScoped_vertexShader (hp : p.Resolved) : (vertexShader p).WellScoped := by
  have hlocals : Ranked 3 4 ((vertexBody p).flatMap Stmt.declared) := by
    rw [declared_vertexBody]
    exact ⟨by decide, by decide⟩
  refine wellScoped_of_entry (functions_vertexShader p) visible_vertexShader helper_products
    (closed_vertexBody hp vertexScope_visible) ?_ ?_ hlocals (by decide)
    (nodup_fields_vertexShader hp) ?_
  · intro x hx
    rw [assigned_vertexBody p x hx]
    decide
  · rw [globals_vertexShader, globals_common]
    exact ⟨by decide, by decide⟩
  · rw [globals_vertexShader, globals_common]
    decide

/-- All vertex inputs have locations, each its own. -/
theorem located_vertexData (hp : p.Resolved) : (vertexShader p).Located .vertexData := by
  refine ⟨p.vertexInputs.map (·.location), (hp.inputs.map _).nodup (by decide), ?_⟩
  rw [fields_vertexShader, fields_common, if_neg (by decide), if_pos rfl, vertexData,
    List.map_map]
  exact List.map_map

end Shader

end Shader
end FixedFunction
