import FixedFunction.Proofs.Program.Ranges
import FixedFunction.Proofs.Shader.Accesses
import FixedFunction.Proofs.Shader.Reading

/-!
# Shaders stay inside their arrays

**Input.**  A material that compiles.

**Invariant.**  Both shaders begin with the same declarations, and what is declared first is what a
name stands for.  So an array has the same length in both, whatever the program.

**Results.**
* `Program.Bounded`: which elements the shaders of a program read, and that they are there, apart
  from the parameters of textures with too large a number.
* `Material.bounded_of_compile`: this holds of every material that compiles, and materials are
  refused for their settings only.
-/

namespace FixedFunction

open Shader

namespace Shader

namespace Source

/-- The declared length of an array that is a member of a global variable. -/
def length? (src : Source) : Expr → Option Nat
  | .member (.var x) m => do
    let g ← src.globals.find? (·.name = x)
    let .struct s := g.type | none
    let f ← (src.fields s).find? (·.name = m)
    let .array _ n := f.type | none
    return n
  | _ => none

def Holds (src : Source) (a : Access) : Prop :=
  ∃ n, src.length? a.array = some n ∧ a.number < n

def InBounds (src : Source) : Prop :=
  ∀ a ∈ src.accesses, src.Holds a

end Source

/-- The lengths of the arrays of parameters. -/
def arrayLengths : List (Expr × Nat) :=
  [(material .colorMatReg, 2), (material .colorAmbReg, 2), (material .konstColor, 4),
    (material .color, 4), (material .texMtx, 10), (material .postTexMtx, 20),
    (material .textureParams, 8), (material .indTexMtx, 3), (packet .posMtx, 10)]

end Shader

open Source

/-- Which elements of arrays the shaders of a program read, if its parts sample the given textures.
The numbers of textures are not looked at. -/
structure Program.Bounded (textures : List UInt8) (p : Program) : Prop where
  lengths : ∀ x ∈ arrayLengths, (vertexShader p).length? x.1 = some x.2 ∧
    (fragmentShader p).length? x.1 = some x.2
  vertex : (vertexShader p).InBounds
  fragment : ∀ a ∈ (fragmentShader p).accesses,
    (fragmentShader p).Holds a ∨ ∃ t ∈ textures, 8 ≤ t.toNat ∧ a = textureAccess t
  fragment_iff : (fragmentShader p).InBounds ↔ ∀ t ∈ textures, t.toNat < 8

namespace Shader

section Lengths

/-- An array keeps its length where declarations are added behind. -/
theorem length?_append {a b : Source} {e : Expr} {n : Nat} (h : a.length? e = some n) :
    (a ++ b).length? e = some n := by
  unfold length? at h ⊢
  split at h
  · obtain ⟨g, hg, h⟩ := Option.bind_eq_some_iff.1 h
    rw [globals_append, List.find?_append, hg]
    dsimp only [Option.some_or, Option.bind_eq_bind, Option.bind_some]
    split at h
    · obtain ⟨f, hf, h⟩ := Option.bind_eq_some_iff.1 h
      rwa [fields_append, List.find?_append, hf]
    · exact absurd h (by simp)
  · exact absurd h (by simp)

theorem length?_blocks : ∀ x ∈ arrayLengths, blocks.length? x.1 = some x.2 := by
  decide

theorem length?_vertexShader {p : Program} {e : Expr} {n : Nat} (h : blocks.length? e = some n) :
    (vertexShader p).length? e = some n :=
  length?_append (length?_append (length?_append h))

theorem length?_fragmentShader {p : Program} {e : Expr} {n : Nat} (h : blocks.length? e = some n) :
    (fragmentShader p).length? e = some n := by
  have hcommon : (common p).length? e = some n := length?_append (length?_append h)
  exact length?_append (length?_append (length?_append hcommon))

theorem Holds.mono {a b : Source} (h : ∀ {e n}, a.length? e = some n → b.length? e = some n)
    {x : Access} (hx : a.Holds x) : b.Holds x := by
  obtain ⟨n, hn, hlt⟩ := hx
  exact ⟨n, h hn, hlt⟩

theorem holds_textureAccess_iff {src : Source}
    (h : src.length? (material .textureParams) = some 8) {t : UInt8} :
    src.Holds (textureAccess t) ↔ t.toNat < 8 := by
  constructor
  · rintro ⟨n, hn, hlt⟩
    obtain rfl := Option.some.inj (h.symm.trans hn)
    exact hlt
  · exact fun hlt => ⟨8, h, hlt⟩

end Lengths

end Shader

section Vertex

theorem ColorOrigin.holds_of_inRange {c : ColorOrigin} (h : c.InRange) :
    ∀ a ∈ c.accesses, blocks.Holds a := by
  cases c with
  | materialRegister i => exact List.forall_mem_singleton.2 ⟨2, rfl, h⟩
  | ambientRegister i => exact List.forall_mem_singleton.2 ⟨2, rfl, h⟩
  | vertex _ | white => exact List.forall_mem_nil _

theorem ChannelHalf.holds_of_inRange {v : ChannelHalf} (h : v.InRange) :
    ∀ a ∈ v.accesses, blocks.Holds a := by
  refine List.forall_mem_append.2 ⟨?_, ColorOrigin.holds_of_inRange h.material⟩
  cases hambient : v.ambient with
  | none => exact List.forall_mem_nil _
  | some c => exact ColorOrigin.holds_of_inRange (h.ambient c hambient)

theorem Channel.holds_of_inRange {c : Channel} (hcolor : c.color.InRange)
    (halpha : c.alpha.InRange) : ∀ a ∈ c.accesses, blocks.Holds a := by
  unfold accesses
  split
  · exact ChannelHalf.holds_of_inRange hcolor
  · exact List.forall_mem_append.2
      ⟨ChannelHalf.holds_of_inRange hcolor, ChannelHalf.holds_of_inRange halpha⟩

theorem CoordMatrix.holds_of_inRange {m : CoordMatrix} (h : m.InRange) :
    ∀ a ∈ m.accesses, blocks.Holds a := by
  cases m with
  | identity => exact List.forall_mem_nil _
  | position i => exact List.forall_mem_singleton.2 ⟨positionMatrices, rfl, h⟩
  | texture i => exact List.forall_mem_singleton.2 ⟨textureMatrices, rfl, h⟩

theorem CoordGen.holds_of_inRange {g : CoordGen} (h : g.InRange) :
    ∀ a ∈ g.accesses, blocks.Holds a := by
  refine List.forall_mem_append.2 ⟨?_, ?_⟩
  · cases hpost : g.post with
    | none => exact List.forall_mem_nil _
    | some i => exact List.forall_mem_singleton.2 ⟨postMatrices, rfl, h.post i hpost⟩
  · split
    · exact List.forall_mem_nil _
    · exact CoordMatrix.holds_of_inRange h.matrix

/-- The elements that a vertex shader reads are there. -/
theorem Program.holds_vertexShader {p : Program} (hp : p.InRange) :
    ∀ a ∈ (vertexShader p).accesses, blocks.Holds a := by
  have hchannel (i : Nat) : ∀ a ∈ (p.channels[i]?.map Channel.accesses).getD [],
      blocks.Holds a := by
    cases hc : p.channels[i]? with
    | none => exact List.forall_mem_nil _
    | some c =>
      obtain ⟨hcolor, halpha⟩ := hp.channel c (List.mem_of_getElem? hc)
      exact Channel.holds_of_inRange hcolor halpha
  rw [accesses_vertexShader]
  refine List.forall_mem_append.2 ⟨List.forall_mem_append.2 ⟨hchannel 0, hchannel 1⟩, ?_⟩
  intro a ha
  obtain ⟨g, hg, ha⟩ := List.mem_flatMap.1 ha
  exact CoordGen.holds_of_inRange (hp.gen g hg) a ha

end Vertex

section Fragment

/-- An element is there, or it holds the parameters of one of the given textures. -/
def Shader.Access.Found (textures : List UInt8) (a : Access) : Prop :=
  blocks.Holds a ∨ ∃ t ∈ textures, a = textureAccess t

variable {textures : List UInt8}

theorem found_textureAccesses {t : Option UInt8} (h : ∀ x, t = some x → x ∈ textures) :
    ∀ a ∈ textureAccesses t, a.Found textures := by
  cases t with
  | none => exact List.forall_mem_nil _
  | some t => exact List.forall_mem_singleton.2 (.inr ⟨t, h t rfl, rfl⟩)

theorem Operand.holds_of_inRange {x : Operand} (h : x.InRange) :
    ∀ a ∈ x.accesses, blocks.Holds a := by
  cases x with
  | konst k _ => exact List.forall_mem_singleton.2 ⟨4, rfl, h⟩
  | _ => exact List.forall_mem_nil _

theorem Stage.found_sampleAccesses {s : Stage} (h : s.InRange)
    (htexture : ∀ t, s.texture = some t → t ∈ textures) :
    ∀ a ∈ s.sampleAccesses, a.Found textures := by
  unfold sampleAccesses
  split
  case h_1 t c ht hc =>
    refine List.forall_mem_append.2 ⟨?_, ?_⟩
    · unfold StageCoord.accesses
      cases ho : c.indirect with
      | none => exact List.forall_mem_nil _
      | some o =>
        refine List.forall_mem_cons.2 ⟨.inl ⟨indirectMatrices, rfl, h.matrix c hc o ho⟩, ?_⟩
        exact found_textureAccesses fun x hx =>
          htexture x ((h.offset_texture c hc o ho).symm.trans hx)
    · exact List.forall_mem_singleton.2 (.inr ⟨t, htexture t ht, rfl⟩)
  case h_2 => exact List.forall_mem_nil _

theorem Stage.found_accesses {s : Stage} (h : s.InRange)
    (htexture : ∀ t, s.texture = some t → t ∈ textures) :
    ∀ a ∈ s.accesses, a.Found textures := by
  refine List.forall_mem_append.2 ⟨s.found_sampleAccesses h htexture, fun a ha => .inl ?_⟩
  obtain ⟨x, hx, ha⟩ := List.mem_flatMap.1 ha
  have hcolor := h.operand x.1 (List.mem_append_left _ (List.of_mem_zip hx).1)
  have halpha := h.operand x.2 (List.mem_append_right _ (List.of_mem_zip hx).2)
  rcases List.mem_append.1 ha with ha | ha
  · exact Operand.holds_of_inRange hcolor a ha
  · exact Operand.holds_of_inRange halpha a ha

/-- The elements that a fragment shader reads are there, or they hold the parameters of textures of
the program. -/
theorem Program.found_fragmentShader {p : Program} (hp : p.InRange) (hresolved : p.Resolved) :
    ∀ a ∈ (fragmentShader p).accesses, a.Found p.textures := by
  have hregisters : ∀ a ∈ registerAccesses, blocks.Holds a := by
    simp only [registerAccesses, List.forall_mem_cons]
    exact ⟨⟨4, rfl, by decide⟩, ⟨4, rfl, by decide⟩, ⟨4, rfl, by decide⟩, ⟨4, rfl, by decide⟩,
      List.forall_mem_nil _⟩
  rw [accesses_fragmentShader]
  refine List.forall_mem_append.2 ⟨List.forall_mem_append.2 ⟨?_, ?_⟩, ?_⟩
  · exact fun a ha => .inl (hregisters a ha)
  · intro a ha
    obtain ⟨s, hs, ha⟩ := List.mem_flatMap.1 ha
    exact found_textureAccesses (hresolved.sample s hs).texture a ha
  · intro a ha
    obtain ⟨s, hs, ha⟩ := List.mem_flatMap.1 ha
    exact Stage.found_accesses (hp.stage s hs) (hresolved.stage s hs).texture a ha

/-- The parameters of each texture that is sampled are read. -/
theorem Program.textureAccess_mem {p : Program} (hresolved : p.Resolved) {t : UInt8}
    (h : (∃ s ∈ p.indirectSamples, s.texture = some t) ∨ ∃ s ∈ p.stages, s.texture = some t) :
    textureAccess t ∈ (fragmentShader p).accesses := by
  rw [accesses_fragmentShader]
  rcases h with ⟨s, hs, ht⟩ | ⟨s, hs, ht⟩
  · refine List.mem_append_left _ (List.mem_append_right _ (List.mem_flatMap.2 ⟨s, hs, ?_⟩))
    rw [ht]
    exact List.mem_singleton_self _
  · refine List.mem_append_right _ (List.mem_flatMap.2 ⟨s, hs, List.mem_append_left _ ?_⟩)
    obtain ⟨c, hc⟩ : ∃ c, s.coord = some c := by
      rw [← Option.isSome_iff_exists, (hresolved.stage s hs).coord_isSome, ht]
      rfl
    rw [Stage.sampleAccesses, ht, hc]
    exact List.mem_append_right _ (List.mem_singleton_self _)

end Fragment

section Materials

variable {o : Omissions} {m : Material} {p : Program}

/-- The textures of a program are those that the parts of the material sample. -/
theorem Material.mem_textures_of_lower (h : m.lower o = .ok p) {t : UInt8} : t ∈ m.textures o ↔
    (∃ s ∈ p.indirectSamples, s.texture = some t) ∨ ∃ s ∈ p.stages, s.texture = some t := by
  obtain ⟨gens, stages, check, -, hstages, -, rfl⟩ := lower_eq_ok h
  exact mem_textures_iff hstages

theorem Material.mem_textures_iff_of_lower (h : m.lower o = .ok p) {t : UInt8} :
    t ∈ m.textures o ↔ t ∈ p.textures := by
  rw [mem_textures_of_lower h]
  obtain ⟨gens, stages, check, -, hstages, -, rfl⟩ := lower_eq_ok h
  exact mem_texturesRead.symm

theorem Material.bounded_of_lower (h : m.lower o = .ok p) : p.Bounded (m.textures o) := by
  have hrange := inRange_of_lower h
  have hresolved := resolved_of_lower h
  have hlength : (fragmentShader p).length? (material .textureParams) = some 8 :=
    length?_fragmentShader rfl
  have hfound : ∀ a ∈ (fragmentShader p).accesses,
      (fragmentShader p).Holds a ∨ ∃ t ∈ m.textures o, 8 ≤ t.toNat ∧ a = textureAccess t := by
    intro a ha
    rcases Program.found_fragmentShader hrange hresolved a ha with ha | ⟨t, ht, rfl⟩
    · exact .inl (Holds.mono length?_fragmentShader ha)
    · rcases Nat.lt_or_ge t.toNat 8 with hlt | hge
      · exact .inl ((holds_textureAccess_iff hlength).2 hlt)
      · exact .inr ⟨t, (mem_textures_iff_of_lower h).2 ht, hge, rfl⟩
  refine ⟨fun x hx => ?_, fun a ha => ?_, hfound, ?_, ?_⟩
  · exact ⟨length?_vertexShader (length?_blocks x hx), length?_fragmentShader (length?_blocks x hx)⟩
  · exact Holds.mono length?_vertexShader (Program.holds_vertexShader hrange a ha)
  · intro hbounds t ht
    have hmem := Program.textureAccess_mem hresolved ((mem_textures_of_lower h).1 ht)
    exact (holds_textureAccess_iff hlength).1 (hbounds _ hmem)
  · intro hlt a ha
    rcases hfound a ha with ha | ⟨t, ht, hge, -⟩
    · exact ha
    · exact absurd hge (Nat.not_le.2 (hlt t ht))

/-- In both shaders of every material that compiles, as their texts are read, the elements that are
read are there, apart from the parameters of textures with numbers from 8 on.  A material that does
not compile is refused for its settings. -/
theorem Material.bounded_of_compile (o : Omissions) (m : Material) :
    (∀ c, m.compile o = .ok c →
      Source.read? c.vertexText = some (vertexShader c.program) ∧
        Source.read? c.fragmentText = some (fragmentShader c.program) ∧
        c.program.Bounded (m.textures o)) ∧
      ∀ e, m.compile o = .error e → e.isConfiguration := by
  constructor
  · intro c hc
    obtain ⟨hvertex, hfragment⟩ := read?_of_compile hc
    exact ⟨hvertex, hfragment, bounded_of_lower (compile_eq_ok hc).1⟩
  · intro e he
    exact isConfiguration_of_compile he

end Materials

namespace Sample

/-- A material that reads the last elements of arrays. -/
def outermost : Material where
  channels := [{}, { color := { lit := true } }]
  texGens := [{ source := .tex0, matrix := .texMtx9, post := ⟨121⟩ },
    { source := .position, matrix := .pnMtx9 }]
  indirectStages := [{ coord := some 1, texture := some 7 }]
  stages := [{ CombinerStage.modulate 0 7 .color1 with
    color := { a := .konst, b := .texC, c := .rasC, d := .zero }
    konstColor := .k3A
    indirect := { matrix := .m2 } }]

/-- A material that samples a texture whose number is that of no texture. -/
def far : Material where
  texGens := [{ source := .tex0 }]
  stages := [CombinerStage.modulate 0 200 .colorZero]

end Sample

theorem Material.bounded_outermost : ∃ c, Sample.outermost.compile {} = .ok c ∧
    [⟨material .colorAmbReg, 1⟩, ⟨material .postTexMtx, 19⟩, ⟨material .texMtx, 9⟩,
      ⟨packet .posMtx, 9⟩] ⊆ (vertexShader c.program).accesses ∧
    [⟨material .indTexMtx, 2⟩, textureAccess 7, ⟨material .konstColor, 3⟩] ⊆
      (fragmentShader c.program).accesses ∧
    (vertexShader c.program).InBounds ∧ (fragmentShader c.program).InBounds := by
  obtain ⟨c, hc, hvertex, hfragment⟩ : ∃ c, Sample.outermost.compile {} = .ok c ∧
      [⟨material .colorAmbReg, 1⟩, ⟨material .postTexMtx, 19⟩, ⟨material .texMtx, 9⟩,
        ⟨packet .posMtx, 9⟩] ⊆ (vertexShader c.program).accesses ∧
      [⟨material .indTexMtx, 2⟩, textureAccess 7, ⟨material .konstColor, 3⟩] ⊆
        (fragmentShader c.program).accesses :=
    ⟨_, rfl, by decide +kernel, by decide +kernel⟩
  obtain ⟨-, -, hbounded⟩ := (Material.bounded_of_compile {} Sample.outermost).1 c hc
  have htextures : ∀ t ∈ Sample.outermost.textures {}, t.toNat < 8 := by decide +kernel
  exact ⟨c, hc, hvertex, hfragment, hbounded.vertex, hbounded.fragment_iff.2 htextures⟩

/-- The material compiles, and its fragment shader reads an element that is not there. -/
theorem Material.not_inBounds_far : ∃ c, Sample.far.compile {} = .ok c ∧
    textureAccess 200 ∈ (fragmentShader c.program).accesses ∧
    (fragmentShader c.program).length? (material .textureParams) = some 8 ∧
    ¬(fragmentShader c.program).InBounds := by
  have hmem : 200 ∈ Sample.far.textures {} := by decide +kernel
  obtain ⟨c, hc⟩ : ∃ c, Sample.far.compile {} = .ok c := ⟨_, rfl⟩
  have hlower := (compile_eq_ok hc).1
  have hread := (mem_textures_of_lower hlower).1 hmem
  refine ⟨c, hc, Program.textureAccess_mem (resolved_of_lower hlower) hread,
    length?_fragmentShader rfl, fun h => ?_⟩
  exact absurd ((bounded_of_lower hlower).fragment_iff.1 h 200 hmem) (by decide)

end FixedFunction
