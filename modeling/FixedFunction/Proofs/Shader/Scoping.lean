import FixedFunction.Proofs.Shader.Reading

/-!
# Compiled shaders are well scoped

**Results.**
* `Material.wellScoped_of_compile`: in both shaders of every material that compiles, what a
  statement mentions is declared once and before it, names and bindings do not repeat, members that
  are read are fields or were assigned, and each vertex input has its own location.
-/

namespace FixedFunction

open Shader

/-- Both shaders of a material that compiles, as their texts are read, are well scoped, and all
vertex inputs have locations, each its own. -/
theorem Material.wellScoped_of_compile {o : Omissions} {m : Material} {c : Compiled}
    (h : m.compile o = .ok c) :
    Source.read? c.vertexText = some (vertexShader c.program) ∧
    Source.read? c.fragmentText = some (fragmentShader c.program) ∧
    (fragmentShader c.program).WellScoped ∧ (vertexShader c.program).WellScoped ∧
      (vertexShader c.program).Located .vertexData := by
  have hp := resolved_of_lower (compile_eq_ok h).1
  obtain ⟨hvertex, hfragment⟩ := read?_of_compile h
  exact ⟨hvertex, hfragment, wellScoped_fragmentShader hp, wellScoped_vertexShader hp,
    located_vertexData hp⟩

namespace Sample

/-- A material whose second stage adds an indirect offset to the coordinate of the first. -/
def bumped : Material where
  channels := [{ color := { lit := true, material := .vertex } }]
  texGens := [{ source := .tex0 }, { kind := .srtg, source := .color0 },
    { source := .texCoord0, matrix := .texMtx3 }]
  indirectStages := [{ coord := some 2, texture := some 5 }]
  stages := [
    { CombinerStage.modulate 0 2 .color0A0 with indirect := { wrapS := .w64 } },
    { CombinerStage.modulate 9 1 .color1A1 with
      indirect := { matrix := .m1, addPrevious := true } }]

end Sample

/-- The shaders of the material are well scoped. -/
theorem wellScoped_bumped : ∃ c, Sample.bumped.compile {} = .ok c ∧
    c.program.textures = [1, 2, 5] ∧
    (fragmentShader c.program).WellScoped ∧ (vertexShader c.program).WellScoped ∧
      (vertexShader c.program).Located .vertexData := by
  obtain ⟨c, hc, htextures⟩ : ∃ c, Sample.bumped.compile {} = .ok c ∧
      c.program.textures = [1, 2, 5] := ⟨_, rfl, by decide +kernel⟩
  exact ⟨c, hc, htextures, (Material.wellScoped_of_compile hc).2.2⟩

end FixedFunction
