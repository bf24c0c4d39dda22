import FixedFunction.Proofs.Program.Resolved

/-!
# The generators that the parts of a program read

A stage or an indirect sample of a material selects a generator by a byte.  The number of the last
generator is kept in a byte as well, so with more than 256 generators a selection is compared with
what is left of that number modulo 256.

**Input.**  A material with any number of generators.

**Results.**
* `selected`: the generator that is selected: the one with the given number, or the last one.
* `Reads`: the generator that is read instead, and when it is the one that is selected.
* `Material.coords_of_lower`: every coordinate of a program reads a generator in this way.
* `Material.coords_wrap`: with 257 generators the first one is read in place of the sixth.
-/

namespace FixedFunction

/-- The generator among `n` that a number selects: the one that has this number, and the last one
where the number is past it. -/
def selected (n : Nat) (id : Option UInt8) : Option Nat :=
  if n = 0 then none else id.map fun i => if i.toNat < n then i.toNat else n - 1

/-- A part of a program with `n` generators reads a coordinate for a number. -/
structure Reads (n : Nat) (id coord : Option UInt8) : Prop where
  /-- There is no coordinate without a generator or a number. -/
  none_iff : coord = none ↔ n = 0 ∨ id = none
  /-- Otherwise the last generator counts modulo 256. -/
  number : ∀ i, n ≠ 0 → id = some i → ∃ k, coord = some k ∧ k.toNat = min i.toNat ((n - 1) % 256)
  /-- Up to 256 generators, and for small numbers also beyond, it is the selected coordinate. -/
  selected_iff : coord.map UInt8.toNat = selected n id ↔
    n ≤ 256 ∨ ∀ i, id = some i → i.toNat ≤ (n - 1) % 256

section Coord

variable {m : Material}

theorem Material.coord_of_pos (h : m.texGens.length ≠ 0) (id : Option UInt8) :
    m.coord id = id.map (min · (m.texGens.length - 1).toUInt8) := by
  have hne : m.texGens.isEmpty = false := by
    simpa [List.isEmpty_iff, List.length_eq_zero_iff] using h
  rw [coord, hne]
  rfl

/-- What a part of a material with a number reads. -/
theorem Material.reads_coord (m : Material) (id : Option UInt8) :
    Reads m.texGens.length id (m.coord id) := by
  by_cases hn : m.texGens.length = 0
  · have hcoord : m.coord id = none := by
      rw [coord, List.isEmpty_iff.2 (List.length_eq_zero_iff.1 hn)]
      rfl
    rw [hcoord]
    exact ⟨by simp [hn], fun i h => absurd hn h, by simp [selected, hn]⟩
  · rw [coord_of_pos hn]
    cases id with
    | none => exact ⟨by simp, by simp, by simp [selected]⟩
    | some i =>
      have hi := i.toNat_lt
      have hlast : (min i (m.texGens.length - 1).toUInt8).toNat =
          min i.toNat ((m.texGens.length - 1) % 256) := by
        rw [toNat_min]
        rfl
      refine ⟨by simp [hn], fun j _ hj => ⟨_, rfl, ?_⟩, ?_⟩
      · obtain rfl := Option.some.inj hj
        exact hlast
      · simp only [selected, if_neg hn, Option.map_some, Option.some.injEq, forall_eq', hlast]
        split <;> omega

end Coord

section Lower

variable {o : Omissions} {m : Material}

theorem CombinerStage.reads_of_lower {s : CombinerStage} {k : Nat} {t : Stage}
    (h : s.lower o m k = .ok t) (ht : t.texture.isSome) :
    ∃ c, t.coord = some c ∧ Reads m.texGens.length s.coord c.coord := by
  obtain ⟨c, raster, color, alpha, hc, -, -, -, rfl⟩ := lower_eq_ok h
  obtain ⟨indirect, -, rfl⟩ := stageCoord_eq_ok hc
  obtain ⟨x, hx⟩ := Option.isSome_iff_exists.1 ht
  have hsampled : s.sampled o = some x := hx
  exact ⟨_, congrArg (Option.map _) hsampled, m.reads_coord s.coord⟩

/-- The indirect samples of a program, and its stages that sample a texture, read the generators
that the material selects for them, where the last generator counts modulo 256. -/
theorem Material.coords_of_lower {p : Program} (h : m.lower o = .ok p) :
    p.coordGens.length = m.texGens.length ∧
    List.Forall₂ (fun s t => Reads m.texGens.length s.coord t.coord) m.indirectStages
      p.indirectSamples ∧
    List.Forall₂ (fun s t => t.texture.isSome →
      ∃ c, t.coord = some c ∧ Reads m.texGens.length s.coord c.coord) m.stages p.stages := by
  obtain ⟨gens, stages, check, hgens, hstages, -, rfl⟩ := lower_eq_ok h
  refine ⟨length_of_refuseFirst hgens, ?_, ?_⟩
  · exact List.forall₂_map_right_iff.2
      (List.forall₂_same.2 fun s _ => m.reads_coord s.coord)
  · have hreads : ∀ k s t, CombinerStage.lower o m k s = .ok t → t.texture.isSome →
        ∃ c, t.coord = some c ∧ Reads m.texGens.length s.coord c.coord :=
      fun _ _ _ => CombinerStage.reads_of_lower
    exact forall₂_of_refuseFirst hreads hstages

end Lower

namespace Sample

/-- A material with two generators, whose parts select the second, one that is past it, and none. -/
def selecting : Material where
  texGens := [{ source := .tex0 }, { source := .tex1 }]
  indirectStages := [{ coord := some 200, texture := some 2 }]
  stages := [
    CombinerStage.modulate 1 0 .colorZero,
    CombinerStage.modulate 2 1 .colorZero,
    { CombinerStage.modulate 0 1 .colorZero with coord := none }]

/-- A material with 257 generators, whose parts select the sixth. -/
def numerous : Material where
  texGens := List.replicate 257 { source := .tex0 }
  indirectStages := [{ coord := some 5, texture := some 1 }]
  stages := [CombinerStage.modulate 5 0 .colorZero]

end Sample

theorem Material.coords_selecting : ∃ p, Sample.selecting.lower {} = .ok p ∧
    p.indirectSamples.map (·.coord) = [some 1] ∧
    p.stages.map (·.coord.map (·.coord)) = [some (some 1), some (some 1), some none] ∧
    p.coordGens.length = 2 ∧
    List.Forall₂ (fun s t => Reads 2 s.coord t.coord) Sample.selecting.indirectStages
      p.indirectSamples ∧
    List.Forall₂ (fun s t => t.texture.isSome →
      ∃ c, t.coord = some c ∧ Reads 2 s.coord c.coord) Sample.selecting.stages p.stages := by
  obtain ⟨p, hp, hsamples, hstages⟩ : ∃ p, Sample.selecting.lower {} = .ok p ∧
      p.indirectSamples.map (·.coord) = [some 1] ∧
      p.stages.map (·.coord.map (·.coord)) = [some (some 1), some (some 1), some none] :=
    ⟨_, rfl, by decide +kernel, by decide +kernel⟩
  exact ⟨p, hp, hsamples, hstages, Material.coords_of_lower hp⟩

/-- The material is lowered, and both its parts read the first generator although the sixth, which
they select, is there. -/
theorem Material.coords_wrap : ∃ p, Sample.numerous.lower {} = .ok p ∧
    p.coordGens.length = 257 ∧
    selected 257 (some 5) = some 5 ∧
    p.indirectSamples.map (·.coord) = [some 0] ∧
    p.stages.map (fun s => (s.texture, s.coord.map (·.coord))) = [(some 0, some (some 0))] := by
  have hgens : (Sample.numerous.lower {}).toOption.map (·.coordGens.length) = some 257 := by
    decide +kernel
  have hsamples : (Sample.numerous.lower {}).toOption.map
      (·.indirectSamples.map (·.coord)) = some [some 0] := by
    decide +kernel
  have hstages : (Sample.numerous.lower {}).toOption.map
      (·.stages.map fun s => (s.texture, s.coord.map (·.coord))) =
      some [(some 0, some (some 0))] := by
    decide +kernel
  cases hp : Sample.numerous.lower {} with
  | error e => simp [hp, Except.toOption] at hgens
  | ok p =>
    simp only [hp, Except.toOption, Option.map_some, Option.some.injEq] at hgens hsamples hstages
    exact ⟨p, rfl, hgens, by decide, hsamples, hstages⟩

end FixedFunction
