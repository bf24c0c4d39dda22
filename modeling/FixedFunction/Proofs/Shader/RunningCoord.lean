import FixedFunction.Proofs.Shader.Combining

/-!
# The running coordinate

A stage that adds to the coordinate of the stage before it finds that coordinate in a variable.  The
stages that sample a texture set this variable or add to it, and all others leave it as it was.

**Input.**  A material that compiles, and one of its stages.

**Invariant.**  Before each stage the variable holds what the stages that sample make of it, as if
there were no others.

**Results.**
* `CombinerStage.configured`, `Material.accumulated`: the coordinate that is configured for a stage,
  and the coordinate that a list of stages accumulates.
* `Material.runningCoord_of_compile`: what a stage adds to, and when it is what the stages before it
  are configured for.
* `Material.runningCoord_skips`: a stage that adds to something else.
-/

namespace FixedFunction

open Shader Shader.Expr

variable {σ : Type}

section Configured

variable (A : Arithmetic σ) (F : Frame σ) (m : Material) (indirect : Nat → Vec3 σ)

namespace CombinerStage

/-- The coordinate that is configured for a stage of a material: that of its generator, wrapped on
each axis, and moved by the indirect offset if there is one. -/
def configured (s : CombinerStage) : Vec2 σ :=
  let plane := F.plane A (m.coord s.coord)
  let base : Vec2 σ :=
    ⟨s.indirect.wrapS.lower.apply A plane.x, s.indirect.wrapT.lower.apply A plane.y⟩
  match s.indirect.matrix.lower with
  | .ok (some matrix) =>
    let o : IndirectOffset := {
      stage := s.indirect.stage
      matrix
      biasS := biasValue s.indirect.bias.components.1
      biasT := biasValue s.indirect.bias.components.2.1
      biasU := biasValue s.indirect.bias.components.2.2
      texture := s.texture }
    base.add A (o.value A F indirect)
  | _ => base

/-- The coordinate of a stage, given that of the stage before. -/
def accumulate (before : Vec2 σ) (s : CombinerStage) : Vec2 σ :=
  if s.indirect.addPrevious then before.add A (s.configured A F m indirect)
  else s.configured A F m indirect

end CombinerStage

/-- The coordinate that some stages of a material accumulate, one after the other. -/
def Material.accumulated (stages : List CombinerStage) : Vec2 σ :=
  stages.foldl (CombinerStage.accumulate A F m indirect) (F.start A).coord

end Configured

/-- Whether a stage samples a texture. -/
def CombinerStage.samples (o : Omissions) (s : CombinerStage) : Bool :=
  (s.sampled o).isSome

/-- Since the last of the stages that replaces the coordinate, or since the first stage, all of them
sample. -/
def Linked (o : Omissions) (stages : List CombinerStage) : Prop :=
  ∃ before recent, stages = before ++ recent ∧ (∀ s ∈ recent, s.samples o) ∧
    (before = [] ∨ ∃ s, recent.head? = some s ∧ s.indirect.addPrevious = false)

section Accumulated

variable {A : Arithmetic σ} {F : Frame σ} {m : Material} {indirect : Nat → Vec3 σ}

/-- Nothing is left of what was accumulated before the coordinate is replaced. -/
theorem foldl_accumulate_of_replaces {s : CombinerStage} {l : List CombinerStage}
    (hl : l.head? = some s) (hs : s.indirect.addPrevious = false) (u v : Vec2 σ) :
    l.foldl (CombinerStage.accumulate A F m indirect) u =
      l.foldl (CombinerStage.accumulate A F m indirect) v := by
  obtain ⟨l, rfl⟩ := List.head?_eq_some_iff.1 hl
  simp [CombinerStage.accumulate, hs]

/-- If they are linked, the stages that do not sample can be left out. -/
theorem Linked.accumulated_filter {o : Omissions} {l : List CombinerStage} (h : Linked o l) :
    m.accumulated A F indirect (l.filter (·.samples o)) = m.accumulated A F indirect l := by
  obtain ⟨before, recent, rfl, hsamples, hfirst⟩ := h
  rw [List.filter_append, List.filter_eq_self.2 hsamples]
  rcases hfirst with rfl | ⟨s, hhead, hreplaces⟩
  · rfl
  · rw [Material.accumulated, Material.accumulated, List.foldl_append, List.foldl_append]
    exact foldl_accumulate_of_replaces hhead hreplaces _ _

end Accumulated

section Lower

variable {A : Arithmetic σ} {F : Frame σ} {indirect : Nat → Vec3 σ}
variable {o : Omissions} {m : Material} {k : Nat} {s : CombinerStage}

/-- The lowered coordinate of a stage has the value that is configured. -/
theorem CombinerStage.value_of_stageCoord (A : Arithmetic σ) (F : Frame σ)
    (indirect : Nat → Vec3 σ) {c : StageCoord} (h : s.stageCoord m k = .ok c) :
    c.value A F indirect = s.configured A F m indirect ∧
      c.addPrevious = s.indirect.addPrevious := by
  obtain ⟨offset, hoffset, rfl⟩ := stageCoord_eq_ok h
  refine ⟨?_, rfl⟩
  cases offset with
  | none =>
    rw [configured, offset_eq_none hoffset]
    rfl
  | some offset =>
    obtain ⟨-, matrix, hmatrix, rfl⟩ := offset_eq_ok hoffset
    rw [configured, hmatrix]
    rfl

/-- A stage that samples moves the coordinate as it is configured to, and any other leaves it. -/
theorem CombinerStage.move_of_lower {t : Stage} (h : s.lower o m k = .ok t) (before : Vec2 σ) :
    t.move A F indirect before =
      if s.samples o then s.accumulate A F m indirect before else before := by
  obtain ⟨c, raster, color, alpha, hc, -, -, -, rfl⟩ := lower_eq_ok h
  obtain ⟨hvalue, hadd⟩ := value_of_stageCoord A F indirect hc
  cases hsampled : s.sampled o with
  | none => simp [Stage.move, samples, hsampled]
  | some x => simp [Stage.move, StageCoord.move, accumulate, samples, hsampled, hvalue, hadd]

theorem coord_foldl_step {stages : List CombinerStage} {lowered : List Stage}
    (h : List.Forall₂ (fun s t => ∃ k, CombinerStage.lower o m k s = .ok t) stages lowered)
    (machine : Machine σ) :
    (lowered.foldl (fun machine t => t.step A F indirect machine) machine).coord =
      (stages.filter (·.samples o)).foldl (CombinerStage.accumulate A F m indirect)
        machine.coord := by
  induction h generalizing machine with
  | nil => rfl
  | @cons s t _ _ ht _ ih =>
    obtain ⟨k, ht⟩ := ht
    rw [List.foldl_cons, ih, Stage.step, CombinerStage.move_of_lower ht]
    cases hsamples : s.samples o <;> simp [hsamples]

end Lower

section Body

variable {A : Arithmetic σ} {F : Frame σ} {p : Program} {k : Nat} {c : StageCoord}

namespace Shader

/-- The statement that binds the coordinate of stage `k` before it is wrapped. -/
def baseStmts (k : Nat) (c : StageCoord) : List Stmt :=
  if isWrapped c then [.bind (.coordBase k) (planeCoord c.coord)] else []

/-- The statements of a program before the one that sets the coordinate of stage `k`, or adds to
it. -/
def beforeCoord (p : Program) (k : Nat) (c : StageCoord) : List Stmt :=
  openingStmts p ++ ((p.stages.take k).mapIdx stageStmts).flatten ++ .remark k :: baseStmts k c

/-- The variable holds the coordinate that the stages before it have left. -/
theorem run_beforeCoord (hp : p.Resolved) (k : Nat) (c : StageCoord) :
    run A (env F) (beforeCoord p k c) .coord = .vector
      ((p.stages.take k).foldl (fun machine t => t.step A F (p.indirectValue A F) machine)
        (F.start A)).coord.list := by
  have hstages : ∀ t ∈ p.stages.take k, t.Resolved p := fun t ht =>
    hp.stage t (List.mem_of_mem_take ht)
  have h := run_stages (run_openingStmts (A := A) (F := F) (p := p)) hstages
  rw [← h.coord, beforeCoord, run_stmts_append, run_stmts_append, baseStmts]
  split <;> rfl

theorem stageStmts_eq_addAssign {t : Stage} (hc : t.coord = some c) (htexture : t.texture.isSome)
    (hadd : c.addPrevious = true) :
    ∃ rest, stageStmts k t =
      .remark k :: baseStmts k c ++ .addAssign (.var .coord) (stageCoord k c) :: rest := by
  obtain ⟨x, hx⟩ := Option.isSome_iff_exists.1 htexture
  have hsample : sampleStmts k t =
      coordStmts k c ++ [.bind (.sample k) (sampleTexture x (var .coord))] := by
    rw [sampleStmts, hx, hc]
  have hcoord : coordStmts k c =
      baseStmts k c ++ [.addAssign (.var .coord) (stageCoord k c)] := by
    rw [coordStmts, if_pos hadd]
    rfl
  rw [stageStmts, hsample, hcoord]
  simp only [List.cons_append, List.append_assoc, List.nil_append]
  exact ⟨_, rfl⟩

/-- A stage that samples and adds to the coordinate does so behind the statements before it. -/
theorem fragmentBody_eq_addAssign {t : Stage} (ht : p.stages[k]? = some t)
    (hc : t.coord = some c) (htexture : t.texture.isSome) (hadd : c.addPrevious = true) :
    ∃ rest, fragmentBody p =
      beforeCoord p k c ++ .addAssign (.var .coord) (stageCoord k c) :: rest := by
  obtain ⟨hk, rfl⟩ := List.getElem?_eq_some_iff.1 ht
  obtain ⟨rest, hrest⟩ := stageStmts_eq_addAssign (k := k) hc htexture hadd
  have hlen : (p.stages.take k).length = k := List.length_take_of_le (Nat.le_of_lt hk)
  have hsplit : p.stages.mapIdx stageStmts = (p.stages.take k).mapIdx stageStmts ++
      stageStmts k p.stages[k] ::
        (p.stages.drop (k + 1)).mapIdx fun i => stageStmts (i + 1 + k) := by
    conv_lhs => rw [← List.take_append_drop k p.stages, List.drop_eq_getElem_cons hk]
    rw [List.mapIdx_append, List.mapIdx_cons, hlen, Nat.zero_add]
  rw [fragmentBody, hsplit, List.flatten_append, List.flatten_cons, hrest, beforeCoord]
  simp only [List.append_assoc, List.cons_append]
  exact ⟨_, rfl⟩

end Shader
end Body

section Compile

variable {o : Omissions} {m : Material} {p : Program}

/-- The lowered stage with a given number. -/
theorem Material.exists_stage_of_lower (h : m.lower o = .ok p) {k : Nat} {s : CombinerStage}
    (hs : m.stages[k]? = some s) : ∃ t, p.stages[k]? = some t ∧ s.lower o m k = .ok t := by
  obtain ⟨gens, stages, check, -, hstages, -, rfl⟩ := lower_eq_ok h
  have hlen := length_of_refuseFirst hstages
  have hk : k < stages.length := hlen ▸ (List.getElem?_eq_some_iff.1 hs).1
  have ht := List.getElem?_eq_getElem hk
  obtain ⟨s', hs', hlower⟩ := getElem?_of_refuseFirst hstages ht
  obtain rfl : s = s' := Option.some.inj (hs.symm.trans hs')
  rw [Nat.zero_add] at hlower
  exact ⟨_, ht, hlower⟩

/-- Before each stage the variable holds what the stages that sample have accumulated. -/
theorem Material.run_beforeCoord_of_lower (h : m.lower o = .ok p) (A : Arithmetic σ) (F : Frame σ)
    (k : Nat) (c : StageCoord) :
    run A (env F) (beforeCoord p k c) .coord =
      .vector (m.accumulated A F (p.indirectValue A F)
        ((m.stages.take k).filter (·.samples o))).list := by
  have hresolved := resolved_of_lower h
  obtain ⟨gens, stages, check, -, hstages, -, rfl⟩ := lower_eq_ok h
  have hlowered := forall₂_of_refuseFirst
    (q := fun s t => ∃ k, CombinerStage.lower o m k s = .ok t) (fun k _ _ h => ⟨k, h⟩) hstages
  rw [run_beforeCoord hresolved]
  exact congrArg (fun v : Vec2 σ => Value.vector v.list)
    (coord_foldl_step (List.forall₂_take k hlowered) (F.start A))

end Compile

/-- In the text of a fragment shader, a stage that samples adds to what the stages before it that
sample have accumulated, whatever other stages there are between them.  This is what all stages
before it accumulate if they are linked. -/
theorem Material.runningCoord_of_compile {o : Omissions} {m : Material} {p : Compiled}
    (h : m.compile o = .ok p) (A : Arithmetic σ) (F : Frame σ) {k : Nat} {s : CombinerStage}
    (hs : m.stages[k]? = some s) (hsamples : s.samples o) (hadd : s.indirect.addPrevious = true) :
    entryBody? .fragment p.fragmentText = some (fragmentBody p.program) ∧
    ∃ c rest, s.stageCoord m k = .ok c ∧
      fragmentBody p.program =
        beforeCoord p.program k c ++ .addAssign (.var .coord) (stageCoord k c) :: rest ∧
      run A (env F) (beforeCoord p.program k c) .coord =
        .vector (m.accumulated A F (p.program.indirectValue A F)
          ((m.stages.take k).filter (·.samples o))).list ∧
      (Linked o (m.stages.take k) →
        run A (env F) (beforeCoord p.program k c) .coord =
          .vector (m.accumulated A F (p.program.indirectValue A F) (m.stages.take k)).list) := by
  have hlower := (compile_eq_ok h).1
  obtain ⟨t, ht, hstage⟩ := exists_stage_of_lower hlower hs
  obtain ⟨c, raster, color, alpha, hc, -, -, -, rfl⟩ := CombinerStage.lower_eq_ok hstage
  obtain ⟨x, hx⟩ := Option.isSome_iff_exists.1 hsamples
  have hcoord : (s.sampled o).map (fun _ => c) = some c := by rw [hx]; rfl
  have hcadd : c.addPrevious = true :=
    (CombinerStage.value_of_stageCoord A F (p.program.indirectValue A F) hc).2.trans hadd
  obtain ⟨rest, hbody⟩ := fragmentBody_eq_addAssign ht hcoord hsamples hcadd
  have hrun := run_beforeCoord_of_lower hlower A F k c
  refine ⟨entryBody?_of_compile h, c, rest, hc, hbody, hrun, fun hlinked => ?_⟩
  rw [hrun, hlinked.accumulated_filter]

namespace Sample

/-- A material whose second stage has a coordinate of its own but no texture to sample, and whose
third stage adds to the coordinate before it. -/
def skipping : Material where
  texGens := [{ source := .tex0 }, { source := .tex1 }]
  stages := [
    CombinerStage.modulate 0 0 .colorZero,
    { CombinerStage.passThrough with coord := some 1 },
    { CombinerStage.modulate 0 1 .colorZero with indirect := { addPrevious := true } }]

/-- The material without its second stage. -/
def linked : Material :=
  { skipping with stages := skipping.stages.eraseIdx 1 }

/-- Whole numbers, with a texture that shows its coordinates and zero for every literal. -/
def whole : Arithmetic Int where
  lit _ := 0
  int n := n
  add x y := x + y
  sub x y := x - y
  mul x y := x * y
  div x y := x / y
  rem x y := x % y
  compare op x y := op = .gt && y < x
  mix x _ _ := x
  saturate x := x
  dot xs ys := (xs.zipWith (· * ·) ys).foldr (· + ·) 0
  overflow v := v
  sample _ _ point _ := ⟨point.x, point.y, 0, 0⟩
  place x := x.toNat
  call _ _ := []

/-- A fragment with a different place in each generated coordinate. -/
def apart : Frame Int where
  misc0 := ⟨0, 0, 0, 0⟩
  registers _ := ⟨0, 0, 0, 0⟩
  konst _ := ⟨0, 0, 0, 0⟩
  textureParams _ := ⟨1, 1, 0, 0⟩
  indirectMatrix _ := (⟨1, 0, 0, 0⟩, ⟨0, 1, 0, 0⟩)
  channel _ := ⟨0, 0, 0, 0⟩
  coord i := ⟨i + 3, i + 5, 1⟩

end Sample

/-- The third stage adds to the coordinate of the first, and it adds to that of the stage before it
if the second is left out. -/
theorem Material.runningCoord_skipping :
    (∃ p c rest, Sample.skipping.compile {} = .ok p ∧
      fragmentBody p.program =
        beforeCoord p.program 2 c ++ .addAssign (.var .coord) (stageCoord 2 c) :: rest ∧
      run Sample.whole (env Sample.apart) (beforeCoord p.program 2 c) .coord = .vector [3, 5]) ∧
    ∃ p c, Sample.linked.compile {} = .ok p ∧
      run Sample.whole (env Sample.apart) (beforeCoord p.program 1 c) .coord =
        .vector (Sample.linked.accumulated Sample.whole Sample.apart
          (p.program.indirectValue Sample.whole Sample.apart)
          (Sample.linked.stages.take 1)).list := by
  constructor
  · obtain ⟨p, hp⟩ : ∃ p, Sample.skipping.compile {} = .ok p := ⟨_, rfl⟩
    obtain ⟨-, c, rest, -, hbody, hrun, -⟩ :=
      Material.runningCoord_of_compile hp Sample.whole Sample.apart (k := 2) rfl rfl rfl
    exact ⟨p, c, rest, hp, hbody, hrun⟩
  · obtain ⟨p, hp⟩ : ∃ p, Sample.linked.compile {} = .ok p := ⟨_, rfl⟩
    obtain ⟨-, c, rest, -, -, -, hlinked⟩ :=
      Material.runningCoord_of_compile hp Sample.whole Sample.apart (k := 1) rfl rfl rfl
    refine ⟨p, c, hp, hlinked ⟨[], _, rfl, ?_, .inl rfl⟩⟩
    exact List.forall_mem_singleton.2 rfl

/-- The third stage does not add to the coordinate of the second, which does not sample. -/
theorem Material.runningCoord_skips : ∃ p c rest, Sample.skipping.compile {} = .ok p ∧
    fragmentBody p.program =
      beforeCoord p.program 2 c ++ .addAssign (.var .coord) (stageCoord 2 c) :: rest ∧
    run Sample.whole (env Sample.apart) (beforeCoord p.program 2 c) .coord = .vector [3, 5] ∧
    (Sample.skipping.accumulated Sample.whole Sample.apart
      (p.program.indirectValue Sample.whole Sample.apart)
      (Sample.skipping.stages.take 2)).list = [4, 6] := by
  obtain ⟨p, hp, hstage⟩ : ∃ p, Sample.skipping.compile {} = .ok p ∧
      p.program.stages[2]?.map (fun t => (t.texture, t.coord)) =
        some (some 1, some ⟨some 0, .off, .off, true, none⟩) := ⟨_, rfl, rfl⟩
  obtain ⟨t, ht, htexture⟩ := Option.map_eq_some_iff.1 hstage
  obtain ⟨hx, hc⟩ := Prod.mk.inj htexture
  obtain ⟨rest, hbody⟩ := fragmentBody_eq_addAssign ht hc (by rw [hx]; rfl) rfl
  refine ⟨p, _, rest, hp, hbody, ?_, rfl⟩
  rw [Material.run_beforeCoord_of_lower (Material.compile_eq_ok hp).1]
  rfl

end FixedFunction
