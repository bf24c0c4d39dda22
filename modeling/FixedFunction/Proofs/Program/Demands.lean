import FixedFunction.Proofs.Demand
import FixedFunction.Proofs.Program.Recording

/-!
# What a material has to meet

**Input.**  A material.

**Invariant.**  The demands of a list of parts are those of the first part, then those of the second,
and so on, each part with its number.  They do not depend on what is left out of a program.

**Results.**
* `Material.demands`: what is demanded of a material, in the order in which it is looked at.
* `Material.answers_lower`, `Material.answers_compile`: lowering and compiling a material are
  described by its demands.
-/

namespace FixedFunction

theorem answers_refuseFirst {α β : Type} {f : Nat → α → Except Error β} {d : Nat → α → List Demand}
    (h : ∀ i x, Answers (f i x) (d i x)) (l : List α) :
    ∀ k, Answers (refuseFirst f k l) (l.mapIdx fun i x => d (k + i) x).flatten := by
  induction l with
  | nil => exact fun _ => .of_ok []
  | cons x l ih =>
    intro k
    rw [List.mapIdx_cons, List.flatten_cons, refuseFirst]
    refine (h k x).bind fun y _ => ?_
    have hrest := ih (k + 1)
    simp only [Nat.add_assoc, Nat.add_comm 1] at hrest
    exact hrest.bind_ok fun l' => ⟨y :: l', rfl⟩

section Defs

/-- The number of the coordinate that a source is. -/
def TexGenSource.coordNumber? : TexGenSource → Option Nat
  | .texCoord0 => some 0
  | .texCoord1 => some 1
  | .texCoord2 => some 2
  | .texCoord3 => some 3
  | .texCoord4 => some 4
  | .texCoord5 => some 5
  | .texCoord6 => some 6
  | _ => none

/-- Whether a matrix is the identity or one of the twenty post matrices. -/
def PostMatrix.Known (m : PostMatrix) : Prop :=
  m.row = 125 ∨ ∃ j < 20, m.row.toNat = 64 + 3 * j

instance (m : PostMatrix) : Decidable m.Known :=
  inferInstanceAs (Decidable (_ ∨ _))

/-- What is demanded of generator `k`. -/
def TexGen.demands (k : Nat) (g : TexGen) : List Demand :=
  [⟨g.kind ∈ [.srtg, .mtx2x4, .mtx3x4], .unsupportedTexGen g.kind⟩,
    ⟨g.source.coordNumber?.all (· < k), .invalidValue "tex_gen_source" (Coded.raw g.source).toNat⟩,
    ⟨g.post.Known, .invalidValue "post_matrix" g.post.row.toNat⟩]

/-- What is demanded of the indirect settings of stage `k`. -/
def CombinerStage.indirectDemands (m : Material) (k : Nat) (s : CombinerStage) : List Demand :=
  [⟨s.indirect.matrix ∈ [.off, .m0, .m1, .m2], .unsupportedIndirectMatrix s.indirect.matrix⟩,
    ⟨s.indirect.matrix = .off ∨ s.indirect.format = .f8,
      .unsupportedIndirectFormat s.indirect.format⟩,
    ⟨s.indirect.matrix = .off ∨ s.indirect.stage.toNat < m.indirectStages.length,
      .missingIndirectStage k s.indirect.stage⟩]

/-- What is demanded of the rasterized color of a stage. -/
def CombinerStage.rasterDemand (s : CombinerStage) : Demand :=
  ⟨s.readsRaster = false ∨ s.channel ∈ [.color0, .color1, .color0A0, .color1A1, .colorZero],
    .unsupportedRaster s.channel⟩

/-- What is demanded of an operation. -/
def CombineOp.demand (op : CombineOp) : Demand :=
  ⟨op ∈ [.add, .sub, .compR8Gt], .unsupportedCombine op⟩

/-- What is demanded of stage `k`. -/
def CombinerStage.demands (m : Material) (k : Nat) (s : CombinerStage) : List Demand :=
  s.indirectDemands m k ++ [s.rasterDemand, s.color.op.demand, s.alpha.op.demand]

/-- What is demanded of an alpha test. -/
def AlphaTest.demand (t : AlphaTest) : Demand :=
  ⟨t.compareA ∈ [.never, .always] ∧ t.compareB ∈ [.never, .always] ∨
    t.referenceA.isFinite ∧ t.referenceB.isFinite, .nonFinite "alpha_test"⟩

/-- What is demanded of blending. -/
def Blend.demand (b : Blend) : Demand :=
  ⟨b.mode ≠ .logic, .unsupportedBlend .logic⟩

namespace Material

/-- What is demanded of a material that has a program. -/
def programDemands (m : Material) : List Demand :=
  (m.texGens.mapIdx TexGen.demands).flatten ++
    (m.stages.mapIdx (CombinerStage.demands m)).flatten ++ [m.alphaTest.demand]

/-- What is demanded of a material that compiles. -/
def demands (m : Material) : List Demand :=
  m.programDemands ++ [m.output.blend.demand]

end Material
end Defs

section TexGens

theorem TexGenKind.answers_lower (k : TexGenKind) :
    Answers k.lower [⟨k ∈ [.srtg, .mtx2x4, .mtx3x4], .unsupportedTexGen k⟩] := by
  cases k with
  | srtg | mtx2x4 | mtx3x4 => exact ⟨_, rfl⟩
  | _ => rfl

theorem TexGenSource.answers_lower (k : Nat) (s : TexGenSource) :
    Answers (s.lower k) [⟨s.coordNumber?.all (· < k),
      .invalidValue "tex_gen_source" (Coded.raw s).toNat⟩] := by
  have hearlier (i : UInt8) (e : Error) : Answers
      (if i.toNat < k then .ok (CoordSource.coord i) else .error e) [⟨i.toNat < k, e⟩] :=
    .single (fun h => ⟨_, if_pos (of_decide_eq_true h)⟩) fun h => if_neg (of_decide_eq_false h)
  cases s with
  | texCoord0 | texCoord1 | texCoord2 | texCoord3 | texCoord4 | texCoord5 | texCoord6 =>
    exact hearlier _ _
  | _ => exact ⟨_, rfl⟩

theorem PostMatrix.known_iff {m : PostMatrix} (hm : m ≠ identity) :
    m.Known ↔ ¬(m.row < firstRow ∨ (m.row - firstRow) % 3 ≠ 0 ∨
      count ≤ (m.row - firstRow) / 3) := by
  have hrow : m.row ≠ 125 := fun h => hm (congrArg PostMatrix.mk h)
  rw [Known, or_iff_right hrow]
  by_cases hlt : m.row < firstRow
  · have := UInt8.lt_iff_toNat_lt.mp hlt
    simp only [hlt, true_or, not_true, iff_false, not_exists, not_and]
    intro j _ hj
    rw [hj] at this
    exact absurd this (Nat.not_lt.mpr (Nat.le_add_right 64 _))
  · have hle : firstRow ≤ m.row := UInt8.not_lt.mp hlt
    have hge : 64 ≤ m.row.toNat := UInt8.le_iff_toNat_le.mp hle
    rw [or_iff_right hlt, UInt8.le_iff_toNat_le, Ne, ← UInt8.toNat_inj, UInt8.toNat_mod,
      UInt8.toNat_div, UInt8.toNat_sub_of_le _ _ hle]
    simp only [firstRow, count, UInt8.reduceToNat]
    constructor
    · rintro ⟨j, hj, hrow⟩
      omega
    · intro h
      exact ⟨(m.row.toNat - 64) / 3, by omega, by omega⟩

theorem PostMatrix.answers_index? (m : PostMatrix) :
    Answers m.index? [⟨m.Known, .invalidValue "post_matrix" m.row.toNat⟩] := by
  by_cases hm : m = identity
  · subst hm
    exact ⟨none, rfl⟩
  · rw [index?, if_neg hm]
    refine .single (fun h => ?_) fun h => ?_
    · have hknown := (known_iff hm).mp (of_decide_eq_true h)
      exact ⟨_, if_neg hknown⟩
    · have hknown := Decidable.not_not.mp ((known_iff hm).not.mp (of_decide_eq_false h))
      exact if_pos hknown

theorem TexGen.answers_lower (k : Nat) (g : TexGen) : Answers (g.lower k) (g.demands k) := by
  refine g.kind.answers_lower.bind fun kind _ => ?_
  refine (g.source.answers_lower k).bind fun source _ => ?_
  exact g.post.answers_index?.bind_ok fun _ => ⟨_, rfl⟩

end TexGens

section Stages

variable {m : Material} {k : Nat} {s : CombinerStage}

theorem IndirectMatrix.answers_lower (x : IndirectMatrix) :
    Answers x.lower [⟨x ∈ [.off, .m0, .m1, .m2], .unsupportedIndirectMatrix x⟩] := by
  cases x with
  | off | m0 | m1 | m2 => exact ⟨_, rfl⟩
  | _ => rfl

theorem IndirectMatrix.lower_eq_none_iff {x : IndirectMatrix} : x.lower = .ok none ↔ x = .off := by
  cases x <;> simp [lower]

theorem CombinerStage.answers_offset : Answers (s.offset m k) (s.indirectDemands m k) := by
  refine s.indirect.matrix.answers_lower.bind fun x hx => ?_
  cases x with
  | none =>
    rw [IndirectMatrix.lower_eq_none_iff.mp hx]
    exact ⟨none, rfl⟩
  | some x =>
    have hmatrix : s.indirect.matrix ≠ .off := fun hs => by simp [hs, IndirectMatrix.lower] at hx
    simp only [hmatrix, false_or]
    refine .guard (by simp) (.guard ?_ (.of_ok _))
    simp [Material.indirectStage?]

theorem CombinerStage.answers_stageCoord :
    Answers (s.stageCoord m k) (s.indirectDemands m k) :=
  answers_offset.bind_ok fun _ => ⟨_, rfl⟩

theorem RasterChannel.answers_lower (c : RasterChannel) :
    Answers c.lower [⟨c ∈ [.color0, .color1, .color0A0, .color1A1, .colorZero],
      .unsupportedRaster c⟩] := by
  cases c with
  | color0 | color1 | color0A0 | color1A1 | colorZero => exact ⟨_, rfl⟩
  | _ => rfl

theorem CombinerStage.answers_raster : Answers s.raster [s.rasterDemand] := by
  unfold raster rasterDemand
  cases s.readsRaster with
  | false => exact ⟨none, rfl⟩
  | true =>
    simpa using s.channel.answers_lower.map

theorem CombineOp.answers_lower (op : CombineOp) : Answers op.lower [op.demand] := by
  cases op with
  | add | sub | compR8Gt => exact ⟨_, rfl⟩
  | _ => rfl

theorem CombinerHalf.answers_lower {ι : Type} (operand : ι → Operand) (h : CombinerHalf ι) :
    Answers (h.lower operand) [h.op.demand] :=
  h.op.answers_lower.bind_ok fun _ => ⟨_, rfl⟩

theorem CombinerStage.answers_lower (o : Omissions) :
    Answers (s.lower o m k) (s.demands m k) := by
  refine answers_stageCoord.bind fun coord _ => ?_
  refine answers_raster.bind fun raster _ => ?_
  refine (s.color.answers_lower _).bind fun color _ => ?_
  exact (s.alpha.answers_lower _).bind_ok fun _ => ⟨_, rfl⟩

end Stages

section Output

theorem Comparison.constant?_eq_none_iff {c : Comparison} :
    c.constant? = none ↔ c ∉ [.never, .always] := by
  cases c <;> simp [constant?]

theorem AlphaTest.constant?_eq_none_iff {t : AlphaTest} :
    t.constant? = none ↔ ¬(t.compareA ∈ [.never, .always] ∧ t.compareB ∈ [.never, .always]) := by
  rw [Decidable.not_and_iff_not_or_not, ← Comparison.constant?_eq_none_iff,
    ← Comparison.constant?_eq_none_iff, constant?]
  cases t.compareA.constant? <;> cases t.compareB.constant? <;> simp

theorem AlphaTest.answers_lower (t : AlphaTest) : Answers t.lower [t.demand] := by
  have hnone := t.constant?_eq_none_iff
  unfold lower demand
  cases ht : t.constant? with
  | some b =>
    have hconstant := Decidable.not_not.mp (hnone.not.mp (by simp [ht]))
    rw [decide_eq_true (.inl hconstant)]
    cases b <;> exact ⟨_, rfl⟩
  | none =>
    simp only [or_iff_right (hnone.mp ht)]
    refine .single (fun h => ⟨_, if_pos ?_⟩) fun h => if_neg ?_
    · simpa using h
    · simpa using h

theorem Blend.answers_state (b : Blend) : Answers b.state [b.demand] := by
  unfold state demand
  cases b.mode with
  | logic => rfl
  | _ => exact ⟨_, rfl⟩

end Output

namespace Material

/-- Lowering a material is described by its demands, whatever is left out of the program. -/
theorem answers_lower (o : Omissions) (m : Material) : Answers (m.lower o) m.programDemands := by
  have hgens := answers_refuseFirst TexGen.answers_lower m.texGens 0
  have hstages := answers_refuseFirst (fun k s => s.answers_lower (m := m) (k := k) o) m.stages 0
  simp only [Nat.zero_add] at hgens hstages
  rw [programDemands, List.append_assoc]
  refine hgens.bind fun gens _ => hstages.bind fun stages _ => ?_
  exact m.alphaTest.answers_lower.bind_ok fun _ => ⟨_, rfl⟩

theorem answers_rasterState (m : Material) : Answers m.rasterState [m.output.blend.demand] :=
  m.output.blend.answers_state.bind_ok fun _ => ⟨_, rfl⟩

/-- Compiling a material is described by its demands. -/
theorem answers_compile (o : Omissions) (m : Material) : Answers (m.compile o) m.demands := by
  refine (m.answers_lower o).bind fun program _ => ?_
  exact m.answers_rasterState.bind_ok fun _ => ⟨_, rfl⟩

end Material
end FixedFunction
