import FixedFunction.Program.Basic
import FixedFunction.Proofs.Shader.Evaluation

/-!
# What combiner stages compute

The combiner as a machine of four registers and a running coordinate, for any arithmetic.  Nothing
here looks at a shader.

**Results.**
* `Stage.step`: what a stage does to the machine.
* `Program.combine`: the machine after all stages of a program.
-/

namespace FixedFunction

open Shader

variable {σ : Type}

/-- What a fragment reads from outside. -/
structure Frame (σ : Type) where
  /-- The first component is added to the level of every sample. -/
  misc0 : Vec4 σ
  /-- What the registers hold at first. -/
  registers : Nat → Vec4 σ
  konst : Nat → Vec4 σ
  /-- Sizes and level biases of the textures. -/
  textureParams : Nat → Vec4 σ
  /-- The two rows of each indirect matrix. -/
  indirectMatrix : Nat → Vec4 σ × Vec4 σ
  channel : Nat → Vec4 σ
  coord : Nat → Vec3 σ

/-- The components that a color half reads. -/
def Swizzle.color (v : Vec4 σ) : Swizzle → Vec3 σ
  | rgb => ⟨v.r, v.g, v.b⟩
  | r => ⟨v.r, v.r, v.r⟩
  | g => ⟨v.g, v.g, v.g⟩
  | b => ⟨v.b, v.b, v.b⟩
  | a => ⟨v.a, v.a, v.a⟩

/-- The component that an alpha half reads. -/
def Swizzle.alpha (v : Vec4 σ) : Swizzle → σ
  | r => v.r
  | g => v.g
  | b => v.b
  | rgb | a => v.a

/-- What the operands of a stage read. -/
structure StageReads (σ : Type) where
  registers : Register → Vec4 σ
  texture : Vec4 σ
  /-- The rasterized color, brought into [0, 1]. -/
  raster : Vec4 σ
  konst : Nat → Vec4 σ

section Arithmetic

variable (A : Arithmetic σ)

namespace Operand

def color (x : StageReads σ) : Operand → Vec3 σ
  | register r s => s.color (x.registers r)
  | texture s => s.color x.texture
  | rasterized s => s.color x.raster
  | konst k s => s.color (x.konst k.toNat)
  | constant c => ⟨A.lit c, A.lit c, A.lit c⟩

def alpha (x : StageReads σ) : Operand → σ
  | register r s => s.alpha (x.registers r)
  | texture s => s.alpha x.texture
  | rasterized s => s.alpha x.raster
  | konst k s => s.alpha (x.konst k.toNat)
  | constant c => A.lit c

end Operand

namespace Half

/-- A sum with the bias and the scale of a half.  A bias of zero is not added, and a scale of one
is not multiplied with. -/
def adjust (h : Half) (x : σ) : σ :=
  let biased := if h.bias == 0 then x else A.add x (A.lit h.bias)
  if h.scale == 1 then biased else A.mul biased (A.lit h.scale)

/-- A value brought into [0, 1] if a half does so. -/
def limit (h : Half) (x : σ) : σ :=
  if h.clamp then A.saturate x else x

/-- One component of a half, where it is known whether red of the first input is greater than red
of the second. -/
def component (h : Half) (greater : Bool) (a b c d : σ) : σ :=
  h.limit A <|
    match h.op with
    | .add => h.adjust A (A.add (A.mix a b c) d)
    | .sub => h.adjust A (A.sub (A.mix a b c) d)
    | .greater => if greater then c else A.lit 0

end Half

/-- The four inputs of a stage. -/
structure StageInputs (σ : Type) where
  /-- Mixed first. -/
  a : Vec4 σ
  /-- Mixed second. -/
  b : Vec4 σ
  /-- The share of the second. -/
  c : Vec4 σ
  /-- Added to the mix. -/
  d : Vec4 σ

namespace StageInputs

def get (i : StageInputs σ) : StageInput → Vec4 σ
  | .a => i.a
  | .b => i.b
  | .c => i.c
  | .d => i.d

/-- Whether red of the first input is greater than red of the second. -/
def greater (i : StageInputs σ) : Bool :=
  A.compare .gt i.a.r i.b.r

/-- The value of the color half of a stage. -/
def color (i : StageInputs σ) (h : Half) : Vec3 σ where
  r := h.component A (i.greater A) i.a.r i.b.r i.c.r i.d.r
  g := h.component A (i.greater A) i.a.g i.b.g i.c.g i.d.g
  b := h.component A (i.greater A) i.a.b i.b.b i.c.b i.d.b

/-- The value of the alpha half of a stage. -/
def alpha (i : StageInputs σ) (h : Half) : σ :=
  h.component A (i.greater A) i.a.a i.b.a i.c.a i.d.a

end StageInputs

def Shader.Vec2.add (u v : Vec2 σ) : Vec2 σ :=
  ⟨A.add u.x v.x, A.add u.y v.y⟩

/-- One axis of a coordinate, wrapped. -/
def Wrap.apply (x : σ) : Wrap → σ
  | off => x
  | zero => A.lit 0
  | modulo m => A.rem x (A.lit m.toUInt32.toFloat32)

variable (F : Frame σ)

namespace Frame

/-- A generated coordinate on the plane, or the origin. -/
def plane : Option UInt8 → Vec2 σ
  | some i => ⟨A.div (F.coord i.toNat).r (F.coord i.toNat).b,
      A.div (F.coord i.toNat).g (F.coord i.toNat).b⟩
  | none => ⟨A.lit 0, A.lit 0⟩

def sample (t : UInt8) (point : Vec2 σ) : Vec4 σ :=
  A.sample t t point (A.add F.misc0.r (F.textureParams t.toNat).a)

/-- The rasterized color of a stage, brought into [0, 1]. -/
def raster : Option RasterSource → Vec4 σ
  | some (.channel i) =>
    let v := F.channel i.toNat
    ⟨A.saturate v.r, A.saturate v.g, A.saturate v.b, A.saturate v.a⟩
  | _ => ⟨A.saturate (A.lit 0), A.saturate (A.lit 0), A.saturate (A.lit 0), A.saturate (A.lit 0)⟩

end Frame

def IndirectSample.value (s : IndirectSample) : Vec3 σ :=
  match s.texture with
  | some t =>
    let point := F.plane A s.coord
    let v := F.sample A t ⟨A.mul point.x (A.lit (1 / s.scaleS.toUInt32.toFloat32)),
      A.mul point.y (A.lit (1 / s.scaleT.toUInt32.toFloat32))⟩
    ⟨A.mul (A.lit 255) v.a, A.mul (A.lit 255) v.b, A.mul (A.lit 255) v.g⟩
  | none => ⟨A.lit 255, A.lit 255, A.lit 255⟩

variable (indirect : Nat → Vec3 σ)

/-- An indirect offset: a matrix applied to a biased sample, divided by the size of a texture. -/
def IndirectOffset.value (o : IndirectOffset) : Vec2 σ :=
  let v := indirect o.stage.toNat
  let u := [A.add v.r (A.lit o.biasS), A.add v.g (A.lit o.biasT), A.add v.b (A.lit o.biasU),
    A.lit 0]
  let m := F.indirectMatrix o.matrix.toNat
  let e : Vec2 σ := ⟨A.dot m.1.list u, A.dot m.2.list u⟩
  match o.texture with
  | some t =>
    let size := F.textureParams t.toNat
    ⟨A.mul e.x (A.div (A.lit 1) size.r), A.mul e.y (A.div (A.lit 1) size.g)⟩
  | none => e

/-- The coordinate that is configured for a stage. -/
def StageCoord.value (c : StageCoord) : Vec2 σ :=
  let plane := F.plane A c.coord
  let base : Vec2 σ := ⟨c.wrapS.apply A plane.x, c.wrapT.apply A plane.y⟩
  match c.indirect with
  | some o => base.add A (o.value A F indirect)
  | none => base

/-- The coordinate of a stage, given that of the stage before. -/
def StageCoord.move (c : StageCoord) (before : Vec2 σ) : Vec2 σ :=
  if c.addPrevious then before.add A (c.value A F indirect) else c.value A F indirect

/-- The machine: four registers and the running coordinate. -/
structure Machine (σ : Type) where
  registers : Register → Vec4 σ
  coord : Vec2 σ

namespace Stage

/-- The coordinate at which a stage samples.  A stage without a texture leaves it where it is. -/
def move (s : Stage) (coord : Vec2 σ) : Vec2 σ :=
  match s.texture, s.coord with
  | some _, some c => c.move A F indirect coord
  | _, _ => coord

def reads (s : Stage) (m : Machine σ) : StageReads σ where
  registers := m.registers
  texture :=
    match s.texture with
    | some t => F.sample A t (s.move A F indirect m.coord)
    | none => ⟨A.lit 1, A.lit 1, A.lit 1, A.lit 1⟩
  raster := F.raster A s.raster
  konst := F.konst

/-- An input of a stage: a color operand with an alpha operand. -/
def input (x : StageReads σ) (color alpha : Operand) : Vec4 σ :=
  ⟨(color.color A x).r, (color.color A x).g, (color.color A x).b, alpha.alpha A x⟩

/-- The inputs of a stage.  All but the last wrap around. -/
def inputs (s : Stage) (x : StageReads σ) : StageInputs σ where
  a := A.overflow (input A x s.color.a s.alpha.a)
  b := A.overflow (input A x s.color.b s.alpha.b)
  c := A.overflow (input A x s.color.c s.alpha.c)
  d := input A x s.color.d s.alpha.d

/-- What a stage does: the color half sets red, green and blue of its register and the alpha half
alpha of its register, both from what the registers held before. -/
def step (s : Stage) (m : Machine σ) : Machine σ where
  registers r :=
    let inputs := s.inputs A (s.reads A F indirect m)
    let old := m.registers r
    let color := if r = s.color.dest then inputs.color A s.color else ⟨old.r, old.g, old.b⟩
    let alpha := if r = s.alpha.dest then inputs.alpha A s.alpha else old.a
    ⟨color.r, color.g, color.b, alpha⟩
  coord := s.move A F indirect m.coord

/-- A stage writes two registers, which may be one. -/
theorem step_eq (s : Stage) (m : Machine σ) :
    let inputs := s.inputs A (s.reads A F indirect m)
    let color := inputs.color A s.color
    let registers := Function.update m.registers s.color.dest
      ⟨color.r, color.g, color.b, (m.registers s.color.dest).a⟩
    let old := registers s.alpha.dest
    s.step A F indirect m = {
      registers := Function.update registers s.alpha.dest
        ⟨old.r, old.g, old.b, inputs.alpha A s.alpha⟩
      coord := s.move A F indirect m.coord } := by
  refine congrArg (Machine.mk · _) (funext fun r => ?_)
  simp only [Function.update_apply]
  by_cases hcolor : r = s.color.dest <;> by_cases halpha : r = s.alpha.dest
  · have hdest : s.alpha.dest = s.color.dest := halpha.symm.trans hcolor
    simp only [hcolor, hdest, if_true]
  · have hdest : s.color.dest ≠ s.alpha.dest := fun h => halpha (hcolor.trans h)
    simp only [hcolor, if_true, if_neg hdest]
  · have hdest : s.alpha.dest ≠ s.color.dest := fun h => hcolor (halpha.trans h)
    simp only [halpha, if_true, if_neg hdest]
  · simp only [if_neg hcolor, if_neg halpha]

end Stage

/-- The place of a register among those that a frame gives. -/
def Register.place : Register → Nat
  | prev => 0
  | reg0 => 1
  | reg1 => 2
  | reg2 => 3

namespace Frame

/-- The machine before the first stage. -/
def start : Machine σ where
  registers r := F.registers r.place
  coord := ⟨A.lit 0, A.lit 0⟩

end Frame

namespace Program

/-- The value of an indirect sample of a program. -/
def indirectValue (p : Program) (i : Nat) : Vec3 σ :=
  match p.indirectSamples[i]? with
  | some s => s.value A F
  | none => ⟨A.lit 0, A.lit 0, A.lit 0⟩

/-- The machine after all stages of a program. -/
def combine (p : Program) : Machine σ :=
  p.stages.foldl (fun m s => s.step A F (p.indirectValue A F) m) (F.start A)

end Program
end Arithmetic
end FixedFunction
