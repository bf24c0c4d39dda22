import FixedFunction.Coded

/-!
# Fields of the color combiner

Each combiner stage mixes four inputs for the color and four for the alpha, and writes one of
four registers.
-/

namespace FixedFunction

/-- An input of the color half of a stage. -/
inductive ColorInput where
  | cPrev | aPrev | c0 | a0 | c1 | a1 | c2 | a2 | texC | texA | rasC | rasA | one | half
  | konst | zero
deriving DecidableEq

instance : Coded ColorInput where
  codes :=
    [⟨.cPrev, "CPrev", 0⟩, ⟨.aPrev, "APrev", 1⟩, ⟨.c0, "C0", 2⟩, ⟨.a0, "A0", 3⟩, ⟨.c1, "C1", 4⟩,
      ⟨.a1, "A1", 5⟩, ⟨.c2, "C2", 6⟩, ⟨.a2, "A2", 7⟩, ⟨.texC, "TexC", 8⟩, ⟨.texA, "TexA", 9⟩,
      ⟨.rasC, "RasC", 10⟩, ⟨.rasA, "RasA", 11⟩, ⟨.one, "One", 12⟩, ⟨.half, "Half", 13⟩,
      ⟨.konst, "Konst", 14⟩, ⟨.zero, "Zero", 15⟩]
  complete a := by cases a <;> decide
  values_nodup := by decide
  names_nodup := by decide
  raws_nodup := by decide

instance : Inhabited ColorInput := ⟨.zero⟩

/-- An input of the alpha half of a stage. -/
inductive AlphaInput where
  | aPrev | a0 | a1 | a2 | texA | rasA | konst | zero
deriving DecidableEq

instance : Coded AlphaInput where
  codes :=
    [⟨.aPrev, "APrev", 0⟩, ⟨.a0, "A0", 1⟩, ⟨.a1, "A1", 2⟩, ⟨.a2, "A2", 3⟩, ⟨.texA, "TexA", 4⟩,
      ⟨.rasA, "RasA", 5⟩, ⟨.konst, "Konst", 6⟩, ⟨.zero, "Zero", 7⟩]
  complete a := by cases a <;> decide
  values_nodup := by decide
  names_nodup := by decide
  raws_nodup := by decide

instance : Inhabited AlphaInput := ⟨.zero⟩

/-- The operation of one half of a stage. -/
inductive CombineOp where
  | add | sub | compR8Gt | compR8Eq | compGr16Gt | compGr16Eq | compBgr24Gt | compBgr24Eq
  | compRgb8Gt | compRgb8Eq
deriving DecidableEq

instance : Coded CombineOp where
  codes :=
    [⟨.add, "Add", 0⟩, ⟨.sub, "Sub", 1⟩, ⟨.compR8Gt, "CompR8Gt", 8⟩, ⟨.compR8Eq, "CompR8Eq", 9⟩,
      ⟨.compGr16Gt, "CompGr16Gt", 10⟩, ⟨.compGr16Eq, "CompGr16Eq", 11⟩,
      ⟨.compBgr24Gt, "CompBgr24Gt", 12⟩, ⟨.compBgr24Eq, "CompBgr24Eq", 13⟩,
      ⟨.compRgb8Gt, "CompRgb8Gt", 14⟩, ⟨.compRgb8Eq, "CompRgb8Eq", 15⟩]
  complete a := by cases a <;> decide
  values_nodup := by decide
  names_nodup := by decide
  raws_nodup := by decide

instance : Inhabited CombineOp := ⟨.add⟩

/-- A constant added to the sum of a half. -/
inductive CombineBias where
  | zero | addHalf | subHalf
deriving DecidableEq

instance : Coded CombineBias where
  codes :=
    [⟨.zero, "Zero", 0⟩, ⟨.addHalf, "AddHalf", 1⟩, ⟨.subHalf, "SubHalf", 2⟩]
  complete a := by cases a <;> decide
  values_nodup := by decide
  names_nodup := by decide
  raws_nodup := by decide

instance : Inhabited CombineBias := ⟨.zero⟩

/-- The constant of a bias. -/
def CombineBias.value : CombineBias → Float32
  | .zero => 0.0
  | .addHalf => 0.5
  | .subHalf => -0.5

/-- A factor of the biased sum of a half. -/
inductive CombineScale where
  | scale1 | scale2 | scale4 | divide2
deriving DecidableEq

instance : Coded CombineScale where
  codes :=
    [⟨.scale1, "Scale1", 0⟩, ⟨.scale2, "Scale2", 1⟩, ⟨.scale4, "Scale4", 2⟩,
      ⟨.divide2, "Divide2", 3⟩]
  complete a := by cases a <;> decide
  values_nodup := by decide
  names_nodup := by decide
  raws_nodup := by decide

instance : Inhabited CombineScale := ⟨.scale1⟩

/-- The factor of a scale. -/
def CombineScale.value : CombineScale → Float32
  | .scale1 => 1.0
  | .scale2 => 2.0
  | .scale4 => 4.0
  | .divide2 => 0.5

/-- A register that stages read and write. -/
inductive Register where
  | prev | reg0 | reg1 | reg2
deriving DecidableEq

instance : Coded Register where
  codes :=
    [⟨.prev, "Prev", 0⟩, ⟨.reg0, "Reg0", 1⟩, ⟨.reg1, "Reg1", 2⟩, ⟨.reg2, "Reg2", 3⟩]
  complete a := by cases a <;> decide
  values_nodup := by decide
  names_nodup := by decide
  raws_nodup := by decide

instance : Inhabited Register := ⟨.prev⟩

/-- The rasterized color that a stage reads. -/
inductive RasterChannel where
  | color0 | color1 | alpha0 | alpha1 | color0A0 | color1A1 | colorZero | alphaBump
  | alphaBumpN | colorNull
deriving DecidableEq

instance : Coded RasterChannel where
  codes :=
    [⟨.color0, "Color0", 0⟩, ⟨.color1, "Color1", 1⟩, ⟨.alpha0, "Alpha0", 2⟩,
      ⟨.alpha1, "Alpha1", 3⟩, ⟨.color0A0, "Color0A0", 4⟩, ⟨.color1A1, "Color1A1", 5⟩,
      ⟨.colorZero, "ColorZero", 6⟩, ⟨.alphaBump, "AlphaBump", 7⟩, ⟨.alphaBumpN, "AlphaBumpN", 8⟩,
      ⟨.colorNull, "ColorNull", 255⟩]
  complete a := by cases a <;> decide
  values_nodup := by decide
  names_nodup := by decide
  raws_nodup := by decide

instance : Inhabited RasterChannel := ⟨.colorNull⟩

/-- The constant that the color half of a stage reads. -/
inductive KonstColor where
  | const1 | const7_8 | const3_4 | const5_8 | const1_2 | const3_8 | const1_4 | const1_8 | k0
  | k1 | k2 | k3 | k0R | k1R | k2R | k3R | k0G | k1G | k2G | k3G | k0B | k1B | k2B | k3B | k0A
  | k1A | k2A | k3A
deriving DecidableEq

instance : Coded KonstColor where
  codes :=
    [⟨.const1, "Const1", 0⟩, ⟨.const7_8, "Const7_8", 1⟩, ⟨.const3_4, "Const3_4", 2⟩,
      ⟨.const5_8, "Const5_8", 3⟩, ⟨.const1_2, "Const1_2", 4⟩, ⟨.const3_8, "Const3_8", 5⟩,
      ⟨.const1_4, "Const1_4", 6⟩, ⟨.const1_8, "Const1_8", 7⟩, ⟨.k0, "K0", 12⟩, ⟨.k1, "K1", 13⟩,
      ⟨.k2, "K2", 14⟩, ⟨.k3, "K3", 15⟩, ⟨.k0R, "K0R", 16⟩, ⟨.k1R, "K1R", 17⟩, ⟨.k2R, "K2R", 18⟩,
      ⟨.k3R, "K3R", 19⟩, ⟨.k0G, "K0G", 20⟩, ⟨.k1G, "K1G", 21⟩, ⟨.k2G, "K2G", 22⟩,
      ⟨.k3G, "K3G", 23⟩, ⟨.k0B, "K0B", 24⟩, ⟨.k1B, "K1B", 25⟩, ⟨.k2B, "K2B", 26⟩,
      ⟨.k3B, "K3B", 27⟩, ⟨.k0A, "K0A", 28⟩, ⟨.k1A, "K1A", 29⟩, ⟨.k2A, "K2A", 30⟩,
      ⟨.k3A, "K3A", 31⟩]
  complete a := by cases a <;> decide
  values_nodup := by decide
  names_nodup := by decide
  raws_nodup := by decide

instance : Inhabited KonstColor := ⟨.const1⟩

/-- The constant that the alpha half of a stage reads. -/
inductive KonstAlpha where
  | const1 | const7_8 | const3_4 | const5_8 | const1_2 | const3_8 | const1_4 | const1_8 | k0R
  | k1R | k2R | k3R | k0G | k1G | k2G | k3G | k0B | k1B | k2B | k3B | k0A | k1A | k2A | k3A
deriving DecidableEq

instance : Coded KonstAlpha where
  codes :=
    [⟨.const1, "Const1", 0⟩, ⟨.const7_8, "Const7_8", 1⟩, ⟨.const3_4, "Const3_4", 2⟩,
      ⟨.const5_8, "Const5_8", 3⟩, ⟨.const1_2, "Const1_2", 4⟩, ⟨.const3_8, "Const3_8", 5⟩,
      ⟨.const1_4, "Const1_4", 6⟩, ⟨.const1_8, "Const1_8", 7⟩, ⟨.k0R, "K0R", 16⟩,
      ⟨.k1R, "K1R", 17⟩, ⟨.k2R, "K2R", 18⟩, ⟨.k3R, "K3R", 19⟩, ⟨.k0G, "K0G", 20⟩,
      ⟨.k1G, "K1G", 21⟩, ⟨.k2G, "K2G", 22⟩, ⟨.k3G, "K3G", 23⟩, ⟨.k0B, "K0B", 24⟩,
      ⟨.k1B, "K1B", 25⟩, ⟨.k2B, "K2B", 26⟩, ⟨.k3B, "K3B", 27⟩, ⟨.k0A, "K0A", 28⟩,
      ⟨.k1A, "K1A", 29⟩, ⟨.k2A, "K2A", 30⟩, ⟨.k3A, "K3A", 31⟩]
  complete a := by cases a <;> decide
  values_nodup := by decide
  names_nodup := by decide
  raws_nodup := by decide

instance : Inhabited KonstAlpha := ⟨.const1⟩

end FixedFunction
