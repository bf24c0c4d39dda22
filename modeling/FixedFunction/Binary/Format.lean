/-!
# Binary floating point formats

A format stores a sign and a magnitude.  The magnitudes of the finite numbers, read as natural
numbers, are in the order of their values, and the one after the largest stands for infinity.

**Algorithm.**  `nearest` divides exactly, in natural numbers, at the last place that the format
has for a quotient of that size.  Everything that rounds in this library goes through it.

**Results.**
* `Format.nearest`: the magnitude nearest to a quotient, ties to even.
* `widen`, `narrow`: conversions between the two formats in use.
* `ofInteger`, `ofDecimal`: the numbers nearest to an integer and to a decimal fraction.
-/

namespace FixedFunction
namespace Binary

/-- A binary format with a hidden leading bit and gradual underflow. -/
structure Format where
  /-- Significant bits, the hidden one included. -/
  precision : Nat
  /-- Bits of the biased exponent. -/
  exponentBits : Nat
  /-- Exponent of the last place of the smallest numbers. -/
  least : Int

namespace Format

/-- The format of 32 bits. -/
def single : Format := ⟨24, 8, -149⟩

/-- The format of 64 bits. -/
def double : Format := ⟨53, 11, -1074⟩

/-- The weight of the lowest exponent bit. -/
def unit (f : Format) : Nat :=
  1 <<< (f.precision - 1)

/-- The magnitude of infinity. -/
def infinity (f : Format) : Nat :=
  (1 <<< f.exponentBits - 1) * f.unit

/-- The magnitude that stands for no number. -/
def quiet (f : Format) : Nat :=
  f.infinity + f.unit / 2

/-- The weight of the sign. -/
def signWeight (f : Format) : Nat :=
  f.unit <<< f.exponentBits

/-- Whether a pattern has the sign of the negative numbers. -/
def isNegative (f : Format) (bits : Nat) : Bool :=
  f.signWeight ≤ bits

/-- The pattern without its sign. -/
def magnitude (f : Format) (bits : Nat) : Nat :=
  bits % f.signWeight

/-- The pattern of a signed magnitude. -/
def signed (f : Format) (negative : Bool) (magnitude : Nat) : Nat :=
  if negative then f.signWeight + magnitude else magnitude

/-- Significand and exponent of a finite magnitude: its value is `m * 2 ^ e`. -/
def parts (f : Format) (magnitude : Nat) : Nat × Int :=
  let biased := magnitude / f.unit
  let fraction := magnitude % f.unit
  if biased = 0 then (fraction, f.least) else (f.unit + fraction, f.least + biased - 1)

end Format

/-- `m * 2 ^ e` as a quotient of natural numbers. -/
def scale (m : Nat) (e : Int) : Nat × Nat :=
  (m <<< e.toNat, 1 <<< (-e).toNat)

/-- The integer nearest to a quotient, ties to even. -/
def roundQuotient (num den : Nat) : Nat :=
  let q := num / den
  let r := num % den
  if 2 * r < den then q
  else if den < 2 * r then q + 1
  else q + q % 2

/-- The exponent of the highest power of two that is not above a positive quotient. -/
def log2Quotient (num den : Nat) : Int :=
  let l : Int := (num.log2 : Int) - den.log2
  if num <<< (-l).toNat < den <<< l.toNat then l - 1 else l

/-- The power of ten with the given exponent. -/
def tenTo (k : Nat) : Nat :=
  Nat.pow 10 k

namespace Format

/-- The magnitude nearest to a quotient, ties to even.  A quotient that rounds beyond the largest
number becomes infinity. -/
def nearest (f : Format) (num den : Nat) : Nat :=
  if num = 0 then 0
  else
    let e := max f.least (log2Quotient num den - (f.precision - 1 : Nat))
    let m := roundQuotient (num <<< (-e).toNat) (den <<< e.toNat)
    min ((e - f.least).toNat * f.unit + m) f.infinity

/-- The pattern in format `g` that is nearest to a pattern in format `f`. -/
def convert (f g : Format) (bits : Nat) : Nat :=
  let magnitude := f.magnitude bits
  if f.infinity < magnitude then g.quiet
  else
    g.signed (f.isNegative bits)
      (if magnitude = f.infinity then g.infinity
      else
        let (m, e) := f.parts magnitude
        let (num, den) := scale m e
        g.nearest num den)

/-- The pattern nearest to an integer. -/
def ofInteger (f : Format) (n : Int) : Nat :=
  f.signed (n < 0) (f.nearest n.natAbs 1)

/-- The decimal exponents beyond which every format in use overflows or underflows. -/
def decimalLimit : Int := 400

/-- The pattern nearest to `digits * 10 ^ exponent`, with a sign of its own so that zero can be
negative. -/
def ofDecimal (f : Format) (negative : Bool) (digits : Nat) (exponent : Int) : Nat :=
  let size : Int := exponent + (Nat.toDigits 10 digits).length
  f.signed negative
    (if digits = 0 ∨ size < -decimalLimit then 0
    else if decimalLimit < size then f.infinity
    else f.nearest (digits * tenTo exponent.toNat) (tenTo (-exponent).toNat))

end Format

/-- A number of 32 bits as a number of 64 bits.  No value is changed. -/
def widen (x : Float32) : Float :=
  .ofBits (Format.convert .single .double x.toBits.toNat).toUInt64

/-- The number of 32 bits nearest to a number of 64 bits. -/
def narrow (x : Float) : Float32 :=
  .ofBits (Format.convert .double .single x.toBits.toNat).toUInt32

/-- The number of 32 bits nearest to an integer. -/
def ofInteger (n : Int) : Float32 :=
  .ofBits (Format.single.ofInteger n).toUInt32

/-- The number of 64 bits nearest to a decimal fraction. -/
def ofDecimal (negative : Bool) (digits : Nat) (exponent : Int) : Float :=
  .ofBits (Format.double.ofDecimal negative digits exponent).toUInt64

end Binary
end FixedFunction
