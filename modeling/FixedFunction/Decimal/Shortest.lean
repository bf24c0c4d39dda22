import FixedFunction.Binary.Format

/-!
# Shortest decimals

**Input.**  A finite positive magnitude of a binary format.

**Algorithm.**  The real numbers that round to a magnitude form an interval, whose ends belong to
it when the significand is even.  For one digit, two digits, and so on, the two decimals next to
the value are tested against the interval.  The first count of digits with a hit is taken, and of
two hits the nearer one; a tie goes up.

**Results.**
* `shortest`: the digits and the decimal exponent.
* `literal`: a number as a literal of a shading language.
-/

namespace FixedFunction
namespace Decimal

open Binary (Format scale tenTo)

/-- The decimal `digits * 10 ^ exponent`. -/
structure Digits where
  /-- The digits as a natural number. -/
  digits : Nat
  /-- Exponent of the last digit. -/
  exponent : Int
deriving DecidableEq

/-- A quotient of natural numbers. -/
abbrev Quotient := Nat × Nat

/-- `x < y` for quotients. -/
def below (x y : Quotient) : Bool :=
  x.1 * y.2 < y.1 * x.2

/-- `d * 10 ^ k` as a quotient. -/
def power (d : Nat) (k : Int) : Quotient :=
  (d * tenTo k.toNat, tenTo (-k).toNat)

/-- The reals that round to a magnitude. -/
structure Interval where
  /-- The lower end. -/
  lower : Quotient
  /-- The upper end. -/
  upper : Quotient
  /-- Whether the ends belong to the interval. -/
  closed : Bool

namespace Interval

/-- The interval of a finite magnitude.  Its ends lie halfway to the neighbors, and below a power
of two the neighbor is nearer by half. -/
def ofMagnitude (f : Format) (magnitude : Nat) : Interval :=
  let (m, e) := f.parts magnitude
  let gap := if m = f.unit ∧ f.least < e then 1 else 2
  ⟨scale (4 * m - gap) (e - 2), scale (4 * m + 2) (e - 2), m % 2 = 0⟩

/-- Whether a quotient belongs to an interval. -/
def contains (i : Interval) (x : Quotient) : Bool :=
  if i.closed then !below x i.lower && !below i.upper x
  else below i.lower x && below x i.upper

end Interval

/-- The least `k ≤ start + fuel` from `start` on with `1 ≤ x * 10 ^ k`. -/
def lift (x : Quotient) : Nat → Nat → Nat
  | 0, k => k
  | fuel + 1, k => if x.2 ≤ x.1 * tenTo k then k else lift x fuel (k + 1)

/-- The exponent of the highest power of ten that is not above a positive quotient. -/
def log10 (x : Quotient) : Int :=
  if x.2 ≤ x.1 then ((Nat.toDigits 10 (x.1 / x.2)).length : Int) - 1
  else -(lift x 400 1 : Int)

/-- The decimal with last exponent `k` that lies in the interval and is nearest to `x`. -/
def candidate (i : Interval) (x : Quotient) (k : Int) : Option Digits :=
  let d := x.1 * tenTo (-k).toNat / (x.2 * tenTo k.toNat)
  let low := i.contains (power d k)
  let high := i.contains (power (d + 1) k)
  -- the value is nearer to the lower decimal when it lies below the middle of the two
  let lowNearer := below (2 * x.1, x.2) (power (2 * d + 1) k)
  if low && (!high || lowNearer) then some ⟨d, k⟩
  else if high then some ⟨d + 1, k⟩
  else none

/-- Removes zeros at the end. -/
def strip : Nat → Digits → Digits
  | 0, d => d
  | fuel + 1, ⟨n, k⟩ => if n ≠ 0 ∧ n % 10 = 0 then strip fuel ⟨n / 10, k + 1⟩ else ⟨n, k⟩

/-- The shortest decimal that rounds to a finite positive magnitude.  Seventeen digits suffice for
all formats in use. -/
def shortest (f : Format) (magnitude : Nat) : Digits :=
  let (m, e) := f.parts magnitude
  let x := scale m e
  let i := Interval.ofMagnitude f magnitude
  let top := log10 x
  let found := (List.range 17).findSome? fun (n : Nat) => candidate i x (top - n)
  strip 20 (found.getD ⟨0, 0⟩)

/-- The exponents of the first digit for which a number is written without an exponent. -/
def positional (e : Int) : Bool :=
  -5 < e && e < 16

/-- A decimal as text.  Without an exponent there is a digit on both sides of the point; with an
exponent there is no point behind a single digit. -/
def Digits.text (d : Digits) : String :=
  let ds := Nat.toDigits 10 d.digits
  let e : Int := d.exponent + ds.length - 1
  let zeros (n : Int) := List.replicate n.toNat '0'
  String.ofList <|
    if !positional e then
      let tail := ds.tail
      ds.take 1 ++ (if tail.isEmpty then [] else '.' :: tail) ++ 'e' :: (toString e).toList
    else if e < 0 then '0' :: '.' :: zeros (-e - 1) ++ ds
    else
      let whole := e.toNat + 1
      if ds.length ≤ whole then ds ++ zeros d.exponent ++ ['.', '0']
      else ds.take whole ++ '.' :: ds.drop whole

/-- A pattern of a format as text. -/
def text (f : Format) (bits : Nat) : String :=
  let magnitude := f.magnitude bits
  if f.infinity < magnitude then "NaN"
  else
    let sign := if f.isNegative bits then "-" else ""
    if magnitude = f.infinity then sign ++ "inf"
    else if magnitude = 0 then sign ++ "0.0"
    else sign ++ (shortest f magnitude).text

/-- A number of 32 bits as a literal of a shading language: the shortest decimal that reads back
as the number. -/
def literal (x : Float32) : String :=
  text .single x.toBits.toNat

end Decimal
end FixedFunction
