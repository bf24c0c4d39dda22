import FixedFunction.Json.Basic
import FixedFunction.Binary.Format

/-!
# Reading JSON

**Input.**  A text.

**Algorithm.**  The reader goes down into arrays and objects.  Each step down and each element
uses up one unit of fuel, and a text has fewer of both than characters.

**Results.**
* `Json.parse?`: the value that a text denotes, if it is a JSON text.
-/

namespace FixedFunction
namespace Json

/-- The four blanks of JSON. -/
def isBlank (c : Char) : Bool :=
  c = ' ' || c = '\n' || c = '\r' || c = '\t'

/-- Drops leading blanks. -/
def skipBlanks (cs : List Char) : List Char :=
  cs.dropWhile isBlank

/-- The value of a hexadecimal digit. -/
def hexValue? (c : Char) : Option Nat :=
  if c.isDigit then some (c.toNat - '0'.toNat)
  else if 'a' ≤ c ∧ c ≤ 'f' then some (c.toNat - 'a'.toNat + 10)
  else if 'A' ≤ c ∧ c ≤ 'F' then some (c.toNat - 'A'.toNat + 10)
  else none

/-- The value of four hexadecimal digits. -/
def unit? (a b c d : Char) : Option Nat := do
  return ((← hexValue? a) * 16 + (← hexValue? b)) * 256 + (← hexValue? c) * 16 + (← hexValue? d)

/-- The character behind a backslash. -/
def escaped? : Char → Option Char
  | '"' => some '"'
  | '\\' => some '\\'
  | '/' => some '/'
  | 'b' => some '\x08'
  | 'f' => some '\x0c'
  | 'n' => some '\n'
  | 'r' => some '\r'
  | 't' => some '\t'
  | _ => none

/-- Reads the rest of a string.  `front` holds the characters already read, last first. -/
def string (front : List Char) : List Char → Option (String × List Char)
  | [] => none
  | '"' :: rest => some (String.ofList front.reverse, rest)
  | '\\' :: 'u' :: a :: b :: c :: d :: rest => do
    let high ← unit? a b c d
    if 0xD800 ≤ high ∧ high < 0xDC00 then
      match rest with
      | '\\' :: 'u' :: a :: b :: c :: d :: rest =>
        let low ← unit? a b c d
        if 0xDC00 ≤ low ∧ low < 0xE000 then
          string (Char.ofNat (0x10000 + (high - 0xD800) * 1024 + (low - 0xDC00)) :: front) rest
        else none
      | _ => none
    else if 0xDC00 ≤ high ∧ high < 0xE000 then none
    else string (Char.ofNat high :: front) rest
  | '\\' :: c :: rest =>
    match escaped? c with
    | some c => string (c :: front) rest
    | none => none
  | c :: rest => if c < ' ' then none else string (c :: front) rest

/-- The number that a list of digits denotes. -/
def digitsValue (ds : List Char) : Nat :=
  ds.foldl (fun n c => 10 * n + (c.toNat - '0'.toNat)) 0

/-- Reads digits, at least one. -/
def digits (cs : List Char) : Option (List Char × List Char) :=
  match cs.span Char.isDigit with
  | ([], _) => none
  | r => some r

/-- Reads the digits of a whole number: zero stands alone. -/
def whole : List Char → Option (List Char × List Char)
  | '0' :: rest => some (['0'], rest)
  | cs => digits cs

/-- Reads the digits behind a point, if there is one. -/
def fraction : List Char → Option (Option (List Char) × List Char)
  | '.' :: rest => (digits rest).map fun r => (some r.1, r.2)
  | cs => some (none, cs)

/-- Reads an exponent, if there is one. -/
def exponent : List Char → Option (Option Int × List Char)
  | c :: rest =>
    if c = 'e' ∨ c = 'E' then
      match rest with
      | '-' :: rest => (digits rest).map fun r => (some (-(digitsValue r.1 : Int)), r.2)
      | '+' :: rest => (digits rest).map fun r => (some (digitsValue r.1 : Int), r.2)
      | rest => (digits rest).map fun r => (some (digitsValue r.1 : Int), r.2)
    else some (none, c :: rest)
  | [] => some (none, [])

/-- The value of a number without point and exponent.  One that fits no word of 64 bits, and minus
zero, is kept as a fraction. -/
def wholeValue (negative : Bool) (n : Nat) : Json :=
  if negative then
    if n = 0 ∨ UInt64.size / 2 < n then float (Binary.ofDecimal true n 0) else int (-(n : Int))
  else if UInt64.size ≤ n then float (Binary.ofDecimal false n 0)
  else int n

/-- Reads a number behind its sign. -/
def unsigned (negative : Bool) (cs : List Char) : Option (Json × List Char) := do
  let (ds, rest) ← whole cs
  let (fs, rest) ← fraction rest
  let (e, rest) ← exponent rest
  match fs, e with
  | none, none => return (wholeValue negative (digitsValue ds), rest)
  | _, _ =>
    let fs := fs.getD []
    let x := Binary.ofDecimal negative (digitsValue (ds ++ fs)) (e.getD 0 - fs.length)
    return (float x, rest)

/-- Reads a number. -/
def number : List Char → Option (Json × List Char)
  | '-' :: rest => unsigned true rest
  | cs => unsigned false cs

mutual

/-- Reads a value. -/
def value : Nat → List Char → Option (Json × List Char)
  | 0, _ => none
  | fuel + 1, cs =>
    match skipBlanks cs with
    | 'n' :: 'u' :: 'l' :: 'l' :: rest => some (null, rest)
    | 't' :: 'r' :: 'u' :: 'e' :: rest => some (bool true, rest)
    | 'f' :: 'a' :: 'l' :: 's' :: 'e' :: rest => some (bool false, rest)
    | '"' :: rest => (string [] rest).map fun r => (str r.1, r.2)
    | '[' :: rest =>
      match skipBlanks rest with
      | ']' :: rest => some (arr [], rest)
      | rest => elements fuel [] rest
    | '\x7b' :: rest =>
      match skipBlanks rest with
      | '\x7d' :: rest => some (obj [], rest)
      | rest => members fuel [] rest
    | cs => number cs

/-- Reads the elements of an array from one on.  `front` holds those already read, last first. -/
def elements : Nat → List Json → List Char → Option (Json × List Char)
  | 0, _, _ => none
  | fuel + 1, front, cs =>
    match value fuel cs with
    | none => none
    | some (v, rest) =>
      match skipBlanks rest with
      | ',' :: rest => elements fuel (v :: front) rest
      | ']' :: rest => some (arr (v :: front).reverse, rest)
      | _ => none

/-- Reads the fields of an object from one on.  `front` holds those already read, last first. -/
def members : Nat → List (String × Json) → List Char → Option (Json × List Char)
  | 0, _, _ => none
  | fuel + 1, front, cs =>
    match skipBlanks cs with
    | '"' :: rest =>
      match string [] rest with
      | none => none
      | some (key, rest) =>
        match skipBlanks rest with
        | ':' :: rest =>
          match value fuel rest with
          | none => none
          | some (v, rest) =>
            match skipBlanks rest with
            | ',' :: rest => members fuel ((key, v) :: front) rest
            | '\x7d' :: rest => some (obj ((key, v) :: front).reverse, rest)
            | _ => none
        | _ => none
    | _ => none

end

/-- The value that a text denotes. -/
def parse? (text : String) : Option Json :=
  let cs := text.toList
  match value (cs.length + 1) cs with
  | some (v, rest) => if (skipBlanks rest).isEmpty then some v else none
  | none => none

end Json
end FixedFunction
