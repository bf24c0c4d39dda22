import FixedFunction.Json.Basic
import FixedFunction.Decimal.Shortest

/-!
# Writing JSON

**Results.**
* `Json.print`: a value as a text without blanks.  A number that is not finite is written `null`.
-/

namespace FixedFunction
namespace Json

/-- A character of a string, escaped where JSON demands it. -/
def charText (c : Char) : String :=
  if c = '"' then "\\\""
  else if c = '\\' then "\\\\"
  else if c < ' ' then
    let ds := Nat.toDigits 16 c.toNat
    String.ofList ('\\' :: 'u' :: List.replicate (4 - ds.length) '0' ++ ds)
  else c.toString

/-- Appends a quoted string. -/
def writeString (out s : String) : String :=
  (s.foldl (fun out c => out ++ charText c) (out.push '"')).push '"'

/-- A fraction, or `null` if it is not finite. -/
def floatText (x : Float) : String :=
  if x.isFinite then Decimal.text .double x.toBits.toNat else "null"

mutual

/-- Appends a value. -/
def write (out : String) : Json → String
  | null => out ++ "null"
  | bool b => out ++ if b then "true" else "false"
  | int n => out ++ toString n
  | float x => out ++ floatText x
  | str s => writeString out s
  | arr [] => out ++ "[]"
  | arr (v :: vs) => (writeElements (write (out.push '[') v) vs).push ']'
  | obj [] => out ++ "\x7b\x7d"
  | obj ((k, v) :: fs) =>
    (writeFields (write ((writeString (out.push '\x7b') k).push ':') v) fs).push '\x7d'

/-- Appends the elements of an array behind the first. -/
def writeElements (out : String) : List Json → String
  | [] => out
  | v :: vs => writeElements (write (out.push ',') v) vs

/-- Appends the fields of an object behind the first. -/
def writeFields (out : String) : List (String × Json) → String
  | [] => out
  | (k, v) :: fs => writeFields (write ((writeString (out.push ',') k).push ':') v) fs

end

/-- A value as a text. -/
def print (v : Json) : String :=
  write "" v

end Json
end FixedFunction
