/-!
# JSON values

Integers and fractions are kept apart, because a field for small numbers accepts only the former.
A fraction is kept as the nearest number of 64 bits, with the sign of a zero.
-/

namespace FixedFunction

/-- A JSON value. -/
inductive Json where
  | null
  | bool (b : Bool)
  | int (n : Int)
  | float (x : Float)
  | str (s : String)
  | arr (elements : List Json)
  | obj (fields : List (String × Json))

namespace Json

instance : Inhabited Json := ⟨null⟩

/-- The value of a key in a list of fields.  Of two fields with one key the later counts. -/
def lookup (key : String) (fields : List (String × Json)) : Option Json :=
  fields.foldl (fun found f => if f.1 = key then some f.2 else found) none

/-- The value of a key of an object. -/
def find? (key : String) : Json → Option Json
  | obj fields => lookup key fields
  | _ => none

end Json
end FixedFunction
