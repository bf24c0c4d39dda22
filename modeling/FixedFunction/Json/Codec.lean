import FixedFunction.Json.Basic
import FixedFunction.Binary.Format
import FixedFunction.Coded

/-!
# Types with a JSON form

**Input.**  For a record, its fields: a key, and how the field is written and read.

**Algorithm.**  A record is written as an object with all its fields.  It is read field by field
into a start value.  A field that is missing keeps what the start value has there, or makes the
whole record unreadable where all fields are required; a field that is there but unreadable always
does.  An array of the fields in their order is read like an object.

**Results.**
* `Codec`: the class of the types with a JSON form, with instances for numbers, texts, lists,
  options and register fields.
* `writeRecord`, `readRecord?`: the forms of a record.
-/

namespace FixedFunction
namespace Json

/-- The types with a JSON form. -/
class Codec (α : Type) where
  /-- The JSON form of a value. -/
  write : α → Json
  /-- The value with the given JSON form. -/
  read? : Json → Option α

export Codec (read?)

instance : Codec Bool where
  write := bool
  read?
    | bool b => some b
    | _ => none

instance : Codec String where
  write := str
  read?
    | str s => some s
    | _ => none

/-- Reads an integer from 0 to `limit - 1`. -/
def readBelow? (limit : Nat) : Json → Option Nat
  | int n => if 0 ≤ n ∧ n < limit then some n.toNat else none
  | _ => none

instance : Codec UInt8 where
  write n := int n.toNat
  read? v := (readBelow? UInt8.size v).map Nat.toUInt8

instance : Codec UInt32 where
  write n := int n.toNat
  read? v := (readBelow? UInt32.size v).map Nat.toUInt32

/-- A number of 32 bits is written as the number of 64 bits with its value, and read from any
number by rounding.  A number that is not finite has no JSON form and is written `null`. -/
instance : Codec Float32 where
  write x := if x.isFinite then float (Binary.widen x) else null
  read?
    | int n => some (Binary.ofInteger n)
    | float x => some (Binary.narrow x)
    | _ => none

instance {α : Type} [Codec α] : Codec (Option α) where
  write
    | some x => Codec.write x
    | none => null
  read?
    | null => some none
    | v => (read? v).map some

instance {α : Type} [Codec α] : Codec (List α) where
  write xs := arr (xs.map Codec.write)
  read?
    | arr vs => vs.mapM read?
    | _ => none

instance {α : Type} {n : Nat} [Codec α] : Codec (Vector α n) where
  write xs := arr (xs.toList.map Codec.write)
  read? v := do
    let xs : List α ← read? v
    if h : xs.length = n then return ⟨xs.toArray, by simpa using h⟩ else none

/-- A register field is written as its name.  An object with the name as its only key and `null`
below it is read as well. -/
instance {α : Type} [DecidableEq α] [Coded α] : Codec α where
  write a := str (Coded.name a)
  read?
    | str s => Coded.ofName? s
    | obj [(s, null)] => Coded.ofName? s
    | _ => none

/-- A field of a record `σ`. -/
structure RecordField (σ : Type) where
  key : String
  /-- The JSON form of the field. -/
  write : σ → Json
  /-- Reads the field into a record. -/
  read? : σ → Json → Option σ

/-- The field with the given value and replacement. -/
def field {σ τ : Type} [Codec τ] (key : String) (get : σ → τ) (set : σ → τ → σ) :
    RecordField σ where
  key := key
  write s := Codec.write (get s)
  read? s v := (Codec.read? v).map (set s)

/-- A record as an object. -/
def writeRecord {σ : Type} (fields : List (RecordField σ)) (s : σ) : Json :=
  obj (fields.map fun f => (f.key, f.write s))

/-- Reads fields of an object into a record. -/
def readFields {σ : Type} (required : Bool) (fields : List (RecordField σ))
    (vs : List (String × Json)) (s : σ) : Option σ :=
  fields.foldlM (fun s f =>
    match lookup f.key vs with
    | some v => f.read? s v
    | none => if required then none else some s) s

/-- Reads fields that are given by their place into a record. -/
def readPlaces {σ : Type} : List (RecordField σ) → List Json → σ → Option σ
  | _, [], s => some s
  | [], _ :: _, _ => none
  | f :: fs, v :: vs, s => (f.read? s v).bind (readPlaces fs vs)

/-- Reads a record.  Keys that are no field's are passed over. -/
def readRecord? {σ : Type} (required : Bool) (fields : List (RecordField σ)) (start : σ) :
    Json → Option σ
  | obj vs => readFields required fields vs start
  | arr vs =>
    if required && vs.length < fields.length then none else readPlaces fields vs start
  | _ => none

end Json
end FixedFunction
