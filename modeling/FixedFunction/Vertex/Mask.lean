import FixedFunction.Error

/-!
# Sets of attributes

A set of attribute slots is a word in which bit `n` stands for the slot with number `n`.

**Results.**
* `AttributeMask.text`: the names of the slots in a set, lowest bit first.
-/

namespace FixedFunction

/-- A set of attribute slots.  A set that was read from a file may have bits that stand for no
slot. -/
structure AttributeMask where
  /-- The word. -/
  bits : UInt32
deriving DecidableEq

namespace AttributeMask

/-- The set without slots. -/
def empty : AttributeMask := ⟨0⟩

instance : Inhabited AttributeMask := ⟨empty⟩

/-- The set of one slot. -/
def of (a : Attribute) : AttributeMask :=
  ⟨1 <<< (Coded.raw a).toUInt32⟩

/-- All slots of either set. -/
def union (s t : AttributeMask) : AttributeMask :=
  ⟨s.bits ||| t.bits⟩

/-- The set of the given slots. -/
def ofList (l : List Attribute) : AttributeMask :=
  l.foldl (fun s a => s.union (of a)) empty

/-- The bits that stand for a slot. -/
def all : AttributeMask :=
  ofList (Coded.values Attribute)

/-- Whether a slot is in the set. -/
def has (s : AttributeMask) (a : Attribute) : Bool :=
  s.bits &&& (of a).bits == (of a).bits

/-- The set with the given word, if all its bits stand for slots. -/
def ofBits? (b : UInt32) : Option AttributeMask :=
  if b &&& ~~~all.bits = 0 then some ⟨b⟩ else none

/-- The set of those bits of a word that stand for slots. -/
def ofBits (b : UInt32) : AttributeMask :=
  ⟨b &&& all.bits⟩

/-- The slots of a set in stream order. -/
def toList (s : AttributeMask) : List Attribute :=
  Attribute.streamOrder.filter s.has

/-- The names of the slots in a set, lowest bit first.  Bits that stand for no slot follow as one
hexadecimal number. -/
def text (s : AttributeMask) : String :=
  let names := ((Coded.values Attribute).filter s.has).map fun a => (Coded.name a).toUpper
  let extra := s.bits &&& ~~~all.bits
  let parts := if extra = 0 then names
    else names ++ ["0x" ++ String.ofList (Nat.toDigits 16 extra.toNat)]
  if parts.isEmpty then "(empty)" else " | ".intercalate parts

end AttributeMask
end FixedFunction
