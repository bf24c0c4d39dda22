import FixedFunction.DisplayList.Cursor
import FixedFunction.Vertex.Layout

/-!
# The draw calls of a display list

A display list is a sequence of commands.  A command is a byte, whose high five bits name a
primitive and whose low three bits choose a vertex format, then a count in two bytes, most
significant first, and then that many vertices.  The list ends at a zero byte or with its last
byte.

**Input.**  The bytes of a vertex in the stream, and the display list.

**Algorithm.**  `scan` reads one command after the other, skips its vertices and numbers them
through.  All commands of a list use one format, so the low three bits of a command are not
looked at.

**Results.**
* `Command.length_lt_of_read`: a command takes at least one byte.
* `scan`: the commands, each with the place of its vertices, or the first refusal.
-/

namespace FixedFunction

/-- A command to draw one strip or fan. -/
structure DrawCall where
  /-- What is drawn. -/
  primitive : Primitive
  /-- Offset of the first vertex in the display list. -/
  source : Nat
  /-- Number of vertices. -/
  count : Nat
  /-- Number of the first vertex among all vertices of the list. -/
  first : Nat
deriving DecidableEq

/-- Number of vertices of the given draw calls. -/
def DrawCall.vertexTotal (calls : List DrawCall) : Nat :=
  calls.foldr (fun c n => c.count + n) 0

namespace DisplayList

/-- One command with the place of its vertices. -/
structure Command where
  /-- What is drawn. -/
  primitive : Primitive
  /-- Number of vertices. -/
  count : Nat
  /-- Where the vertices start. -/
  start : Cursor

namespace Command

/-- Whether a primitive can be drawn. -/
def draws (p : Primitive) : Bool :=
  p = .triangleStrip || p = .triangleFan

/-- Reads the count behind a command byte and skips the vertices. -/
def readBody (stride : Nat) (p : Primitive) (cur : Cursor) : Except Error (Command × Cursor) := do
  let (count, start) ← cur.word
  let (_, next) ← start.bytes (stride * count.toNat)
  return (⟨p, count.toNat, start⟩, next)

/-- Reads the next command, and gives it with the place behind it; `none` at the end of the
list. -/
def read (stride : Nat) (cur : Cursor) : Except Error (Option (Command × Cursor)) :=
  match cur.rest with
  | [] => .ok none
  | b :: rest =>
    if b = 0 then .ok none
    else
      match Coded.decode "primitive" (b &&& 0xF8) with
      | .error e => .error e
      | .ok p =>
        if draws p then (readBody stride p ⟨cur.offset + 1, rest⟩).map some
        else .error (.unsupportedPrimitive p)

/-- What the body of a command consists of. -/
theorem of_readBody {stride : Nat} {p : Primitive} {cur next : Cursor} {c : Command}
    (h : readBody stride p cur = .ok (c, next)) :
    ∃ count skipped, cur.word = .ok (count, c.start) ∧ c.primitive = p ∧ c.count = count.toNat ∧
      c.start.bytes (stride * c.count) = .ok (skipped, next) := by
  cases hw : cur.word with
  | error e => simp [readBody, hw, bind, Except.bind] at h
  | ok r =>
    obtain ⟨count, start⟩ := r
    cases hb : start.bytes (stride * count.toNat) with
    | error e => simp [readBody, hw, hb, bind, Except.bind] at h
    | ok s =>
      obtain ⟨skipped, next'⟩ := s
      simp only [readBody, hw, hb, bind, Except.bind, pure, Except.pure, Except.ok.injEq,
        Prod.mk.injEq] at h
      obtain ⟨rfl, rfl⟩ := h
      exact ⟨count, skipped, rfl, rfl, rfl, hb⟩

/-- What a command consists of. -/
theorem of_read {stride : Nat} {cur next : Cursor} {c : Command}
    (h : read stride cur = .ok (some (c, next))) :
    ∃ b rest, cur.rest = b :: rest ∧ b ≠ 0 ∧ Coded.ofRaw? (b &&& 0xF8) = some c.primitive ∧
      draws c.primitive = true ∧
      readBody stride c.primitive ⟨cur.offset + 1, rest⟩ = .ok (c, next) := by
  unfold read at h
  split at h
  · simp at h
  · rename_i b rest hcur
    by_cases hb : b = 0
    · simp [hb] at h
    rw [if_neg hb] at h
    split at h
    · simp at h
    · rename_i p hp
      by_cases hd : draws p = true
      case neg => simp [hd] at h
      rw [if_pos hd] at h
      cases hr : readBody stride p ⟨cur.offset + 1, rest⟩ with
      | error e => simp [hr, Except.map] at h
      | ok r =>
        simp only [hr, Except.map, Except.ok.injEq, Option.some.injEq] at h
        subst h
        obtain ⟨_, _, _, rfl, _, _⟩ := of_readBody hr
        refine ⟨b, rest, hcur, hb, ?_, hd, hr⟩
        unfold Coded.decode at hp
        split at hp
        · simp_all
        · simp at hp

/-- A command takes at least one byte. -/
theorem length_lt_of_read {stride : Nat} {cur next : Cursor} {c : Command}
    (h : read stride cur = .ok (some (c, next))) : next.rest.length < cur.rest.length := by
  obtain ⟨b, rest, hcur, _, _, _, hr⟩ := of_read h
  obtain ⟨_, _, hw, _, _, hb⟩ := of_readBody hr
  have h1 := Cursor.length_of_word hw
  have h2 := Cursor.length_of_bytes hb
  simp only [hcur, List.length_cons] at *
  omega

end Command

/-- A draw call with the place of its vertices. -/
structure Packet where
  call : DrawCall
  /-- Where the vertices start. -/
  start : Cursor

/-- The packet of a command, where `first` vertices came before. -/
def Packet.ofCommand (first : Nat) (c : Command) : Packet :=
  ⟨⟨c.primitive, c.start.offset, c.count, first⟩, c.start⟩

/-- Reads the commands from a place on, where `first` vertices came before.  The machine stops
where the number of vertices leaves its word. -/
def scanFrom (stride first : Nat) (cur : Cursor) (done : Array Packet) :
    Except Failure (List Packet) :=
  match _ : Command.read stride cur with
  | .error e => .error (.refused e)
  | .ok none => .ok done.toList
  | .ok (some (c, next)) =>
    match checkWord 32 (first + c.count) with
    | .error f => .error f
    | .ok total => scanFrom stride total next (done.push (.ofCommand first c))
termination_by cur.rest.length
decreasing_by exact Command.length_lt_of_read (by assumption)

/-- The draw calls of a display list with vertices of `stride` bytes. -/
def scan (stride : Nat) (dl : List UInt8) : Except Failure (List Packet) :=
  scanFrom stride 0 ⟨0, dl⟩ #[]

end DisplayList
end FixedFunction
