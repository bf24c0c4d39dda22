import FixedFunction.Proofs.DisplayList.Commands

/-!
# Scanning in machine words

A machine keeps the place in a display list as a word of 64 bits.  It computes the end of what it
is about to read before it looks whether the bytes are there, so that this sum could leave its word
although no byte outside the list is ever read.

**Algorithm.**  `scanWords` is the scan where each sum and each product is checked against its word.

**Invariant.**  A place and the bytes from there on make up the whole list.

**Results.**
* `readWords_eq`: a command is read without leaving a word of 64 bits.
* `scanWords_eq`: the only word that a scan can leave is that of the number of vertices.
-/

namespace FixedFunction
namespace DisplayList

namespace Cursor

/-- Number of bytes of the whole list. -/
def length (c : Cursor) : Nat :=
  c.offset + c.rest.length

theorem length_of_word_eq {c c' : Cursor} {n : UInt16} (h : c.word = .ok (n, c')) :
    c'.length = c.length := by
  unfold word at h
  split at h
  case h_1 hi lo rest hc =>
    obtain ⟨-, rfl⟩ := Prod.mk.inj (Except.ok.inj h)
    simp only [length, hc, List.length_cons]
    omega
  case h_2 => simp at h

theorem length_of_bytes_eq {c c' : Cursor} {n : Nat} {l : List UInt8}
    (h : c.bytes n = .ok (l, c')) : c'.length = c.length := by
  rw [bytes_eq] at h
  split at h
  case isTrue hn =>
    obtain ⟨-, rfl⟩ := Prod.mk.inj (Except.ok.inj h)
    simp only [length, List.length_drop]
    omega
  case isFalse => simp at h

/-- The next `n` bytes.  The machine stops where their end is no word. -/
def bytesWords (c : Cursor) (n : Nat) : Except Failure (List UInt8 × Cursor) := do
  let _ ← checkWord 64 (c.offset + n)
  c.bytes n

/-- The number in the next two bytes, likewise. -/
def wordWords (c : Cursor) : Except Failure (UInt16 × Cursor) := do
  let _ ← checkWord 64 (c.offset + 2)
  c.word

end Cursor

namespace Command

/-- Reads the count behind a command byte and skips the vertices. -/
def readBodyWords (stride : Nat) (p : Primitive) (cur : Cursor) :
    Except Failure (Command × Cursor) := do
  let (count, start) ← cur.wordWords
  let size ← checkWord 64 (stride * count.toNat)
  let (_, next) ← start.bytesWords size
  return (⟨p, count.toNat, start⟩, next)

/-- Reads the next command. -/
def readWords (stride : Nat) (cur : Cursor) : Except Failure (Option (Command × Cursor)) :=
  match cur.rest with
  | [] => .ok none
  | b :: rest => do
    let offset ← checkWord 64 (cur.offset + 1)
    if b = 0 then return none
    let p ← Coded.decode "primitive" (b &&& 0xF8)
    if draws p then return some (← readBodyWords stride p ⟨offset, rest⟩)
    else throw (.refused (.unsupportedPrimitive p))

section

variable {stride : Nat} {cur next : Cursor} {c : Command}

/-- Checks that succeed have no effect. -/
theorem readBody_of_words {p : Primitive} {r : Command × Cursor}
    (h : readBodyWords stride p cur = .ok r) : readBody stride p cur = .ok r := by
  obtain ⟨⟨count, start⟩, hword, h⟩ := bind_eq_ok.mp h
  obtain ⟨-, -, hword⟩ := bind_eq_ok.mp hword
  obtain ⟨size, hsize, h⟩ := bind_eq_ok.mp h
  obtain ⟨-, rfl⟩ := checkWord_eq_ok.mp hsize
  obtain ⟨⟨skipped, next⟩, hskip, h⟩ := bind_eq_ok.mp h
  obtain ⟨-, -, hskip⟩ := bind_eq_ok.mp hskip
  obtain rfl := Except.ok.inj h
  rw [readBody, lift_eq_ok.mp hword, ok_bind]
  simp only [lift_eq_ok.mp hskip]
  rfl

theorem read_of_words {r : Option (Command × Cursor)} (h : readWords stride cur = .ok r) :
    read stride cur = .ok r := by
  obtain ⟨offset, rest⟩ := cur
  cases rest with
  | nil =>
    obtain rfl := Except.ok.inj h
    rfl
  | cons b rest =>
    obtain ⟨offset', hoffset, h⟩ := bind_eq_ok.mp h
    obtain ⟨-, rfl⟩ := checkWord_eq_ok.mp hoffset
    rw [read]
    simp only
    split at h
    case isTrue hb =>
      rw [if_pos hb]
      obtain rfl := Except.ok.inj h
      rfl
    case isFalse hb =>
      obtain ⟨p, hp, h⟩ := bind_eq_ok.mp h
      rw [if_neg hb, lift_eq_ok.mp hp]
      simp only
      split at h
      case isTrue hd =>
        obtain ⟨r, hr, h⟩ := bind_eq_ok.mp h
        obtain rfl := Except.ok.inj h
        rw [if_pos hd, readBody_of_words hr]
        rfl
      case isFalse => simp at h

theorem length_lt_of_readWords (h : readWords stride cur = .ok (some (c, next))) :
    next.rest.length < cur.rest.length :=
  length_lt_of_read (read_of_words h)

theorem readBodyWords_eq (hstride : stride < 1 <<< 32) (hcur : cur.length < 1 <<< 63)
    (p : Primitive) : readBodyWords stride p cur = liftM (readBody stride p cur) := by
  rw [readBodyWords, readBody, Cursor.wordWords,
    checkWord_of_lt (by simp only [Cursor.length] at hcur; omega), ok_bind]
  cases hword : cur.word with
  | error e => rfl
  | ok r =>
    obtain ⟨count, start⟩ := r
    have hstart := Cursor.length_of_word_eq hword
    have hsize : stride * count.toNat < (1 <<< 32) * (1 <<< 16) :=
      Nat.mul_lt_mul'' hstride count.toNat_lt
    have hstop : start.offset + stride * count.toNat < 1 <<< 64 := by
      simp only [Cursor.length] at hcur hstart
      omega
    simp only [lift_ok, ok_bind, checkWord_of_lt (show stride * count.toNat < 1 <<< 64 by omega),
      Cursor.bytesWords, checkWord_of_lt hstop]
    cases start.bytes (stride * count.toNat) <;> rfl

/-- A command is read without leaving a word of 64 bits. -/
theorem readWords_eq (hstride : stride < 1 <<< 32) (hcur : cur.length < 1 <<< 63) :
    readWords stride cur = liftM (read stride cur) := by
  obtain ⟨offset, rest⟩ := cur
  cases rest with
  | nil => rfl
  | cons b rest =>
    simp only [Cursor.length, List.length_cons] at hcur
    rw [readWords, read]
    simp only [checkWord_of_lt (show offset + 1 < 1 <<< 64 by omega), ok_bind]
    have hrest : (⟨offset + 1, rest⟩ : Cursor).length < 1 <<< 63 := by
      simp only [Cursor.length]
      omega
    split
    case isTrue => rfl
    case isFalse =>
      cases (Coded.decode "primitive" (b &&& 0xF8) : Except Error Primitive) with
      | error e => rfl
      | ok p =>
        simp only [lift_ok, ok_bind]
        split
        case isTrue =>
          rw [readBodyWords_eq hstride hrest]
          cases readBody stride p ⟨offset + 1, rest⟩ <;> rfl
        case isFalse => rfl

end

end Command

/-- Reads the commands from a place on in machine words. -/
def scanWordsFrom (stride first : Nat) (cur : Cursor) (done : Array Packet) :
    Except Failure (List Packet) :=
  match _ : Command.readWords stride cur with
  | .error f => .error f
  | .ok none => .ok done.toList
  | .ok (some (c, next)) =>
    match checkWord 32 (first + c.count) with
    | .error f => .error f
    | .ok total => scanWordsFrom stride total next (done.push (.ofCommand first c))
termination_by cur.rest.length
decreasing_by exact Command.length_lt_of_readWords (by assumption)

/-- The draw calls of a display list, found in machine words. -/
def scanWords (stride : Nat) (dl : List UInt8) : Except Failure (List Packet) :=
  scanWordsFrom stride 0 ⟨0, dl⟩ #[]

theorem length_of_read {stride : Nat} {cur next : Cursor} {c : Command}
    (h : Command.read stride cur = .ok (some (c, next))) : next.length = cur.length := by
  obtain ⟨b, rest, hcur, _, _, _, hr⟩ := Command.of_read h
  obtain ⟨_, _, hw, _, _, hb⟩ := Command.of_readBody hr
  rw [Cursor.length_of_bytes_eq hb, Cursor.length_of_word_eq hw]
  simp only [Cursor.length, hcur, List.length_cons]
  omega

section

variable {stride first : Nat} {cur : Cursor} {done : Array Packet}

theorem scanWordsFrom_of_error {f : Failure} (h : Command.readWords stride cur = .error f) :
    scanWordsFrom stride first cur done = .error f := by
  rw [scanWordsFrom]
  split <;> simp_all

theorem scanWordsFrom_of_none (h : Command.readWords stride cur = .ok none) :
    scanWordsFrom stride first cur done = .ok done.toList := by
  rw [scanWordsFrom]
  split <;> simp_all

theorem scanWordsFrom_of_command {c : Command} {next : Cursor}
    (h : Command.readWords stride cur = .ok (some (c, next))) :
    scanWordsFrom stride first cur done = checkWord 32 (first + c.count) >>= fun total =>
      scanWordsFrom stride total next (done.push (.ofCommand first c)) := by
  rw [scanWordsFrom]
  split
  case h_1 h' => simp [h] at h'
  case h_2 h' => simp [h] at h'
  case h_3 c' next' h' =>
    obtain ⟨rfl, rfl⟩ : c = c' ∧ next = next' := by simpa [h] using h'
    cases checkWord 32 (first + c.count) <;> rfl

theorem scanWordsFrom_eq (hstride : stride < 1 <<< 32) (hcur : cur.length < 1 <<< 63) :
    scanWordsFrom stride first cur done = scanFrom stride first cur done := by
  fun_induction scanFrom stride first cur done with
  | case1 first cur done e hread =>
    refine scanWordsFrom_of_error ?_
    rw [Command.readWords_eq hstride hcur, hread]
    rfl
  | case2 first cur done hread =>
    refine scanWordsFrom_of_none ?_
    rw [Command.readWords_eq hstride hcur, hread]
    rfl
  | case3 first cur done c next hread f hword =>
    have hwords : Command.readWords stride cur = .ok (some (c, next)) := by
      rw [Command.readWords_eq hstride hcur, hread]
      rfl
    rw [scanWordsFrom_of_command hwords, hword]
    rfl
  | case4 first cur done c next hread total hword ih =>
    have hwords : Command.readWords stride cur = .ok (some (c, next)) := by
      rw [Command.readWords_eq hstride hcur, hread]
      rfl
    rw [scanWordsFrom_of_command hwords, hword]
    exact ih (by rwa [length_of_read hread])

end

/-- The only word that a scan can leave is that of the number of vertices. -/
theorem scanWords_eq {stride : Nat} (hstride : stride < 1 <<< 32) {dl : List UInt8}
    (hdl : dl.length < 1 <<< 63) : scanWords stride dl = scan stride dl :=
  scanWordsFrom_eq hstride (by simpa [Cursor.length] using hdl)

end DisplayList
end FixedFunction
