import FixedFunction.Proofs.DisplayList.Commands

/-!
# Which display lists can be scanned

A scan finds the commands of every display list that holds commands, so the description by
positions is exact.  It does not matter what came before the commands, and two display lists can be
put one after the other if nothing follows the commands of the first.

**Results.**
* `scan_eq_ok_iff`: a scan succeeds exactly with the draw calls that the display list holds.
* `Commands.move`: a display list behind other bytes holds the same calls, moved.
* `Commands.append`: a display list that is read to its end can be followed by another.
-/

namespace FixedFunction

namespace DrawCall

theorem vertexTotal_map {g : DrawCall → DrawCall} (hg : ∀ c, (g c).count = c.count)
    (calls : List DrawCall) : vertexTotal (calls.map g) = vertexTotal calls := by
  induction calls with
  | nil => rfl
  | cons c calls ih => rw [List.map_cons, vertexTotal_cons, vertexTotal_cons, hg, ih]

/-- A draw call behind `n` more bytes, whose vertices are numbered on from `base`. -/
def move (n base : Nat) (c : DrawCall) : DrawCall :=
  { c with source := c.source + n, first := c.first + base }

@[simp]
theorem vertexTotal_map_move (n base : Nat) (calls : List DrawCall) :
    vertexTotal (calls.map (move n base)) = vertexTotal calls := by
  have hcount : ∀ c, (move n base c).count = c.count := fun _ => rfl
  exact vertexTotal_map hcount calls

end DrawCall

namespace DisplayList

/-- The place behind the vertices of the last call, or `p` if there is no call. -/
def stop (stride p : Nat) : List DrawCall → Nat
  | [] => p
  | c :: calls => stop stride (c.source + stride * c.count) calls

/-- Behind the byte of a command its count and its vertices are read. -/
theorem read_eq_readBody {stride p : Nat} {dl : List UInt8} {b : UInt8} {prim : Primitive}
    (hb : dl[p]? = some b) (hb0 : b ≠ 0) (hraw : Coded.ofRaw? (b &&& 0xF8) = some prim)
    (hdraws : Command.draws prim = true) :
    Command.read stride (.ofOffset dl p) =
      (Command.readBody stride prim (.ofOffset dl (p + 1))).map some := by
  obtain ⟨hp, rfl⟩ := List.getElem?_eq_some_iff.mp hb
  have hrest : (Cursor.ofOffset dl p).rest = dl[p] :: dl.drop (p + 1) :=
    List.drop_eq_getElem_cons hp
  have hdecode : (Coded.decode "primitive" (dl[p] &&& 0xF8) : Except Error Primitive) =
      .ok prim := by
    rw [Coded.decode, hraw]
  rw [Command.read, hrest]
  simp only [if_neg hb0, hdecode, hdraws, if_true]
  rfl

/-- A command is read where its bytes are. -/
theorem read_eq_ok {stride p : Nat} {dl : List UInt8} {b hi lo : UInt8} {prim : Primitive}
    (hb : dl[p]? = some b) (hb0 : b ≠ 0) (hraw : Coded.ofRaw? (b &&& 0xF8) = some prim)
    (hdraws : Command.draws prim = true) (hhi : dl[p + 1]? = some hi) (hlo : dl[p + 2]? = some lo)
    (hroom : p + 3 + stride * (256 * hi.toNat + lo.toNat) ≤ dl.length) :
    Command.read stride (.ofOffset dl p) =
      .ok (some (⟨prim, 256 * hi.toNat + lo.toNat, .ofOffset dl (p + 3)⟩,
        .ofOffset dl (p + 3 + stride * (256 * hi.toNat + lo.toNat)))) := by
  have hword : (Cursor.ofOffset dl (p + 1)).word =
      .ok (Cursor.wordOf hi lo, .ofOffset dl (p + 3)) := by
    rw [Cursor.word_ofOffset, hhi, hlo]
  have hskip : stride * (256 * hi.toNat + lo.toNat) ≤ (dl.drop (p + 3)).length := by
    rw [List.length_drop]
    omega
  rw [read_eq_readBody hb hb0 hraw hdraws, Command.readBody, hword, ok_bind]
  simp only [Cursor.toNat_wordOf, Cursor.bytes_ofOffset, if_pos hskip]
  rfl

/-- At the end of a display list no command is read. -/
theorem read_eq_none {stride p : Nat} {dl : List UInt8}
    (h : dl[p]? = none ∨ dl[p]? = some 0) :
    Command.read stride (.ofOffset dl p) = .ok none := by
  rw [← List.head?_drop] at h
  cases hrest : dl.drop p with
  | nil => simp [Command.read, Cursor.ofOffset, hrest]
  | cons b rest =>
    obtain rfl : b = 0 := by simpa [hrest] using h
    simp [Command.read, Cursor.ofOffset, hrest]

theorem scanFrom_of_none {stride first : Nat} {cur : Cursor}
    (h : Command.read stride cur = .ok none) (done : Array Packet) :
    scanFrom stride first cur done = .ok done.toList := by
  rw [scanFrom]
  split <;> simp_all

/-- The vertices of a command are counted before the next command is read. -/
theorem scanFrom_of_command {stride first : Nat} {cur next : Cursor} {c : Command}
    (h : Command.read stride cur = .ok (some (c, next))) (done : Array Packet) :
    scanFrom stride first cur done = checkWord 32 (first + c.count) >>= fun total =>
      scanFrom stride total next (done.push (.ofCommand first c)) := by
  rw [scanFrom]
  split
  case h_1 h' => simp [h] at h'
  case h_2 h' => simp [h] at h'
  case h_3 c' next' h' =>
    obtain ⟨rfl, rfl⟩ : c = c' ∧ next = next' := by simpa [h] using h'
    cases checkWord 32 (first + c.count) <;> rfl

/-- A scan finds all commands from a place on. -/
theorem scanFrom_of_commands {stride p first : Nat} {dl : List UInt8} {calls : List DrawCall}
    (h : Commands stride dl p first calls) (done : Array Packet) :
    scanFrom stride first (.ofOffset dl p) done = .ok (done.toList ++ calls.map (packetOf dl)) := by
  induction h generalizing done with
  | done hend =>
    rw [scanFrom_of_none (read_eq_none hend), List.map_nil, List.append_nil]
  | @call p first b hi lo c calls hb hb0 hraw hdraws hhi hlo hcount hsource hfirst hroom hfit _
      ih =>
    rw [hsource, hcount] at hroom ih
    rw [hcount] at hfit
    have hread := read_eq_ok hb hb0 hraw hdraws hhi hlo hroom
    have hpacket : Packet.ofCommand first
        ⟨c.primitive, 256 * hi.toNat + lo.toNat, .ofOffset dl (p + 3)⟩ = packetOf dl c := by
      rw [Packet.ofCommand, packetOf, ← hcount, ← hsource, ← hfirst]
      rfl
    rw [scanFrom_of_command hread, checkWord_of_lt hfit, ok_bind, hpacket, ih, Array.toList_push,
      List.append_assoc]
    rfl

/-- A scan succeeds exactly with the draw calls that the display list holds. -/
theorem scan_eq_ok_iff {stride : Nat} {dl : List UInt8} {packets : List Packet} :
    scan stride dl = .ok packets ↔
      ∃ calls, Commands stride dl 0 0 calls ∧ packets = calls.map (packetOf dl) := by
  refine ⟨commands_of_scan, ?_⟩
  rintro ⟨calls, hcalls, rfl⟩
  exact scanFrom_of_commands hcalls #[]

namespace Commands

variable {stride p first : Nat} {dl : List UInt8} {calls : List DrawCall}

/-- Behind other bytes, a display list holds the same calls, moved. -/
theorem move (h : Commands stride dl p first calls) (pre : List UInt8) {base : Nat}
    (hfit : base + first + DrawCall.vertexTotal calls < 1 <<< 32) :
    Commands stride (pre ++ dl) (p + pre.length) (first + base)
      (calls.map (DrawCall.move pre.length base)) := by
  have hget : ∀ q, (pre ++ dl)[q + pre.length]? = dl[q]? := by
    intro q
    rw [List.getElem?_append_right (by omega), Nat.add_sub_cancel]
  induction h with
  | done hend => exact .done (by rwa [hget])
  | @call p first b hi lo c calls hb hb0 hraw hdraws hhi hlo hcount hsource hfirst hroom _ _ ih =>
    rw [DrawCall.vertexTotal_cons] at hfit
    have hrest := ih (by omega)
    rw [Nat.add_right_comm, Nat.add_right_comm first] at hrest
    refine .call (c := c.move pre.length base) ?_ hb0 hraw hdraws ?_ ?_ hcount ?_ ?_ ?_ ?_ hrest
    · rwa [hget]
    · rwa [Nat.add_right_comm, hget]
    · rwa [Nat.add_right_comm, hget]
    · simp only [DrawCall.move]
      omega
    · simp only [DrawCall.move]
      omega
    · rw [List.length_append]
      simp only [DrawCall.move]
      omega
    · simp only [DrawCall.move]
      omega

/-- A display list that is read to its end can be followed by another. -/
theorem append {dl' : List UInt8} {calls' : List DrawCall} (h : Commands stride dl p first calls)
    (hend : stop stride p calls = dl.length)
    (h' : Commands stride (dl ++ dl') dl.length (first + DrawCall.vertexTotal calls) calls') :
    Commands stride (dl ++ dl') p first (calls ++ calls') := by
  induction h with
  | done _ =>
    obtain rfl : _ = dl.length := hend
    simpa using h'
  | @call p first b hi lo c calls hb hb0 hraw hdraws hhi hlo hcount hsource hfirst hroom hfit _
      ih =>
    have hget : ∀ {q : Nat} {x : UInt8}, dl[q]? = some x → (dl ++ dl')[q]? = some x := by
      intro q x hx
      rw [List.getElem?_append_left (List.getElem?_eq_some_iff.mp hx).1, hx]
    rw [DrawCall.vertexTotal_cons, ← Nat.add_assoc] at h'
    refine .call (hget hb) hb0 hraw hdraws (hget hhi) (hget hlo) hcount hsource hfirst ?_ hfit
      (ih hend h')
    rw [List.length_append]
    omega

end Commands
end DisplayList
end FixedFunction
