import FixedFunction.Proofs.DisplayList.Numbering
import FixedFunction.Proofs.Failure

/-!
# What a display list says

The commands of a display list are described by positions in its bytes, without a reader that
moves.  A scan that succeeds finds exactly these commands.

**Results.**
* `Cursor.bytes_ofOffset`, `Cursor.byte_ofOffset`, `Cursor.word_ofOffset`: what is read at a
  position.
* `Commands`: the draw calls that a display list holds from a position on.
* `commands_of_scan`: a scan that succeeds gives the draw calls that the display list holds.
* `Commands.numbered`, `Commands.drop`: the calls are numbered through, and behind the vertices of
  each call the next command begins.
-/

namespace FixedFunction
namespace DisplayList

namespace Cursor

/-- The place at an offset of a display list. -/
def ofOffset (dl : List UInt8) (p : Nat) : Cursor :=
  ⟨p, dl.drop p⟩

theorem bytes_ofOffset (dl : List UInt8) (p n : Nat) :
    (ofOffset dl p).bytes n =
      if n ≤ (dl.drop p).length then .ok ((dl.drop p).take n, ofOffset dl (p + n))
      else .error (.truncatedList p n) := by
  simp [bytes_eq, ofOffset]

theorem byte_ofOffset (dl : List UInt8) (p : Nat) :
    (ofOffset dl p).byte =
      match dl[p]? with
      | some b => .ok (b, ofOffset dl (p + 1))
      | none => .error (.truncatedList p 1) := by
  rw [← List.head?_drop, ofOffset, ofOffset, ← List.tail_drop]
  cases h : dl.drop p <;> simp [byte]

theorem word_ofOffset (dl : List UInt8) (p : Nat) :
    (ofOffset dl p).word =
      match dl[p]?, dl[p + 1]? with
      | some hi, some lo => .ok (wordOf hi lo, ofOffset dl (p + 2))
      | _, _ => .error (.truncatedList p 2) := by
  rw [← List.head?_drop, ← List.head?_drop, ofOffset, ofOffset, ← List.tail_drop,
    ← List.tail_drop (i := p + 1), ← List.tail_drop]
  rcases dl.drop p with _ | ⟨hi, _ | ⟨lo, rest⟩⟩ <;> simp [word]

end Cursor

/-- The draw calls that a display list holds from position `p` on, where `first` vertices came
before. -/
inductive Commands (stride : Nat) (dl : List UInt8) : Nat → Nat → List DrawCall → Prop
  | done {p first : Nat} : dl[p]? = none ∨ dl[p]? = some 0 → Commands stride dl p first []
  | call {p first : Nat} {b hi lo : UInt8} {c : DrawCall} {calls : List DrawCall} :
      dl[p]? = some b → b ≠ 0 →
      Coded.ofRaw? (b &&& 0xF8) = some c.primitive → Command.draws c.primitive = true →
      dl[p + 1]? = some hi → dl[p + 2]? = some lo →
      c.count = 256 * hi.toNat + lo.toNat → c.source = p + 3 → c.first = first →
      c.source + stride * c.count ≤ dl.length →
      first + c.count < 1 <<< 32 →
      Commands stride dl (c.source + stride * c.count) (first + c.count) calls →
      Commands stride dl p first (c :: calls)

/-- The packet of a draw call. -/
def packetOf (dl : List UInt8) (c : DrawCall) : Packet :=
  ⟨c, .ofOffset dl c.source⟩

theorem map_call_packetOf (dl : List UInt8) (calls : List DrawCall) :
    (calls.map (packetOf dl)).map Packet.call = calls := by
  rw [List.map_map]
  exact List.map_id calls

/-- What the command at a position consists of. -/
theorem command_of_read {stride : Nat} {dl : List UInt8} {p : Nat} {next : Cursor} {c : Command}
    (h : Command.read stride (.ofOffset dl p) = .ok (some (c, next))) :
    ∃ b hi lo, dl[p]? = some b ∧ b ≠ 0 ∧
      Coded.ofRaw? (b &&& 0xF8) = some c.primitive ∧ Command.draws c.primitive = true ∧
      dl[p + 1]? = some hi ∧ dl[p + 2]? = some lo ∧ c.count = 256 * hi.toNat + lo.toNat ∧
      c.start = .ofOffset dl (p + 3) ∧ p + 3 + stride * c.count ≤ dl.length ∧
      next = .ofOffset dl (p + 3 + stride * c.count) := by
  obtain ⟨b, rest, hrest, hb, hraw, hdraws, hbody⟩ := Command.of_read h
  have hp : dl.drop p = b :: rest := hrest
  have hlt : p < dl.length := by
    rcases Nat.lt_or_ge p dl.length with hlt | hge
    · exact hlt
    · simp [List.drop_eq_nil_of_le hge] at hp
  rw [List.drop_eq_getElem_cons hlt, List.cons.injEq] at hp
  obtain ⟨hpb, rfl⟩ := hp
  obtain ⟨count, skipped, hword, _, hcount, hskip⟩ := Command.of_readBody hbody
  rw [show (⟨(Cursor.ofOffset dl p).offset + 1, dl.drop (p + 1)⟩ : Cursor) =
    .ofOffset dl (p + 1) from rfl, Cursor.word_ofOffset] at hword
  split at hword
  case h_2 => simp at hword
  rename_i hi lo hhi hlo
  simp only [Except.ok.injEq, Prod.mk.injEq] at hword
  obtain ⟨rfl, hstart⟩ := hword
  rw [← hstart, Cursor.bytes_ofOffset] at hskip
  split at hskip
  case isFalse => simp at hskip
  rename_i hroom
  simp only [Except.ok.injEq, Prod.mk.injEq] at hskip
  have h2 := (List.getElem?_eq_some_iff.mp hlo).1
  rw [List.length_drop] at hroom
  refine ⟨b, hi, lo, ?_, hb, hraw, hdraws, hhi, hlo, ?_, hstart.symm, ?_, hskip.2.symm⟩
  · rw [List.getElem?_eq_getElem hlt, hpb]
  · rw [hcount, Cursor.toNat_wordOf]
  · omega

/-- Where no command is read, the display list ends. -/
theorem done_of_read {stride : Nat} {dl : List UInt8} {p : Nat}
    (h : Command.read stride (.ofOffset dl p) = .ok none) :
    dl[p]? = none ∨ dl[p]? = some 0 := by
  rw [← List.head?_drop]
  unfold Command.read at h
  split at h
  · rename_i hrest
    left
    rw [show dl.drop p = [] from hrest]
    rfl
  · rename_i b rest hrest
    rw [show dl.drop p = b :: rest from hrest]
    by_cases hb : b = 0
    · right
      rw [hb]
      rfl
    · rw [if_neg hb] at h
      split at h
      · simp at h
      · split at h
        · simp only [Except.map] at h
          split at h <;> simp at h
        · simp at h

theorem commands_of_scanFrom {stride : Nat} {dl : List UInt8} {first p : Nat}
    {done : Array Packet} {packets : List Packet}
    (h : scanFrom stride first (.ofOffset dl p) done = .ok packets) :
    ∃ calls, Commands stride dl p first calls ∧
      packets = done.toList ++ calls.map (packetOf dl) := by
  generalize hcur : Cursor.ofOffset dl p = cur at h
  fun_induction scanFrom stride first cur done generalizing p with
  | case1 first cur done e hread => simp at h
  | case2 first cur done hread =>
    rw [← hcur] at hread
    exact ⟨[], .done (done_of_read hread), by simpa using h.symm⟩
  | case3 first cur done c next hread f hword => simp at h
  | case4 first cur done c next hread total hword ih =>
    rw [← hcur] at hread
    obtain ⟨b, hi, lo, hb, hb0, hraw, hdraws, hhi, hlo, hcount, hstart, hroom, hnext⟩ :=
      command_of_read hread
    obtain ⟨hfit, rfl⟩ := checkWord_eq_ok.mp hword
    obtain ⟨calls, hcalls, hpackets⟩ := ih hnext.symm h
    have hcall : Packet.ofCommand first c =
        packetOf dl ⟨c.primitive, p + 3, c.count, first⟩ := by
      simp [Packet.ofCommand, packetOf, hstart, Cursor.ofOffset]
    refine ⟨⟨c.primitive, p + 3, c.count, first⟩ :: calls, ?_, ?_⟩
    · exact .call hb hb0 hraw hdraws hhi hlo hcount rfl rfl hroom hfit hcalls
    · rw [hpackets, hcall, Array.toList_push]
      simp

/-- A scan that succeeds gives the draw calls that the display list holds. -/
theorem commands_of_scan {stride : Nat} {dl : List UInt8} {packets : List Packet}
    (h : scan stride dl = .ok packets) :
    ∃ calls, Commands stride dl 0 0 calls ∧ packets = calls.map (packetOf dl) := by
  have h' : scanFrom stride 0 (.ofOffset dl 0) #[] = .ok packets := h
  simpa using commands_of_scanFrom h'

/-- A scan stops only where the number of vertices leaves its word. -/
theorem stopped_of_scanFrom {stride first : Nat} {cur : Cursor} {done : Array Packet} {t : Fault}
    (h : scanFrom stride first cur done = .error (.stopped t)) : t = .overflow := by
  fun_induction scanFrom stride first cur done with
  | case1 first cur done e hread => simp at h
  | case2 first cur done hread => simp at h
  | case3 first cur done c next hread f hword =>
    rw [Except.error.inj h] at hword
    simp only [checkWord] at hword
    split at hword
    · simp at hword
    · simpa using hword.symm
  | case4 first cur done c next hread total hword ih => exact ih h

namespace Commands

variable {stride : Nat} {dl : List UInt8} {p first : Nat} {calls : List DrawCall}

theorem numbered (h : Commands stride dl p first calls) : DrawCall.Numbered first calls := by
  induction h with
  | done _ => trivial
  | call _ _ _ _ _ _ _ _ hfirst _ _ _ ih => exact ⟨hfirst, ih⟩

/-- What is left when some calls have been read. -/
theorem drop {before after : List DrawCall} {c : DrawCall}
    (h : Commands stride dl p first (before ++ c :: after)) :
    Commands stride dl (c.source + stride * c.count) (c.first + c.count) after := by
  induction before generalizing p first with
  | nil =>
    cases h with
    | call _ _ _ _ _ _ _ _ hfirst _ _ hrest => rwa [hfirst]
  | cons d before ih =>
    cases h with
    | call _ _ _ _ _ _ _ _ _ _ _ hrest => exact ih hrest

theorem mem_bounds (h : Commands stride dl p first calls) :
    ∀ c, c ∈ calls →
      (c.primitive = .triangleStrip ∨ c.primitive = .triangleFan) ∧
      c.count < 1 <<< 16 ∧ c.source + stride * c.count ≤ dl.length := by
  induction h with
  | done _ => intro c hc; simp at hc
  | @call p first b hi lo c calls _ _ _ hdraws _ _ hcount _ _ hroom _ _ ih =>
    intro d hd
    rcases List.mem_cons.mp hd with rfl | hd
    · have := hi.toNat_lt
      have := lo.toNat_lt
      refine ⟨?_, by omega, hroom⟩
      simpa [Command.draws] using hdraws
    · exact ih d hd

end Commands
end DisplayList
end FixedFunction
