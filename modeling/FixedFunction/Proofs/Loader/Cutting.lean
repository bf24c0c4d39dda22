import FixedFunction.Proofs.Loader.SingleVertex

/-!
# Display lists that are cut off

A command says how many bytes belong to it.  A display list that is cut off inside a command is
therefore refused, and one that is cut off between two commands holds the draw calls up to there.
Behind the end of the commands nothing is read.

**Input.**  A display list in which draw calls are found, and a number of bytes that are left of it.

**Results.**
* `Commands.front`: what a display list holds that has the bytes of the first calls.
* `DrawCall.missing`: the piece of a call that a display list does not hold.
* `scanFrom_take`: the refusal of a display list that is cut off inside a command.
* `Loader.CutOff`: what becomes of a display list that is cut off, at each place.
* `Loader.drawCalls_cut`: this is how every display list with draw calls is scanned.
-/

namespace FixedFunction

/-- The piece that is missing of a call in a display list of `k` bytes, as the offset and the number
of its bytes: the count in front of the vertices, or the vertices. -/
def DrawCall.missing (stride k : Nat) (c : DrawCall) : Nat × Nat :=
  if k < c.source then (c.source - 2, 2) else (c.source, stride * c.count)

namespace DisplayList

section Stop

variable {stride p first : Nat} {dl : List UInt8} {calls before after : List DrawCall}

theorem le_stop (h : Commands stride dl p first (before ++ after)) : p ≤ stop stride p before := by
  induction before generalizing p first with
  | nil => exact Nat.le_refl p
  | cons c before ih =>
    cases h with
    | call _ _ _ _ _ _ _ hsource _ _ _ hrest =>
      have hle := ih hrest
      rw [stop]
      omega

theorem stop_le (h : Commands stride dl p first (before ++ after)) (hp : p ≤ dl.length) :
    stop stride p before ≤ dl.length := by
  induction before generalizing p first with
  | nil => exact hp
  | cons c before ih =>
    cases h with
    | call _ _ _ _ _ _ _ _ _ hroom _ hrest => exact ih hrest hroom

theorem stop_append (stride p : Nat) (before after : List DrawCall) :
    stop stride p (before ++ after) = stop stride (stop stride p before) after := by
  induction before generalizing p with
  | nil => rfl
  | cons c before ih => exact ih _

/-- Calls end with the vertices of the last of them. -/
theorem stop_concat (stride p : Nat) (before : List DrawCall) (c : DrawCall) :
    stop stride p (before ++ [c]) = c.source + stride * c.count :=
  stop_append stride p before [c]

/-- Behind the last call a display list has ended. -/
theorem Commands.ended (h : Commands stride dl p first calls) :
    dl[stop stride p calls]? = none ∨ dl[stop stride p calls]? = some 0 := by
  induction h with
  | done hend => exact hend
  | call _ _ _ _ _ _ _ _ _ _ _ _ ih => exact ih

/-- Behind the calls before it, each call has a command. -/
theorem Commands.begun {c : DrawCall} (h : Commands stride dl p first (before ++ c :: after)) :
    ∃ b, dl[stop stride p before]? = some b ∧ b ≠ 0 := by
  induction before generalizing p first with
  | nil =>
    cases h with
    | call hb hb0 => exact ⟨_, hb, hb0⟩
  | cons d before ih =>
    cases h with
    | call _ _ _ _ _ _ _ _ _ _ _ hrest => exact ih hrest

/-- A display list holds the first calls of another if it has the bytes of these and ends behind
them. -/
theorem Commands.front {dl' : List UInt8} (h : Commands stride dl p first (before ++ after))
    (hlen : stop stride p before ≤ dl'.length)
    (hget : ∀ q < stop stride p before, dl'[q]? = dl[q]?)
    (hend : dl'[stop stride p before]? = none ∨ dl'[stop stride p before]? = some 0) :
    Commands stride dl' p first before := by
  induction before generalizing p first with
  | nil => exact .done hend
  | cons c before ih =>
    cases h with
    | call hb hb0 hraw hdraws hhi hlo hcount hsource hfirst _ hfit hrest =>
      have hle := le_stop hrest
      rw [stop] at hlen hget hend
      refine .call ?_ hb0 hraw hdraws ?_ ?_ hcount hsource hfirst (by omega) hfit
        (ih hrest hlen hget hend)
      · rw [hget _ (by omega), hb]
      · rw [hget _ (by omega), hhi]
      · rw [hget _ (by omega), hlo]

end Stop

section Take

variable {stride p first k : Nat} {dl : List UInt8} {calls : List DrawCall} {c : DrawCall}

/-- The missing piece begins in what is left of the display list, and does not end there. -/
theorem missing_bounds (hp : p < k) (hsource : c.source = p + 3)
    (hk : k < c.source + stride * c.count) :
    (c.missing stride k).1 ≤ k ∧ k < (c.missing stride k).1 + (c.missing stride k).2 := by
  unfold DrawCall.missing
  split
  · simp only
    omega
  · simp only
    omega

/-- A command that is cut off is refused for the piece that is missing. -/
theorem read_take {b hi lo : UInt8} (hb : dl[p]? = some b) (hb0 : b ≠ 0)
    (hraw : Coded.ofRaw? (b &&& 0xF8) = some c.primitive)
    (hdraws : Command.draws c.primitive = true) (hhi : dl[p + 1]? = some hi)
    (hlo : dl[p + 2]? = some lo) (hcount : c.count = 256 * hi.toNat + lo.toNat)
    (hsource : c.source = p + 3) (hp : p < k) (hk : k < c.source + stride * c.count) :
    Command.read stride (.ofOffset (dl.take k) p) =
      .error (.truncatedList (c.missing stride k).1 (c.missing stride k).2) := by
  have hb' : (dl.take k)[p]? = some b := by rw [List.getElem?_take_of_lt hp, hb]
  rw [read_eq_readBody hb' hb0 hraw hdraws, Command.readBody, DrawCall.missing, hsource]
  split
  case isTrue hcut =>
    have hlo' : (dl.take k)[p + 2]? = none :=
      List.getElem?_eq_none (by rw [List.length_take]; omega)
    have hword : (Cursor.ofOffset (dl.take k) (p + 1)).word =
        .error (.truncatedList (p + 1) 2) := by
      rw [Cursor.word_ofOffset, hlo']
      cases (dl.take k)[p + 1]? <;> rfl
    rw [hword]
    rfl
  case isFalse hcut =>
    have hword : (Cursor.ofOffset (dl.take k) (p + 1)).word =
        .ok (Cursor.wordOf hi lo, .ofOffset (dl.take k) (p + 3)) := by
      rw [Cursor.word_ofOffset, List.getElem?_take_of_lt (by omega), hhi,
        List.getElem?_take_of_lt (by omega), hlo]
    have hshort : ¬ stride * c.count ≤ ((dl.take k).drop (p + 3)).length := by
      rw [List.length_drop, List.length_take]
      omega
    rw [hword, ok_bind]
    simp only [Cursor.toNat_wordOf, ← hcount, Cursor.bytes_ofOffset, if_neg hshort]
    rfl

theorem scanFrom_of_error {cur : Cursor} {e : Error} (h : Command.read stride cur = .error e)
    (done : Array Packet) : scanFrom stride first cur done = .error (.refused e) := by
  rw [scanFrom]
  split <;> simp_all

/-- A display list that is cut off inside a command is refused for the piece that is missing. -/
theorem scanFrom_take (h : Commands stride dl p first calls) (hp : p < k)
    (hk : k < stop stride p calls) (hcut : ∀ c ∈ calls, k ≠ c.source + stride * c.count)
    (done : Array Packet) :
    ∃ c ∈ calls, ∃ offset needed, c.missing stride k = (offset, needed) ∧
      scanFrom stride first (.ofOffset (dl.take k) p) done =
        .error (.refused (.truncatedList offset needed)) ∧
      offset ≤ k ∧ k < offset + needed := by
  induction h generalizing done with
  | done _ => exact absurd hk (by rw [stop]; omega)
  | @call p first b hi lo c calls hb hb0 hraw hdraws hhi hlo hcount hsource hfirst hroom hfit _
      ih =>
    rcases Nat.lt_trichotomy k (c.source + stride * c.count) with hlt | heq | hgt
    · have hread := read_take hb hb0 hraw hdraws hhi hlo hcount hsource hp hlt
      exact ⟨c, List.mem_cons_self, _, _, rfl, scanFrom_of_error hread done,
        missing_bounds hp hsource hlt⟩
    · exact absurd heq (hcut c List.mem_cons_self)
    · -- The command is not touched, and the cut is in one of those behind it.
      obtain ⟨d, hd, offset, needed, hmissing, hscan, hbounds⟩ :=
        ih hgt hk (fun d hd => hcut d (List.mem_cons_of_mem c hd))
          (done.push (packetOf (dl.take k) c))
      refine ⟨d, List.mem_cons_of_mem c hd, offset, needed, hmissing, ?_, hbounds⟩
      have hroom' : p + 3 + stride * (256 * hi.toNat + lo.toNat) ≤ (dl.take k).length := by
        rw [List.length_take, ← hsource, ← hcount]
        omega
      have hget : ∀ {q : Nat} {x : UInt8}, q < k → dl[q]? = some x → (dl.take k)[q]? = some x :=
        fun hq hx => (List.getElem?_take_of_lt hq).trans hx
      have hread := read_eq_ok (hget hp hb) hb0 hraw hdraws (hget (by omega) hhi)
        (hget (by omega) hlo) hroom'
      rw [scanFrom_of_command hread, ← hcount, checkWord_of_lt hfit, ok_bind, ← hsource, ← hscan,
        Packet.ofCommand, packetOf, ← hfirst]
      rfl

end Take
end DisplayList

namespace Loader

open DisplayList (stop stop_le stop_concat scanFrom_take)

/-- How a loader scans what is left of a display list with the given draw calls. -/
structure CutOff (l : Loader) (dl : List UInt8) (calls : List DrawCall) : Prop where
  /-- The calls are followed by a zero byte or by nothing. -/
  ended : dl[stop l.layout.sourceStride 0 calls]? = some 0 ∨
    stop l.layout.sourceStride 0 calls = dl.length
  /-- Each call follows the ones before it with a byte that is not zero. -/
  begun : ∀ before c after, calls = before ++ c :: after →
    ∃ b, dl[stop l.layout.sourceStride 0 before]? = some b ∧ b ≠ 0
  /-- Nothing is found in nothing. -/
  front : l.drawCalls (dl.take 0) = .ok []
  /-- Cut off behind a call, the list holds the calls up to there. -/
  between : ∀ before c after, calls = before ++ c :: after →
    l.drawCalls (dl.take (c.source + l.layout.sourceStride * c.count)) = .ok (before ++ [c])
  /-- Cut off anywhere else, the list is refused for the piece that is missing. -/
  inside : ∀ k, 0 < k → k < stop l.layout.sourceStride 0 calls →
    (∀ c ∈ calls, k ≠ c.source + l.layout.sourceStride * c.count) →
      ∃ c ∈ calls, ∃ offset needed, c.missing l.layout.sourceStride k = (offset, needed) ∧
        l.drawCalls (dl.take k) = .error (.refused (.truncatedList offset needed)) ∧
        offset ≤ k ∧ k < offset + needed
  /-- Behind the calls nothing is missing. -/
  behind : ∀ k, stop l.layout.sourceStride 0 calls < k → l.drawCalls (dl.take k) = .ok calls
  /-- Behind the zero byte other bytes can follow. -/
  replaced : dl[stop l.layout.sourceStride 0 calls]? = some 0 → ∀ rest,
    l.drawCalls (dl.take (stop l.layout.sourceStride 0 calls + 1) ++ rest) = .ok calls

section Cut

variable {l : Loader} {dl dl' : List UInt8} {calls before after : List DrawCall}

/-- A display list that has the bytes of the first calls, and ends behind them, holds these. -/
theorem drawCalls_front (h : l.drawCalls dl = .ok (before ++ after))
    (hlen : stop l.layout.sourceStride 0 before ≤ dl'.length)
    (hget : ∀ q < stop l.layout.sourceStride 0 before, dl'[q]? = dl[q]?)
    (hend : dl'[stop l.layout.sourceStride 0 before]? = none ∨
      dl'[stop l.layout.sourceStride 0 before]? = some 0) :
    l.drawCalls dl' = .ok before :=
  drawCalls_eq_ok_iff.mpr ((drawCalls_eq_ok_iff.mp h).front hlen hget hend)

/-- Cut off behind some calls, a display list holds these. -/
theorem drawCalls_take_stop (h : l.drawCalls dl = .ok (before ++ after)) :
    l.drawCalls (dl.take (stop l.layout.sourceStride 0 before)) = .ok before := by
  have hle := stop_le (drawCalls_eq_ok_iff.mp h) (Nat.zero_le _)
  have hlen := List.length_take_of_le hle
  exact drawCalls_front h (Nat.le_of_eq hlen.symm) (fun q hq => List.getElem?_take_of_lt hq)
    (.inl (List.getElem?_eq_none (Nat.le_of_eq hlen)))

/-- Cutting off a display list is noticed, or what is left are the calls up to there. -/
theorem drawCalls_cut (h : l.drawCalls dl = .ok calls) : l.CutOff dl calls := by
  have hcalls := drawCalls_eq_ok_iff.mp h
  have hall : l.drawCalls dl = .ok (calls ++ []) := by rwa [List.append_nil]
  have hle := stop_le (drawCalls_eq_ok_iff.mp hall) (Nat.zero_le _)
  constructor
  case ended =>
    rcases hcalls.ended with hnone | hzero
    · exact .inr (Nat.le_antisymm hle (List.getElem?_eq_none_iff.mp hnone))
    · exact .inl hzero
  case begun =>
    rintro before c after rfl
    exact hcalls.begun
  case front =>
    rw [← List.nil_append calls] at h
    exact drawCalls_take_stop h
  case between =>
    rintro before c after rfl
    rw [← stop_concat l.layout.sourceStride 0 before c]
    rw [List.append_cons] at h
    exact drawCalls_take_stop h
  case inside =>
    intro k hpos hk hcut
    obtain ⟨c, hc, offset, needed, hmissing, hscan, hbounds⟩ :=
      scanFrom_take hcalls hpos hk hcut #[]
    have hpackets : l.packets (dl.take k) =
        .error (.refused (.truncatedList offset needed)) := hscan
    refine ⟨c, hc, offset, needed, hmissing, ?_, hbounds⟩
    rw [drawCalls, hpackets]
    rfl
  case behind =>
    intro k hk
    refine drawCalls_front hall ?_ (fun q hq => List.getElem?_take_of_lt (by omega)) ?_
    · rw [List.length_take]
      omega
    · rw [List.getElem?_take_of_lt hk]
      exact hcalls.ended
  case replaced =>
    intro hzero rest
    have hlt := (List.getElem?_eq_some_iff.mp hzero).1
    have hget : ∀ q ≤ stop l.layout.sourceStride 0 calls,
        (dl.take (stop l.layout.sourceStride 0 calls + 1) ++ rest)[q]? = dl[q]? := by
      intro q hq
      rw [List.getElem?_append_left (by rw [List.length_take]; omega),
        List.getElem?_take_of_lt (by omega)]
    refine drawCalls_front hall ?_ (fun q hq => hget q (by omega)) (.inr ?_)
    · rw [List.length_append, List.length_take]
      omega
    · rw [hget _ (Nat.le_refl _), hzero]

end Cut

namespace Sample

/-- The draw calls of the display list. -/
def calls : List DrawCall :=
  [⟨.triangleStrip, 3, 2, 0⟩, ⟨.triangleFan, 22, 1, 2⟩]

end Sample

/-- The display list ends with a zero byte behind both calls. -/
theorem drawCalls_cut_sample :
    Sample.loader.drawCalls Sample.list = .ok Sample.calls ∧ stop 8 0 Sample.calls = 30 ∧
      Sample.list[30]? = some 0 ∧ Sample.loader.CutOff Sample.list Sample.calls := by
  have h : Sample.loader.drawCalls Sample.list = .ok Sample.calls := by decide +kernel
  exact ⟨h, rfl, rfl, drawCalls_cut h⟩

end Loader
end FixedFunction
