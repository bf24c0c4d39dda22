import FixedFunction.Proofs.Loader.SingleVertex

/-!
# What a vertex depends on

Reading goes from the front and never looks behind the vertex that is read, nor at the bytes
before it.  Two streams give the same vertex if one continues the other from where it starts.

**Results.**
* `Cursor.bytes_mono`, `Cursor.byte_mono`, `Cursor.word_mono`: the same bytes are read where more
  bytes follow.
* `Loader.packVertices_mono`: the same vertices are read where more bytes follow.
* `Loader.packCalls_mono`: calls can be moved to another display list with their vertices.
* `Loader.packCalls_append`: the vertices of two lists of calls.
-/

namespace FixedFunction
namespace DisplayList
namespace Cursor

theorem bytes_mono {c c' d : Cursor} {n : Nat} {v : List UInt8} (h : c.bytes n = .ok (v, c'))
    (hpre : c.rest <+: d.rest) : ∃ d', d.bytes n = .ok (v, d') ∧ c'.rest <+: d'.rest := by
  obtain ⟨more, hmore⟩ := hpre
  rw [bytes_eq] at h
  split at h
  case isFalse => simp at h
  rename_i hroom
  obtain ⟨rfl, rfl⟩ : c.rest.take n = v ∧ _ = c' := by simpa using h
  refine ⟨⟨d.offset + n, c.rest.drop n ++ more⟩, ?_, List.prefix_append ..⟩
  rw [bytes_eq, ← hmore, if_pos (by rw [List.length_append]; omega),
    List.take_append_of_le_length hroom, List.drop_append_of_le_length hroom]

theorem byte_mono {c c' d : Cursor} {b : UInt8} (h : c.byte = .ok (b, c'))
    (hpre : c.rest <+: d.rest) : ∃ d', d.byte = .ok (b, d') ∧ c'.rest <+: d'.rest := by
  obtain ⟨more, hmore⟩ := hpre
  unfold byte at h
  split at h
  case h_2 => simp at h
  rename_i x rest hrest
  obtain ⟨rfl, rfl⟩ : x = b ∧ _ = c' := by simpa using h
  refine ⟨⟨d.offset + 1, rest ++ more⟩, ?_, List.prefix_append ..⟩
  simp [byte, ← hmore, hrest]

theorem word_mono {c c' d : Cursor} {w : UInt16} (h : c.word = .ok (w, c'))
    (hpre : c.rest <+: d.rest) : ∃ d', d.word = .ok (w, d') ∧ c'.rest <+: d'.rest := by
  obtain ⟨more, hmore⟩ := hpre
  unfold word at h
  split at h
  case h_2 => simp at h
  rename_i hi lo rest hrest
  obtain ⟨rfl, rfl⟩ : wordOf hi lo = w ∧ _ = c' := by simpa using h
  refine ⟨⟨d.offset + 2, rest ++ more⟩, ?_, List.prefix_append ..⟩
  simp [word, ← hmore, hrest]

end Cursor
end DisplayList

namespace Loader

open DisplayList (Cursor)

variable {arrays : VertexArrays} {c c' d : Cursor}

/-- An index that is read in the same way gives the same element. -/
theorem lookUp_mono {α : Type} {read : Cursor → Except Error (α × Cursor)}
    (hread : ∀ {c c' d : Cursor} {i : α}, read c = .ok (i, c') → c.rest <+: d.rest →
      ∃ d', read d = .ok (i, d') ∧ c'.rest <+: d'.rest)
    {f : α → Except Failure (List UInt8)} {v : List UInt8}
    (h : (do let (i, c) ← (read c : Except Failure _); return (← f i, c)) = .ok (v, c'))
    (hpre : c.rest <+: d.rest) :
    ∃ d', (do let (i, d) ← (read d : Except Failure _); return (← f i, d)) = .ok (v, d') ∧
      c'.rest <+: d'.rest := by
  obtain ⟨⟨i, c₁⟩, hi, h⟩ := bind_eq_ok.mp h
  obtain ⟨w, hw, h⟩ := bind_eq_ok.mp h
  obtain ⟨rfl, rfl⟩ : w = v ∧ c₁ = c' := by simpa [pure, Except.pure] using h
  obtain ⟨d', hd, hrest⟩ := hread (lift_eq_ok.mp hi) hpre
  refine ⟨d', ?_, hrest⟩
  simp only [hd, lift_ok, ok_bind, hw]
  rfl

theorem readValue_mono {t : Transfer} {v : List UInt8}
    (h : readValue arrays t c = .ok (v, c')) (hpre : c.rest <+: d.rest) :
    ∃ d', readValue arrays t d = .ok (v, d') ∧ c'.rest <+: d'.rest := by
  unfold readValue at h ⊢
  cases ht : t.source with
  | direct =>
    simp only [ht, lift_eq_ok] at h ⊢
    exact Cursor.bytes_mono h hpre
  | index8 =>
    simp only [ht] at h ⊢
    exact lookUp_mono (f := fun i => fetch arrays t i.toUInt16) Cursor.byte_mono h hpre
  | index16 =>
    simp only [ht] at h ⊢
    exact lookUp_mono (f := fetch arrays t) Cursor.word_mono h hpre

theorem readVertex_mono {stride base : Nat} {ts : List Transfer} {out out' : Array UInt8}
    (h : readVertex stride arrays base ts c out = .ok (c', out')) (hpre : c.rest <+: d.rest) :
    ∃ d', readVertex stride arrays base ts d out = .ok (d', out') ∧ c'.rest <+: d'.rest := by
  induction ts generalizing c d out with
  | nil =>
    obtain ⟨rfl, rfl⟩ : c = c' ∧ out = out' := by simpa [readVertex] using h
    exact ⟨d, rfl, hpre⟩
  | cons t ts ih =>
    rw [readVertex] at h
    obtain ⟨⟨v, c₁⟩, hread, h⟩ := bind_eq_ok.mp h
    obtain ⟨out₁, hwrite, h⟩ := bind_eq_ok.mp h
    obtain ⟨d₁, hd₁, hpre₁⟩ := readValue_mono hread hpre
    obtain ⟨d', hd', hrest⟩ := ih h hpre₁
    refine ⟨d', ?_, hrest⟩
    rw [readVertex, hd₁, ok_bind]
    simpa only [hwrite, ok_bind] using hd'

variable {l : Loader}

theorem packVertices_mono {n : Nat} {data : Array UInt8}
    (h : l.packVertices arrays n c = .ok (c', data)) (hpre : c.rest <+: d.rest) :
    ∃ d', l.packVertices arrays n d = .ok (d', data) ∧ c'.rest <+: d'.rest := by
  induction n generalizing c d data with
  | zero =>
    obtain ⟨rfl, rfl⟩ : c = c' ∧ #[] = data := by simpa [packVertices] using h
    exact ⟨d, rfl, hpre⟩
  | succ n ih =>
    rw [packVertices] at h
    obtain ⟨⟨c₁, vertex⟩, hvertex, h⟩ := bind_eq_ok.mp h
    obtain ⟨⟨c₂, vertices⟩, hvertices, h⟩ := bind_eq_ok.mp h
    obtain ⟨rfl, rfl⟩ : c₂ = c' ∧ vertex ++ vertices = data := by
      simpa [pure, Except.pure] using h
    obtain ⟨d₁, hd₁, hpre₁⟩ := readVertex_mono hvertex hpre
    obtain ⟨d', hd', hrest⟩ := ih hvertices hpre₁
    refine ⟨d', ?_, hrest⟩
    have hfirst : l.packVertex arrays d = .ok (d₁, vertex) := hd₁
    rw [packVertices, hfirst, ok_bind]
    simp only [hd', ok_bind]
    rfl

/-- Calls keep their vertices where the bytes of these are the same and more bytes follow. -/
theorem packCalls_mono {dl dl' : List UInt8} {calls : List DrawCall} {data : Array UInt8}
    (h : l.packCalls arrays dl calls = .ok data) {g : DrawCall → DrawCall}
    (hg : ∀ c, c ∈ calls → (g c).count = c.count ∧ dl.drop c.source <+: dl'.drop (g c).source) :
    l.packCalls arrays dl' (calls.map g) = .ok data := by
  induction calls generalizing data with
  | nil => exact h
  | cons c calls ih =>
    rw [List.forall_mem_cons] at hg
    rw [packCalls] at h
    obtain ⟨⟨c', vertices⟩, hvertices, h⟩ := bind_eq_ok.mp h
    obtain ⟨rest, hrest, h⟩ := bind_eq_ok.mp h
    have hpre : (Cursor.ofOffset dl c.source).rest <+: (Cursor.ofOffset dl' (g c).source).rest :=
      hg.1.2
    obtain ⟨d', hd', _⟩ := packVertices_mono hvertices hpre
    rw [List.map_cons, packCalls, hg.1.1, hd', ok_bind]
    simp only [ih hrest hg.2, ok_bind]
    exact h

theorem packCalls_append {dl : List UInt8} {calls calls' : List DrawCall}
    {data data' : Array UInt8} (h : l.packCalls arrays dl calls = .ok data)
    (h' : l.packCalls arrays dl calls' = .ok data') :
    l.packCalls arrays dl (calls ++ calls') = .ok (data ++ data') := by
  induction calls generalizing data with
  | nil =>
    obtain rfl : #[] = data := by simpa [packCalls] using h
    simpa using h'
  | cons c calls ih =>
    rw [packCalls] at h
    obtain ⟨⟨c', vertices⟩, hvertices, h⟩ := bind_eq_ok.mp h
    obtain ⟨rest, hrest, h⟩ := bind_eq_ok.mp h
    obtain rfl : vertices ++ rest = data := Except.ok.inj h
    rw [List.cons_append, packCalls, hvertices, ok_bind]
    simp only [ih hrest, ok_bind, Array.append_assoc]
    rfl

end Loader
end FixedFunction
