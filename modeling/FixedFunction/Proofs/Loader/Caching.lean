import FixedFunction.Loader.Cache
import FixedFunction.Proofs.Loader.Run
import Mathlib.Data.List.Dedup
import Mathlib.Data.List.Induction

/-!
# What a cache answers

**Input.**  Any list of requests to a new cache.  Formats that compile, formats that do not, and
repetitions may stand in it in any order.

**Invariant.**  No two entries have the same format, and the loader of an entry is the one that its
format compiles to (`Cache.Faithful`).  Entries are added at the end and never change.

**Results.**
* `compile_cases`: a request finds an entry, adds one, or is refused.
* `mem_keys_after`: the formats with an entry are those requests that compile.
* `answer_served`: the number of entries, and for one request between any others what it is
  answered and what its number stands for from then on.
-/

namespace FixedFunction

/-- Whether a format has a loader. -/
def Loader.compiles (f : VertexFormat) : Bool :=
  (Loader.compile f).isOk

theorem Loader.compiles_iff {f : VertexFormat} :
    Loader.compiles f = true ↔ ∃ l, Loader.compile f = .ok l := by
  rw [Loader.compiles]
  cases Loader.compile f <;> simp [Except.isOk, Except.toBool]

theorem Loader.format_of_compile {f : VertexFormat} {l : Loader} (h : Loader.compile f = .ok l) :
    l.format = f := by
  obtain ⟨layout, _, rfl⟩ := map_eq_ok.mp h
  rfl

namespace Cache

/-- The formats with an entry. -/
def keys (c : Cache) : List VertexFormat :=
  c.entries.toList.map Prod.fst

@[simp]
theorem keys_empty : empty.keys = [] := rfl

@[simp]
theorem keys_insert (c : Cache) (f : VertexFormat) (l : Loader) :
    (c.insert f l).keys = c.keys ++ [f] := by
  simp [keys, insert]

theorem length_keys (c : Cache) : c.keys.length = c.size := by
  simp [keys, size]

theorem mem_keys_of_entry {c : Cache} {id : Nat} {f : VertexFormat} {l : Loader}
    (h : c.entries[id]? = some (f, l)) : f ∈ c.keys :=
  List.mem_map.mpr ⟨(f, l), by simpa using Array.mem_of_getElem? h, rfl⟩

/-- What one request does. -/
theorem compile_cases (c : Cache) (f : VertexFormat) :
    (∃ id l, c.entries[id]? = some (f, l) ∧ c.compile f = (.ok id, c)) ∨
    (∃ l, f ∉ c.keys ∧ Loader.compile f = .ok l ∧ c.compile f = (.ok c.size, c.insert f l)) ∨
    (∃ e, f ∉ c.keys ∧ Loader.compile f = .error e ∧ c.compile f = (.error e, c)) := by
  cases hfind : c.find? f with
  | some id =>
    obtain ⟨hid, hf, _⟩ := Array.findIdx?_eq_some_iff_getElem.mp hfind
    refine .inl ⟨id, c.entries[id].2, ?_, by simp [compile, hfind]⟩
    rw [Array.getElem?_eq_getElem hid]
    exact congrArg some (Prod.ext (of_decide_eq_true hf) rfl)
  | none =>
    have hnew : f ∉ c.keys := by
      intro hf
      obtain ⟨entry, hentry, rfl⟩ := List.mem_map.mp hf
      have := Array.findIdx?_eq_none_iff.mp hfind entry (Array.mem_toList_iff.mp hentry)
      simp at this
    cases hl : Loader.compile f with
    | ok l => exact .inr (.inl ⟨l, hnew, rfl, by simp [compile, hfind, hl]⟩)
    | error e => exact .inr (.inr ⟨e, hnew, rfl, by simp [compile, hfind, hl]⟩)

/-! ### One request -/

/-- Entries differ in their formats, and each loader is the one that its format compiles to. -/
structure Faithful (c : Cache) : Prop where
  nodup : c.keys.Nodup
  compiled : ∀ (id : Nat) f l, c.entries[id]? = some (f, l) → Loader.compile f = .ok l

theorem faithful_empty : empty.Faithful where
  nodup := List.nodup_nil
  compiled := by simp [empty]

section Request

variable {c : Cache}

theorem entry_insert {id : Nat} {entry : VertexFormat × Loader} (f : VertexFormat) (l : Loader) :
    (c.insert f l).entries[id]? = some entry ↔
      c.entries[id]? = some entry ∨ id = c.size ∧ entry = (f, l) := by
  rw [insert, size, Array.getElem?_push]
  split
  case isTrue h => simp [h, eq_comm]
  case isFalse h => simp [h]

theorem Faithful.insert (h : c.Faithful) {f : VertexFormat} {l : Loader} (hf : f ∉ c.keys)
    (hl : Loader.compile f = .ok l) : (c.insert f l).Faithful where
  nodup := by
    rw [keys_insert, List.nodup_append]
    refine ⟨h.nodup, List.nodup_singleton f, ?_⟩
    rintro g hg _ hgf rfl
    exact hf (List.mem_singleton.mp hgf ▸ hg)
  compiled := by
    intro id g m hentry
    rcases (entry_insert f l).mp hentry with hold | ⟨_, hnew⟩
    · exact h.compiled id g m hold
    · cases hnew
      exact hl

theorem Faithful.compile (h : c.Faithful) (f : VertexFormat) : (c.compile f).2.Faithful := by
  rcases c.compile_cases f with ⟨id, l, _, hc⟩ | ⟨l, hf, hl, hc⟩ | ⟨e, _, _, hc⟩
  · rwa [hc]
  · rw [hc]
    exact h.insert hf hl
  · rwa [hc]

theorem Faithful.number_inj (h : c.Faithful) {f : VertexFormat} {l m : Loader} {i j : Nat}
    (hi : c.entries[i]? = some (f, l)) (hj : c.entries[j]? = some (f, m)) : i = j := by
  have hki : c.keys[i]? = some f := by simp [keys, hi]
  have hkj : c.keys[j]? = some f := by simp [keys, hj]
  obtain ⟨hlt, _⟩ := List.getElem?_eq_some_iff.mp hki
  exact (List.getElem?_inj hlt h.nodup).mp (hki.trans hkj.symm)

/-- A format that does not compile is refused whatever is in the cache, and the cache stays. -/
theorem Faithful.compile_error (h : c.Faithful) {f : VertexFormat} {e : Error}
    (he : Loader.compile f = .error e) : c.compile f = (.error e, c) := by
  rcases c.compile_cases f with ⟨id, l, hentry, _⟩ | ⟨l, _, hl, _⟩ | ⟨e', _, he', hc⟩
  · rw [h.compiled id f l hentry] at he
    contradiction
  · rw [hl] at he
    contradiction
  · rw [he] at he'
    cases he'
    exact hc

/-- A format that compiles is answered with the number of an entry that holds its loader. -/
theorem Faithful.compile_ok (h : c.Faithful) {f : VertexFormat} {l : Loader}
    (hl : Loader.compile f = .ok l) :
    ∃ id, (c.compile f).1 = .ok id ∧ (c.compile f).2.entries[id]? = some (f, l) := by
  rcases c.compile_cases f with ⟨id, m, hentry, hc⟩ | ⟨m, _, hm, hc⟩ | ⟨e, _, he, _⟩
  · obtain rfl : m = l := Except.ok.inj ((h.compiled id f m hentry).symm.trans hl)
    exact ⟨id, by rw [hc], by rwa [hc]⟩
  · obtain rfl : m = l := Except.ok.inj (hm.symm.trans hl)
    exact ⟨c.size, by rw [hc], by rw [hc]; exact (entry_insert f m).mpr (.inr ⟨rfl, rfl⟩)⟩
  · rw [he] at hl
    contradiction

theorem entry_compile {id : Nat} {entry : VertexFormat × Loader}
    (h : c.entries[id]? = some entry) (f : VertexFormat) :
    (c.compile f).2.entries[id]? = some entry := by
  rcases c.compile_cases f with ⟨_, _, _, hc⟩ | ⟨l, _, _, hc⟩ | ⟨_, _, _, hc⟩
  · rwa [hc]
  · rw [hc]
    exact (entry_insert f l).mpr (.inl h)
  · rwa [hc]

theorem mem_keys_compile {f g : VertexFormat} :
    g ∈ (c.compile f).2.keys ↔ g ∈ c.keys ∨ g = f ∧ Loader.compiles f = true := by
  rw [Loader.compiles_iff]
  rcases c.compile_cases f with ⟨id, l, hentry, hc⟩ | ⟨l, _, hl, hc⟩ | ⟨e, _, he, hc⟩
  · rw [hc]
    refine ⟨.inl, ?_⟩
    rintro (hg | ⟨rfl, _⟩)
    · exact hg
    · exact mem_keys_of_entry hentry
  · simp [hc, hl]
  · simp [hc, he]

end Request

/-! ### Any list of requests -/

/-- The cache after the given requests to a new one. -/
def after (requests : List VertexFormat) : Cache :=
  requests.foldl (fun c f => (c.compile f).2) empty

/-- What a request is answered that follows the given ones. -/
def answer (before : List VertexFormat) (f : VertexFormat) : Except Error Nat :=
  ((after before).compile f).1

theorem after_concat (before : List VertexFormat) (f : VertexFormat) :
    after (before ++ [f]) = ((after before).compile f).2 := by
  simp [after]

theorem faithful_after (requests : List VertexFormat) : (after requests).Faithful := by
  induction requests using List.reverseRecOn with
  | nil => exact faithful_empty
  | append_singleton before f ih =>
    rw [after_concat]
    exact ih.compile f

/-- Entries stay under their numbers, whatever is requested later. -/
theorem entry_later {before : List VertexFormat} {id : Nat} {entry : VertexFormat × Loader}
    (h : (after before).entries[id]? = some entry) (later : List VertexFormat) :
    (after (before ++ later)).entries[id]? = some entry := by
  induction later using List.reverseRecOn with
  | nil => rwa [List.append_nil]
  | append_singleton later f ih =>
    rw [← List.append_assoc, after_concat]
    exact entry_compile ih f

/-- The formats with an entry are those requests that compile. -/
theorem mem_keys_after {requests : List VertexFormat} {f : VertexFormat} :
    f ∈ (after requests).keys ↔ f ∈ requests ∧ Loader.compiles f = true := by
  induction requests using List.reverseRecOn with
  | nil => simp [after]
  | append_singleton before g ih =>
    rw [after_concat, mem_keys_compile, ih, List.mem_append,
      List.mem_singleton]
    constructor
    · rintro (⟨hmem, hf⟩ | ⟨rfl, hf⟩)
      · exact ⟨.inl hmem, hf⟩
      · exact ⟨.inr rfl, hf⟩
    · rintro ⟨hmem | rfl, hf⟩
      · exact .inl ⟨hmem, hf⟩
      · exact .inr ⟨rfl, hf⟩

/-- There is one entry for each format that was requested and compiles. -/
theorem size_after (requests : List VertexFormat) :
    (after requests).size = (requests.filter Loader.compiles).dedup.length := by
  rw [← length_keys]
  refine List.Perm.length_eq ?_
  refine (List.perm_ext_iff_of_nodup (faithful_after requests).nodup (List.nodup_dedup _)).mpr ?_
  intro f
  rw [mem_keys_after, List.mem_dedup, List.mem_filter]

/-- A request that compiles is answered with the number of an entry, which holds its loader from
then on. -/
theorem answer_ok {f : VertexFormat} {l : Loader} (hl : Loader.compile f = .ok l)
    (before : List VertexFormat) :
    ∃ id, answer before f = .ok id ∧
      ∀ later, (after (before ++ f :: later)).entries[id]? = some (f, l) := by
  obtain ⟨id, hanswer, hentry⟩ := (faithful_after before).compile_ok hl
  rw [← after_concat] at hentry
  refine ⟨id, hanswer, fun later => ?_⟩
  rw [← List.singleton_append, ← List.append_assoc]
  exact entry_later hentry later

/-- Two requests are answered with the same number exactly if their formats are the same. -/
theorem answer_eq_iff {before between : List VertexFormat} {f g : VertexFormat} {i j : Nat}
    (hi : answer before f = .ok i) (hj : answer (before ++ f :: between) g = .ok j) :
    i = j ↔ f = g := by
  cases hf : Loader.compile f with
  | error e =>
    rw [answer, (faithful_after before).compile_error hf] at hi
    contradiction
  | ok l =>
    cases hg : Loader.compile g with
    | error e =>
      rw [answer, (faithful_after _).compile_error hg] at hj
      contradiction
    | ok m =>
      -- Both entries are looked up in the cache after the second request.
      obtain ⟨i', hi', hl⟩ := answer_ok hf before
      obtain ⟨j', hj', hm⟩ := answer_ok hg (before ++ f :: between)
      obtain rfl : i' = i := Except.ok.inj (hi'.symm.trans hi)
      obtain rfl : j' = j := Except.ok.inj (hj'.symm.trans hj)
      replace hl := hl (between ++ [g])
      replace hm := hm []
      rw [List.append_assoc, List.cons_append] at hm
      constructor
      · rintro rfl
        rw [hl, Option.some.injEq, Prod.mk.injEq] at hm
        exact hm.1
      · rintro rfl
        exact (faithful_after _).number_inj hl hm

/-- A cache has one entry for each format that was requested and compiles.  A request that does not
compile is refused as without a cache and changes nothing.  A request that compiles is answered
with a number that stands, whatever is requested later, for the loader that a fresh compilation
gives, and no request of another format is answered with that number. -/
theorem answer_served (before : List VertexFormat) (f : VertexFormat) :
    (after before).size = (before.filter Loader.compiles).dedup.length ∧
    ((after before).isEmpty = true ↔ (before.filter Loader.compiles).dedup.length = 0) ∧
    (∀ e, Loader.compile f = .error e →
      answer before f = .error e ∧ after (before ++ [f]) = after before) ∧
    ∀ fresh, Loader.compile f = .ok fresh →
      ∃ id, answer before f = .ok id ∧ fresh.format = f ∧
        (∀ later, (after (before ++ f :: later)).loader? id = some fresh) ∧
        ∀ between g id', answer (before ++ f :: between) g = .ok id' → (id = id' ↔ f = g) := by
  refine ⟨size_after before, ?_, ?_, ?_⟩
  · rw [isEmpty, size_after, beq_iff_eq]
  · intro e he
    rw [after_concat, answer, (faithful_after before).compile_error he]
    exact ⟨rfl, rfl⟩
  · intro fresh hfresh
    obtain ⟨id, hid, hentry⟩ := answer_ok hfresh before
    refine ⟨id, hid, Loader.format_of_compile hfresh, fun later => ?_, ?_⟩
    · rw [loader?, hentry later, Option.map_some]
    · exact fun between g id' hid' => answer_eq_iff hid hid'

/-- A format that is requested twice, with a format between that has no loader: positions have no
count of seven. -/
theorem answer_served_repeated :
    let broken := VertexFormat.ofEntries [⟨.pos, .direct, { count := 7 }⟩]
    (after [Loader.Sample.format, broken, Loader.Sample.format]).size = 1 ∧
    answer [Loader.Sample.format] broken = .error (.unsupportedCount .pos 7) ∧
    ∃ id, answer [] Loader.Sample.format = .ok id ∧
      (after [Loader.Sample.format, broken, Loader.Sample.format]).loader? id =
        some Loader.Sample.loader ∧
      ∀ id', answer [Loader.Sample.format, broken] Loader.Sample.format = .ok id' → id = id' := by
  intro broken
  obtain ⟨hsize, _, _, _⟩ :=
    answer_served [Loader.Sample.format, broken, Loader.Sample.format] Loader.Sample.format
  obtain ⟨_, _, hrefused, _⟩ := answer_served [Loader.Sample.format] broken
  obtain ⟨_, _, _, hserved⟩ := answer_served [] Loader.Sample.format
  obtain ⟨id, hid, _, hlater, hnumber⟩ := hserved _ Loader.Sample.compile_format
  refine ⟨hsize.trans (by decide +kernel), (hrefused _ rfl).1, id, hid, ?_, ?_⟩
  · exact hlater [broken, Loader.Sample.format]
  · exact fun id' hid' => (hnumber [broken] Loader.Sample.format id' hid').mpr rfl

end Cache
end FixedFunction
