import FixedFunction.Proofs.Lz.Body
import FixedFunction.Proofs.Lz.Offsets
import FixedFunction.Proofs.Lz.RoundTrip

/-!
# What becomes of a buffer

Any bytes at all can be given to the decoder.  It answers with an output that the bytes are an
encoding of, or it names the first place where they are none.

**Invariant.**  From each state on, the steps that are read off the body complete the output so far
to what is answered, or to what was there when a back reference went astray.

**Results.**
* `getElem?_copyBack`: a copied byte is the byte at its distance.
* `Produces`: the steps that are read off a body, and what they make of the output so far.
* `decodeFrom_ends`: how the decoding of a body ends.
* `Encodes`, `decompress_of_encodes`: a buffer that encodes an output is decoded to it.
* `Outcome`: the answers to a buffer, each with its reason.
* `decompress_outcome`: every buffer is answered in this way, whichever way its bytes are read.
-/

namespace FixedFunction
namespace Lz

/-! ### Copies -/

theorem prefix_push (out : Array UInt8) (b : UInt8) : out.toList <+: (out.push b).toList := by
  rw [Array.toList_push]
  exact List.prefix_append _ _

theorem prefix_copyBack (d n : Nat) (out : Array UInt8) :
    out.toList <+: (copyBack d n out).toList := by
  induction n generalizing out with
  | zero => exact List.prefix_refl _
  | succ n ih => exact (prefix_push out _).trans (ih _)

theorem getElem?_of_extends {out r : Array UInt8} (h : out.toList <+: r.toList) {i : Nat}
    (hi : i < out.size) : r[i]? = out[i]? := by
  obtain ⟨rest, hrest⟩ := h
  rw [← Array.getElem?_toList, ← hrest, List.getElem?_append_left (by simpa using hi),
    Array.getElem?_toList]

/-- A copied byte is the byte at its distance, also where that was copied itself. -/
theorem getElem?_copyBack {d : Nat} (hd : 1 ≤ d) (n : Nat) {out : Array UInt8}
    (hdo : d ≤ out.size) {i : Nat} (hi : out.size ≤ i) (hin : i < out.size + n) :
    (copyBack d n out)[i]? = (copyBack d n out)[i - d]? := by
  induction n generalizing out with
  | zero => omega
  | succ n ih =>
    rw [copyBack]
    rcases Nat.lt_or_ge out.size i with hlt | hge
    · exact ih (by rw [Array.size_push]; omega) (by rw [Array.size_push]; omega)
        (by rw [Array.size_push]; omega)
    · obtain rfl : i = out.size := by omega
      have hkept := prefix_copyBack d n (out.push (out.getD (out.size - d) 0))
      rw [getElem?_of_extends hkept (by simp),
        getElem?_of_extends ((prefix_push out _).trans hkept) (by omega), Array.getElem?_push_size,
        Array.getD_eq_getD_getElem?, Array.getElem?_eq_getElem (by omega), Option.getD_some]

/-! ### Steps -/

/-- Number of bytes that a step produces. -/
def Step.size : Step → Nat
  | literal _ => 1
  | copy _ n => n

/-- Number of bytes that several steps produce. -/
def Step.total (steps : List Step) : Nat :=
  steps.foldr (fun s n => s.size + n) 0

theorem Factors.eq_nil_of_le {data : List UInt8} {p : Nat} {steps : List Step}
    (h : Factors data p steps) (hp : data.length ≤ p) : steps = [] := by
  cases h with
  | done _ => rfl
  | literal hb _ =>
    have := (List.getElem?_eq_some_iff.mp hb).1
    omega
  | copy hlt => omega

/-- The body begins with `steps` and `more`, and `steps` complete the output so far to `r`.  They run
past its end only if it has the declared size. -/
structure Produces (size : Nat) (pending : List Bool) (src : List UInt8) (out : Array UInt8)
    (steps more : List Step) (r : Array UInt8) : Prop where
  begins : Begins pending src (steps ++ more)
  factors : Factors r.toList out.size steps
  extends_out : out.toList <+: r.toList
  size_le : r.size ≤ size
  total_eq : r.size < size → out.size + Step.total steps = r.size

namespace Produces

variable {size : Nat} {pending : List Bool} {src : List UInt8} {out r : Array UInt8}
  {steps more : List Step}

theorem out_size_le (h : Produces size pending src out steps more r) : out.size ≤ r.size := by
  simpa using h.extends_out.length_le

theorem flag {f : UInt8} (h : Produces size (flags f) src out steps more r) :
    Produces size [] (f :: src) out steps more r :=
  ⟨.flag h.begins, h.factors, h.extends_out, h.size_le, h.total_eq⟩

theorem literal {b : UInt8} (h : Produces size pending src (out.push b) steps more r) :
    Produces size (false :: pending) (b :: src) out (.literal b :: steps) more r where
  begins := .literal h.begins
  factors := by
    have hb : r[out.size]? = some b := by
      rw [getElem?_of_extends h.extends_out (by simp), Array.getElem?_push_size]
    have hrest := h.factors
    rw [Array.size_push] at hrest
    exact .literal (by rwa [Array.getElem?_toList]) hrest
  extends_out := (prefix_push out b).trans h.extends_out
  size_le := h.size_le
  total_eq := by
    intro hlt
    have := h.total_eq hlt
    rw [Array.size_push] at this
    simp only [Step.total, List.foldr_cons, Step.size] at *
    omega

theorem copy {hi lo : UInt8} (hout : out.size < size) (hd : distance hi lo ≤ out.size)
    (h : Produces size pending src
      (copyBack (distance hi lo) (min (length hi) (size - out.size)) out) steps more r) :
    Produces size (true :: pending) (hi :: lo :: src) out
      (.copy (distance hi lo) (length hi) :: steps) more r where
  begins := .copy h.begins
  factors := by
    obtain ⟨hd1, hd2⟩ := distance_bounds hi lo
    obtain ⟨hn1, hn2⟩ := length_bounds hi
    have hsize := h.out_size_le
    have hle := h.size_le
    have hrest := h.factors
    have hlen : r.toList.length = r.size := Array.length_toList
    rw [size_copyBack] at hsize hrest
    refine .copy (by omega) hd1 hd2 hd hn1 hn2 ?_ ?_
    · intro j hj hjlen
      rw [Array.getElem?_toList, Array.getElem?_toList,
        getElem?_of_extends h.extends_out (by rw [size_copyBack]; omega),
        getElem?_of_extends h.extends_out (by rw [size_copyBack]; omega)]
      exact getElem?_copyBack hd1 _ hd (by omega) (by omega)
    · -- A copy that is cut off at the declared size is the last step.
      rcases Nat.le_total (length hi) (size - out.size) with hfull | hcut
      · rwa [Nat.min_eq_left hfull] at hrest
      · rw [Nat.min_eq_right hcut] at hrest
        obtain rfl := hrest.eq_nil_of_le (by omega)
        exact .done (by omega)
  extends_out := (prefix_copyBack _ _ out).trans h.extends_out
  size_le := h.size_le
  total_eq := by
    intro hlt
    have hsize := h.out_size_le
    have htotal := h.total_eq hlt
    rw [size_copyBack] at hsize htotal
    rw [Nat.min_eq_left (by omega)] at htotal
    simp only [Step.total, List.foldr_cons, Step.size] at *
    omega

end Produces

/-! ### The end of a body -/

/-- How the decoding of a body ends.  The output has the declared size, or a token asks for more
bytes than there are, or a byte is missing. -/
inductive Ends (total size : Nat) (pending : List Bool) (src : List UInt8) (out : Array UInt8) :
    Except Error (Array UInt8) → Prop
  | whole {steps : List Step} {r : Array UInt8} :
      Produces size pending src out steps [] r → r.size = size →
      Ends total size pending src out (.ok r)
  | astray {steps : List Step} {r : Array UInt8} {d n : Nat} :
      Produces size pending src out steps [.copy d n] r →
      r.size < d → d ≤ 4096 → 3 ≤ n → n ≤ 18 → r.size < size →
      Ends total size pending src out (.error (.badBackReference d r.size))
  | cut : Ends total size pending src out (.error (.truncatedStream total))

theorem Ends.imp {total size : Nat} {pending pending' : List Bool} {src src' : List UInt8}
    {out out' : Array UInt8} {x : Except Error (Array UInt8)}
    (h : Ends total size pending src out x)
    (hstep : ∀ steps more r, Produces size pending src out steps more r →
      ∃ steps', Produces size pending' src' out' steps' more r) :
    Ends total size pending' src' out' x := by
  cases h with
  | whole hproduces hsize =>
    obtain ⟨_, hproduces'⟩ := hstep _ _ _ hproduces
    exact .whole hproduces' hsize
  | astray hproduces hd hd' hn hn' hsize =>
    obtain ⟨_, hproduces'⟩ := hstep _ _ _ hproduces
    exact .astray hproduces' hd hd' hn hn' hsize
  | cut => exact .cut

theorem decodeFrom_ends {total size : Nat} {pending : List Bool} {src : List UInt8}
    {out : Array UInt8} (hout : out.size ≤ size) :
    Ends total size pending src out (decodeFrom total size pending src out) := by
  induction pending, src, out using @decodeFrom_induction size with
  | done pending src out hsize =>
    rw [decodeFrom_of_le hsize]
    have hproduces : Produces size pending src out [] [] out :=
      ⟨.nil, .done (by simp), List.prefix_refl _, hout, fun h => rfl⟩
    exact .whole hproduces (by omega)
  | flag f src out hsize ih =>
    rw [decodeFrom_flag hsize]
    exact (ih hout).imp fun _ _ _ h => ⟨_, h.flag⟩
  | literal pending b src out hsize ih =>
    rw [decodeFrom_literal hsize]
    exact (ih (by rw [Array.size_push]; omega)).imp fun _ _ _ h => ⟨_, h.literal⟩
  | far pending hi lo src out hsize hd =>
    rw [decodeFrom_far hsize hd]
    obtain ⟨_, hd2⟩ := distance_bounds hi lo
    obtain ⟨hn1, hn2⟩ := length_bounds hi
    have hproduces : Produces size (true :: pending) (hi :: lo :: src) out []
        [.copy (distance hi lo) (length hi)] out :=
      ⟨.copy .nil, .done (by simp), List.prefix_refl _, hout, fun h => rfl⟩
    exact .astray hproduces hd hd2 hn1 hn2 hsize
  | copy pending hi lo src out hsize hd ih =>
    rw [decodeFrom_copy hsize hd]
    refine (ih ?_).imp fun _ _ _ h => ⟨_, h.copy hsize hd⟩
    rw [size_copyBack]
    omega
  | missing pending out hsize =>
    rw [decodeFrom_nil hsize]
    exact .cut
  | half pending hi out hsize =>
    rw [decodeFrom_half hsize]
    exact .cut

/-- The buffer declares the size of the output, and its body begins with the encoding of a
factorization of the output. -/
def Encodes (src : List UInt8) (out : Array UInt8) : Prop :=
  uncompressedSize src = .ok out.size ∧
    ∃ spare rest steps, Factors out.toList 0 steps ∧
      src.drop headerSize = encodeBody spare steps ++ rest

/-- The answers to a buffer.  A buffer without the magic is plain.  One with it has an output that it
is an encoding of, or is no encoding and ends too early, or has a token that asks for more bytes
than the steps before it produce. -/
inductive Outcome (src : List UInt8) : Except Error (Array UInt8) → Prop
  | plain : ¬magic <+: src → Outcome src (.error .notCompressed)
  | whole {out : Array UInt8} : Encodes src out → Outcome src (.ok out)
  | cut : magic <+: src → (∀ out, ¬Encodes src out) →
      Outcome src (.error (.truncatedStream src.length))
  | astray {spare : UInt8} {rest data : List UInt8} {steps : List Step} {size d n : Nat} :
      uncompressedSize src = .ok size →
      data.length < size →
      Factors data 0 steps →
      Step.total steps = data.length →
      data.length < d → d ≤ 4096 → 3 ≤ n → n ≤ 18 →
      src.drop headerSize = encodeBody spare (steps ++ [.copy d n]) ++ rest →
      Outcome src (.error (.badBackReference d data.length))

theorem decompress_of_encodes {src : List UInt8} {out : Array UInt8} (h : Encodes src out) :
    decompress src = .ok out := by
  obtain ⟨hheader, spare, rest, steps, hfactors, hbody⟩ := h
  obtain ⟨hsize, body, rfl⟩ := uncompressedSize_eq_ok_iff.mp hheader
  rw [drop_header] at hbody
  rw [decompress_eq hsize, hbody]
  exact decodeFrom_of_factors hfactors [] steps [] rfl fun _ => rfl

theorem outcome_of_header_error {src : List UInt8} {e : Error}
    (h : uncompressedSize src = .error e) : Outcome src (.error e) := by
  have hnone : ∀ out, ¬Encodes src out := fun out henc => by
    rw [henc.1] at h
    simp at h
  rw [uncompressedSize] at h
  split at h
  case isFalse hmagic =>
    obtain rfl := Except.error.inj h
    exact .plain fun hpre => hmagic (isCompressed_eq_true_iff.mpr hpre)
  case isTrue hmagic =>
    split at h
    case h_1 => simp at h
    case h_2 =>
      obtain rfl := Except.error.inj h
      exact .cut (isCompressed_eq_true_iff.mp hmagic) hnone

theorem outcome_of_header {src : List UInt8} {size : Nat} (hheader : uncompressedSize src = .ok size)
    {x : Except Error (Array UInt8)} (h : decompress src = x)
    (hends : Ends src.length size [] (src.drop headerSize) #[] x) : Outcome src x := by
  cases hends with
  | whole hproduces hr =>
    obtain ⟨spare, rest, hrest⟩ := hproduces.begins.exists_encodeBody
    rw [List.append_nil] at hrest
    exact .whole ⟨hr ▸ hheader, spare, rest, _, hproduces.factors, hrest⟩
  | @astray steps r d n hproduces hd hd' hn hn' hr =>
    obtain ⟨spare, rest, hrest⟩ := hproduces.begins.exists_encodeBody
    have htotal := hproduces.total_eq hr
    rw [Array.size_empty, Nat.zero_add] at htotal
    have houtcome : Outcome src (.error (.badBackReference d r.toList.length)) :=
      .astray hheader hr hproduces.factors htotal hd hd' hn hn' hrest
    exact houtcome
  | cut =>
    obtain ⟨_, body, hsrc⟩ := uncompressedSize_eq_ok_iff.mp hheader
    refine .cut (hsrc ▸ starts_with_magic size body) fun out henc => ?_
    rw [decompress_of_encodes henc] at h
    simp at h

theorem outcome_decompress (src : List UInt8) : Outcome src (decompress src) := by
  cases hheader : uncompressedSize src with
  | error e =>
    rw [decompress, hheader]
    exact outcome_of_header_error hheader
  | ok size =>
    refine outcome_of_header hheader rfl ?_
    rw [decompress, hheader]
    exact decodeFrom_ends (Nat.zero_le size)

/-- Whatever the bytes are, reading them by offsets stays inside the buffer and the output and inside
the words, and it answers the output that the bytes are an encoding of or the first defect. -/
theorem decompress_outcome {src : List UInt8} (hsrc : src.length < 1 <<< 64) :
    decompressAt src = liftM (decompress src) ∧
    Outcome src (decompress src) ∧
    (decompress src = .error .notCompressed ↔ ¬magic <+: src) := by
  refine ⟨decompressAt_eq hsrc, outcome_decompress src, fun h => ?_, fun h => ?_⟩
  · have houtcome := outcome_decompress src
    rw [h] at houtcome
    cases houtcome with
    | plain hmagic => exact hmagic
  · rw [decompress, uncompressedSize, if_neg fun hc => h (isCompressed_eq_true_iff.mp hc)]
    rfl

/-- A literal and a token that reaches five bytes back. -/
def Sample.astray : List UInt8 :=
  magic ++ sizeBytes 10 ++ [0x40, 7, 0x00, 0x04, 0xFF]

theorem decompress_outcome_astray :
    Sample.astray.length < 1 <<< 64 ∧
    decompressAt Sample.astray = liftM (decompress Sample.astray) ∧
    Outcome Sample.astray (decompress Sample.astray) ∧
    (decompress Sample.astray = .error .notCompressed ↔ ¬magic <+: Sample.astray) :=
  have hsrc : Sample.astray.length < 1 <<< 64 := by decide
  ⟨hsrc, decompress_outcome hsrc⟩

example : decompress Sample.astray = .error (.badBackReference 5 1) := by
  rfl

end Lz
end FixedFunction
