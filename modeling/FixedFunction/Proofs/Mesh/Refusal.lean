import FixedFunction.Proofs.Mesh.Joining

/-!
# Why meshes are not joined

Meshes that were put together by hand may hold any numbers, so each sum that is taken when they are
joined may leave its word.  The vertices are added before their number is compared with the limit,
and the draw calls and triangles behind it are compared with none.

**Algorithm.**  Each mesh passes a row of checks before the next is looked at.  The first check that
fails decides, and a sum that leaves its word stops the machine.

**Results.**
* `Mesh.Blocked`: the first check that a mesh fails.
* `Mesh.append_eq_error_iff`, `Mesh.foldlM_append_eq_error_iff`: one step, and all steps.
* `Mesh.Sums`: the numbers of a joined mesh are the sums of those of its parts.
* `Mesh.join_sums`: exactly which meshes are joined, refused, or stop the machine.
* `Mesh.join_stops_uncounted`: meshes with too many vertices that are not refused for it.
-/

namespace FixedFunction
namespace Mesh

/-- The failure of the first check that `n` does not pass, when it is appended to `base` vertices
and `triangles` triangles. -/
inductive Blocked (stride base triangles : Nat) (n : Mesh) : Failure → Prop
  | stride : n.stride ≠ stride →
      Blocked stride base triangles n (.refused (.strideMismatch stride n.stride))
  | count : n.stride = stride → 1 <<< 32 ≤ base + n.vertexCount →
      Blocked stride base triangles n (.stopped .overflow)
  | room : n.stride = stride → base + n.vertexCount < 1 <<< 32 →
      maxVertices < base + n.vertexCount →
      Blocked stride base triangles n (.refused (.tooManyVertices (base + n.vertexCount)))
  | index {before after : List UInt16} {i : UInt16} : n.stride = stride →
      base + n.vertexCount ≤ maxVertices → n.indices.toList = before ++ i :: after →
      (∀ j, j ∈ before → j.toNat < n.vertexCount) → n.vertexCount ≤ i.toNat →
      Blocked stride base triangles n (.refused (.indexOutOfRange i n.vertexCount))
  | call {c : DrawCall} : n.stride = stride → base + n.vertexCount ≤ maxVertices →
      (∀ i, i ∈ n.indices → i.toNat < n.vertexCount) → c ∈ n.calls → 1 <<< 32 ≤ c.first + base →
      Blocked stride base triangles n (.stopped .overflow)
  | triangles : n.stride = stride → base + n.vertexCount ≤ maxVertices →
      (∀ i, i ∈ n.indices → i.toNat < n.vertexCount) → 1 <<< 32 ≤ triangles + n.triangleCount →
      Blocked stride base triangles n (.stopped .overflow)

variable {m n r : Mesh} {meshes : List Mesh}

/-! ### One step -/

theorem mapM_rebase_of_le {base : Nat} {calls : List DrawCall}
    (h : ∃ c, c ∈ calls ∧ 1 <<< 32 ≤ c.first + base) :
    calls.mapM (rebase base) = .error (.stopped .overflow) := by
  induction calls with
  | nil => simp at h
  | cons d calls ih =>
    rw [List.mapM_cons, rebase]
    rcases Nat.lt_or_ge (d.first + base) (1 <<< 32) with hfit | hover
    · obtain ⟨c, hc, h⟩ := h
      rcases List.mem_cons.mp hc with rfl | hc
      · omega
      · rw [checkWord_of_lt hfit]
        simp only [ok_bind, pure_bind, ih ⟨c, hc, h⟩, error_bind]
    · rw [checkWord_of_le hover]
      rfl

theorem foldlM_rebaseIndex_of_le {base : Nat} (hroom : base + n.vertexCount ≤ maxVertices)
    {before after : List UInt16} {i : UInt16} (hsplit : n.indices.toList = before ++ i :: after)
    (hbefore : ∀ j, j ∈ before → j.toNat < n.vertexCount) (hi : n.vertexCount ≤ i.toNat)
    (out : Array UInt16) :
    n.indices.foldlM (fun out i => return out.push (← rebaseIndex base n.vertexCount i)) out =
      .error (.refused (.indexOutOfRange i n.vertexCount)) := by
  rw [← Array.foldlM_toList, hsplit, List.foldlM_append,
    (foldlM_push_eq_ok (rebaseIndex_eq_ok hroom)).mpr ⟨hbefore, rfl⟩, ok_bind, List.foldlM_cons,
    rebaseIndex, if_pos hi]
  rfl

/-- The steps that are left for a mesh with the right stride that there is room for. -/
theorem append_of_room (hstride : n.stride = m.stride)
    (hroom : m.vertexCount + n.vertexCount ≤ maxVertices) : m.append n = do
      let indices ← n.indices.foldlM (fun out i =>
        return out.push (← rebaseIndex m.vertexCount n.vertexCount i)) m.indices
      let calls ← n.calls.mapM (rebase m.vertexCount)
      let triangleCount ← checkWord 32 (m.triangleCount + n.triangleCount)
      return { m.appended n with indices, triangleCount, calls := m.calls ++ calls } := by
  have htotal : m.vertexCount + n.vertexCount < 1 <<< 32 := by
    rw [maxVertices] at hroom
    omega
  simp only [append, ne_eq, hstride, not_true, if_false, checkWord_of_lt htotal, ok_bind,
    Nat.not_lt.mpr hroom]
  rfl

theorem append_of_blocked {x : Failure}
    (h : Blocked m.stride m.vertexCount m.triangleCount n x) : m.append n = .error x := by
  cases h with
  | stride hstride => simp [append, hstride]
  | count hstride hcount => simp [append, hstride, checkWord_of_le hcount]
  | room hstride hword hroom => simp [append, hstride, checkWord_of_lt hword, hroom]
  | index hstride hroom hsplit hbefore hi =>
    rw [append_of_room hstride hroom, foldlM_rebaseIndex_of_le hroom hsplit hbefore hi, error_bind]
  | call hstride hroom hindex hc hover =>
    rw [append_of_room hstride hroom, (foldlM_rebaseIndex_eq_ok hroom).mpr ⟨hindex, rfl⟩, ok_bind,
      mapM_rebase_of_le ⟨_, hc, hover⟩, error_bind]
  | triangles hstride hroom hindex hover =>
    rw [append_of_room hstride hroom, (foldlM_rebaseIndex_eq_ok hroom).mpr ⟨hindex, rfl⟩, ok_bind]
    -- Both sums that are left stop the machine in the same way.
    by_cases hcalls : ∃ c, c ∈ n.calls ∧ 1 <<< 32 ≤ c.first + m.vertexCount
    · rw [mapM_rebase_of_le hcalls, error_bind]
    · have hfirst : ∀ c, c ∈ n.calls → c.first + m.vertexCount < 1 <<< 32 := by
        simpa using hcalls
      rw [(mapM_eq_ok (rebase_eq_ok m.vertexCount)).mpr ⟨hfirst, rfl⟩, ok_bind,
        checkWord_of_le hover, error_bind]

theorem appendable_or_blocked (m n : Mesh) :
    Appendable m n ∨ ∃ x, Blocked m.stride m.vertexCount m.triangleCount n x := by
  by_cases hstride : n.stride = m.stride
  case neg => exact .inr ⟨_, .stride hstride⟩
  rcases Nat.lt_or_ge (m.vertexCount + n.vertexCount) (1 <<< 32) with hword | hover
  case inr => exact .inr ⟨_, .count hstride hover⟩
  rcases Nat.lt_or_ge maxVertices (m.vertexCount + n.vertexCount) with hmany | hroom
  · exact .inr ⟨_, .room hstride hword hmany⟩
  cases hfind : n.indices.toList.find? (n.vertexCount ≤ ·.toNat) with
  | some i =>
    obtain ⟨hi, before, after, hsplit, hbefore⟩ := List.find?_eq_some_iff_append.mp hfind
    exact .inr ⟨_, .index hstride hroom hsplit (by simpa using hbefore) (by simpa using hi)⟩
  | none =>
    have hindex : ∀ i, i ∈ n.indices → i.toNat < n.vertexCount := by
      simpa using hfind
    by_cases hcalls : ∃ c, c ∈ n.calls ∧ 1 <<< 32 ≤ c.first + m.vertexCount
    · obtain ⟨c, hc, hover⟩ := hcalls
      exact .inr ⟨_, .call hstride hroom hindex hc hover⟩
    · rcases Nat.lt_or_ge (m.triangleCount + n.triangleCount) (1 <<< 32) with hfit | hover
      · exact .inl ⟨hstride, hroom, hindex, by simpa using hcalls, hfit⟩
      · exact .inr ⟨_, .triangles hstride hroom hindex hover⟩

/-- A mesh is not appended exactly if it is blocked, and for that cause. -/
theorem append_eq_error_iff {x : Failure} :
    m.append n = .error x ↔ Blocked m.stride m.vertexCount m.triangleCount n x := by
  refine ⟨fun h => ?_, append_of_blocked⟩
  rcases appendable_or_blocked m n with hok | ⟨y, hy⟩
  · simp [append_eq_ok.mpr ⟨hok, rfl⟩] at h
  · obtain rfl : x = y := Except.error.inj (h.symm.trans (append_of_blocked hy))
    exact hy

/-! ### All steps -/

/-- Meshes are appended up to the first that is blocked. -/
theorem foldlM_append_eq_error_iff {x : Failure} :
    meshes.foldlM append m = .error x ↔ ∃ before n after, meshes = before ++ n :: after ∧
      Joinable m before ∧ Blocked m.stride (m.vertexCount + countTotal before)
        (m.triangleCount + triangleSum before) n x := by
  induction meshes generalizing m with
  | nil => simp [pure, Except.pure]
  | cons k meshes ih =>
    rw [List.foldlM_cons]
    constructor
    · intro h
      cases hk : m.append k with
      | error y =>
        rw [hk, error_bind] at h
        obtain rfl := Except.error.inj h
        exact ⟨[], k, meshes, rfl, trivial, append_eq_error_iff.mp hk⟩
      | ok s =>
        rw [hk, ok_bind] at h
        obtain ⟨happend, rfl⟩ := append_eq_ok.mp hk
        obtain ⟨before, n, after, rfl, hjoin, hblocked⟩ := ih.mp h
        refine ⟨k :: before, n, after, rfl, ⟨happend, hjoin⟩, ?_⟩
        simpa only [countTotal_cons, triangleSum_cons, appended_vertexCount,
          appended_triangleCount, appended_stride, ← Nat.add_assoc] using hblocked
    · rintro ⟨_ | ⟨_, before⟩, n, after, hsplit, hjoin, hblocked⟩
      · obtain ⟨rfl, rfl⟩ := List.cons.inj hsplit
        rw [append_of_blocked hblocked, error_bind]
      · obtain ⟨rfl, rfl⟩ := List.cons.inj hsplit
        rw [append_eq_ok.mpr ⟨hjoin.1, rfl⟩, ok_bind]
        refine ih.mpr ⟨before, n, after, rfl, hjoin.2, ?_⟩
        simpa only [countTotal_cons, triangleSum_cons, appended_vertexCount,
          appended_triangleCount, appended_stride, ← Nat.add_assoc] using hblocked

/-- Bytes of a vertex of the first of the given meshes. -/
def firstStride (meshes : List Mesh) : Nat :=
  (meshes.head?.map stride).getD 0

theorem join_eq_ok_iff :
    join meshes = .ok r ↔ (∀ n, n ∈ meshes → n.stride = firstStride meshes) ∧
      Fits 0 0 meshes ∧ r = meshes.foldl appended { stride := firstStride meshes } := by
  have hstart : ({ stride := firstStride meshes } : Mesh).vertexCount ≤ maxVertices :=
    Nat.zero_le _
  rw [join, ← firstStride, foldlM_append_eq_ok, joinable_iff_fits hstart (by simp), and_assoc]

theorem join_eq_error_iff {x : Failure} :
    join meshes = .error x ↔ ∃ before n after, meshes = before ++ n :: after ∧
      (∀ k, k ∈ before → k.stride = firstStride meshes) ∧ Fits 0 0 before ∧
        Blocked (firstStride meshes) (countTotal before) (triangleSum before) n x := by
  have hstart : ({ stride := firstStride meshes } : Mesh).vertexCount ≤ maxVertices :=
    Nat.zero_le _
  rw [join, ← firstStride, foldlM_append_eq_error_iff]
  simp only [joinable_iff_fits hstart (show 0 < 1 <<< 32 by decide), Nat.zero_add, and_assoc]

/-! ### The sums -/

/-- The indices of the given meshes as natural numbers, numbered on from `base`. -/
def indexNumbers (base : Nat) : List Mesh → List Nat
  | [] => []
  | n :: meshes =>
    n.indices.toList.map (fun i => i.toNat + base) ++ indexNumbers (base + n.vertexCount) meshes

/-- The draw calls of the given meshes, numbered on from `base`. -/
def numberedCalls (base : Nat) : List Mesh → List DrawCall
  | [] => []
  | n :: meshes =>
    n.calls.map (DrawCall.shift base) ++ numberedCalls (base + n.vertexCount) meshes

/-- Every number of `r` is the exact sum of those of the given meshes, and it fits its word. -/
structure Sums (meshes : List Mesh) (r : Mesh) : Prop where
  vertexCount_eq : r.vertexCount = countTotal meshes
  vertexCount_le : r.vertexCount ≤ 65536
  triangleCount_eq : r.triangleCount = triangleSum meshes
  triangleCount_lt : r.triangleCount < 1 <<< 32
  indices_eq : r.indices.toList.map UInt16.toNat = indexNumbers 0 meshes
  calls_eq : r.calls = numberedCalls 0 meshes
  first_lt : ∀ c, c ∈ r.calls → c.first < 1 <<< 32

theorem foldl_appended_vertexCount :
    (meshes.foldl appended m).vertexCount = m.vertexCount + countTotal meshes := by
  induction meshes generalizing m with
  | nil => rfl
  | cons n meshes ih =>
    rw [List.foldl_cons, ih, appended_vertexCount, countTotal_cons, Nat.add_assoc]

theorem foldl_appended_triangleCount :
    (meshes.foldl appended m).triangleCount = m.triangleCount + triangleSum meshes := by
  induction meshes generalizing m with
  | nil => rfl
  | cons n meshes ih =>
    rw [List.foldl_cons, ih, appended_triangleCount, triangleSum_cons, Nat.add_assoc]

theorem foldl_appended_calls :
    (meshes.foldl appended m).calls = m.calls ++ numberedCalls m.vertexCount meshes := by
  induction meshes generalizing m with
  | nil => simp [numberedCalls]
  | cons n meshes ih =>
    rw [List.foldl_cons, ih, numberedCalls, appended_vertexCount, ← List.append_assoc]
    rfl

/-- The indices of meshes that are joined do not wrap around. -/
theorem foldl_appended_indices (h : Joinable m meshes) :
    (meshes.foldl appended m).indices.toList.map UInt16.toNat =
      m.indices.toList.map UInt16.toNat ++ indexNumbers m.vertexCount meshes := by
  induction meshes generalizing m with
  | nil => simp [indexNumbers]
  | cons n meshes ih =>
    have hshift : n.indices.toList.map (fun i => (shiftIndex m.vertexCount i).toNat) =
        n.indices.toList.map fun i => i.toNat + m.vertexCount :=
      List.map_congr_left fun i hi =>
        toNat_shiftIndex h.1.room (h.1.index_lt i (Array.mem_toList_iff.mp hi))
    rw [List.foldl_cons, ih h.2, indexNumbers, appended_vertexCount, ← hshift]
    simp [appended]

theorem CallsFit.numberedCalls_lt {base : Nat} (h : CallsFit base meshes) :
    ∀ c, c ∈ numberedCalls base meshes → c.first < 1 <<< 32 := by
  induction meshes generalizing base with
  | nil => simp [numberedCalls]
  | cons n meshes ih =>
    intro c hc
    rcases List.mem_append.mp hc with hc | hc
    · obtain ⟨d, hd, rfl⟩ := List.mem_map.mp hc
      exact h.head d hd
    · exact ih h.tail c hc

theorem sums_of_join (h : join meshes = .ok r) : Sums meshes r := by
  obtain ⟨hjoin, rfl⟩ := foldlM_append_eq_ok.mp h
  obtain ⟨-, hfits, -⟩ := join_eq_ok_iff.mp h
  have hroom := hfits.room
  have htriangles := hfits.triangles_lt
  rw [Nat.zero_add] at hroom htriangles
  have hvertices : (meshes.foldl appended { stride := firstStride meshes }).vertexCount =
      countTotal meshes := by
    rw [foldl_appended_vertexCount, Nat.zero_add]
  have hfaces : (meshes.foldl appended { stride := firstStride meshes }).triangleCount =
      triangleSum meshes := by
    rw [foldl_appended_triangleCount, Nat.zero_add]
  have hcalls : (meshes.foldl appended { stride := firstStride meshes }).calls =
      numberedCalls 0 meshes := by
    rw [foldl_appended_calls, List.nil_append]
  refine ⟨hvertices, ?_, hfaces, ?_, ?_, hcalls, ?_⟩
  · exact hvertices ▸ hroom
  · exact hfaces ▸ htriangles
  · rw [foldl_appended_indices hjoin]
    rfl
  · exact hcalls ▸ hfits.calls.numberedCalls_lt

/-- Where meshes have more vertices in total than a bound, one of them exceeds it first. -/
theorem exists_exceeding {bound : Nat} (h : bound < countTotal meshes) :
    ∃ before n after, meshes = before ++ n :: after ∧ countTotal before ≤ bound ∧
      bound < countTotal before + n.vertexCount := by
  induction meshes generalizing bound with
  | nil => simp at h
  | cons k meshes ih =>
    rw [countTotal_cons] at h
    rcases Nat.lt_or_ge bound k.vertexCount with hk | hk
    · exact ⟨[], k, meshes, rfl, Nat.zero_le _, by simpa using hk⟩
    · have hrest : bound - k.vertexCount < countTotal meshes := by omega
      obtain ⟨before, n, after, rfl, hbefore, hn⟩ := ih hrest
      refine ⟨k :: before, n, after, rfl, ?_, ?_⟩ <;> rw [countTotal_cons] <;> omega

/-- Meshes are joined with exact sums, refused, or they stop the machine, each under the conditions
given.  It stops where a number of vertices, the first vertex of a draw call, or a number of
triangles leaves its word, if the checks before are passed.  Meshes with more vertices than indices
can number, which pass the other checks, are refused for it unless one of these sums comes first or
the number of the vertices itself leaves its word. -/
theorem join_sums (meshes : List Mesh) :
    (∀ r, join meshes = .ok r → Sums meshes r) ∧
    (∀ x, join meshes = .error x ↔ ∃ before n after, meshes = before ++ n :: after ∧
      (∀ k, k ∈ before → k.stride = firstStride meshes) ∧ Fits 0 0 before ∧
        Blocked (firstStride meshes) (countTotal before) (triangleSum before) n x) ∧
    ((∀ n, n ∈ meshes → n.stride = firstStride meshes) →
      (∀ n, n ∈ meshes → ∀ i, i ∈ n.indices → i.toNat < n.vertexCount) →
      65536 < countTotal meshes →
      ∃ before n after, meshes = before ++ n :: after ∧ countTotal before ≤ 65536 ∧
        65536 < countTotal before + n.vertexCount ∧
        (CallsFit 0 before → triangleSum before < 1 <<< 32 → join meshes =
          if countTotal before + n.vertexCount < 1 <<< 32 then
            .error (.refused (.tooManyVertices (countTotal before + n.vertexCount)))
          else .error (.stopped .overflow))) := by
  refine ⟨fun r => sums_of_join, fun x => join_eq_error_iff, fun hstride hindex hmany => ?_⟩
  obtain ⟨before, n, after, hsplit, hbefore, hn⟩ := exists_exceeding hmany
  refine ⟨before, n, after, hsplit, hbefore, hn, fun hcalls htriangles => ?_⟩
  have hmem : ∀ k, k ∈ before → k ∈ meshes := fun k hk => hsplit ▸ List.mem_append_left _ hk
  have hfits : Fits 0 0 before := by
    refine ⟨fun k hk => hindex k (hmem k hk), ?_, hcalls, ?_⟩
    · rwa [Nat.zero_add]
    · rwa [Nat.zero_add]
  have hjoin {x : Failure} (h : Blocked (firstStride meshes) (countTotal before)
      (triangleSum before) n x) : join meshes = .error x :=
    join_eq_error_iff.mpr
      ⟨before, n, after, hsplit, fun k hk => hstride k (hmem k hk), hfits, h⟩
  have hstride := hstride n (by simp [hsplit])
  split
  case isTrue hword => exact hjoin (.room hstride hword hn)
  case isFalse hword => exact hjoin (.count hstride (Nat.not_lt.mp hword))

namespace Sample

/-- Three meshes with vertices only. -/
def crowd : List Mesh :=
  [{ vertexCount := 40000 }, { vertexCount := 30000 }, { vertexCount := 5 }]

end Sample

/-- The second of the meshes is refused for too many vertices, and the third is not looked at. -/
theorem join_sums_crowd :
    (∀ n, n ∈ Sample.crowd → n.stride = firstStride Sample.crowd) ∧
    (∀ n, n ∈ Sample.crowd → ∀ i, i ∈ n.indices → i.toNat < n.vertexCount) ∧
    65536 < countTotal Sample.crowd ∧
    join Sample.crowd = .error (.refused (.tooManyVertices 70000)) := by
  have hstride : ∀ n, n ∈ Sample.crowd → n.stride = firstStride Sample.crowd := by decide
  have hindex : ∀ n, n ∈ Sample.crowd → ∀ i, i ∈ n.indices → i.toNat < n.vertexCount := by
    simp [Sample.crowd]
  have hmany : 65536 < countTotal Sample.crowd := by decide
  refine ⟨hstride, hindex, hmany, ?_⟩
  obtain ⟨-, herror, -⟩ := join_sums Sample.crowd
  refine (herror _).mpr ⟨[{ vertexCount := 40000 }], { vertexCount := 30000 },
    [{ vertexCount := 5 }], rfl, by decide, ⟨by simp, by decide, ?_, by decide⟩, ?_⟩
  · exact .cons (by simp) (by rintro (_ | _) n after hsplit <;> simp at hsplit)
  · exact .room rfl (by decide) (by decide)

namespace Sample

/-- Two meshes whose number of vertices is not a word. -/
def uncountable : List Mesh :=
  [{ vertexCount := 1 }, { vertexCount := 4294967295 }]

/-- Three meshes of which the second has a draw call that cannot be numbered on. -/
def unnumberable : List Mesh :=
  [{ vertexCount := 1 }, { vertexCount := 1, calls := [⟨.triangleFan, 0, 1, 4294967295⟩] },
    { vertexCount := 65535 }]

end Sample

/-- Strides and indices agree in both lists of meshes, and there are too many vertices, but the
meshes are not refused for it. -/
theorem join_stops_uncounted :
    ((∀ n, n ∈ Sample.uncountable → n.stride = firstStride Sample.uncountable ∧ n.indices = #[]) ∧
      65536 < countTotal Sample.uncountable ∧
      join Sample.uncountable = .error (.stopped .overflow)) ∧
    ((∀ n, n ∈ Sample.unnumberable → n.stride = firstStride Sample.unnumberable ∧ n.indices = #[]) ∧
      65536 < countTotal Sample.unnumberable ∧
      join Sample.unnumberable = .error (.stopped .overflow)) :=
  ⟨⟨by decide, by decide, rfl⟩, ⟨by decide, by decide, rfl⟩⟩

end Mesh
end FixedFunction
