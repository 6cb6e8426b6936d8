import Rcore.Banker.Safety

/-!
# The safety pass of `sys_mutex_lock` and `sys_semaphore_down`

A literal transcription of lines 68-91 of `sys_mutex_lock` (lines 192-215 of
`sys_semaphore_down` are the same text over the semaphore ledger):

```
let mut work = available.clone();  let mut finish = vec![false; tnum];  let mut cnt = 0;
while cnt != tnum {
    cnt = 0;
    for i in 0..tnum {
        if finish[i] == false {
            is_executable = ∀ j < mnum, !(work[j] < need[i][j])
            if is_executable { work[j] += allocation[i][j] for j < mnum; finish[i] = true; continue; }
        }
        cnt += 1;
    }
}
```

`cnt` counts the threads a pass did not finish, so the loop stops after the first pass that
finishes nobody.  The `while` loop is run for `tnum + 1` passes; `whileLoop_spec` shows the
exit test `cnt == tnum` always holds by then, so the bound never cuts the loop short.
`work[j] += allocation[i][j]` is a `usize` addition: it panics past `usize::MAX`, so the pass
decides safety only for a ledger whose column sums fit (`ColumnsFit`).

* `visit_spec` — one iteration of the `for` loop either finishes thread `i` (its need fits
  in `work`) or counts it.
* `whileLoop_spec` — from any state satisfying `PassInv`, the loop exits within the fuel
  with every unfinished thread unable to fit in `work`.
* `safetyPass_iff_safe` — for `available` of length `m` and `n × m` matrices whose column
  sums fit in a `usize`, the loop exits within `n + 1` passes, and it finishes every thread
  exactly when some order of all `n` threads is safe (`Banker.Safe`).
* `safetyPass_overflows` — with a column sum past `usize::MAX`, the pass can overflow on a
  safe ledger.
-/

set_option autoImplicit false

namespace Rcore

/-- The loop variables of the safety pass. -/
structure PassState where
  work : List Nat
  finish : List Bool
  cnt : Nat
  deriving DecidableEq, Repr

/-- Line 77 for one `j`: `if work[j] < need[i][j] { is_executable = false; }`. -/
def executableStep (need : List (List Nat)) (i : Nat) (work : List Nat) (isExec : Bool) (j : Nat) :
    Except Panic Bool := do
  let w ← index work j
  let n ← index (← index need i) j
  pure (if w < n then false else isExec)

/-- Lines 75-80: `is_executable` for thread `i`. -/
def isExecutable (need : List (List Nat)) (mnum i : Nat) (work : List Nat) : Except Panic Bool :=
  (List.range mnum).foldlM (executableStep need i work) true

/-- Line 83 for one `j`: `work[j] += allocation[i][j]`. -/
def addAllocationStep (alloc : List (List Nat)) (i : Nat) (work : List Nat) (j : Nat) :
    Except Panic (List Nat) := do
  let a ← index (← index alloc i) j
  modifyAt work j (fun w => usizeAdd w a)

/-- Lines 82-84: `work[j] += allocation[i][j]` for `j in 0..mnum`. -/
def addAllocation (alloc : List (List Nat)) (mnum i : Nat) (work : List Nat) :
    Except Panic (List Nat) :=
  (List.range mnum).foldlM (addAllocationStep alloc i) work

/-- Lines 74-89: one iteration of `for i in 0..tnum`. -/
def visit (need alloc : List (List Nat)) (mnum : Nat) (st : PassState) (i : Nat) :
    Except Panic PassState := do
  if (← index st.finish i) = false then
    if (← isExecutable need mnum i st.work) = true then
      let work ← addAllocation alloc mnum i st.work
      let finish ← modifyAt st.finish i (fun _ => pure true)
      pure { st with work := work, finish := finish }
    else pure { st with cnt := st.cnt + 1 }
  else pure { st with cnt := st.cnt + 1 }

/-- Lines 72-90: `cnt = 0` and one pass of `for i in 0..tnum`. -/
def forPass (need alloc : List (List Nat)) (tnum mnum : Nat) (st : PassState) :
    Except Panic PassState :=
  (List.range tnum).foldlM (visit need alloc mnum) { st with cnt := 0 }

/-- Lines 71-91: `while cnt != tnum`, for at most `fuel` passes. -/
def whileLoop (need alloc : List (List Nat)) (tnum mnum : Nat) :
    Nat → PassState → Except Panic PassState
  | 0, st => pure st
  | fuel + 1, st =>
    if st.cnt = tnum then pure st
    else do whileLoop need alloc tnum mnum fuel (← forPass need alloc tnum mnum st)

/-- Lines 68-91: the safety pass from `work = available`, `finish = [false; tnum]`. -/
def safetyPass (available : List Nat) (need alloc : List (List Nat)) (tnum mnum : Nat) :
    Except Panic PassState :=
  whileLoop need alloc tnum mnum (tnum + 1) ⟨available, List.replicate tnum false, 0⟩

/-- A `Vec<Vec<usize>>` of `n` rows of length `m`. -/
def Rect (n m : Nat) (M : List (List Nat)) : Prop := M.length = n ∧ ∀ row ∈ M, row.length = m

instance (n m : Nat) (M : List (List Nat)) : Decidable (Rect n m M) :=
  inferInstanceAs (Decidable (M.length = n ∧ ∀ row ∈ M, row.length = m))

/-- Every column sum `available[j] + Σ_{i<n} allocation[i][j]` fits in a `usize`. -/
def ColumnsFit (n m : Nat) (available : List Nat) (alloc : List (List Nat)) : Prop :=
  ∀ j < m, vec available j + Banker.held (entry alloc) (List.range n) j ≤ usizeMax

instance (n m : Nat) (available : List Nat) (alloc : List (List Nat)) :
    Decidable (ColumnsFit n m available alloc) :=
  inferInstanceAs (Decidable (∀ j < m, _ ≤ usizeMax))

theorem Rect.row_length {n m : Nat} {M : List (List Nat)} (h : Rect n m M) {i : Nat}
    (hi : i < n) : (M.getD i []).length = m := by
  have hi' : i < M.length := h.1 ▸ hi
  simpa [hi'] using h.2 _ (List.getElem_mem hi')

/-! ## The inner loops -/

theorem executableStep_eq {need : List (List Nat)} {i j : Nat} {work : List Nat} (acc : Bool)
    (hi : i < need.length) (hrow : j < (need.getD i []).length) (hw : j < work.length) :
    executableStep need i work acc j =
      .ok (if vec work j < entry need i j then false else acc) := by
  simp only [executableStep, index_eq_vec hw, index_eq_row hi, ok_bind, index_eq_vec hrow,
    entry_eq_vec]
  rfl

theorem foldl_executable (need : List (List Nat)) (i : Nat) (work : List Nat) :
    ∀ (l : List Nat) (acc : Bool),
      l.foldl (fun acc j => if vec work j < entry need i j then false else acc) acc =
        (acc && decide (∀ j ∈ l, entry need i j ≤ vec work j))
  | [], acc => by simp
  | j :: l, acc => by
    rw [List.foldl_cons, foldl_executable need i work l]
    by_cases hlt : vec work j < entry need i j
    · simp [hlt]
    · simp [hlt, Nat.le_of_not_lt hlt]

theorem isExecutable_eq {need : List (List Nat)} {mnum i : Nat} {work : List Nat}
    (hi : i < need.length) (hrow : mnum ≤ (need.getD i []).length) (hw : mnum ≤ work.length) :
    isExecutable need mnum i work = .ok (decide (∀ j < mnum, entry need i j ≤ vec work j)) := by
  rw [isExecutable, foldlM_ok (fun _ => True) (fun acc j hj _ =>
    ⟨executableStep_eq acc hi (by simp at hj; omega) (by simp at hj; omega), trivial⟩) trivial,
    foldl_executable]
  simp

theorem addAllocationStep_eq {alloc : List (List Nat)} {i j : Nat} {work : List Nat}
    (hi : i < alloc.length) (hrow : j < (alloc.getD i []).length) (hw : j < work.length)
    (hfit : vec work j + entry alloc i j ≤ usizeMax) :
    addAllocationStep alloc i work j = .ok (work.set j (vec work j + entry alloc i j)) := by
  have hv : vec work j = work[j] := by simp [vec, hw]
  simp only [addAllocationStep, index_eq_row hi, ok_bind, index_eq_vec hrow, ← entry_eq_vec,
    modifyAt_of_lt _ hw, ← hv, usizeAdd_of_le hfit]
  rfl

theorem foldl_addAllocation (alloc : List (List Nat)) (i : Nat) :
    ∀ (l : List Nat) (work : List Nat), l.Nodup → (∀ j ∈ l, j < work.length) →
      (l.foldl (fun w j => w.set j (vec w j + entry alloc i j)) work).length = work.length ∧
      ∀ k, vec (l.foldl (fun w j => w.set j (vec w j + entry alloc i j)) work) k =
        vec work k + if k ∈ l then entry alloc i k else 0
  | [], work, _, _ => by simp
  | j :: l, work, hnd, hl => by
    have hj := hl j (List.mem_cons_self _ _)
    have hjl : j ∉ l := (List.nodup_cons.mp hnd).1
    rw [List.foldl_cons]
    obtain ⟨hlen, hval⟩ := foldl_addAllocation alloc i l (work.set j (vec work j + entry alloc i j))
      (List.nodup_cons.mp hnd).2 (fun k hk => by simpa using hl k (List.mem_cons_of_mem _ hk))
    refine ⟨by simpa using hlen, fun k => ?_⟩
    rw [hval k, vec_set _ _ hj]
    by_cases hk : j = k
    · subst hk; simp [hjl]
    · simp [hk, Ne.symm hk]

/-- The additions of `l` succeed when each fits: the loop leaves no slot but its own. -/
theorem foldlM_addAllocation {alloc : List (List Nat)} {i : Nat} (hi : i < alloc.length) :
    ∀ (l work : List Nat), l.Nodup → (∀ j ∈ l, j < (alloc.getD i []).length ∧ j < work.length ∧
      vec work j + entry alloc i j ≤ usizeMax) →
      l.foldlM (addAllocationStep alloc i) work =
        .ok (l.foldl (fun w j => w.set j (vec w j + entry alloc i j)) work)
  | [], _, _, _ => rfl
  | j :: l, work, hnd, hl => by
    obtain ⟨hrow, hw, hfit⟩ := hl j (List.mem_cons_self _ _)
    rw [List.foldlM_cons, addAllocationStep_eq hi hrow hw hfit, ok_bind, List.foldl_cons]
    refine foldlM_addAllocation hi l _ (List.nodup_cons.mp hnd).2 fun k hk => ?_
    have hjk : j ≠ k := fun h => (List.nodup_cons.mp hnd).1 (h ▸ hk)
    obtain ⟨hrow', hw', hfit'⟩ := hl k (List.mem_cons_of_mem _ hk)
    exact ⟨hrow', by simpa using hw', by rwa [vec_set _ _ hw, if_neg hjk]⟩

theorem addAllocation_eq {alloc : List (List Nat)} {mnum i : Nat} {work : List Nat}
    (hi : i < alloc.length) (hrow : mnum ≤ (alloc.getD i []).length) (hw : mnum ≤ work.length)
    (hfit : ∀ j < mnum, vec work j + entry alloc i j ≤ usizeMax) :
    ∃ work', addAllocation alloc mnum i work = .ok work' ∧ work'.length = work.length ∧
      ∀ j, vec work' j = vec work j + if j < mnum then entry alloc i j else 0 := by
  rw [addAllocation, foldlM_addAllocation hi _ _ (List.nodup_range _) fun j hj => by
    simp only [List.mem_range] at hj; exact ⟨by omega, by omega, hfit j hj⟩]
  obtain ⟨hlen, hval⟩ := foldl_addAllocation alloc i (List.range mnum) work (List.nodup_range _)
    (fun j hj => by simp at hj; omega)
  exact ⟨_, rfl, hlen, fun j => by simpa using hval j⟩

/-! ## The pass invariant -/

/-- What the pass knows about its state, with the order `L` in which it finished threads as a
ghost: `finish` marks exactly the threads of `L`, `L` is a safe order from `available`, and
`work` is `available` plus the allocations of `L`. -/
structure PassInv (n m : Nat) (available : List Nat) (need alloc : List (List Nat))
    (st : PassState) (L : List Nat) : Prop where
  work_length : st.work.length = m
  finish_length : st.finish.length = n
  nodup : L.Nodup
  mem_iff : ∀ i, i ∈ L ↔ i < n ∧ st.finish.getD i false = true
  safe : Banker.IsSafeSeq m (entry need) (entry alloc) (vec available) L
  work : ∀ j < m, vec st.work j = vec available j + Banker.held (entry alloc) L j

/-- No unfinished thread fits in `work`: the state in which the `while` loop stops. -/
def Stuck (n m : Nat) (need : List (List Nat)) (st : PassState) : Prop :=
  ∀ i < n, st.finish.getD i false = false → ∃ j < m, vec st.work j < entry need i j

section Pass

variable {n m : Nat} {available : List Nat} {need alloc : List (List Nat)}

theorem PassInv.init (havail : available.length = m) :
    PassInv n m available need alloc ⟨available, List.replicate n false, 0⟩ [] where
  work_length := havail
  finish_length := List.length_replicate _ _
  nodup := List.nodup_nil
  mem_iff i := by
    simp only [List.not_mem_nil, false_iff, not_and]
    intro hi; simp [hi]
  safe := trivial
  work j _ := by simp

theorem PassInv.withCnt {st : PassState} {L : List Nat}
    (h : PassInv n m available need alloc st L) (c : Nat) :
    PassInv n m available need alloc { st with cnt := c } L :=
  ⟨h.work_length, h.finish_length, h.nodup, h.mem_iff, h.safe, h.work⟩

theorem PassInv.length_le {st : PassState} {L : List Nat}
    (h : PassInv n m available need alloc st L) : L.length ≤ n := by
  simpa using (h.nodup.subperm fun i hi => List.mem_range.mpr ((h.mem_iff i).mp hi).1).length_le

/-- An unfinished thread is not in the order yet. -/
theorem PassInv.nodup_snoc {st : PassState} {L : List Nat} {i : Nat}
    (h : PassInv n m available need alloc st L) (hf : st.finish.getD i false = false) :
    (L ++ [i]).Nodup :=
  h.nodup.append (List.nodup_singleton i)
    (List.disjoint_singleton.mpr fun hm => Bool.false_ne_true (hf.symm.trans ((h.mem_iff i).mp hm).2))

/-- **`work` stays within the column sums**: when they fit in a `usize`, so does `work[j]` plus
the allocation of an unfinished thread. -/
theorem PassInv.add_fits {st : PassState} {L : List Nat} {i : Nat}
    (h : PassInv n m available need alloc st L) (hcol : ColumnsFit n m available alloc)
    (hi : i < n) (hf : st.finish.getD i false = false) (j : Nat) (hj : j < m) :
    vec st.work j + entry alloc i j ≤ usizeMax :=
  calc vec st.work j + entry alloc i j
      = vec available j + Banker.held (entry alloc) (L ++ [i]) j := by
        rw [h.work j hj, Banker.held_append, Banker.held_singleton, Nat.add_assoc]
    _ ≤ vec available j + Banker.held (entry alloc) (List.range n) j :=
        Nat.add_le_add_left (Banker.held_le_range (h.nodup_snoc hf) (fun k hk => by
          rcases List.mem_append.mp hk with hk | hk
          · exact ((h.mem_iff k).mp hk).1
          · rw [List.mem_singleton.mp hk]; exact hi) j) _
    _ ≤ usizeMax := hcol j hj

/-- Finishing an unfinished thread `i` whose need fits in `work` extends the safe order. -/
theorem PassInv.finish_one {st : PassState} {L : List Nat} {i : Nat}
    (h : PassInv n m available need alloc st L) (hi : i < n) (hf : st.finish.getD i false = false)
    (hex : ∀ j < m, entry need i j ≤ vec st.work j) {work' : List Nat}
    (hlen : work'.length = st.work.length)
    (hval : ∀ j, vec work' j = vec st.work j + if j < m then entry alloc i j else 0) (c : Nat) :
    PassInv n m available need alloc ⟨work', st.finish.set i true, c⟩ (L ++ [i]) where
  work_length := hlen.trans h.work_length
  finish_length := by simp [h.finish_length]
  nodup := h.nodup_snoc hf
  mem_iff k := by
    by_cases hk : i = k
    · subst hk; simp [hi, h.finish_length]
    · simp [h.mem_iff k, hk, Ne.symm hk]
  safe := Banker.IsSafeSeq.append_singleton.mpr
    ⟨h.safe, fun j hj => (hex j hj).trans (h.work j hj).le⟩
  work j hj := by simp [hval j, hj, h.work j hj, Nat.add_assoc]

/-- **One iteration of `for i in 0..tnum`** either finishes thread `i`, whose need fits in
`work`, or counts it and leaves everything else as it was. -/
theorem visit_spec (hneed : Rect n m need) (halloc : Rect n m alloc)
    (hcol : ColumnsFit n m available alloc) {st : PassState}
    {L : List Nat} (h : PassInv n m available need alloc st L) {i : Nat} (hi : i < n) :
    ∃ st', visit need alloc m st i = .ok st' ∧
      ((st'.cnt = st.cnt ∧ PassInv n m available need alloc st' (L ++ [i])) ∨
        (st' = { st with cnt := st.cnt + 1 } ∧
          (st.finish.getD i false = false → ∃ j < m, vec st.work j < entry need i j))) := by
  have hfin : index st.finish i = .ok (st.finish.getD i false) := by
    simp [h.finish_length, hi]
  unfold visit
  rw [hfin, ok_bind]
  cases hf : st.finish.getD i false
  · rw [if_pos rfl, isExecutable_eq (hneed.1 ▸ hi) (hneed.row_length hi).ge h.work_length.ge,
      ok_bind]
    by_cases hex : ∀ j < m, entry need i j ≤ vec st.work j
    · obtain ⟨work', hw', hlen, hval⟩ :=
        addAllocation_eq (halloc.1 ▸ hi) (halloc.row_length hi).ge h.work_length.ge
          (h.add_fits hcol hi hf)
      rw [decide_eq_true hex, if_pos rfl, hw', ok_bind,
        modifyAt_pure (fun _ => true) (h.finish_length ▸ hi), ok_bind]
      exact ⟨_, rfl, .inl ⟨rfl, h.finish_one hi hf hex hlen hval _⟩⟩
    · rw [decide_eq_false hex]
      push_neg at hex
      exact ⟨_, rfl, .inr ⟨rfl, fun _ => hex⟩⟩
  · exact ⟨_, rfl, .inr ⟨rfl, by simp⟩⟩

/-- **The `for` loop after `k` iterations**: the threads finished in it are counted by how much
`L` grew, and if it finished none, `work` is unchanged and no visited thread fits. -/
theorem forLoop_spec (hneed : Rect n m need) (halloc : Rect n m alloc)
    (hcol : ColumnsFit n m available alloc) {st₀ : PassState}
    {L₀ : List Nat} (h₀ : PassInv n m available need alloc st₀ L₀) :
    ∀ k ≤ n, ∃ st L, (List.range k).foldlM (visit need alloc m) { st₀ with cnt := 0 } = .ok st ∧
      PassInv n m available need alloc st L ∧ L₀.length ≤ L.length ∧
      st.cnt + (L.length - L₀.length) = k ∧
      (L.length = L₀.length → st.work = st₀.work ∧
        ∀ i < k, st.finish.getD i false = false → ∃ j < m, vec st.work j < entry need i j)
  | 0, _ => ⟨_, L₀, rfl, h₀.withCnt 0, le_rfl, by simp, fun _ => ⟨rfl, by simp⟩⟩
  | k + 1, hk => by
    obtain ⟨st, L, hfold, h, hle, hcnt, hsame⟩ := forLoop_spec hneed halloc hcol h₀ k (by omega)
    obtain ⟨st', hvisit, hcase⟩ := visit_spec hneed halloc hcol h (show k < n by omega)
    rw [List.range_succ, List.foldlM_append, hfold, ok_bind, List.foldlM_cons, hvisit, ok_bind]
    rcases hcase with ⟨hc, h'⟩ | ⟨rfl, hstuck⟩
    · have hlen : (L ++ [k]).length = L.length + 1 := by rw [List.length_append, List.length_singleton]
      refine ⟨st', L ++ [k], rfl, h', by omega, by omega, fun hl => by omega⟩
    · refine ⟨_, L, rfl, h.withCnt _, hle, by dsimp only; omega, fun hl => ⟨(hsame hl).1, ?_⟩⟩
      intro i hi hf
      rcases Nat.lt_succ_iff_lt_or_eq.mp hi with hi | rfl
      · exact (hsame hl).2 i hi hf
      · exact hstuck hf

/-- **The `while` loop exits within its fuel** when the fuel exceeds the number of unfinished
threads, and it exits in a stuck state. -/
theorem whileLoop_spec (hneed : Rect n m need) (halloc : Rect n m alloc)
    (hcol : ColumnsFit n m available alloc) :
    ∀ (fuel : Nat) (st : PassState) (L : List Nat), PassInv n m available need alloc st L →
      (st.cnt = n → Stuck n m need st) → (st.cnt = n ∨ n - L.length < fuel) →
      ∃ st' L', whileLoop need alloc n m fuel st = .ok st' ∧
        PassInv n m available need alloc st' L' ∧ st'.cnt = n ∧ Stuck n m need st'
  | 0, st, L, h, hexit, hfuel => by
    have hc : st.cnt = n := by omega
    exact ⟨st, L, rfl, h, hc, hexit hc⟩
  | fuel + 1, st, L, h, hexit, hfuel => by
    by_cases hc : st.cnt = n
    · exact ⟨st, L, by simp [whileLoop, hc]; rfl, h, hc, hexit hc⟩
    · obtain ⟨st₁, L₁, hpass, h₁, hle, hcnt, hsame⟩ := forLoop_spec hneed halloc hcol h n le_rfl
      have hL₁ := h₁.length_le
      have hrun : whileLoop need alloc n m (fuel + 1) st = whileLoop need alloc n m fuel st₁ := by
        simp only [whileLoop, hc, if_false, forPass, hpass, ok_bind]
      rw [hrun]
      refine whileLoop_spec hneed halloc hcol fuel st₁ L₁ h₁ (fun hc₁ => ?_) (by omega)
      exact (hsame (by omega)).2

end Pass

/-- The pass exits with `cnt = n` and `n` flags, and every flag is set exactly when some
order of all the threads is safe. -/
theorem safetyPass_decides {n m : Nat} {available : List Nat} {need alloc : List (List Nat)}
    (havail : available.length = m) (hneed : Rect n m need) (halloc : Rect n m alloc)
    (hcol : ColumnsFit n m available alloc) :
    ∃ st, safetyPass available need alloc n m = .ok st ∧ st.cnt = n ∧ st.finish.length = n ∧
      ((∀ i < n, st.finish.getD i false = true) ↔
        Banker.Safe m (entry need) (entry alloc) n (vec available)) := by
  obtain ⟨st, L, hrun, h, hc, hstuck⟩ := whileLoop_spec hneed halloc hcol (n + 1) _ []
    (PassInv.init havail) (fun h0 i hi => by dsimp only at h0; omega)
    (.inr (Nat.lt_succ_of_le (Nat.sub_le _ _)))
  refine ⟨st, hrun, hc, h.finish_length, ⟨fun hall => ⟨L, ?_, h.safe⟩, fun ⟨σ, hσ, hsafe⟩ => ?_⟩⟩
  · refine (List.perm_ext_iff_of_nodup h.nodup (List.nodup_range n)).mpr fun i => ?_
    rw [h.mem_iff, List.mem_range]
    exact ⟨fun hi => hi.1, fun hi => ⟨hi, hall i hi⟩⟩
  · -- the finished threads are those of `L`, so a safe order can only use them
    have hperm : (σ.filter fun i => st.finish.getD i false).Perm L := by
      refine (List.perm_ext_iff_of_nodup ((hσ.nodup_iff.mpr (List.nodup_range n)).filter _)
        h.nodup).mpr fun k => ?_
      rw [List.mem_filter, h.mem_iff, hσ.mem_iff, List.mem_range]
    have hheld : ∀ j, Banker.held (entry alloc) (σ.filter fun i => st.finish.getD i false) j =
        Banker.held (entry alloc) L j := fun j => (hperm.map _).sum_eq
    have hall := Banker.IsSafeSeq.mem_of_stuck hstuck hsafe
      (fun k hk => List.mem_range.mp (hσ.subset hk)) (fun j hj => by rw [hheld, h.work j hj])
    exact fun i hi => hall i (hσ.mem_iff.mpr (List.mem_range.mpr hi))

/-- **The safety pass decides safety.**  For `available` of length `m` and `n × m` matrices
`need` and `allocation` whose column sums fit in a `usize`, the `while` loop exits
(`cnt = n`) within `n + 1` passes of its `for` loop, and on exit `finish[i]` is true for every
`i < n` exactly when some order of all the threads is safe: each thread's need fits in
`available` plus the allocations of the threads before it.  The verdict does not depend on
the order in which the passes visit the threads. -/
theorem safetyPass_iff_safe {n m : Nat} {available : List Nat} {need alloc : List (List Nat)}
    (havail : available.length = m) (hneed : Rect n m need) (halloc : Rect n m alloc)
    (hcol : ColumnsFit n m available alloc) :
    ∃ st, safetyPass available need alloc n m = .ok st ∧ st.cnt = n ∧
      ((∀ i < n, st.finish[i]? = some true) ↔
        Banker.Safe m (entry need) (entry alloc) n (vec available)) := by
  obtain ⟨st, hrun, hc, hlen, hiff⟩ := safetyPass_decides havail hneed halloc hcol
  refine ⟨st, hrun, hc, Iff.trans (forall₂_congr fun i hi => ?_) hiff⟩
  simp [List.getElem?_eq_getElem (hlen ▸ hi : i < st.finish.length)]

/-- Two threads, two resources: thread 1 holds what thread 0 needs, so the order `[1, 0]`
is safe. -/
theorem safetyPass_two_threads :
    [0, 1].length = 2 ∧ Rect 2 2 [[1, 0], [0, 0]] ∧ Rect 2 2 [[0, 0], [1, 0]] ∧
      ColumnsFit 2 2 [0, 1] [[0, 0], [1, 0]] ∧
      ∃ st, safetyPass [0, 1] [[1, 0], [0, 0]] [[0, 0], [1, 0]] 2 2 = .ok st ∧ st.cnt = 2 ∧
        ((∀ i < 2, st.finish[i]? = some true) ↔
          Banker.Safe 2 (entry [[1, 0], [0, 0]]) (entry [[0, 0], [1, 0]]) 2 (vec [0, 1])) :=
  ⟨rfl, by decide, by decide, by decide, safetyPass_iff_safe rfl (by decide) (by decide) (by decide)⟩

/-- **A column sum past `usize::MAX` overflows the pass.**  One resource with `usize::MAX` free
units, thread 0 holding one more and needing none, thread 1 needing `usize::MAX`: the order
`[0, 1]` is safe, but finishing thread 0 adds its unit to `work[0] = usize::MAX`. -/
theorem safetyPass_overflows :
    ¬ ColumnsFit 2 1 [usizeMax] [[1], [0]] ∧
      safetyPass [usizeMax] [[0], [usizeMax]] [[1], [0]] 2 1 = .error .addOverflow ∧
      Banker.Safe 1 (entry [[0], [usizeMax]]) (entry [[1], [0]]) 2 (vec [usizeMax]) :=
  ⟨by decide, rfl, ⟨[0, 1], by decide, by simp [Banker.IsSafeSeq, entry, vec]⟩⟩


/-! ## The pass never underflows

The pass only indexes, compares and adds: whatever its inputs, it can panic only on an index or
on an addition. -/

theorem isExecutable_noUnderflow (need : List (List Nat)) (mnum i : Nat) (work : List Nat) :
    NoUnderflow (isExecutable need mnum i work) :=
  noUnderflow_foldlM (fun _ j => (noUnderflow_index work j).bind fun _ =>
    (noUnderflow_index need i).bind fun row => (noUnderflow_index row j).bind fun _ =>
      noUnderflow_ok _) _ _

theorem addAllocation_noUnderflow (alloc : List (List Nat)) (mnum i : Nat) (work : List Nat) :
    NoUnderflow (addAllocation alloc mnum i work) :=
  noUnderflow_foldlM (fun _ j => (noUnderflow_index alloc i).bind fun row =>
    (noUnderflow_index row j).bind fun a => noUnderflow_modifyAt (noUnderflow_usizeAdd · a)) _ _

theorem visit_noUnderflow (need alloc : List (List Nat)) (mnum : Nat) (st : PassState) (i : Nat) :
    NoUnderflow (visit need alloc mnum st i) := by
  refine (noUnderflow_index st.finish i).bind fun b => ?_
  split
  · refine (isExecutable_noUnderflow need mnum i st.work).bind fun e => ?_
    split
    · exact (addAllocation_noUnderflow alloc mnum i st.work).bind fun _ =>
        (noUnderflow_modifyAt fun _ => noUnderflow_ok _).bind fun _ => noUnderflow_ok _
    · exact noUnderflow_ok _
  · exact noUnderflow_ok _

theorem whileLoop_noUnderflow (need alloc : List (List Nat)) (tnum mnum : Nat) :
    ∀ (fuel : Nat) (st : PassState), NoUnderflow (whileLoop need alloc tnum mnum fuel st)
  | 0, _ => noUnderflow_ok _
  | fuel + 1, st => by
    unfold whileLoop
    split
    · exact noUnderflow_ok _
    · exact (noUnderflow_foldlM (visit_noUnderflow need alloc mnum) _ _).bind fun st' =>
        whileLoop_noUnderflow need alloc tnum mnum fuel st'

/-- **The safety pass never underflows**, on any inputs. -/
theorem safetyPass_noUnderflow (available : List Nat) (need alloc : List (List Nat))
    (tnum mnum : Nat) : NoUnderflow (safetyPass available need alloc tnum mnum) :=
  whileLoop_noUnderflow need alloc tnum mnum _ _

end Rcore
