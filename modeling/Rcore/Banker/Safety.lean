import Rcore.Basic

/-!
# Safe orders of the Banker's algorithm

The ledger of one resource class, read as functions: `need t j` and `alloc t j` are the units
of resource `j < m` that thread `t` waits for and holds, `avail j` the free units.  An order
`σ` of threads is safe (`IsSafeSeq`) when each thread's need fits, resource by resource, in
the free units plus what the threads before it hold; the ledger is safe (`Safe`) when some
order of all `n` threads is safe.  This is the meaning the safety pass of `sys_mutex_lock`
and `sys_semaphore_down` is checked against.

* `IsSafeSeq.append_singleton` — a safe order grows by a thread whose need fits in the free
  units plus the allocations of the order so far.
* `IsSafeSeq.mem_of_stuck` — if `W` covers the free units plus the allocations of a set `F`
  of threads and no thread outside `F` fits in `W`, every thread of a safe order is in `F`.
  This is why a greedy pass that stops when no thread fits has found a safe order whenever
  one exists.
-/

set_option autoImplicit false

namespace Rcore

/-- A `Vec<usize>` read as a function, `0` past its end. -/
def vec (v : List Nat) (j : Nat) : Nat := v.getD j 0

/-- A `Vec<Vec<usize>>` read as a function, `0` past its ends. -/
def entry (M : List (List Nat)) (i j : Nat) : Nat := (M.getD i []).getD j 0

theorem index_eq_vec {v : List Nat} {j : Nat} (h : j < v.length) : index v j = .ok (vec v j) := by
  simp [vec, h]

theorem index_eq_row {M : List (List Nat)} {i : Nat} (h : i < M.length) :
    index M i = .ok (M.getD i []) := by
  simp [h]

theorem entry_eq_vec (M : List (List Nat)) (i j : Nat) : entry M i j = vec (M.getD i []) j := rfl

theorem vec_set {v : List Nat} {i : Nat} (x j : Nat) (h : i < v.length) :
    vec (v.set i x) j = if i = j then x else vec v j := by
  by_cases hij : i = j
  · subst hij; simp [vec, h]
  · simp [vec, hij]

namespace Banker

variable (m : Nat) (need alloc : Nat → Nat → Nat)

/-- `σ` is a safe order from `work`: each thread's need fits in `work` plus the allocations
of the threads before it. -/
def IsSafeSeq : (Nat → Nat) → List Nat → Prop
  | _, [] => True
  | work, i :: σ => (∀ j < m, need i j ≤ work j) ∧ IsSafeSeq (fun j => work j + alloc i j) σ

/-- Some order of all the threads `0 … n-1` is safe from `avail`. -/
def Safe (n : Nat) (avail : Nat → Nat) : Prop :=
  ∃ σ : List Nat, σ.Perm (List.range n) ∧ IsSafeSeq m need alloc avail σ

/-- The allocations of the threads of `σ`, for resource `j`. -/
def held (σ : List Nat) (j : Nat) : Nat := (σ.map (alloc · j)).sum

variable {m need alloc}

@[simp] theorem held_nil (j : Nat) : held alloc [] j = 0 := rfl

@[simp] theorem held_append (σ τ : List Nat) (j : Nat) :
    held alloc (σ ++ τ) j = held alloc σ j + held alloc τ j := by
  simp [held]

@[simp] theorem held_singleton (i j : Nat) : held alloc [i] j = alloc i j := by
  simp [held]

/-- What distinct threads below `n` hold is at most what all of them hold. -/
theorem held_le_range {n : Nat} {σ : List Nat} (hnd : σ.Nodup) (hσ : ∀ i ∈ σ, i < n) (j : Nat) :
    held alloc σ j ≤ held alloc (List.range n) j := by
  obtain ⟨τ, hperm, hsub⟩ := hnd.subperm fun i hi => List.mem_range.mpr (hσ i hi)
  rw [held, ← (hperm.map _).sum_eq]
  exact (hsub.map _).sum_le_sum fun _ _ => Nat.zero_le _

theorem IsSafeSeq.mono : ∀ {σ : List Nat} {w w' : Nat → Nat}, (∀ j < m, w j ≤ w' j) →
    IsSafeSeq m need alloc w σ → IsSafeSeq m need alloc w' σ
  | [], _, _, _, _ => trivial
  | _ :: _, _, _, hle, ⟨hfit, hrest⟩ =>
    ⟨fun j hj => (hfit j hj).trans (hle j hj),
      IsSafeSeq.mono (fun j hj => Nat.add_le_add_right (hle j hj) _) hrest⟩

theorem IsSafeSeq.append_singleton :
    ∀ {σ : List Nat} {w : Nat → Nat} {i : Nat}, IsSafeSeq m need alloc w (σ ++ [i]) ↔
      IsSafeSeq m need alloc w σ ∧ ∀ j < m, need i j ≤ w j + held alloc σ j
  | [], _, _ => by simp [IsSafeSeq]
  | k :: σ, w, i => by
    rw [List.cons_append, IsSafeSeq, IsSafeSeq, IsSafeSeq.append_singleton]
    simp only [held, List.map_cons, List.sum_cons, Nat.add_assoc, and_assoc]

/-- **A safe order only uses threads of a stuck set.**  Let `fin` mark a set of threads whose
allocations, added to `w`, stay within `W`, and let no unmarked thread below `n` fit in `W`.
Then every thread of an order of threads below `n` that is safe from `w` is marked. -/
theorem IsSafeSeq.mem_of_stuck {n : Nat} {W : Nat → Nat} {fin : Nat → Bool}
    (hstuck : ∀ i < n, fin i = false → ∃ j < m, W j < need i j) :
    ∀ {σ : List Nat} {w : Nat → Nat}, IsSafeSeq m need alloc w σ → (∀ i ∈ σ, i < n) →
      (∀ j < m, w j + held alloc (σ.filter fin) j ≤ W j) → ∀ i ∈ σ, fin i = true
  | [], _, _, _, _ => by simp
  | i :: σ, w, ⟨hfit, hrest⟩, hlt, hW => by
    have hi : fin i = true := by
      by_contra hne
      obtain ⟨j, hj, hlt'⟩ := hstuck i (hlt i (List.mem_cons_self _ _)) (by simpa using hne)
      have := hW j hj
      have := hfit j hj
      omega
    have ih := IsSafeSeq.mem_of_stuck hstuck hrest (fun k hk => hlt k (List.mem_cons_of_mem _ hk))
      (fun j hj => by
        have := hW j hj
        simp only [List.filter_cons, hi, if_true, held, List.map_cons, List.sum_cons] at this
        simp only [held]; omega)
    simpa [hi] using ih

end Banker

end Rcore
