import Rcore.Banker.Safety

/-!
# Updates that keep a ledger safe, and why a safe ledger has no deadlock

The ledger updates of the syscalls are of two kinds.  A grant or a release leaves one thread
with nothing left to need; that thread can go first in a safe order, and what it holds is
then back in `work` for the others (`Safe.front`).  A new resource that nobody needs extends
every safe order (`Safe.succ`).  Only the recording of a need can make a ledger unsafe, and
that is the update the safety pass checks.

A safe ledger has no deadlocked set of threads (`Safe.no_deadlock`): the first thread of such
a set in a safe order would need a unit of a resource that has no free unit and that no
thread before it holds.
-/

set_option autoImplicit false

namespace Rcore

namespace Banker

variable {m : Nat} {need alloc : Nat → Nat → Nat}

/-- A safe order stays safe when its threads need no more, hold no less, and start from no
less. -/
theorem IsSafeSeq.transfer {need' alloc' : Nat → Nat → Nat} :
    ∀ {σ : List Nat} {W W' : Nat → Nat}, (∀ j < m, W j ≤ W' j) →
      (∀ i ∈ σ, ∀ j < m, need' i j ≤ need i j ∧ alloc i j ≤ alloc' i j) →
      IsSafeSeq m need alloc W σ → IsSafeSeq m need' alloc' W' σ
  | [], _, _, _, _, _ => trivial
  | i :: _, _, _, hW, hrow, ⟨hfit, hrest⟩ => by
    have hi := hrow i (List.mem_cons_self _ _)
    exact ⟨fun j hj => ((hi j hj).1.trans (hfit j hj)).trans (hW j hj),
      IsSafeSeq.transfer (fun j hj => Nat.add_le_add (hW j hj) (hi j hj).2)
        (fun k hk => hrow k (List.mem_cons_of_mem _ hk)) hrest⟩

/-- With no resources every order is safe. -/
theorem isSafeSeq_zero : ∀ (σ : List Nat) (W : Nat → Nat), IsSafeSeq 0 need alloc W σ
  | [], _ => trivial
  | _ :: σ, _ => ⟨fun _ hj => absurd hj (Nat.not_lt_zero _), isSafeSeq_zero σ _⟩

/-- A thread taken out of a safe order, with its allocation added to the start. -/
theorem IsSafeSeq.erase_front (w : Nat) :
    ∀ {σ : List Nat} {W : Nat → Nat}, IsSafeSeq m need alloc W σ →
      IsSafeSeq m need alloc (fun j => W j + alloc w j) (σ.erase w)
  | [], _, _ => trivial
  | i :: _, _, ⟨hfit, hrest⟩ => by
    by_cases hiw : i = w
    · subst hiw; simpa using hrest
    · rw [List.erase_cons_tail (by simpa using hiw)]
      exact ⟨fun j hj => (hfit j hj).trans (Nat.le_add_right _ _),
        (IsSafeSeq.erase_front w hrest).mono fun j _ => by dsimp only; omega⟩

/-- **A thread with nothing left to need goes first.**  Let the new ledger give thread `t` no
need, leave at least the free units plus `t`'s allocation, and give every other thread no
more need and no less allocation.  Then a safe old ledger gives a safe new one. -/
theorem Safe.front {n t : Nat} (ht : t < n) {avail avail' : Nat → Nat}
    {need' alloc' : Nat → Nat → Nat} (hneed : ∀ j < m, need' t j = 0)
    (hwork : ∀ j < m, avail j + alloc t j ≤ avail' j + alloc' t j)
    (hrow : ∀ i ≠ t, ∀ j < m, need' i j ≤ need i j ∧ alloc i j ≤ alloc' i j) :
    Safe m need alloc n avail → Safe m need' alloc' n avail'
  | ⟨σ, hperm, hsafe⟩ => by
    have htσ : t ∈ σ := hperm.mem_iff.mpr (List.mem_range.mpr ht)
    have hnd : σ.Nodup := hperm.nodup_iff.mpr (List.nodup_range n)
    refine ⟨t :: σ.erase t, (List.perm_cons_erase htσ).symm.trans hperm,
      fun j hj => by rw [hneed j hj]; exact Nat.zero_le _, ?_⟩
    exact (hsafe.erase_front t).transfer hwork fun i hi =>
      hrow i fun hit => hnd.not_mem_erase (hit ▸ hi)

/-- A new resource `m` that nobody needs extends a safe order. -/
theorem IsSafeSeq.succ {need' alloc' : Nat → Nat → Nat}
    (hold : ∀ i, ∀ j < m, need' i j = need i j ∧ alloc' i j = alloc i j)
    (hnew : ∀ i, need' i m = 0) :
    ∀ {σ : List Nat} {W W' : Nat → Nat}, (∀ j < m, W' j = W j) →
      IsSafeSeq m need alloc W σ → IsSafeSeq (m + 1) need' alloc' W' σ
  | [], _, _, _, _ => trivial
  | i :: _, _, _, hW, ⟨hfit, hrest⟩ =>
    ⟨fun j hj => by
      rcases Nat.lt_succ_iff_lt_or_eq.mp hj with hj | rfl
      · rw [(hold i j hj).1, hW j hj]; exact hfit j hj
      · rw [hnew]; exact Nat.zero_le _,
     IsSafeSeq.succ hold hnew (fun j hj => by simp only [hW j hj, (hold i j hj).2]) hrest⟩

/-- **A new resource nobody needs keeps a safe ledger safe.** -/
theorem Safe.succ {n : Nat} {avail avail' : Nat → Nat} {need' alloc' : Nat → Nat → Nat}
    (hold : ∀ i, ∀ j < m, need' i j = need i j ∧ alloc' i j = alloc i j)
    (hnew : ∀ i, need' i m = 0) (havail : ∀ j < m, avail' j = avail j) :
    Safe m need alloc n avail → Safe (m + 1) need' alloc' n avail'
  | ⟨σ, hperm, hsafe⟩ => ⟨σ, hperm, hsafe.succ hold hnew havail⟩

/-- Threads that each need a unit of a `locked` resource, one whose holders all belong to `D`,
never appear in an order that is safe from work that is zero on the locked resources. -/
theorem IsSafeSeq.avoids {n : Nat} {D : List Nat} (locked : Nat → Prop)
    (hheld : ∀ j, locked j → ∀ u < n, 0 < alloc u j → u ∈ D)
    (hneed : ∀ i ∈ D, ∃ j < m, locked j ∧ 0 < need i j) :
    ∀ {σ : List Nat} {W : Nat → Nat}, IsSafeSeq m need alloc W σ → (∀ i ∈ σ, i < n) →
      (∀ j, locked j → W j = 0) → ∀ i ∈ σ, i ∉ D
  | [], _, _, _, _ => by simp
  | i :: _, _, ⟨hfit, hrest⟩, hlt, hW => by
    have hi : i ∉ D := fun hiD => by
      obtain ⟨j, hj, hl, hpos⟩ := hneed i hiD
      have := hfit j hj
      rw [hW j hl] at this
      omega
    have hzero : ∀ j, locked j → alloc i j = 0 := fun j hl =>
      Nat.eq_zero_of_not_pos fun hpos => hi (hheld j hl i (hlt i (List.mem_cons_self _ _)) hpos)
    have ih := IsSafeSeq.avoids locked hheld hneed hrest
      (fun k hk => hlt k (List.mem_cons_of_mem _ hk)) (fun j hl => by simp [hW j hl, hzero j hl])
    intro k hk
    rcases List.mem_cons.mp hk with rfl | hk
    · exact hi
    · exact ih k hk

/-- **A safe ledger has no deadlocked set**: no nonempty set `D` of threads each needs a unit
of a resource with no free unit all of whose holders are in `D`. -/
theorem Safe.no_deadlock {n : Nat} {avail : Nat → Nat} (hsafe : Safe m need alloc n avail)
    {D : List Nat} (hD : D ≠ []) (hDn : ∀ t ∈ D, t < n)
    (hstuck : ∀ t ∈ D, ∃ j < m, 0 < need t j ∧ avail j = 0 ∧ ∀ u < n, 0 < alloc u j → u ∈ D) :
    False := by
  obtain ⟨σ, hperm, hseq⟩ := hsafe
  obtain ⟨t, htD⟩ := List.exists_mem_of_ne_nil D hD
  exact hseq.avoids (fun j => avail j = 0 ∧ ∀ u < n, 0 < alloc u j → u ∈ D) (fun _ hl => hl.2)
    (fun i hi => let ⟨j, hj, hpos, h0, hh⟩ := hstuck i hi; ⟨j, hj, ⟨h0, hh⟩, hpos⟩)
    (fun i hi => List.mem_range.mp (hperm.subset hi)) (fun _ hl => hl.1) t
    (hperm.mem_iff.mpr (List.mem_range.mpr (hDn t htD))) htD

end Banker

end Rcore
