import Rcore.Sync.Agreement

/-!
# The ledger's subtractions

The unlock and up syscalls decrement `allocation[tid][rid]` without asking whether the caller
holds a unit of `rid`; the ledger's counts stay above zero only as long as it agrees with the
primitives.

* `semaphore_ledger_bounded` — when every `up` is made by a holder, `create` and a holder's
  `up` succeed, `down` never underflows, and `available[j]` plus the allocations of any
  distinct threads, the values the safety pass's `work[j]` takes, stays within `usize::MAX`.
  A signalling `up` by a thread that never took a unit underflows
  (`semaphore_up_unheld_underflows`).
* `mutex_ledger_no_underflow` — `lock` never underflows, and a holder's `unlock` of a blocking
  mutex succeeds.  A spinning mutex taken over by a spinner is not: its new holder has no
  allocation, and its `unlock` underflows (`spin_unlock_underflows`).
-/

set_option autoImplicit false

namespace Rcore

variable {T : Nat} {s : Sys} {t : Nat}

/-- A semaphore slot within the list is filled. -/
theorem Tidy.semaphore_slot (h : Tidy T s) {sid : Nat} (hs : sid < s.proc.semaphoreList.length) :
    ∃ sem, s.proc.semaphoreList[sid]? = some (some sem) := by
  obtain ⟨sem, hsem⟩ := Option.ne_none_iff_exists'.mp
    (h.semaphoreFilled _ (List.getElem_mem hs))
  exact ⟨sem, by rw [List.getElem?_eq_getElem hs, hsem]⟩

/-- A mutex slot within the list is filled. -/
theorem Tidy.mutex_slot (h : Tidy T s) {m : Nat} (hm : m < s.proc.mutexList.length) :
    ∃ mutex, s.proc.mutexList[m]? = some (some mutex) := by
  obtain ⟨mutex, hmx⟩ := Option.ne_none_iff_exists'.mp (h.mutexFilled _ (List.getElem_mem hm))
  exact ⟨mutex, by rw [List.getElem?_eq_getElem hm, hmx]⟩

/-- A holder's `up` succeeds. -/
theorem Agrees.semaphoreUp_ok (hA : Agrees T s) (ht : t < T) {sid : Nat}
    (hpos : 0 < s.held .semaphore t sid) : ∃ s', s.exec t (.semaphoreUp sid) = .ok s' := by
  have hcol := hA.columns .semaphore
  have hs : sid < s.proc.semaphoreList.length := by
    by_contra hs
    exact Nat.pos_iff_ne_zero.mp hpos (hcol.unheld t sid (Nat.le_of_not_lt hs))
  obtain ⟨sem, hslot⟩ := hA.tidy.semaphore_slot hs
  have hc : s.proc.counter .semaphore sid = some sem.counter := by
    simp [ProcessInner.counter, hslot]
  obtain ⟨l', hrel⟩ := hcol.release_ok hc ht hpos
  exact ⟨_, by simp only [Sys.exec, sysSemaphoreUp_of_release hslot hrel, ok_bind]; rfl⟩

/-- **No semaphore call underflows the ledger, and the safety pass's `work` fits in `usize`**,
in every state a fresh process reaches when each `up` is made by a holder. -/
theorem semaphore_ledger_bounded {detect : Bool}
    (h : Reachable T AgreementCalls (Sys.init T detect) s) (ht : t < T) (sid : Nat) :
    (∀ n, ∃ s', s.exec t (.semaphoreCreate n) = .ok s') ∧
      NoUnderflow (s.exec t (.semaphoreDown sid)) ∧
      (0 < s.held .semaphore t sid → ∃ s', s.exec t (.semaphoreUp sid) = .ok s') ∧
      ∀ j < s.proc.semaphoreList.length, ∀ L : List Nat, L.Nodup → (∀ i ∈ L, i < T) →
        vec s.proc.semaphore.available j + Banker.held (entry s.proc.semaphore.allocation) L j ≤
          usizeMax := by
  have hA := Agrees.reachable h
  have hcol := hA.columns .semaphore
  refine ⟨fun n => ?_, ?_, hA.semaphoreUp_ok ht, fun j hj L hnd hL => ?_⟩
  · exact ⟨_, by simp only [Sys.exec,
      sysSemaphoreCreate_of_full (freeSlot_eq_none hA.tidy.semaphoreFilled), ok_bind]; rfl⟩
  · exact (sysSemaphoreDown_noUnderflow hcol.shape ht sid).bind fun ⟨_, _, _⟩ =>
      noUnderflow_ok _
  · obtain ⟨sem, hslot⟩ := hA.tidy.semaphore_slot hj
    exact hcol.work_le (by simp [ProcessInner.counter, hslot] :
      s.proc.counter .semaphore j = some sem.counter) hnd hL

theorem semaphore_ledger_bounded_holder :
    ∃ s, Reachable 2 AgreementCalls (Sys.init 2 false) s ∧ s.held .semaphore 1 0 = 1 ∧
      s.thread 0 = .blocked .mutex 0 ∧ (∃ s', s.exec 1 (.semaphoreUp 0) = .ok s') ∧
      ((∀ n, ∃ s', s.exec 1 (.semaphoreCreate n) = .ok s') ∧
        NoUnderflow (s.exec 1 (.semaphoreDown 0)) ∧
        (0 < s.held .semaphore 1 0 → ∃ s', s.exec 1 (.semaphoreUp 0) = .ok s') ∧
        ∀ j < s.proc.semaphoreList.length, ∀ L : List Nat, L.Nodup → (∀ i ∈ L, i < 2) →
          vec s.proc.semaphore.available j + Banker.held (entry s.proc.semaphore.allocation) L j ≤
            usizeMax) := by
  obtain ⟨s, hr, -, hblk, -, hheld, -⟩ := reachable_after_handoff
  have hb := semaphore_ledger_bounded hr (by decide : 1 < 2) 0
  exact ⟨s, hr, hheld, hblk, hb.2.2.1 (by rw [hheld]; exact Nat.one_pos), hb⟩

/-- A signalling `up` by a thread that never took a unit of the semaphore decrements its
`semaphore_allocation` entry below zero. -/
theorem semaphore_up_unheld_underflows :
    ∃ s, Reachable 1 (fun _ _ _ => True) (Sys.init 1 false) s ∧
      s.exec 0 (.semaphoreUp 0) = .error .subtractOverflow :=
  ⟨_, .single (@Step.call 1 (fun _ _ _ => True) _ _ 0 (.semaphoreCreate 0) (by decide) rfl
    trivial rfl), rfl⟩


/-- A holder's `unlock` of a blocking mutex succeeds. -/
theorem Agrees.mutexUnlock_ok (hA : Agrees T s) (ht : t < T) {m : Nat}
    (hpos : 0 < s.held .mutex t m) (hblocking : s.proc.counter .mutex m ≠ none) :
    ∃ s', s.exec t (.mutexUnlock m) = .ok s' := by
  have hcol := hA.columns .mutex
  have hm : m < s.proc.mutexList.length := by
    by_contra hm
    exact Nat.pos_iff_ne_zero.mp hpos (hcol.unheld t m (Nat.le_of_not_lt hm))
  obtain ⟨mutex, hslot⟩ := hA.tidy.mutex_slot hm
  obtain ⟨c, hc⟩ := Option.ne_none_iff_exists'.mp hblocking
  have hc' : mutex.counter? = some c := by simpa [ProcessInner.counter, hslot] using hc
  obtain ⟨-, -, hwake⟩ := MutexPrim.unlock_counter hc' (hcol.free_eq_zero hc ht hpos)
  obtain ⟨l', hrel⟩ := hcol.release_ok hc ht hpos
  rw [← hwake] at hrel
  exact ⟨_, by simp only [Sys.exec, sysMutexUnlock_of_release hslot hrel, ok_bind]; rfl⟩

/-- **No mutex call underflows the ledger of a blocking mutex**, in every state a fresh process
reaches under the callers' discipline: `lock` never underflows, and a holder's `unlock` of a
blocking mutex succeeds. -/
theorem mutex_ledger_no_underflow {detect : Bool}
    (h : Reachable T AgreementCalls (Sys.init T detect) s) (ht : t < T) (m : Nat) :
    NoUnderflow (s.exec t (.mutexLock m)) ∧
      (0 < s.held .mutex t m → s.proc.counter .mutex m ≠ none →
        ∃ s', s.exec t (.mutexUnlock m) = .ok s') := by
  have hA := Agrees.reachable h
  exact ⟨(sysMutexLock_noUnderflow (hA.columns .mutex).shape ht m).bind fun ⟨_, _, _⟩ =>
    noUnderflow_ok _, hA.mutexUnlock_ok ht⟩

theorem mutex_ledger_no_underflow_handoff :
    ∃ s, Reachable 2 AgreementCalls (Sys.init 2 false) s ∧ s.held .mutex 1 0 = 1 ∧
      s.thread 0 = .blocked .mutex 0 ∧ (∃ s', s.exec 1 (.mutexUnlock 0) = .ok s') ∧
      (NoUnderflow (s.exec 1 (.mutexLock 0)) ∧
        (0 < s.held .mutex 1 0 → s.proc.counter .mutex 0 ≠ none →
          ∃ s', s.exec 1 (.mutexUnlock 0) = .ok s')) := by
  obtain ⟨s, hr, -, hblk, hheld, -, c, hc, -⟩ := reachable_after_handoff
  have hb := mutex_ledger_no_underflow hr (by decide : 1 < 2) 0
  exact ⟨s, hr, hheld, hblk,
    hb.2 (by rw [hheld]; exact Nat.one_pos) (by rw [hc]; exact Option.some_ne_none _), hb⟩

/-- **The second holder of a spinning mutex underflows the ledger**, which is why
`mutex_ledger_no_underflow` asks for a blocking mutex.  Thread 0 locks a spinning mutex, thread
1 spins on it, thread 0 unlocks it (`get_waking_tid` reports `-1`, so the ledger frees the unit)
and thread 1 takes it at its next poll with no allocation; its `sys_mutex_unlock` then
decrements `mutex_allocation[1][0]` below zero. -/
theorem spin_unlock_underflows :
    ∃ s, Reachable 2 Sys.Disciplined (Sys.init 2 false) s ∧ 0 < s.held .mutex 1 0 ∧
      s.exec 1 (.mutexUnlock 0) = .error .subtractOverflow :=
  ⟨_, .head (@Step.call 2 Sys.Disciplined _ _ 0 (.mutexCreate false) (by decide) rfl trivial rfl)
    (.head (@Step.call 2 Sys.Disciplined _ _ 0 (.mutexLock 0) (by decide) rfl trivial rfl)
    (.head (@Step.call 2 Sys.Disciplined _ _ 1 (.mutexLock 0) (by decide) rfl trivial rfl)
    (.head (@Step.call 2 Sys.Disciplined _ _ 0 (.mutexUnlock 0) (by decide) rfl (by decide) rfl)
    (.single (@Step.resume 2 Sys.Disciplined _ _ 1 (by decide) rfl))))),
    by decide, rfl⟩

end Rcore
