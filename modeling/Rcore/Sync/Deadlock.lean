import Rcore.Sync.Underflow
import Rcore.Sync.Avoidance

/-!
# Deadlock avoidance along every run

With detection on, `sys_mutex_lock` and `sys_semaphore_down` keep a recorded need only when the
safety pass finds the ledger of their own class safe.  Under the callers' discipline, with
blocking mutexes only, and with every acquire made while its class has one slot per thread
(the pass runs over `mutex_list.len()` rows, not over the threads), each ledger stays safe
along every run (`Avoids.reachable`).  A safe ledger has no deadlocked set, so no set of
threads deadlocks on one class of resources.

The two ledgers are checked apart, so nothing rules out a deadlock that crosses them: a thread
holding a mutex and blocked on a semaphore, and a thread holding that semaphore and blocked on
the mutex (`cross_class_deadlock`).  Every deadlocked set is of that kind
(`deadlock_crosses_classes`).

Under the same calls the safety pass itself never panics (`acquire_never_panics`): it runs over
the `T` rows the ledger has, and the primitives keep each column sum within a `usize`.
-/

set_option autoImplicit false

namespace Rcore

/-- The calls of the avoidance argument: blocking mutexes and semaphores are created, acquired
and released, and a `lock`/`down` is made while its class has one slot per thread. -/
def AvoidanceCall (T : Nat) (s : Sys) : Call → Prop
  | .mutexCreate blocking => blocking = true
  | .semaphoreCreate _ | .mutexUnlock _ | .semaphoreUp _ => True
  | .mutexLock _ => s.proc.mutexList.length = T
  | .semaphoreDown _ => s.proc.semaphoreList.length = T
  | .condvarCreate | .condvarSignal _ | .condvarWait _ _ | .enableDeadlockDetect _ => False

instance (T : Nat) (s : Sys) : (c : Call) → Decidable (AvoidanceCall T s c)
  | .mutexCreate blocking => inferInstanceAs (Decidable (blocking = true))
  | .semaphoreCreate _ | .mutexUnlock _ | .semaphoreUp _ => isTrue trivial
  | .mutexLock _ => inferInstanceAs (Decidable (s.proc.mutexList.length = T))
  | .semaphoreDown _ => inferInstanceAs (Decidable (s.proc.semaphoreList.length = T))
  | .condvarCreate | .condvarSignal _ | .condvarWait _ _ | .enableDeadlockDetect _ => isFalse id

/-- The disciplined avoidance calls. -/
def AvoidanceCalls (T : Nat) (s : Sys) (t : Nat) (c : Call) : Prop :=
  s.Disciplined t c ∧ AvoidanceCall T s c

instance (T : Nat) (s : Sys) (t : Nat) (c : Call) : Decidable (AvoidanceCalls T s t c) :=
  inferInstanceAs (Decidable (_ ∧ _))

/-- A resource's units fit in a `usize`. -/
theorem Kind.cap_le : ∀ k : Kind, k.cap ≤ usizeMax
  | .mutex => by decide
  | .semaphore => le_rfl

/-- `D` is a deadlocked set of threads: each is blocked on a resource with no free unit, all of
whose held units are held by threads of `D`. -/
def Deadlocked (T : Nat) (s : Sys) (D : List Nat) : Prop :=
  D ≠ [] ∧ ∀ t ∈ D, t < T ∧ ∃ k r c, s.thread t = .blocked k r ∧ s.proc.counter k r = some c ∧
    c.free = 0 ∧ ∀ u < T, 0 < s.held k u r → u ∈ D

/-- **What deadlock avoidance keeps**: the agreement, detection on, every mutex blocking, and
both ledgers safe over the `T` thread rows. -/
structure Avoids (T : Nat) (s : Sys) : Prop where
  agrees : Agrees T s
  detect : s.proc.isEnableDeadlockDetect = true
  blocking : ∀ j < s.proc.mutexList.length, s.proc.counter .mutex j ≠ none
  safe : ∀ k, (s.proc.ledger k).Safe T (s.proc.slots k)

namespace Avoids

variable {T : Nat} {s : Sys} {t : Nat}

/-- Every resource of either class is a counter. -/
theorem tracked (hA : Avoids T s) : ∀ k, ∀ j < s.proc.slots k, s.proc.counter k j ≠ none
  | .mutex, j, hj => hA.blocking j hj
  | .semaphore, j, hj => by
    obtain ⟨x, hx⟩ := Option.ne_none_iff_exists'.mp
      (hA.agrees.tidy.semaphoreFilled _ (List.getElem_mem hj))
    simp [ProcessInner.counter, List.getElem?_eq_getElem hj, hx]

/-- `Avoids` read off the agreement and the process. -/
theorem ofProc {s' : Sys} (hagree : Agrees T s') {p : ProcessInner} (hp : s'.proc = p)
    (hdetect : p.isEnableDeadlockDetect = true)
    (hblocking : ∀ j < p.mutexList.length, p.counter .mutex j ≠ none)
    (hsafe : ∀ k, (p.ledger k).Safe T (p.slots k)) : Avoids T s' := by
  subst hp; exact ⟨hagree, hdetect, hblocking, hsafe⟩

theorem init (T : Nat) : Avoids T (Sys.init T true) :=
  ⟨Agrees.init T true, rfl, fun _ hj => absurd hj (Nat.not_lt_zero _), fun k => by
    cases k <;> exact ⟨List.range T, List.Perm.refl _, Banker.isSafeSeq_zero _ _⟩⟩

/-- `sys_mutex_create(true)`: a new blocking mutex and a new column. -/
theorem mutexCreate (hA : Avoids T s) {s' : Sys} (h : s.exec t (.mutexCreate true) = .ok s') :
    Avoids T s' := by
  have hagree := hA.agrees.mutexCreate h
  obtain ⟨v, p', hcall, rfl⟩ := Sys.exec_mutexCreate h
  rw [sysMutexCreate_of_full (freeSlot_eq_none hA.agrees.tidy.mutexFilled)] at hcall
  obtain ⟨-, rfl⟩ := Prod.mk.inj (Except.ok.inj hcall)
  refine ⟨hagree, hA.detect, fun j hj => ?_, fun k => ?_⟩
  · rw [ProcessInner.counter_mutexList_append]
    simp only [List.length_append, List.length_singleton] at hj
    rcases Nat.lt_or_ge j s.proc.mutexList.length with h1 | h1
    · rw [if_pos h1]; exact hA.blocking j h1
    · rw [if_neg (by omega), if_pos (by omega)]; simp [MutexPrim.counter?]
  · cases k
    · simp only [ProcessInner.ledger, ProcessInner.slots, List.length_append,
        List.length_singleton]
      exact (hA.safe .mutex).pushColumn (hA.agrees.columns .mutex).shape 1
    · exact hA.safe .semaphore

/-- `sys_semaphore_create`: a new semaphore and a new column. -/
theorem semaphoreCreate (hA : Avoids T s) {n : Nat} (hn : n ≤ usizeMax) {s' : Sys}
    (h : s.exec t (.semaphoreCreate n) = .ok s') : Avoids T s' := by
  have hagree := hA.agrees.semaphoreCreate hn h
  obtain ⟨v, p', hcall, rfl⟩ := Sys.exec_semaphoreCreate h
  rw [sysSemaphoreCreate_of_full (freeSlot_eq_none hA.agrees.tidy.semaphoreFilled)] at hcall
  obtain ⟨-, rfl⟩ := Prod.mk.inj (Except.ok.inj hcall)
  refine ⟨hagree, hA.detect, hA.blocking, fun k => ?_⟩
  cases k
  · exact hA.safe .mutex
  · simp only [ProcessInner.ledger, ProcessInner.slots, List.length_append,
      List.length_singleton]
    exact (hA.safe .semaphore).pushColumn (hA.agrees.columns .semaphore).shape n

/-- `sys_mutex_lock` while the class has one slot per thread. -/
theorem mutexLock (hA : Avoids T s) (ht : t < T) (hrun : s.thread t = .running) {m : Nat}
    (hrows : s.proc.mutexList.length = T) {s' : Sys} (h : s.exec t (.mutexLock m) = .ok s') :
    Avoids T s' := by
  have hagree := hA.agrees.mutexLock ht hrun h
  obtain ⟨v, p', a, hcall, rfl⟩ := Sys.exec_mutexLock h
  obtain ⟨mutex, b, l', hslot, hreq, hcase⟩ := sysMutexLock_ok hcall
  obtain ⟨hm, -⟩ := List.getElem?_eq_some_iff.mp hslot
  have hsafe : l'.Safe T s.proc.mutexList.length := by
    rw [hrows, hA.detect] at hreq
    exact (hA.agrees.columns .mutex).safe_request (hA.tracked .mutex) (Kind.cap_le _)
      (hA.safe .mutex) ht
      (Sys.waiting_of_running hrun .mutex) hm hreq
  rcases hcase with ⟨rfl, rfl, rfl⟩ | ⟨rfl, rfl, rfl⟩
  · refine ofProc hagree (Sys.acquired_proc _ _ _ _ _) hA.detect hA.blocking fun k => ?_
    cases k
    · exact hsafe
    · exact hA.safe .semaphore
  · refine ofProc hagree (Sys.acquired_proc _ _ _ _ _) hA.detect (fun j hj => ?_) fun k => ?_
    · rw [List.length_set] at hj
      rw [ProcessInner.counter_mutexList_set _ hm]
      by_cases hjm : j = m
      · subst hjm
        obtain ⟨c, hc⟩ := Option.ne_none_iff_exists'.mp (hA.blocking j hj)
        rw [Function.update_same, (MutexPrim.lock_counter (by
          simpa [ProcessInner.counter, hslot] using hc) t).1]
        exact Option.some_ne_none _
      · rw [Function.update_noteq hjm]; exact hA.blocking j hj
    · cases k
      · simpa [ProcessInner.ledger, ProcessInner.slots] using hsafe
      · exact hA.safe .semaphore

/-- `sys_mutex_unlock` by a holder. -/
theorem mutexUnlock (hA : Avoids T s) (ht : t < T) (hrun : s.thread t = .running) {m : Nat}
    (hheld : 0 < s.held .mutex t m) {s' : Sys} (h : s.exec t (.mutexUnlock m) = .ok s') :
    Avoids T s' := by
  have hagree := hA.agrees.mutexUnlock ht hrun hheld h
  obtain ⟨v, p', w, hcall, rfl⟩ := Sys.exec_mutexUnlock h
  obtain ⟨mutex, l', hslot, hrel, rfl, rfl⟩ := sysMutexUnlock_ok hcall
  obtain ⟨hm, -⟩ := List.getElem?_eq_some_iff.mp hslot
  have hcol := hA.agrees.columns .mutex
  obtain ⟨c, hc⟩ := Option.ne_none_iff_exists'.mp (hA.blocking m hm)
  have hc' : mutex.counter? = some c := by simpa [ProcessInner.counter, hslot] using hc
  obtain ⟨h1, -, h3⟩ := MutexPrim.unlock_counter hc' (hcol.free_eq_zero hc ht hheld)
  rw [h3] at hrel
  refine ofProc hagree (Sys.released_proc _ _ _ _ _) hA.detect (fun j hj => ?_) fun k => ?_
  · rw [List.length_set] at hj
    rw [ProcessInner.counter_mutexList_set _ hm]
    by_cases hjm : j = m
    · subst hjm; rw [Function.update_same, h1]; exact Option.some_ne_none _
    · rw [Function.update_noteq hjm]; exact hA.blocking j hj
  · cases k
    · simpa [ProcessInner.ledger, ProcessInner.slots] using
        hcol.safe_release (hA.tracked .mutex) (hA.safe .mutex) hc ht
          (Sys.waiting_of_running hrun .mutex) hheld (hA.agrees.queue_only hc) hrel
    · exact hA.safe .semaphore

/-- `sys_semaphore_down` while the class has one slot per thread. -/
theorem semaphoreDown (hA : Avoids T s) (ht : t < T) (hrun : s.thread t = .running)
    {sid : Nat} (hrows : s.proc.semaphoreList.length = T) {s' : Sys}
    (h : s.exec t (.semaphoreDown sid) = .ok s') : Avoids T s' := by
  have hagree := hA.agrees.semaphoreDown ht hrun h
  obtain ⟨v, p', a, hcall, rfl⟩ := Sys.exec_semaphoreDown h
  obtain ⟨sem, b, l', hslot, hreq, hcase⟩ := sysSemaphoreDown_ok hcall
  obtain ⟨hs, -⟩ := List.getElem?_eq_some_iff.mp hslot
  have hsafe : l'.Safe T s.proc.semaphoreList.length := by
    rw [hrows, hA.detect] at hreq
    exact (hA.agrees.columns .semaphore).safe_request (hA.tracked .semaphore) (Kind.cap_le _)
      (hA.safe .semaphore) ht (Sys.waiting_of_running hrun .semaphore) hs hreq
  rcases hcase with ⟨rfl, rfl, rfl⟩ | ⟨rfl, rfl, rfl⟩
  all_goals refine ofProc hagree (Sys.acquired_proc _ _ _ _ _) hA.detect hA.blocking fun k => ?_
  all_goals cases k
  all_goals first
    | exact hA.safe .mutex
    | simpa [ProcessInner.ledger, ProcessInner.slots] using hsafe

/-- `sys_semaphore_up` by a holder. -/
theorem semaphoreUp (hA : Avoids T s) (ht : t < T) (hrun : s.thread t = .running) {sid : Nat}
    (hheld : 0 < s.held .semaphore t sid) {s' : Sys}
    (h : s.exec t (.semaphoreUp sid) = .ok s') : Avoids T s' := by
  have hagree := hA.agrees.semaphoreUp ht hrun hheld h
  obtain ⟨v, p', w, hcall, rfl⟩ := Sys.exec_semaphoreUp h
  obtain ⟨sem, l', hslot, hrel, rfl, rfl⟩ := sysSemaphoreUp_ok hcall
  have hc : s.proc.counter .semaphore sid = some sem.counter := by
    simp [ProcessInner.counter, hslot]
  refine ofProc hagree (Sys.released_proc _ _ _ _ _) hA.detect hA.blocking fun k => ?_
  cases k
  · exact hA.safe .mutex
  · simpa [ProcessInner.ledger, ProcessInner.slots] using
      (hA.agrees.columns .semaphore).safe_release (hA.tracked .semaphore) (hA.safe .semaphore)
        hc ht (Sys.waiting_of_running hrun .semaphore) hheld (hA.agrees.queue_only hc) hrel

/-- No thread polls: every mutex is blocking, and no thread waits on a condition variable. -/
theorem resume_none (hA : Avoids T s) (ht : t < T) : s.resume t = none := by
  unfold Sys.resume
  split
  · rename_i m hth
    obtain ⟨hm, hc0⟩ := hA.agrees.tidy.spinning t ht m hth
    exact absurd hc0 (hA.blocking m hm)
  · rename_i m hth
    exact absurd hth ((hA.agrees.tidy.quiet t ht).2 m)
  · rfl

/-- **Each avoidance step keeps `Avoids`.** -/
theorem step (hA : Avoids T s) {s' : Sys} (h : Step T (AvoidanceCalls T) s s') : Avoids T s' := by
  cases h with
  | @call t c ht hrun hok h =>
    obtain ⟨hdisc, hcall⟩ := hok
    cases c with
    | mutexCreate b => cases hcall; exact hA.mutexCreate h
    | mutexLock m => exact hA.mutexLock ht hrun hcall h
    | mutexUnlock m => exact hA.mutexUnlock ht hrun hdisc h
    | semaphoreCreate n => exact hA.semaphoreCreate hdisc h
    | semaphoreUp sid => exact hA.semaphoreUp ht hrun hdisc h
    | semaphoreDown sid => exact hA.semaphoreDown ht hrun hcall h
    | condvarCreate | condvarSignal _ | condvarWait _ _ | enableDeadlockDetect _ =>
      exact hcall.elim
  | resume ht h => rw [hA.resume_none ht] at h; cases h

/-- **Every state a process with detection on reaches by avoidance calls keeps `Avoids`.** -/
theorem reachable {s : Sys} (h : Reachable T (AvoidanceCalls T) (Sys.init T true) s) :
    Avoids T s :=
  Reachable.invariant (fun _ _ hA hst => hA.step hst) (init T) h

/-- **No deadlock within one class**: under `Avoids`, a deadlocked set has a thread that is not
blocked on class `k`. -/
theorem not_within (hA : Avoids T s) {D : List Nat} (hD : Deadlocked T s D) (k : Kind) :
    ∃ t ∈ D, ∀ r, s.thread t ≠ .blocked k r := by
  by_contra hall
  push_neg at hall
  have hcol := hA.agrees.columns k
  refine Banker.Safe.no_deadlock (hA.safe k) hD.1 (fun t ht => (hD.2 t ht).1) fun t htD => ?_
  obtain ⟨htT, k', r, c, hth, hc, hfree, hholders⟩ := (hD.2 t htD)
  obtain ⟨r', hth'⟩ := hall t htD
  obtain ⟨rfl, rfl⟩ := ThreadState.blocked.inj (hth.symm.trans hth')
  refine ⟨r, hcol.bounded r c hc, ?_, by rw [hcol.available r c hc, hfree], fun u hu hpos => ?_⟩
  · rw [hcol.need r c hc t htT]; simp [Sys.waiting, hth]
  · exact hholders u hu (by rwa [hcol.allocation r c hc u hu] at hpos)

end Avoids

/-- **Deadlock avoidance keeps both ledgers safe**: with detection on from the start, in every
state the avoidance calls reach, each class's ledger has an order of all `T` threads in which
every thread's need fits in the free units plus what the threads before it hold. -/
theorem ledgers_safe_reachable {T : Nat} {s : Sys}
    (h : Reachable T (AvoidanceCalls T) (Sys.init T true) s) (k : Kind) :
    Banker.Safe (s.proc.slots k) (entry (s.proc.ledger k).need)
      (entry (s.proc.ledger k).allocation) T (vec (s.proc.ledger k).available) :=
  (Avoids.reachable h).safe k

/-- **No acquire panics under deadlock avoidance**: with detection on from the start, in every
state the avoidance calls reach, `sys_mutex_lock` (resp. `sys_semaphore_down`) of an existing
resource, made while its class has one slot per thread, succeeds: the safety pass reads only
rows the ledger has, and its additions stay within the column sums, which fit in a `usize`. -/
theorem acquire_never_panics {T : Nat} {s : Sys}
    (h : Reachable T (AvoidanceCalls T) (Sys.init T true) s) {t : Nat} (ht : t < T) :
    (∀ m < s.proc.mutexList.length, s.proc.mutexList.length = T →
      ∃ s', s.exec t (.mutexLock m) = .ok s') ∧
    ∀ sid < s.proc.semaphoreList.length, s.proc.semaphoreList.length = T →
      ∃ s', s.exec t (.semaphoreDown sid) = .ok s' := by
  have hA := Avoids.reachable h
  refine ⟨fun m hm hrows => ?_, fun sid hs hrows => ?_⟩
  · have hcol := hA.agrees.columns .mutex
    obtain ⟨mutex, hslot⟩ := hA.agrees.tidy.mutex_slot hm
    obtain ⟨b, l', hreq⟩ := Ledger.request_ok hcol.shape ht hm
      (hcol.columnsFit (hA.tracked .mutex) (Kind.cap_le _)) s.proc.isEnableDeadlockDetect
    rw [← hrows] at hreq
    obtain ⟨⟨v, p, a⟩, hr⟩ := sysMutexLock_of_request hslot hreq
    exact ⟨_, by simp only [Sys.exec, hr, ok_bind]; rfl⟩
  · have hcol := hA.agrees.columns .semaphore
    obtain ⟨sem, hslot⟩ := hA.agrees.tidy.semaphore_slot hs
    obtain ⟨b, l', hreq⟩ := Ledger.request_ok hcol.shape ht hs
      (hcol.columnsFit (hA.tracked .semaphore) (Kind.cap_le _)) s.proc.isEnableDeadlockDetect
    rw [← hrows] at hreq
    obtain ⟨⟨v, p, a⟩, hr⟩ := sysSemaphoreDown_of_request hslot hreq
    exact ⟨_, by simp only [Sys.exec, hr, ok_bind]; rfl⟩

/-- Two threads with detection on, two blocking mutexes and two one-unit semaphores: thread 0
holds mutex 0 and thread 1 semaphore 0, so thread 0's `sys_semaphore_down(0)` runs the safety
pass over both rows, and it succeeds. -/
theorem acquire_never_panics_exhausted :
    ∃ s, Reachable 2 (AvoidanceCalls 2) (Sys.init 2 true) s ∧ s.thread 0 = .running ∧
      vec s.proc.semaphore.available 0 = 0 ∧ (∃ s', s.exec 0 (.semaphoreDown 0) = .ok s') ∧
      ((∀ m < s.proc.mutexList.length, s.proc.mutexList.length = 2 →
          ∃ s', s.exec 0 (.mutexLock m) = .ok s') ∧
        ∀ sid < s.proc.semaphoreList.length, s.proc.semaphoreList.length = 2 →
          ∃ s', s.exec 0 (.semaphoreDown sid) = .ok s') :=
  have hr : Reachable 2 (AvoidanceCalls 2) (Sys.init 2 true) _ :=
    .head (@Step.call 2 (AvoidanceCalls 2) _ _ 0 (.mutexCreate true) (by decide) rfl (by decide) rfl)
    (.head (@Step.call 2 (AvoidanceCalls 2) _ _ 0 (.mutexCreate true) (by decide) rfl (by decide) rfl)
    (.head (@Step.call 2 (AvoidanceCalls 2) _ _ 0 (.semaphoreCreate 1) (by decide) rfl (by decide) rfl)
    (.head (@Step.call 2 (AvoidanceCalls 2) _ _ 0 (.semaphoreCreate 1) (by decide) rfl (by decide) rfl)
    (.head (@Step.call 2 (AvoidanceCalls 2) _ _ 0 (.mutexLock 0) (by decide) rfl (by decide) rfl)
    (.single (@Step.call 2 (AvoidanceCalls 2) _ _ 1 (.semaphoreDown 0) (by decide) rfl (by decide) rfl))))))
  have hp := acquire_never_panics hr (by decide : 0 < 2)
  ⟨_, hr, rfl, rfl, hp.2 0 (by decide) rfl, hp⟩

/-- **A deadlock must cross the two classes.**  With detection on from the start, under the
callers' discipline, with blocking mutexes only and every acquire made while its class has one
slot per thread, every deadlocked set has a thread blocked on a mutex and a thread blocked on a
semaphore. -/
theorem deadlock_crosses_classes {T : Nat} {s : Sys}
    (h : Reachable T (AvoidanceCalls T) (Sys.init T true) s) {D : List Nat}
    (hD : Deadlocked T s D) :
    (∃ t ∈ D, ∃ r, s.thread t = .blocked .mutex r) ∧
      ∃ t ∈ D, ∃ r, s.thread t = .blocked .semaphore r := by
  have hA := Avoids.reachable h
  have hother : ∀ k k', k ≠ k' → ∃ t ∈ D, ∃ r, s.thread t = .blocked k r := fun k k' hkk' => by
    obtain ⟨t, htD, hnot⟩ := hA.not_within hD k'
    obtain ⟨-, k'', r, -, hth, -⟩ := hD.2 t htD
    have hk : k'' = k := by
      cases k <;> cases k' <;> cases k'' <;> first | rfl | exact absurd rfl hkk' | exact absurd hth (hnot r)
    exact ⟨t, htD, r, hk ▸ hth⟩
  exact ⟨hother .mutex .semaphore (by decide), hother .semaphore .mutex (by decide)⟩


/-- Two threads with detection on, two blocking mutexes and two semaphores of one unit: thread 0
locks mutex 0 and thread 1 takes semaphore 0; then thread 0 asks for semaphore 0 and thread 1
for mutex 0.  Each request, checked against its own ledger, is safe, so both block. -/
theorem crossDeadlock_reachable :
    ∃ s, Reachable 2 (AvoidanceCalls 2) (Sys.init 2 true) s ∧ Deadlocked 2 s [0, 1] := by
  refine ⟨_,
    .head (@Step.call 2 (AvoidanceCalls 2) _ _ 0 (.mutexCreate true) (by decide) rfl (by decide) rfl)
    (.head (@Step.call 2 (AvoidanceCalls 2) _ _ 0 (.mutexCreate true) (by decide) rfl (by decide) rfl)
    (.head (@Step.call 2 (AvoidanceCalls 2) _ _ 0 (.semaphoreCreate 1) (by decide) rfl (by decide) rfl)
    (.head (@Step.call 2 (AvoidanceCalls 2) _ _ 0 (.semaphoreCreate 1) (by decide) rfl (by decide) rfl)
    (.head (@Step.call 2 (AvoidanceCalls 2) _ _ 0 (.mutexLock 0) (by decide) rfl (by decide) rfl)
    (.head (@Step.call 2 (AvoidanceCalls 2) _ _ 1 (.semaphoreDown 0) (by decide) rfl (by decide) rfl)
    (.head (@Step.call 2 (AvoidanceCalls 2) _ _ 0 (.semaphoreDown 0) (by decide) rfl (by decide) rfl)
    (.single (@Step.call 2 (AvoidanceCalls 2) _ _ 1 (.mutexLock 0) (by decide) rfl (by decide) rfl)))))))),
    by simp, fun t ht => ?_⟩
  simp only [List.mem_cons, List.mem_singleton, List.not_mem_nil, or_false] at ht
  rcases ht with rfl | rfl
  · exact ⟨by decide, .semaphore, 0, _, rfl, rfl, rfl, by decide⟩
  · exact ⟨by decide, .mutex, 0, _, rfl, rfl, rfl, by decide⟩

theorem deadlock_crosses_classes_two_threads :
    ∃ s, Reachable 2 (AvoidanceCalls 2) (Sys.init 2 true) s ∧ Deadlocked 2 s [0, 1] ∧
      (∃ t ∈ [0, 1], ∃ r, s.thread t = .blocked .mutex r) ∧
        ∃ t ∈ [0, 1], ∃ r, s.thread t = .blocked .semaphore r :=
  let ⟨s, hr, hD⟩ := crossDeadlock_reachable
  ⟨s, hr, hD, deadlock_crosses_classes hr hD⟩

/-- The cross-class deadlock of `crossDeadlock_reachable`: each ledger, read alone, is safe. -/
theorem ledgers_safe_at_cross_deadlock :
    ∃ s, Reachable 2 (AvoidanceCalls 2) (Sys.init 2 true) s ∧ Deadlocked 2 s [0, 1] ∧
      ∀ k, Banker.Safe (s.proc.slots k) (entry (s.proc.ledger k).need)
        (entry (s.proc.ledger k).allocation) 2 (vec (s.proc.ledger k).available) :=
  let ⟨s, hr, hD⟩ := crossDeadlock_reachable
  ⟨s, hr, hD, ledgers_safe_reachable hr⟩

/-- **Deadlock avoidance does not prevent deadlock**: with detection on from the start, under
the callers' discipline and with every acquire made while its class has one slot per thread,
two threads deadlock across a mutex and a semaphore. -/
theorem cross_class_deadlock :
    ∃ s, Reachable 2 (AvoidanceCalls 2) (Sys.init 2 true) s ∧ ∃ D, Deadlocked 2 s D :=
  let ⟨s, hr, hD⟩ := crossDeadlock_reachable
  ⟨s, hr, [0, 1], hD⟩

end Rcore
