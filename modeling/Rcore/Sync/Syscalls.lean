import Rcore.Sync.Ledger
import Rcore.Sync.Primitives

/-!
# The synchronisation syscalls of `syscall/sync.rs`

`ProcessInner` holds the fields of `ProcessControlBlockInner` these syscalls use: the slot
lists of mutexes, semaphores and condition variables, one `Ledger` (`*_available`,
`*_allocation`, `*_need`) per resource class, and `is_enable_deadlock_detect`.  The thread id
`sys_gettid()` is the argument `tid`.

The mutex and semaphore syscalls are the same code over their own ledger, so the shared part
is one definition (`Ledger.create`, `Ledger.request`, `Ledger.release`) and each syscall is
that definition applied to its own fields, followed by its own primitive call.  Where the two
differ the member keeps its own body: `sys_mutex_create` picks the primitive from `blocking`
and starts the column at one unit, `sys_semaphore_create` at `res_count`.

* `Ledger.create` — the new primitive takes the lowest free slot (`Vec::insert` of a column at
  that index) or is pushed.
* `Ledger.request` — lines 62-102 of `sys_mutex_lock`: grant a free unit, or record the need
  and, with detection on, run the safety pass over `tnum = mutex_list.len()` threads and roll
  the need back on refusal.
* `Ledger.release` — lines 114-121 of `sys_mutex_unlock`: free the caller's unit and move it
  to the thread `get_waking_tid` reports.
-/

set_option autoImplicit false

namespace Rcore

/-- The fields of `ProcessControlBlockInner` the synchronisation syscalls read and write. -/
structure ProcessInner where
  mutexList : List (Option MutexPrim)
  mutex : Ledger
  semaphoreList : List (Option Semaphore)
  semaphore : Ledger
  condvarList : List (Option Condvar)
  isEnableDeadlockDetect : Bool
  deriving DecidableEq, Repr


/-- `sys_mutex_create`. -/
def sysMutexCreate (p : ProcessInner) (blocking : Bool) : Except Panic (Int × ProcessInner) := do
  let mutex := if !blocking then MutexPrim.spin false else MutexPrim.blocking false []
  let (id, list, ledger) ← p.mutex.create p.mutexList mutex 1
  pure (id, { p with mutexList := list, mutex := ledger })

/-- **`sys_mutex_create` reusing an empty slot misaligns the ledger.**  For a ledger of `T`
threads whose columns match the slot list, with an empty slot at `id`: the call returns `id`
and keeps the slot list's length, but `Vec::insert` adds a column at `id`, so
`mutex_available` ends one longer than `mutex_list` and the columns from `id` on move up. -/
theorem sysMutexCreate_reuse_misaligns {p : ProcessInner} {T id : Nat}
    (hl : p.mutex.Shape T p.mutexList.length) (hslot : freeSlot p.mutexList = some id)
    (blocking : Bool) :
    ∃ p', sysMutexCreate p blocking = .ok (id, p') ∧
      p'.mutexList.length = p.mutexList.length ∧
      p'.mutex.available.length = p'.mutexList.length + 1 ∧
      ∀ j, id ≤ j → vec p'.mutex.available (j + 1) = vec p.mutex.available j := by
  obtain ⟨list', l', h, hlen, hshape, -, hshift⟩ := Ledger.create_reuse hl rfl hslot
    (if !blocking then MutexPrim.spin false else .blocking false []) 1
  refine ⟨{ p with mutexList := list', mutex := l' }, ?_, hlen, by simp [hshape.available, hlen],
    hshift⟩
  simp only [sysMutexCreate, h, ok_bind]; rfl

/-- One thread, one empty mutex slot: the new mutex's ledger has two columns.  No run reaches
such a ledger, since nothing empties a slot (`create_appends_column`). -/
theorem sysMutexCreate_reuse_first_slot :
    Ledger.Shape 1 1 ⟨[0], [[0]], [[0]]⟩ ∧ freeSlot [(none : Option MutexPrim)] = some 0 ∧
      ∃ p', sysMutexCreate ⟨[none], ⟨[0], [[0]], [[0]]⟩, [], ⟨[], [[]], [[]]⟩, [], false⟩ true =
          .ok (0, p') ∧ p'.mutexList.length = 1 ∧ p'.mutex.available.length = p'.mutexList.length + 1 ∧
        ∀ j, 0 ≤ j → vec p'.mutex.available (j + 1) = vec [0] j :=
  ⟨⟨rfl, by decide, by decide⟩, rfl,
    @sysMutexCreate_reuse_misaligns ⟨[none], ⟨[0], [[0]], [[0]]⟩, [], ⟨[], [[]], [[]]⟩, [], false⟩ 1 0
      ⟨rfl, by decide, by decide⟩ rfl true⟩

/-- `sys_mutex_lock`.  The result records what `mutex.lock()` did to the caller, `none` when
the request was refused before it. -/
def sysMutexLock (p : ProcessInner) (tid mutexId : Nat) :
    Except Panic (Int × ProcessInner × Option Acquire) := do
  let mutex ← unwrap (← index p.mutexList mutexId)
  let (admitted, ledger) ←
    p.mutex.request p.mutexList.length tid mutexId p.isEnableDeadlockDetect
  if admitted then
    let (mutex, r) := mutex.lock tid
    pure (0, { p with mutex := ledger, mutexList := p.mutexList.set mutexId (some mutex) }, some r)
  else pure (deadlockSentinel, { p with mutex := ledger }, none)

/-- **The pass runs over `mutex_list.len()` threads.**  Two threads and one blocking mutex,
held by thread 1, with detection on: thread 0's request is refused although the order
`[1, 0]` of the ledger with its need recorded is safe.  One thread and two mutexes it holds:
the pass reads a second row of `mutex_need`, which does not exist. -/
theorem sysMutexLock_pass_over_resources :
    sysMutexLock ⟨[some (.blocking true [])], ⟨[0], [[0], [1]], [[0], [0]]⟩, [],
        ⟨[], [[], []], [[], []]⟩, [], true⟩ 0 0 =
      .ok (deadlockSentinel, ⟨[some (.blocking true [])], ⟨[0], [[0], [1]], [[0], [0]]⟩, [],
        ⟨[], [[], []], [[], []]⟩, [], true⟩, none) ∧
    Banker.Safe 1 (entry [[1], [0]]) (entry [[0], [1]]) 2 (vec [0]) ∧
    sysMutexLock ⟨[some (.blocking true []), some (.blocking true [])], ⟨[0, 0], [[1, 1]], [[0, 0]]⟩,
        [], ⟨[], [[]], [[]]⟩, [], true⟩ 0 0 = .error .indexOutOfBounds :=
  ⟨rfl, ⟨[1, 0], by decide, by simp [Banker.IsSafeSeq, entry, vec]⟩, rfl⟩

/-- `sys_mutex_unlock`.  The result records the thread `mutex.unlock()` wakes. -/
def sysMutexUnlock (p : ProcessInner) (tid mutexId : Nat) :
    Except Panic (Int × ProcessInner × Option Nat) := do
  let mutex ← unwrap (← index p.mutexList mutexId)
  let ledger ← p.mutex.release tid mutexId mutex.getWakingTid
  let (mutex, woken) := mutex.unlock
  pure (0, { p with mutex := ledger, mutexList := p.mutexList.set mutexId (some mutex) }, woken)

/-- `sys_semaphore_create`. -/
def sysSemaphoreCreate (p : ProcessInner) (resCount : Nat) : Except Panic (Int × ProcessInner) := do
  let (id, list, ledger) ← p.semaphore.create p.semaphoreList ⟨resCount, []⟩ resCount
  pure (id, { p with semaphoreList := list, semaphore := ledger })

/-- `sys_semaphore_up`. -/
def sysSemaphoreUp (p : ProcessInner) (tid semId : Nat) :
    Except Panic (Int × ProcessInner × Option Nat) := do
  let sem ← unwrap (← index p.semaphoreList semId)
  let ledger ← p.semaphore.release tid semId sem.getWakingTid
  let (sem, woken) := sem.up
  pure (0, { p with semaphore := ledger, semaphoreList := p.semaphoreList.set semId (some sem) },
    woken)

/-- `sys_semaphore_down`. -/
def sysSemaphoreDown (p : ProcessInner) (tid semId : Nat) :
    Except Panic (Int × ProcessInner × Option Acquire) := do
  let sem ← unwrap (← index p.semaphoreList semId)
  let (admitted, ledger) ←
    p.semaphore.request p.semaphoreList.length tid semId p.isEnableDeadlockDetect
  if admitted then
    let (sem, r) := sem.down tid
    pure (0, { p with semaphore := ledger, semaphoreList := p.semaphoreList.set semId (some sem) },
      some r)
  else pure (deadlockSentinel, { p with semaphore := ledger }, none)

/-- `sys_condvar_create`. -/
def sysCondvarCreate (p : ProcessInner) : Except Panic (Int × ProcessInner) :=
  match freeSlot p.condvarList with
  | some id => do
    let list ← modifyAt p.condvarList id (fun _ => pure (some ⟨[]⟩))
    pure (id, { p with condvarList := list })
  | none => pure (p.condvarList.length, { p with condvarList := p.condvarList ++ [some ⟨[]⟩] })

/-- `sys_condvar_signal`.  The result records the thread `condvar.signal()` wakes. -/
def sysCondvarSignal (p : ProcessInner) (condvarId : Nat) :
    Except Panic (Int × ProcessInner × Option Nat) := do
  let condvar ← unwrap (← index p.condvarList condvarId)
  let (condvar, woken) := condvar.signal
  pure (0, { p with condvarList := p.condvarList.set condvarId (some condvar) }, woken)

/-- `sys_condvar_wait`: the caller blocks on the condition variable; the result records the
thread the mutex is handed to.  The ledger is not touched. -/
def sysCondvarWait (p : ProcessInner) (tid condvarId mutexId : Nat) :
    Except Panic (Int × ProcessInner × Option Nat) := do
  let condvar ← unwrap (← index p.condvarList condvarId)
  let mutex ← unwrap (← index p.mutexList mutexId)
  let (condvar, mutex, woken) := condvar.wait mutex tid
  let p := { p with condvarList := p.condvarList.set condvarId (some condvar) }
  pure (0, { p with mutexList := p.mutexList.set mutexId (some mutex) }, woken)

/-- `sys_enable_deadlock_detect`. -/
def sysEnableDeadlockDetect (p : ProcessInner) (enabled : Nat) : Int × ProcessInner :=
  match enabled with
  | 0 => (0, { p with isEnableDeadlockDetect := false })
  | 1 => (0, { p with isEnableDeadlockDetect := true })
  | _ => (-1, p)

/-! ## What each syscall can do

One inversion lemma per syscall: the slots it reads, the ledger operation it runs, and the
state it leaves.  The process-level proofs cite these and never unfold a syscall. -/

section Inversion

variable {p p' : ProcessInner} {tid : Nat} {v : Int}

theorem sysMutexCreate_of_full (hfull : freeSlot p.mutexList = none) (blocking : Bool) :
    sysMutexCreate p blocking = .ok (p.mutexList.length,
      { p with mutexList := p.mutexList ++ [some (if !blocking then .spin false else .blocking false [])],
               mutex := p.mutex.pushColumn 1 }) := by
  simp only [sysMutexCreate, Ledger.create_of_full hfull, ok_bind]; rfl

theorem sysSemaphoreCreate_of_full (hfull : freeSlot p.semaphoreList = none) (resCount : Nat) :
    sysSemaphoreCreate p resCount = .ok (p.semaphoreList.length,
      { p with semaphoreList := p.semaphoreList ++ [some ⟨resCount, []⟩],
               semaphore := p.semaphore.pushColumn resCount }) := by
  simp only [sysSemaphoreCreate, Ledger.create_of_full hfull, ok_bind]; rfl

/-- `sys_enable_deadlock_detect` sets the flag and nothing else. -/
theorem sysEnableDeadlockDetect_snd (enabled : Nat) :
    ∃ d, (sysEnableDeadlockDetect p enabled).2 = { p with isEnableDeadlockDetect := d } := by
  unfold sysEnableDeadlockDetect
  split
  exacts [⟨false, rfl⟩, ⟨true, rfl⟩, ⟨p.isEnableDeadlockDetect, rfl⟩]

theorem sysMutexLock_ok {m : Nat} {a : Option Acquire} (h : sysMutexLock p tid m = .ok (v, p', a)) :
    ∃ mutex b l', p.mutexList[m]? = some (some mutex) ∧
      p.mutex.request p.mutexList.length tid m p.isEnableDeadlockDetect = .ok (b, l') ∧
      (b = false ∧ a = none ∧ p' = { p with mutex := l' } ∨
        b = true ∧ a = some (mutex.lock tid).2 ∧
          p' = { p with mutex := l', mutexList := p.mutexList.set m (some (mutex.lock tid).1) }) := by
  simp only [sysMutexLock] at h
  obtain ⟨x, hx, h⟩ := bind_eq_ok.mp h
  obtain ⟨mutex, hm, h⟩ := bind_eq_ok.mp h
  obtain ⟨⟨b, l'⟩, hreq, h⟩ := bind_eq_ok.mp h
  rw [unwrap_eq_ok] at hm; subst hm
  refine ⟨mutex, b, l', index_eq_ok.mp hx, hreq, ?_⟩
  cases b
  · cases h; exact .inl ⟨rfl, rfl, rfl⟩
  · cases h; exact .inr ⟨rfl, rfl, rfl⟩

theorem sysMutexUnlock_ok {m : Nat} {w : Option Nat} (h : sysMutexUnlock p tid m = .ok (v, p', w)) :
    ∃ mutex l', p.mutexList[m]? = some (some mutex) ∧
      p.mutex.release tid m mutex.getWakingTid = .ok l' ∧ w = mutex.unlock.2 ∧
      p' = { p with mutex := l', mutexList := p.mutexList.set m (some mutex.unlock.1) } := by
  simp only [sysMutexUnlock] at h
  obtain ⟨x, hx, h⟩ := bind_eq_ok.mp h
  obtain ⟨mutex, hm, h⟩ := bind_eq_ok.mp h
  obtain ⟨l', hrel, h⟩ := bind_eq_ok.mp h
  simp only [pure, Except.pure, Except.ok.injEq, Prod.mk.injEq] at h
  obtain ⟨_, hp, hw⟩ := h
  exact ⟨mutex, l', index_eq_ok.mp (unwrap_eq_ok.mp hm ▸ hx), hrel, hw.symm, hp.symm⟩

theorem sysSemaphoreDown_ok {sid : Nat} {a : Option Acquire}
    (h : sysSemaphoreDown p tid sid = .ok (v, p', a)) :
    ∃ sem b l', p.semaphoreList[sid]? = some (some sem) ∧
      p.semaphore.request p.semaphoreList.length tid sid p.isEnableDeadlockDetect = .ok (b, l') ∧
      (b = false ∧ a = none ∧ p' = { p with semaphore := l' } ∨
        b = true ∧ a = some (sem.down tid).2 ∧
          p' = { p with semaphore := l',
                        semaphoreList := p.semaphoreList.set sid (some (sem.down tid).1) }) := by
  simp only [sysSemaphoreDown] at h
  obtain ⟨x, hx, h⟩ := bind_eq_ok.mp h
  obtain ⟨sem, hm, h⟩ := bind_eq_ok.mp h
  obtain ⟨⟨b, l'⟩, hreq, h⟩ := bind_eq_ok.mp h
  rw [unwrap_eq_ok] at hm; subst hm
  refine ⟨sem, b, l', index_eq_ok.mp hx, hreq, ?_⟩
  cases b
  · cases h; exact .inl ⟨rfl, rfl, rfl⟩
  · cases h; exact .inr ⟨rfl, rfl, rfl⟩

theorem sysSemaphoreUp_ok {sid : Nat} {w : Option Nat}
    (h : sysSemaphoreUp p tid sid = .ok (v, p', w)) :
    ∃ sem l', p.semaphoreList[sid]? = some (some sem) ∧
      p.semaphore.release tid sid sem.getWakingTid = .ok l' ∧ w = sem.up.2 ∧
      p' = { p with semaphore := l', semaphoreList := p.semaphoreList.set sid (some sem.up.1) } := by
  simp only [sysSemaphoreUp] at h
  obtain ⟨x, hx, h⟩ := bind_eq_ok.mp h
  obtain ⟨sem, hm, h⟩ := bind_eq_ok.mp h
  obtain ⟨l', hrel, h⟩ := bind_eq_ok.mp h
  simp only [pure, Except.pure, Except.ok.injEq, Prod.mk.injEq] at h
  obtain ⟨_, hp, hw⟩ := h
  exact ⟨sem, l', index_eq_ok.mp (unwrap_eq_ok.mp hm ▸ hx), hrel, hw.symm, hp.symm⟩

theorem sysCondvarCreate_ok (h : sysCondvarCreate p = .ok (v, p')) :
    ∃ list, p' = { p with condvarList := list } ∧
      ∀ x ∈ list, x ∈ p.condvarList ∨ x = some ⟨[]⟩ := by
  unfold sysCondvarCreate at h
  split at h
  · obtain ⟨list, hlist, h⟩ := bind_eq_ok.mp h
    cases h
    refine ⟨list, rfl, fun x hx => ?_⟩
    rw [modifyAt] at hlist
    obtain ⟨y, -, hlist⟩ := bind_eq_ok.mp hlist
    cases hlist
    exact (List.mem_or_eq_of_mem_set hx).imp_right id
  · cases h
    exact ⟨_, rfl, fun x hx => by simpa using hx⟩

theorem sysCondvarSignal_ok {c : Nat} {w : Option Nat}
    (h : sysCondvarSignal p c = .ok (v, p', w)) :
    ∃ cv, p.condvarList[c]? = some (some cv) ∧ w = cv.signal.2 ∧
      p' = { p with condvarList := p.condvarList.set c (some cv.signal.1) } := by
  simp only [sysCondvarSignal] at h
  obtain ⟨x, hx, h⟩ := bind_eq_ok.mp h
  obtain ⟨cv, hm, h⟩ := bind_eq_ok.mp h
  rw [unwrap_eq_ok] at hm; subst hm
  cases h
  exact ⟨cv, index_eq_ok.mp hx, rfl, rfl⟩

theorem sysCondvarWait_ok {c m : Nat} {w : Option Nat}
    (h : sysCondvarWait p tid c m = .ok (v, p', w)) :
    ∃ cv mutex, p.condvarList[c]? = some (some cv) ∧ p.mutexList[m]? = some (some mutex) ∧
      w = (cv.wait mutex tid).2.2 ∧
      p' = { p with condvarList := p.condvarList.set c (some (cv.wait mutex tid).1),
                    mutexList := p.mutexList.set m (some (cv.wait mutex tid).2.1) } := by
  simp only [sysCondvarWait] at h
  obtain ⟨x, hx, h⟩ := bind_eq_ok.mp h
  obtain ⟨cv, hcv, h⟩ := bind_eq_ok.mp h
  obtain ⟨y, hy, h⟩ := bind_eq_ok.mp h
  obtain ⟨mutex, hm, h⟩ := bind_eq_ok.mp h
  rw [unwrap_eq_ok] at hcv hm; subst hcv hm
  cases h
  exact ⟨cv, mutex, index_eq_ok.mp hx, index_eq_ok.mp hy, rfl, rfl⟩

/-- `sys_mutex_lock` never underflows: it reads a slot and runs a request. -/
theorem sysMutexLock_noUnderflow {T R : Nat} (hl : p.mutex.Shape T R) (ht : tid < T)
    (mutexId : Nat) : NoUnderflow (sysMutexLock p tid mutexId) := by
  refine (noUnderflow_index _ _).bind fun o => (noUnderflow_unwrap o).bind fun mutex =>
    (Ledger.request_noUnderflow hl ht _ _ _).bind fun ⟨b, l'⟩ => ?_
  cases b <;> exact noUnderflow_ok _

/-- `sys_mutex_lock` on a filled slot succeeds when the ledger's request does. -/
theorem sysMutexLock_of_request {mutexId : Nat} {mutex : MutexPrim}
    (hslot : p.mutexList[mutexId]? = some (some mutex)) {b : Bool} {l' : Ledger}
    (hreq : p.mutex.request p.mutexList.length tid mutexId p.isEnableDeadlockDetect = .ok (b, l')) :
    ∃ r, sysMutexLock p tid mutexId = .ok r := by
  simp only [sysMutexLock, index_eq_ok.mpr hslot, unwrap_some, hreq, ok_bind]
  cases b <;> exact ⟨_, rfl⟩

/-- `sys_mutex_unlock` on a filled slot succeeds when the ledger accepts the release. -/
theorem sysMutexUnlock_of_release {mutexId : Nat} {mutex : MutexPrim} {l' : Ledger}
    (hslot : p.mutexList[mutexId]? = some (some mutex))
    (hrel : p.mutex.release tid mutexId mutex.getWakingTid = .ok l') :
    sysMutexUnlock p tid mutexId =
      .ok (0, { p with mutex := l', mutexList := p.mutexList.set mutexId (some mutex.unlock.1) },
        mutex.unlock.2) := by
  simp only [sysMutexUnlock, index_eq_ok.mpr hslot, unwrap_some, hrel, ok_bind]
  rfl

/-- `sys_semaphore_down` never underflows: it reads a slot and runs a request. -/
theorem sysSemaphoreDown_noUnderflow {T R : Nat} (hl : p.semaphore.Shape T R) (ht : tid < T)
    (semId : Nat) : NoUnderflow (sysSemaphoreDown p tid semId) := by
  refine (noUnderflow_index _ _).bind fun o => (noUnderflow_unwrap o).bind fun sem =>
    (Ledger.request_noUnderflow hl ht _ _ _).bind fun ⟨b, l'⟩ => ?_
  cases b <;> exact noUnderflow_ok _

/-- `sys_semaphore_down` on a filled slot succeeds when the ledger's request does. -/
theorem sysSemaphoreDown_of_request {semId : Nat} {sem : Semaphore}
    (hslot : p.semaphoreList[semId]? = some (some sem)) {b : Bool} {l' : Ledger}
    (hreq : p.semaphore.request p.semaphoreList.length tid semId p.isEnableDeadlockDetect =
      .ok (b, l')) :
    ∃ r, sysSemaphoreDown p tid semId = .ok r := by
  simp only [sysSemaphoreDown, index_eq_ok.mpr hslot, unwrap_some, hreq, ok_bind]
  cases b <;> exact ⟨_, rfl⟩

/-- `sys_semaphore_up` on a filled slot succeeds when the ledger accepts the release. -/
theorem sysSemaphoreUp_of_release {semId : Nat} {sem : Semaphore} {l' : Ledger}
    (hslot : p.semaphoreList[semId]? = some (some sem))
    (hrel : p.semaphore.release tid semId sem.getWakingTid = .ok l') :
    sysSemaphoreUp p tid semId =
      .ok (0, { p with semaphore := l', semaphoreList := p.semaphoreList.set semId (some sem.up.1) },
        sem.up.2) := by
  simp only [sysSemaphoreUp, index_eq_ok.mpr hslot, unwrap_some, hrel, ok_bind]
  rfl

end Inversion

end Rcore
