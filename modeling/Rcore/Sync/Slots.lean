import Rcore.Sync.System

/-!
# No slot is ever emptied

Every write the synchronisation syscalls and the primitives make to `mutex_list` or
`semaphore_list` stores a `Some`, and no syscall removes a primitive.  So along every run of a
fresh process, whatever its threads call (with or without the callers' discipline,
`sys_condvar_wait` included), no slot is empty and each ledger keeps a row per thread and a
column per slot (`ProcessInner.Filled.reachable`).

`sys_mutex_create` and `sys_semaphore_create` therefore always take their push branch.  Their
reuse branch assigns the slot in place but inserts a ledger column with `Vec::insert`, which
misaligns the ledger (`sysMutexCreate_reuse_misaligns`); no run reaches a ledger it would run
on.  In every reachable state a create returns the old length of the slot list and appends one
column with the primitive's units, held and needed by no thread (`create_appends_column`).
-/

set_option autoImplicit false

namespace Rcore

namespace Ledger

/-- `l'` is `l` with a column appended at index `R`: `count` free units, held and needed by no
thread, every other column as it was, and `T` rows of `R + 1` columns. -/
structure ColumnAppended (T R count : Nat) (l l' : Ledger) : Prop where
  shape : l'.Shape T (R + 1)
  available : vec l'.available R = count
  fresh : ∀ t, entry l'.allocation t R = 0 ∧ entry l'.need t R = 0
  others : l.SameOff R l'

theorem columnAppended_pushColumn {T R : Nat} {l : Ledger} (hl : l.Shape T R) (count : Nat) :
    l.ColumnAppended T R count (l.pushColumn count) where
  shape := hl.pushColumn count
  available := by rw [pushColumn, vec_append_singleton hl.available, if_pos rfl]
  fresh t := by
    simp only [pushColumn, entry_map_append hl.allocation, entry_map_append hl.need, if_pos rfl]
    exact ⟨rfl, rfl⟩
  others :=
    ⟨fun j hj => by rw [pushColumn, vec_append_singleton hl.available, if_neg hj],
      fun u j hj => by rw [pushColumn, entry_map_append hl.allocation, if_neg hj],
      fun u j hj => by rw [pushColumn, entry_map_append hl.need, if_neg hj]⟩

/-- The ledger of a fresh process: `T` empty rows. -/
theorem shape_empty (T : Nat) : Ledger.Shape T 0 ⟨[], List.replicate T [], List.replicate T []⟩ :=
  ⟨rfl, ⟨List.length_replicate _ _, fun _ h => by rw [List.eq_of_mem_replicate h]; rfl⟩,
    ⟨List.length_replicate _ _, fun _ h => by rw [List.eq_of_mem_replicate h]; rfl⟩⟩

end Ledger

/-- A slot list with no empty slot keeps none after a slot is set to a primitive. -/
theorem filled_set {α : Type} {list : List (Option α)} (h : ∀ x ∈ list, x ≠ none) (i : Nat)
    (a : α) : ∀ x ∈ list.set i (some a), x ≠ none := fun x hx => by
  rcases List.mem_or_eq_of_mem_set hx with hx | rfl
  · exact h x hx
  · exact Option.some_ne_none a

/-- A slot list with no empty slot keeps none after a primitive is pushed. -/
theorem filled_append {α : Type} {list : List (Option α)} (h : ∀ x ∈ list, x ≠ none) (a : α) :
    ∀ x ∈ list ++ [some a], x ≠ none := fun x hx => by
  rcases List.mem_append.mp hx with hx | hx
  · exact h x hx
  · rw [List.mem_singleton.mp hx]; exact Option.some_ne_none a

namespace ProcessInner

/-- What every run keeps, whatever its calls: no mutex or semaphore slot is empty, and each
class's ledger has a row per thread and a column per slot. -/
structure Filled (T : Nat) (p : ProcessInner) : Prop where
  mutexFilled : ∀ x ∈ p.mutexList, x ≠ none
  semaphoreFilled : ∀ x ∈ p.semaphoreList, x ≠ none
  mutexShape : p.mutex.Shape T p.mutexList.length
  semaphoreShape : p.semaphore.Shape T p.semaphoreList.length

namespace Filled

variable {T : Nat} {p : ProcessInner}

/-- The invariant reads only the slot lists and the ledgers. -/
theorem congr (hF : p.Filled T) {p' : ProcessInner} (hml : p'.mutexList = p.mutexList)
    (hm : p'.mutex = p.mutex) (hsl : p'.semaphoreList = p.semaphoreList)
    (hs : p'.semaphore = p.semaphore) : p'.Filled T :=
  ⟨hml ▸ hF.1, hsl ▸ hF.2, hml ▸ hm ▸ hF.3, hsl ▸ hs ▸ hF.4⟩

/-- A mutex slot set to a primitive, with a ledger of the same shape. -/
theorem setMutex (hF : p.Filled T) (m : Nat) (x : MutexPrim) {l : Ledger}
    (hl : l.Shape T p.mutexList.length) :
    Filled T { p with mutex := l, mutexList := p.mutexList.set m (some x) } :=
  ⟨filled_set hF.mutexFilled m x, hF.semaphoreFilled, by simpa using hl, hF.semaphoreShape⟩

/-- A semaphore slot set to a primitive, with a ledger of the same shape. -/
theorem setSemaphore (hF : p.Filled T) (sid : Nat) (x : Semaphore) {l : Ledger}
    (hl : l.Shape T p.semaphoreList.length) :
    Filled T { p with semaphore := l, semaphoreList := p.semaphoreList.set sid (some x) } :=
  ⟨hF.mutexFilled, filled_set hF.semaphoreFilled sid x, hF.mutexShape, by simpa using hl⟩

end Filled

end ProcessInner

namespace Sys

variable {T : Nat} {s s' : Sys} {t : Nat}

/-- **Each call keeps the slots filled**, whatever it is and whoever makes it. -/
theorem exec_filled (hF : s.proc.Filled T) (ht : t < T) {c : Call} (h : s.exec t c = .ok s') :
    s'.proc.Filled T := by
  cases c with
  | mutexCreate b =>
    obtain ⟨v, p, hc, rfl⟩ := exec_mutexCreate h
    rw [sysMutexCreate_of_full (freeSlot_eq_none hF.mutexFilled)] at hc
    cases hc
    exact ⟨filled_append hF.mutexFilled _, hF.semaphoreFilled,
      by simpa using hF.mutexShape.pushColumn 1, hF.semaphoreShape⟩
  | semaphoreCreate n =>
    obtain ⟨v, p, hc, rfl⟩ := exec_semaphoreCreate h
    rw [sysSemaphoreCreate_of_full (freeSlot_eq_none hF.semaphoreFilled)] at hc
    cases hc
    exact ⟨hF.mutexFilled, filled_append hF.semaphoreFilled _, hF.mutexShape,
      by simpa using hF.semaphoreShape.pushColumn n⟩
  | mutexLock m =>
    obtain ⟨v, p, a, hc, rfl⟩ := exec_mutexLock h
    obtain ⟨mutex, b, l', hslot, hreq, hcase⟩ := sysMutexLock_ok hc
    have hl' := (Ledger.request_sameOff hF.mutexShape ht
      (List.getElem?_eq_some_iff.mp hslot).1 hreq).1
    rw [acquired_proc]
    rcases hcase with ⟨-, -, rfl⟩ | ⟨-, -, rfl⟩
    · exact ⟨hF.mutexFilled, hF.semaphoreFilled, hl', hF.semaphoreShape⟩
    · exact hF.setMutex m _ hl'
  | mutexUnlock m =>
    obtain ⟨v, p, w, hc, rfl⟩ := exec_mutexUnlock h
    obtain ⟨mutex, l', -, hrel, -, rfl⟩ := sysMutexUnlock_ok hc
    rw [released_proc]
    exact hF.setMutex m _ (Ledger.release_shape hF.mutexShape hrel)
  | semaphoreDown sid =>
    obtain ⟨v, p, a, hc, rfl⟩ := exec_semaphoreDown h
    obtain ⟨sem, b, l', hslot, hreq, hcase⟩ := sysSemaphoreDown_ok hc
    have hl' := (Ledger.request_sameOff hF.semaphoreShape ht
      (List.getElem?_eq_some_iff.mp hslot).1 hreq).1
    rw [acquired_proc]
    rcases hcase with ⟨-, -, rfl⟩ | ⟨-, -, rfl⟩
    · exact ⟨hF.mutexFilled, hF.semaphoreFilled, hF.mutexShape, hl'⟩
    · exact hF.setSemaphore sid _ hl'
  | semaphoreUp sid =>
    obtain ⟨v, p, w, hc, rfl⟩ := exec_semaphoreUp h
    obtain ⟨sem, l', -, hrel, -, rfl⟩ := sysSemaphoreUp_ok hc
    rw [released_proc]
    exact hF.setSemaphore sid _ (Ledger.release_shape hF.semaphoreShape hrel)
  | condvarCreate =>
    obtain ⟨v, p, hc, rfl⟩ := exec_condvarCreate h
    obtain ⟨list, rfl, -⟩ := sysCondvarCreate_ok hc
    exact hF.congr rfl rfl rfl rfl
  | condvarSignal c =>
    obtain ⟨v, p, w, hc, rfl⟩ := exec_condvarSignal h
    obtain ⟨cv, -, rfl, rfl⟩ := sysCondvarSignal_ok hc
    split <;> exact hF.congr rfl rfl rfl rfl
  | condvarWait c m =>
    obtain ⟨v, p, w, hc, rfl⟩ := exec_condvarWait h
    obtain ⟨cv, mutex, -, -, rfl, rfl⟩ := sysCondvarWait_ok hc
    rw [setThread_proc, released_proc]
    exact (hF.setMutex m (cv.wait mutex t).2.1 hF.mutexShape).congr rfl rfl rfl rfl
  | enableDeadlockDetect e =>
    cases h
    obtain ⟨d, hd⟩ := @sysEnableDeadlockDetect_snd s.proc e
    show (sysEnableDeadlockDetect s.proc e).2.Filled T
    rw [hd]
    exact hF.congr rfl rfl rfl rfl

/-- A spinning thread's poll and a woken waiter's relock set a mutex slot to a primitive. -/
theorem resume_filled (hF : s.proc.Filled T) (h : s.resume t = some s') : s'.proc.Filled T := by
  unfold resume at h
  split at h
  all_goals first
    | cases h
    | obtain ⟨mutex, -, h⟩ := Option.bind_eq_some.mp h
      cases h
      rw [acquired_proc, setThread_proc]
      exact hF.setMutex _ _ hF.mutexShape

end Sys

/-- A fresh process has no slot. -/
theorem ProcessInner.Filled.init (T : Nat) (detect : Bool) : (Sys.init T detect).proc.Filled T :=
  ⟨by simp [Sys.init], by simp [Sys.init], Ledger.shape_empty T, Ledger.shape_empty T⟩

/-- **No run empties a slot**: in every state a fresh process reaches, whatever its threads
call, no mutex or semaphore slot is empty and each ledger has a row per thread and a column per
slot. -/
theorem ProcessInner.Filled.reachable {T : Nat} {allowed : Sys → Nat → Call → Prop}
    {detect : Bool} {s : Sys} (h : Reachable T allowed (Sys.init T detect) s) : s.proc.Filled T :=
  @Reachable.invariant T allowed (fun s => s.proc.Filled T)
    (fun _ _ hF hst => match hst with
      | .call ht _ _ h => Sys.exec_filled hF ht h
      | .resume _ h => Sys.resume_filled hF h)
    _ _ (Filled.init T detect) h

/-- **The create syscalls append a column in every reachable state.**  In every state a fresh
process of `T` threads reaches, whatever its threads call, no slot is empty, so
`sys_mutex_create` (resp. `sys_semaphore_create(n)`) never takes its reuse branch: it returns the
old length of the slot list, which grows by one, and the ledger gains a column at that index
with one (resp. `n`) free unit, held and needed by no thread, every other column unchanged and
every row as long as the new slot list. -/
theorem create_appends_column {T : Nat} {allowed : Sys → Nat → Call → Prop} {detect : Bool}
    {s : Sys} (h : Reachable T allowed (Sys.init T detect) s) :
    freeSlot s.proc.mutexList = none ∧ freeSlot s.proc.semaphoreList = none ∧
      (∀ blocking, ∃ p, sysMutexCreate s.proc blocking = .ok (s.proc.mutexList.length, p) ∧
        p.mutexList.length = s.proc.mutexList.length + 1 ∧
        s.proc.mutex.ColumnAppended T s.proc.mutexList.length 1 p.mutex) ∧
      ∀ n, ∃ p, sysSemaphoreCreate s.proc n = .ok (s.proc.semaphoreList.length, p) ∧
        p.semaphoreList.length = s.proc.semaphoreList.length + 1 ∧
        s.proc.semaphore.ColumnAppended T s.proc.semaphoreList.length n p.semaphore := by
  have hF := ProcessInner.Filled.reachable h
  have hm := freeSlot_eq_none hF.mutexFilled
  have hs := freeSlot_eq_none hF.semaphoreFilled
  exact ⟨hm, hs, fun b => ⟨_, sysMutexCreate_of_full hm b, by simp,
      Ledger.columnAppended_pushColumn hF.mutexShape 1⟩,
    fun n => ⟨_, sysSemaphoreCreate_of_full hs n, by simp,
      Ledger.columnAppended_pushColumn hF.semaphoreShape n⟩⟩

/-- Two threads, with no discipline asked of them: thread 0 creates a spinning mutex and a
blocking one, thread 1 a two-unit semaphore, and thread 0 locks the blocking mutex; the next
mutex gets index 2 and the next semaphore index 1. -/
theorem create_appends_column_after_lock :
    ∃ s, Reachable 2 (fun _ _ _ => True) (Sys.init 2 false) s ∧
      s.proc.mutexList.length = 2 ∧ s.proc.semaphoreList.length = 1 ∧
      (freeSlot s.proc.mutexList = none ∧ freeSlot s.proc.semaphoreList = none ∧
        (∀ blocking, ∃ p, sysMutexCreate s.proc blocking = .ok (s.proc.mutexList.length, p) ∧
          p.mutexList.length = s.proc.mutexList.length + 1 ∧
          s.proc.mutex.ColumnAppended 2 s.proc.mutexList.length 1 p.mutex) ∧
        ∀ n, ∃ p, sysSemaphoreCreate s.proc n = .ok (s.proc.semaphoreList.length, p) ∧
          p.semaphoreList.length = s.proc.semaphoreList.length + 1 ∧
          s.proc.semaphore.ColumnAppended 2 s.proc.semaphoreList.length n p.semaphore) :=
  have hr : Reachable 2 (fun _ _ _ => True) (Sys.init 2 false) _ :=
    .head (@Step.call 2 (fun _ _ _ => True) _ _ 0 (.mutexCreate false) (by decide) rfl trivial rfl)
    (.head (@Step.call 2 (fun _ _ _ => True) _ _ 0 (.mutexCreate true) (by decide) rfl trivial rfl)
    (.head (@Step.call 2 (fun _ _ _ => True) _ _ 1 (.semaphoreCreate 2) (by decide) rfl trivial rfl)
    (.single (@Step.call 2 (fun _ _ _ => True) _ _ 0 (.mutexLock 1) (by decide) rfl trivial rfl))))
  ⟨_, hr, rfl, rfl, create_appends_column hr⟩

end Rcore
