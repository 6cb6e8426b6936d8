import Rcore.Sync.Syscalls

/-!
# A process of `T` threads calling the synchronisation syscalls

The syscalls of `Syscalls` act on one `ProcessInner`; what the threads do between them is the
scheduler's part, modelled here from the primitives' behaviour (§4.3): a thread that
`lock`/`down` blocks waits in the primitive's queue until a release hands it the unit, a thread
spinning on a `MutexSpin` polls until it finds the mutex free, and a thread woken from a
condition variable calls `mutex.lock()` again.

The state records, besides `ProcessInner`, what each thread is doing and, as a ghost, how many
units of each resource each thread actually holds: the primitives do not record their owners,
and the ledger is meant to be their record.

* `Sys.exec` — one syscall made by a running thread, as the code computes it.
* `Sys.resume` — a spinning thread's poll, or a woken condition-variable waiter relocking.
* `Step T allowed` — one of the `T` threads makes a call that `allowed` admits, or resumes;
  `Reachable` is its reflexive-transitive closure from `Sys.init`.
-/

set_option autoImplicit false

namespace Rcore

/-- The two resource classes, each with its own ledger. -/
inductive Kind where
  | mutex
  | semaphore
  deriving DecidableEq, Repr

/-- What a thread is doing. -/
inductive ThreadState where
  | running
  /-- In `MutexSpin::lock`, polling mutex `m`. -/
  | spinning (m : Nat)
  /-- In the wait queue of blocking mutex or semaphore `r`. -/
  | blocked (k : Kind) (r : Nat)
  /-- In `Condvar::wait` on `c`, to relock mutex `m` when woken. -/
  | waitingCondvar (c m : Nat)
  /-- Woken from a condition variable, about to call `lock` on mutex `m`. -/
  | relocking (m : Nat)
  deriving DecidableEq, Repr

/-- A woken condition-variable waiter goes on to relock its mutex. -/
def ThreadState.relock : ThreadState → ThreadState
  | .waitingCondvar _ m => .relocking m
  | st => st

/-- The syscalls of `syscall/sync.rs` a thread can make. -/
inductive Call where
  | mutexCreate (blocking : Bool)
  | mutexLock (mutexId : Nat)
  | mutexUnlock (mutexId : Nat)
  | semaphoreCreate (resCount : Nat)
  | semaphoreUp (semId : Nat)
  | semaphoreDown (semId : Nat)
  | condvarCreate
  | condvarSignal (condvarId : Nat)
  | condvarWait (condvarId mutexId : Nat)
  | enableDeadlockDetect (enabled : Nat)
  deriving DecidableEq, Repr

/-- A process: its synchronisation state, what each thread does, and, as a ghost, the units
of resource `r` of class `k` that thread `t` holds. -/
structure Sys where
  proc : ProcessInner
  thread : Nat → ThreadState
  held : Kind → Nat → Nat → Nat

namespace Sys

/-- Thread `t` now does `st`. -/
def setThread (s : Sys) (t : Nat) (st : ThreadState) : Sys :=
  { s with thread := Function.update s.thread t st }

/-- Thread `t` gains a unit of resource `r` of class `k`. -/
def give (s : Sys) (k : Kind) (t r : Nat) : Sys :=
  { s with held := fun k' t' r' => if k' = k ∧ t' = t ∧ r' = r then s.held k t r + 1
                                   else s.held k' t' r' }

/-- Thread `t` gives up a unit of resource `r` of class `k`. -/
def take (s : Sys) (k : Kind) (t r : Nat) : Sys :=
  { s with held := fun k' t' r' => if k' = k ∧ t' = t ∧ r' = r then s.held k t r - 1
                                   else s.held k' t' r' }

/-- The caller `t` after `lock`/`down` on resource `r` of class `k` did `a`; `none` is the
refused request, which returns `-0xdead` and leaves the caller running. -/
def acquired (s : Sys) (k : Kind) (t r : Nat) : Option Acquire → Sys
  | none => s
  | some .acquired => s.give k t r
  | some .blocked => s.setThread t (.blocked k r)
  | some .spinning => s.setThread t (.spinning r)

/-- Thread `t` releases resource `r` of class `k`; the primitive hands it to `woken`. -/
def released (s : Sys) (k : Kind) (t r : Nat) : Option Nat → Sys
  | none => s.take k t r
  | some w => ((s.take k t r).give k w r).setThread w .running

/-- Thread `t` makes syscall `c`. -/
def exec (s : Sys) (t : Nat) : Call → Except Panic Sys
  | .mutexCreate blocking => do
    let (_, p) ← sysMutexCreate s.proc blocking
    pure { s with proc := p }
  | .mutexLock m => do
    let (_, p, a) ← sysMutexLock s.proc t m
    pure ({ s with proc := p }.acquired .mutex t m a)
  | .mutexUnlock m => do
    let (_, p, w) ← sysMutexUnlock s.proc t m
    pure ({ s with proc := p }.released .mutex t m w)
  | .semaphoreCreate n => do
    let (_, p) ← sysSemaphoreCreate s.proc n
    pure { s with proc := p }
  | .semaphoreUp sid => do
    let (_, p, w) ← sysSemaphoreUp s.proc t sid
    pure ({ s with proc := p }.released .semaphore t sid w)
  | .semaphoreDown sid => do
    let (_, p, a) ← sysSemaphoreDown s.proc t sid
    pure ({ s with proc := p }.acquired .semaphore t sid a)
  | .condvarCreate => do
    let (_, p) ← sysCondvarCreate s.proc
    pure { s with proc := p }
  | .condvarSignal c => do
    let (_, p, w) ← sysCondvarSignal s.proc c
    pure (match w with
      | some w => { s with proc := p }.setThread w (s.thread w).relock
      | none => { s with proc := p })
  | .condvarWait c m => do
    let (_, p, w) ← sysCondvarWait s.proc t c m
    pure (({ s with proc := p }.released .mutex t m w).setThread t (.waitingCondvar c m))
  | .enableDeadlockDetect e => pure { s with proc := (sysEnableDeadlockDetect s.proc e).2 }

/-- A spinning thread polls its mutex, and a woken condition-variable waiter calls `lock`. -/
def resume (s : Sys) (t : Nat) : Option Sys :=
  match s.thread t with
  | .spinning m | .relocking m => do
    let mutex ← s.proc.mutexList[m]?.join
    let (mutex, a) := mutex.lock t
    pure ({ s with proc := { s.proc with mutexList := s.proc.mutexList.set m (some mutex) } }.setThread
      t .running |>.acquired .mutex t m (some a))
  | _ => none

/-- A process of `T` threads with no primitive yet, each thread with an empty ledger row. -/
def init (T : Nat) (detect : Bool) : Sys where
  proc := ⟨[], ⟨[], List.replicate T [], List.replicate T []⟩, [],
    ⟨[], List.replicate T [], List.replicate T []⟩, [], detect⟩
  thread _ := .running
  held _ _ _ := 0

@[simp] theorem setThread_thread (s : Sys) (t : Nat) (st : ThreadState) (u : Nat) :
    (s.setThread t st).thread u = if u = t then st else s.thread u := by
  simp [setThread, Function.update_apply]

@[simp] theorem setThread_held (s : Sys) (t : Nat) (st : ThreadState) :
    (s.setThread t st).held = s.held := rfl

@[simp] theorem setThread_proc (s : Sys) (t : Nat) (st : ThreadState) :
    (s.setThread t st).proc = s.proc := rfl

@[simp] theorem give_held (s : Sys) (k : Kind) (t r : Nat) (k' : Kind) (t' r' : Nat) :
    (s.give k t r).held k' t' r' = if k' = k ∧ t' = t ∧ r' = r then s.held k t r + 1
      else s.held k' t' r' := rfl

@[simp] theorem give_thread (s : Sys) (k : Kind) (t r : Nat) : (s.give k t r).thread = s.thread :=
  rfl

@[simp] theorem give_proc (s : Sys) (k : Kind) (t r : Nat) : (s.give k t r).proc = s.proc := rfl

@[simp] theorem take_held (s : Sys) (k : Kind) (t r : Nat) (k' : Kind) (t' r' : Nat) :
    (s.take k t r).held k' t' r' = if k' = k ∧ t' = t ∧ r' = r then s.held k t r - 1
      else s.held k' t' r' := rfl

@[simp] theorem take_thread (s : Sys) (k : Kind) (t r : Nat) : (s.take k t r).thread = s.thread :=
  rfl

@[simp] theorem take_proc (s : Sys) (k : Kind) (t r : Nat) : (s.take k t r).proc = s.proc := rfl

@[simp] theorem acquired_proc (s : Sys) (k : Kind) (t r : Nat) (a : Option Acquire) :
    (s.acquired k t r a).proc = s.proc := by
  rcases a with _ | _ | _ | _ <;> rfl

@[simp] theorem released_proc (s : Sys) (k : Kind) (t r : Nat) (w : Option Nat) :
    (s.released k t r w).proc = s.proc := by
  cases w <;> rfl

/-- The callers' discipline: a thread unlocks a mutex, or waits on a condition variable with
it, only while it holds it, and ups a semaphore only while it holds a unit of it; `res_count`
is a `usize`. -/
def Disciplined (s : Sys) (t : Nat) : Call → Prop
  | .mutexUnlock m => 0 < s.held .mutex t m
  | .condvarWait _ m => 0 < s.held .mutex t m
  | .semaphoreUp sid => 0 < s.held .semaphore t sid
  | .semaphoreCreate n => n ≤ usizeMax
  | _ => True

instance (s : Sys) (t : Nat) : (c : Call) → Decidable (s.Disciplined t c)
  | .mutexUnlock m => inferInstanceAs (Decidable (0 < s.held .mutex t m))
  | .condvarWait _ m => inferInstanceAs (Decidable (0 < s.held .mutex t m))
  | .semaphoreUp sid => inferInstanceAs (Decidable (0 < s.held .semaphore t sid))
  | .semaphoreCreate n => inferInstanceAs (Decidable (n ≤ usizeMax))
  | .mutexCreate _ | .mutexLock _ | .semaphoreDown _ | .condvarCreate | .condvarSignal _
  | .enableDeadlockDetect _ => isTrue trivial

/-! ### What each call does to the process -/

theorem exec_mutexCreate {s s' : Sys} {t : Nat} {b : Bool} (h : s.exec t (.mutexCreate b) = .ok s') :
    ∃ v p, sysMutexCreate s.proc b = .ok (v, p) ∧ s' = { s with proc := p } := by
  obtain ⟨⟨v, p⟩, hc, h⟩ := bind_eq_ok.mp h
  exact ⟨v, p, hc, (Except.ok.inj h).symm⟩

theorem exec_semaphoreCreate {s s' : Sys} {t n : Nat} (h : s.exec t (.semaphoreCreate n) = .ok s') :
    ∃ v p, sysSemaphoreCreate s.proc n = .ok (v, p) ∧ s' = { s with proc := p } := by
  obtain ⟨⟨v, p⟩, hc, h⟩ := bind_eq_ok.mp h
  exact ⟨v, p, hc, (Except.ok.inj h).symm⟩

theorem exec_mutexLock {s s' : Sys} {t m : Nat} (h : s.exec t (.mutexLock m) = .ok s') :
    ∃ v p a, sysMutexLock s.proc t m = .ok (v, p, a) ∧
      s' = { s with proc := p }.acquired .mutex t m a := by
  obtain ⟨⟨v, p, a⟩, hc, h⟩ := bind_eq_ok.mp h
  exact ⟨v, p, a, hc, (Except.ok.inj h).symm⟩

theorem exec_mutexUnlock {s s' : Sys} {t m : Nat} (h : s.exec t (.mutexUnlock m) = .ok s') :
    ∃ v p w, sysMutexUnlock s.proc t m = .ok (v, p, w) ∧
      s' = { s with proc := p }.released .mutex t m w := by
  obtain ⟨⟨v, p, w⟩, hc, h⟩ := bind_eq_ok.mp h
  exact ⟨v, p, w, hc, (Except.ok.inj h).symm⟩

theorem exec_semaphoreDown {s s' : Sys} {t sid : Nat} (h : s.exec t (.semaphoreDown sid) = .ok s') :
    ∃ v p a, sysSemaphoreDown s.proc t sid = .ok (v, p, a) ∧
      s' = { s with proc := p }.acquired .semaphore t sid a := by
  obtain ⟨⟨v, p, a⟩, hc, h⟩ := bind_eq_ok.mp h
  exact ⟨v, p, a, hc, (Except.ok.inj h).symm⟩

theorem exec_semaphoreUp {s s' : Sys} {t sid : Nat} (h : s.exec t (.semaphoreUp sid) = .ok s') :
    ∃ v p w, sysSemaphoreUp s.proc t sid = .ok (v, p, w) ∧
      s' = { s with proc := p }.released .semaphore t sid w := by
  obtain ⟨⟨v, p, w⟩, hc, h⟩ := bind_eq_ok.mp h
  exact ⟨v, p, w, hc, (Except.ok.inj h).symm⟩

theorem exec_condvarCreate {s s' : Sys} {t : Nat} (h : s.exec t .condvarCreate = .ok s') :
    ∃ v p, sysCondvarCreate s.proc = .ok (v, p) ∧ s' = { s with proc := p } := by
  obtain ⟨⟨v, p⟩, hc, h⟩ := bind_eq_ok.mp h
  exact ⟨v, p, hc, (Except.ok.inj h).symm⟩

theorem exec_condvarSignal {s s' : Sys} {t c : Nat} (h : s.exec t (.condvarSignal c) = .ok s') :
    ∃ v p w, sysCondvarSignal s.proc c = .ok (v, p, w) ∧
      s' = match w with
        | some w => { s with proc := p }.setThread w (s.thread w).relock
        | none => { s with proc := p } := by
  obtain ⟨⟨v, p, w⟩, hc, h⟩ := bind_eq_ok.mp h
  exact ⟨v, p, w, hc, (Except.ok.inj h).symm⟩

theorem exec_condvarWait {s s' : Sys} {t c m : Nat} (h : s.exec t (.condvarWait c m) = .ok s') :
    ∃ v p w, sysCondvarWait s.proc t c m = .ok (v, p, w) ∧
      s' = ({ s with proc := p }.released .mutex t m w).setThread t (.waitingCondvar c m) := by
  obtain ⟨⟨v, p, w⟩, hc, h⟩ := bind_eq_ok.mp h
  exact ⟨v, p, w, hc, (Except.ok.inj h).symm⟩

end Sys

/-- One step of the process: a running thread `t < T` makes a call `allowed` admits, or a
spinning or woken thread resumes. -/
inductive Step (T : Nat) (allowed : Sys → Nat → Call → Prop) : Sys → Sys → Prop where
  | call {s s' : Sys} {t : Nat} {c : Call} (ht : t < T) (hrun : s.thread t = .running)
      (hok : allowed s t c) (h : s.exec t c = .ok s') : Step T allowed s s'
  | resume {s s' : Sys} {t : Nat} (ht : t < T) (h : s.resume t = some s') : Step T allowed s s'

/-- The states a process of `T` threads reaches from `s₀` by the steps `allowed` admits. -/
def Reachable (T : Nat) (allowed : Sys → Nat → Call → Prop) (s₀ s : Sys) : Prop :=
  Relation.ReflTransGen (Step T allowed) s₀ s

/-- An invariant of every step is an invariant of every run. -/
theorem Reachable.invariant {T : Nat} {allowed : Sys → Nat → Call → Prop} {I : Sys → Prop}
    (hstep : ∀ s s', I s → Step T allowed s s' → I s') {s₀ s : Sys} (h₀ : I s₀)
    (hrun : Reachable T allowed s₀ s) : I s := by
  induction hrun with
  | refl => exact h₀
  | tail _ hst ih => exact hstep _ _ ih hst

/-- Fewer admitted calls reach fewer states. -/
theorem Reachable.mono {T : Nat} {allowed allowed' : Sys → Nat → Call → Prop}
    (hle : ∀ s t c, allowed s t c → allowed' s t c) {s₀ s : Sys}
    (hrun : Reachable T allowed s₀ s) : Reachable T allowed' s₀ s :=
  Relation.ReflTransGen.mono (fun _ _ h => match h with
    | .call ht hrun hok h => .call ht hrun (hle _ _ _ hok) h
    | .resume ht h => .resume ht h) hrun

end Rcore
