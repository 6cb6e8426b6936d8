import Rcore.Sync.System
import Rcore.Sync.Columns

/-!
# The ledger agrees with the primitives along every run

`Agrees T s` says that in process state `s` both ledgers agree with their primitives
(`ColumnsAgree`) for the threads `0 … T-1`: each blocking mutex's and each semaphore's column
records its free units, what each thread holds and who is blocked on it.  It also records the
shape of the state the syscalls rely on: no slot is empty (nothing in the code empties one),
a spinning thread spins on a spinning mutex, and no thread waits on a condition variable.

Every call a running thread makes under the callers' discipline, other than
`sys_condvar_wait`, and every poll of a spinning thread keep `Agrees` (`Agrees.step`); so every
state reachable from a fresh process satisfies it (`Agrees.reachable`).

`sys_condvar_wait` is left out because it hands the mutex back inside the primitive without
touching the ledger: from any agreeing state it leaves the waiter credited with the mutex it
gave up (`condvar_wait_unrecorded`).  A spinning mutex's column is left out because
`MutexSpin` reports no waking thread, so the ledger cannot follow a spinner that takes the lock
(`spin_handoff_unrecorded`).
-/

set_option autoImplicit false

namespace Rcore

namespace ProcessInner

/-- The ledger of class `k`. -/
def ledger (p : ProcessInner) : Kind → Ledger
  | .mutex => p.mutex
  | .semaphore => p.semaphore

/-- The number of slots of class `k`. -/
def slots (p : ProcessInner) : Kind → Nat
  | .mutex => p.mutexList.length
  | .semaphore => p.semaphoreList.length

/-- Slot `r` of class `k` as a counter: a blocking mutex or a semaphore. -/
def counter (p : ProcessInner) : Kind → Nat → Option Counter
  | .mutex, r => p.mutexList[r]?.join.bind MutexPrim.counter?
  | .semaphore, r => p.semaphoreList[r]?.join.map Semaphore.counter

theorem counter_mutexList_set (p : ProcessInner) {m : Nat} (hm : m < p.mutexList.length)
    (x : MutexPrim) (l : Ledger) :
    counter { p with mutex := l, mutexList := p.mutexList.set m (some x) } .mutex =
      Function.update (p.counter .mutex) m x.counter? := by
  funext j
  by_cases hj : j = m
  · subst hj; simp [counter, hm]
  · simp [counter, Function.update_noteq hj, List.getElem?_set, Ne.symm hj]

theorem counter_semaphoreList_set (p : ProcessInner) {sid : Nat}
    (hs : sid < p.semaphoreList.length) (x : Semaphore) (l : Ledger) :
    counter { p with semaphore := l, semaphoreList := p.semaphoreList.set sid (some x) } .semaphore =
      Function.update (p.counter .semaphore) sid (some x.counter) := by
  funext j
  by_cases hj : j = sid
  · subst hj; simp [counter, hs]
  · simp [counter, Function.update_noteq hj, List.getElem?_set, Ne.symm hj]

theorem counter_mutexList_append (p : ProcessInner) (x : MutexPrim) (l : Ledger) (j : Nat) :
    counter { p with mutexList := p.mutexList ++ [some x], mutex := l } .mutex j =
      if j < p.mutexList.length then p.counter .mutex j
      else if j = p.mutexList.length then x.counter? else none := by
  simp only [counter]
  split_ifs with h1 h2
  · rw [List.getElem?_append_left h1]
  · subst h2; simp
  · rw [List.getElem?_eq_none (by simp; omega)]; rfl

theorem counter_semaphoreList_append (p : ProcessInner) (x : Semaphore) (l : Ledger) (j : Nat) :
    counter { p with semaphoreList := p.semaphoreList ++ [some x], semaphore := l } .semaphore j =
      if j < p.semaphoreList.length then p.counter .semaphore j
      else if j = p.semaphoreList.length then some x.counter else none := by
  simp only [counter]
  split_ifs with h1 h2
  · rw [List.getElem?_append_left h1]
  · subst h2; simp
  · rw [List.getElem?_eq_none (by simp; omega)]; rfl

end ProcessInner

/-- The units one resource of class `k` has at most: a mutex one, a semaphore a `usize`. -/
def Kind.cap : Kind → Nat
  | .mutex => 1
  | .semaphore => usizeMax

namespace Sys

/-- Thread `t` is blocked on resource `r` of class `k`. -/
def waiting (s : Sys) (k : Kind) (t r : Nat) : Bool := decide (s.thread t = .blocked k r)

/-- The ledger of class `k` agrees with its primitives for the threads `0 … T-1`. -/
def Columns (s : Sys) (T : Nat) (k : Kind) : Prop :=
  ColumnsAgree T (s.proc.slots k) k.cap (s.proc.ledger k) (s.proc.counter k) (s.held k)
    (s.waiting k)

theorem give_held_self (s : Sys) (k : Kind) (t r : Nat) :
    (s.give k t r).held k = incr (s.held k) t r := by
  funext u j; simp [incr]

theorem give_held_other (s : Sys) {k k' : Kind} (h : k' ≠ k) (t r : Nat) :
    (s.give k t r).held k' = s.held k' := by
  funext u j; simp [h]

theorem take_held_self (s : Sys) (k : Kind) (t r : Nat) :
    (s.take k t r).held k = decr (s.held k) t r := by
  funext u j; simp [decr]

theorem take_held_other (s : Sys) {k k' : Kind} (h : k' ≠ k) (t r : Nat) :
    (s.take k t r).held k' = s.held k' := by
  funext u j; simp [h]

@[simp] theorem waiting_setThread (s : Sys) (t : Nat) (st : ThreadState) (k : Kind) (u j : Nat) :
    (s.setThread t st).waiting k u j =
      if u = t then decide (st = .blocked k j) else s.waiting k u j := by
  by_cases hu : u = t <;> simp [waiting, hu]

@[simp] theorem waiting_give (s : Sys) (k k' : Kind) (t r : Nat) :
    (s.give k t r).waiting k' = s.waiting k' := rfl

@[simp] theorem waiting_take (s : Sys) (k k' : Kind) (t r : Nat) :
    (s.take k t r).waiting k' = s.waiting k' := rfl

/-- A running thread waits on nothing. -/
theorem waiting_of_running {s : Sys} {t : Nat} (h : s.thread t = .running) (k : Kind) (j : Nat) :
    s.waiting k t j = false := by
  simp [waiting, h]

theorem acquired_held (s : Sys) (k : Kind) (t r : Nat) (a : Acquire) (k' : Kind) :
    (s.acquired k t r (some a)).held k' =
      if k' = k ∧ a = .acquired then incr (s.held k) t r else s.held k' := by
  cases a <;> by_cases hk : k' = k <;> simp [acquired, hk, give_held_self, give_held_other]

theorem acquired_waiting {s : Sys} {t : Nat} (hrun : s.thread t = .running) (k : Kind) (r : Nat)
    (a : Acquire) (k' : Kind) (u j : Nat) :
    (s.acquired k t r (some a)).waiting k' u j =
      (s.waiting k' u j || (decide (k' = k) && decide (a = .blocked) && u = t && j = r)) := by
  cases a <;> by_cases hu : u = t <;> simp [acquired, hu, waiting_of_running hrun, eq_comm]

@[simp] theorem waiting_withProc (s : Sys) (p : ProcessInner) :
    ({ s with proc := p } : Sys).waiting = s.waiting := rfl

theorem acquired_withProc (s : Sys) (p : ProcessInner) (k : Kind) (t r : Nat)
    (a : Option Acquire) :
    ({ s with proc := p } : Sys).acquired k t r a = { s.acquired k t r a with proc := p } := by
  rcases a with _ | _ | _ | _ <;> rfl

theorem setThread_withProc (s : Sys) (p : ProcessInner) (t : Nat) (st : ThreadState) :
    ({ s with proc := p } : Sys).setThread t st = { s.setThread t st with proc := p } := rfl

theorem released_held (s : Sys) (k : Kind) (t r : Nat) (w : Option Nat) (k' : Kind) :
    (s.released k t r w).held k' =
      if k' = k then handOver (s.held k) t r w else s.held k' := by
  by_cases hk : k' = k
  · subst hk
    cases w <;> simp [released, handOver, take_held_self, give_held_self]
  · cases w <;> simp [released, hk, take_held_other, give_held_other]

theorem released_waiting (s : Sys) (k : Kind) (t r : Nat) (w : Option Nat) (k' : Kind) (u j : Nat) :
    (s.released k t r w).waiting k' u j = (s.waiting k' u j && w != some u) := by
  cases w with
  | none => simp [released]
  | some v =>
    by_cases hu : u = v
    · simp [released, hu]
    · simp [released, hu, Ne.symm hu]

/-- A class's agreement, read off a `ColumnsAgree` of its parts. -/
theorem Columns.of_agree {s : Sys} {T : Nat} {k : Kind} {R : Nat} {l : Ledger}
    {counter : Nat → Option Counter} {held : Nat → Nat → Nat} {waiting : Nat → Nat → Bool}
    (h : ColumnsAgree T R k.cap l counter held waiting) (hslots : s.proc.slots k = R)
    (hledger : s.proc.ledger k = l) (hcounter : s.proc.counter k = counter)
    (hheld : s.held k = held) (hwait : ∀ u < T, ∀ j, s.waiting k u j = waiting u j) :
    s.Columns T k := by
  unfold Columns
  rw [hslots, hledger, hcounter, hheld]
  exact h.congr_waiting hwait

end Sys

/-- The process state the syscalls rely on, beyond the ledgers: no slot is empty, a spinning
thread spins on a spinning mutex, and no thread waits on a condition variable. -/
structure Tidy (T : Nat) (s : Sys) : Prop where
  mutexFilled : ∀ x ∈ s.proc.mutexList, x ≠ none
  semaphoreFilled : ∀ x ∈ s.proc.semaphoreList, x ≠ none
  spinning : ∀ t < T, ∀ m, s.thread t = .spinning m →
    m < s.proc.mutexList.length ∧ s.proc.counter .mutex m = none
  quiet : ∀ t < T, (∀ c m, s.thread t ≠ .waitingCondvar c m) ∧ ∀ m, s.thread t ≠ .relocking m
  condvarEmpty : ∀ cv, some cv ∈ s.proc.condvarList → cv.waitQueue = []

namespace Tidy

variable {T : Nat} {s : Sys}

theorem give (h : Tidy T s) (k : Kind) (t r : Nat) : Tidy T (s.give k t r) :=
  ⟨h.mutexFilled, h.semaphoreFilled, h.spinning, h.quiet, h.condvarEmpty⟩

theorem take (h : Tidy T s) (k : Kind) (t r : Nat) : Tidy T (s.take k t r) :=
  ⟨h.mutexFilled, h.semaphoreFilled, h.spinning, h.quiet, h.condvarEmpty⟩

/-- A thread takes a state that is neither a condition-variable wait nor a spin on a mutex
with a counter. -/
theorem setThread (h : Tidy T s) (t : Nat) {st : ThreadState}
    (hspin : ∀ m, st = .spinning m → m < s.proc.mutexList.length ∧ s.proc.counter .mutex m = none)
    (hcv : ∀ c m, st ≠ .waitingCondvar c m) (hre : ∀ m, st ≠ .relocking m) :
    Tidy T (s.setThread t st) := by
  refine ⟨h.mutexFilled, h.semaphoreFilled, fun u hu m hm => ?_, fun u hu => ?_, h.condvarEmpty⟩
  · by_cases hut : u = t
    · simp only [Sys.setThread_thread, hut, if_true] at hm; exact hspin m hm
    · simp only [Sys.setThread_thread, hut, if_false] at hm; exact h.spinning u hu m hm
  · by_cases hut : u = t
    · simp only [Sys.setThread_thread, hut, if_true]; exact ⟨hcv, hre⟩
    · simp only [Sys.setThread_thread, hut, if_false]; exact h.quiet u hu

theorem acquired (h : Tidy T s) (k : Kind) (t r : Nat) {a : Acquire}
    (hspin : a = .spinning → k = .mutex ∧ r < s.proc.mutexList.length ∧
      s.proc.counter .mutex r = none) :
    Tidy T (s.acquired k t r (some a)) := by
  cases a
  · exact h.give k t r
  · exact h.setThread t (by simp) (by simp) (by simp)
  · obtain ⟨rfl, hr⟩ := hspin rfl
    exact h.setThread t (by rintro m ⟨⟩; exact hr) (by simp) (by simp)

theorem released (h : Tidy T s) (k : Kind) (t r : Nat) (w : Option Nat) :
    Tidy T (s.released k t r w) := by
  cases w with
  | none => exact h.take k t r
  | some v => exact ((h.take k t r).give k v r).setThread v (by simp) (by simp) (by simp)

/-- A mutex slot takes a primitive of the same kind, spinning or blocking. -/
theorem setMutex (h : Tidy T s) {m : Nat} (hm : m < s.proc.mutexList.length) {x : MutexPrim}
    (hx : x.counter? = none ↔ s.proc.counter .mutex m = none) (l : Ledger) :
    Tidy T { s with proc := { s.proc with mutex := l, mutexList := s.proc.mutexList.set m (some x) } } := by
  refine ⟨fun y hy => ?_, h.semaphoreFilled, fun u hu j hj => ?_, h.quiet, h.condvarEmpty⟩
  · rcases List.mem_or_eq_of_mem_set hy with hy | rfl
    · exact h.mutexFilled y hy
    · simp
  · obtain ⟨hjl, hjc⟩ := h.spinning u hu j hj
    refine ⟨by simpa using hjl, ?_⟩
    rw [ProcessInner.counter_mutexList_set _ hm]
    by_cases hjm : j = m
    · subst hjm; simpa using hx.mpr hjc
    · rwa [Function.update_noteq hjm]

theorem setSemaphore (h : Tidy T s) (sid : Nat) (x : Semaphore) (l : Ledger) :
    Tidy T { s with proc := { s.proc with semaphore := l,
                                          semaphoreList := s.proc.semaphoreList.set sid (some x) } } := by
  refine ⟨h.mutexFilled, fun y hy => ?_, h.spinning, h.quiet, h.condvarEmpty⟩
  rcases List.mem_or_eq_of_mem_set hy with hy | rfl
  · exact h.semaphoreFilled y hy
  · simp

end Tidy

/-- **The ledger agrees with the primitives**: both classes' columns, and the state's shape. -/
structure Agrees (T : Nat) (s : Sys) : Prop where
  columns : ∀ k, s.Columns T k
  tidy : Tidy T s

/-- The calls the agreement is kept by: the callers' discipline, and no `sys_condvar_wait`. -/
def AgreementCalls (s : Sys) (t : Nat) (c : Call) : Prop :=
  s.Disciplined t c ∧ ∀ cv m, c ≠ .condvarWait cv m

/-- A fresh process agrees: no resource, every row empty. -/
theorem Agrees.init (T : Nat) (detect : Bool) : Agrees T (Sys.init T detect) := by
  have hshape : ∀ k, ((Sys.init T detect).proc.ledger k).Shape T 0 := fun k => by
    cases k <;> exact ⟨rfl, ⟨by simp [Sys.init, ProcessInner.ledger],
      fun row h => by simp [Sys.init, ProcessInner.ledger] at h; simp [h]⟩,
      ⟨by simp [Sys.init, ProcessInner.ledger], fun row h => by
        simp [Sys.init, ProcessInner.ledger] at h; simp [h]⟩⟩
  refine ⟨fun k => ?_, ⟨by simp [Sys.init], by simp [Sys.init], fun t _ m h => ?_,
    fun t _ => ⟨fun c m h => ?_, fun m h => ?_⟩, by simp [Sys.init]⟩⟩
  · have hnone : ∀ r, (Sys.init T detect).proc.counter k r = none := fun r => by
      cases k <;> simp [Sys.init, ProcessInner.counter]
    refine ⟨by cases k <;> exact hshape _, ?_, ?_, ?_, ?_, ?_, ?_, fun t _ r hw => ?_,
      fun _ _ _ => rfl⟩
    all_goals first
      | (intro r c h; rw [hnone] at h; cases h)
      | simp [Sys.waiting, Sys.init] at hw
  all_goals simp [Sys.init] at h

/-! ## Each call keeps the agreement -/

section Steps

variable {T : Nat} {s : Sys} {t : Nat}

/-- **A tracked `lock`/`down` the ledger admitted keeps the agreement**: class `k`'s ledger is
the request's and its counter at `r` the acquire's; the other class is untouched. -/
theorem Agrees.acquireTracked (hA : Agrees T s) (ht : t < T) (hrun : s.thread t = .running)
    {k : Kind} {r : Nat} {c : Counter} (hc : s.proc.counter k r = some c) {tnum : Nat}
    {detect : Bool} {l' : Ledger}
    (hreq : (s.proc.ledger k).request tnum t r detect = .ok (true, l')) {p' : ProcessInner}
    (hslots : ∀ k', p'.slots k' = s.proc.slots k')
    (hledger : ∀ k', p'.ledger k' = if k' = k then l' else s.proc.ledger k')
    (hcounter : ∀ k', p'.counter k' = if k' = k then
      Function.update (s.proc.counter k) r (some (c.acquire t).1) else s.proc.counter k')
    (htidy : Tidy T { s with proc := p' }) :
    Agrees T ({ s with proc := p' }.acquired k t r (some (c.acquire t).2)) := by
  have hne : (c.acquire t).2 ≠ .spinning := by
    unfold Counter.acquire; split <;> simp
  have hrun' : ({ s with proc := p' } : Sys).thread t = .running := hrun
  refine ⟨fun k' => ?_, htidy.acquired k t r fun h => absurd h hne⟩
  by_cases hk : k' = k
  · subst hk
    refine Sys.Columns.of_agree
      ((hA.columns k').acquire hc ht (Sys.waiting_of_running hrun k') hreq)
      (by simp [hslots]) (by simp [hledger]) (by simp [hcounter]) ?_ fun u _ j => ?_
    · rw [Sys.acquired_held]; simp
    · rw [Sys.acquired_waiting hrun']; simp
  · refine Sys.Columns.of_agree (hA.columns k') (by simp [hslots]) (by simp [hledger, hk])
      (by simp [hcounter, hk]) ?_ fun u _ j => ?_
    · rw [Sys.acquired_held]; simp [hk]
    · rw [Sys.acquired_waiting hrun']; simp [hk]

/-- A queued thread is blocked on the resource whose queue it is in. -/
theorem Agrees.queue_blocked (hA : Agrees T s) {k : Kind} {r : Nat} {c : Counter}
    (hc : s.proc.counter k r = some c) : ∀ v ∈ c.waitQueue, s.thread v = .blocked k r :=
  fun v hv => by simpa [Sys.waiting] using (((hA.columns k).queue r c hc).2 v hv).2

/-- A queued thread waits on nothing else. -/
theorem Agrees.queue_only (hA : Agrees T s) {k : Kind} {r : Nat} {c : Counter}
    (hc : s.proc.counter k r = some c) :
    ∀ v ∈ c.waitQueue, ∀ j, s.waiting k v j = true → j = r := fun v hv j hw => by
  simp only [Sys.waiting, hA.queue_blocked hc v hv, decide_eq_true_eq,
    ThreadState.blocked.injEq] at hw
  exact hw.2.symm

/-- **A holder's tracked `unlock`/`up` keeps the agreement**: class `k`'s ledger is the
release's and its counter at `r` the release's; the woken thread runs. -/
theorem Agrees.releaseTracked (hA : Agrees T s) (ht : t < T) (hrun : s.thread t = .running)
    {k : Kind} {r : Nat} {c : Counter} (hc : s.proc.counter k r = some c)
    (hpos : 0 < s.held k t r) {l' : Ledger}
    (hrel : (s.proc.ledger k).release t r c.wakingTid = .ok l') {p' : ProcessInner}
    (hslots : ∀ k', p'.slots k' = s.proc.slots k')
    (hledger : ∀ k', p'.ledger k' = if k' = k then l' else s.proc.ledger k')
    (hcounter : ∀ k', p'.counter k' = if k' = k then
      Function.update (s.proc.counter k) r (some c.release.1) else s.proc.counter k')
    (htidy : Tidy T { s with proc := p' }) :
    Agrees T ({ s with proc := p' }.released k t r c.release.2) := by
  have hqueue := hA.queue_blocked hc
  have honly := hA.queue_only hc
  refine ⟨fun k' => ?_, htidy.released k t r _⟩
  by_cases hk : k' = k
  · subst hk
    refine Sys.Columns.of_agree ((hA.columns k').release hc ht hpos
      (Sys.waiting_of_running hrun k') honly hrel) (by simp [hslots]) (by simp [hledger])
      (by simp [hcounter]) ?_ fun u _ j => ?_
    · rw [Sys.released_held, if_pos rfl]
    · exact Sys.released_waiting _ _ _ _ _ _ _ _
  · refine Sys.Columns.of_agree (hA.columns k') (by simp [hslots]) (by simp [hledger, hk])
      (by simp [hcounter, hk]) ?_ fun u _ j => ?_
    · rw [Sys.released_held]; simp [hk]
    · rw [Sys.released_waiting]
      cases hw : c.release.2 with
      | none => simp
      | some v =>
        by_cases hu : u = v
        · subst hu; simp [Sys.waiting, hqueue u (c.release_woken_mem hw), Ne.symm hk]
        · simp [hu, Ne.symm hu]

/-- **A step confined to a spinning mutex `m`** (its slot, its ledger column, and one thread's
state and holdings of it) keeps the agreement. -/
theorem Agrees.spinStep (hA : Agrees T s) {m : Nat} (hm : m < s.proc.mutexList.length)
    (hc0 : s.proc.counter .mutex m = none) (b : Bool) {l' : Ledger}
    (hl' : l'.Shape T s.proc.mutexList.length) (hsame : s.proc.mutex.SameOff m l') {s' : Sys}
    (hproc : s'.proc = { s.proc with mutex := l', mutexList := s.proc.mutexList.set m (some (.spin b)) })
    (hheld : ∀ u j, j ≠ m → s'.held .mutex u j = s.held .mutex u j)
    (hheld' : s'.held .semaphore = s.held .semaphore)
    (hwait : ∀ k, ∀ u < T, ∀ j, s'.waiting k u j = s.waiting k u j) (htidy : Tidy T s') :
    Agrees T s' := by
  refine ⟨fun k => ?_, htidy⟩
  cases k
  · refine Sys.Columns.of_agree ((hA.columns .mutex).untracked hm hc0 hl' hsame hheld)
      (by simp [hproc, ProcessInner.slots]) (by simp [hproc, ProcessInner.ledger]) ?_ rfl
      (hwait .mutex)
    rw [hproc, ProcessInner.counter_mutexList_set _ hm]
    have := Function.update_eq_self m (s.proc.counter .mutex)
    rwa [hc0] at this
  · exact Sys.Columns.of_agree (hA.columns .semaphore) (by simp [hproc, ProcessInner.slots])
      (by simp [hproc, ProcessInner.ledger]) (by rw [hproc]; rfl) hheld' (hwait .semaphore)

/-- `sys_mutex_lock`. -/
theorem Agrees.mutexLock (hA : Agrees T s) (ht : t < T) (hrun : s.thread t = .running)
    {m : Nat} {s' : Sys} (h : s.exec t (.mutexLock m) = .ok s') : Agrees T s' := by
  obtain ⟨v, p', a, hcall, rfl⟩ := Sys.exec_mutexLock h
  obtain ⟨mutex, b, l', hslot, hreq, hcase⟩ := sysMutexLock_ok hcall
  obtain ⟨hm, -⟩ := List.getElem?_eq_some_iff.mp hslot
  have hl : s.proc.mutex.Shape T s.proc.mutexList.length := (hA.columns .mutex).shape
  rcases hcase with ⟨rfl, rfl, rfl⟩ | ⟨rfl, rfl, rfl⟩
  · -- refused: the need is rolled back
    obtain rfl := Ledger.request_refused hl ht hm hreq
    exact hA
  · cases mutex with
    | blocking locked q =>
      have hc : s.proc.counter .mutex m = some ⟨if locked then 0 else 1, q⟩ := by
        simp [ProcessInner.counter, hslot, MutexPrim.counter?]
      obtain ⟨h1, h2⟩ := @MutexPrim.lock_counter (.blocking locked q) _ rfl t
      rw [h2]
      refine hA.acquireTracked ht hrun hc hreq (fun k' => by cases k' <;> simp [ProcessInner.slots])
        (fun k' => by cases k' <;> simp [ProcessInner.ledger]) (fun k' => ?_)
        (hA.tidy.setMutex hm (by rw [h1, hc]; simp) l')
      cases k'
      · rw [if_pos rfl, ← h1]; exact ProcessInner.counter_mutexList_set _ hm _ _
      · rw [if_neg (by decide)]; rfl
    | spin locked =>
      have hc0 : s.proc.counter .mutex m = none := by
        simp [ProcessInner.counter, hslot, MutexPrim.counter?]
      obtain ⟨hl', hsame⟩ := Ledger.request_sameOff hl ht hm hreq
      obtain ⟨a, hlk, ha⟩ := MutexPrim.spin_lock locked t
      rw [hlk]
      refine hA.spinStep hm hc0 true hl' hsame (by simp) (fun u j hj => ?_) ?_ (fun k u _ j => ?_)
        ((hA.tidy.setMutex hm (show (MutexPrim.spin true).counter? = none ↔ _ by simp [hc0, MutexPrim.counter?]) l').acquired .mutex t m
          fun _ => ⟨rfl, by simpa using hm, by
            rw [ProcessInner.counter_mutexList_set _ hm]; simp [MutexPrim.counter?, hc0]⟩)
      · rw [Sys.acquired_held]; split <;> simp [incr, hj]
      · rw [Sys.acquired_held]; simp
      · rw [Sys.acquired_withProc, Sys.waiting_withProc, Sys.acquired_waiting hrun]; simp [ha]

/-- `sys_mutex_unlock` by a holder. -/
theorem Agrees.mutexUnlock (hA : Agrees T s) (ht : t < T) (hrun : s.thread t = .running)
    {m : Nat} (hheld : 0 < s.held .mutex t m) {s' : Sys}
    (h : s.exec t (.mutexUnlock m) = .ok s') : Agrees T s' := by
  obtain ⟨v, p', w, hcall, rfl⟩ := Sys.exec_mutexUnlock h
  obtain ⟨mutex, l', hslot, hrel, rfl, rfl⟩ := sysMutexUnlock_ok hcall
  obtain ⟨hm, -⟩ := List.getElem?_eq_some_iff.mp hslot
  have hl : s.proc.mutex.Shape T s.proc.mutexList.length := (hA.columns .mutex).shape
  cases mutex with
  | blocking locked q =>
    have hc : s.proc.counter .mutex m = some ⟨if locked then 0 else 1, q⟩ := by
      simp [ProcessInner.counter, hslot, MutexPrim.counter?]
    obtain ⟨h1, h2, h3⟩ := @MutexPrim.unlock_counter (.blocking locked q) _ rfl
      ((hA.columns .mutex).free_eq_zero hc ht hheld)
    rw [h3] at hrel
    rw [h2]
    refine hA.releaseTracked ht hrun hc hheld hrel
      (fun k' => by cases k' <;> simp [ProcessInner.slots])
      (fun k' => by cases k' <;> simp [ProcessInner.ledger]) (fun k' => ?_)
      (hA.tidy.setMutex hm (by rw [h1, hc]; simp) l')
    cases k'
    · rw [if_pos rfl, ← h1]; exact ProcessInner.counter_mutexList_set _ hm _ _
    · rw [if_neg (by decide)]; rfl
  | spin locked =>
    have hc0 : s.proc.counter .mutex m = none := by
      simp [ProcessInner.counter, hslot, MutexPrim.counter?]
    obtain ⟨-, rfl⟩ := Ledger.release_ok_free hl ht hm hrel
    refine hA.spinStep hm hc0 false hl.free (Ledger.sameOff_free hl ht hm) rfl
      (fun u j hj => ?_) ?_ (fun k u _ j => ?_)
      ((hA.tidy.setMutex hm (by simp [MutexPrim.counter?, MutexPrim.unlock, hc0]) _).released
        .mutex t m _)
    · rw [Sys.released_held]; simp [MutexPrim.unlock, handOver, decr, hj]
    · rw [Sys.released_held]; simp
    · rw [Sys.released_waiting]; simp [MutexPrim.unlock]

/-- `sys_semaphore_down`. -/
theorem Agrees.semaphoreDown (hA : Agrees T s) (ht : t < T) (hrun : s.thread t = .running)
    {sid : Nat} {s' : Sys} (h : s.exec t (.semaphoreDown sid) = .ok s') : Agrees T s' := by
  obtain ⟨v, p', a, hcall, rfl⟩ := Sys.exec_semaphoreDown h
  obtain ⟨sem, b, l', hslot, hreq, hcase⟩ := sysSemaphoreDown_ok hcall
  obtain ⟨hs, -⟩ := List.getElem?_eq_some_iff.mp hslot
  have hl : s.proc.semaphore.Shape T s.proc.semaphoreList.length :=
    (hA.columns .semaphore).shape
  rcases hcase with ⟨rfl, rfl, rfl⟩ | ⟨rfl, rfl, rfl⟩
  · -- refused: the need is rolled back
    obtain rfl := Ledger.request_refused hl ht hs hreq
    exact hA
  · have hc : s.proc.counter .semaphore sid = some sem.counter := by
      simp [ProcessInner.counter, hslot]
    obtain ⟨h1, h2⟩ := sem.down_counter t
    rw [h2]
    refine hA.acquireTracked ht hrun hc hreq (fun k' => by cases k' <;> simp [ProcessInner.slots])
      (fun k' => by cases k' <;> simp [ProcessInner.ledger]) (fun k' => ?_)
      (hA.tidy.setSemaphore sid _ l')
    cases k'
    · rw [if_neg (by decide)]; rfl
    · rw [if_pos rfl, ← h1]; exact ProcessInner.counter_semaphoreList_set _ hs _ _

/-- `sys_semaphore_up` by a holder. -/
theorem Agrees.semaphoreUp (hA : Agrees T s) (ht : t < T) (hrun : s.thread t = .running)
    {sid : Nat} (hheld : 0 < s.held .semaphore t sid) {s' : Sys}
    (h : s.exec t (.semaphoreUp sid) = .ok s') : Agrees T s' := by
  obtain ⟨v, p', w, hcall, rfl⟩ := Sys.exec_semaphoreUp h
  obtain ⟨sem, l', hslot, hrel, rfl, rfl⟩ := sysSemaphoreUp_ok hcall
  obtain ⟨hs, -⟩ := List.getElem?_eq_some_iff.mp hslot
  have hc : s.proc.counter .semaphore sid = some sem.counter := by
    simp [ProcessInner.counter, hslot]
  obtain ⟨h1, h2⟩ := sem.up_counter
  rw [h2]
  refine hA.releaseTracked ht hrun hc hheld hrel
    (fun k' => by cases k' <;> simp [ProcessInner.slots])
    (fun k' => by cases k' <;> simp [ProcessInner.ledger]) (fun k' => ?_)
    (hA.tidy.setSemaphore sid _ l')
  cases k'
  · rw [if_neg (by decide)]; rfl
  · rw [if_pos rfl, ← h1]; exact ProcessInner.counter_semaphoreList_set _ hs _ _

/-- `sys_mutex_create`: with every slot filled, a new column at the end. -/
theorem Agrees.mutexCreate (hA : Agrees T s) {b : Bool} {s' : Sys}
    (h : s.exec t (.mutexCreate b) = .ok s') : Agrees T s' := by
  obtain ⟨v, p', hcall, rfl⟩ := Sys.exec_mutexCreate h
  rw [sysMutexCreate_of_full (freeSlot_eq_none hA.tidy.mutexFilled)] at hcall
  obtain ⟨-, rfl⟩ := Prod.mk.inj (Except.ok.inj hcall)
  have hcnt := ProcessInner.counter_mutexList_append s.proc
    (if !b then .spin false else .blocking false []) (s.proc.mutex.pushColumn 1)
  refine ⟨fun k => ?_, ⟨fun x hx => ?_, hA.tidy.semaphoreFilled, fun u hu m hm => ?_,
    hA.tidy.quiet, hA.tidy.condvarEmpty⟩⟩
  · cases k
    · refine Sys.Columns.of_agree ((hA.columns .mutex).push (fun j hj => ?_) (fun c hc => ?_)
        (fun j hj => ?_) le_rfl) (by simp [ProcessInner.slots]) rfl rfl rfl fun _ _ _ => rfl
      · rw [hcnt, if_pos (show j < s.proc.mutexList.length from hj)]
      · simp only [hcnt, ProcessInner.slots, lt_irrefl, if_false, if_true] at hc
        cases b <;> simp [MutexPrim.counter?] at hc ⊢; exact hc.symm
      · simp only [ProcessInner.slots] at hj
        rw [hcnt, if_neg (by omega), if_neg (by omega)]
    · exact Sys.Columns.of_agree (hA.columns .semaphore) rfl rfl rfl rfl fun _ _ _ => rfl
  · rcases List.mem_append.mp hx with hx | hx
    · exact hA.tidy.mutexFilled x hx
    · simp at hx; simp [hx]
  · obtain ⟨hml, hmc⟩ := hA.tidy.spinning u hu m hm
    exact ⟨by simp; omega, by rw [hcnt, if_pos hml, hmc]⟩

/-- `sys_semaphore_create` with a count that fits in `usize`. -/
theorem Agrees.semaphoreCreate (hA : Agrees T s) {n : Nat} (hn : n ≤ usizeMax) {s' : Sys}
    (h : s.exec t (.semaphoreCreate n) = .ok s') : Agrees T s' := by
  obtain ⟨v, p', hcall, rfl⟩ := Sys.exec_semaphoreCreate h
  rw [sysSemaphoreCreate_of_full (freeSlot_eq_none hA.tidy.semaphoreFilled)] at hcall
  obtain ⟨-, rfl⟩ := Prod.mk.inj (Except.ok.inj hcall)
  have hcnt := ProcessInner.counter_semaphoreList_append s.proc ⟨n, []⟩
    (s.proc.semaphore.pushColumn n)
  refine ⟨fun k => ?_, ⟨hA.tidy.mutexFilled, fun x hx => ?_, hA.tidy.spinning,
    hA.tidy.quiet, hA.tidy.condvarEmpty⟩⟩
  · cases k
    · exact Sys.Columns.of_agree (hA.columns .mutex) rfl rfl rfl rfl fun _ _ _ => rfl
    · refine Sys.Columns.of_agree ((hA.columns .semaphore).push (fun j hj => ?_)
        (fun c hc => ?_) (fun j hj => ?_) hn) (by simp [ProcessInner.slots]) rfl rfl rfl
        fun _ _ _ => rfl
      · rw [hcnt, if_pos (show j < s.proc.semaphoreList.length from hj)]
      · simp only [hcnt, ProcessInner.slots, lt_irrefl, if_false, if_true] at hc
        exact (Option.some.inj hc).symm
      · simp only [ProcessInner.slots] at hj
        rw [hcnt, if_neg (by omega), if_neg (by omega)]
  · rcases List.mem_append.mp hx with hx | hx
    · exact hA.tidy.semaphoreFilled x hx
    · simp at hx; simp [hx]

/-- A call that touches neither class's slots nor ledgers, and leaves every condition
variable's queue empty, keeps the agreement. -/
theorem Agrees.withProc (hA : Agrees T s) {p : ProcessInner}
    (hmutex : p.mutex = s.proc.mutex) (hmutexList : p.mutexList = s.proc.mutexList)
    (hsem : p.semaphore = s.proc.semaphore) (hsemList : p.semaphoreList = s.proc.semaphoreList)
    (hcv : ∀ cv, some cv ∈ p.condvarList → cv.waitQueue = []) :
    Agrees T { s with proc := p } := by
  have hcounter : ∀ k, p.counter k = s.proc.counter k := fun k => funext fun r => by
    cases k <;> simp only [ProcessInner.counter, hmutexList, hsemList]
  refine ⟨fun k => Sys.Columns.of_agree (hA.columns k)
    (by cases k <;> simp [ProcessInner.slots, hmutexList, hsemList])
    (by cases k <;> simp [ProcessInner.ledger, hmutex, hsem]) (hcounter k) rfl
    fun _ _ _ => rfl, ⟨?_, ?_, fun u hu m hm => ?_, hA.tidy.quiet, hcv⟩⟩
  · show ∀ x ∈ p.mutexList, x ≠ none
    rw [hmutexList]; exact hA.tidy.mutexFilled
  · show ∀ x ∈ p.semaphoreList, x ≠ none
    rw [hsemList]; exact hA.tidy.semaphoreFilled
  · show m < p.mutexList.length ∧ p.counter .mutex m = none
    rw [hmutexList, hcounter]; exact hA.tidy.spinning u hu m hm

/-- `sys_condvar_create`. -/
theorem Agrees.condvarCreate (hA : Agrees T s) {s' : Sys}
    (h : s.exec t .condvarCreate = .ok s') : Agrees T s' := by
  obtain ⟨v, p', hcall, rfl⟩ := Sys.exec_condvarCreate h
  obtain ⟨list, rfl, hlist⟩ := sysCondvarCreate_ok hcall
  refine hA.withProc rfl rfl rfl rfl fun cv hcv => ?_
  rcases hlist _ hcv with hcv | hcv
  · exact hA.tidy.condvarEmpty cv hcv
  · cases hcv; rfl

/-- `sys_condvar_signal`: with no waiter, it wakes nobody. -/
theorem Agrees.condvarSignal (hA : Agrees T s) {c : Nat} {s' : Sys}
    (h : s.exec t (.condvarSignal c) = .ok s') : Agrees T s' := by
  obtain ⟨v, p', w, hcall, rfl⟩ := Sys.exec_condvarSignal h
  obtain ⟨cv, hslot, rfl, rfl⟩ := sysCondvarSignal_ok hcall
  have hq : cv.waitQueue = [] := hA.tidy.condvarEmpty cv (List.getElem?_mem hslot)
  have hsig : cv.signal = (cv, none) := by simp [Condvar.signal, hq]
  rw [hsig]
  refine hA.withProc rfl rfl rfl rfl fun cv' hcv' => ?_
  rcases List.mem_or_eq_of_mem_set hcv' with hcv' | hcv'
  · exact hA.tidy.condvarEmpty cv' hcv'
  · cases hcv'; exact hq

/-- `sys_enable_deadlock_detect`. -/
theorem Agrees.enableDeadlockDetect (hA : Agrees T s) {e : Nat} {s' : Sys}
    (h : s.exec t (.enableDeadlockDetect e) = .ok s') : Agrees T s' := by
  cases Except.ok.inj h
  obtain ⟨d, hd⟩ := sysEnableDeadlockDetect_snd (p := s.proc) e
  rw [hd]
  exact hA.withProc rfl rfl rfl rfl hA.tidy.condvarEmpty

/-- A spinning thread's poll of its mutex. -/
theorem Agrees.resume (hA : Agrees T s) (ht : t < T) {s' : Sys} (h : s.resume t = some s') :
    Agrees T s' := by
  unfold Sys.resume at h
  split at h
  · rename_i m hth
    obtain ⟨hm, hc0⟩ := hA.tidy.spinning t ht m hth
    obtain ⟨mutex, hmx, h⟩ := Option.bind_eq_some.mp h
    have hslot : s.proc.mutexList[m]? = some (some mutex) := Option.join_eq_some.mp hmx
    obtain ⟨locked, rfl⟩ : ∃ locked, mutex = .spin locked := by
      cases mutex with
      | spin locked => exact ⟨locked, rfl⟩
      | blocking _ _ => simp [ProcessInner.counter, hslot, MutexPrim.counter?] at hc0
    obtain ⟨a, hlk, ha⟩ := MutexPrim.spin_lock locked t
    rw [hlk] at h
    cases Option.some.inj h
    have hrun : (s.setThread t .running).thread t = .running := by simp
    have hl : s.proc.mutex.Shape T s.proc.mutexList.length := (hA.columns .mutex).shape
    refine hA.spinStep hm hc0 true hl
      (Ledger.SameOff.refl _ _) (by simp) (fun u j hj => ?_) ?_ (fun k u _ j => ?_)
      ((hA.tidy.setMutex hm (by simp [hc0, MutexPrim.counter?]) s.proc.mutex).setThread t
        (by simp) (by simp) (by simp) |>.acquired .mutex t m fun _ => ⟨rfl, by simpa using hm,
          by rw [Sys.setThread_proc, ProcessInner.counter_mutexList_set _ hm]
             simp [MutexPrim.counter?, hc0]⟩)
    · rw [Sys.acquired_held]; split <;> simp [incr, hj]
    · rw [Sys.acquired_held]; simp
    · rw [Sys.setThread_withProc, Sys.acquired_withProc, Sys.waiting_withProc,
        Sys.acquired_waiting hrun, Sys.waiting_setThread]
      split
      · subst u; simp [Sys.waiting, hth, ha]
      · simp [ha]
  · rename_i m hth
    exact absurd hth ((hA.tidy.quiet t ht).2 m)
  · cases h

/-- **Each step keeps the agreement.** -/
theorem Agrees.step (hA : Agrees T s) {s' : Sys} (h : Step T AgreementCalls s s') :
    Agrees T s' := by
  cases h with
  | @call t c ht hrun hok h =>
    obtain ⟨hdisc, hcv⟩ := hok
    cases c with
    | mutexCreate b => exact hA.mutexCreate h
    | mutexLock m => exact hA.mutexLock ht hrun h
    | mutexUnlock m => exact hA.mutexUnlock ht hrun hdisc h
    | semaphoreCreate n => exact hA.semaphoreCreate hdisc h
    | semaphoreUp sid => exact hA.semaphoreUp ht hrun hdisc h
    | semaphoreDown sid => exact hA.semaphoreDown ht hrun h
    | condvarCreate => exact hA.condvarCreate h
    | condvarSignal c => exact hA.condvarSignal h
    | condvarWait c m => exact absurd rfl (hcv c m)
    | enableDeadlockDetect e => exact hA.enableDeadlockDetect h
  | resume ht h => exact hA.resume ht h

end Steps

/-- **Every state a fresh process reaches agrees.** -/
theorem Agrees.reachable {T : Nat} {detect : Bool} {s : Sys}
    (h : Reachable T AgreementCalls (Sys.init T detect) s) : Agrees T s :=
  Reachable.invariant (fun _ _ hA hst => hA.step hst) (Agrees.init T detect) h


/-- **A run through a handoff.**  Thread 0 creates a blocking mutex and a one-unit semaphore
and locks the mutex; thread 1 blocks on it; thread 0's unlock hands the mutex to thread 1, which
runs again and takes the semaphore's unit; thread 0 then blocks on the mutex. -/
theorem reachable_after_handoff :
    ∃ s, Reachable 2 AgreementCalls (Sys.init 2 false) s ∧ s.thread 1 = .running ∧
      s.thread 0 = .blocked .mutex 0 ∧ s.held .mutex 1 0 = 1 ∧ s.held .semaphore 1 0 = 1 ∧
      ∃ c, s.proc.counter .mutex 0 = some c ∧ c.waitQueue = [0] :=
  ⟨_, .head (@Step.call 2 AgreementCalls _ _ 0 (.mutexCreate true) (by decide) rfl
      ⟨trivial, fun _ _ h => Call.noConfusion h⟩ rfl)
    (.head (@Step.call 2 AgreementCalls _ _ 0 (.semaphoreCreate 1) (by decide) rfl
      ⟨by decide, fun _ _ h => Call.noConfusion h⟩ rfl)
    (.head (@Step.call 2 AgreementCalls _ _ 0 (.mutexLock 0) (by decide) rfl
      ⟨trivial, fun _ _ h => Call.noConfusion h⟩ rfl)
    (.head (@Step.call 2 AgreementCalls _ _ 1 (.mutexLock 0) (by decide) rfl
      ⟨trivial, fun _ _ h => Call.noConfusion h⟩ rfl)
    (.head (@Step.call 2 AgreementCalls _ _ 0 (.mutexUnlock 0) (by decide) rfl
      ⟨by decide, fun _ _ h => Call.noConfusion h⟩ rfl)
    (.head (@Step.call 2 AgreementCalls _ _ 1 (.semaphoreDown 0) (by decide) rfl
      ⟨trivial, fun _ _ h => Call.noConfusion h⟩ rfl)
    (.single (@Step.call 2 AgreementCalls _ _ 0 (.mutexLock 0) (by decide) rfl
      ⟨trivial, fun _ _ h => Call.noConfusion h⟩ rfl))))))),
    by decide, by decide, by decide, by decide, _, rfl, rfl⟩

/-! ## What the ledger records -/

/-- **`sys_condvar_wait` leaves the ledger behind**: from any agreeing state in which a running
thread `t` holds blocking mutex `m`, `sys_condvar_wait(c, m)` releases the mutex in the
primitive, but the ledger, which the syscall does not touch, still credits `t` with it, so the
mutex class no longer agrees. -/
theorem condvar_wait_unrecorded {T : Nat} {s s' : Sys} {t c m : Nat} {cnt : Counter}
    (hA : Agrees T s) (ht : t < T) (hrun : s.thread t = .running)
    (hc : s.proc.counter .mutex m = some cnt) (hheld : 0 < s.held .mutex t m)
    (h : s.exec t (.condvarWait c m) = .ok s') :
    entry s'.proc.mutex.allocation t m = 1 ∧ s'.held .mutex t m = 0 ∧ ¬ s'.Columns T .mutex := by
  obtain ⟨v, p, w, hcall, rfl⟩ := Sys.exec_condvarWait h
  obtain ⟨cv, mutex, -, hslot, rfl, rfl⟩ := sysCondvarWait_ok hcall
  have hcol := hA.columns .mutex
  have hmx : mutex.counter? = some cnt := by simpa [ProcessInner.counter, hslot] using hc
  obtain ⟨h1, h2, -⟩ := MutexPrim.unlock_counter hmx (hcol.free_eq_zero hc ht hheld)
  have hone : s.held .mutex t m = 1 := by
    have htot : cnt.free + heldTotal (s.held .mutex) T m ≤ 1 := hcol.total m cnt hc
    have := held_le_heldTotal (s.held .mutex) ht m
    omega
  -- the woken thread, if any, was blocked on `m`, so it is not `t`
  have hheld' : handOver (s.held .mutex) t m cnt.release.2 t m = 0 := by
    cases hw : cnt.release.2 with
    | none => simp [handOver, decr, hone]
    | some u =>
      have hu : u ≠ t := fun hut => by
        have := hA.queue_blocked hc u (cnt.release_woken_mem hw)
        rw [hut, hrun] at this; cases this
      simp [handOver, incr, decr, hone, Ne.symm hu]
  have halloc : entry s.proc.mutex.allocation t m = s.held .mutex t m :=
    hcol.allocation m cnt hc t ht
  refine ⟨by simpa [hone] using halloc, ?_, fun hcol' => ?_⟩
  · simpa [Sys.released_held, Condvar.wait_snd, h2] using hheld'
  · have hm : m < s.proc.mutexList.length := (List.getElem?_eq_some_iff.mp hslot).1
    have := hcol'.allocation m cnt.release.1
      (by simp [ProcessInner.counter, List.getElem?_set, hm, Condvar.wait_snd, h1]) t ht
    simp [Sys.released_held, Condvar.wait_snd, h2, hheld', ProcessInner.ledger] at this
    omega

/-- One thread creates a blocking mutex, locks it and creates a condition variable, then waits
on it. -/
theorem condvar_wait_unrecorded_one_thread :
    ∃ s s', Reachable 1 AgreementCalls (Sys.init 1 false) s ∧
      s.exec 0 (.condvarWait 0 0) = .ok s' ∧
      (entry s'.proc.mutex.allocation 0 0 = 1 ∧ s'.held .mutex 0 0 = 0 ∧
        ¬ s'.Columns 1 .mutex) :=
  have hr : Reachable 1 AgreementCalls (Sys.init 1 false) _ :=
    .head (@Step.call 1 AgreementCalls _ _ 0 (.mutexCreate true) (by decide) rfl
      ⟨trivial, fun _ _ h => Call.noConfusion h⟩ rfl)
    (.head (@Step.call 1 AgreementCalls _ _ 0 (.mutexLock 0) (by decide) rfl
      ⟨trivial, fun _ _ h => Call.noConfusion h⟩ rfl)
    (.single (@Step.call 1 AgreementCalls _ _ 0 .condvarCreate (by decide) rfl
      ⟨trivial, fun _ _ h => Call.noConfusion h⟩ rfl)))
  ⟨_, _, hr, rfl,
    @condvar_wait_unrecorded 1 _ _ 0 0 0 _ (Agrees.reachable hr) (by decide) rfl rfl (by decide)
      rfl⟩

/-- **Wait queues hold distinct blocked threads**: in every reachable state, the wait queue of
each blocking mutex and each semaphore lists distinct threads, each blocked on it. -/
theorem wait_queues_reachable {T : Nat} {detect : Bool} {s : Sys}
    (h : Reachable T AgreementCalls (Sys.init T detect) s) {k : Kind} {r : Nat} {c : Counter}
    (hc : s.proc.counter k r = some c) :
    c.waitQueue.Nodup ∧ ∀ v ∈ c.waitQueue, v < T ∧ s.thread v = .blocked k r := by
  have hA := Agrees.reachable h
  have hq := (hA.columns k).queue r c hc
  exact ⟨hq.1, fun v hv => ⟨(hq.2 v hv).1, hA.queue_blocked hc v hv⟩⟩

theorem wait_queues_one_waiter :
    ∃ s, Reachable 2 AgreementCalls (Sys.init 2 false) s ∧ ∃ c,
      s.proc.counter .mutex 0 = some c ∧ c.waitQueue = [1] ∧
        (c.waitQueue.Nodup ∧ ∀ v ∈ c.waitQueue, v < 2 ∧ s.thread v = .blocked .mutex 0) :=
  have hr : Reachable 2 AgreementCalls (Sys.init 2 false) _ :=
    .head (@Step.call 2 AgreementCalls _ _ 0 (.mutexCreate true) (by decide) rfl
      ⟨trivial, fun _ _ h => Call.noConfusion h⟩ rfl)
    (.head (@Step.call 2 AgreementCalls _ _ 0 (.mutexLock 0) (by decide) rfl
      ⟨trivial, fun _ _ h => Call.noConfusion h⟩ rfl)
    (.single (@Step.call 2 AgreementCalls _ _ 1 (.mutexLock 0) (by decide) rfl
      ⟨trivial, fun _ _ h => Call.noConfusion h⟩ rfl)))
  ⟨_, hr, _, rfl, rfl, wait_queues_reachable hr rfl⟩

/-- **Mutual exclusion**: in every reachable state, a blocking mutex is held by at most one
thread, and by it once. -/
theorem mutex_exclusive_reachable {T : Nat} {detect : Bool} {s : Sys}
    (h : Reachable T AgreementCalls (Sys.init T detect) s) {m : Nat} {c : Counter}
    (hc : s.proc.counter .mutex m = some c) {t u : Nat} (ht : t < T) (hu : u < T) :
    s.held .mutex t m ≤ 1 ∧ (0 < s.held .mutex t m → 0 < s.held .mutex u m → t = u) := by
  have hcol := (Agrees.reachable h).columns .mutex
  have htot : c.free + heldTotal (s.held .mutex) T m ≤ 1 := hcol.total m c hc
  have hone := held_le_heldTotal (s.held .mutex) ht m
  refine ⟨by omega, fun hpt hpu => by_contra fun htu => ?_⟩
  have htwo := sum_le_heldTotal (s.held .mutex) m
    (List.nodup_cons.mpr ⟨by simpa using htu, List.nodup_singleton u⟩)
    (fun i hi => by rcases List.mem_pair.mp hi with rfl | rfl <;> assumption)
  simp only [List.map_cons, List.map_nil, List.sum_cons, List.sum_nil, Nat.add_zero] at htwo
  omega

theorem mutex_exclusive_after_handoff :
    ∃ s, Reachable 2 AgreementCalls (Sys.init 2 false) s ∧ s.held .mutex 1 0 = 1 ∧
      s.thread 0 = .blocked .mutex 0 ∧ ∃ c, s.proc.counter .mutex 0 = some c ∧
        (s.held .mutex 1 0 ≤ 1 ∧ (0 < s.held .mutex 1 0 → 0 < s.held .mutex 0 0 → 1 = 0)) := by
  obtain ⟨s, hr, -, hblk, hheld, -, c, hc, -⟩ := reachable_after_handoff
  exact ⟨s, hr, hheld, hblk, c, hc,
    mutex_exclusive_reachable hr hc (by decide : 1 < 2) (by decide : 0 < 2)⟩

end Rcore
