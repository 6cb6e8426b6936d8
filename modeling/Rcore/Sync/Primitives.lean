import Rcore.Basic

/-!
# The synchronisation primitives

`MutexSpin`, `MutexBlocking`, `Semaphore` and `Condvar` of `crate::sync` are not under src/;
they are modelled from the spec (§4.3).  A spinning mutex is a flag that `lock` polls, with no
wait queue, and its `get_waking_tid` reports `-1`.  A blocking mutex and a semaphore keep a
FIFO wait queue: acquiring takes a free unit or enqueues the caller and blocks it; releasing
hands the unit to the front of the queue, which `get_waking_tid` reports beforehand, or frees
it.  A condition variable's `wait` releases the mutex and blocks the caller on its own queue;
`signal` wakes the front waiter, which reacquires the mutex itself.

Both counting primitives are one `Counter` (free units and queue), the blocking mutex with at
most one unit, so what follows about acquire and release is said once.
-/

set_option autoImplicit false

namespace Rcore

/-- What acquiring a primitive does to the caller. -/
inductive Acquire where
  | acquired
  | blocked
  | spinning
  deriving DecidableEq, Repr

/-- A counting primitive: its free units and its FIFO queue of blocked thread ids. -/
structure Counter where
  free : Nat
  waitQueue : List Nat
  deriving DecidableEq, Repr

namespace Counter

/-- Take a free unit, or enqueue the caller and block it. -/
def acquire (c : Counter) (tid : Nat) : Counter × Acquire :=
  if 0 < c.free then (⟨c.free - 1, c.waitQueue⟩, .acquired)
  else (⟨c.free, c.waitQueue ++ [tid]⟩, .blocked)

/-- Hand the unit to the front of the queue, or free it. -/
def release (c : Counter) : Counter × Option Nat :=
  match c.waitQueue with
  | w :: q => (⟨c.free, q⟩, some w)
  | [] => (⟨c.free + 1, []⟩, none)

/-- A release wakes only a queued thread. -/
theorem release_woken_mem (c : Counter) {v : Nat} (h : c.release.2 = some v) :
    v ∈ c.waitQueue := by
  cases hq : c.waitQueue with
  | nil => simp only [release, hq, reduceCtorEq] at h
  | cons w q =>
    simp only [release, hq, Option.some.injEq] at h
    exact h ▸ List.mem_cons_self _ _

/-- `get_waking_tid`: the thread a release will hand the unit to, or `-1`. -/
def wakingTid (c : Counter) : Int :=
  match c.waitQueue with
  | w :: _ => w
  | [] => -1

end Counter

/-- Modelled from the spec: the two implementations of `trait Mutex`, as the closed variant
of the spec's design notes (§4.3, §9). -/
inductive MutexPrim where
  | spin (locked : Bool)
  | blocking (locked : Bool) (waitQueue : List Nat)
  deriving DecidableEq, Repr

namespace MutexPrim

/-- Modelled from the spec: `Mutex::lock`.  A locked spinning mutex makes the caller poll. -/
def lock (m : MutexPrim) (tid : Nat) : MutexPrim × Acquire :=
  match m with
  | .spin false => (.spin true, .acquired)
  | .spin true => (.spin true, .spinning)
  | .blocking false q => (.blocking true q, .acquired)
  | .blocking true q => (.blocking true (q ++ [tid]), .blocked)

/-- Modelled from the spec: `Mutex::unlock`.  A blocking mutex is handed to its front waiter. -/
def unlock (m : MutexPrim) : MutexPrim × Option Nat :=
  match m with
  | .spin _ => (.spin false, none)
  | .blocking _ (w :: q) => (.blocking true q, some w)
  | .blocking _ [] => (.blocking false [], none)

/-- Modelled from the spec: `Mutex::get_waking_tid`. -/
def getWakingTid (m : MutexPrim) : Int :=
  match m with
  | .spin _ => -1
  | .blocking _ (w :: _) => w
  | .blocking _ [] => -1

/-- A blocking mutex as a counter of at most one unit. -/
def counter? : MutexPrim → Option Counter
  | .spin _ => none
  | .blocking locked q => some ⟨if locked then 0 else 1, q⟩

end MutexPrim

/-- Modelled from the spec: `Semaphore`, with its count of free units and its wait queue. -/
structure Semaphore where
  count : Nat
  waitQueue : List Nat
  deriving DecidableEq, Repr

namespace Semaphore

/-- The semaphore as a counter. -/
def counter (s : Semaphore) : Counter := ⟨s.count, s.waitQueue⟩

/-- Modelled from the spec: `Semaphore::down`. -/
def down (s : Semaphore) (tid : Nat) : Semaphore × Acquire :=
  let (c, r) := s.counter.acquire tid
  (⟨c.free, c.waitQueue⟩, r)

/-- Modelled from the spec: `Semaphore::up`. -/
def up (s : Semaphore) : Semaphore × Option Nat :=
  let (c, w) := s.counter.release
  (⟨c.free, c.waitQueue⟩, w)

/-- Modelled from the spec: `Semaphore::get_waking_tid`. -/
def getWakingTid (s : Semaphore) : Int := s.counter.wakingTid

end Semaphore

/-- Modelled from the spec: `Condvar` and its wait queue. -/
structure Condvar where
  waitQueue : List Nat
  deriving DecidableEq, Repr

namespace Condvar

/-- Modelled from the spec: `Condvar::signal` wakes at most the front waiter. -/
def signal (cv : Condvar) : Condvar × Option Nat :=
  match cv.waitQueue with
  | w :: q => (⟨q⟩, some w)
  | [] => (cv, none)

/-- Modelled from the spec: `Condvar::wait` releases the mutex (which may wake one of its
waiters) and blocks the caller on the condition variable's queue. -/
def wait (cv : Condvar) (mutex : MutexPrim) (tid : Nat) : Condvar × MutexPrim × Option Nat :=
  let (mutex, woken) := mutex.unlock
  (⟨cv.waitQueue ++ [tid]⟩, mutex, woken)

/-- The mutex after `wait`, and the thread it wakes, are those of its `unlock`. -/
theorem wait_snd (cv : Condvar) (mutex : MutexPrim) (tid : Nat) :
    (cv.wait mutex tid).2 = mutex.unlock := by
  unfold wait; cases mutex.unlock; rfl

end Condvar

/-- A spinning mutex's `lock` leaves it locked and never queues the caller. -/
theorem MutexPrim.spin_lock (locked : Bool) (tid : Nat) :
    ∃ a, (MutexPrim.spin locked).lock tid = (.spin true, a) ∧ a ≠ .blocked := by
  cases locked <;> simp [MutexPrim.lock]

/-! ## The blocking mutex is a counter -/

theorem MutexPrim.lock_counter {m : MutexPrim} {c : Counter} (h : m.counter? = some c)
    (tid : Nat) : (m.lock tid).1.counter? = some (c.acquire tid).1 ∧
      (m.lock tid).2 = (c.acquire tid).2 := by
  match m, h with
  | .blocking false q, rfl => exact ⟨rfl, rfl⟩
  | .blocking true q, rfl => exact ⟨rfl, rfl⟩

/-- Unlocking a locked blocking mutex is releasing its one unit. -/
theorem MutexPrim.unlock_counter {m : MutexPrim} {c : Counter} (h : m.counter? = some c)
    (hheld : c.free = 0) :
    m.unlock.1.counter? = some c.release.1 ∧ m.unlock.2 = c.release.2 ∧
      m.getWakingTid = c.wakingTid := by
  match m, h with
  | .blocking true (w :: q), rfl => exact ⟨rfl, rfl, rfl⟩
  | .blocking true [], rfl => exact ⟨rfl, rfl, rfl⟩
  | .blocking false _, rfl => simp at hheld

/-- The semaphore's `down` and `up` are its counter's acquire and release. -/
theorem Semaphore.down_counter (sem : Semaphore) (tid : Nat) :
    (sem.down tid).1.counter = (sem.counter.acquire tid).1 ∧
      (sem.down tid).2 = (sem.counter.acquire tid).2 := by
  unfold Semaphore.down Counter.acquire; split_ifs <;> exact ⟨rfl, rfl⟩

theorem Semaphore.up_counter (sem : Semaphore) :
    sem.up.1.counter = sem.counter.release.1 ∧ sem.up.2 = sem.counter.release.2 := by
  unfold Semaphore.up Counter.release; cases sem.counter.waitQueue <;> exact ⟨rfl, rfl⟩

end Rcore
