import Rcore.Task.Processor

/-!
# `sys_set_priority` along the dispatch loop

`sys_set_priority` admits a priority of at least 2 and gives it to the current task through
`set_current_priority`, which unwraps the current task; any other priority is refused with
`-1`.  `update_stride` divides `BIG_STRIDE` by the priority, so a task of priority 0 would make
`fetch` divide by zero.  Here the events of the dispatch loop (`ProcessorEvent`) are joined by
the current task's `sys_set_priority` calls (`KernelEvent`).

* `kernelStep_priority` — what one event does to the priorities: each task keeps its
  priority, or has the one `sys_set_priority` admitted.
* `kernelStep_error` — with every priority at least 2, an event fails only by fetching from an
  empty ready queue or by `sys_set_priority` with no current task.
* `priorities_valid_run` — along every run from a processor whose tasks all have priority at
  least 2, they keep it, so the largest pass of the ready queue is at most `BIG_STRIDE / 2`, and
  the run fails only in those two ways: `update_stride` never divides by zero.
-/

set_option autoImplicit false

namespace Rcore

/-- Lines 146-152 of `sys_set_priority`, with `set_current_priority` unwrapping the current
task: a priority of at least 2 becomes the current task's and is returned, any other is refused
with `-1`. -/
def sysSetPriority (p : Processor) (prio : Int) : Except Panic (Int × Processor) :=
  if 2 ≤ prio then do
    let task ← unwrap p.current
    pure (prio, { p with current := some { task with taskPriority := prio.toNat } })
  else pure (-1, p)

/-- What happens to the processor: an event of the dispatch loop, or the current task calling
`sys_set_priority`. -/
inductive KernelEvent where
  | dispatch (e : ProcessorEvent)
  | setPriority (prio : Int)
  deriving DecidableEq, Repr

namespace Processor

/-- One event. -/
def kernelStep (bigStride : Nat) (p : Processor) : KernelEvent → Except Panic Processor
  | .dispatch e => p.step bigStride e
  | .setPriority prio => do
    let (_, p) ← sysSetPriority p prio
    pure p

/-- A sequence of events. -/
def kernelRun (bigStride : Nat) (p : Processor) (evs : List KernelEvent) :
    Except Panic Processor :=
  evs.foldlM (kernelStep bigStride) p

/-- Every task has priority at least 2, the least `sys_set_priority` admits. -/
def PrioritiesValid (p : Processor) : Prop := ∀ τ ∈ p.tasks, 2 ≤ τ.taskPriority

instance (p : Processor) : Decidable p.PrioritiesValid :=
  inferInstanceAs (Decidable (∀ τ ∈ p.tasks, 2 ≤ τ.taskPriority))

end Processor

/-! ## The calls -/

theorem sysSetPriority_ok {p p' : Processor} {prio v : Int}
    (h : sysSetPriority p prio = .ok (v, p')) :
    (prio < 2 ∧ p' = p) ∨ (2 ≤ prio ∧ ∃ task, p.current = some task ∧
      p' = { p with current := some { task with taskPriority := prio.toNat } }) := by
  unfold sysSetPriority at h
  split at h
  · obtain ⟨task, ht, h⟩ := bind_eq_ok.mp h
    cases h
    exact .inr ⟨‹_›, task, unwrap_eq_ok.mp ht, rfl⟩
  · cases h
    exact .inl ⟨by omega, rfl⟩

/-- `sys_set_priority` fails only by unwrapping a missing current task. -/
theorem sysSetPriority_error {p : Processor} {prio : Int} {e : Panic}
    (h : sysSetPriority p prio = .error e) : e = .unwrapNone := by
  unfold sysSetPriority at h
  split at h
  · rcases bind_eq_error.mp h with h | ⟨_, -, h⟩
    · exact unwrap_eq_error h
    · cases h
  · cases h

/-- An iteration of `run_tasks` fails only where `fetch` does. -/
theorem runTasks_error {bigStride us : Nat} {p : Processor} {e : Panic}
    (h : runTasks bigStride p us = .error e) : p.manager.fetch bigStride = .error e := by
  rcases bind_eq_error.mp h with h | ⟨⟨t, m'⟩, -, h⟩
  · exact h
  · cases t <;> cases h

/-- An iteration of `run_tasks` makes current a queued task with its priority, and keeps the
rest of the queue. -/
theorem runTasks_tasks {bigStride us : Nat} {p p' : Processor}
    (h : runTasks bigStride p us = .ok p') :
    ∀ τ' ∈ p'.tasks, ∃ τ ∈ p.manager.readyQueue, τ'.taskPriority = τ.taskPriority := by
  obtain ⟨⟨t, m'⟩, hf, h⟩ := bind_eq_ok.mp h
  cases t with
  | none => exact absurd hf fetch_ne_none
  | some t =>
    obtain ⟨k, t₀, hk, -, rfl, rfl⟩ := TaskManager.fetch_some_spec hf
    cases h
    intro τ' hτ'
    simp only [Processor.tasks, Option.toList_some, List.mem_append, List.mem_singleton] at hτ'
    rcases hτ' with hτ' | rfl
    · exact ⟨τ', List.mem_of_mem_eraseIdx hτ', rfl⟩
    · exact ⟨t₀, List.getElem?_mem hk, rfl⟩

/-- Suspending keeps every task and its priority. -/
theorem suspendCurrent_tasks (p : Processor) :
    ∀ τ' ∈ (suspendCurrent p).tasks, ∃ τ ∈ p.tasks, τ'.taskPriority = τ.taskPriority := by
  intro τ' hτ'
  unfold suspendCurrent at hτ'
  split at hτ'
  · rename_i task hcur
    simp only [Processor.tasks, TaskManager.add, Option.toList_none, List.append_nil,
      List.mem_append, List.mem_singleton] at hτ'
    rcases hτ' with hτ' | rfl
    · exact ⟨τ', List.mem_append_left _ hτ', rfl⟩
    · exact ⟨task, by simp [Processor.tasks, hcur], rfl⟩
  · exact ⟨τ', hτ', rfl⟩

/-! ## One event -/

namespace Processor

variable {bigStride : Nat} {p p' : Processor} {e : KernelEvent}

/-- **What one event does to the priorities**: each task afterwards has the priority of a task
from before, or the one `sys_set_priority` admitted. -/
theorem kernelStep_priority (h : kernelStep bigStride p e = .ok p') :
    ∀ τ' ∈ p'.tasks, (∃ τ ∈ p.tasks, τ'.taskPriority = τ.taskPriority) ∨ 2 ≤ τ'.taskPriority := by
  intro τ' hτ'
  cases e with
  | dispatch e =>
    cases e with
    | runTasks us =>
      obtain ⟨τ, hτ, hprio⟩ := runTasks_tasks h τ' hτ'
      exact .inl ⟨τ, List.mem_append_left _ hτ, hprio⟩
    | suspend =>
      cases h
      exact .inl (suspendCurrent_tasks p τ' hτ')
  | setPriority prio =>
    obtain ⟨⟨v, p₁⟩, hs, h⟩ := bind_eq_ok.mp h
    cases h
    rcases sysSetPriority_ok hs with ⟨-, rfl⟩ | ⟨hprio, task, hcur, rfl⟩
    · exact .inl ⟨τ', hτ', rfl⟩
    · simp only [tasks, Option.toList_some, List.mem_append, List.mem_singleton] at hτ'
      rcases hτ' with hτ' | rfl
      · exact .inl ⟨τ', List.mem_append_left _ hτ', rfl⟩
      · exact .inr (by dsimp only; omega)

theorem kernelStep_valid (hp : p.PrioritiesValid) (h : kernelStep bigStride p e = .ok p') :
    p'.PrioritiesValid := fun τ' hτ' => by
  rcases kernelStep_priority h τ' hτ' with ⟨τ, hτ, hprio⟩ | hprio
  · exact hprio ▸ hp τ hτ
  · exact hprio

/-- With every priority at least 2, an event fails only by fetching from an empty ready queue
or by `sys_set_priority` with no current task. -/
theorem kernelStep_error (hp : p.PrioritiesValid) {err : Panic}
    (h : kernelStep bigStride p e = .error err) : err = .indexOutOfBounds ∨ err = .unwrapNone := by
  cases e with
  | dispatch e =>
    cases e with
    | runTasks us =>
      rcases TaskManager.fetch_error (runTasks_error h) with h | ⟨t, ht, h0, -⟩
      · exact .inl h
      · have := hp t (List.mem_append_left _ ht); omega
    | suspend => cases h
  | setPriority prio =>
    rcases bind_eq_error.mp h with h | ⟨_, -, h⟩
    · exact .inr (sysSetPriority_error h)
    · cases h

/-! ## Runs -/

/-- Priorities stay valid along a run, which fails only in the two ways of `kernelStep_error`. -/
theorem kernelRun_valid :
    ∀ {evs : List KernelEvent} {p : Processor}, p.PrioritiesValid →
      (∀ p', kernelRun bigStride p evs = .ok p' → p'.PrioritiesValid) ∧
      ∀ err, kernelRun bigStride p evs = .error err → err = .indexOutOfBounds ∨ err = .unwrapNone
  | [], _, hp => ⟨fun _ h => by cases h; exact hp, fun _ h => (by cases h)⟩
  | e :: evs, p, hp => by
    simp only [kernelRun, List.foldlM_cons]
    cases hs : kernelStep bigStride p e with
    | error err' =>
      refine ⟨fun _ h => (by cases h), fun err h => ?_⟩
      cases h
      exact kernelStep_error hp hs
    | ok p₁ => exact kernelRun_valid (kernelStep_valid hp hs)

end Processor

/-- **Priorities stay at least 2 along every run.**  From a processor whose tasks all have
priority at least 2, any run of `run_tasks` iterations, suspensions and `sys_set_priority`
calls keeps them so, and with them every pass of the ready queue at most `BIG_STRIDE / 2`; and
such a run fails only by fetching from an empty ready queue or by `sys_set_priority` with no
current task, never by `update_stride` dividing by zero. -/
theorem priorities_valid_run {bigStride : Nat} {p : Processor} {evs : List KernelEvent}
    (hp : p.PrioritiesValid) :
    (∀ p', p.kernelRun bigStride evs = .ok p' →
      p'.PrioritiesValid ∧ TaskManager.maxPass bigStride p'.manager.readyQueue ≤ bigStride / 2) ∧
      ∀ err, p.kernelRun bigStride evs = .error err →
        err = .indexOutOfBounds ∨ err = .unwrapNone := by
  obtain ⟨hok, herr⟩ := Processor.kernelRun_valid hp
  refine ⟨fun p' h => ⟨hok p' h, TaskManager.maxPass_le fun t ht => ?_⟩, herr⟩
  exact Nat.div_le_div_left (hok p' h t (List.mem_append_left _ ht)) (by decide)

/-- One task of priority 2 is dispatched, sets its priority to 5 and is suspended. -/
theorem priorities_valid_run_set_five :
    Processor.PrioritiesValid ⟨⟨[⟨0, .ready, 0, 2, 0⟩]⟩, none⟩ ∧
      ((∀ p', Processor.kernelRun 65536 ⟨⟨[⟨0, .ready, 0, 2, 0⟩]⟩, none⟩
          [.dispatch (.runTasks 1000), .setPriority 5, .dispatch .suspend] = .ok p' →
        p'.PrioritiesValid ∧ TaskManager.maxPass 65536 p'.manager.readyQueue ≤ 65536 / 2) ∧
        ∀ err, Processor.kernelRun 65536 ⟨⟨[⟨0, .ready, 0, 2, 0⟩]⟩, none⟩
          [.dispatch (.runTasks 1000), .setPriority 5, .dispatch .suspend] = .error err →
          err = .indexOutOfBounds ∨ err = .unwrapNone) :=
  ⟨by decide, priorities_valid_run (by decide)⟩

end Rcore
