import Rcore.Task.Manager

/-!
# The dispatch loop of `task/processor.rs` and `sys_task_info`

`run_tasks` dispatches the task `fetch_task` returns: it marks it running, makes it the
processor's current task and, while its `task_begin_time` is still 0, records the clock as the
code's millisecond stamp (`timeStamp`): the seconds masked to 16 bits, times 1000, plus the
milliseconds of the current second.  `sys_task_info` reports the current stamp minus the
recorded one.  `get_time_us` is the external timer, so each reading is a parameter, and
`suspend_current_and_run_next`, which puts the current task back, is not under src/ and is
modelled from the spec (§4.1).  A task's identity, the `Arc` the queue and the processor share,
is its `pid`.  `sys_task_info` copies the 2016-byte `TaskInfo` into each slice of the user's
buffer, so a buffer that crosses a page, cut into shorter slices, panics in `copy_from_slice`.

* `timeStamp_add_window` — the stamp is the reading in milliseconds less the start of its
  65536-second window.
* `Processor.run_beginTime` — once a task's recorded stamp is not 0, no later dispatch or
  suspension changes it.
* `sysTaskInfo_time` — with a first stamp that is not the 0 sentinel, both readings in one
  window and a buffer within one page, `sys_task_info` reports the whole milliseconds since the
  first dispatch.
* `sysTaskInfo_stamp_faults` — across a window boundary the subtraction underflows, and a first
  dispatch stamped 0 is overwritten by a later one.
-/

set_option autoImplicit false

namespace Rcore

/-- Lines 64-65 of `run_tasks` and line 131 of `sys_task_info`: a reading of `get_time_us` as
milliseconds, with the seconds masked to 16 bits. -/
def timeStamp (us : Nat) : Nat :=
  ((us / 1000000) &&& 0xffff) * 1000 + ((us % 1000000) / 1000)

/-- Lines 63-66 of `run_tasks`: the stamp is recorded while `task_begin_time` is 0. -/
def recordBeginTime (taskBeginTime us : Nat) : Nat :=
  if taskBeginTime = 0 then timeStamp us else taskBeginTime

/-- `Processor`: its current task, with the ready queue of `TASK_MANAGER` it dispatches from. -/
structure Processor where
  manager : TaskManager
  current : Option TaskControlBlock

/-- The fields of `TaskInfo` the model computes. -/
structure TaskInfo where
  status : TaskStatus
  time : Nat
  deriving DecidableEq, Repr

/-- Lines 56-73: one iteration of the loop of `run_tasks`, at clock reading `us`. -/
def runTasks (bigStride : Nat) (p : Processor) (us : Nat) : Except Panic Processor := do
  match ← p.manager.fetch bigStride with
  | (some task, manager) =>
    pure ⟨manager, some { task with taskStatus := .running,
                                    taskBeginTime := recordBeginTime task.taskBeginTime us }⟩
  | (none, _) => pure p

/-- Modelled from the spec: `suspend_current_and_run_next` marks the current task ready and adds
it back to the ready queue. -/
def suspendCurrent (p : Processor) : Processor :=
  match p.current with
  | some task => ⟨p.manager.add { task with taskStatus := .ready }, none⟩
  | none => p

/-- `size_of::<TaskInfo>()`: the bytes `sys_task_info` transmutes the value to. -/
def sizeOfTaskInfo : Nat := 2016

/-- Lines 128-143: the `TaskInfo` `sys_task_info` writes at clock reading `us` into the slices
`dsts` of the user's buffer, with `time = _now - current_begin_time()` and
`current_begin_time` unwrapping the current task; every slice takes the whole value. -/
def sysTaskInfo (p : Processor) (us : Nat) (dsts : UserBuffer) : Except Panic TaskInfo := do
  let task ← unwrap p.current
  let time ← usizeSub (timeStamp us) task.taskBeginTime
  copyToSlices .sliceLength sizeOfTaskInfo dsts
  pure ⟨.running, time⟩

/-- What the processor does next: an iteration of `run_tasks` reading the clock, or the current
task giving the processor back. -/
inductive ProcessorEvent where
  | runTasks (us : Nat)
  | suspend
  deriving DecidableEq, Repr

namespace Processor

/-- One event. -/
def step (bigStride : Nat) (p : Processor) : ProcessorEvent → Except Panic Processor
  | .runTasks us => runTasks bigStride p us
  | .suspend => pure (suspendCurrent p)

/-- A sequence of events. -/
def run (bigStride : Nat) (p : Processor) (evs : List ProcessorEvent) : Except Panic Processor :=
  evs.foldlM (step bigStride) p

/-- The tasks the processor knows: its ready queue and its current task. -/
def tasks (p : Processor) : List TaskControlBlock := p.manager.readyQueue ++ p.current.toList

/-- Every task `pid` names has begin time `b`. -/
def BeginTimeIs (pid b : Nat) (p : Processor) : Prop :=
  ∀ τ ∈ p.tasks, τ.pid = pid → τ.taskBeginTime = b

end Processor

/-- A buffer within one page takes the copy: the result is the value computed before it. -/
theorem sysTaskInfo_of_fits {p : Processor} {us : Nat} {dsts : UserBuffer}
    (hpage : ∀ dst ∈ dsts, dst.length = sizeOfTaskInfo) :
    sysTaskInfo p us dsts = sysTaskInfo p us [] := by
  simp only [sysTaskInfo, copyToSlices_eq, if_pos hpage, List.not_mem_nil, false_implies,
    implies_true, if_true]

/-! ## The stamp -/

/-- **The stamp is the reading in milliseconds less the start of its 65536-second window.** -/
theorem timeStamp_add_window (us : Nat) :
    timeStamp us + us / 65536000000 * 65536000 = us / 1000 := by
  have hmask : (us / 1000000) &&& 0xffff = us / 1000000 % 65536 :=
    Nat.and_pow_two_sub_one_eq_mod _ 16
  rw [timeStamp, hmask]
  omega

theorem recordBeginTime_of_ne_zero {b : Nat} (hb : b ≠ 0) (us : Nat) : recordBeginTime b us = b :=
  if_neg hb

/-! ## What a dispatch does -/

/-- A task `fetch` returns is a queued task with its stride advanced, and the queue loses
exactly it. -/
theorem fetch_some {bigStride : Nat} {m m' : TaskManager} {t : TaskControlBlock}
    (h : m.fetch bigStride = .ok (some t, m')) :
    ∃ k t₀, m.readyQueue[k]? = some t₀ ∧ t.pid = t₀.pid ∧ t.taskBeginTime = t₀.taskBeginTime ∧
      m' = ⟨m.readyQueue.eraseIdx k⟩ := by
  obtain ⟨k, t₀, hk, -, rfl, rfl⟩ := TaskManager.fetch_some_spec h
  exact ⟨k, t₀, hk, rfl, rfl, rfl⟩

/-- `fetch` never reports an empty queue: on one it panics. -/
theorem fetch_ne_none {bigStride : Nat} {m m' : TaskManager} :
    m.fetch bigStride ≠ .ok (none, m') := by
  intro h
  rcases hp : TaskManager.minStrideLoop m.readyQueue 0 (0, usizeMax) with ⟨k, s⟩
  simp only [TaskManager.fetch, hp] at h
  obtain ⟨_, -, h⟩ := bind_eq_ok.mp h
  obtain ⟨_, -, h⟩ := bind_eq_ok.mp h
  cases h

/-- **One iteration of `run_tasks`** makes the fetched task current, running, with its begin
time recorded. -/
theorem runTasks_ok {bigStride us : Nat} {p p' : Processor} (h : runTasks bigStride p us = .ok p') :
    ∃ k t₀, p.manager.readyQueue[k]? = some t₀ ∧ p'.manager = ⟨p.manager.readyQueue.eraseIdx k⟩ ∧
      ∃ task, p'.current = some task ∧ task.pid = t₀.pid ∧
        task.taskBeginTime = recordBeginTime t₀.taskBeginTime us := by
  obtain ⟨⟨t, m'⟩, hf, h⟩ := bind_eq_ok.mp h
  cases t with
  | none => exact absurd hf fetch_ne_none
  | some t =>
    obtain ⟨k, t₀, hk, hpid, hbt, rfl⟩ := fetch_some hf
    cases h
    exact ⟨k, t₀, hk, rfl, _, rfl, hpid, by rw [hbt]⟩

/-! ## Begin times along a run -/

namespace Processor

/-- **A recorded begin time survives one event.** -/
theorem step_beginTime {bigStride pid b : Nat} (hb : b ≠ 0) {p p' : Processor}
    {e : ProcessorEvent} (h : step bigStride p e = .ok p') (hp : BeginTimeIs pid b p) :
    BeginTimeIs pid b p' := by
  cases e with
  | runTasks us =>
    obtain ⟨k, t₀, hk, hm, task, hcur, hpid, hbt⟩ := runTasks_ok h
    have ht₀ : t₀ ∈ p.tasks := List.mem_append_left _ (List.getElem?_mem hk)
    intro τ hτ hτpid
    simp only [tasks, hm, hcur, Option.toList_some, List.mem_append, List.mem_singleton] at hτ
    rcases hτ with hτ | rfl
    · exact hp τ (List.mem_append_left _ (List.mem_of_mem_eraseIdx hτ)) hτpid
    · rw [hbt, hp t₀ ht₀ (hpid ▸ hτpid), recordBeginTime_of_ne_zero hb]
  | suspend =>
    cases h
    unfold suspendCurrent
    split
    · rename_i task hcur
      intro τ hτ hτpid
      simp only [tasks, TaskManager.add, Option.toList_none, List.append_nil, List.mem_append,
        List.mem_singleton] at hτ
      rcases hτ with hτ | rfl
      · exact hp τ (List.mem_append_left _ hτ) hτpid
      · exact hp task (by simp [tasks, hcur]) hτpid
    · exact hp

/-- **A recorded begin time survives any run**: no later dispatch or suspension changes it. -/
theorem run_beginTime {bigStride pid b : Nat} (hb : b ≠ 0) :
    ∀ {evs : List ProcessorEvent} {p p' : Processor}, run bigStride p evs = .ok p' →
      BeginTimeIs pid b p → BeginTimeIs pid b p'
  | [], _, _, h, hp => by cases h; exact hp
  | e :: evs, p, p', h, hp => by
    simp only [run, List.foldlM_cons] at h
    obtain ⟨p₁, h₁, h⟩ := bind_eq_ok.mp h
    exact run_beginTime hb h (step_beginTime hb h₁ hp)

end Processor

/-- **`sys_task_info` reports the milliseconds since the first dispatch**: a task with distinct
identity first dispatched at `us0` with its begin time still 0, then suspended and dispatched
again any number of times, calls `sys_task_info` at `us1 ≥ us0` with a buffer within one page
(its one slice takes the 2016 bytes); when the first stamp is not the 0 sentinel and both
readings fall in one 65536-second window, the call succeeds with
`time = us1 / 1000 - us0 / 1000`. -/
theorem sysTaskInfo_time {bigStride us0 us1 : Nat} {p p₁ p₂ : Processor}
    {task task₂ : TaskControlBlock} {evs : List ProcessorEvent} {dsts : UserBuffer}
    (hnodup : (p.manager.readyQueue.map TaskControlBlock.pid).Nodup)
    (hfirst : runTasks bigStride p us0 = .ok p₁) (hcur : p₁.current = some task)
    (hzero : ∀ τ ∈ p.manager.readyQueue, τ.pid = task.pid → τ.taskBeginTime = 0)
    (hrun : Processor.run bigStride p₁ evs = .ok p₂) (hcur₂ : p₂.current = some task₂)
    (hpid : task₂.pid = task.pid) (hle : us0 ≤ us1) (hstamp : timeStamp us0 ≠ 0)
    (hwin : us0 / 65536000000 = us1 / 65536000000)
    (hpage : ∀ dst ∈ dsts, dst.length = sizeOfTaskInfo) :
    sysTaskInfo p₂ us1 dsts = .ok ⟨.running, us1 / 1000 - us0 / 1000⟩ := by
  obtain ⟨k, t₀, hk, hm, task', hcur', hpid', hbt⟩ := runTasks_ok hfirst
  obtain rfl : task = task' := Option.some.inj (hcur.symm.trans hcur')
  have hbt₀ : task.taskBeginTime = timeStamp us0 := by
    rw [hbt, hzero t₀ (List.getElem?_mem hk) hpid'.symm]; rfl
  -- after the first dispatch, the task is the only one of its identity
  have hinv : Processor.BeginTimeIs task.pid (timeStamp us0) p₁ := by
    intro τ hτ hτpid
    simp only [Processor.tasks, hm, hcur, Option.toList_some, List.mem_append,
      List.mem_singleton] at hτ
    rcases hτ with hτ | rfl
    · exact absurd (hτpid.trans hpid') (TaskManager.pid_ne_of_mem_eraseIdx hnodup hk hτ)
    · exact hbt₀
  have hbt₂ : task₂.taskBeginTime = timeStamp us0 :=
    Processor.run_beginTime hstamp hrun hinv task₂ (by simp [Processor.tasks, hcur₂]) hpid
  have h0 := timeStamp_add_window us0
  have h1 := timeStamp_add_window us1
  have hsub : timeStamp us1 - timeStamp us0 = us1 / 1000 - us0 / 1000 := by
    rw [← hwin] at h1; omega
  have hle' : timeStamp us0 ≤ timeStamp us1 := by
    have : us0 / 1000 ≤ us1 / 1000 := Nat.div_le_div_right hle
    rw [← hwin] at h1; omega
  simp only [sysTaskInfo, hcur₂, unwrap_some, ok_bind, hbt₂, usizeSub, if_pos hle', hsub,
    copyToSlices_eq, if_pos hpage]
  rfl


/-- One task of priority 2, first dispatched at 2 s, suspended, dispatched again at 3 s, asks at
4 s with a buffer within one page. -/
theorem sysTaskInfo_time_redispatched :
    sysTaskInfo ⟨⟨[]⟩, some ⟨0, .running, 65536, 2, 2000⟩⟩ 4000000 [List.replicate 2016 0] =
      .ok ⟨.running, 4000000 / 1000 - 2000000 / 1000⟩ :=
  @sysTaskInfo_time 65536 2000000 4000000 ⟨⟨[⟨0, .ready, 0, 2, 0⟩]⟩, none⟩
    ⟨⟨[]⟩, some ⟨0, .running, 32768, 2, 2000⟩⟩ ⟨⟨[]⟩, some ⟨0, .running, 65536, 2, 2000⟩⟩
    ⟨0, .running, 32768, 2, 2000⟩ ⟨0, .running, 65536, 2, 2000⟩ [.suspend, .runTasks 3000000]
    [List.replicate 2016 0] (by decide) rfl rfl (by decide) rfl rfl rfl (by decide) (by decide)
    (by decide) fun dst hd => by rw [List.mem_singleton.mp hd, List.length_replicate]; rfl

/-- **The stamp's two faults.**  A task first dispatched at 65535.5 s asks at 65536.5 s: the
masked seconds wrap to 0 and `_now - current_begin_time()` underflows.  A task first dispatched
at 0.5 ms is stamped 0, so its dispatch at 2 s records 2000 in its place, and at 3 s
`sys_task_info` reports 1000 ms instead of 3000. -/
theorem sysTaskInfo_stamp_faults :
    (runTasks 65536 ⟨⟨[⟨0, .ready, 0, 2, 0⟩]⟩, none⟩ 65535500000 >>= fun p =>
        sysTaskInfo p 65536500000 [List.replicate 2016 0]) = .error .subtractOverflow ∧
      (Processor.run 65536 ⟨⟨[⟨0, .ready, 0, 2, 0⟩]⟩, none⟩
          [.runTasks 500, .suspend, .runTasks 2000000] >>= fun p =>
          sysTaskInfo p 3000000 [List.replicate 2016 0]) = .ok ⟨.running, 1000⟩ := by
  have hpage : ∀ dst ∈ [List.replicate 2016 (0 : UInt8)], dst.length = sizeOfTaskInfo :=
    fun dst hd => by rw [List.mem_singleton.mp hd, List.length_replicate]; rfl
  simp only [sysTaskInfo_of_fits hpage]
  exact ⟨rfl, rfl⟩

end Rcore
