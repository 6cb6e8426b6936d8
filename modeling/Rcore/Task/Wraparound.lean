import Rcore.Task.Manager

/-!
# Stride wraparound

`fetch` compares strides with a plain `<`, and `update_stride` adds the pass with a `usize`
addition that wraps: the gap the spec leaves open (§9).  A task whose stride passes
`usize::MAX` comes back near 0, below every other stride, and from then on `fetch` selects it
round after round, until its stride catches up with the others, which wait.

* `fetch_strict_min` — `fetch` selects a task added back at the end of the queue when its
  stride is below every other.
* `rounds_repeat` — a task whose stride stays below every other for `k` more passes is
  selected in each of the next `k + 1` rounds.
* `stride_wrap_starves` — a task selected within one pass of `usize::MAX` wraps, and is then
  selected again in every round until its stride climbs back to where it wrapped from, about
  `2^64 / pass` rounds in which no other task is dispatched.
-/

set_option autoImplicit false

namespace Rcore

namespace TaskManager

variable {bigStride : Nat} {others : List TaskControlBlock} {t : TaskControlBlock}

/-- `fetch` on a queue whose last task has a stride below every other selects that task. -/
theorem fetch_strict_min (ht : t.taskStride ≤ usizeMax)
    (hothers : ∀ u ∈ others, t.taskStride < u.taskStride ∧ u.taskStride ≤ usizeMax) :
    fetch bigStride ⟨others ++ [t]⟩ = (t.updateStride bigStride).map fun t' => (some t', ⟨others⟩) := by
  have hle : ∀ u ∈ others ++ [t], u.taskStride ≤ usizeMax := by
    intro u hu
    rcases List.mem_append.mp hu with hu | hu
    · exact (hothers u hu).2
    · rw [List.mem_singleton.mp hu]; exact ht
  obtain ⟨k, t₀, hk, hmin, -, hf⟩ := fetch_spec bigStride (by simp) hle
  have hlast : ¬ k < others.length := fun hlt => by
    rw [List.getElem?_append_left hlt] at hk
    have h₁ := (hothers t₀ (List.getElem?_mem hk)).1
    have h₂ := hmin t (by simp)
    omega
  rw [List.getElem?_append_right (Nat.le_of_not_lt hlast)] at hk
  obtain ⟨hk0, rfl⟩ : k - others.length = 0 ∧ t₀ = t := by
    cases hj : k - others.length with
    | zero => rw [hj] at hk; exact ⟨rfl, (Option.some.inj hk).symm⟩
    | succ j => rw [hj] at hk; simp at hk
  rw [hf, List.eraseIdx_append_of_length_le (Nat.le_of_not_lt hlast), hk0]
  simp

/-- One round from a queue whose last task is below every other and has room for its pass:
that task is selected and added back, one pass further. -/
theorem round_strict_min (hprio : t.taskPriority ≠ 0)
    (hfit : t.taskStride + t.pass bigStride ≤ usizeMax)
    (hothers : ∀ u ∈ others, t.taskStride < u.taskStride ∧ u.taskStride ≤ usizeMax) :
    fetch bigStride ⟨others ++ [t]⟩ =
      .ok (some { t with taskStride := t.taskStride + t.pass bigStride }, ⟨others⟩) := by
  rw [fetch_strict_min (by omega) hothers, TaskControlBlock.updateStride_of_fits hprio hfit]; rfl

/-- **Repeated selection.**  A task at the end of the queue whose stride, advanced by `k`
passes, is still below every other stride, and which has room for `k + 1` passes, is selected
in each of the next `k + 1` rounds; the other tasks stay as they are. -/
theorem rounds_repeat (hothers : ∀ u ∈ others, u.taskStride ≤ usizeMax) :
    ∀ (k : Nat) (t : TaskControlBlock), t.taskPriority ≠ 0 →
      t.taskStride + (k + 1) * t.pass bigStride ≤ usizeMax →
      (∀ u ∈ others, t.taskStride + k * t.pass bigStride < u.taskStride) →
      Rounds bigStride ⟨others ++ [t]⟩ (List.replicate (k + 1) t.pid)
        ⟨others ++ [{ t with taskStride := t.taskStride + (k + 1) * t.pass bigStride }]⟩
  | 0, t, hprio, hfit, hbelow => by
    rw [Nat.zero_add, Nat.one_mul] at hfit ⊢
    exact @Rounds.cons bigStride _ _ _ { t with taskStride := t.taskStride + t.pass bigStride } []
      (round_strict_min hprio hfit fun u hu => ⟨by simpa using hbelow u hu, hothers u hu⟩) (.nil _)
  | k + 1, t, hprio, hfit, hbelow => by
    rw [Nat.succ_mul] at hfit
    have hround : fetch bigStride ⟨others ++ [t]⟩ = _ :=
      round_strict_min hprio (by omega) fun u hu => ⟨by have := hbelow u hu; omega, hothers u hu⟩
    have hrest := rounds_repeat hothers k { t with taskStride := t.taskStride + t.pass bigStride }
      hprio (by simp only [TaskControlBlock.pass_withStride]; omega) fun u hu => by
        have := hbelow u hu
        rw [Nat.succ_mul] at this
        simp only [TaskControlBlock.pass_withStride]
        omega
    have hstride : t.taskStride + t.pass bigStride + (k + 1) * t.pass bigStride =
        t.taskStride + (k + 1 + 1) * t.pass bigStride := by rw [Nat.succ_mul (k + 1)]; omega
    simp only [TaskControlBlock.pass_withStride, hstride] at hrest
    exact @Rounds.cons bigStride _ _ _ { t with taskStride := t.taskStride + t.pass bigStride } _
      hround hrest

/-- **A wrapped stride starves the other tasks.**  When `fetch` selects, at the end of the
queue, a task below every other stride whose pass carries its stride past `usize::MAX`, the
stride wraps to `w = (stride + pass) mod 2^64`.  Then for every `k` with `w + (k + 1)·pass` not
past the stride it wrapped from, the task is selected in each of the next `k + 1` rounds as
well: `k + 2` rounds in a row, about `2^64 / pass` of them, in which no other task is
dispatched, the other tasks keeping their strides. -/
theorem stride_wrap_starves {k : Nat} (hprio : t.taskPriority ≠ 0) (ht : t.taskStride ≤ usizeMax)
    (hwrap : usizeMax < t.taskStride + t.pass bigStride)
    (hothers : ∀ u ∈ others, t.taskStride < u.taskStride ∧ u.taskStride ≤ usizeMax)
    (hk : (t.taskStride + t.pass bigStride) % 2 ^ 64 + (k + 1) * t.pass bigStride ≤ t.taskStride) :
    Rounds bigStride ⟨others ++ [t]⟩ (List.replicate (k + 2) t.pid)
      ⟨others ++ [{ t with taskStride :=
        (t.taskStride + t.pass bigStride) % 2 ^ 64 + (k + 1) * t.pass bigStride }]⟩ := by
  have hfirst : fetch bigStride ⟨others ++ [t]⟩ = .ok (some { t with taskStride :=
      (t.taskStride + t.pass bigStride) % 2 ^ 64 }, ⟨others⟩) := by
    rw [fetch_strict_min ht hothers, TaskControlBlock.updateStride, if_neg hprio]; rfl
  have hpos : 0 < t.pass bigStride := by omega
  have hrest := rounds_repeat (fun u hu => (hothers u hu).2) k
    { t with taskStride := (t.taskStride + t.pass bigStride) % 2 ^ 64 } hprio (by simpa using hk.trans ht)
    fun u hu => by
      have := (hothers u hu).1
      rw [Nat.succ_mul] at hk
      simp only [TaskControlBlock.pass_withStride]
      omega
  simp only [TaskControlBlock.pass_withStride] at hrest
  exact @Rounds.cons bigStride _ _ _
    { t with taskStride := (t.taskStride + t.pass bigStride) % 2 ^ 64 } _ hfirst hrest

/-- Two tasks of priority 2 under `BIG_STRIDE = 8` (pass 4): the one at `usize::MAX - 1` is
selected, wraps to 2, and is selected four more times while the one at `usize::MAX` waits. -/
theorem stride_wrap_starves_two_tasks :
    (⟨0, .ready, usizeMax - 1, 2, 0⟩ : TaskControlBlock).taskPriority ≠ 0 ∧
      (⟨0, .ready, usizeMax - 1, 2, 0⟩ : TaskControlBlock).taskStride ≤ usizeMax ∧
      usizeMax < (⟨0, .ready, usizeMax - 1, 2, 0⟩ : TaskControlBlock).taskStride +
        (⟨0, .ready, usizeMax - 1, 2, 0⟩ : TaskControlBlock).pass 8 ∧
      (∀ u ∈ [(⟨1, .ready, usizeMax, 2, 0⟩ : TaskControlBlock)],
        (⟨0, .ready, usizeMax - 1, 2, 0⟩ : TaskControlBlock).taskStride < u.taskStride ∧
          u.taskStride ≤ usizeMax) ∧
      ((⟨0, .ready, usizeMax - 1, 2, 0⟩ : TaskControlBlock).taskStride +
          (⟨0, .ready, usizeMax - 1, 2, 0⟩ : TaskControlBlock).pass 8) % 2 ^ 64 +
          (3 + 1) * (⟨0, .ready, usizeMax - 1, 2, 0⟩ : TaskControlBlock).pass 8 ≤
        (⟨0, .ready, usizeMax - 1, 2, 0⟩ : TaskControlBlock).taskStride ∧
      Rounds 8 ⟨[⟨1, .ready, usizeMax, 2, 0⟩] ++ [⟨0, .ready, usizeMax - 1, 2, 0⟩]⟩
        (List.replicate (3 + 2) 0)
        ⟨[⟨1, .ready, usizeMax, 2, 0⟩] ++ [{ (⟨0, .ready, usizeMax - 1, 2, 0⟩ : TaskControlBlock) with
          taskStride := ((⟨0, .ready, usizeMax - 1, 2, 0⟩ : TaskControlBlock).taskStride +
            (⟨0, .ready, usizeMax - 1, 2, 0⟩ : TaskControlBlock).pass 8) % 2 ^ 64 +
            (3 + 1) * (⟨0, .ready, usizeMax - 1, 2, 0⟩ : TaskControlBlock).pass 8 }]⟩ :=
  ⟨by decide, by decide, by decide, by decide, by decide,
    stride_wrap_starves (by decide) (by decide) (by decide) (by decide) (by decide)⟩

end TaskManager

end Rcore
