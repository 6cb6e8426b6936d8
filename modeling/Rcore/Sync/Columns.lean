import Rcore.Sync.Ledger
import Rcore.Sync.Primitives

/-!
# One class's ledger against its primitives

The ledger of a resource class is meant to be a record of its primitives: `available[r]` the
free units of resource `r`, `allocation[t][r]` the units thread `t` holds, and `need[t][r]`
one exactly when `t` is blocked on `r`.  `ColumnsAgree` says so for every resource whose
primitive is a counter (a blocking mutex or a semaphore) and every thread below `T`, with the
wait queues holding distinct blocked threads and each resource's units bounded by `cap`.

Each ledger operation paired with the primitive operation it accompanies keeps the agreement:

* `ColumnsAgree.grant`, `ColumnsAgree.wait` — `lock`/`down` on a free or an exhausted resource;
* `ColumnsAgree.free`, `ColumnsAgree.handoff` — a release with an empty or a nonempty queue;
* `ColumnsAgree.push` — a new resource;
* `ColumnsAgree.untracked` — any change confined to a column with no counter (a spinning mutex).

`ColumnsAgree.free_eq_zero` is why a mutex holder's unlock is a counter release: with one unit,
a resource someone holds has none free.
-/

set_option autoImplicit false

namespace Rcore

/-- Units of resource `r` held by the threads `0 … T-1`. -/
def heldTotal (held : Nat → Nat → Nat) (T r : Nat) : Nat := ((List.range T).map (held · r)).sum

/-- `held` with one more unit of `r` for `t`. -/
def incr (held : Nat → Nat → Nat) (t r : Nat) : Nat → Nat → Nat :=
  fun u j => if u = t ∧ j = r then held t r + 1 else held u j

/-- `held` with one unit of `r` less for `t`. -/
def decr (held : Nat → Nat → Nat) (t r : Nat) : Nat → Nat → Nat :=
  fun u j => if u = t ∧ j = r then held t r - 1 else held u j

/-- The holdings after `t` releases a unit of `r` that goes to the woken thread, if any. -/
def handOver (held : Nat → Nat → Nat) (t r : Nat) : Option Nat → Nat → Nat → Nat
  | some v => incr (decr held t r) v r
  | none => decr held t r

/-- A sum over `0 … T-1` after one term changed. -/
theorem sum_range_update {t : Nat} {f g : Nat → Nat} (hfg : ∀ u, u ≠ t → g u = f u) :
    ∀ {T : Nat}, t < T → ((List.range T).map g).sum + f t = ((List.range T).map f).sum + g t
  | 0, h => absurd h (Nat.not_lt_zero _)
  | T + 1, h => by
    simp only [List.range_succ, List.map_append, List.sum_append, List.map_singleton,
      List.sum_singleton]
    rcases Nat.lt_succ_iff_lt_or_eq.mp h with h | rfl
    · have := sum_range_update hfg h
      have := hfg T (Nat.ne_of_gt h)
      omega
    · have : ((List.range t).map g).sum = ((List.range t).map f).sum :=
        congrArg List.sum (List.map_congr_left fun u hu => hfg u (Nat.ne_of_lt (List.mem_range.mp hu)))
      omega

theorem heldTotal_congr {held held' : Nat → Nat → Nat} {T j : Nat}
    (h : ∀ u, held' u j = held u j) : heldTotal held' T j = heldTotal held T j :=
  congrArg List.sum (List.map_congr_left fun u _ => h u)

theorem heldTotal_incr (held : Nat → Nat → Nat) {T t : Nat} (ht : t < T) (r j : Nat) :
    heldTotal (incr held t r) T j = heldTotal held T j + if j = r then 1 else 0 := by
  by_cases hj : j = r
  · subst hj
    have h := @sum_range_update t (held · j) (incr held t j · j) (fun u hu => by simp [incr, hu]) T ht
    have hg : incr held t j t j = held t j + 1 := by simp [incr]
    dsimp only at h
    simp only [heldTotal, if_true]; omega
  · simp only [hj, if_false, Nat.add_zero]
    exact heldTotal_congr fun u => by simp [incr, hj]

theorem heldTotal_decr (held : Nat → Nat → Nat) {T t : Nat} (ht : t < T) {r : Nat}
    (hpos : 0 < held t r) (j : Nat) :
    heldTotal (decr held t r) T j + (if j = r then 1 else 0) = heldTotal held T j := by
  by_cases hj : j = r
  · subst hj
    have h := @sum_range_update t (held · j) (decr held t j · j) (fun u hu => by simp [decr, hu]) T ht
    have hg : decr held t j t j = held t j - 1 := by simp [decr]
    dsimp only at h
    simp only [heldTotal, if_true]; omega
  · simp only [hj, if_false, Nat.add_zero]
    exact heldTotal_congr fun u => by simp [decr, hj]

/-- What distinct threads hold of `r` is at most what all threads hold. -/
theorem sum_le_heldTotal (held : Nat → Nat → Nat) {T : Nat} (r : Nat) {L : List Nat}
    (hnd : L.Nodup) (hL : ∀ i ∈ L, i < T) : (L.map (held · r)).sum ≤ heldTotal held T r := by
  obtain ⟨L', hperm, hsub⟩ := hnd.subperm fun i hi => List.mem_range.mpr (hL i hi)
  rw [← (hperm.map _).sum_eq]
  exact (hsub.map _).sum_le_sum fun _ _ => Nat.zero_le _

/-- What one thread holds of `r` is at most what all threads hold. -/
theorem held_le_heldTotal (held : Nat → Nat → Nat) {T t : Nat} (ht : t < T) (r : Nat) :
    held t r ≤ heldTotal held T r := by
  simpa using sum_le_heldTotal held r (List.nodup_singleton t) (by simpa using ht)

theorem update_eq_some {counter : Nat → Option Counter} {r j : Nat} {c₁ c' : Counter} :
    Function.update counter r (some c₁) j = some c' ↔
      (j = r ∧ c₁ = c') ∨ (j ≠ r ∧ counter j = some c') := by
  by_cases hj : j = r
  · subst hj; simp
  · simp [Function.update_noteq hj, hj]

/-- The ledger `l` of `T` threads and `R` resources agrees with the resources' primitives:
`counter r` is resource `r` as a counter (`none` when it is not one), `held t r` the units
thread `t` holds, `waiting t r` whether `t` is blocked on `r`, and `cap` bounds the units of
every resource. -/
structure ColumnsAgree (T R cap : Nat) (l : Ledger) (counter : Nat → Option Counter)
    (held : Nat → Nat → Nat) (waiting : Nat → Nat → Bool) : Prop where
  shape : l.Shape T R
  bounded : ∀ r c, counter r = some c → r < R
  available : ∀ r c, counter r = some c → vec l.available r = c.free
  allocation : ∀ r c, counter r = some c → ∀ t < T, entry l.allocation t r = held t r
  need : ∀ r c, counter r = some c → ∀ t < T,
    entry l.need t r = if waiting t r then 1 else 0
  queue : ∀ r c, counter r = some c → c.waitQueue.Nodup ∧ ∀ v ∈ c.waitQueue, v < T ∧ waiting v r
  total : ∀ r c, counter r = some c → c.free + heldTotal held T r ≤ cap
  tracked : ∀ t < T, ∀ r, waiting t r → counter r ≠ none
  unheld : ∀ t r, R ≤ r → held t r = 0

section Columns

variable {T R cap : Nat} {l : Ledger} {counter : Nat → Option Counter}
  {held : Nat → Nat → Nat} {waiting : Nat → Nat → Bool} {t r : Nat} {c : Counter}

/-- With one unit per resource, a resource a thread holds has none free. -/
theorem ColumnsAgree.free_eq_zero (hA : ColumnsAgree T R 1 l counter held waiting)
    (hc : counter r = some c) (ht : t < T) (hpos : 0 < held t r) : c.free = 0 := by
  have htot := hA.total r c hc
  have := held_le_heldTotal held ht r
  omega

/-- **A change confined to one counter's column** keeps the agreement when the column agrees
afterwards: the frame shared by every `lock`, `down`, `unlock` and `up`. -/
theorem ColumnsAgree.update (hA : ColumnsAgree T R cap l counter held waiting)
    (hc : counter r = some c) {l' : Ledger} {c₁ : Counter} {held' : Nat → Nat → Nat}
    {waiting' : Nat → Nat → Bool} (hl' : l'.Shape T R) (hsame : l.SameOff r l')
    (hheld : ∀ u j, j ≠ r → held' u j = held u j)
    (hwait : ∀ u < T, ∀ j, j ≠ r → waiting' u j = waiting u j)
    (hav_r : vec l'.available r = c₁.free)
    (hal_r : ∀ u < T, entry l'.allocation u r = held' u r)
    (hne_r : ∀ u < T, entry l'.need u r = if waiting' u r then 1 else 0)
    (hq_r : c₁.waitQueue.Nodup ∧ ∀ v ∈ c₁.waitQueue, v < T ∧ waiting' v r)
    (htot_r : c₁.free + heldTotal held' T r ≤ cap) :
    ColumnsAgree T R cap l' (Function.update counter r (some c₁)) held' waiting' := by
  have hr := hA.bounded r c hc
  refine ⟨hl', fun j c' h => ?_, fun j c' h => ?_, fun j c' h u hu => ?_, fun j c' h u hu => ?_,
    fun j c' h => ?_, fun j c' h => ?_, fun u hu j hw => ?_, fun u j hj => ?_⟩
  all_goals try rcases update_eq_some.mp h with ⟨rfl, rfl⟩ | ⟨hj, h⟩
  · exact hr
  · exact hA.bounded j c' h
  · exact hav_r
  · rw [hsame.available j hj, hA.available j c' h]
  · exact hal_r u hu
  · rw [hsame.allocation u j hj, hA.allocation j c' h u hu, hheld u j hj]
  · exact hne_r u hu
  · rw [hsame.need u j hj, hA.need j c' h u hu, hwait u hu j hj]
  · exact hq_r
  · refine ⟨(hA.queue j c' h).1, fun v hv => ?_⟩
    obtain ⟨hvT, hw⟩ := (hA.queue j c' h).2 v hv
    exact ⟨hvT, (hwait v hvT j hj).symm ▸ hw⟩
  · exact htot_r
  · rw [heldTotal_congr fun u => hheld u j hj]; exact hA.total j c' h
  · by_cases hj : j = r
    · subst hj; simp
    · rw [Function.update_noteq hj]
      exact hA.tracked u hu j ((hwait u hu j hj) ▸ hw)
  · rw [hheld u j (by omega), hA.unheld u j hj]

/-- **`lock`/`down` on a free resource**: the ledger's grant and the counter's take. -/
theorem ColumnsAgree.grant (hA : ColumnsAgree T R cap l counter held waiting)
    (hc : counter r = some c) (ht : t < T) (hfree : 0 < c.free) :
    ColumnsAgree T R cap (l.grant t r) (Function.update counter r (some ⟨c.free - 1, c.waitQueue⟩))
      (incr held t r) waiting := by
  have hr := hA.bounded r c hc
  refine hA.update hc hA.shape.grant (Ledger.sameOff_grant hA.shape ht hr)
    (fun u j hj => by simp [incr, hj]) (fun _ _ _ _ => rfl) ?_ (fun u hu => ?_)
    (hA.need r c hc) (hA.queue r c hc) ?_
  · rw [Ledger.vec_grant hA.shape hr, if_pos rfl, hA.available r c hc]
  · rw [Ledger.entry_grant hA.shape ht hr, hA.allocation r c hc u hu, hA.allocation r c hc t ht]
    rfl
  · have := hA.total r c hc
    rw [heldTotal_incr _ ht, if_pos rfl]; dsimp only; omega

/-- **`lock`/`down` on an exhausted resource**: the ledger records the need, the counter
queues the caller, and the caller waits on the resource. -/
theorem ColumnsAgree.wait (hA : ColumnsAgree T R cap l counter held waiting)
    (hc : counter r = some c) (ht : t < T) (hrun : ∀ j, waiting t j = false) :
    ColumnsAgree T R cap (l.wait t r)
      (Function.update counter r (some ⟨c.free, c.waitQueue ++ [t]⟩)) held
      (fun u j => waiting u j || (u = t && j = r)) := by
  have hr := hA.bounded r c hc
  refine hA.update hc hA.shape.wait (Ledger.sameOff_wait hA.shape ht hr)
    (fun _ _ _ => rfl) (fun u _ j hj => by simp [hj]) (hA.available r c hc)
    (hA.allocation r c hc) (fun u hu => ?_) ⟨?_, fun v hv => ?_⟩ (hA.total r c hc)
  · rw [Ledger.entry_wait hA.shape ht hr, hA.need r c hc u hu, hA.need r c hc t ht]
    by_cases hu' : u = t
    · subst hu'; simp [hrun]
    · simp [hu']
  · -- the caller was waiting on nothing, so it is not in the queue yet
    refine List.nodup_append.mpr ⟨(hA.queue r c hc).1, List.nodup_singleton t, fun v hv hvt => ?_⟩
    rw [List.mem_singleton.mp hvt] at hv
    simpa [hrun] using ((hA.queue r c hc).2 t hv).2
  · rcases List.mem_append.mp hv with hv | hv
    · obtain ⟨hvT, hw⟩ := (hA.queue r c hc).2 v hv
      exact ⟨hvT, by simp [hw]⟩
    · rw [List.mem_singleton.mp hv]; exact ⟨ht, by simp⟩

/-- **A release with nobody waiting**: the ledger and the counter both free the unit. -/
theorem ColumnsAgree.free (hA : ColumnsAgree T R cap l counter held waiting)
    (hc : counter r = some c) (ht : t < T) (hpos : 0 < held t r) :
    ColumnsAgree T R cap (l.free t r) (Function.update counter r (some ⟨c.free + 1, []⟩))
      (decr held t r) waiting := by
  have hr := hA.bounded r c hc
  refine hA.update hc hA.shape.free (Ledger.sameOff_free hA.shape ht hr)
    (fun u j hj => by simp [decr, hj]) (fun _ _ _ _ => rfl) ?_ (fun u hu => ?_)
    (hA.need r c hc) ⟨List.nodup_nil, by simp⟩ ?_
  · rw [Ledger.vec_free hA.shape hr, if_pos rfl, hA.available r c hc]
  · rw [Ledger.entry_free hA.shape ht hr, hA.allocation r c hc u hu, hA.allocation r c hc t ht]
    rfl
  · have := hA.total r c hc
    have := heldTotal_decr held ht hpos r
    rw [if_pos rfl] at this; dsimp only; omega

/-- **A release handed to the front waiter `v`**: the ledger moves the unit and clears `v`'s
need, the counter dequeues `v`, and `v` runs again. -/
theorem ColumnsAgree.handoff (hA : ColumnsAgree T R cap l counter held waiting)
    (hc : counter r = some c) (ht : t < T) {v : Nat} {q : List Nat} (hq : c.waitQueue = v :: q)
    (hpos : 0 < held t r) (hrun : ∀ j, waiting t j = false)
    (honly : ∀ j, waiting v j = true → j = r) :
    ColumnsAgree T R cap (l.handoff t r v) (Function.update counter r (some ⟨c.free, q⟩))
      (incr (decr held t r) v r) (fun u j => waiting u j && u ≠ v) := by
  have hr := hA.bounded r c hc
  obtain ⟨hnodup, hmem⟩ := hA.queue r c hc
  rw [hq] at hnodup hmem
  obtain ⟨hv, hwv⟩ := hmem v (List.mem_cons_self _ _)
  have hne : t ≠ v := by
    rintro rfl; rw [hrun] at hwv; exact Bool.false_ne_true hwv
  refine hA.update hc (hA.shape.handoff v) (Ledger.sameOff_handoff hA.shape ht hr hv hne)
    (fun u j hj => by simp [incr, decr, hj])
    (fun u _ j hj => ?_) (Ledger.vec_handoff hA.shape hr v r ▸ hA.available r c hc)
    (fun u hu => ?_) (fun u hu => ?_) ⟨(List.nodup_cons.mp hnodup).2, fun w hw => ?_⟩ ?_
  · by_cases hu : u = v
    · rw [hu]
      cases hw : waiting v j
      · simp
      · exact absurd (honly j hw) hj
    · simp [hu]
  · rw [Ledger.entry_handoff_allocation hA.shape ht hr hv hne, hA.allocation r c hc u hu,
      hA.allocation r c hc v hv, hA.allocation r c hc t ht]
    by_cases huv : u = v
    · subst huv; simp [incr, decr, Ne.symm hne]
    · by_cases hut : u = t
      · subst hut; simp [incr, decr, huv]
      · simp [incr, decr, huv, hut]
  · rw [Ledger.entry_handoff_need hA.shape hr hv, hA.need r c hc u hu, hA.need r c hc v hv]
    by_cases huv : u = v
    · subst huv; simp [hwv]
    · simp [huv]
  · obtain ⟨hwT, hww⟩ := hmem w (List.mem_cons_of_mem _ hw)
    have : w ≠ v := fun h => (List.nodup_cons.mp hnodup).1 (h ▸ hw)
    exact ⟨hwT, by simp [hww, this]⟩
  · have := hA.total r c hc
    have := heldTotal_decr held ht hpos r
    rw [heldTotal_incr _ hv, if_pos rfl]; rw [if_pos rfl] at this; dsimp only; omega

/-- What other threads wait on elsewhere does not matter. -/
theorem ColumnsAgree.congr_waiting (hA : ColumnsAgree T R cap l counter held waiting)
    {waiting' : Nat → Nat → Bool} (h : ∀ u < T, ∀ j, waiting' u j = waiting u j) :
    ColumnsAgree T R cap l counter held waiting' :=
  ⟨hA.shape, hA.bounded, hA.available, hA.allocation,
    fun j c hc u hu => by rw [h u hu j]; exact hA.need j c hc u hu,
    fun j c hc => ⟨(hA.queue j c hc).1, fun v hv => by
      obtain ⟨hvT, hw⟩ := (hA.queue j c hc).2 v hv; exact ⟨hvT, by rw [h v hvT j]; exact hw⟩⟩,
    hA.total, fun u hu j hw => hA.tracked u hu j (by rw [← h u hu j]; exact hw), hA.unheld⟩

/-- **A request the ledger admitted, then the counter's acquire**: a free unit is taken, or
the caller is queued and waits. -/
theorem ColumnsAgree.acquire (hA : ColumnsAgree T R cap l counter held waiting)
    (hc : counter r = some c) (ht : t < T) (hrun : ∀ j, waiting t j = false) {tnum : Nat}
    {detect : Bool} {l' : Ledger} (hreq : l.request tnum t r detect = .ok (true, l')) :
    ColumnsAgree T R cap l' (Function.update counter r (some (c.acquire t).1))
      (if (c.acquire t).2 = .acquired then incr held t r else held)
      (fun u j => waiting u j || (decide ((c.acquire t).2 = .blocked) && u = t && j = r)) := by
  have hr := hA.bounded r c hc
  rcases Ledger.request_cases hA.shape ht hr hreq with ⟨hpos, -, rfl⟩ | ⟨h0, ⟨-, rfl⟩ | ⟨h, -⟩⟩
  · rw [hA.available r c hc] at hpos
    simp only [Counter.acquire, if_pos hpos]
    exact (hA.grant hc ht hpos).congr_waiting (by simp)
  · rw [hA.available r c hc] at h0
    have hacq : c.acquire t = (⟨c.free, c.waitQueue ++ [t]⟩, .blocked) := by
      simp [Counter.acquire, h0]
    rw [hacq]; dsimp only; rw [if_neg (fun h => by cases h)]
    exact (hA.wait hc ht hrun).congr_waiting fun _ _ _ => by simp
  · cases h

/-- **A holder's release, then the counter's**: the unit goes to the front waiter, whom the
ledger is told of beforehand, or is freed. -/
theorem ColumnsAgree.release (hA : ColumnsAgree T R cap l counter held waiting)
    (hc : counter r = some c) (ht : t < T) (hpos : 0 < held t r) (hrun : ∀ j, waiting t j = false)
    (honly : ∀ v ∈ c.waitQueue, ∀ j, waiting v j = true → j = r) {l' : Ledger}
    (hrel : l.release t r c.wakingTid = .ok l') :
    ColumnsAgree T R cap l' (Function.update counter r (some c.release.1))
      (handOver held t r c.release.2) (fun u j => waiting u j && c.release.2 != some u) := by
  have hr := hA.bounded r c hc
  have hal : 0 < entry l.allocation t r := hA.allocation r c hc t ht ▸ hpos
  cases hq : c.waitQueue with
  | nil =>
    rw [Counter.wakingTid, hq, Ledger.release_free hA.shape ht hr hal] at hrel
    cases hrel
    simp only [Counter.release, hq]
    exact (hA.free hc ht hpos).congr_waiting (by simp)
  | cons v q =>
    obtain ⟨hv, hwv⟩ := (hA.queue r c hc).2 v (hq ▸ List.mem_cons_self _ _)
    have hneed : 0 < entry l.need v r := by rw [hA.need r c hc v hv, if_pos hwv]; exact Nat.one_pos
    rw [Counter.wakingTid, hq, Ledger.release_handoff hA.shape ht hr hv hal hneed] at hrel
    cases hrel
    simp only [Counter.release, hq]
    refine (hA.handoff hc ht hq hpos hrun (honly v (hq ▸ List.mem_cons_self _ _))).congr_waiting
      fun u _ j => ?_
    by_cases hu : u = v
    · simp [hu]
    · simp [hu, Ne.symm hu]

/-- A holder's release is accepted by the ledger: it holds the unit, and the woken thread, if
any, needs it. -/
theorem ColumnsAgree.release_ok (hA : ColumnsAgree T R cap l counter held waiting)
    (hc : counter r = some c) (ht : t < T) (hpos : 0 < held t r) :
    ∃ l', l.release t r c.wakingTid = .ok l' := by
  have hr := hA.bounded r c hc
  have hal : 0 < entry l.allocation t r := hA.allocation r c hc t ht ▸ hpos
  cases hq : c.waitQueue with
  | nil => exact ⟨_, by rw [Counter.wakingTid, hq]; exact Ledger.release_free hA.shape ht hr hal⟩
  | cons v q =>
    obtain ⟨hv, hwv⟩ := (hA.queue r c hc).2 v (hq ▸ List.mem_cons_self _ _)
    have hneed : 0 < entry l.need v r := by rw [hA.need r c hc v hv, if_pos hwv]; exact Nat.one_pos
    exact ⟨_, by rw [Counter.wakingTid, hq]; exact Ledger.release_handoff hA.shape ht hr hv hal hneed⟩

/-- **The safety pass's `work` stays within the capacity**: `available[r]` plus the allocations
of any distinct threads is at most `cap`. -/
theorem ColumnsAgree.work_le (hA : ColumnsAgree T R cap l counter held waiting)
    (hc : counter r = some c) {L : List Nat} (hnd : L.Nodup) (hL : ∀ i ∈ L, i < T) :
    vec l.available r + Banker.held (entry l.allocation) L r ≤ cap := by
  have hheld : Banker.held (entry l.allocation) L r = (L.map (held · r)).sum :=
    congrArg List.sum (List.map_congr_left fun i hi => hA.allocation r c hc i (hL i hi))
  calc vec l.available r + Banker.held (entry l.allocation) L r
      = c.free + (L.map (held · r)).sum := by rw [hA.available r c hc, hheld]
    _ ≤ c.free + heldTotal held T r := Nat.add_le_add_left (sum_le_heldTotal held r hnd hL) _
    _ ≤ cap := hA.total r c hc

/-- **A new resource** pushed as column `R`, with `count ≤ cap` free units and nobody waiting. -/
theorem ColumnsAgree.push (hA : ColumnsAgree T R cap l counter held waiting)
    {counter' : Nat → Option Counter} {count : Nat} (hsame : ∀ j, j < R → counter' j = counter j)
    (hnew : ∀ c, counter' R = some c → c = ⟨count, []⟩) (hbeyond : ∀ j, R < j → counter' j = none)
    (hcap : count ≤ cap) :
    ColumnsAgree T (R + 1) cap (l.pushColumn count) counter' held waiting := by
  have hlt : ∀ j c, counter' j = some c → j < R ∨ j = R ∧ c = ⟨count, []⟩ := fun j c h => by
    rcases Nat.lt_trichotomy j R with hj | rfl | hj
    · exact .inl hj
    · exact .inr ⟨rfl, hnew c h⟩
    · simp [hbeyond j hj] at h
  have hwR : ∀ u < T, waiting u R = false := fun u hu => Bool.eq_false_iff.mpr fun hw => by
    obtain ⟨c, hc⟩ := Option.ne_none_iff_exists'.mp (hA.tracked u hu R hw)
    exact Nat.lt_irrefl R (hA.bounded R c hc)
  refine ⟨hA.shape.pushColumn count, fun j c h => ?_, fun j c h => ?_, fun j c h u hu => ?_,
    fun j c h u hu => ?_, fun j c h => ?_, fun j c h => ?_, fun u hu j hw => ?_,
    fun u j hj => hA.unheld u j (by omega)⟩
  all_goals try rcases hlt j c h with hj | ⟨rfl, rfl⟩
  all_goals try rw [hsame j hj] at h
  · omega
  · omega
  · rw [Ledger.pushColumn, Ledger.vec_append_singleton hA.shape.available, if_neg (Nat.ne_of_lt hj),
      hA.available j c h]
  · rw [Ledger.pushColumn, Ledger.vec_append_singleton hA.shape.available, if_pos rfl]
  · rw [Ledger.pushColumn, Ledger.entry_map_append hA.shape.allocation, if_neg (Nat.ne_of_lt hj),
      hA.allocation j c h u hu]
  · rw [Ledger.pushColumn, Ledger.entry_map_append hA.shape.allocation, if_pos rfl,
      hA.unheld u j le_rfl]
  · rw [Ledger.pushColumn, Ledger.entry_map_append hA.shape.need, if_neg (Nat.ne_of_lt hj),
      hA.need j c h u hu]
  · rw [Ledger.pushColumn, Ledger.entry_map_append hA.shape.need, if_pos rfl, hwR u hu]; rfl
  · exact hA.queue j c h
  · simp
  · exact hA.total j c h
  · have : heldTotal held T j = 0 := by
      simp [heldTotal, hA.unheld _ j le_rfl]
    simpa [this] using hcap
  · have hj := hA.tracked u hu j hw
    obtain ⟨c, hc⟩ := Option.ne_none_iff_exists'.mp hj
    rw [hsame j (hA.bounded j c hc), hc]; simp

/-- **A change confined to a column with no counter** (a spinning mutex's) keeps the
agreement of every other column. -/
theorem ColumnsAgree.untracked (hA : ColumnsAgree T R cap l counter held waiting)
    (hr : r < R) (hc : counter r = none) {l' : Ledger} {held' : Nat → Nat → Nat}
    (hl' : l'.Shape T R) (hsame : l.SameOff r l') (hheld : ∀ u j, j ≠ r → held' u j = held u j) :
    ColumnsAgree T R cap l' counter held' waiting := by
  have hjr : ∀ j c, counter j = some c → j ≠ r := fun j c h hj => by simp [hj, hc] at h
  refine ⟨hl', hA.bounded, fun j c h => ?_, fun j c h u hu => ?_, fun j c h u hu => ?_,
    hA.queue, fun j c h => ?_, hA.tracked, fun u j hj => ?_⟩
  · rw [hsame.available j (hjr j c h), hA.available j c h]
  · rw [hsame.allocation u j (hjr j c h), hA.allocation j c h u hu, hheld u j (hjr j c h)]
  · rw [hsame.need u j (hjr j c h), hA.need j c h u hu]
  · rw [heldTotal_congr fun u => hheld u j (hjr j c h)]; exact hA.total j c h
  · rw [hheld u j (by omega), hA.unheld u j hj]

end Columns

end Rcore
