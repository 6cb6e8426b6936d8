import Rcore.Sync.Columns
import Rcore.Banker.Updates

/-!
# The ledger stays safe

A ledger of `T` threads and `R` resources is safe (`Ledger.Safe`) when some order of all `T`
threads is safe for it.  Each update the syscalls make keeps it safe, given what the agreement
of `Columns` says about the threads involved:

* `Ledger.Safe.grant`, `Ledger.Safe.free`, `Ledger.Safe.handoff` — the caller, running, needs
  nothing, and a woken thread needed only the unit it receives (`Banker.Safe.front`);
* `Ledger.Safe.pushColumn` — a new resource (`Banker.Safe.succ`);
* `Ledger.Safe.request` — a recorded need is kept only when the safety pass, run over the
  `T` thread rows, found the new ledger safe.

`ColumnsAgree.safe_request` and `ColumnsAgree.safe_release` read these off the agreement, for a
class whose every resource is a counter.
-/

set_option autoImplicit false

namespace Rcore

namespace Ledger

/-- Some order of all `T` threads is safe for the ledger's `R` resources. -/
def Safe (T R : Nat) (l : Ledger) : Prop :=
  Banker.Safe R (entry l.need) (entry l.allocation) T (vec l.available)

variable {T R : Nat} {l : Ledger} {tid rid : Nat}

/-- An idle thread takes a free unit. -/
theorem Safe.grant (hs : l.Safe T R) (hl : l.Shape T R) (ht : tid < T) (hr : rid < R)
    (hfree : 0 < vec l.available rid) (hidle : ∀ j < R, entry l.need tid j = 0) :
    (l.grant tid rid).Safe T R :=
  Banker.Safe.front ht hidle
    (fun j _ => by
      rw [vec_grant hl hr, entry_grant hl ht hr]
      by_cases hj : rid = j
      · subst hj; simp only [and_self, if_true]; omega
      · rw [if_neg hj, if_neg fun h => hj h.2.symm])
    (fun i hi j _ => ⟨le_rfl, by rw [entry_grant hl ht hr, if_neg fun h => hi h.1]⟩) hs

/-- An idle thread frees a unit it holds. -/
theorem Safe.free (hs : l.Safe T R) (hl : l.Shape T R) (ht : tid < T) (hr : rid < R)
    (hheld : 0 < entry l.allocation tid rid) (hidle : ∀ j < R, entry l.need tid j = 0) :
    (l.free tid rid).Safe T R :=
  Banker.Safe.front ht hidle
    (fun j _ => by
      rw [vec_free hl hr, entry_free hl ht hr]
      by_cases hj : rid = j
      · subst hj; simp only [and_self, if_true]; omega
      · rw [if_neg hj, if_neg fun h => hj h.2.symm])
    (fun i hi j _ => ⟨le_rfl, by rw [entry_free hl ht hr, if_neg fun h => hi h.1]⟩) hs

/-- An idle thread hands a unit to a thread that needed only that unit: the giver goes first,
then the receiver. -/
theorem Safe.handoff (hs : l.Safe T R) (hl : l.Shape T R) (ht : tid < T) (hr : rid < R)
    {w : Nat} (hw : w < T) (hne : tid ≠ w) (hheld : 0 < entry l.allocation tid rid)
    (hidle : ∀ j < R, entry l.need tid j = 0)
    (hwait : ∀ j < R, entry l.need w j = if j = rid then 1 else 0) :
    (l.handoff tid rid w).Safe T R := by
  refine Banker.Safe.front hw (fun j hj => ?_) (fun j _ => ?_) (fun i hi j _ => ⟨?_, ?_⟩)
    (hs.free hl ht hr hheld hidle)
  · rw [entry_handoff_need hl hr hw]
    by_cases hj' : j = rid
    · subst hj'; rw [if_pos ⟨rfl, rfl⟩, hwait j hj, if_pos rfl]
    · rw [if_neg fun h => hj' h.2, hwait j hj, if_neg hj']
  · have hwt : ¬(w = tid ∧ j = rid) := fun h => hne h.1.symm
    rw [vec_handoff hl hr, entry_handoff_allocation hl ht hr hw hne, vec_free hl hr,
      entry_free hl ht hr, if_neg hwt]
    by_cases hj : rid = j
    · subst hj; simp only [and_self, if_true]; omega
    · rw [if_neg hj, if_neg (show ¬(w = w ∧ j = rid) from fun h => hj h.2.symm)]
  · rw [entry_handoff_need hl hr hw, if_neg fun h => hi h.1]; exact le_rfl
  · rw [entry_handoff_allocation hl ht hr hw hne, if_neg fun h => hi h.1, entry_free hl ht hr]

/-- A new resource keeps a safe ledger safe. -/
theorem Safe.pushColumn (hs : l.Safe T R) (hl : l.Shape T R) (count : Nat) :
    (l.pushColumn count).Safe T (R + 1) :=
  Banker.Safe.succ
    (fun i j hj => by
      simp only [Ledger.pushColumn, entry_map_append hl.need, entry_map_append hl.allocation,
        if_neg (Nat.ne_of_lt hj), and_self])
    (fun i => by simp [Ledger.pushColumn, entry_map_append hl.need])
    (fun j hj => by
      simp only [Ledger.pushColumn, vec_append_singleton hl.available, if_neg (Nat.ne_of_lt hj)])
    hs

/-- **A request by an idle thread, with the pass run over the `T` thread rows, keeps the ledger
safe**: a grant is safe, a recorded need is kept only when the pass finds it safe, and a refusal
changes nothing. -/
theorem Safe.request (hs : l.Safe T R) (hl : l.Shape T R) (ht : tid < T) (hr : rid < R)
    (hidle : ∀ j < R, entry l.need tid j = 0) (hcol : ColumnsFit T R l.available l.allocation)
    {b : Bool} {l' : Ledger} (h : l.request T tid rid true = .ok (b, l')) : l'.Safe T R := by
  rcases request_cases hl ht hr h with ⟨hfree, -, rfl⟩ | ⟨h0, ⟨rfl, rfl⟩ | ⟨-, rfl⟩⟩
  · exact hs.grant hl ht hr hfree hidle
  · obtain ⟨b', hb', hiff⟩ := request_wait hl ht hr h0 hcol true
    rw [h] at hb'
    exact hiff.mp (Prod.mk.inj (Except.ok.inj hb')).1.symm rfl
  · exact hs

end Ledger

section Columns

variable {T R cap : Nat} {l : Ledger} {counter : Nat → Option Counter}
  {held : Nat → Nat → Nat} {waiting : Nat → Nat → Bool} {t r : Nat}

/-- With every resource a counter, a thread's need row is its waiting row. -/
theorem ColumnsAgree.need_row (hA : ColumnsAgree T R cap l counter held waiting)
    (hall : ∀ j < R, counter j ≠ none) {u : Nat} (hu : u < T) (j : Nat) (hj : j < R) :
    entry l.need u j = if waiting u j then 1 else 0 := by
  obtain ⟨c, hc⟩ := Option.ne_none_iff_exists'.mp (hall j hj)
  exact hA.need j c hc u hu

/-- With every resource a counter of at most `cap` units, the column sums are at most `cap`. -/
theorem ColumnsAgree.columnsFit (hA : ColumnsAgree T R cap l counter held waiting)
    (hall : ∀ j < R, counter j ≠ none) (hcap : cap ≤ usizeMax) :
    ColumnsFit T R l.available l.allocation := fun j hj => by
  obtain ⟨c, hc⟩ := Option.ne_none_iff_exists'.mp (hall j hj)
  exact (hA.work_le hc (List.nodup_range T) fun i hi => List.mem_range.mp hi).trans hcap

/-- **A request by a running thread keeps a safe ledger safe**, when every resource of the
class is a counter of at most `usize::MAX` units and the pass covers the `T` thread rows. -/
theorem ColumnsAgree.safe_request (hA : ColumnsAgree T R cap l counter held waiting)
    (hall : ∀ j < R, counter j ≠ none) (hcap : cap ≤ usizeMax) (hs : l.Safe T R) (ht : t < T)
    (hrun : ∀ j, waiting t j = false) (hr : r < R) {b : Bool} {l' : Ledger}
    (h : l.request T t r true = .ok (b, l')) : l'.Safe T R :=
  hs.request hA.shape ht hr (fun j hj => by rw [hA.need_row hall ht j hj, hrun]; rfl)
    (hA.columnsFit hall hcap) h

/-- **A holder's release keeps a safe ledger safe**: the unit is freed, or handed to the front
waiter, which was blocked on this resource alone. -/
theorem ColumnsAgree.safe_release (hA : ColumnsAgree T R cap l counter held waiting)
    (hall : ∀ j < R, counter j ≠ none) (hs : l.Safe T R) {c : Counter}
    (hc : counter r = some c) (ht : t < T) (hrun : ∀ j, waiting t j = false)
    (hpos : 0 < held t r) (honly : ∀ v ∈ c.waitQueue, ∀ j, waiting v j = true → j = r)
    {l' : Ledger} (hrel : l.release t r c.wakingTid = .ok l') : l'.Safe T R := by
  have hr := hA.bounded r c hc
  have hal : 0 < entry l.allocation t r := hA.allocation r c hc t ht ▸ hpos
  have hidle : ∀ j < R, entry l.need t j = 0 := fun j hj => by
    rw [hA.need_row hall ht j hj, hrun]; rfl
  cases hq : c.waitQueue with
  | nil =>
    rw [Counter.wakingTid, hq, Ledger.release_free hA.shape ht hr hal] at hrel
    cases hrel
    exact hs.free hA.shape ht hr hal hidle
  | cons v q =>
    have hvq : v ∈ c.waitQueue := hq ▸ List.mem_cons_self _ _
    obtain ⟨hv, hwv⟩ := (hA.queue r c hc).2 v hvq
    have hne : t ≠ v := fun htv => by rw [← htv, hrun] at hwv; cases hwv
    have hwait : ∀ j < R, entry l.need v j = if j = r then 1 else 0 := fun j hj => by
      rw [hA.need_row hall hv j hj]
      by_cases hjr : j = r
      · subst hjr; simp [hwv]
      · have : waiting v j = false := by
          cases hw : waiting v j
          · rfl
          · exact absurd (honly v hvq j hw) hjr
        simp [this, hjr]
    have hneed : 0 < entry l.need v r := by rw [hwait r hr, if_pos rfl]; exact Nat.one_pos
    rw [Counter.wakingTid, hq, Ledger.release_handoff hA.shape ht hr hv hal hneed] at hrel
    cases hrel
    exact hs.handoff hA.shape ht hr hv hne hal hidle hwait

end Columns

end Rcore
