import Rcore.Banker.Pass

/-!
# The ledger code shared by the mutex and semaphore syscalls

`sys_mutex_*` and `sys_semaphore_*` run the same code over their own ledger
(`*_available`, `*_allocation`, `*_need`); it is defined here once, and `Syscalls` applies it
to each class's fields.

* `Ledger.create` — lines 26-52 of `sys_mutex_create`: the new primitive takes the lowest free
  slot, with a ledger column inserted (`Vec::insert`) at its index, or is pushed.
* `Ledger.request` — lines 62-102 of `sys_mutex_lock`: grant a free unit, or record the need
  and, with detection on, run the safety pass over `tnum = mutex_list.len()` threads and roll
  the need back on refusal.
* `Ledger.release` — lines 114-121 of `sys_mutex_unlock`: free the caller's unit and move it
  to the thread `get_waking_tid` reports.

The spec lemmas read a ledger of `T` threads and `R` resources (`Ledger.Shape`) through
`vec`/`entry`: `create_of_full` (no free slot), `request_grant`, `request_wait` and
`request_ok` (the pass over the `T` rows, with column sums that fit in a `usize`),
`request_cases`, `release_free`, `release_handoff` and `release_shape`.
-/

set_option autoImplicit false

namespace Rcore

/-- One ledger of `ProcessControlBlockInner`: `available[r]`, `allocation[t][r]`,
`need[t][r]`. -/
structure Ledger where
  available : List Nat
  allocation : List (List Nat)
  need : List (List Nat)
  deriving DecidableEq, Repr

/-- `M[t][r] = f(M[t][r])` on a `Vec<Vec<usize>>`. -/
def modifyEntry (M : List (List Nat)) (t r : Nat) (f : Nat → Except Panic Nat) :
    Except Panic (List (List Nat)) :=
  modifyAt M t (fun row => modifyAt row r f)

/-- `iter().enumerate().find(|(_, item)| item.is_none()).map(|(id, _)| id)`. -/
def freeSlot {α : Type} (list : List (Option α)) : Option Nat := list.findIdx? (·.isNone)

/-- A slot list with no empty slot has no free slot. -/
theorem freeSlot_eq_none {α : Type} {list : List (Option α)} (h : ∀ x ∈ list, x ≠ none) :
    freeSlot list = none :=
  List.findIdx?_eq_none_iff.mpr fun x hx => by
    cases x with
    | none => exact absurd rfl (h _ hx)
    | some _ => rfl

/-- The value `sys_mutex_lock` and `sys_semaphore_down` return on refusal. -/
def deadlockSentinel : Int := -0xdead

/-- Setting an element to itself. -/
theorem List.set_getElem_self {α : Type} {v : List α} {i : Nat} (h : i < v.length) :
    v.set i v[i] = v :=
  List.ext_getElem (by simp) fun j _ _ => by
    simp only [List.getElem_set]; split <;> simp_all

/-- `M` with `M[t][r]` replaced by `y`. -/
def setEntry (M : List (List Nat)) (t r y : Nat) : List (List Nat) :=
  M.set t ((M.getD t []).set r y)

section Entries

variable {T R : Nat} {M : List (List Nat)} {t r : Nat}

theorem Rect.setEntry (hM : Rect T R M) (y : Nat) : Rect T R (setEntry M t r y) := by
  by_cases ht : t < T
  · refine ⟨by simp [Rcore.setEntry, hM.1], fun row hrow => ?_⟩
    rcases List.mem_or_eq_of_mem_set hrow with hrow | rfl
    · exact hM.2 row hrow
    · simpa using hM.row_length ht
  · rwa [Rcore.setEntry, List.set_eq_of_length_le (by rw [hM.1]; omega)]

theorem entry_setEntry (hM : Rect T R M) (ht : t < T) (hr : r < R) (y u j : Nat) :
    entry (setEntry M t r y) u j = if u = t ∧ j = r then y else entry M u j := by
  have ht' : t < M.length := hM.1 ▸ ht
  have hr' : r < (M.getD t []).length := (hM.row_length ht).symm ▸ hr
  by_cases hu : u = t
  · subst hu
    by_cases hj : j = r
    · subst hj
      simp_all [entry, Rcore.setEntry, List.getD_eq_getElem?_getD]
    · simp [entry, Rcore.setEntry, ht', hj, Ne.symm hj, List.getD_eq_getElem?_getD,
        List.getElem?_set]
  · simp [entry, Rcore.setEntry, hu, Ne.symm hu, List.getD_eq_getElem?_getD, List.getElem?_set]

/-- A successful `M[t][r] = f(M[t][r])` keeps the matrix's shape. -/
theorem Rect.modifyEntry (hM : Rect T R M) {f : Nat → Except Panic Nat} {M' : List (List Nat)}
    (h : Rcore.modifyEntry M t r f = .ok M') : Rect T R M' := by
  obtain ⟨row, hrow, h⟩ := bind_eq_ok.mp h
  obtain ⟨row', hrow', h⟩ := bind_eq_ok.mp h
  cases h
  refine ⟨by simp [hM.1], fun x hx => ?_⟩
  rcases List.mem_or_eq_of_mem_set hx with hx | rfl
  · exact hM.2 x hx
  · rw [modifyAt_length hrow']
    exact hM.2 row (List.getElem?_mem (index_eq_ok.mp hrow))

theorem modifyEntry_eq (hM : Rect T R M) (ht : t < T) (hr : r < R) (f : Nat → Except Panic Nat) :
    modifyEntry M t r f = (f (entry M t r)).map (setEntry M t r) := by
  have ht' : t < M.length := hM.1 ▸ ht
  have hr' : r < M[t].length := by
    have := hM.row_length ht
    rw [List.getD_eq_getElem _ _ ht'] at this
    omega
  simp only [modifyEntry, modifyAt_of_lt _ ht', modifyAt_of_lt _ hr']
  cases h : f M[t][r] <;> simp [h, Except.map, entry, Rcore.setEntry, ht', hr']

theorem modifyEntry_pure (hM : Rect T R M) (ht : t < T) (hr : r < R) (g : Nat → Nat) :
    modifyEntry M t r (fun x => pure (g x)) = .ok (setEntry M t r (g (entry M t r))) := by
  rw [modifyEntry_eq hM ht hr]; rfl

theorem modifyEntry_sub (hM : Rect T R M) (ht : t < T) (hr : r < R) (h : 0 < entry M t r) :
    modifyEntry M t r (fun x => usizeSub x 1) = .ok (setEntry M t r (entry M t r - 1)) := by
  rw [modifyEntry_eq hM ht hr, usizeSub, if_pos (show 1 ≤ entry M t r from h)]; rfl

@[simp] theorem setEntry_setEntry (M : List (List Nat)) (t r x y : Nat) :
    setEntry (setEntry M t r x) t r y = setEntry M t r y := by
  by_cases ht : t < M.length
  · simp [Rcore.setEntry, ht]
  · simp [Rcore.setEntry, List.set_eq_of_length_le (Nat.le_of_not_lt ht)]

theorem setEntry_entry (hM : Rect T R M) (ht : t < T) (hr : r < R) :
    setEntry M t r (entry M t r) = M := by
  have ht' : t < M.length := hM.1 ▸ ht
  have hrow : M.getD t [] = M[t] := List.getD_eq_getElem _ _ ht'
  have hr' : r < M[t].length := by rw [← hrow, hM.row_length ht]; exact hr
  rw [setEntry, entry, hrow, List.getD_eq_getElem _ _ hr', List.set_getElem_self hr',
    List.set_getElem_self ht']

theorem Rect.map_append {M : List (List Nat)} (hM : Rect T R M) :
    Rect T (R + 1) (M.map (· ++ [0])) :=
  ⟨by simp [hM.1], fun row h => by
    obtain ⟨r, hr, rfl⟩ := List.mem_map.mp h
    simp [hM.2 r hr]⟩

end Entries

theorem modifyAt_vec {v : List Nat} {i : Nat} (g : Nat → Nat) (h : i < v.length) :
    modifyAt v i (fun x => pure (g x)) = .ok (v.set i (g (vec v i))) := by
  rw [modifyAt_pure g h]; simp [vec, h]

theorem modifyAt_sub {v : List Nat} {i : Nat} (h : i < v.length) (hpos : 0 < vec v i) :
    modifyAt v i (fun x => usizeSub x 1) = .ok (v.set i (vec v i - 1)) := by
  have hv : vec v i = v[i] := by simp [vec, h]
  rw [modifyAt_of_lt _ h, ← hv, usizeSub, if_pos (show 1 ≤ vec v i from hpos)]; rfl

namespace Ledger

/-- Lines 26-52 of `sys_mutex_create` (131-158 of `sys_semaphore_create`): the primitive takes
the lowest free slot and a ledger column with `count` available units is inserted at its index,
or it is pushed with a column at the end. -/
def create {α : Type} (l : Ledger) (list : List (Option α)) (prim : α) (count : Nat) :
    Except Panic (Nat × List (Option α) × Ledger) :=
  match freeSlot list with
  | some id => do
    let list ← modifyAt list id (fun _ => pure (some prim))
    let available ← vecInsert l.available id count
    let allocation ← l.allocation.mapM (fun row => vecInsert row id 0)
    let need ← l.need.mapM (fun row => vecInsert row id 0)
    pure (id, list, ⟨available, allocation, need⟩)
  | none =>
    pure (list.length, list ++ [some prim],
      ⟨l.available ++ [count], l.allocation.map (· ++ [0]), l.need.map (· ++ [0])⟩)

/-- Lines 62-102 of `sys_mutex_lock` (186-226 of `sys_semaphore_down`): the ledger's part of
a request by `tid` for `rid`, the safety pass running over `tnum` threads.  `false` is the
refusal that returns `-0xdead`, with the ledger it leaves. -/
def request (l : Ledger) (tnum tid rid : Nat) (detect : Bool) : Except Panic (Bool × Ledger) := do
  let mnum := l.available.length
  if (← index l.available rid) = 0 then
    let need ← modifyEntry l.need tid rid (fun x => pure (x + 1))
    if detect then
      let st ← safetyPass l.available need l.allocation tnum mnum
      if st.finish.all id then pure (true, { l with need := need })
      else
        let need ← modifyEntry need tid rid (fun x => usizeSub x 1)
        pure (false, { l with need := need })
    else pure (true, { l with need := need })
  else
    let available ← modifyAt l.available rid (fun x => usizeSub x 1)
    let allocation ← modifyEntry l.allocation tid rid (fun x => pure (x + 1))
    pure (true, { l with available := available, allocation := allocation })

/-- Lines 114-121 of `sys_mutex_unlock` (167-174 of `sys_semaphore_up`): the caller's unit is
freed and, when the primitive reports a waking thread, moved to it. -/
def release (l : Ledger) (tid rid : Nat) (wakingTid : Int) : Except Panic Ledger := do
  let available ← modifyAt l.available rid (fun x => pure (x + 1))
  let allocation ← modifyEntry l.allocation tid rid (fun x => usizeSub x 1)
  if wakingTid ≠ -1 then
    let available ← modifyAt available rid (fun x => usizeSub x 1)
    let allocation ← modifyEntry allocation wakingTid.toNat rid (fun x => pure (x + 1))
    let need ← modifyEntry l.need wakingTid.toNat rid (fun x => usizeSub x 1)
    pure ⟨available, allocation, need⟩
  else pure { l with available := available, allocation := allocation }

/-! ## Spec lemmas

A ledger of `T` threads and `R` resources has `available` of length `R` and `T × R` matrices.
On it the operations are the updates named below; every lemma reads them through `vec` and
`entry`. -/

/-- The ledger of `T` thread rows and `R` resource columns. -/
structure Shape (T R : Nat) (l : Ledger) : Prop where
  available : l.available.length = R
  allocation : Rect T R l.allocation
  need : Rect T R l.need

/-- A column of `count` free units pushed at the end. -/
def pushColumn (l : Ledger) (count : Nat) : Ledger :=
  ⟨l.available ++ [count], l.allocation.map (· ++ [0]), l.need.map (· ++ [0])⟩

/-- `tid` takes a free unit of `rid`. -/
def grant (l : Ledger) (tid rid : Nat) : Ledger :=
  { l with available := l.available.set rid (vec l.available rid - 1),
           allocation := setEntry l.allocation tid rid (entry l.allocation tid rid + 1) }

/-- `tid` is recorded as waiting for `rid`. -/
def wait (l : Ledger) (tid rid : Nat) : Ledger :=
  { l with need := setEntry l.need tid rid (entry l.need tid rid + 1) }

/-- `tid` frees a unit of `rid`. -/
def free (l : Ledger) (tid rid : Nat) : Ledger :=
  { l with available := l.available.set rid (vec l.available rid + 1),
           allocation := setEntry l.allocation tid rid (entry l.allocation tid rid - 1) }

/-- `tid` frees a unit of `rid` and it goes to the waiting thread `w`. -/
def handoff (l : Ledger) (tid rid w : Nat) : Ledger :=
  { (l.free tid rid).grant w rid with need := setEntry l.need w rid (entry l.need w rid - 1) }

section Specs

theorem all_id_iff {bs : List Bool} {n : Nat} (h : bs.length = n) :
    bs.all id = true ↔ ∀ i < n, bs.getD i false = true := by
  subst h
  simp only [List.all_eq_true, id, List.mem_iff_getElem]
  constructor
  · intro hall i hi; rw [List.getD_eq_getElem _ _ hi]; exact hall _ ⟨i, hi, rfl⟩
  · rintro hall _ ⟨i, hi, rfl⟩
    have := hall i hi
    rwa [List.getD_eq_getElem _ _ hi] at this

variable {T R : Nat} {l : Ledger} {tid rid : Nat}

theorem Shape.grant (hl : l.Shape T R) : (l.grant tid rid).Shape T R :=
  ⟨by simp [Ledger.grant, hl.available], hl.allocation.setEntry _, hl.need⟩

theorem Shape.wait (hl : l.Shape T R) : (l.wait tid rid).Shape T R :=
  ⟨hl.available, hl.allocation, hl.need.setEntry _⟩

theorem Shape.free (hl : l.Shape T R) : (l.free tid rid).Shape T R :=
  ⟨by simp [Ledger.free, hl.available], hl.allocation.setEntry _, hl.need⟩

theorem Shape.handoff (hl : l.Shape T R) (w : Nat) : (l.handoff tid rid w).Shape T R :=
  ⟨by simp [Ledger.handoff, Ledger.grant, Ledger.free, hl.available],
    (hl.allocation.setEntry _).setEntry _, hl.need.setEntry _⟩

/-! ### The updates read as functions -/

theorem vec_grant (hl : l.Shape T R) (hr : rid < R) (j : Nat) :
    vec (l.grant tid rid).available j =
      if rid = j then vec l.available rid - 1 else vec l.available j :=
  vec_set _ _ (hl.available ▸ hr)

theorem entry_grant (hl : l.Shape T R) (ht : tid < T) (hr : rid < R) (u j : Nat) :
    entry (l.grant tid rid).allocation u j =
      if u = tid ∧ j = rid then entry l.allocation tid rid + 1 else entry l.allocation u j :=
  entry_setEntry hl.allocation ht hr _ u j

@[simp] theorem grant_need : (l.grant tid rid).need = l.need := rfl

theorem entry_wait (hl : l.Shape T R) (ht : tid < T) (hr : rid < R) (u j : Nat) :
    entry (l.wait tid rid).need u j =
      if u = tid ∧ j = rid then entry l.need tid rid + 1 else entry l.need u j :=
  entry_setEntry hl.need ht hr _ u j

@[simp] theorem wait_available : (l.wait tid rid).available = l.available := rfl

@[simp] theorem wait_allocation : (l.wait tid rid).allocation = l.allocation := rfl

theorem vec_free (hl : l.Shape T R) (hr : rid < R) (j : Nat) :
    vec (l.free tid rid).available j =
      if rid = j then vec l.available rid + 1 else vec l.available j :=
  vec_set _ _ (hl.available ▸ hr)

theorem entry_free (hl : l.Shape T R) (ht : tid < T) (hr : rid < R) (u j : Nat) :
    entry (l.free tid rid).allocation u j =
      if u = tid ∧ j = rid then entry l.allocation tid rid - 1 else entry l.allocation u j :=
  entry_setEntry hl.allocation ht hr _ u j

@[simp] theorem free_need : (l.free tid rid).need = l.need := rfl

theorem vec_handoff (hl : l.Shape T R) (hr : rid < R) (w j : Nat) :
    vec (l.handoff tid rid w).available j = vec l.available j := by
  simp only [handoff, grant]
  rw [vec_set _ _ (by simpa [free, hl.available] using hr), vec_free hl hr, vec_free hl hr]
  split <;> simp_all

theorem entry_handoff_allocation (hl : l.Shape T R) (ht : tid < T) (hr : rid < R) {w : Nat}
    (hw : w < T) (hne : tid ≠ w) (u j : Nat) :
    entry (l.handoff tid rid w).allocation u j =
      if u = w ∧ j = rid then entry l.allocation w rid + 1
      else if u = tid ∧ j = rid then entry l.allocation tid rid - 1 else entry l.allocation u j := by
  simp only [handoff]
  rw [entry_grant hl.free hw hr, entry_free hl ht hr, entry_free hl ht hr]
  by_cases hu : u = w
  · subst hu; simp [Ne.symm hne]
  · simp [hu]

theorem entry_handoff_need (hl : l.Shape T R) (hr : rid < R) {w : Nat} (hw : w < T) (u j : Nat) :
    entry (l.handoff tid rid w).need u j =
      if u = w ∧ j = rid then entry l.need w rid - 1 else entry l.need u j :=
  entry_setEntry hl.need hw hr _ u j

/-- `l'` differs from `l` at most in column `rid`. -/
structure SameOff (rid : Nat) (l l' : Ledger) : Prop where
  available : ∀ j, j ≠ rid → vec l'.available j = vec l.available j
  allocation : ∀ u j, j ≠ rid → entry l'.allocation u j = entry l.allocation u j
  need : ∀ u j, j ≠ rid → entry l'.need u j = entry l.need u j

theorem SameOff.refl (rid : Nat) (l : Ledger) : l.SameOff rid l :=
  ⟨fun _ _ => rfl, fun _ _ _ => rfl, fun _ _ _ => rfl⟩

theorem sameOff_grant (hl : l.Shape T R) (ht : tid < T) (hr : rid < R) :
    l.SameOff rid (l.grant tid rid) :=
  ⟨fun j hj => by rw [vec_grant hl hr, if_neg (Ne.symm hj)],
    fun u j hj => by rw [entry_grant hl ht hr, if_neg (by tauto)], fun _ _ _ => rfl⟩

theorem sameOff_wait (hl : l.Shape T R) (ht : tid < T) (hr : rid < R) :
    l.SameOff rid (l.wait tid rid) :=
  ⟨fun _ _ => rfl, fun _ _ _ => rfl, fun u j hj => by rw [entry_wait hl ht hr, if_neg (by tauto)]⟩

theorem sameOff_free (hl : l.Shape T R) (ht : tid < T) (hr : rid < R) :
    l.SameOff rid (l.free tid rid) :=
  ⟨fun j hj => by rw [vec_free hl hr, if_neg (Ne.symm hj)],
    fun u j hj => by rw [entry_free hl ht hr, if_neg (by tauto)], fun _ _ _ => rfl⟩

theorem sameOff_handoff (hl : l.Shape T R) (ht : tid < T) (hr : rid < R) {w : Nat} (hw : w < T)
    (hne : tid ≠ w) : l.SameOff rid (l.handoff tid rid w) :=
  ⟨fun j _ => vec_handoff hl hr w j,
    fun u j hj => by rw [entry_handoff_allocation hl ht hr hw hne, if_neg (by tauto), if_neg (by tauto)],
    fun u j hj => by rw [entry_handoff_need hl hr hw, if_neg (by tauto)]⟩

/-- **A free unit is granted**, whatever the pass would say. -/
theorem request_grant (hl : l.Shape T R) (ht : tid < T) (hr : rid < R)
    (hfree : 0 < vec l.available rid) (tnum : Nat) (detect : Bool) :
    l.request tnum tid rid detect = .ok (true, l.grant tid rid) := by
  have hr' : rid < l.available.length := hl.available ▸ hr
  simp only [request, index_eq_vec hr', ok_bind, Nat.pos_iff_ne_zero.mp hfree, if_false,
    modifyAt_sub hr' hfree, modifyEntry_pure hl.allocation ht hr]
  rfl

/-- **A request for an exhausted resource** records the need and, with detection on, keeps it
when the pass finishes every thread and rolls it back otherwise. -/
theorem request_of_empty (hl : l.Shape T R) (ht : tid < T) (hr : rid < R)
    (h0 : vec l.available rid = 0) (tnum : Nat) (detect : Bool) :
    l.request tnum tid rid detect =
      if detect then
        safetyPass l.available (l.wait tid rid).need l.allocation tnum R >>= fun st =>
          .ok (if st.finish.all id then (true, l.wait tid rid) else (false, l))
      else .ok (true, l.wait tid rid) := by
  have hr' : rid < l.available.length := hl.available ▸ hr
  have hback : modifyEntry (setEntry l.need tid rid (entry l.need tid rid + 1)) tid rid
      (fun x => usizeSub x 1) = .ok l.need := by
    rw [modifyEntry_sub (hl.need.setEntry _) ht hr (by simp [entry_setEntry hl.need ht hr]),
      entry_setEntry hl.need ht hr, if_pos ⟨rfl, rfl⟩, Nat.add_sub_cancel, setEntry_setEntry,
      setEntry_entry hl.need ht hr]
  simp only [request, index_eq_vec hr', ok_bind, h0, if_true, modifyEntry_pure hl.need ht hr,
    hl.available]
  cases detect
  · rfl
  · simp only [if_true]
    congr 1; funext st
    split
    · rfl
    · rw [hback]; rfl

/-- **With the pass over the `T` threads of the ledger**, whose column sums fit in a `usize`, a
request for an exhausted resource is admitted exactly when detection is off or the ledger with
the need recorded is safe, and a refusal leaves the ledger as it was. -/
theorem request_wait (hl : l.Shape T R) (ht : tid < T) (hr : rid < R)
    (h0 : vec l.available rid = 0) (hcol : ColumnsFit T R l.available l.allocation)
    (detect : Bool) :
    ∃ b, l.request T tid rid detect = .ok (b, if b then l.wait tid rid else l) ∧
      (b = true ↔ (detect = true →
        Banker.Safe R (entry (l.wait tid rid).need) (entry l.allocation) T (vec l.available))) := by
  rw [request_of_empty hl ht hr h0]
  cases detect
  · exact ⟨true, rfl, by simp⟩
  · obtain ⟨st, hrun, -, hlen, hiff⟩ := safetyPass_decides hl.available
      (hl.wait : (l.wait tid rid).Shape T R).need hl.allocation hcol
    rw [if_pos rfl, hrun, ok_bind]
    refine ⟨st.finish.all id, by cases st.finish.all id <;> rfl, ?_⟩
    rw [all_id_iff hlen, hiff]
    simp

/-- **A request on an existing resource succeeds** when the pass runs over the ledger's `T`
rows and the column sums fit in a `usize`. -/
theorem request_ok (hl : l.Shape T R) (ht : tid < T) (hr : rid < R)
    (hcol : ColumnsFit T R l.available l.allocation) (detect : Bool) :
    ∃ b l', l.request T tid rid detect = .ok (b, l') := by
  rcases Nat.eq_zero_or_pos (vec l.available rid) with h0 | hfree
  · obtain ⟨b, hb, -⟩ := request_wait hl ht hr h0 hcol detect
    exact ⟨b, _, hb⟩
  · exact ⟨true, _, request_grant hl ht hr hfree T detect⟩

/-- **What a request can do**: grant a free unit, record the need, or refuse and leave the
ledger as it was; the last two only when the resource is exhausted. -/
theorem request_cases (hl : l.Shape T R) (ht : tid < T) (hr : rid < R) {tnum : Nat}
    {detect b : Bool} {l' : Ledger} (h : l.request tnum tid rid detect = .ok (b, l')) :
    (0 < vec l.available rid ∧ b = true ∧ l' = l.grant tid rid) ∨
      (vec l.available rid = 0 ∧ (b = true ∧ l' = l.wait tid rid ∨ b = false ∧ l' = l)) := by
  rcases Nat.eq_zero_or_pos (vec l.available rid) with h0 | hpos
  · rw [request_of_empty hl ht hr h0] at h
    refine .inr ⟨h0, ?_⟩
    split at h
    · obtain ⟨st, -, hst⟩ := bind_eq_ok.mp h
      split at hst <;> cases hst <;> simp
    · cases h; simp
  · rw [request_grant hl ht hr hpos] at h
    cases h; exact .inl ⟨hpos, rfl, rfl⟩

/-- A refused request leaves the ledger as it was. -/
theorem request_refused (hl : l.Shape T R) (ht : tid < T) (hr : rid < R) {tnum : Nat}
    {detect : Bool} {l' : Ledger} (h : l.request tnum tid rid detect = .ok (false, l')) :
    l' = l := by
  rcases request_cases hl ht hr h with ⟨-, ⟨⟩, -⟩ | ⟨-, ⟨⟨⟩, -⟩ | ⟨-, rfl⟩⟩
  rfl

/-- A request leaves the ledger's shape and every column but `rid`. -/
theorem request_sameOff (hl : l.Shape T R) (ht : tid < T) (hr : rid < R) {tnum : Nat}
    {detect b : Bool} {l' : Ledger} (h : l.request tnum tid rid detect = .ok (b, l')) :
    l'.Shape T R ∧ l.SameOff rid l' := by
  rcases request_cases hl ht hr h with ⟨-, -, rfl⟩ | ⟨-, ⟨-, rfl⟩ | ⟨-, rfl⟩⟩
  · exact ⟨hl.grant, sameOff_grant hl ht hr⟩
  · exact ⟨hl.wait, sameOff_wait hl ht hr⟩
  · exact ⟨hl, SameOff.refl _ _⟩

/-- **A request never underflows**: it subtracts only from a free unit, and from the need it
has just added when the pass refuses. -/
theorem request_noUnderflow (hl : l.Shape T R) (ht : tid < T) (tnum rid : Nat) (detect : Bool) :
    NoUnderflow (l.request tnum tid rid detect) := by
  by_cases hr : rid < R
  · rcases Nat.eq_zero_or_pos (vec l.available rid) with h0 | hfree
    · rw [request_of_empty hl ht hr h0]
      split
      · exact (safetyPass_noUnderflow _ _ _ _ _).bind fun _ => noUnderflow_ok _
      · exact noUnderflow_ok _
    · rw [request_grant hl ht hr hfree]; exact noUnderflow_ok _
  · rw [request, index_of_le (by rw [hl.available]; omega)]
    simp [NoUnderflow]

theorem release_free (hl : l.Shape T R) (ht : tid < T) (hr : rid < R)
    (h : 0 < entry l.allocation tid rid) : l.release tid rid (-1) = .ok (l.free tid rid) := by
  have hr' : rid < l.available.length := hl.available ▸ hr
  simp only [release, modifyAt_vec _ hr', modifyEntry_sub hl.allocation ht hr h, ok_bind]
  rfl

/-- **Releasing a unit the caller does not hold** underflows `allocation[tid][rid]`. -/
theorem release_unheld (hl : l.Shape T R) (ht : tid < T) (hr : rid < R)
    (h : entry l.allocation tid rid = 0) (w : Int) :
    l.release tid rid w = .error .subtractOverflow := by
  have hr' : rid < l.available.length := hl.available ▸ hr
  simp only [release, modifyAt_vec _ hr', ok_bind, modifyEntry_eq hl.allocation ht hr, h,
    usizeSub_of_lt Nat.zero_lt_one]
  rfl

/-- A successful release, whoever it wakes, keeps the ledger's shape. -/
theorem release_shape (hl : l.Shape T R) {w : Int} {l' : Ledger} (h : l.release tid rid w = .ok l') :
    l'.Shape T R := by
  obtain ⟨av, hav, h⟩ := bind_eq_ok.mp h
  obtain ⟨al, hal, h⟩ := bind_eq_ok.mp h
  split at h
  · obtain ⟨av', hav', h⟩ := bind_eq_ok.mp h
    obtain ⟨al', hal', h⟩ := bind_eq_ok.mp h
    obtain ⟨nd, hnd, h⟩ := bind_eq_ok.mp h
    cases h
    exact ⟨(modifyAt_length hav').trans ((modifyAt_length hav).trans hl.available),
      (hl.allocation.modifyEntry hal).modifyEntry hal', hl.need.modifyEntry hnd⟩
  · cases h
    exact ⟨(modifyAt_length hav).trans hl.available, hl.allocation.modifyEntry hal, hl.need⟩

/-- A release reported to wake nobody succeeds only for a holder, and frees its unit. -/
theorem release_ok_free (hl : l.Shape T R) (ht : tid < T) (hr : rid < R) {l' : Ledger}
    (h : l.release tid rid (-1) = .ok l') : 0 < entry l.allocation tid rid ∧ l' = l.free tid rid := by
  rcases Nat.eq_zero_or_pos (entry l.allocation tid rid) with h0 | hpos
  · rw [release_unheld hl ht hr h0] at h; cases h
  · rw [release_free hl ht hr hpos] at h; cases h; exact ⟨hpos, rfl⟩

/-- Releasing a unit that a waiting thread `w` is handed. -/
theorem release_handoff (hl : l.Shape T R) (ht : tid < T) (hr : rid < R) {w : Nat} (hw : w < T)
    (halloc : 0 < entry l.allocation tid rid) (hneed : 0 < entry l.need w rid) :
    l.release tid rid w = .ok (l.handoff tid rid w) := by
  have hr' : rid < l.available.length := hl.available ▸ hr
  have hpos : 0 < vec (l.available.set rid (vec l.available rid + 1)) rid := by
    simp [vec_set _ _ hr']
  simp only [release, modifyAt_vec _ hr', modifyEntry_sub hl.allocation ht hr halloc, ok_bind,
    show ((w : Int) ≠ -1) = True by simp, if_true, modifyAt_sub (by simpa using hr') hpos,
    Int.toNat_ofNat, modifyEntry_pure (hl.allocation.setEntry _) hw hr,
    modifyEntry_sub hl.need hw hr hneed]
  rfl

/-! ### Creating a resource -/

theorem vec_append_singleton {v : List Nat} {R : Nat} (h : v.length = R) (c j : Nat) :
    vec (v ++ [c]) j = if j = R then c else vec v j := by
  subst h
  rcases Nat.lt_trichotomy j v.length with hj | rfl | hj
  · simp [vec, hj, Nat.ne_of_lt hj, List.getD_eq_getElem?_getD, List.getElem?_append_left hj]
  · simp [vec]
  · simp [vec, Nat.ne_of_gt hj, List.getD_eq_getElem?_getD,
      List.getElem?_eq_none (show (v ++ [c]).length ≤ j by simp; omega),
      List.getElem?_eq_none (Nat.le_of_lt hj)]

theorem entry_map_append {M : List (List Nat)} (hM : Rect T R M) (t j : Nat) :
    entry (M.map (· ++ [0])) t j = if j = R then 0 else entry M t j := by
  by_cases ht : t < T
  · have ht' : t < M.length := hM.1 ▸ ht
    have hrow : (M.map (· ++ [0])).getD t [] = M.getD t [] ++ [0] := by
      rw [List.getD_eq_getElem _ _ (by simpa using ht'), List.getElem_map,
        List.getD_eq_getElem _ _ ht']
    rw [entry_eq_vec, hrow, vec_append_singleton (hM.row_length ht)]
    rfl
  · have ht' : M.length ≤ t := hM.1 ▸ Nat.le_of_not_lt ht
    simp [entry, List.getD_eq_getElem?_getD, List.getElem?_eq_none ht',
      List.getElem?_eq_none (by simpa using ht')]

theorem Shape.pushColumn (hl : l.Shape T R) (count : Nat) : (l.pushColumn count).Shape T (R + 1) :=
  ⟨by simp [Ledger.pushColumn, hl.available], hl.allocation.map_append, hl.need.map_append⟩

/-- **With no empty slot**, the primitive is pushed with a column of `count` free units, held
and needed by no thread, and every other column is unchanged. -/
theorem create_of_full {α : Type} {list : List (Option α)} (h : freeSlot list = none)
    (prim : α) (count : Nat) :
    l.create list prim count = .ok (list.length, list ++ [some prim], l.pushColumn count) := by
  simp only [create, h]; rfl

/-- **With an empty slot at `id`**, the slot is filled in place but `Vec::insert` adds a
column at `id`: the ledger gains a column the slot list does not, and the columns from `id`
on move one place up. -/
theorem create_reuse {α : Type} {list : List (Option α)} (hl : l.Shape T R)
    (hlen : list.length = R) {id : Nat} (hslot : freeSlot list = some id) (prim : α)
    (count : Nat) :
    ∃ list' l', l.create list prim count = .ok (id, list', l') ∧ list'.length = R ∧
      l'.Shape T (R + 1) ∧ vec l'.available id = count ∧
      ∀ j, id ≤ j → vec l'.available (j + 1) = vec l.available j := by
  obtain ⟨hid, -⟩ := List.findIdx?_eq_some_iff_getElem.mp hslot
  have hR : id ≤ R := hlen ▸ hid.le
  have hrow : ∀ {M : List (List Nat)}, Rect T R M →
      M.mapM (fun row => vecInsert row id 0) = .ok (M.map (·.insertIdx id 0)) := fun hM =>
    mapM_ok fun row hrow => vecInsert_of_le 0 ((hM.2 row hrow).symm ▸ hR)
  have hrect : ∀ {M : List (List Nat)}, Rect T R M → Rect T (R + 1) (M.map (·.insertIdx id 0)) :=
    fun hM => ⟨by simp [hM.1], fun row hrow => by
      obtain ⟨r, hr, rfl⟩ := List.mem_map.mp hrow
      rw [List.length_insertIdx _ _ ((hM.2 r hr).symm ▸ hR), hM.2 r hr]⟩
  simp only [create, hslot, modifyAt_pure (fun _ => some prim) hid, ok_bind,
    vecInsert_of_le count (hl.available.symm ▸ hR), hrow hl.allocation, hrow hl.need]
  refine ⟨_, _, rfl, by simp [hlen], ⟨?_, hrect hl.allocation, hrect hl.need⟩, ?_, fun j hj => ?_⟩
  · rw [List.length_insertIdx _ _ (hl.available.symm ▸ hR), hl.available]
  · have hR' : id ≤ l.available.length := hl.available.symm ▸ hR
    rw [vec, List.getD_eq_getElem _ _ (by rw [List.length_insertIdx _ _ hR']; omega),
      List.getElem_insertIdx_self _ _ _ hR']
  · obtain ⟨k, rfl⟩ := Nat.exists_eq_add_of_le hj
    dsimp only
    have hlen' : (l.available.insertIdx id count).length = l.available.length + 1 :=
      List.length_insertIdx _ _ (hl.available.symm ▸ hR)
    by_cases hk : id + k < l.available.length
    · rw [vec, vec, List.getD_eq_getElem _ _ hk, List.getD_eq_getElem _ _ (by omega)]
      exact List.getElem_insertIdx_add_succ _ _ _ _ hk
    · simp [vec, List.getD_eq_getElem?_getD, List.getElem?_eq_none (Nat.le_of_not_lt hk),
        List.getElem?_eq_none (show (l.available.insertIdx id count).length ≤ id + k + 1 by omega)]

end Specs

end Ledger

end Rcore
