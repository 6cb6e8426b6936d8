import Rcore.Basic

/-!
# `sys_waitpid` and a process's children

`sys_waitpid(pid, exit_code_ptr)` looks in the caller's `children` for one that `pid` names
(`pid == -1` names any).  With none it returns `-1`; otherwise it takes the first such child
that is a zombie, removes it from the list, writes its exit code and returns its pid, and with
no zombie among them it returns `-2`.  A child joins the list by `fork` and becomes a zombie with
its exit code by `exit`; both are outside src/ and modelled from the spec (§3, §6), with the pid
allocator handing out a pid no child of the caller has.

The `Family` of one parent records, as ghosts, every exit status its children produced and
every status `sys_waitpid` returned.

* `sysWaitpid_spec` — the three answers of `sys_waitpid`, and that it never panics.
* `Family.step_inv` — each fork, exit and wait keeps the children's pids distinct and every exit
  status either returned once or still held by a zombie child.
* `exit_status_conserved` — so in every reachable family no exit status is lost and none is
  returned twice or invented.
* `waitpid_reaps_exited` — a status `sys_waitpid` writes was produced by an exit, and no child
  left has its pid.
-/

set_option autoImplicit false

namespace Rcore

/-- The fields of a child's `TaskControlBlock` that `sys_waitpid` reads. -/
structure Child where
  pid : Nat
  isZombie : Bool
  exitCode : Int
  deriving DecidableEq, Repr

/-- `pid as usize` for an `isize` on a 64-bit target. -/
def asUsize (pid : Int) : Nat := if 0 ≤ pid then pid.toNat else (pid + 2 ^ 64).toNat

/-- The test of lines 85 and 90: `pid == -1 || pid as usize == p.getpid()`. -/
def waitsFor (pid : Int) (c : Child) : Bool := pid == -1 || asUsize pid == c.pid

/-- Lines 77-109 of `sys_waitpid` on the caller's `children`: the return value, the children
afterwards and the exit code written to `exit_code_ptr`, if any.  The `find` over
`iter().enumerate()` is `findIdx?`. -/
def sysWaitpid (children : List Child) (pid : Int) :
    Except Panic (Int × List Child × Option Int) :=
  if !children.any (waitsFor pid) then pure (-1, children, none)
  else
    match children.findIdx? (fun c => c.isZombie && waitsFor pid c) with
    | some idx => do
      let child ← index children idx
      pure (child.pid, children.eraseIdx idx, some child.exitCode)
    | none => pure (-2, children, none)

/-! ## What `sys_waitpid` answers -/

/-- **The three answers of `sys_waitpid`**: `-1` when no child is named, `-2` when every named
child is alive, and otherwise the pid and exit code of the first named zombie, which is removed;
it never panics. -/
theorem sysWaitpid_spec (children : List Child) (pid : Int) :
    (children.all (fun c => !waitsFor pid c) ∧
        sysWaitpid children pid = .ok (-1, children, none)) ∨
      ((∃ c ∈ children, waitsFor pid c) ∧
        (∀ c ∈ children, waitsFor pid c → c.isZombie = false) ∧
        sysWaitpid children pid = .ok (-2, children, none)) ∨
      ∃ i c, children[i]? = some c ∧ c.isZombie ∧ waitsFor pid c ∧
        (∀ j < i, ∀ d, children[j]? = some d → ¬(d.isZombie ∧ waitsFor pid d)) ∧
        sysWaitpid children pid = .ok (c.pid, children.eraseIdx i, some c.exitCode) := by
  by_cases hany : children.any (waitsFor pid) = true
  · cases hf : children.findIdx? (fun c => c.isZombie && waitsFor pid c) with
    | none =>
      refine .inr (.inl ⟨List.any_eq_true.mp hany, fun c hc hw => ?_, ?_⟩)
      · simpa [hw] using List.findIdx?_eq_none_iff.mp hf c hc
      · simp only [sysWaitpid, hany, hf, Bool.not_true, Bool.false_eq_true, ↓reduceIte]; rfl
    | some i =>
      obtain ⟨hi, hpi, hbefore⟩ := List.findIdx?_eq_some_iff_getElem.mp hf
      simp only [Bool.and_eq_true] at hpi hbefore
      refine .inr (.inr ⟨i, children[i], List.getElem?_eq_getElem hi, hpi.1, hpi.2,
        fun j hj d hd => ?_, ?_⟩)
      · obtain ⟨hj', rfl⟩ := List.getElem?_eq_some_iff.mp hd
        exact hbefore j hj
      · simp only [sysWaitpid, hany, hf, Bool.not_true, Bool.false_eq_true, ↓reduceIte,
          index_of_lt hi]; rfl
  · refine .inl ⟨by simpa using hany, ?_⟩
    simp [sysWaitpid, hany]; rfl

/-- What a successful `sys_waitpid` does to the children: nothing, or it removes a zombie and
returns its pid and exit code. -/
theorem sysWaitpid_ok {children children' : List Child} {pid ret : Int} {out : Option Int}
    (h : sysWaitpid children pid = .ok (ret, children', out)) :
    (children' = children ∧ out = none) ∨
      ∃ i c, children[i]? = some c ∧ c.isZombie ∧ ret = c.pid ∧
        children' = children.eraseIdx i ∧ out = some c.exitCode := by
  rcases sysWaitpid_spec children pid with
    ⟨-, h'⟩ | ⟨-, -, h'⟩ | ⟨i, c, hc, hz, -, -, h'⟩
  all_goals rw [h'] at h; cases h
  · exact .inl ⟨rfl, rfl⟩
  · exact .inl ⟨rfl, rfl⟩
  · exact .inr ⟨i, c, hc, hz, rfl, rfl, rfl⟩

/-! ## The zombies' exit statuses -/

/-- The `(pid, exit code)` of every zombie child, in list order. -/
def zombieStatus (children : List Child) : List (Nat × Int) :=
  children.filterMap fun c => if c.isZombie then some (c.pid, c.exitCode) else none

theorem mem_zombieStatus {children : List Child} {c : Child} (hc : c ∈ children)
    (hz : c.isZombie = true) : (c.pid, c.exitCode) ∈ zombieStatus children :=
  List.mem_filterMap.mpr ⟨c, hc, by simp [hz]⟩

theorem zombieStatus_append_live (children : List Child) {c : Child} (hc : c.isZombie = false) :
    zombieStatus (children ++ [c]) = zombieStatus children := by
  simp [zombieStatus, List.filterMap_append, hc]

/-- A live child that becomes a zombie adds its status. -/
theorem zombieStatus_set {c c' : Child} (hc : c.isZombie = false) (hc' : c'.isZombie = true) :
    ∀ {l : List Child} {i : Nat}, l[i]? = some c →
      (zombieStatus (l.set i c')).Perm (zombieStatus l ++ [(c'.pid, c'.exitCode)])
  | [], _, h => by simp at h
  | a :: l, 0, h => by
    obtain rfl : a = c := Option.some.inj (List.getElem?_cons_zero.symm.trans h)
    simp only [List.set_cons_zero, zombieStatus, List.filterMap_cons, hc, hc', if_true,
      Bool.false_eq_true, if_false]
    exact (List.perm_append_singleton _ _).symm
  | a :: l, i + 1, h => by
    have ih := zombieStatus_set hc hc' (List.getElem?_cons_succ.symm.trans h)
    cases ha : a.isZombie <;>
      simp only [zombieStatus, List.set_cons_succ, List.filterMap_cons, ha, ↓reduceIte,
        Bool.false_eq_true, List.cons_append] at ih ⊢
    · exact ih
    · exact ih.cons _

/-- A zombie removed from the list takes its status with it. -/
theorem zombieStatus_eraseIdx {c : Child} (hc : c.isZombie = true) :
    ∀ {l : List Child} {i : Nat}, l[i]? = some c →
      (zombieStatus l).Perm (zombieStatus (l.eraseIdx i) ++ [(c.pid, c.exitCode)])
  | [], _, h => by simp at h
  | a :: l, 0, h => by
    obtain rfl : a = c := Option.some.inj (List.getElem?_cons_zero.symm.trans h)
    simp only [List.eraseIdx_cons_zero, zombieStatus, List.filterMap_cons, hc, if_true]
    exact (List.perm_append_singleton _ _).symm
  | a :: l, i + 1, h => by
    have ih := zombieStatus_eraseIdx hc (List.getElem?_cons_succ.symm.trans h)
    cases ha : a.isZombie <;>
      simp only [zombieStatus, List.eraseIdx_cons_succ, List.filterMap_cons, ha, ↓reduceIte,
        Bool.false_eq_true, List.cons_append] at ih ⊢
    · exact ih
    · exact ih.cons _

/-! ## A parent and its children over time -/

/-- One parent's children, with every exit status produced and every status `sys_waitpid`
returned so far, as ghosts. -/
structure Family where
  children : List Child
  exits : List (Nat × Int)
  reaped : List (Nat × Int)

namespace Family

/-- One step: a fork, a child's exit, or the parent's `sys_waitpid`. -/
inductive Step : Family → Family → Prop
  /-- Modelled from the spec: `fork` adds a live child whose pid no child has. -/
  | fork (f : Family) (pid : Nat) (hfresh : ∀ c ∈ f.children, c.pid ≠ pid) :
      Step f { f with children := f.children ++ [⟨pid, false, 0⟩] }
  /-- Modelled from the spec: `exit(code)` makes a live child a zombie with its exit code. -/
  | exit (f : Family) {i : Nat} {c : Child} (hc : f.children[i]? = some c)
      (hlive : c.isZombie = false) (code : Int) :
      Step f { f with children := f.children.set i { c with isZombie := true, exitCode := code },
                      exits := f.exits ++ [(c.pid, code)] }
  | wait (f : Family) (pid : Int) {ret : Int} {children : List Child} {out : Option Int}
      (h : sysWaitpid f.children pid = .ok (ret, children, out)) :
      Step f { f with children := children,
                      reaped := f.reaped ++ (out.map fun code => (ret.toNat, code)).toList }

/-- A parent with no child yet. -/
def init : Family := ⟨[], [], []⟩

/-- Reachable from `init`. -/
def Reachable : Family → Prop := Relation.ReflTransGen Step init

/-- The children's pids are distinct, and every exit status is either returned once or held by
a zombie child. -/
structure Inv (f : Family) : Prop where
  nodup : (f.children.map (·.pid)).Nodup
  conserved : f.exits.Perm (f.reaped ++ zombieStatus f.children)

theorem inv_init : init.Inv := ⟨List.nodup_nil, List.Perm.refl _⟩

/-- **Each step keeps the invariant.** -/
theorem step_inv {f f' : Family} (h : Step f f') (hf : f.Inv) : f'.Inv := by
  cases h with
  | fork pid hfresh =>
    refine ⟨?_, by simpa [zombieStatus_append_live] using hf.conserved⟩
    rw [List.map_append]
    exact hf.nodup.append (List.nodup_singleton _) (List.disjoint_singleton.mpr fun hm => by
      obtain ⟨c, hc, hpid⟩ := List.mem_map.mp hm
      exact hfresh c hc hpid)
  | @exit i c hc hlive code =>
    refine ⟨?_, ?_⟩
    · have hmap : (f.children.set i { c with isZombie := true, exitCode := code }).map (·.pid) =
          f.children.map (·.pid) := by
        refine List.ext_getElem? fun j => ?_
        by_cases hj : i = j
        · subst hj
          obtain ⟨hi, rfl⟩ := List.getElem?_eq_some_iff.mp hc
          simp [List.getElem?_set, hi]
        · simp [List.getElem?_set_ne hj]
      rw [hmap]; exact hf.nodup
    · calc List.Perm (f.exits ++ [(c.pid, code)])
            ((f.reaped ++ zombieStatus f.children) ++ [(c.pid, code)]) :=
            hf.conserved.append_right _
        _ = f.reaped ++ (zombieStatus f.children ++ [(c.pid, code)]) := List.append_assoc _ _ _
        List.Perm _ (f.reaped ++ zombieStatus
              (f.children.set i { c with isZombie := true, exitCode := code })) :=
            (@zombieStatus_set c { c with isZombie := true, exitCode := code } hlive rfl _ _
              hc).symm.append_left _
  | wait pid hw =>
    rcases sysWaitpid_ok hw with ⟨rfl, rfl⟩ | ⟨i, c, hc, hz, rfl, rfl, rfl⟩
    · simpa using hf
    · refine ⟨((List.eraseIdx_sublist _ i).map _).nodup hf.nodup, ?_⟩
      calc List.Perm f.exits (f.reaped ++ zombieStatus f.children) := hf.conserved
        List.Perm _ (f.reaped ++ ([(c.pid, c.exitCode)] ++ zombieStatus (f.children.eraseIdx i))) :=
            ((zombieStatus_eraseIdx hz hc).trans List.perm_append_comm).append_left _
        _ = _ := by simp

theorem Reachable.inv {f : Family} (h : f.Reachable) : f.Inv := by
  induction h with
  | refl => exact inv_init
  | tail _ hst ih => exact step_inv hst ih

end Family

/-! ## Every reachable family -/

/-- **No exit status is lost, returned twice or invented.**  In every family reachable by
forks, exits and `sys_waitpid` calls, the children's pids are distinct, and the exit statuses
produced so far are, up to order, those `sys_waitpid` returned together with those the zombie
children still hold. -/
theorem exit_status_conserved {f : Family} (h : f.Reachable) :
    (f.children.map (·.pid)).Nodup ∧ f.exits.Perm (f.reaped ++ zombieStatus f.children) :=
  ⟨h.inv.nodup, h.inv.conserved⟩

/-- Two forks and the first child's exit with code 7. -/
theorem Family.reachable_fork_fork_exit :
    Family.Reachable ⟨[⟨1, true, 7⟩, ⟨2, false, 0⟩], [(1, 7)], []⟩ :=
  .tail (.tail (.single (.fork Family.init 1 (by decide))) (.fork _ 2 (by decide)))
    (@Family.Step.exit ⟨[⟨1, false, 0⟩, ⟨2, false, 0⟩], [], []⟩ 0 ⟨1, false, 0⟩
      rfl rfl 7)

/-- The parent then reaps the exited child with `sys_waitpid(-1)`. -/
theorem exit_status_conserved_after_wait :
    ∃ f : Family, f.Reachable ∧ f.reaped = [(1, 7)] ∧
      (f.children.map (·.pid)).Nodup ∧ f.exits.Perm (f.reaped ++ zombieStatus f.children) := by
  have hr : Family.Reachable ⟨[⟨2, false, 0⟩], [(1, 7)], [(1, 7)]⟩ :=
    .tail Family.reachable_fork_fork_exit
      (@Family.Step.wait _ (-1) 1 [⟨2, false, 0⟩] (some 7) (by rfl))
  exact ⟨_, hr, rfl, exit_status_conserved hr⟩

/-- **A status `sys_waitpid` writes was produced by an exit, and its child is gone.**  In a
reachable family, a call that writes an exit code returns a non-negative pid, the pair of that
pid and code was produced by an exit, and no child left has the pid, so the same child is not
reaped twice. -/
theorem waitpid_reaps_exited {f : Family} (hf : f.Reachable) {pid ret code : Int}
    {children : List Child} (h : sysWaitpid f.children pid = .ok (ret, children, some code)) :
    0 ≤ ret ∧ (ret.toNat, code) ∈ f.exits ∧ ∀ c ∈ children, c.pid ≠ ret.toNat := by
  obtain ⟨hnodup, hcons⟩ := hf.inv
  rcases sysWaitpid_ok h with ⟨-, ⟨⟩⟩ | ⟨i, c, hc, hz, rfl, rfl, ⟨⟩⟩
  refine ⟨Int.natCast_nonneg _, ?_, fun d hd => key_ne_of_mem_eraseIdx hnodup hc hd⟩
  exact hcons.mem_iff.mpr (List.mem_append_right _ (mem_zombieStatus (List.getElem?_mem hc) hz))

/-- `sys_waitpid(-1)` after two forks and the first child's exit reaps that child. -/
theorem waitpid_reaps_exited_first_child :
    sysWaitpid [⟨1, true, 7⟩, ⟨2, false, 0⟩] (-1) = .ok (1, [⟨2, false, 0⟩], some 7) ∧
      (0 ≤ (1 : Int) ∧ ((1 : Int).toNat, (7 : Int)) ∈ [((1 : Nat), (7 : Int))] ∧
        ∀ c ∈ [(⟨2, false, 0⟩ : Child)], c.pid ≠ (1 : Int).toNat) :=
  ⟨rfl, @waitpid_reaps_exited _ Family.reachable_fork_fork_exit (-1) 1 7 _ (by rfl)⟩

end Rcore
