import Mathlib

/-!
# The Rust operations the kernel code relies on

A `usize` is a natural number.  The operations of `alloc::vec::Vec` and `Option` that the
syscalls use are total functions into `Except Panic`: indexing past the end, `unwrap` of
`None`, a subtraction below zero, an addition past `usize::MAX`, `Vec::insert` past the end
and `copy_from_slice` between slices of different lengths are the panics of the Rust code.
An overflowing subtraction or addition panics in a debug build and wraps in a release build;
in both builds it is the point at which a count stops meaning what the code uses it for.

A user buffer is the list of byte slices `translated_byte_buffer` cuts it into at page
boundaries (mm/ is outside src/); a syscall that copies a value out writes the whole value
into each slice, so only a buffer that lies within one page takes the copy.

Every operation has its spec lemmas next to it, so that the syscall models are unfolded
down to `List` operations and never to these definitions.
-/

set_option autoImplicit false

namespace Rcore

/-- The panics the modelled code can raise. -/
inductive Panic where
  | indexOutOfBounds
  | unwrapNone
  | subtractOverflow
  | addOverflow
  | insertionIndex
  | divideByZero
  | sliceLength
  deriving DecidableEq, Repr

/-- `usize::MAX` on the 64-bit RISC-V target. -/
def usizeMax : Nat := 0xffffffffffffffff

variable {α : Type}

/-- `v[i]` on a `Vec`. -/
def index (v : List α) (i : Nat) : Except Panic α :=
  match v[i]? with
  | some x => .ok x
  | none => .error .indexOutOfBounds

/-- `Option::unwrap`. -/
def unwrap : Option α → Except Panic α
  | some x => .ok x
  | none => .error .unwrapNone

/-- `a - b` on `usize`. -/
def usizeSub (a b : Nat) : Except Panic Nat :=
  if b ≤ a then .ok (a - b) else .error .subtractOverflow

/-- `a + b` on `usize`. -/
def usizeAdd (a b : Nat) : Except Panic Nat :=
  if a + b ≤ usizeMax then .ok (a + b) else .error .addOverflow

/-- The byte slices of a user buffer. -/
abbrev UserBuffer := List (List UInt8)

/-- `for dst in dsts { dst.copy_from_slice(&src) }` with `src` of `size` bytes:
`copy_from_slice` panics (`mismatch`) on the first slice of another length. -/
def copyToSlices {ε : Type} (mismatch : ε) (size : Nat) (dsts : UserBuffer) : Except ε Unit :=
  dsts.forM fun dst => if dst.length = size then pure () else throw mismatch

/-- `v[i] = f(v[i])`, the shape of `v[i] += 1` and `v[i] -= 1`. -/
def modifyAt (v : List α) (i : Nat) (f : α → Except Panic α) : Except Panic (List α) := do
  let x ← index v i
  let y ← f x
  pure (v.set i y)

/-- `Vec::insert(index, element)`. -/
def vecInsert (v : List α) (i : Nat) (x : α) : Except Panic (List α) :=
  if i ≤ v.length then .ok (v.insertIdx i x) else .error .insertionIndex

/-! ## Spec lemmas -/

@[simp] theorem index_eq_ok {v : List α} {i : Nat} {x : α} : index v i = .ok x ↔ v[i]? = some x := by
  cases h : v[i]? <;> simp [index, h]

theorem index_of_lt {v : List α} {i : Nat} (h : i < v.length) : index v i = .ok v[i] := by
  simp [h]

theorem index_of_le {v : List α} {i : Nat} (h : v.length ≤ i) :
    index v i = .error .indexOutOfBounds := by
  simp [index, List.getElem?_eq_none h]

@[simp] theorem ok_bind {ε β γ : Type} (x : β) (f : β → Except ε γ) :
    (Except.ok x >>= f) = f x := rfl

@[simp] theorem error_bind {ε β γ : Type} (e : ε) (f : β → Except ε γ) :
    (Except.error e >>= f) = .error e := rfl

theorem bind_eq_ok {ε β γ : Type} {x : Except ε β} {f : β → Except ε γ} {r : γ} :
    x >>= f = .ok r ↔ ∃ a, x = .ok a ∧ f a = .ok r := by
  cases x <;> simp

theorem bind_eq_error {ε β γ : Type} {x : Except ε β} {f : β → Except ε γ} {e : ε} :
    x >>= f = .error e ↔ x = .error e ∨ ∃ a, x = .ok a ∧ f a = .error e := by
  cases x <;> simp

theorem index_eq_error {v : List α} {i : Nat} {e : Panic} (h : index v i = .error e) :
    e = .indexOutOfBounds := by
  unfold index at h; split at h <;> cases h; rfl

@[simp] theorem unwrap_some (x : α) : unwrap (some x) = .ok x := rfl
@[simp] theorem unwrap_eq_ok {o : Option α} {x : α} : unwrap o = .ok x ↔ o = some x := by
  cases o <;> simp [unwrap]

@[simp] theorem unwrap_none : unwrap (none : Option α) = .error .unwrapNone := rfl

theorem unwrap_eq_error {o : Option α} {e : Panic} (h : unwrap o = .error e) : e = .unwrapNone := by
  cases o <;> cases h; rfl

@[simp] theorem usizeSub_eq_ok {a b c : Nat} : usizeSub a b = .ok c ↔ b ≤ a ∧ c = a - b := by
  unfold usizeSub; split <;> simp_all [eq_comm]

theorem usizeSub_of_lt {a b : Nat} (h : a < b) : usizeSub a b = .error .subtractOverflow := by
  simp [usizeSub, Nat.not_le.mpr h]

theorem usizeAdd_of_le {a b : Nat} (h : a + b ≤ usizeMax) : usizeAdd a b = .ok (a + b) :=
  if_pos h

theorem usizeAdd_of_lt {a b : Nat} (h : usizeMax < a + b) : usizeAdd a b = .error .addOverflow :=
  if_neg (Nat.not_le.mpr h)

/-- The copy succeeds exactly when every slice has the value's size. -/
theorem copyToSlices_eq {ε : Type} (mismatch : ε) (size : Nat) :
    ∀ dsts : UserBuffer, copyToSlices mismatch size dsts =
      if ∀ dst ∈ dsts, dst.length = size then .ok () else .error mismatch
  | [] => rfl
  | dst :: dsts => by
    have ih := copyToSlices_eq mismatch size dsts
    unfold copyToSlices at ih ⊢
    by_cases hd : dst.length = size
    · simp [List.forM, hd, ih]
    · simp [List.forM, hd]; rfl

theorem modifyAt_of_lt {v : List α} {i : Nat} (f : α → Except Panic α) (h : i < v.length) :
    modifyAt v i f = (f v[i]).map (v.set i) := by
  simp only [modifyAt, index_of_lt h, bind, Except.bind]
  cases f v[i] <;> rfl

theorem modifyAt_pure {v : List α} {i : Nat} (f : α → α) (h : i < v.length) :
    modifyAt v i (fun x => pure (f x)) = .ok (v.set i (f v[i])) := by
  rw [modifyAt_of_lt _ h]; rfl

theorem modifyAt_length {v v' : List α} {i : Nat} {f : α → Except Panic α}
    (h : modifyAt v i f = .ok v') : v'.length = v.length := by
  obtain ⟨x, -, h⟩ := bind_eq_ok.mp h
  obtain ⟨y, -, h⟩ := bind_eq_ok.mp h
  cases h
  exact List.length_set _ _ _

theorem modifyAt_of_le {v : List α} {i : Nat} (f : α → Except Panic α) (h : v.length ≤ i) :
    modifyAt v i f = .error .indexOutOfBounds := by
  simp [modifyAt, index_of_le h]

/-- A `for` loop in `Except Panic` whose body succeeds on states satisfying `P`, and keeps
`P`, is the pure loop of its results. -/
theorem foldlM_ok {β γ : Type} (P : β → Prop) {f : β → γ → Except Panic β} {g : β → γ → β} :
    ∀ {l : List γ} {b : β}, (∀ b, ∀ x ∈ l, P b → f b x = .ok (g b x) ∧ P (g b x)) → P b →
      l.foldlM f b = .ok (l.foldl g b)
  | [], _, _, _ => rfl
  | x :: l, b, hf, hb => by
    obtain ⟨hx, hP⟩ := hf b x (List.mem_cons_self _ _) hb
    rw [List.foldlM_cons, hx, List.foldl_cons]
    exact foldlM_ok P (fun b y hy => hf b y (List.mem_cons_of_mem _ hy)) hP

/-- A `map` in `Except Panic` whose function succeeds on every element. -/
theorem mapM_ok {β γ : Type} {f : β → Except Panic γ} {g : β → γ} :
    ∀ {l : List β}, (∀ x ∈ l, f x = .ok (g x)) → l.mapM f = .ok (l.map g)
  | [], _ => rfl
  | x :: l, hf => by
    rw [List.mapM_cons, hf x (List.mem_cons_self _ _), ok_bind,
      mapM_ok fun y hy => hf y (List.mem_cons_of_mem _ hy)]
    rfl

theorem vecInsert_of_le {v : List α} {i : Nat} (x : α) (h : i ≤ v.length) :
    vecInsert v i x = .ok (v.insertIdx i x) := by
  simp [vecInsert, h]

/-- With distinct keys, no element left after removing position `k` shares the key of the one
that was there. -/
theorem key_ne_of_mem_eraseIdx {β : Type} {key : α → β} {l : List α} {k : Nat} {a u : α}
    (hnodup : (l.map key).Nodup) (hk : l[k]? = some a) (hu : u ∈ l.eraseIdx k) :
    key u ≠ key a := fun hkey => by
  obtain ⟨i, hik, hi⟩ := List.mem_eraseIdx_iff_getElem?.mp hu
  refine hik (List.getElem?_inj ?_ hnodup ?_)
  · simpa using (List.getElem?_eq_some_iff.mp hi).1
  · simp [hi, hk, hkey]

/-! ## Code that never underflows

`NoUnderflow x`: running `x` does not panic on a subtraction below zero.  It is closed under
`bind`, so code that subtracts nowhere has it by its shape. -/

/-- `x` does not panic on a `usize` subtraction below zero. -/
def NoUnderflow {β : Type} (x : Except Panic β) : Prop := x ≠ .error .subtractOverflow

theorem noUnderflow_ok {β : Type} (b : β) : NoUnderflow (Except.ok b : Except Panic β) :=
  fun h => Except.noConfusion h

theorem NoUnderflow.bind {β γ : Type} {x : Except Panic β} {f : β → Except Panic γ}
    (hx : NoUnderflow x) (hf : ∀ b, NoUnderflow (f b)) : NoUnderflow (x >>= f) := by
  cases x with
  | error e => exact fun h => hx (congrArg Except.error (Except.error.inj h))
  | ok b => exact hf b

theorem noUnderflow_usizeAdd (a b : Nat) : NoUnderflow (usizeAdd a b) := by
  unfold usizeAdd; split <;> simp [NoUnderflow]

theorem noUnderflow_index (v : List α) (i : Nat) : NoUnderflow (index v i) := by
  unfold index; split <;> simp [NoUnderflow]

theorem noUnderflow_unwrap (o : Option α) : NoUnderflow (unwrap o) := by
  cases o <;> simp [NoUnderflow, unwrap]

theorem noUnderflow_modifyAt {v : List α} {i : Nat} {f : α → Except Panic α}
    (hf : ∀ x, NoUnderflow (f x)) : NoUnderflow (modifyAt v i f) :=
  (noUnderflow_index v i).bind fun x => (hf x).bind fun _ => noUnderflow_ok _

theorem noUnderflow_foldlM {β γ : Type} {f : β → γ → Except Panic β}
    (hf : ∀ b x, NoUnderflow (f b x)) : ∀ (l : List γ) (b : β), NoUnderflow (l.foldlM f b)
  | [], _ => noUnderflow_ok _
  | x :: l, b => by
    rw [List.foldlM_cons]; exact (hf b x).bind fun b' => noUnderflow_foldlM hf l b'

end Rcore
