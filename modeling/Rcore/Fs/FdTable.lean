import Rcore.Fs.File

/-!
# The fd table and the file syscalls

A task's `fd_table` is a list of slots, each empty or holding a `File`.  `sys_write`,
`sys_read`, `sys_close` and `sys_fstat` (syscall/fs.rs) check that the fd is in range and that
its slot holds a file, and return `-1` otherwise; `sys_open` puts the file `open_file` opens
into the slot `alloc_fd` gives, and `sys_fstat` copies the 80-byte `Stat` into each slice of
the user's buffer.  `alloc_fd` is in task/ (outside src/), so it is a parameter,
and the results that need it assume it is `AllocSound`: the slot it gives is in range and was
free, and it empties or fills no slot.  A run is a sequence of calls, each with what easy-fs
answers at its time.

* `exec_closed` — a call on an fd that is out of range or closed returns `-1` and changes
  nothing.
* `fd_syscall_panics` — the panics of the file syscalls are exactly `FdPanic`: reading
  `Stdout`, reading `Stdin` into a buffer not one byte long, writing `Stdin`, writing `Stdout`
  bytes that are not UTF-8, a `write_at` that takes less than a slice, `sys_open` with a bit no
  flag declares, and `sys_fstat` of an open fd into a buffer that crosses a page.
* `closed_fd_stays_closed` — along any run, a closed fd stays closed, and every call on it
  returns `-1`, until a `sys_open` returns it.
* `offset_counts_bytes` — along any run that does not close it, an open `OSInode`'s offset
  moves by exactly the bytes `sys_read` and `sys_write` report through its fd.
-/

set_option autoImplicit false

namespace Rcore

/-- A task's `fd_table`. -/
abbrev FdTable := List (Option File)

/-- The file in slot `fd`, if `fd` is in range and the slot holds one. -/
def fileAt (fdTable : FdTable) (fd : Nat) : Option File := fdTable[fd]?.join

theorem fileAt_set_self {t : FdTable} {fd : Nat} (h : fd < t.length) (o : Option File) :
    fileAt (t.set fd o) fd = o := by
  simp [fileAt, h]

theorem fileAt_set_ne (t : FdTable) {fd i : Nat} (h : fd ≠ i) (o : Option File) :
    fileAt (t.set fd o) i = fileAt t i := by
  simp [fileAt, List.getElem?_set_ne h]

theorem lt_of_fileAt {t : FdTable} {fd : Nat} {f : File} (h : fileAt t fd = some f) :
    fd < t.length := by
  by_contra hle
  simp [fileAt, List.getElem?_eq_none (Nat.le_of_not_lt hle)] at h

/-! ## The syscalls -/

/-- The check `sys_write`, `sys_read`, `sys_close` and `sys_fstat` open with: `closed` for an
fd out of range or whose slot is empty, and otherwise `onFile` of the file in the slot. -/
def withFile {β : Type} (fdTable : FdTable) (fd : Nat) (closed : β) (onFile : File → β) : β :=
  if fdTable.length ≤ fd then closed
  else
    match fdTable[fd]? with
    | some (some file) => onFile file
    | _ => closed

/-- The body `sys_write` and `sys_read` share: what the file's operation returns, with the
file after it back in the slot (the slot and the clone share one `OSInode`, whose offset
moves), and `-1` for a bad fd. -/
def fdTransfer (op : File → Except FilePanic (Nat × File)) (fdTable : FdTable) (fd : Nat) :
    Except FilePanic (Int × FdTable) :=
  withFile fdTable fd (pure (-1, fdTable)) fun file => do
    let (n, file) ← op file
    pure (n, fdTable.set fd (some file))

/-- `sys_write` (syscall/fs.rs lines 14-31). -/
def sysWrite (disk : Disk) (fdTable : FdTable) (fd : Nat) (buf : UserBuffer) :
    Except FilePanic (Int × FdTable) :=
  fdTransfer (File.write disk buf) fdTable fd

/-- `sys_read` (lines 33-50). -/
def sysRead (disk : Disk) (fdTable : FdTable) (fd : Nat) (buf : UserBuffer) :
    Except FilePanic (Int × FdTable) :=
  fdTransfer (File.read disk buf) fdTable fd

/-- `sys_open` (lines 52-67): `OpenFlags::from_bits(flags).unwrap()` panics on a bit no flag
declares; a file `open_file` opens goes into the slot `alloc_fd` gives, which is returned, and
with none the result is `-1`. -/
def sysOpen (allocFd : FdTable → Nat × FdTable) (disk : Disk) (fdTable : FdTable)
    (path : String) (flags : UInt32) : Except FilePanic (Int × FdTable) := do
  let flags ← match OpenFlags.fromBits flags with
    | some flags => pure flags
    | none => throw .unwrapNone
  match openFile disk path flags with
  | some inode =>
    let (fd, fdTable) := allocFd fdTable
    if fd < fdTable.length then pure (fd, fdTable.set fd (some inode))
    else throw .indexOutOfBounds
  | none => pure (-1, fdTable)

/-- `sys_close` (lines 69-80): the slot is emptied (`take`) and the result is `0`, and `-1` for
a bad fd. -/
def sysClose (fdTable : FdTable) (fd : Nat) : Int × FdTable :=
  withFile fdTable fd (-1, fdTable) fun _ => (0, fdTable.set fd none)

/-- `size_of::<Stat>()`: the bytes `sys_fstat` transmutes the `Stat` to. -/
def sizeOfStat : Nat := 80

/-- `sys_fstat` (lines 83-109): for an open fd the `Stat` is copied into every slice of the
user's buffer, each of which must take all of it (`copy_from_slice`), and the result is `0`;
`-1` for a bad fd.  The `Stat`'s fields are easy-fs's answers and are left out. -/
def sysFstat (fdTable : FdTable) (fd : Nat) (buf : UserBuffer) : Except FilePanic Int :=
  withFile fdTable fd (pure (-1)) fun _ => do
    copyToSlices .sliceLength sizeOfStat buf
    pure 0

/-- A file syscall with its arguments. -/
inductive FdCall where
  | write (fd : Nat) (buf : UserBuffer)
  | read (fd : Nat) (buf : UserBuffer)
  | openPath (path : String) (flags : UInt32)
  | close (fd : Nat)
  | fstat (fd : Nat) (buf : UserBuffer)
  deriving DecidableEq, Repr

namespace FdCall

/-- The fd a call names; `sys_open` names none. -/
def fd? : FdCall → Option Nat
  | write fd _ | read fd _ | close fd | fstat fd _ => some fd
  | openPath _ _ => none

/-- `sys_read` or `sys_write` on `fd`: the calls that move bytes through it. -/
def moves (fd : Nat) : FdCall → Bool
  | write fd' _ | read fd' _ => fd' == fd
  | _ => false

/-- The call on the table, with what easy-fs answers at its time. -/
def exec (allocFd : FdTable → Nat × FdTable) (disk : Disk) (fdTable : FdTable) :
    FdCall → Except FilePanic (Int × FdTable)
  | write fd buf => sysWrite disk fdTable fd buf
  | read fd buf => sysRead disk fdTable fd buf
  | openPath path flags => sysOpen allocFd disk fdTable path flags
  | close fd => pure (sysClose fdTable fd)
  | fstat fd buf => do
    let r ← sysFstat fdTable fd buf
    pure (r, fdTable)

end FdCall

/-- A run of calls from a table: each call's return value, and the table at the end. -/
def runCalls (allocFd : FdTable → Nat × FdTable) :
    FdTable → List (Disk × FdCall) → Except FilePanic (List Int × FdTable)
  | fdTable, [] => pure ([], fdTable)
  | fdTable, (disk, c) :: cs => do
    let (r, fdTable) ← c.exec allocFd disk fdTable
    let (rs, fdTable) ← runCalls allocFd fdTable cs
    pure (r :: rs, fdTable)

/-- What the proofs need of `alloc_fd` (task/, outside src/): the slot it gives is in range and
was free, and it empties or fills no slot. -/
structure AllocSound (allocFd : FdTable → Nat × FdTable) : Prop where
  inRange : ∀ t, (allocFd t).1 < (allocFd t).2.length
  free : ∀ t, fileAt t (allocFd t).1 = none
  keeps : ∀ t i, fileAt (allocFd t).2 i = fileAt t i

/-- An `alloc_fd` that always opens a new slot at the end of the table. -/
def allocAtEnd (fdTable : FdTable) : Nat × FdTable := (fdTable.length, fdTable ++ [none])

theorem allocAtEnd_sound : AllocSound allocAtEnd where
  inRange t := by simp [allocAtEnd]
  free t := by simp [fileAt, allocAtEnd]
  keeps t i := by
    simp only [fileAt, allocAtEnd]
    rcases Nat.lt_or_ge i t.length with hi | hi
    · rw [List.getElem?_append_left hi]
    · rw [List.getElem?_eq_none hi, List.getElem?_append_right hi]
      rcases Nat.eq_or_lt_of_le hi with rfl | hlt
      · simp
      · simp [List.getElem?_eq_none (by simp; omega : [none].length ≤ i - t.length)]

/-- A disk whose root directory holds `log` at inode 7, whose `read_at` fills every slice and
whose `write_at` takes every slice whole. -/
def logDisk : Disk where
  readAt _ _ slice := slice.length
  writeAt _ _ slice := slice.length
  find name := if name = "log" then some 7 else none
  create _ := none

/-! ## One call -/

section Calls

variable {β : Type} {t t' : FdTable} {fd : Nat} {r : Int}

theorem withFile_closed {closed : β} {onFile : File → β} (h : fileAt t fd = none) :
    withFile t fd closed onFile = closed := by
  unfold withFile
  split
  · rfl
  · split
    · simp_all [fileAt]
    · rfl

theorem withFile_of_some {closed : β} {onFile : File → β} {f : File} (h : fileAt t fd = some f) :
    withFile t fd closed onFile = onFile f := by
  rw [withFile, if_neg (Nat.not_le_of_lt (lt_of_fileAt h)), Option.join_eq_some.mp h]

variable {op : File → Except FilePanic (Nat × File)}

theorem fdTransfer_ok {f : File} (hf : fileAt t fd = some f)
    (h : fdTransfer op t fd = .ok (r, t')) :
    ∃ n f', op f = .ok (n, f') ∧ r = n ∧ t' = t.set fd (some f') := by
  rw [fdTransfer, withFile_of_some hf] at h
  obtain ⟨⟨n, f'⟩, hop, h⟩ := bind_eq_ok.mp h
  cases h
  exact ⟨n, f', hop, rfl, rfl⟩

/-- `sys_write` and `sys_read` leave alone every slot but their fd's. -/
theorem fdTransfer_frame {i : Nat} (hi : fd ≠ i) (h : fdTransfer op t fd = .ok (r, t')) :
    fileAt t' i = fileAt t i := by
  cases hf : fileAt t fd with
  | none => rw [fdTransfer, withFile_closed hf] at h; cases h; rfl
  | some f =>
    obtain ⟨n, f', -, -, rfl⟩ := fdTransfer_ok hf h
    exact fileAt_set_ne _ hi _

/-- `sys_write` and `sys_read` on an open fd leave its file advanced by the bytes they report. -/
theorem fdTransfer_advance {f : File} (hf : fileAt t fd = some f)
    (hop : ∀ {n f'}, op f = .ok (n, f') → f' = f.advance n)
    (h : fdTransfer op t fd = .ok (r, t')) : 0 ≤ r ∧ fileAt t' fd = some (f.advance r.toNat) := by
  obtain ⟨n, f', hn, rfl, rfl⟩ := fdTransfer_ok hf h
  rw [fileAt_set_self (lt_of_fileAt hf), hop hn]
  exact ⟨Int.natCast_nonneg n, rfl⟩

theorem fdTransfer_error {e : FilePanic} (h : fdTransfer op t fd = .error e) :
    ∃ f, fileAt t fd = some f ∧ op f = .error e := by
  cases hf : fileAt t fd with
  | none => rw [fdTransfer, withFile_closed hf] at h; cases h
  | some f =>
    rw [fdTransfer, withFile_of_some hf] at h
    rcases bind_eq_error.mp h with hop | ⟨_, -, h⟩
    · exact ⟨f, rfl, hop⟩
    · cases h

/-- The panic of `sys_fstat`: an open fd, and a slice of the buffer that does not take the whole
`Stat`. -/
theorem sysFstat_error {buf : UserBuffer} {e : FilePanic} (h : sysFstat t fd buf = .error e) :
    ∃ f, fileAt t fd = some f ∧ (∃ dst ∈ buf, dst.length ≠ sizeOfStat) ∧ e = .sliceLength := by
  cases hf : fileAt t fd with
  | none => rw [sysFstat, withFile_closed hf] at h; cases h
  | some f =>
    rw [sysFstat, withFile_of_some hf, copyToSlices_eq] at h
    split at h
    · cases h
    · rename_i hne
      push_neg at hne
      cases h
      exact ⟨f, rfl, hne, rfl⟩

variable {allocFd : FdTable → Nat × FdTable} {disk : Disk} {path : String} {flags : UInt32}

/-- What a successful `sys_open` does: nothing, or it fills the free slot `alloc_fd` gives with
a fresh `OSInode` and returns its index. -/
theorem sysOpen_ok (hA : AllocSound allocFd) (h : sysOpen allocFd disk t path flags = .ok (r, t')) :
    (r = -1 ∧ t' = t) ∨
      ∃ f, openFile disk path ⟨flags⟩ = some f ∧ r = (allocFd t).1 ∧
        t' = (allocFd t).2.set (allocFd t).1 (some f) := by
  unfold sysOpen at h
  cases hb : OpenFlags.fromBits flags with
  | none => rw [hb] at h; cases h
  | some fl =>
    have hfl : fl = ⟨flags⟩ := by
      unfold OpenFlags.fromBits at hb; split at hb <;> cases hb; rfl
    subst hfl
    rw [hb] at h
    simp only [bind, Except.bind, pure, Except.pure] at h
    split at h
    · rename_i f hf
      simp only [hA.inRange, if_true] at h
      cases h
      exact .inr ⟨f, hf, rfl, rfl⟩
    · cases h; exact .inl ⟨rfl, rfl⟩

/-- The panics of `sys_open`: a bit no flag declares. -/
theorem sysOpen_error (hA : AllocSound allocFd) {e : FilePanic}
    (h : sysOpen allocFd disk t path flags = .error e) :
    OpenFlags.fromBits flags = none ∧ e = .unwrapNone := by
  unfold sysOpen at h
  cases hb : OpenFlags.fromBits flags with
  | none => rw [hb] at h; cases h; exact ⟨rfl, rfl⟩
  | some fl =>
    rw [hb] at h
    simp only [bind, Except.bind, pure, Except.pure] at h
    split at h
    · simp only [hA.inRange, if_true] at h; cases h
    · cases h

end Calls

/-! ## Calls on one fd -/

namespace FdCall

variable {allocFd : FdTable → Nat × FdTable} {disk : Disk} {t t' : FdTable} {c : FdCall}
  {r : Int} {fd : Nat}

/-- **A bad fd is a checked error.**  A call on an fd that is out of range or closed returns
`-1` and changes nothing. -/
theorem exec_closed (hc : c.fd? = some fd) (h : fileAt t fd = none) :
    c.exec allocFd disk t = .ok (-1, t) := by
  cases c with
  | write fd' buf => cases hc; exact withFile_closed h
  | read fd' buf => cases hc; exact withFile_closed h
  | openPath => cases hc
  | close fd' => cases hc; simp only [exec, sysClose, withFile_closed h]; rfl
  | fstat fd' buf => cases hc; simp only [exec, sysFstat, withFile_closed h]; rfl

/-- A call leaves alone every slot it does not name, except the one `sys_open` returns. -/
theorem exec_frame (hA : AllocSound allocFd) (h : c.exec allocFd disk t = .ok (r, t'))
    {i : Nat} (hi : c.fd? ≠ some i) (hr : c.fd? = none → r ≠ i) : fileAt t' i = fileAt t i := by
  cases c with
  | write fd' buf => exact fdTransfer_frame (fun hj => hi (congrArg some hj)) h
  | read fd' buf => exact fdTransfer_frame (fun hj => hi (congrArg some hj)) h
  | openPath path flags =>
    rcases sysOpen_ok hA h with ⟨-, rfl⟩ | ⟨f, -, rfl, rfl⟩
    · rfl
    · rw [fileAt_set_ne _ (fun hj => hr rfl (congrArg _ hj)), hA.keeps]
  | close fd' =>
    cases hf : fileAt t fd' with
    | none => rw [exec, sysClose, withFile_closed hf] at h; cases h; rfl
    | some f =>
      rw [exec, sysClose, withFile_of_some hf] at h
      cases h
      exact fileAt_set_ne _ (fun hj => hi (congrArg some hj)) _
  | fstat fd' buf =>
    obtain ⟨_, -, h⟩ := bind_eq_ok.mp h
    cases h; rfl

/-- A call on an open fd, other than closing it, leaves its file advanced by the bytes it
reports (which `sys_read` and `sys_write` alone move). -/
theorem exec_open_fd {f : File} (hc : c.fd? = some fd) (hf : fileAt t fd = some f)
    (hclose : c ≠ .close fd) (h : c.exec allocFd disk t = .ok (r, t')) :
    0 ≤ r ∧ fileAt t' fd = some (f.advance (if c.moves fd then r.toNat else 0)) := by
  cases c with
  | write fd' buf => cases hc; simpa [moves] using fdTransfer_advance hf File.write_ok h
  | read fd' buf => cases hc; simpa [moves] using fdTransfer_advance hf File.read_ok h
  | openPath => cases hc
  | close fd' => cases hc; exact absurd rfl hclose
  | fstat fd' buf =>
    cases hc
    rw [exec, sysFstat, withFile_of_some hf] at h
    obtain ⟨r', hr', h⟩ := bind_eq_ok.mp h
    obtain ⟨_, -, hr'⟩ := bind_eq_ok.mp hr'
    cases hr'; cases h
    exact ⟨by decide, by simp [moves, hf]⟩

/-- A `sys_open` returns `-1` or a slot that was free. -/
theorem exec_open_result (hA : AllocSound allocFd) (hc : c.fd? = none)
    (h : c.exec allocFd disk t = .ok (r, t')) : r = -1 ∨ ∃ k : Nat, r = k ∧ fileAt t k = none := by
  cases c with
  | openPath path flags =>
    rcases sysOpen_ok hA h with ⟨rfl, -⟩ | ⟨f, -, rfl, -⟩
    · exact .inl rfl
    · exact .inr ⟨_, rfl, hA.free t⟩
  | _ => cases hc

/-- Step: a closed fd stays closed, and a call on it returns `-1`, unless a `sys_open`
returns it. -/
theorem exec_keeps_closed (hA : AllocSound allocFd) (h : c.exec allocFd disk t = .ok (r, t'))
    (hclosed : fileAt t fd = none) (hr : c.fd? = none → r ≠ fd) :
    fileAt t' fd = none ∧ (c.fd? = some fd → r = -1) := by
  by_cases hc : c.fd? = some fd
  · rw [exec_closed hc hclosed] at h
    cases h
    exact ⟨hclosed, fun _ => rfl⟩
  · exact ⟨(exec_frame hA h hc hr).trans hclosed, fun h' => absurd h' hc⟩

/-- Step: an open fd that the call does not close keeps its file, advanced by the bytes the
call moves through it. -/
theorem exec_keeps_open {f : File} (hA : AllocSound allocFd) (h : c.exec allocFd disk t = .ok (r, t'))
    (hf : fileAt t fd = some f) (hclose : c ≠ .close fd) :
    fileAt t' fd = some (f.advance (if c.moves fd then r.toNat else 0)) := by
  by_cases hc : c.fd? = some fd
  · exact (exec_open_fd hc hf hclose h).2
  · have hmoves : c.moves fd = false := by
      cases c <;> simp_all [moves, fd?]
    have hr : c.fd? = none → r ≠ fd := fun hnone hrfd => by
      rcases exec_open_result hA hnone h with rfl | ⟨k, rfl, hk⟩
      · omega
      · rw [Nat.cast_inj.mp hrfd, hf] at hk; cases hk
    rw [exec_frame hA h hc hr, hmoves, hf]
    simp

end FdCall

/-! ## Runs -/

namespace File

theorem advance_advance (f : File) (m n : Nat) : (f.advance m).advance n = f.advance (m + n) := by
  cases f <;> simp [advance, Nat.add_assoc]

end File

/-- The bytes a run moves through `fd`: the returns of its `sys_read` and `sys_write` on it. -/
def movedThrough (fd : Nat) (calls : List ((Disk × FdCall) × Int)) : Nat :=
  ((calls.filter fun p => p.1.2.moves fd).map fun p => p.2.toNat).sum

theorem movedThrough_cons (fd : Nat) (p : (Disk × FdCall) × Int)
    (calls : List ((Disk × FdCall) × Int)) :
    movedThrough fd (p :: calls) =
      (if p.1.2.moves fd then p.2.toNat else 0) + movedThrough fd calls := by
  unfold movedThrough
  cases h : p.1.2.moves fd <;> simp [List.filter_cons, h]

section Runs

variable {allocFd : FdTable → Nat × FdTable}

theorem runCalls_cons {t t' : FdTable} {disk : Disk} {c : FdCall} {cs : List (Disk × FdCall)}
    {rs : List Int} (h : runCalls allocFd t ((disk, c) :: cs) = .ok (rs, t')) :
    ∃ r t₁ rs', c.exec allocFd disk t = .ok (r, t₁) ∧ runCalls allocFd t₁ cs = .ok (rs', t') ∧
      rs = r :: rs' := by
  obtain ⟨⟨r, t₁⟩, hc, h⟩ := bind_eq_ok.mp h
  obtain ⟨⟨rs', t₂⟩, hrun, h⟩ := bind_eq_ok.mp h
  cases h
  exact ⟨r, t₁, rs', hc, hrun, rfl⟩

/-- **A closed fd stays closed until `sys_open` returns it.**  Along any run from a table in
which `fd` is out of range or empty, in which no `sys_open` returns `fd`, the fd is still
closed at the end and every call on it returned `-1`. -/
theorem closed_fd_stays_closed (hA : AllocSound allocFd) :
    ∀ {t t' : FdTable} {cs : List (Disk × FdCall)} {rs : List Int} {fd : Nat},
      runCalls allocFd t cs = .ok (rs, t') → fileAt t fd = none →
      (∀ p ∈ cs.zip rs, p.1.2.fd? = none → p.2 ≠ fd) →
      fileAt t' fd = none ∧ ∀ p ∈ cs.zip rs, p.1.2.fd? = some fd → p.2 = -1
  | _, _, [], _, _, h, hclosed, _ => by
    cases h
    exact ⟨hclosed, fun _ hp => (by cases hp)⟩
  | _, _, (disk, c) :: cs, _, fd, h, hclosed, hopen => by
    obtain ⟨r, t₁, rs', hc, hrun, rfl⟩ := runCalls_cons h
    have hstep := FdCall.exec_keeps_closed hA hc hclosed (hopen _ (List.mem_cons_self _ _))
    obtain ⟨hend, hcalls⟩ := closed_fd_stays_closed hA hrun hstep.1
      fun p hp => hopen p (List.mem_cons_of_mem _ hp)
    refine ⟨hend, fun p hp => ?_⟩
    rcases List.mem_cons.mp hp with rfl | hp
    · exact hstep.2
    · exact hcalls p hp

/-- From `[Stdin, Stdout, closed]`: reading fd 2 fails, `log` opens at fd 3, and closing fd 2
fails. -/
theorem closed_fd_stays_closed_open_elsewhere :
    runCalls allocAtEnd [some .stdin, some .stdout, none]
        [(logDisk, .read 2 [[0]]), (logDisk, .openPath "log" 0), (logDisk, .close 2)] =
      .ok ([-1, 3, -1], [some .stdin, some .stdout, none, some (.osInode true false 7 0)]) ∧
    fileAt [some .stdin, some .stdout, none, some (.osInode true false 7 0)] 2 = none ∧
      ∀ p ∈ ([(logDisk, .read 2 [[0]]), (logDisk, .openPath "log" 0), (logDisk, .close 2)] :
          List (Disk × FdCall)).zip [-1, 3, -1], p.1.2.fd? = some 2 → p.2 = -1 :=
  ⟨rfl, @closed_fd_stays_closed allocAtEnd allocAtEnd_sound [some .stdin, some .stdout, none]
    _ _ _ _ rfl rfl (by decide)⟩

/-- **Offsets count the bytes moved.**  Along any run that does not close `fd`, the file open
at `fd` stays there, advanced by exactly the bytes the run's `sys_read` and `sys_write` on `fd`
reported: an `OSInode`'s offset is its offset at the start plus those bytes. -/
theorem offset_counts_bytes (hA : AllocSound allocFd) :
    ∀ {t t' : FdTable} {cs : List (Disk × FdCall)} {rs : List Int} {fd : Nat} {f : File},
      runCalls allocFd t cs = .ok (rs, t') → fileAt t fd = some f →
      (∀ p ∈ cs, p.2 ≠ .close fd) →
      fileAt t' fd = some (f.advance (movedThrough fd (cs.zip rs)))
  | _, _, [], _, _, f, h, hf, _ => by cases h; simpa [movedThrough] using hf
  | _, _, (disk, c) :: cs, _, fd, f, h, hf, hclose => by
    obtain ⟨r, t₁, rs', hc, hrun, rfl⟩ := runCalls_cons h
    have hstep := FdCall.exec_keeps_open hA hc hf (hclose _ (List.mem_cons_self _ _))
    rw [List.zip_cons_cons, movedThrough_cons, ← File.advance_advance]
    exact offset_counts_bytes hA hrun hstep fun p hp => hclose p (List.mem_cons_of_mem _ hp)

/-- fd 2 holds `log` at offset 0: writing three bytes, reading two and a `sys_fstat` into a
buffer within one page leave it at offset 5. -/
theorem offset_counts_bytes_write_read :
    runCalls allocAtEnd [some .stdin, some .stdout, some (.osInode true true 7 0)]
        [(logDisk, .write 2 [[1, 2, 3]]), (logDisk, .read 2 [[0, 0]]), (logDisk, .fstat 2 [List.replicate 80 0])] =
      .ok ([3, 2, 0], [some .stdin, some .stdout, some (.osInode true true 7 5)]) ∧
    fileAt [some .stdin, some .stdout, some (.osInode true true 7 5)] 2 =
      some ((File.osInode true true 7 0).advance (movedThrough 2
        (([(logDisk, .write 2 [[1, 2, 3]]), (logDisk, .read 2 [[0, 0]]), (logDisk, .fstat 2 [List.replicate 80 0])] :
          List (Disk × FdCall)).zip [3, 2, 0]))) :=
  ⟨rfl, @offset_counts_bytes allocAtEnd allocAtEnd_sound
    [some .stdin, some .stdout, some (.osInode true true 7 0)] _ _ _ _ _ rfl rfl (by decide)⟩

end Runs

/-! ## The panics -/

/-- The panics of the file syscalls, each with the call and the file that raise it. -/
inductive FdPanic (disk : Disk) (t : FdTable) : FdCall → FilePanic → Prop
  /-- `panic!` in `Stdout::read` (fs/stdio.rs line 51). -/
  | readStdout {fd : Nat} {buf : UserBuffer} : fileAt t fd = some .stdout →
      FdPanic disk t (.read fd buf) (.explicit "Cannot read from stdout!")
  /-- `assert_eq!(user_buf.len(), 1)` in `Stdin::read` (line 21). -/
  | readStdinLength {fd : Nat} {buf : UserBuffer} : fileAt t fd = some .stdin → buf.len ≠ 1 →
      FdPanic disk t (.read fd buf) .assertion
  /-- `panic!` in `Stdin::write` (line 38). -/
  | writeStdin {fd : Nat} {buf : UserBuffer} : fileAt t fd = some .stdin →
      FdPanic disk t (.write fd buf) (.explicit "Cannot write to stdin!")
  /-- `from_utf8(..).unwrap()` in `Stdout::write` (line 55). -/
  | writeStdoutUtf8 {fd : Nat} {buf : UserBuffer} : fileAt t fd = some .stdout →
      buf.all isUtf8 = false → FdPanic disk t (.write fd buf) .unwrapErr
  /-- `assert_eq!(write_size, slice.len())` in `OSInode::write` (fs/inode.rs line 208). -/
  | writeShort {fd : Nat} {buf : UserBuffer} {readable writable : Bool} {inode offset : Nat} :
      fileAt t fd = some (.osInode readable writable inode offset) →
      osInodeWrite (disk.writeAt inode) buf offset 0 = .error .assertion →
      FdPanic disk t (.write fd buf) .assertion
  /-- `OpenFlags::from_bits(flags).unwrap()` in `sys_open` (syscall/fs.rs line 58). -/
  | openFlags {path : String} {flags : UInt32} : OpenFlags.fromBits flags = none →
      FdPanic disk t (.openPath path flags) .unwrapNone
  /-- `dst.copy_from_slice(&src)` of the `Stat` in `sys_fstat` (line 102): a slice of the
  user's buffer shorter than the 80 bytes, as when the buffer crosses a page. -/
  | fstatSlice {fd : Nat} {buf : UserBuffer} {f : File} : fileAt t fd = some f →
      (∃ dst ∈ buf, dst.length ≠ sizeOfStat) → FdPanic disk t (.fstat fd buf) .sliceLength

/-- **The panics of the file syscalls are exactly these**: reading `Stdout`, reading `Stdin`
into a buffer that is not one byte long, writing `Stdin`, writing `Stdout` a slice that is not
UTF-8, a `write_at` that takes less than a slice, `sys_open` with a bit no flag declares, and
`sys_fstat` of an open fd into a buffer with a slice that does not take the whole `Stat`.
A bad or closed fd, a missing file and a full table raise none. -/
theorem fd_syscall_panics {allocFd : FdTable → Nat × FdTable} (hA : AllocSound allocFd)
    {disk : Disk} {t : FdTable} {c : FdCall} {e : FilePanic} :
    c.exec allocFd disk t = .error e ↔ FdPanic disk t c e := by
  constructor
  · intro h
    cases c with
    | read fd buf =>
      obtain ⟨f, hf, hread⟩ := fdTransfer_error h
      rcases File.read_error hread with ⟨rfl, rfl⟩ | ⟨rfl, hlen, rfl⟩
      · exact .readStdout hf
      · exact .readStdinLength hf hlen
    | write fd buf =>
      obtain ⟨f, hf, hwrite⟩ := fdTransfer_error h
      rcases File.write_error hwrite with ⟨rfl, rfl⟩ | ⟨rfl, hu, rfl⟩ | ⟨rd, wr, ino, off, rfl, rfl⟩
      · exact .writeStdin hf
      · exact .writeStdoutUtf8 hf hu
      · refine .writeShort hf ?_
        simp only [File.write] at hwrite
        rcases bind_eq_error.mp hwrite with hw | ⟨_, -, hw⟩
        · rw [hw]
        · cases hw
    | openPath path flags =>
      obtain ⟨hb, rfl⟩ := sysOpen_error hA h
      exact .openFlags hb
    | close => cases h
    | fstat fd buf =>
      rcases bind_eq_error.mp h with h | ⟨_, -, h⟩
      · obtain ⟨f, hf, hbuf, rfl⟩ := sysFstat_error h
        exact .fstatSlice hf hbuf
      · cases h
  · intro h
    cases h with
    | readStdout hf => rw [FdCall.exec, sysRead, fdTransfer, withFile_of_some hf]; rfl
    | readStdinLength hf hlen =>
      rw [FdCall.exec, sysRead, fdTransfer, withFile_of_some hf]
      simp only [File.read, if_neg hlen]; rfl
    | writeStdin hf => rw [FdCall.exec, sysWrite, fdTransfer, withFile_of_some hf]; rfl
    | writeStdoutUtf8 hf hu =>
      rw [FdCall.exec, sysWrite, fdTransfer, withFile_of_some hf]
      simp only [File.write, hu, Bool.false_eq_true, ↓reduceIte]; rfl
    | writeShort hf hw =>
      rw [FdCall.exec, sysWrite, fdTransfer, withFile_of_some hf]
      simp only [File.write, hw]; rfl
    | openFlags hb => simp only [FdCall.exec, sysOpen, hb]; rfl
    | @fstatSlice fd buf f hf hbuf =>
      have hne : ¬ ∀ dst ∈ buf, dst.length = sizeOfStat := by push_neg; exact hbuf
      rw [FdCall.exec, sysFstat, withFile_of_some hf, copyToSlices_eq, if_neg hne]; rfl

/-- `sys_read` of fd 1, which holds `Stdout`, panics. -/
theorem fd_syscall_panics_read_stdout :
    AllocSound allocAtEnd ∧
      ((FdCall.read 1 [[0]]).exec allocAtEnd logDisk [some .stdin, some .stdout] =
          .error (.explicit "Cannot read from stdout!") ↔
        FdPanic logDisk [some .stdin, some .stdout] (.read 1 [[0]])
          (.explicit "Cannot read from stdout!")) ∧
      FdPanic logDisk [some .stdin, some .stdout] (.read 1 [[0]])
        (.explicit "Cannot read from stdout!") :=
  ⟨allocAtEnd_sound, fd_syscall_panics allocAtEnd_sound, .readStdout rfl⟩

end Rcore
