import Rcore.Basic

/-!
# Files: the console, `OSInode` and `OpenFlags`

An fd holds one of three `File`s: `Stdin`, `Stdout` (fs/stdio.rs) or an `OSInode`
(fs/inode.rs), the last with the access mode `open_file` gave it, its easy-fs inode and its
offset.  easy-fs itself is outside src/: what its inodes answer at the time of a call
(`read_at`, `write_at`, `find`, `create`) is a `Disk`, an input of the call.  A user buffer is
the list of byte slices `translated_byte_buffer` cuts it into (`UserBuffer`).

* `osInodeRead_eq`, `osInodeWrite_ok` — the loops of `OSInode::read` and `OSInode::write` move
  the offset by exactly the bytes they report.
* `File.read_ok`, `File.write_ok` — a file read or written is the same file, advanced by the
  bytes moved.
* `File.read_error`, `File.write_error` — the panics of each kind of file.
* `openFile_some` — `open_file` makes a fresh `OSInode` at offset 0 with the access mode of
  `read_write`, and nothing else.
-/

set_option autoImplicit false

namespace Rcore

/-- The panics of the file layer: `panic!` with its message, a failed `assert_eq!`, `unwrap`
of `None` or of an `Err`, a `Vec` index past the end, and `copy_from_slice` between slices of
different lengths. -/
inductive FilePanic where
  | explicit (message : String)
  | assertion
  | unwrapNone
  | unwrapErr
  | indexOutOfBounds
  | sliceLength
  deriving DecidableEq, Repr

/-- `UserBuffer::len`: the bytes of all its slices. -/
def UserBuffer.len (buf : UserBuffer) : Nat := (buf.map List.length).sum

/-- What easy-fs answers at the time of a call: `Inode::read_at` and `Inode::write_at` of an
inode at an offset, as the bytes they move, and `find` and `create` of a name in the root
directory, as the inode they give. -/
structure Disk where
  readAt : Nat → Nat → List UInt8 → Nat
  writeAt : Nat → Nat → List UInt8 → Nat
  find : String → Option Nat
  create : String → Option Nat

/-! ## Open flags -/

/-- `OpenFlags` (fs/inode.rs lines 83-92): a `u32` of flag bits. -/
structure OpenFlags where
  bits : UInt32
  deriving DecidableEq, Repr

namespace OpenFlags

def RDONLY : UInt32 := 0
def WRONLY : UInt32 := (1 : UInt32) <<< 0
def RDWR : UInt32 := (1 : UInt32) <<< 1
def CREATE : UInt32 := (1 : UInt32) <<< 9
def TRUNC : UInt32 := (1 : UInt32) <<< 10

/-- `OpenFlags::all()`: every declared bit. -/
def all : UInt32 := RDONLY ||| WRONLY ||| RDWR ||| CREATE ||| TRUNC

/-- `OpenFlags::from_bits`: `None` when a bit no flag declares is set. -/
def fromBits (bits : UInt32) : Option OpenFlags :=
  if bits &&& ~~~all = 0 then some ⟨bits⟩ else none

/-- `contains`: every bit of `other` is set. -/
def contains (f : OpenFlags) (other : UInt32) : Bool := f.bits &&& other == other

/-- `is_empty`: no bit is set. -/
def isEmpty (f : OpenFlags) : Bool := f.bits == 0

/-- `read_write` (lines 98-106): `(readable, writable)`, with no check that the bits agree. -/
def readWrite (f : OpenFlags) : Bool × Bool :=
  if f.isEmpty then (true, false)
  else if f.contains WRONLY then (false, true)
  else (true, true)

end OpenFlags

/-! ## Files -/

/-- The `File`s an fd holds: `Stdin`, `Stdout`, or an `OSInode` with its access mode, its inode
and its offset. -/
inductive File where
  | stdin
  | stdout
  | osInode (readable writable : Bool) (inode offset : Nat)
  deriving DecidableEq, Repr

/-- The loop of `OSInode::read` (fs/inode.rs lines 193-200): each slice takes the bytes
`read_at` gives at the offset, until it gives none; the bytes read and the offset after. -/
def osInodeRead (readAt : Nat → List UInt8 → Nat) : UserBuffer → Nat → Nat → Nat × Nat
  | [], offset, total => (total, offset)
  | slice :: buf, offset, total =>
    let readSize := readAt offset slice
    if readSize = 0 then (total, offset)
    else osInodeRead readAt buf (offset + readSize) (total + readSize)

/-- The loop of `OSInode::write` (lines 206-211): each slice goes to `write_at` at the offset,
which must take all of it (`assert_eq!`); the bytes written and the offset after. -/
def osInodeWrite (writeAt : Nat → List UInt8 → Nat) :
    UserBuffer → Nat → Nat → Except FilePanic (Nat × Nat)
  | [], offset, total => pure (total, offset)
  | slice :: buf, offset, total =>
    let writeSize := writeAt offset slice
    if writeSize = slice.length then
      osInodeWrite writeAt buf (offset + writeSize) (total + writeSize)
    else throw .assertion

/-- `core::str::from_utf8(slice)` succeeds. -/
def isUtf8 (slice : List UInt8) : Bool := String.validateUTF8 ⟨slice.toArray⟩

namespace File

/-- `File::read` (fs/stdio.rs lines 20-36 and 50-52, fs/inode.rs lines 190-202): the bytes
read and the file after.  `Stdin` asserts a one-byte buffer before it waits for a key, and
the wait is left out. -/
def read (disk : Disk) (buf : UserBuffer) : File → Except FilePanic (Nat × File)
  | stdin => if buf.len = 1 then pure (1, stdin) else throw .assertion
  | stdout => throw (.explicit "Cannot read from stdout!")
  | osInode readable writable inode offset =>
    let (total, offset) := osInodeRead (disk.readAt inode) buf offset 0
    pure (total, osInode readable writable inode offset)

/-- `File::write` (fs/stdio.rs lines 37-39 and 53-58, fs/inode.rs lines 203-213): the bytes
written and the file after.  `Stdout` unwraps `from_utf8` of each slice before it prints it. -/
def write (disk : Disk) (buf : UserBuffer) : File → Except FilePanic (Nat × File)
  | stdin => throw (.explicit "Cannot write to stdin!")
  | stdout => if buf.all isUtf8 then pure (buf.len, stdout) else throw .unwrapErr
  | osInode readable writable inode offset => do
    let (total, offset) ← osInodeWrite (disk.writeAt inode) buf offset 0
    pure (total, osInode readable writable inode offset)

/-- The file after `n` bytes moved through it: an `OSInode`'s offset advances by `n`. -/
def advance : File → Nat → File
  | osInode readable writable inode offset, n => osInode readable writable inode (offset + n)
  | f, _ => f

@[simp] theorem advance_zero (f : File) : f.advance 0 = f := by
  cases f <;> rfl

end File

/-- `open_file` (fs/inode.rs lines 110-145): with `CREATE`, the inode `find` gives, or else the
one `create` gives; without it, the inode `find` gives.  The new `OSInode` has the access mode
of `read_write` and offset 0.  Emptying the inode (`clear`) is easy-fs's and is left out. -/
def openFile (disk : Disk) (name : String) (flags : OpenFlags) : Option File :=
  let (readable, writable) := flags.readWrite
  if flags.contains OpenFlags.CREATE then
    match disk.find name with
    | some inode => some (.osInode readable writable inode 0)
    | none => (disk.create name).map fun inode => .osInode readable writable inode 0
  else (disk.find name).map fun inode => .osInode readable writable inode 0

/-! ## The loops -/

/-- `OSInode::read` moves the offset by the bytes it reports. -/
theorem osInodeRead_eq (readAt : Nat → List UInt8 → Nat) :
    ∀ (buf : UserBuffer) (offset total : Nat),
      ∃ n, osInodeRead readAt buf offset total = (total + n, offset + n)
  | [], offset, total => ⟨0, rfl⟩
  | slice :: buf, offset, total => by
    dsimp only [osInodeRead]
    split
    · exact ⟨0, rfl⟩
    · obtain ⟨n, hn⟩ := osInodeRead_eq readAt buf (offset + readAt offset slice)
        (total + readAt offset slice)
      exact ⟨readAt offset slice + n, by rw [hn]; simp only [Nat.add_assoc]⟩

/-- A successful `OSInode::write` wrote the whole buffer and moved the offset by it. -/
theorem osInodeWrite_ok {writeAt : Nat → List UInt8 → Nat} :
    ∀ {buf : UserBuffer} {offset total : Nat} {r : Nat × Nat},
      osInodeWrite writeAt buf offset total = .ok r → r = (total + buf.len, offset + buf.len)
  | [], _, _, _, h => by cases h; rfl
  | slice :: buf, offset, total, r, h => by
    dsimp only [osInodeWrite] at h
    split at h
    · rw [osInodeWrite_ok h]
      simp only [UserBuffer.len, List.map_cons, List.sum_cons, Nat.add_assoc, *]
    · cases h

/-- `OSInode::write` fails only on its `assert_eq!`. -/
theorem osInodeWrite_error {writeAt : Nat → List UInt8 → Nat} :
    ∀ {buf : UserBuffer} {offset total : Nat} {e : FilePanic},
      osInodeWrite writeAt buf offset total = .error e → e = .assertion
  | [], _, _, _, h => by cases h
  | _ :: _, _, _, _, h => by
    dsimp only [osInodeWrite] at h
    split at h
    · exact osInodeWrite_error h
    · cases h; rfl

/-! ## Reading and writing a file -/

namespace File

variable {disk : Disk} {buf : UserBuffer} {f f' : File} {n : Nat} {e : FilePanic}

/-- A file read is the same file, advanced by the bytes read. -/
theorem read_ok (h : f.read disk buf = .ok (n, f')) : f' = f.advance n := by
  cases f with
  | stdin =>
    simp only [read] at h
    split at h <;> cases h; rfl
  | stdout => cases h
  | osInode readable writable inode offset =>
    obtain ⟨m, hm⟩ := osInodeRead_eq (disk.readAt inode) buf offset 0
    simp only [read, hm] at h
    cases h
    simp [advance]

/-- A file written is the same file, advanced by the bytes written. -/
theorem write_ok (h : f.write disk buf = .ok (n, f')) : f' = f.advance n := by
  cases f with
  | stdin => cases h
  | stdout =>
    simp only [write] at h
    split at h <;> cases h; rfl
  | osInode readable writable inode offset =>
    simp only [write] at h
    cases hw : osInodeWrite (disk.writeAt inode) buf offset 0 with
    | error e => rw [hw] at h; cases h
    | ok r =>
      rw [hw] at h
      cases h
      simp [osInodeWrite_ok hw, advance]

/-- The panics of `File::read`: reading `Stdout`, or reading `Stdin` into a buffer that is not
one byte long. -/
theorem read_error (h : f.read disk buf = .error e) :
    (f = stdout ∧ e = .explicit "Cannot read from stdout!") ∨
      (f = stdin ∧ buf.len ≠ 1 ∧ e = .assertion) := by
  cases f with
  | stdin =>
    simp only [read] at h
    split at h
    · cases h
    · cases h; exact .inr ⟨rfl, ‹_›, rfl⟩
  | stdout => cases h; exact .inl ⟨rfl, rfl⟩
  | osInode => cases h

/-- The panics of `File::write`: writing `Stdin`, writing `Stdout` a slice that is not UTF-8,
or an `OSInode` whose `write_at` takes less than a slice. -/
theorem write_error (h : f.write disk buf = .error e) :
    (f = stdin ∧ e = .explicit "Cannot write to stdin!") ∨
      (f = stdout ∧ buf.all isUtf8 = false ∧ e = .unwrapErr) ∨
      (∃ readable writable inode offset, f = osInode readable writable inode offset ∧
        e = .assertion) := by
  cases f with
  | stdin => cases h; exact .inl ⟨rfl, rfl⟩
  | stdout =>
    simp only [write] at h
    split at h
    · cases h
    · rename_i hu
      cases h; exact .inr (.inl ⟨rfl, by simpa using hu, rfl⟩)
  | osInode readable writable inode offset =>
    simp only [write] at h
    cases hw : osInodeWrite (disk.writeAt inode) buf offset 0 with
    | error e' =>
      rw [hw] at h
      cases h
      exact .inr (.inr ⟨readable, writable, inode, offset, rfl, osInodeWrite_error hw⟩)
    | ok r => rw [hw] at h; cases h

end File

/-- `open_file` gives a fresh `OSInode` at offset 0, with the access mode of `read_write`. -/
theorem openFile_some {disk : Disk} {name : String} {flags : OpenFlags} {f : File}
    (h : openFile disk name flags = some f) :
    ∃ inode, f = .osInode flags.readWrite.1 flags.readWrite.2 inode 0 := by
  cases hrw : flags.readWrite with
  | mk readable writable =>
    simp only [openFile, hrw] at h
    split at h
    · split at h
      · cases h; exact ⟨_, rfl⟩
      · obtain ⟨inode, -, rfl⟩ := Option.map_eq_some'.mp h
        exact ⟨inode, rfl⟩
    · obtain ⟨inode, -, rfl⟩ := Option.map_eq_some'.mp h
      exact ⟨inode, rfl⟩

end Rcore
