import DemandPaging.Action
import DemandPaging.Bytes
import DemandPaging.Capacity

/-!
Regular files and open handles on them.

Owns:
- the contents of files, positional reads and writes, and how many bytes a transfer moves;
- files that transfer only half of what they are asked for, or fail, at all positions or at some;
- the count of open handles of a file, and handles with a cursor of their own.

Does not own: the mapping of files into memory (`Mapping`, `FileRegion`).

A read that is carried out as a whole moves fewer bytes than asked for only where the file ends. A
write extends the file to the end of what is written, with zero bytes in between where it starts
beyond the end. Transfers at different positions succeed or fail on their own; how those at one
position are carried out changes only from outside.
-/

namespace DemandPaging

abbrev FileId : Type := Nat

/-- How much of a transfer a file carries out. -/
inductive TransferMode where
  | whole
  /-- The first half, rounded down. -/
  | half
  /-- Nothing; it fails. -/
  | failing
deriving DecidableEq, Repr, Inhabited

/-- The number of bytes that a transfer of a given length moves. -/
def TransferMode.admit (mode : TransferMode) (length : Nat) : Except Errno Nat :=
  match mode with
  | .whole => .ok length
  | .half => .ok (length / 2)
  | .failing => .error .ioError

/-- How much of its transfers a file carries out. It is the same for all positions at which a
transfer may start, but for some. -/
structure TransferModes where
  usual : TransferMode := .whole
  exceptions : List (Nat × TransferMode) := []
deriving DecidableEq, Repr, Inhabited

namespace TransferModes

def always (mode : TransferMode) : TransferModes := { usual := mode }

instance : Coe TransferMode TransferModes := ⟨always⟩

/-- How much of a transfer that starts at a position is carried out. -/
def modeAt (modes : TransferModes) (position : Nat) : TransferMode :=
  (modes.exceptions.lookup position).getD modes.usual

end TransferModes

/-- The number of bytes that a transfer at a position moves. -/
def TransferModes.admit (modes : TransferModes) (position length : Nat) : Except Errno Nat :=
  TransferMode.admit (modes.modeAt position) length

inductive FileStorage where
  /-- Bytes that can be read and overwritten. -/
  | contents (bytes : Array UInt8)
  /-- A fixed number of zero bytes. What is written is accepted and forgotten. -/
  | blank (size : Nat)
deriving DecidableEq, Repr, Inhabited

namespace FileStorage

def size : FileStorage → Nat
  | contents bytes => bytes.size
  | blank size => size

/-- The bytes that can be overwritten. -/
def bytes : FileStorage → Array UInt8
  | contents bytes => bytes
  | blank _ => #[]

end FileStorage

/-- A run of bytes with another run laid over it from a position on, extended as far as needed and
with zero bytes in a gap. -/
def overlayBytes (bytes : Array UInt8) (position : Nat) (data : Array UInt8) : Array UInt8 :=
  Array.ofFn fun index : Fin (max bytes.size (position + data.size)) =>
    if position ≤ index.val ∧ index.val < position + data.size then
      data.getD (index.val - position) 0
    else
      bytes.getD index.val 0

@[simp]
theorem size_overlayBytes (bytes : Array UInt8) (position : Nat) (data : Array UInt8) :
    (overlayBytes bytes position data).size = max bytes.size (position + data.size) := by
  simp [overlayBytes]

/-- Laying bytes over others sets exactly those they cover, keeps the rest and fills a gap with
zero bytes. -/
theorem getD_overlayBytes (bytes : Array UInt8) (position : Nat) (data : Array UInt8)
    (index : Nat) :
    (overlayBytes bytes position data).getD index 0 =
      if position ≤ index ∧ index < position + data.size then data.getD (index - position) 0
      else bytes.getD index 0 := by
  by_cases inside : index < max bytes.size (position + data.size)
  · simp [overlayBytes, Array.getD, inside]
  · have beyondBytes : ¬ index < bytes.size := by omega
    have beyondData : ¬ index < position + data.size := by omega
    simp [overlayBytes, Array.getD, inside, beyondBytes, beyondData]

structure Inode where
  storage : FileStorage
  readMode : TransferModes := .always .whole
  writeMode : TransferModes := .always .whole
  handles : Nat := 0
  writes : Nat := 0
deriving DecidableEq, Repr, Inhabited

namespace Inode

def size (inode : Inode) : Nat := inode.storage.size

/-- The bytes found at a position, at most a given number of them. -/
def read (inode : Inode) (position length : Nat) : Except Errno (Array UInt8) := do
  let admitted ← inode.readMode.admit position length
  match inode.storage with
  | .contents bytes => .ok (bytes.extract position (position + admitted))
  | .blank size => .ok (Array.replicate (min size (position + admitted) - position) 0)

/-- Whether a valid write of a given length would make the file larger than memory can hold. -/
def outgrowsMemory (inode : Inode) (position length : Nat) : Bool :=
  match inode.storage, inode.writeMode.admit position length with
  | .contents _, .ok admitted =>
    decide (Capacity.most < position + admitted ∧ position + admitted < Word.limit)
  | _, _ => false

/-- Write bytes at a position and answer their number. A write that would end beyond the range of
machine words is not valid. -/
def write (inode : Inode) (position : Nat) (data : Array UInt8) : Except Errno (Nat × Inode) := do
  let admitted ← inode.writeMode.admit position data.size
  match inode.storage with
  | .contents bytes =>
    if position + admitted < Word.limit then
      .ok (admitted, { inode with
        storage := .contents (overlayBytes bytes position (data.extract 0 admitted))
        writes := inode.writes + 1 })
    else
      .error .invalidArgument
  | .blank _ => .ok (admitted, inode)

end Inode

structure FileStore where
  inodes : Array Inode
deriving DecidableEq, Repr, Inhabited

namespace FileStore

def inode (file : FileId) : Action FileStore Inode := fun store =>
  Action.require .badFileDescriptor store.inodes[file]? store

def setInode (file : FileId) (inode : Inode) : Action FileStore Unit :=
  Action.modify fun store => ⟨store.inodes.setIfInBounds file inode⟩

/-- The number of bytes in a file; none in one that does not exist. -/
def size (store : FileStore) (file : FileId) : Nat :=
  match store.inodes[file]? with
  | some inode => inode.size
  | none => 0

def read (file : FileId) (position length : Nat) : Action FileStore (Array UInt8) := do
  let inode ← inode file
  Action.orFail (inode.read position length)

/-- Write to a file at a position, and answer how many bytes were written. A file that would
outgrow memory stops the machine. -/
def write (file : FileId) (position : Nat) (data : Array UInt8) : Action FileStore Nat := do
  let inode ← inode file
  if inode.outgrowsMemory position data.size then
    Action.halt .capacityExceeded
  let (written, inode) ← Action.orFail (inode.write position data)
  setInode file inode
  pure written

/-- Set how a file carries out reads and writes. -/
def setModes (file : FileId) (readMode writeMode : TransferModes) : Action FileStore Unit := do
  let inode ← inode file
  setInode file { inode with readMode, writeMode }

def openHandle (file : FileId) : Action FileStore Unit := do
  let inode ← inode file
  setInode file { inode with handles := inode.handles + 1 }

def closeHandle (file : FileId) : Action FileStore Unit := do
  let inode ← inode file
  if inode.handles = 0 then
    Action.halt .handleClosedTwice
  else
    setInode file { inode with handles := inode.handles - 1 }

end FileStore

/-- An open handle on a file, with a cursor of its own. -/
structure OpenFile where
  file : FileId
  position : Nat := 0
deriving DecidableEq, Repr, Inhabited

namespace OpenFile

/-- Open a file, with the cursor at its beginning. -/
def create (file : FileId) : Action FileStore OpenFile := do
  FileStore.openHandle file
  pure { file }

def reopen (handle : OpenFile) : Action FileStore OpenFile := create handle.file

def close (handle : OpenFile) : Action FileStore Unit := FileStore.closeHandle handle.file

/-- Read at the cursor, and move it past the bytes that were read. -/
def read (handle : OpenFile) (length : Nat) : Action FileStore (Array UInt8 × OpenFile) := do
  let bytes ← FileStore.read handle.file handle.position length
  let position ← Action.checked (Word.add handle.position bytes.size)
  pure (bytes, { handle with position })

/-- Write at the cursor, and move it past the bytes that were written. -/
def write (handle : OpenFile) (data : Array UInt8) : Action FileStore (Nat × OpenFile) := do
  let written ← FileStore.write handle.file handle.position data
  let position ← Action.checked (Word.add handle.position written)
  pure (written, { handle with position })

end OpenFile

end DemandPaging
