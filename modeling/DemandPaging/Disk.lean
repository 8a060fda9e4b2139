import DemandPaging.Bytes
import DemandPaging.Capacity

/-!
A disk of fixed-size sectors.

Owns:
- sector numbers and the byte position they stand for;
- the sectors of a disk, and reading and writing one of them;
- sectors that fail: any set of sectors may refuse to be read or to be written, and these sets
  change with every sector that is written, as well as from outside.

A transfer that fails reads nothing and writes nothing. Within one operation of the system no
transfer that failed is repeated, and a sector that was read is written before it is read again. So
with sets that change with the writes each transfer succeeds or fails on its own.
-/

namespace DemandPaging

structure Sector where
  number : Nat
deriving DecidableEq, Repr, Inhabited

namespace Sector

/-- The position of the first byte of the sector on the disk. -/
def offset (sector : Sector) : Except Overflow Nat := Word.mul sector.number sectorSize

def add (sector : Sector) (count : Nat) : Except Overflow Sector :=
  (Word.add sector.number count).map Sector.mk

end Sector

/-- The sectors that fail. They may be others after every write. -/
structure FailingSectors where
  after : Nat → List Nat

namespace FailingSectors

/-- The same sectors, however many are written. -/
def always (sectors : List Nat) : FailingSectors := ⟨fun _ => sectors⟩

def none : FailingSectors := always []

instance : Inhabited FailingSectors := ⟨none⟩

instance : Coe (List Nat) FailingSectors := ⟨always⟩

end FailingSectors

structure Disk where
  sectorCount : Nat
  /-- What was written to the disk so far. A sector that was never written holds zero bytes. -/
  written : Std.ExtTreeMap Nat SectorData := ∅
  /-- How many sectors were written so far. -/
  writes : Nat := 0
  /-- The sectors that cannot be read. -/
  unreadable : FailingSectors := .none
  /-- The sectors that cannot be written. -/
  unwritable : FailingSectors := .none
deriving Inhabited

namespace Disk

def create (count : Nat) : Disk where
  sectorCount := count

/-- A disk of zero-filled sectors, if one run of memory can hold them. -/
def reserve (count : Nat) : Except Fault Disk := do
  Capacity.request count sectorSize
  .ok (create count)

/-- What a sector holds, whether or not it can be read at the moment. -/
def stored (disk : Disk) (sector : Sector) : Except Errno SectorData :=
  if sector.number < disk.sectorCount then
    .ok (disk.written.getD sector.number Block.zero)
  else
    .error .ioError

def read (disk : Disk) (sector : Sector) : Except Errno SectorData :=
  if sector.number ∈ disk.unreadable.after disk.writes then .error .ioError else disk.stored sector

def write (disk : Disk) (sector : Sector) (data : SectorData) : Except Errno Disk :=
  if sector.number ∈ disk.unwritable.after disk.writes then
    .error .ioError
  else if sector.number < disk.sectorCount then
    .ok { disk with
      written := disk.written.insert sector.number data
      writes := disk.writes + 1 }
  else
    .error .ioError

end Disk

end DemandPaging
