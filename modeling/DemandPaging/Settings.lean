import DemandPaging.Address

/-!
The settings of a paging system.

Owns: how far the user stack may grow, how far below the stack pointer a write may probe, which
leading sectors of the swap disk are not for swapping, and how many page-sized slots the rest of
the disk holds.
-/

namespace DemandPaging

/-- The size of a disk sector, in bytes. -/
abbrev sectorSize : Nat := 512

/-- The number of sectors that hold one page. -/
abbrev sectorsPerPage : Nat := 8

/-- The settings of a paging system. -/
structure Settings where
  /-- The most bytes that the user stack may take. -/
  stackLimit : Nat := 0x100000
  /-- How far below the stack pointer a write may land and still grow the stack. -/
  stackSlack : Nat := 32
  /-- The number of leading sectors of the swap disk that hold other data. -/
  reservedSectors : Nat := 0
deriving DecidableEq, Repr, Inhabited

namespace Settings

/-- The number of page-sized slots on a swap disk of a given size. -/
def swapSlots (settings : Settings) (sectorCount : Nat) : Nat :=
  (sectorCount - settings.reservedSectors) / sectorsPerPage

def render (settings : Settings) : String :=
  "VmConfig \x7b stack_limit: " ++ toString settings.stackLimit ++ ", stack_slack: " ++
    toString settings.stackSlack ++ ", swap_reserved_sectors: " ++
    toString settings.reservedSectors ++ " \x7d"

end Settings

end DemandPaging
