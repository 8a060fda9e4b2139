import DemandPaging.Settings

/-!
Runs of bytes: pages, sectors, and pieces of any length.

Owns:
- blocks of a fixed number of bytes, made from shorter or longer runs;
- laying a run of bytes over a block, and cutting a run out of it;
- a page as the sectors that hold it.

Main statements: `Block.getElem_overlay` says byte by byte what laying over does, and
`PageData.sector_withSector` that a page keeps the sector put into it.
-/

namespace DemandPaging

/-- A fixed number of bytes. -/
abbrev Block (size : Nat) : Type := Vector UInt8 size

/-- The contents of a page or a frame. -/
abbrev PageData : Type := Block pageSize

/-- The contents of a disk sector. -/
abbrev SectorData : Type := Block sectorSize

namespace Block

variable {size : Nat}

def filled (byte : UInt8) : Block size := Vector.replicate size byte

def zero : Block size := filled 0

/-- The block with a run of bytes laid over it from a position on. What does not fit is cut. -/
def overlay (block : Block size) (start : Nat) (bytes : Array UInt8) : Block size :=
  (List.range bytes.size).foldl
    (fun block index => block.setIfInBounds (start + index) (bytes.getD index 0)) block

/-- The block that starts with given bytes: cut if there are more, followed by zero bytes if there
are fewer. -/
def ofBytes (bytes : Array UInt8) : Block size := zero.overlay 0 bytes

/-- The bytes of the block from a position on, at most a given number of them. -/
def slice (block : Block size) (start length : Nat) : Array UInt8 :=
  Array.ofFn fun index : Fin (min (start + length) size - start) => block[start + index.val]

theorem getElem_zero {index : Nat} (inBlock : index < size) :
    (zero : Block size)[index] = 0 := by
  simp [zero, filled]

/-- Laying bytes over a block sets exactly the bytes they cover. -/
theorem getElem_overlay {block : Block size} {start : Nat} {bytes : Array UInt8} {index : Nat}
    (inBlock : index < size) :
    (block.overlay start bytes)[index] =
      if start ≤ index ∧ index < start + bytes.size then bytes.getD (index - start) 0
      else block[index] := by
  have laid (count : Nat) : ((List.range count).foldl
      (fun block index => block.setIfInBounds (start + index) (bytes.getD index 0)) block)[index] =
        if start ≤ index ∧ index < start + count then bytes.getD (index - start) 0
        else block[index] := by
    induction count with
    | zero =>
        rw [if_neg (by omega)]
        rfl
    | succ count inductionHypothesis =>
        rw [List.range_succ, List.foldl_append, List.foldl_cons, List.foldl_nil,
          Vector.getElem_setIfInBounds, inductionHypothesis]
        by_cases last : start + count = index
        · rw [if_pos last, if_pos (by omega), show index - start = count by omega]
        · have same : (start ≤ index ∧ index < start + count) ↔
              start ≤ index ∧ index < start + (count + 1) := by omega
          simp only [if_neg last, same]
  exact laid bytes.size

theorem getElem_ofBytes {bytes : Array UInt8} {index : Nat} (inBlock : index < size) :
    (ofBytes bytes : Block size)[index] = bytes.getD index 0 := by
  rw [ofBytes, getElem_overlay, Nat.zero_add, Nat.sub_zero]
  split
  · rfl
  case isFalse beyond =>
    rw [getElem_zero]
    simp [Array.getD, show ¬index < bytes.size by omega]

/-- A slice has the requested length as far as the block reaches. -/
theorem size_slice {block : Block size} {start length : Nat} :
    (block.slice start length).size = min (start + length) size - start := by
  simp [slice]

end Block

namespace PageData

/-- The sector of a page at a position. -/
def sector (page : PageData) (index : Fin sectorsPerPage) : SectorData :=
  Vector.ofFn fun byte =>
    have inPage : index.val * sectorSize + byte.val < pageSize := by
      have := index.isLt; have := byte.isLt
      simp only [sectorsPerPage, sectorSize, pageSize] at *; omega
    page[index.val * sectorSize + byte.val]

theorem getElem_sector (page : PageData) (index : Fin sectorsPerPage) {byte : Nat}
    (inSector : byte < sectorSize) (inPage : index.val * sectorSize + byte < pageSize) :
    (page.sector index)[byte] = page[index.val * sectorSize + byte] := by
  simp [sector]

/-- The page with the sector at a position replaced. -/
def withSector (page : PageData) (index : Fin sectorsPerPage) (sector : SectorData) : PageData :=
  Block.overlay page (index.val * sectorSize) sector.toArray

/-- A page keeps the sector put into it. -/
theorem sector_withSector (page : PageData) (index : Fin sectorsPerPage) (data : SectorData) :
    (page.withSector index data).sector index = data := by
  ext byte inSector
  have small := index.isLt
  simp only [sectorsPerPage, sectorSize] at small inSector
  rw [getElem_sector _ _ inSector (by simp only [sectorSize, pageSize]; omega), withSector,
    Block.getElem_overlay]
  simp only [sectorSize, Vector.size_toArray]
  rw [if_pos (by omega)]
  simp [inSector]

/-- Putting a sector into a page leaves the other sectors alone. -/
theorem sector_withSector_of_ne (page : PageData) {index other : Fin sectorsPerPage}
    (different : other ≠ index) (data : SectorData) :
    (page.withSector index data).sector other = page.sector other := by
  ext byte inSector
  have distinct : other.val ≠ index.val := fun same => different (Fin.ext same)
  have small := other.isLt
  simp only [sectorsPerPage, sectorSize] at small inSector
  have inPage : other.val * sectorSize + byte < pageSize := by
    simp only [sectorSize, pageSize]; omega
  rw [getElem_sector _ _ inSector inPage, getElem_sector _ _ inSector inPage, withSector,
    Block.getElem_overlay]
  simp only [sectorSize, Vector.size_toArray]
  rw [if_neg (by omega)]

end PageData

/-- A 64-bit word as eight bytes, the least significant one first. -/
def wordBytes (word : Nat) : Array UInt8 :=
  Array.ofFn fun index : Fin 8 => UInt8.ofNat (word >>> (8 * index.val))

end DemandPaging
