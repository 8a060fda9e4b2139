import DemandPaging.Action
import DemandPaging.Disk
import DemandPaging.SlotMap

/-!
The swap area: page images on a disk.

Owns:
- the division of a disk into slots of one page, behind the sectors that are reserved;
- writing a page to a free slot, reading it back, and freeing a slot.

Does not own: which page an image belongs to (`Backing`).

A slot is taken from the moment a page is to be written to it until its image was read back in
full or given up. A failed write frees its slot again; a failed read leaves the image where it is.
-/

namespace DemandPaging

/-- A page in transfer: the store it is moved from, and the bytes of the page so far. -/
structure Transfer (Store : Type) where
  store : Store
  bytes : PageData

structure SwapArea where
  disk : Disk
  slots : SlotMap
  /-- The first sector of the first slot. -/
  firstSector : Sector
deriving Inhabited

namespace SwapArea

/-- The swap area on a disk, with every slot free. -/
def create (disk : Disk) (settings : Settings) : SwapArea where
  disk := disk
  slots := SlotMap.create (settings.swapSlots disk.sectorCount)
  firstSector := ⟨settings.reservedSectors⟩

def slotCount (area : SwapArea) : Nat := area.slots.size

def usedSlots (area : SwapArea) : Nat := area.slots.takenCount

def isOccupied (area : SwapArea) (slot : Nat) : Bool := area.slots.isTaken slot

def baseSector (area : SwapArea) (slot : Nat) : Except Overflow Sector := do
  let distance ← Word.mul slot sectorsPerPage
  area.firstSector.add distance

def release (slot : Nat) : Action SwapArea Unit := do
  let area ← Action.get
  let (wasTaken, slots) := area.slots.release slot
  if wasTaken then
    Action.set { area with slots }
  else
    Action.halt (.slotReleasedTwice slot)

/-- Write one sector of a page to its place behind a base sector. -/
def writeSector (base : Sector) (page : PageData) (index : Fin sectorsPerPage) :
    Action SwapArea Unit := do
  let sector ← Action.checked (base.add index.val)
  let area ← Action.get
  let disk ← Action.orFail (area.disk.write sector (page.sector index))
  Action.set { area with disk }

/-- Write a page to the sectors of a slot, in order, up to the first that fails. -/
def writeImage (slot : Nat) (page : PageData) : Action SwapArea Unit := do
  let area ← Action.get
  let base ← Action.checked (area.baseSector slot)
  (List.finRange sectorsPerPage).forM (writeSector base page)

/-- Write a page to the lowest free slot, and answer the slot. -/
def swapOut (page : PageData) : Action SwapArea Nat := do
  let area ← Action.get
  let (slot, slots) ← Action.require .noSpace area.slots.allocate
  Action.set { area with slots }
  match ← Action.attempt (writeImage slot page) with
  | .ok () => pure slot
  | .error error =>
    release slot
    Action.fail error

/-- Read one sector of a page from its place behind a base sector. -/
def readSector (base : Sector) (index : Fin sectorsPerPage) : Action (Transfer SwapArea) Unit := do
  let sector ← Action.checked (base.add index.val)
  let transfer ← Action.get
  let data ← Action.orFail (transfer.store.disk.read sector)
  Action.set { transfer with bytes := transfer.bytes.withSector index data }

/-- Read the sectors of a slot, in order, up to the first that fails. -/
def readImage (slot : Nat) : Action (Transfer SwapArea) Unit := do
  let transfer ← Action.get
  let base ← Action.checked (transfer.store.baseSector slot)
  (List.finRange sectorsPerPage).forM (readSector base)

/-- Read the image in a slot and free the slot. -/
def swapIn (slot : Nat) : Action (Transfer SwapArea) Unit := do
  let transfer ← Action.get
  if !transfer.store.isOccupied slot then
    Action.halt (.slotEmpty slot)
  readImage slot
  Action.onPart Transfer.store (fun area transfer => { transfer with store := area })
    (release slot)

end SwapArea

end DemandPaging
