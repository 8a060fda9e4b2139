import DemandPaging.AddressSpace
import DemandPaging.ResidentSet

/-!
The state of the paging system, and its processes.

Owns:
- the whole state: settings, resident frames, backing store and address spaces;
- creating processes, looking them up and changing them;
- registering pages that were never touched.

Does not own: anything that moves a page (`Machine.makeResident` and the operations above it).
-/

namespace DemandPaging

structure Machine where
  settings : Settings
  resident : ResidentSet
  store : BackingStore
  spaces : Std.ExtTreeMap Pid AddressSpace := ∅
  nextPid : Nat := 1

namespace Machine

variable {Value : Type}

/-- A system with a pool of frames, a swap disk and files, and no process. -/
def create (settings : Settings) (pool : FramePool) (disk : Disk) (files : FileStore) :
    Machine where
  settings := settings
  resident := ResidentSet.create pool
  store := { swap := SwapArea.create disk settings, files := files }

instance : Inhabited Machine := ⟨create default default default default⟩

/-! ## Parts of the state -/

def onStore (action : Action BackingStore Value) : Action Machine Value :=
  Action.onPart Machine.store (fun store machine => { machine with store }) action

def onFiles (action : Action FileStore Value) : Action Machine Value :=
  onStore (BackingStore.onFiles action)

def onSwap (action : Action SwapArea Value) : Action Machine Value :=
  onStore (BackingStore.onSwap action)

/-- Replace the resident frames, or stop the machine. -/
def setResident (resident : Except Fault ResidentSet) : Action Machine Unit := do
  let resident ← Action.orHalt resident
  Action.modify fun machine => { machine with resident }

def freeFrames (machine : Machine) : Nat := machine.resident.pool.freeCount

def residentPages (machine : Machine) : Nat := machine.resident.residentCount

def usedSwapSlots (machine : Machine) : Nat := machine.store.swap.usedSlots

/-! ## Processes -/

def space (pid : Pid) : Action Machine AddressSpace := fun machine =>
  Action.require .noSuchEntry machine.spaces[pid]? machine

def setSpace (pid : Pid) (space : AddressSpace) : Action Machine Unit :=
  Action.modify fun machine => { machine with spaces := machine.spaces.insert pid space }

def createProcess : Action Machine Pid := do
  let machine ← Action.get
  let pid : Pid := ⟨machine.nextPid⟩
  let next ← Action.checked (Word.add machine.nextPid 1)
  Action.set { machine with
    spaces := machine.spaces.insert pid AddressSpace.empty
    nextPid := next }
  pure pid

/-- Save the user stack pointer of a process. -/
def setStackPointer (pid : Pid) (stackPointer : VirtAddr) : Action Machine Unit := do
  let space ← space pid
  setSpace pid { space with stackPointer }

/-! ## Pages -/

/-- The page of a process that holds an address. -/
def findPage? (machine : Machine) (pid : Pid) (address : VirtAddr) : Option Page :=
  machine.spaces[pid]?.bind fun space => space.pages.find? address

/-- Register a page of a process at an address that has none yet. -/
def insertPage (pid : Pid) (page : Page) : Action Machine Unit := do
  let space ← space pid
  let pages ← Action.orFail (space.pages.insert page)
  setSpace pid { space with pages }

/-- Register a page of a process that holds a user address and was never touched. -/
def registerPage (pid : Pid) (address : VirtAddr) (writable : Bool) (marker : PageMarker)
    (initializer : Initializer) : Action Machine Unit :=
  if address.isUser then
    insertPage pid (Page.create address writable marker (.untouched initializer))
  else
    Action.fail .invalidAccess

/-- Register a zero-filled anonymous page of a process. -/
def registerZeroPage (pid : Pid) (address : VirtAddr) (writable : Bool) : Action Machine Unit :=
  registerPage pid address writable .normal (.anonymous none)

/-- The kind and the tag of the page of a process that holds an address. -/
def pageType? (machine : Machine) (pid : Pid) (address : VirtAddr) :
    Option (PageKind × PageMarker) :=
  (machine.findPage? pid address).map fun page => (page.kind, page.marker)

/-- Whether a process may access a range of addresses. An unknown process may access nothing. -/
def accessOk (machine : Machine) (pid : Pid) (first last : VirtAddr) (write : Bool) :
    Except Overflow Bool :=
  match machine.spaces[pid]? with
  | some space => space.accessOk first last write
  | none => .ok false

end Machine

end DemandPaging
