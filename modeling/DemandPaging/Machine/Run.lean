import DemandPaging.Machine.Calls
import DemandPaging.Machine.Processes
import DemandPaging.Machine.Program
import DemandPaging.Machine.UserAccess

/-!
Runs of the machine.

Owns:
- `Event`, everything that may happen to the machine: the operations it offers, and what changes
  from outside between two of them;
- what a sequence of events does to the machine (`Machine.after?`);
- the states that some run leads to (`Machine.Reachable`).

Events change registries and page tables through the operations only. An event that answers an
error leaves a state behind like any other; a run ends with the event that stops the machine.
-/

namespace DemandPaging

/-- Something that happens to the machine. -/
inductive Event where
  | createProcess
  | fork (parent : Pid)
  | exit (pid : Pid)
  | registerPage (pid : Pid) (address : VirtAddr) (writable : Bool) (marker : PageMarker)
      (loader : Option Loader)
  | makeResident (pid : Pid) (address : VirtAddr)
  | handleFault (pid : Pid) (reason : FaultReason)
  | mapFile (pid : Pid) (address : VirtAddr) (length : Nat) (writable : Bool) (file : FileId)
      (offset : Nat)
  | unmapFile (pid : Pid) (address : VirtAddr)
  | mmapCall (pid : Pid) (word length : Nat) (writable : Bool) (file? : Option FileId)
      (offset : Nat)
  | munmapCall (pid : Pid) (word : Nat)
  | loadSegment (pid : Pid) (file : FileId) (segment : Segment)
  | setUpStack (pid : Pid)
  | readUser (pid : Pid) (address : VirtAddr) (length : Nat)
  | writeUser (pid : Pid) (address : VirtAddr) (data : Array UInt8)
  | setStackPointer (pid : Pid) (stackPointer : VirtAddr)
  | access (pid : Pid) (address : VirtAddr) (write : Bool)
  /-- Other sectors of the swap disk fail from now on. -/
  | changeDisk (unreadable unwritable : FailingSectors)
  /-- Every file may change: what it stores, its open handles, and how it transfers bytes. -/
  | changeFiles (change : FileId → Inode → Inode)
  /-- Loaders may do something else from now on. -/
  | changeWorld (world : World)

namespace Machine

/-- Copy bytes out of the memory of a process, and answer them. -/
def fetchUser (pid : Pid) (address : VirtAddr) (length : Nat) : Action Machine (Array UInt8) :=
  fun machine =>
    match readUser pid address length { machine } with
    | .done () read => .done read.bytes read.machine
    | .failed error read => .failed error read.machine
    | .halted fault => .halted fault

def changeDisk (unreadable unwritable : FailingSectors) : Action Machine Unit :=
  onSwap (Action.modify fun area =>
    { area with disk := { area.disk with unreadable, unwritable } })

/-- Change every file from outside. -/
def changeFiles (change : FileId → Inode → Inode) : Action Machine Unit :=
  onFiles (Action.modify fun files => ⟨files.inodes.mapIdx change⟩)

def changeWorld (world : World) : Action Machine Unit :=
  onStore (Action.modify fun store => { store with world })

end Machine

/-- What an event does, whatever it answers. -/
def Event.perform : Event → Action Machine Unit
  | createProcess => do let _ ← Machine.createProcess
  | fork parent => do let _ ← Machine.fork parent
  | exit pid => Machine.exit pid
  | registerPage pid address writable marker loader =>
    Machine.registerPage pid address writable marker (.anonymous loader)
  | makeResident pid address => Machine.makeResident pid address
  | handleFault pid reason => Machine.handleFault pid reason
  | mapFile pid address length writable file offset => do
    let _ ← Machine.mapFile pid address length writable file offset
  | unmapFile pid address => Machine.unmapFile pid address
  | mmapCall pid word length writable file? offset => do
    let _ ← Machine.mmapCall pid word length writable file? offset
  | munmapCall pid word => do let _ ← Machine.munmapCall pid word
  | loadSegment pid file segment => Machine.loadSegment pid file segment
  | setUpStack pid => do let _ ← Machine.setUpStack pid
  | readUser pid address length => do let _ ← Machine.fetchUser pid address length
  | writeUser pid address data => Machine.writeUser pid address data
  | setStackPointer pid stackPointer => Machine.setStackPointer pid stackPointer
  | access pid address write => do let _ ← Machine.access pid address write
  | changeDisk unreadable unwritable => Machine.changeDisk unreadable unwritable
  | changeFiles change => Machine.changeFiles change
  | changeWorld world => Machine.changeWorld world

namespace Machine

/-- The state after some events, unless one of them stops the machine. -/
def after? (machine : Machine) : List Event → Option Machine
  | [] => some machine
  | event :: rest => (event.perform machine).state?.bind fun next => next.after? rest

/-- Some run leads to a state, from a machine with any settings, frames, disk and files. -/
inductive Reachable : Machine → Prop where
  | start (settings : Settings) (frames : Nat) (disk : Disk) (files : FileStore) :
      Reachable (create settings (FramePool.create frames) disk files)
  | next {before after : Machine} (reached : Reachable before) (event : Event)
      (leaves : (event.perform before).state? = some after) : Reachable after

end Machine

end DemandPaging
