import DemandPaging.Machine.FaultHandling

/-!
Access to the memory of a process.

Owns:
- one access the way the processor and the fault handler perform it together
  (`Machine.locate`);
- copying bytes out of and into the memory of a process (`Machine.readUser`, `Machine.writeUser`).

A run of bytes is copied in chunks that end with a page. A chunk whose page cannot be accessed ends
the copying; the chunks before it stay copied.
-/

namespace DemandPaging

/-- The part of a run of bytes that lies within one page. -/
structure Chunk where
  /-- The number of bytes of the run before the chunk. -/
  done : Nat
  /-- The number of bytes of the chunk. -/
  size : Nat
deriving DecidableEq, Repr, Inhabited

/-- The chunk of a run of bytes in the page with an index, counted from the page of its first
byte. The run begins at a position within its first page. -/
def Chunk.ofPage (offset length index : Nat) : Chunk :=
  let done := index * pageSize - offset
  { done, size := min ((index + 1) * pageSize - offset) length - done }

def Chunk.split (offset length : Nat) : List Chunk :=
  if length = 0 then
    []
  else
    (List.range ((offset + length + (pageSize - 1)) / pageSize)).map (ofPage offset length)

namespace Machine

/-- Access a byte the way the processor does, and keep the marks it leaves in the page table. -/
def access (pid : Pid) (address : VirtAddr) (write : Bool) :
    Action Machine (Except FaultCode Location) := do
  let target ← space pid
  let (result, table) := target.table.access address write
  setSpace pid { target with table }
  pure result

/-- Access a byte, and if the access faults, handle the fault and repeat the access. -/
def locate (pid : Pid) (address : VirtAddr) (write : Bool) : Action Machine Location := do
  let target ← space pid
  match ← access pid address write with
  | .ok location => pure location
  | .error code =>
    handleFault pid { address, code, stackPointer := target.stackPointer }
    match ← access pid address write with
    | .ok location => pure location
    | .error _ => Action.fail .badAddress

def locateChunk (pid : Pid) (address : VirtAddr) (write : Bool) (chunk : Chunk) :
    Action Machine Location := do
  let place ← Action.require .badAddress (address.advance? chunk.done)
  locate pid place write

def fetchChunk (pid : Pid) (address : VirtAddr) (chunk : Chunk) : Action Machine (Array UInt8) := do
  let location ← locateChunk pid address false chunk
  let machine ← Action.get
  let contents ← Action.orHalt (machine.resident.read location.frame)
  pure (contents.slice location.offset chunk.size)

/-- A read from the memory of a process: the system, and the bytes copied so far. -/
structure UserRead where
  machine : Machine
  bytes : Array UInt8 := #[]

/-- Copy a chunk out of the memory of a process. -/
def readChunk (pid : Pid) (address : VirtAddr) (chunk : Chunk) : Action UserRead Unit := do
  let piece ← Action.onPart UserRead.machine (fun machine read => { read with machine })
    (fetchChunk pid address chunk)
  Action.modify fun read => { read with bytes := read.bytes ++ piece }

def readUser (pid : Pid) (address : VirtAddr) (length : Nat) : Action UserRead Unit :=
  (Chunk.split address.offset length).forM (readChunk pid address)

/-- Copy a chunk of a run of bytes into the memory of a process. -/
def writeChunk (pid : Pid) (address : VirtAddr) (data : Array UInt8) (chunk : Chunk) :
    Action Machine Unit := do
  let location ← locateChunk pid address true chunk
  let machine ← Action.get
  let contents ← Action.orHalt (machine.resident.read location.frame)
  let piece := data.extract chunk.done (chunk.done + chunk.size)
  setResident (machine.resident.write location.frame
    (contents.overlay location.offset piece))

def writeUser (pid : Pid) (address : VirtAddr) (data : Array UInt8) : Action Machine Unit :=
  (Chunk.split address.offset data.size).forM (writeChunk pid address data)

end Machine

end DemandPaging
