import DemandPaging.Machine.Residency

/-!
Loading a program.

Owns:
- registering the pages of a segment of an executable file (`Machine.loadSegment`), which are read
  when they are first touched;
- the first page of the user stack (`Machine.setUpStack`).
-/

namespace DemandPaging

structure Segment where
  offset : Nat
  address : VirtAddr
  readBytes : Nat
  zeroBytes : Nat
  writable : Bool
deriving DecidableEq, Repr, Inhabited

namespace Machine

/-- Register the first pages of a segment, and go on with what is left of it. -/
def loadPages (pid : Pid) (file : FileId) : Nat → Segment → Action Machine Unit
  | 0, _ => pure ()
  | pagesAfter + 1, segment => do
    let pageRead := min segment.readBytes pageSize
    let loader :=
      if pageRead = 0 then none else some (Loader.segment file segment.offset pageRead)
    registerPage pid segment.address segment.writable .normal (.anonymous loader)
    let offset ← Action.checked (Word.add segment.offset pageRead)
    let zeroBytes ← Action.checked (Word.sub segment.zeroBytes (pageSize - pageRead))
    let address ← Action.checked (segment.address.add pageSize)
    loadPages pid file pagesAfter { segment with
      offset, address, zeroBytes
      readBytes := segment.readBytes - pageRead }

/-- Register the pages of a segment. The segment has to consist of whole pages, in memory and in
the file. If one of its pages is registered already, those before it stay registered. -/
def loadSegment (pid : Pid) (file : FileId) (segment : Segment) : Action Machine Unit := do
  let size ← Action.checked (Word.add segment.readBytes segment.zeroBytes)
  if size % pageSize ≠ 0 || !segment.address.isPageAligned || segment.offset % pageSize ≠ 0 then
    Action.fail .invalidArgument
  loadPages pid file (size / pageSize) segment

/-- Create the first page of the user stack, bring it in, and answer the initial stack pointer. -/
def setUpStack (pid : Pid) : Action Machine VirtAddr := do
  let bottom : VirtAddr := ⟨stackTop - pageSize, by decide⟩
  registerPage pid bottom true .stack (.anonymous none)
  makeResident pid bottom
  setStackPointer pid VirtAddr.stackTop
  pure VirtAddr.stackTop

end Machine

end DemandPaging
