import DemandPaging.Errno
import DemandPaging.PageTable
import DemandPaging.Process

/-!
The causes that stop the machine.

Owns: every condition under which an operation does not answer at all, because it was asked for
something that no caller may ask for or because it found the state of the system corrupted, with
the text that names it.

Does not own: the errors that an operation reports and survives (`Errno`).
-/

namespace DemandPaging

inductive Fault where
  /-- A computation on machine words left their range. -/
  | overflow (operation : Overflow)
  /-- The address is not that of a frame of the pool. -/
  | foreignFrame (frame : PhysAddr)
  /-- The frame was returned to the pool without being on loan. -/
  | doubleFree (frame : PhysAddr)
  /-- The frame was given to a page while another page occupied it. -/
  | frameOccupied (frame : PhysAddr) (newOwner owner : FrameOwner)
  /-- The frame was queued for eviction while it was queued already. -/
  | frameQueuedTwice
  /-- A frame queued for eviction has no owner. -/
  | ownerUnknown
  /-- The process that owns the frame is gone. -/
  | ownerExited (frame : PhysAddr) (owner : FrameOwner)
  /-- The process that owns the frame has no page at the owner's address. -/
  | ownerPageMissing (frame : PhysAddr) (owner : FrameOwner)
  /-- The page chosen for eviction occupies another frame than the chosen one. -/
  | frameMismatch (frame chosen : PhysAddr)
  /-- The page chosen for eviction occupies no frame. -/
  | evictedNotResident (page : VirtAddr)
  /-- A page that occupies a frame is not mapped. -/
  | residentNotMapped (page : VirtAddr) (cause : MapError)
  /-- A page that was never touched was found in memory. -/
  | untouchedResident (page : VirtAddr)
  /-- An anonymous page is to be brought in, but it has no image in swap. -/
  | imageMissing (page : VirtAddr)
  /-- The slot to be read holds no page. -/
  | slotEmpty (slot : Nat)
  /-- The slot to be freed is free. -/
  | slotReleasedTwice (slot : Nat)
  /-- A file handle was closed more often than opened. -/
  | handleClosedTwice
  /-- More bytes were asked for than one run of memory can have. -/
  | capacityExceeded
  /-- The file ends before the part of it that a page maps. -/
  | fileTruncated (page : VirtAddr) (offset : Nat)
  /-- The file took fewer bytes than a page writes back. -/
  | shortWriteBack (page : VirtAddr) (offset : Nat)
  /-- A page that is being removed could not be written back. -/
  | writeBackFailed (page : VirtAddr) (cause : Errno)
  /-- A page of a mapping is not registered. -/
  | mappedPageMissing (page start : VirtAddr)
  /-- A mapping is referred to after all its pages were removed. -/
  | mappingReferenced (start : VirtAddr)
  /-- Pages are mapped after every page of a process was removed. -/
  | entriesLeft
deriving DecidableEq, Repr, Inhabited

def Fault.message : Fault → String
  | overflow operation => operation.message
  | foreignFrame frame => frame.render ++ " does not belong to the frame pool"
  | doubleFree frame => "double free of " ++ frame.render
  | frameOccupied frame newOwner owner =>
    frame.render ++ " handed to " ++ newOwner.render ++ " while owned by " ++ owner.render
  | frameQueuedTwice => "assertion failed: !self.victims.contains(&frame.pa)"
  | ownerUnknown => "no entry found for key"
  | ownerExited frame owner =>
    frame.render ++ " owned by " ++ owner.render ++ ", which has exited"
  | ownerPageMissing frame owner =>
    frame.render ++ " owned by " ++ owner.render ++ ", which has no such page"
  | frameMismatch frame chosen =>
    "assertion \x60left == right\x60 failed\n  left: " ++ frame.render ++ "\n right: " ++
      chosen.render
  | evictedNotResident page => page.render ++ " swapped out while not resident"
  | residentNotMapped page cause => page.render ++ " resident but not mapped: " ++ cause.name
  | untouchedResident page =>
    "internal error: entered unreachable code: " ++ page.render ++
      ": uninitialized page is never resident"
  | imageMissing page => page.render ++ ": anonymous page swapped in without a swap slot"
  | slotEmpty slot => "swap slot " ++ toString slot ++ " read while it holds no page"
  | slotReleasedTwice slot => "swap slot " ++ toString slot ++ " released twice"
  | handleClosedTwice => "file handle closed more often than opened"
  | capacityExceeded => "capacity overflow"
  | fileTruncated page offset =>
    page.render ++ ": file truncated under the mapping at offset " ++ hexText offset
  | shortWriteBack page offset =>
    page.render ++ ": short write back at offset " ++ hexText offset
  | writeBackFailed page cause =>
    page.render ++ ": write back failed on unmap: " ++ cause.name
  | mappedPageMissing page start =>
    page.render ++ ": page of the mapping at " ++ start.render ++ " is missing"
  | mappingReferenced start =>
    "mapping at " ++ start.render ++ " still referenced after munmap"
  | entriesLeft => "assertion failed: page_table.is_empty()"

/-- Whether the machine stopped because a computation left the range of machine words. -/
def Fault.isOverflow : Fault → Bool
  | overflow _ => true
  | _ => false

end DemandPaging
