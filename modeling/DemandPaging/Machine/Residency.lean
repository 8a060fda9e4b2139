import DemandPaging.Machine.State

/-!
Moving pages in and out of memory.

Owns:
- making a page resident (`Machine.makeResident`);
- taking the frame of a page that the clock chose, after saving the page (`Machine.evict`);
- removing a page for good (`Machine.destroyPage`).

Does not own: when a page is needed (`Machine.handleFault`, `Machine.locate`).

An error on the way leaves every page where it was: a victim that cannot be saved keeps its frame
and goes to the end of the queue, and a page that cannot be brought in gives its frame back.
-/

namespace DemandPaging

namespace Machine

/-- Ask whether the page that occupies a frame was accessed, and clear that mark. The mark is in
the page table of the process that owns the frame. -/
def testAndClearAccessed : ResidentSet.Question (Std.ExtTreeMap Pid AddressSpace) :=
  fun owner spaces =>
    match spaces[owner.pid]? with
    | none => (false, spaces)
    | some space =>
      if space.table.isAccessed owner.address then
        let table := space.table.setAccessed owner.address false
        (true, spaces.insert owner.pid { space with table })
      else
        (false, spaces)

def releaseFrame (frame : PhysAddr) : Action Machine Unit := do
  let machine ← Action.get
  setResident (machine.resident.release frame)

/-- Choose a victim by the clock, and take it off the queue. -/
def chooseVictim : Action Machine (PhysAddr × FrameOwner) := do
  let machine ← Action.get
  let (victim, resident, spaces) ←
    Action.orHalt (machine.resident.selectVictim testAndClearAccessed machine.spaces)
  Action.set { machine with resident, spaces }
  Action.require .noMemory victim

/-- Save a page of a process and take its frame away. The page is unmapped and stays registered. If
it cannot be saved, it keeps its frame. -/
def pageOut (pid : Pid) (space : AddressSpace) (page : Page) : Action Machine PhysAddr := do
  match page.frame with
  | none => Action.halt (.evictedNotResident page.address)
  | some frame =>
    let machine ← Action.get
    let bytes ← Action.orHalt (machine.resident.read frame)
    let dirty := space.table.isDirty page.address
    let backing ← onStore (page.backing.save page.address bytes dirty)
    match space.table.unmap page.address with
    | (.error cause, _) => Action.halt (.residentNotMapped page.address cause)
    | (.ok _, table) =>
      let pages := space.pages.put { page with backing, frame := none }
      setSpace pid { space with table, pages }
      pure frame

/-- Evict the page that the clock chooses, and answer its frame. -/
def evict : Action Machine PhysAddr := do
  let (chosen, owner) ← chooseVictim
  let machine ← Action.get
  match machine.spaces[owner.pid]? with
  | none => Action.halt (.ownerExited chosen owner)
  | some space =>
    match space.pages.find? owner.address with
    | none => Action.halt (.ownerPageMissing chosen owner)
    | some page =>
      match ← Action.attempt (pageOut owner.pid space page) with
      | .ok frame =>
        if frame = chosen then
          Action.modify fun machine => { machine with resident := machine.resident.unlink frame }
          pure frame
        else
          Action.halt (.frameMismatch frame chosen)
      | .error error =>
        Action.modify fun machine => { machine with resident := machine.resident.requeue chosen }
        Action.fail error

/-- Get a frame that no page occupies, evicting a page if the pool is exhausted. -/
def takeFrame : Action Machine PhysAddr := do
  let machine ← Action.get
  match machine.resident.acquire with
  | some (frame, resident) =>
    Action.set { machine with resident }
    pure frame
  | none => evict

/-- Bring the contents of a page into a frame. The frame is left as far as it was filled, also if
the contents cannot be brought in. -/
def bringIn (page : Page) (frame : PhysAddr) : Action Machine Backing := do
  let machine ← Action.get
  let bytes ← Action.orHalt (machine.resident.read frame)
  match page.backing.bringIn page.address ⟨machine.store, bytes⟩ with
  | .halted fault => Action.halt fault
  | .done backing transfer =>
    setResident (machine.resident.write frame transfer.bytes)
    Action.modify fun machine => { machine with store := transfer.store }
    pure backing
  | .failed error transfer =>
    setResident (machine.resident.write frame transfer.bytes)
    Action.modify fun machine => { machine with store := transfer.store }
    Action.fail error

/-- Put a page of a process into a frame: map it there, let it occupy the frame, and bring its
contents in. If one of this is not possible, the frame goes back to the pool and the page stays as
it was. -/
def pageIn (pid : Pid) (space : AddressSpace) (page : Page) (frame : PhysAddr) :
    Action Machine Unit := do
  match space.table.map page.address frame page.permission with
  | .error cause =>
    releaseFrame frame
    Action.fail cause.toErrno
  | .ok table =>
    let machine ← Action.get
    setResident (machine.resident.link frame ⟨pid, page.address⟩)
    match ← Action.attempt (bringIn page frame) with
    | .ok backing =>
      let pages := space.pages.put { page with backing := backing.touched, frame := some frame }
      setSpace pid { space with table, pages }
    | .error error =>
      releaseFrame frame
      Action.fail error

/-- Bring the page of a process that holds an address into memory. A page that is in memory is
left alone. -/
def makeResident (pid : Pid) (address : VirtAddr) : Action Machine Unit := do
  let machine ← Action.get
  match machine.findPage? pid address with
  | none => Action.fail .badAddress
  | some page =>
    if page.isResident then
      pure ()
    else
      let frame ← takeFrame
      let machine ← Action.get
      match machine.spaces[pid]? with
      | none =>
        releaseFrame frame
        Action.fail .noSuchEntry
      | some space =>
        match space.pages.find? address with
        | none =>
          releaseFrame frame
          Action.fail .badAddress
        | some page => pageIn pid space page frame

/-- Remove a page that was taken out of its registry: give up what it holds, unmap it in a page
table, and give its frame back zero-filled. Answers the page table. -/
def destroyPage (table : PageTable) (page : Page) : Action Machine PageTable := do
  match page.frame with
  | none =>
    let _ ← onStore (page.backing.giveUp page.address none false)
    onStore page.forget
    pure table
  | some frame =>
    let machine ← Action.get
    let bytes ← Action.orHalt (machine.resident.read frame)
    let dirty := table.isDirty page.address
    let _ ← onStore (page.backing.giveUp page.address (some bytes) dirty)
    match table.unmap page.address with
    | (.error cause, _) => Action.halt (.residentNotMapped page.address cause)
    | (.ok _, table) =>
      let machine ← Action.get
      setResident (machine.resident.write frame Block.zero)
      releaseFrame frame
      onStore page.forget
      pure table

end Machine

end DemandPaging
