import DemandPaging.Machine.Residency

/-!
The end of a process and the copy of a process.

Owns:
- removing a process with everything it holds (`Machine.exit`);
- copying a process (`Machine.fork`): pages that were never touched are copied as such, pages of
  files are mapped again, and anonymous pages are copied byte by byte.

Does not own: the creation of a process without pages (`Machine.createProcess`).

A copy that cannot be completed is removed again. The number it was given is not used a second
time.
-/

namespace DemandPaging

namespace Machine

/-- Remove a process: destroy every page in the order of addresses. An unknown process is left
alone. -/
def exit (pid : Pid) : Action Machine Unit := do
  let machine ← Action.get
  match machine.spaces[pid]? with
  | none => pure ()
  | some space =>
    Action.set { machine with spaces := machine.spaces.erase pid }
    let table ← space.pages.toList.foldlM destroyPage space.table
    if !table.isEmpty then
      Action.halt .entriesLeft

/-- The mappings that a copy has been given so far, by the first page of the mapping they copy. -/
abbrev MappingCopies : Type := Std.ExtTreeMap VirtAddr Mapping

/-- The same part of a file in the copy's own mapping. The first page of a mapping to be copied
opens the file again for all of them. -/
def copyRegion (copies : MappingCopies) (region : FileRegion) :
    Action BackingStore (FileRegion × MappingCopies) :=
  let source := region.mapping
  match copies[source.start]? with
  | some mapping => do
    BackingStore.retain mapping
    pure ({ region with mapping }, copies)
  | none => do
    let mapping ← BackingStore.createMapping source.start source.pageCount source.file 1
    pure ({ region with mapping }, copies.insert source.start mapping)

/-- Copy the bytes of an anonymous page to a page of its own in another process. Both pages have to
be brought into memory for this. -/
def copyAnonymousPage (child parent : Pid) (address : VirtAddr) : Action Machine Unit := do
  makeResident parent address
  let machine ← Action.get
  let page ← Action.require .badAddress (machine.findPage? parent address)
  let frame ← Action.require .badAddress page.frame
  let contents ← Action.orHalt (machine.resident.read frame)
  registerPage child address page.writable page.marker (.anonymous none)
  makeResident child address
  let machine ← Action.get
  let copy ← Action.require .badAddress (machine.findPage? child address)
  let frame ← Action.require .badAddress copy.frame
  setResident (machine.resident.write frame contents)

/-- Copy one page of a process to another. -/
def copyPage (child parent : Pid) (copies : MappingCopies) (address : VirtAddr) :
    Action Machine MappingCopies := do
  let machine ← Action.get
  let page ← Action.require .badAddress (machine.findPage? parent address)
  let insertCopy (initializer : Initializer) : Action Machine Unit :=
    insertPage child (Page.create page.address page.writable page.marker (.untouched initializer))
  match page.backing with
  | .untouched (.anonymous loader) =>
    insertCopy (.anonymous loader)
    pure copies
  | .untouched (.file region) | .file region =>
    let (region, copies) ← onStore (copyRegion copies region)
    insertCopy (.file region)
    pure copies
  | .anonymous _ =>
    copyAnonymousPage child parent address
    pure copies

/-- Copy every page of a process to another, in the order of addresses. -/
def copyPages (child parent : Pid) : Action Machine Unit := do
  let space ← space parent
  let addresses := space.pages.toList.map Page.address
  let _ ← addresses.foldlM (copyPage child parent) ∅
  pure ()

/-- Create a process that is a copy of another one. -/
def fork (parent : Pid) : Action Machine Pid := do
  let _ ← space parent
  let child ← createProcess
  match ← Action.attempt (copyPages child parent) with
  | .ok () =>
    let source ← space parent
    setStackPointer child source.stackPointer
    pure child
  | .error error =>
    exit child
    Action.fail error

end Machine

end DemandPaging
