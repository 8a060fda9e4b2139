import DemandPaging.Machine.Residency

/-!
Mapping files into memory.

Owns:
- mapping a part of a file at an address (`Machine.mapFile`): nothing is read, and either every page
  of the mapping is registered or none;
- removing a mapping from any of its pages on (`Machine.unmapFile`).

Does not own: checking the arguments of a user program (`Machine.mmapCall`).
-/

namespace DemandPaging

/-- Register the pages of a mapping with some indices, one after the other, each with the next bytes
of those that remain to be covered. The first page that cannot be registered ends it with an error,
and the pages of the mapping before that one are taken out again. -/
def PageRegistry.insertMapping (range : PageRange) (mapping : Mapping) (writable : Bool)
    (offset : Nat) :
    List (Fin range.count) → Nat → PageRegistry → Except Errno Unit × PageRegistry
  | [], _, pages => (.ok (), pages)
  | index :: rest, remaining, pages =>
    let readBytes := min remaining pageSize
    let region : FileRegion :=
      { mapping
        offset := offset + index * pageSize
        readBytes
        zeroBytes := pageSize - readBytes
        isFirst := index.val = 0
        remaining := mapping.pageCount - 1 - index }
    let page := Page.create (range.page index) writable .normal (.untouched (.file region))
    match pages.insert page with
    | .ok pages => insertMapping range mapping writable offset rest (remaining - readBytes) pages
    | .error error =>
      let earlier := (List.finRange range.count).take index
      (.error error, earlier.foldl (fun pages index => pages.erase (range.page index)) pages)

namespace Machine

/-- Register the pages of a new mapping, which covers a number of bytes of its file from an offset
on. If one of them cannot be registered, the mapping is given up. -/
def registerMapping (pid : Pid) (target : AddressSpace) (range : PageRange) (mapping : Mapping)
    (writable : Bool) (offset length : Nat) : Action Machine Unit := do
  let (outcome, pages) :=
    target.pages.insertMapping range mapping writable offset (List.finRange range.count) length
  setSpace pid { target with pages }
  match outcome with
  | .ok () => pure ()
  | .error error =>
    onStore (BackingStore.abandon mapping)
    Action.fail error

/-- Map a part of a file into the memory of a process. The mapping covers at most the requested
number of bytes and never more than the file has from the offset on; it is rounded up to whole
pages, which must not reach the kernel and must not be registered yet. -/
def mapFile (pid : Pid) (address : VirtAddr) (length : Nat) (writable : Bool) (file : FileId)
    (offset : Nat) : Action Machine VirtAddr := do
  let machine ← Action.get
  let covered := min length (machine.store.files.size file - offset)
  if covered = 0 || !address.isPageAligned || !address.isUser then
    Action.fail .invalidArgument
  let pageCount := (covered + (pageSize - 1)) / pageSize
  let byteCount ← Action.checked (Word.mul pageCount pageSize)
  let last ← Action.require .invalidArgument (address.advance? byteCount)
  if kernelBase < last.toNat then
    Action.fail .invalidArgument
  let target ← space pid
  let range ← Action.checked (address.pages byteCount)
  if range.any fun page => (target.pages.find? page).isSome then
    Action.fail .fileExist
  let _ ← Action.checked (Word.add offset (byteCount - pageSize))
  let mapping ← onStore (BackingStore.createMapping address pageCount file pageCount)
  registerMapping pid target range mapping writable offset covered
  pure address

/-- Remove one page of a mapping. -/
def unmapPage (pid : Pid) (mapping : Mapping) (address : VirtAddr) : Action Machine Unit := do
  let target ← space pid
  match target.pages.find? address with
  | none => Action.halt (.mappedPageMissing address mapping.start)
  | some page =>
    let table ← destroyPage target.table page
    setSpace pid { target with table, pages := target.pages.erase address }

/-- Remove the mapping that one of its addresses belongs to: write its pages back as needed, take
them out, and close its handle on the file. -/
def unmapFile (pid : Pid) (address : VirtAddr) : Action Machine Unit := do
  let target ← space pid
  let mapping ← Action.require .invalidArgument ((target.pages.find? address).bind Page.mapping?)
  let range ← Action.checked mapping.pages
  range.toList.forM (unmapPage pid mapping)
  let machine ← Action.get
  if 0 < machine.store.referenceCount mapping.id then
    Action.halt (.mappingReferenced mapping.start)

end Machine

end DemandPaging
