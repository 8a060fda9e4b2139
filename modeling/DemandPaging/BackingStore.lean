import DemandPaging.File
import DemandPaging.PageRange
import DemandPaging.SwapArea

/-!
Where the contents of pages are kept outside the frames.

Owns:
- the swap area, the files, and the references to the mappings of files, in one state, and with them
  the world on which loaders depend;
- mappings: the pages made by mapping a part of a file once share a handle on it, which is closed
  with the last reference to the mapping.

Does not own: the pages of a mapping (`FileRegion`) and where they are registered.
-/

namespace DemandPaging

/-- The number of a mapping. No two mappings ever have the same. -/
abbrev MappingId : Type := Nat

/-- What the pages of one mapping have in common. -/
structure Mapping where
  id : MappingId
  start : VirtAddr
  pageCount : Nat
  /-- The file on which the mapping has a handle. -/
  file : FileId
deriving DecidableEq, Repr, Inhabited

def Mapping.pages (mapping : Mapping) : Except Overflow PageRange := do
  let length ← Word.mul mapping.pageCount pageSize
  mapping.start.pages length

/-- What else there is outside of the machine and decides what a loader does. Only which worlds are
the same counts. -/
abbrev World : Type := Nat

/-- Where the contents of pages are kept outside the frames. -/
structure BackingStore where
  swap : SwapArea
  files : FileStore
  world : World := 0
  /-- How often each live mapping is referred to. -/
  references : Std.ExtTreeMap MappingId Nat := ∅
  /-- The number of the next mapping. -/
  nextMapping : MappingId := 0

instance : Inhabited BackingStore := ⟨{ swap := default, files := default }⟩

namespace BackingStore

variable {Value : Type}

def onSwap (action : Action SwapArea Value) : Action BackingStore Value :=
  Action.onPart BackingStore.swap (fun swap store => { store with swap }) action

def onFiles (action : Action FileStore Value) : Action BackingStore Value :=
  Action.onPart BackingStore.files (fun files store => { store with files }) action

def referenceCount (store : BackingStore) (id : MappingId) : Nat :=
  store.references.getD id 0

/-- Make a mapping of a file with a handle of its own, referred to a number of times. -/
def createMapping (start : VirtAddr) (pageCount : Nat) (file : FileId) (references : Nat) :
    Action BackingStore Mapping := do
  onFiles (FileStore.openHandle file)
  let store ← Action.get
  let id := store.nextMapping
  Action.set { store with
    references := store.references.insert id references
    nextMapping := id + 1 }
  pure { id, start, pageCount, file }

def retain (mapping : Mapping) : Action BackingStore Unit :=
  Action.modify fun store =>
    { store with
      references := store.references.insert mapping.id (store.referenceCount mapping.id + 1) }

/-- Refer to a mapping once less; with the last reference its handle is closed. -/
def drop (mapping : Mapping) : Action BackingStore Unit := do
  let store ← Action.get
  match store.references[mapping.id]? with
  | none => pure ()
  | some count =>
    if count ≤ 1 then
      Action.set { store with references := store.references.erase mapping.id }
      onFiles (FileStore.closeHandle mapping.file)
    else
      Action.set { store with references := store.references.insert mapping.id (count - 1) }

/-- Give up a mapping to which no page refers any more, and close its handle. -/
def abandon (mapping : Mapping) : Action BackingStore Unit := do
  Action.modify fun store => { store with references := store.references.erase mapping.id }
  onFiles (FileStore.closeHandle mapping.file)

/-- Run an operation that moves a page in from the swap area. -/
def transferSwap (action : Action (Transfer SwapArea) Value) :
    Action (Transfer BackingStore) Value :=
  Action.onPart
    (fun transfer => ⟨transfer.store.swap, transfer.bytes⟩)
    (fun inner transfer => ⟨{ transfer.store with swap := inner.store }, inner.bytes⟩)
    action

/-- Run an operation on the files while a page is moved in. -/
def transferFiles (action : Action FileStore Value) : Action (Transfer BackingStore) Value :=
  Action.onPart
    (fun transfer => transfer.store.files)
    (fun files transfer => { transfer with store := { transfer.store with files } })
    action

/-- Change the bytes of the page that is being moved in. -/
def fill (change : PageData → PageData) : Action (Transfer BackingStore) Unit :=
  Action.modify fun transfer => { transfer with bytes := change transfer.bytes }

end BackingStore

end DemandPaging
