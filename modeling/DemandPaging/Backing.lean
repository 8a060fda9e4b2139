import DemandPaging.BackingStore

/-!
What a page is backed by: where its contents come from and where they go.

Owns:
- the part of a file behind a page of a mapping;
- loaders, which supply the first contents of an anonymous page;
- the three kinds of backing (never touched, anonymous, part of a file), and for each of them how
  a page is brought in, saved, and given up.

Does not own: the frame that holds the page and its page table entry (`Machine`).

A page that was never touched remembers how to make its first contents. It turns into the kind it
announced when it is first brought in, and never back.
-/

namespace DemandPaging

/-- The part of a file behind one page of a mapping. -/
structure FileRegion where
  mapping : Mapping
  /-- The position in the file of the first byte of the page. -/
  offset : Nat
  readBytes : Nat
  zeroBytes : Nat
  /-- Whether the page is the first one of its mapping. -/
  isFirst : Bool
  /-- The number of pages of the mapping after this one. -/
  remaining : Nat
deriving DecidableEq, Repr, Inhabited

namespace FileRegion

/-- Read the part of the file into a page, followed by zero bytes. The file has to be as long as
it was when it was mapped. -/
def bringIn (region : FileRegion) (page : VirtAddr) : Action (Transfer BackingStore) Unit := do
  let handle : OpenFile := { file := region.mapping.file, position := region.offset }
  let (bytes, _) ← BackingStore.transferFiles (handle.read region.readBytes)
  if bytes.size = region.readBytes then
    BackingStore.fill fun _ => Block.ofBytes bytes
  else
    Action.halt (.fileTruncated page region.offset)

/-- Write the bytes of a page that came from the file back to where they came from, if the page
was written. -/
def writeBack (region : FileRegion) (page : VirtAddr) (bytes : PageData) (dirty : Bool) :
    Action BackingStore Unit := do
  if dirty then
    let handle : OpenFile := { file := region.mapping.file, position := region.offset }
    let (written, _) ← BackingStore.onFiles (handle.write (bytes.slice 0 region.readBytes))
    if written ≠ region.readBytes then
      Action.halt (.shortWriteBack page region.offset)

end FileRegion

/-- What supplies the first contents of an anonymous page. -/
inductive Loader where
  /-- A number of bytes of a file from a position on. -/
  | segment (file : FileId) (offset readBytes : Nat)
  /-- Any routine that is told the address of the page and works on its zero-filled frame. What it
  does depends on the world: it may fail for a while, and what it wrote until then stays in the
  frame. -/
  | routine (run : World → VirtAddr → PageData → PageData × Except Errno Unit)

namespace Loader

/-- A loader that lays an image over the start of the page, on request stores the address of the
page over the first eight bytes, and then succeeds or fails as told. -/
def image (data : Array UInt8) (stamped : Bool) (result : Except Errno Unit) : Loader :=
  routine fun _ page bytes =>
    let placed := bytes.overlay 0 data
    (if stamped then placed.overlay 0 (wordBytes page.toNat) else placed, result)

/-- Supply the first contents of a page. A file that ends before the segment does is an input
error; the bytes it still had are in the page then. -/
def load (loader : Loader) (page : VirtAddr) : Action (Transfer BackingStore) Unit :=
  match loader with
  | segment file offset readBytes => do
    let bytes ← BackingStore.transferFiles (FileStore.read file offset readBytes)
    BackingStore.fill fun page => page.overlay 0 bytes
    if bytes.size ≠ readBytes then
      Action.fail .ioError
  | routine run => do
    let transfer ← Action.get
    let (bytes, result) := run transfer.store.world page transfer.bytes
    Action.set { transfer with bytes }
    Action.orFail result

end Loader

/-- How the first contents of a page are made. -/
inductive Initializer where
  /-- The page becomes an anonymous one, zero-filled and then handed to a loader, if there is
  one. -/
  | anonymous (loader : Option Loader)
  /-- The page becomes a part of a file. -/
  | file (region : FileRegion)

instance : Inhabited Initializer := ⟨.anonymous none⟩

/-- The kind of a page, once it was touched. -/
inductive PageKind where
  | anonymous
  | file
deriving DecidableEq, Repr, Inhabited

def PageKind.render : PageKind → String
  | anonymous => "Anon"
  | file => "File"

/-- What a page is backed by. -/
inductive Backing where
  /-- The page was never touched. -/
  | untouched (initializer : Initializer)
  /-- The page is anonymous. While it is not in memory, its image is in a slot of the swap area. -/
  | anonymous (slot : Option Nat)
  /-- The page is a part of a file. -/
  | file (region : FileRegion)

instance : Inhabited Backing := ⟨.untouched default⟩

namespace Backing

def kind : Backing → PageKind
  | untouched (.anonymous _) => .anonymous
  | untouched (.file _) => .file
  | anonymous _ => .anonymous
  | file _ => .file

def isUntouched : Backing → Bool
  | untouched _ => true
  | _ => false

/-- The part of a file behind the page, or that will be behind it. -/
def region? : Backing → Option FileRegion
  | untouched (.anonymous _) => none
  | untouched (.file region) => some region
  | anonymous _ => none
  | file region => some region

/-- The slot of the swap area that holds the page. -/
def slot? : Backing → Option Nat
  | anonymous slot => slot
  | _ => none

/-- What a page is backed by from its first touch on. -/
def touched : Backing → Backing
  | untouched (.anonymous _) => anonymous none
  | untouched (.file region) => file region
  | backing => backing

/-- Bring the contents of a page in. The backing that is answered is still an untouched one if the
given one is: turning it is up to who registers the page. -/
def bringIn (backing : Backing) (page : VirtAddr) : Action (Transfer BackingStore) Backing :=
  match backing with
  | untouched (.anonymous loader) => do
    BackingStore.fill fun _ => Block.zero
    match loader with
    | some loader => loader.load page
    | none => pure ()
    pure backing
  | untouched (.file region) => do
    region.bringIn page
    pure backing
  | anonymous none => Action.halt (.imageMissing page)
  | anonymous (some slot) => do
    BackingStore.transferSwap (SwapArea.swapIn slot)
    pure (anonymous none)
  | file region => do
    region.bringIn page
    pure backing

/-- Save the contents of a page before its frame is taken away. -/
def save (backing : Backing) (page : VirtAddr) (bytes : PageData) (dirty : Bool) :
    Action BackingStore Backing :=
  match backing with
  | untouched _ => Action.halt (.untouchedResident page)
  | anonymous _ => do
    let slot ← BackingStore.onSwap (SwapArea.swapOut bytes)
    pure (anonymous (some slot))
  | file region => do
    region.writeBack page bytes dirty
    pure backing

/-- Give up what a page holds outside the frames. A page of a file that is in memory is written
back first, and that must not fail. -/
def giveUp (backing : Backing) (page : VirtAddr) (resident : Option PageData) (dirty : Bool) :
    Action BackingStore Backing :=
  match backing with
  | untouched _ => pure backing
  | anonymous none => pure backing
  | anonymous (some slot) => do
    BackingStore.onSwap (SwapArea.release slot)
    pure (anonymous none)
  | file region =>
    match resident with
    | none => pure backing
    | some bytes => do
      match ← Action.attempt (region.writeBack page bytes dirty) with
      | .ok () => pure backing
      | .error error => Action.halt (.writeBackFailed page error)

end Backing

end DemandPaging
