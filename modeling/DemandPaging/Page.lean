import DemandPaging.Backing

/-!
The pages of a process, in memory or not.

Owns:
- a page: its address, whether it may be written, its tag, what backs it, and the frame that holds
  it;
- the registry of all pages of one process, by address.

Does not own: moving pages in and out of memory (`Machine`).
-/

namespace DemandPaging

/-- A tag given to a page when it is registered. -/
inductive PageMarker where
  | normal
  /-- The page belongs to the user stack. -/
  | stack
deriving DecidableEq, Repr, Inhabited

namespace PageMarker

def render : PageMarker → String
  | normal => "Normal"
  | stack => "Stack"

def ofText? (text : String) : Option PageMarker :=
  [normal, stack].find? fun marker => marker.render == text

end PageMarker

structure Page where
  address : VirtAddr
  /-- Whether user code may write the page. -/
  writable : Bool
  marker : PageMarker
  backing : Backing
  /-- The frame that holds the page while it is in memory. -/
  frame : Option PhysAddr
deriving Inhabited

namespace Page

/-- A page that holds an address and is not in memory. -/
def create (address : VirtAddr) (writable : Bool) (marker : PageMarker) (backing : Backing) :
    Page where
  address := address.pageDown
  writable := writable
  marker := marker
  backing := backing
  frame := none

def kind (page : Page) : PageKind := page.backing.kind

def isUntouched (page : Page) : Bool := page.backing.isUntouched

def isResident (page : Page) : Bool := page.frame.isSome

/-- The part of a file behind the page, or that will be behind it. -/
def region? (page : Page) : Option FileRegion := page.backing.region?

/-- The mapping that the page belongs to. -/
def mapping? (page : Page) : Option Mapping := page.region?.map FileRegion.mapping

/-- What the page table entry of the page allows. -/
def permission (page : Page) : Permission := Permission.userPage page.writable

/-- Let go of a page that was taken out of its registry, without giving up what it holds. Only its
reference to its mapping ends. -/
def forget (page : Page) : Action BackingStore Unit :=
  match page.mapping? with
  | some mapping => BackingStore.drop mapping
  | none => pure ()

def render (page : Page) : String :=
  let flag (value : Bool) : String := if value then "true" else "false"
  let frame :=
    match page.frame with
    | some frame => "Some(Frame \x7b pa: " ++ frame.render ++ " \x7d)"
    | none => "None"
  "Page \x7b va: " ++ page.address.render ++ ", writable: " ++ flag page.writable ++ ", type: " ++
    page.kind.render ++ ", uninit: " ++ flag page.isUntouched ++ ", frame: " ++ frame ++ " \x7d"

end Page

/-- The pages of one process, by address. -/
structure PageRegistry where
  pages : Std.ExtTreeMap VirtAddr Page

namespace PageRegistry

def empty : PageRegistry := ⟨∅⟩

instance : Inhabited PageRegistry := ⟨empty⟩

def size (registry : PageRegistry) : Nat := registry.pages.size

def isEmpty (registry : PageRegistry) : Bool := registry.pages.isEmpty

/-- The page that holds an address. -/
def find? (registry : PageRegistry) (address : VirtAddr) : Option Page :=
  registry.pages[address.pageDown]?

/-- Register a page, replacing one at the same address. -/
def put (registry : PageRegistry) (page : Page) : PageRegistry :=
  ⟨registry.pages.insert page.address page⟩

/-- Register a page at an address that has none yet. -/
def insert (registry : PageRegistry) (page : Page) : Except Errno PageRegistry :=
  if page.address ∈ registry.pages then .error .fileExist else .ok (registry.put page)

/-- Take out the page that holds an address. -/
def erase (registry : PageRegistry) (address : VirtAddr) : PageRegistry :=
  ⟨registry.pages.erase address.pageDown⟩

def toList (registry : PageRegistry) : List Page := registry.pages.toList.map Prod.snd

/-- A page that was put is found at every address it holds, and no other page is affected. -/
theorem find?_put (registry : PageRegistry) (page : Page) (address : VirtAddr) :
    (registry.put page).find? address =
      if page.address = address.pageDown then some page else registry.find? address := by
  simp [find?, put, Std.ExtTreeMap.getElem?_insert]

theorem insert_eq_ok_iff {registry result : PageRegistry} {page : Page} :
    registry.insert page = .ok result ↔
      page.address ∉ registry.pages ∧ registry.put page = result := by
  unfold insert; split <;> simp_all

end PageRegistry

end DemandPaging
