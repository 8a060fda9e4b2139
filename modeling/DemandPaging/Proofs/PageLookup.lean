import DemandPaging.Machine.State
import DemandPaging.Proofs.PageTable

/-!
Where the pages of all processes are looked up.

Owns:
- `Machine.page?`, the page registered at an address of a process, and `Machine.frame?`,
  `Machine.slot?`, `Machine.region?`, `Machine.mapping?` and `Machine.translation?`, the frame, the
  slot, the part of a file, the mapping and the translation that go with it;
- `Machine.stackPointer?`, the user stack pointer of a process;
- what replacing the memory of one process does to them.

Main statements: `page?_update` and `page?_erased`, a process whose registry changes at one address
changes the lookup at that address only.
-/

namespace DemandPaging

/-- Where the page table leads a page that is in memory. -/
def Page.translation? (page : Page) : Option Translation :=
  page.frame.map fun frame => ⟨some frame, page.writable⟩

/-- The slot of the swap area that a page records. -/
def Page.slot? (page : Page) : Option Nat := page.backing.slot?

namespace PageRegistry

def at? (registry : PageRegistry) (address : VirtAddr) : Option Page := registry.pages[address]?

theorem find?_eq_at? (registry : PageRegistry) (address : VirtAddr) :
    registry.find? address = registry.at? address.pageDown := rfl

theorem at?_empty (address : VirtAddr) : empty.at? address = none := by
  simp [at?, empty]

theorem at?_put (registry : PageRegistry) (page : Page) (address : VirtAddr) :
    (registry.put page).at? address =
      if page.address = address then some page else registry.at? address := by
  simp [at?, put, Std.ExtTreeMap.getElem?_insert]

theorem at?_erase (registry : PageRegistry) (removed address : VirtAddr) :
    (registry.erase removed).at? address =
      if removed.pageDown = address then none else registry.at? address := by
  simp [at?, erase, Std.ExtTreeMap.getElem?_erase]

theorem at?_of_insert {registry result : PageRegistry} {page : Page}
    (inserted : registry.insert page = .ok result) :
    registry.at? page.address = none ∧ result = registry.put page := by
  obtain ⟨absent, rfl⟩ := insert_eq_ok_iff.1 inserted
  refine ⟨?_, rfl⟩
  rw [Std.ExtTreeMap.mem_iff_isSome_getElem?] at absent
  simpa [at?] using absent

theorem insert_eq_ok {registry : PageRegistry} {page : Page}
    (absent : registry.at? page.address = none) :
    registry.insert page = .ok (registry.put page) := by
  rw [insert_eq_ok_iff, Std.ExtTreeMap.mem_iff_isSome_getElem?]
  simpa [at?] using absent

theorem mem_toList_iff {registry : PageRegistry} {page : Page} :
    page ∈ registry.toList ↔ ∃ address, registry.at? address = some page := by
  simp [toList, at?, Std.ExtTreeMap.mem_toList_iff_getElem?_eq_some]

end PageRegistry

namespace Machine

def page? (machine : Machine) (pid : Pid) (address : VirtAddr) : Option Page :=
  machine.spaces[pid]?.bind fun space => space.pages.at? address

def frame? (machine : Machine) (pid : Pid) (address : VirtAddr) : Option PhysAddr :=
  (machine.page? pid address).bind Page.frame

def slot? (machine : Machine) (pid : Pid) (address : VirtAddr) : Option Nat :=
  (machine.page? pid address).bind Page.slot?

/-- The part of a file behind the page registered at an address of a process. -/
def region? (machine : Machine) (pid : Pid) (address : VirtAddr) : Option FileRegion :=
  (machine.page? pid address).bind Page.region?

/-- The mapping to which the page registered at an address of a process belongs. -/
def mapping? (machine : Machine) (pid : Pid) (address : VirtAddr) : Option Mapping :=
  (machine.page? pid address).bind Page.mapping?

theorem mapping?_eq_map (machine : Machine) (pid : Pid) (address : VirtAddr) :
    machine.mapping? pid address = (machine.region? pid address).map FileRegion.mapping := by
  unfold mapping? region?
  cases machine.page? pid address <;> rfl

/-- Where the page table of a process leads the page at an address. -/
def translation? (machine : Machine) (pid : Pid) (address : VirtAddr) : Option Translation :=
  machine.spaces[pid]?.bind fun space => space.table.translation? address

/-- The user stack pointer of a process. -/
def stackPointer? (machine : Machine) (pid : Pid) : Option VirtAddr :=
  machine.spaces[pid]?.map AddressSpace.stackPointer

theorem findPage?_eq_page? (machine : Machine) (pid : Pid) (address : VirtAddr) :
    machine.findPage? pid address = machine.page? pid address.pageDown := rfl

variable {before after : Machine} {pid : Pid} {space changed : AddressSpace}

theorem page?_of_space (found : before.spaces[pid]? = some space) (address : VirtAddr) :
    before.page? pid address = space.pages.at? address := by
  simp [page?, found]

theorem space_of_page? {page : Page} {address : VirtAddr}
    (registered : before.page? pid address = some page) :
    ∃ space, before.spaces[pid]? = some space ∧ space.pages.at? address = some page :=
  Option.bind_eq_some_iff.1 registered

theorem spaces_insert (spaces : after.spaces = before.spaces.insert pid changed) (other : Pid) :
    after.spaces[other]? = if pid = other then some changed else before.spaces[other]? := by
  rw [spaces, Std.ExtTreeMap.getElem?_insert]
  simp

theorem spaces_erase (spaces : after.spaces = before.spaces.erase pid) (other : Pid) :
    after.spaces[other]? = if pid = other then none else before.spaces[other]? := by
  rw [spaces, Std.ExtTreeMap.getElem?_erase]
  simp

theorem insert_space (found : before.spaces[pid]? = some space) :
    before.spaces.insert pid space = before.spaces := by
  apply Std.ExtTreeMap.ext_getElem?
  intro other
  rw [Std.ExtTreeMap.getElem?_insert]
  by_cases same : pid = other
  · subst same; simp [found]
  · simp [same]

theorem erase_absent (absent : before.spaces[pid]? = none) :
    before.spaces.erase pid = before.spaces := by
  apply Std.ExtTreeMap.ext_getElem?
  intro other
  rw [Std.ExtTreeMap.getElem?_erase]
  by_cases same : pid = other
  · subst same; simp [absent]
  · simp [same]

theorem insert_insert_space (spaces : Std.ExtTreeMap Pid AddressSpace) (first last : AddressSpace) :
    (spaces.insert pid first).insert pid last = spaces.insert pid last := by
  apply Std.ExtTreeMap.ext_getElem?
  intro other
  simp only [Std.ExtTreeMap.getElem?_insert]
  by_cases same : pid = other
  · simp [same]
  · simp [same]

theorem erase_insert_space (spaces : Std.ExtTreeMap Pid AddressSpace) (space : AddressSpace) :
    (spaces.insert pid space).erase pid = spaces.erase pid := by
  apply Std.ExtTreeMap.ext_getElem?
  intro other
  simp only [Std.ExtTreeMap.getElem?_erase, Std.ExtTreeMap.getElem?_insert]
  by_cases same : pid = other
  · simp [same]
  · simp [same]

theorem page?_congr (spaces : after.spaces = before.spaces) (other : Pid) (address : VirtAddr) :
    after.page? other address = before.page? other address := by
  rw [page?, spaces, page?]

theorem page?_keep (found : before.spaces[pid]? = some space)
    (spaces : after.spaces = before.spaces.insert pid changed) (pages : changed.pages = space.pages)
    (other : Pid) (address : VirtAddr) :
    after.page? other address = before.page? other address := by
  unfold page?
  rw [spaces_insert spaces]
  split
  case isTrue same => subst same; simp [found, pages]
  case isFalse => rfl

theorem stackPointer?_keep (found : before.spaces[pid]? = some space)
    (spaces : after.spaces = before.spaces.insert pid changed)
    (same : changed.stackPointer = space.stackPointer) (other : Pid) :
    after.stackPointer? other = before.stackPointer? other := by
  unfold stackPointer?
  rw [spaces_insert spaces]
  split
  case isTrue here => rw [← here, found, Option.map_some, Option.map_some, same]
  case isFalse => rfl

/-- A process registers a page, or replaces one. -/
theorem page?_update {page : Page} (found : before.spaces[pid]? = some space)
    (spaces : after.spaces = before.spaces.insert pid changed)
    (pages : changed.pages = space.pages.put page) (other : Pid) (address : VirtAddr) :
    after.page? other address =
      if pid = other ∧ page.address = address then some page
      else before.page? other address := by
  unfold page?
  rw [spaces_insert spaces]
  by_cases same : pid = other
  · subst same
    simp [found, pages, PageRegistry.at?_put]
  · simp [same]

/-- A process takes a page out of its registry. -/
theorem page?_erased {removed : VirtAddr} (found : before.spaces[pid]? = some space)
    (spaces : after.spaces = before.spaces.insert pid changed)
    (pages : changed.pages = space.pages.erase removed) (other : Pid) (address : VirtAddr) :
    after.page? other address =
      if pid = other ∧ removed.pageDown = address then none
      else before.page? other address := by
  unfold page?
  rw [spaces_insert spaces]
  by_cases same : pid = other
  · subst same
    simp [found, pages, PageRegistry.at?_erase]
  · simp [same]

/-- A process without pages comes. -/
theorem page?_arrived (absent : before.spaces[pid]? = none)
    (spaces : after.spaces = before.spaces.insert pid AddressSpace.empty)
    (other : Pid) (address : VirtAddr) :
    after.page? other address = before.page? other address := by
  unfold page?
  rw [spaces_insert spaces]
  split
  case isTrue same =>
    subst same
    rw [absent]
    exact PageRegistry.at?_empty address
  case isFalse => rfl

/-- A process without pages goes. -/
theorem page?_left (found : before.spaces[pid]? = some space)
    (gone : ∀ address, space.pages.at? address = none)
    (spaces : after.spaces = before.spaces.erase pid) (other : Pid) (address : VirtAddr) :
    after.page? other address = before.page? other address := by
  unfold page?
  rw [spaces_erase spaces]
  split
  case isTrue same => subst same; simp [found, gone]
  case isFalse => rfl

/-- What is looked up with a page follows the lookup of the page. -/
theorem bind_page?_update {Value : Type} {page : Page} (part : Page → Option Value)
    (found : before.spaces[pid]? = some space)
    (spaces : after.spaces = before.spaces.insert pid changed)
    (pages : changed.pages = space.pages.put page) (other : Pid) (address : VirtAddr) :
    (after.page? other address).bind part =
      if pid = other ∧ page.address = address then part page
      else (before.page? other address).bind part := by
  rw [page?_update found spaces pages]
  split <;> rfl

theorem bind_page?_erased {Value : Type} {removed : VirtAddr} (part : Page → Option Value)
    (found : before.spaces[pid]? = some space)
    (spaces : after.spaces = before.spaces.insert pid changed)
    (pages : changed.pages = space.pages.erase removed) (other : Pid) (address : VirtAddr) :
    (after.page? other address).bind part =
      if pid = other ∧ removed.pageDown = address then none
      else (before.page? other address).bind part := by
  rw [page?_erased found spaces pages]
  split <;> rfl

end Machine

end DemandPaging
