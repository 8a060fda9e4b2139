import DemandPaging.Proofs.PageLookup

/-!
The agreement between the page table and the registry of one process.

Owns:
- `AddressSpace.Sound`, pages are registered under their own addresses, and exactly those in memory
  are mapped, each to its frame and with its permission;
- what an operation on one page does to it.

Does not own: which page a frame belongs to (`Machine.FramesOwned`).

Main statements: `Sound.pageOut`, a page in memory can be unmapped and is then only registered, and
`Sound.pageIn`, a page that is mapped to a frame and put there is found in it.
-/

namespace DemandPaging

namespace AddressSpace

/-- The page table says of every page what the registry says. -/
structure Sound (space : AddressSpace) : Prop where
  located : ∀ address page, space.pages.at? address = some page →
    page.address = address ∧ address.offset = 0
  translated : ∀ address,
    space.table.translation? address = (space.pages.at? address).bind Page.translation?

theorem sound_empty : empty.Sound where
  located address page registered := by simp [empty, PageRegistry.at?_empty] at registered
  translated address := by
    simp [empty, PageRegistry.at?_empty, PageTable.translation?, PageTable.view?_empty]

variable {space : AddressSpace} {page : Page} {frame : PhysAddr}

theorem Sound.mem_toList_iff (sound : space.Sound) {page : Page} {address : VirtAddr} :
    space.pages.at? address = some page ↔ page ∈ space.pages.toList ∧ page.address = address := by
  rw [PageRegistry.mem_toList_iff]
  constructor
  · intro registered
    exact ⟨⟨address, registered⟩, (sound.located address page registered).1⟩
  · intro known
    obtain ⟨⟨place, registered⟩, rfl⟩ := known
    rw [(sound.located place page registered).1]
    exact registered

theorem Sound.nodup_addresses (sound : space.Sound) :
    (space.pages.toList.map Page.address).Nodup := by
  have same : space.pages.toList.map Page.address = space.pages.pages.keys := by
    rw [PageRegistry.toList, List.map_map, ← Std.ExtTreeMap.map_fst_toList_eq_keys]
    apply List.map_congr_left
    intro entry member
    have registered : space.pages.at? entry.1 = some entry.2 :=
      Std.ExtTreeMap.mem_toList_iff_getElem?_eq_some.1 member
    exact (sound.located entry.1 entry.2 registered).1
  rw [same]
  exact Std.ExtTreeMap.nodup_keys

theorem Sound.view?_of_resident (sound : space.Sound)
    (registered : space.pages.at? page.address = some page) (held : page.frame = some frame) :
    ∃ view, space.table.view? page.address = some view ∧ view.frame? = some frame ∧
      view.writable = page.writable := by
  have translated := sound.translated page.address
  simp only [registered, Option.bind_some, Page.translation?, held, Option.map_some,
    PageTable.translation?] at translated
  obtain ⟨view, found, same⟩ := Option.map_eq_some_iff.1 translated
  injection same with leads permits
  exact ⟨view, found, leads, permits⟩

theorem Sound.view?_of_absent {address : VirtAddr} (sound : space.Sound)
    (absent : ∀ page, space.pages.at? address = some page → page.frame = none) :
    space.table.view? address = none := by
  rw [← PageTable.translation?_eq_none_iff, sound.translated]
  cases registered : space.pages.at? address with
  | none => rfl
  | some page => simp [Page.translation?, absent page registered]

/-- A page that is not in memory is not dirty. -/
theorem Sound.isDirty_of_absent {address : VirtAddr} (sound : space.Sound)
    (absent : ∀ page, space.pages.at? address.pageDown = some page → page.frame = none) :
    space.table.isDirty address = false := by
  rw [PageTable.isDirty_eq, sound.view?_of_absent absent]
  rfl

theorem Sound.exists_page_of_view? (sound : space.Sound) {address : VirtAddr} {view : EntryView}
    (found : space.table.view? address = some view) :
    ∃ page frame, space.pages.at? address = some page ∧ page.frame = some frame ∧
      view.frame? = some frame ∧ view.writable = page.writable := by
  have translated := sound.translated address
  simp only [PageTable.translation?, found, Option.map_some] at translated
  obtain ⟨page, registered, same⟩ := Option.bind_eq_some_iff.1 translated.symm
  obtain ⟨frame, held, same⟩ := Option.map_eq_some_iff.1 same
  injection same with leads permits
  exact ⟨page, frame, registered, held, leads.symm, permits.symm⟩

/-- A change that moves no page keeps the table and the registry in agreement. -/
theorem Sound.of_translation? {table : PageTable} {stackPointer : VirtAddr} (sound : space.Sound)
    (same : ∀ address, table.translation? address = space.table.translation? address) :
    (⟨table, space.pages, stackPointer⟩ : AddressSpace).Sound where
  located := sound.located
  translated address := (same address).trans (sound.translated address)

theorem Sound.access (sound : space.Sound) (address : VirtAddr) (write : Bool) :
    ({ space with table := (space.table.access address write).2 } : AddressSpace).Sound :=
  have leads : ∀ view, space.table.view? address.pageDown = some view → view.frame?.isSome := by
    intro view found
    obtain ⟨_, _, -, -, same, -⟩ := sound.exists_page_of_view? found
    rw [same]
    rfl
  sound.of_translation? fun _ => PageTable.translation?_access address write leads _

theorem Sound.table_of_access_error (sound : space.Sound) {address : VirtAddr} {write : Bool}
    {code : FaultCode} {table : PageTable}
    (faults : space.table.access address write = (.error code, table)) : table = space.table := by
  cases viewed : space.table.view? address.pageDown with
  | none =>
      rw [PageTable.access_of_unmapped write viewed] at faults
      cases faults
      rfl
  | some view =>
      obtain ⟨_, frame, -, -, leads, -⟩ := sound.exists_page_of_view? viewed
      by_cases allowed : write = true → view.writable = true
      · obtain ⟨marked, accessed, -⟩ := PageTable.access_of_mapped viewed leads allowed
        rw [accessed] at faults
        cases faults
      · obtain ⟨rfl, readOnly⟩ := Classical.not_imp.1 allowed
        rw [PageTable.access_of_protected viewed (by simpa using readOnly)] at faults
        cases faults
        rfl

/-- Replacing a page keeps the agreement if the table follows. -/
theorem Sound.put {table : PageTable} {changed : Page} (sound : space.Sound)
    (aligned : changed.address.offset = 0)
    (follows : ∀ address, table.translation? address =
      if changed.address = address then changed.translation?
      else space.table.translation? address) :
    ({ space with table, pages := space.pages.put changed } : AddressSpace).Sound where
  located address page registered := by
    rw [PageRegistry.at?_put] at registered
    split at registered
    case isTrue same => cases registered; exact ⟨same, same ▸ aligned⟩
    case isFalse => exact sound.located address page registered
  translated address := by
    rw [follows, PageRegistry.at?_put]
    split
    · rfl
    · exact sound.translated address

/-- Taking a page out keeps the agreement if the table follows. -/
theorem Sound.erase {table : PageTable} {removed : VirtAddr} (sound : space.Sound)
    (aligned : removed.offset = 0)
    (follows : ∀ address, table.translation? address =
      if removed = address then none else space.table.translation? address) :
    ({ space with table, pages := space.pages.erase removed } : AddressSpace).Sound where
  located address page registered := by
    rw [PageRegistry.at?_erase] at registered
    split at registered
    · cases registered
    · exact sound.located address page registered
  translated address := by
    rw [follows, PageRegistry.at?_erase, Address.pageDown_eq_self_iff.2 aligned]
    split
    · rfl
    · exact sound.translated address

/-! ## Pages that come and go -/

/-- A page in memory can be unmapped. -/
theorem Sound.exists_unmap_eq (sound : space.Sound)
    (registered : space.pages.at? page.address = some page) (held : page.frame = some frame) :
    ∃ table, space.table.unmap page.address = (.ok frame, table) ∧
      ∀ address, table.view? address =
        if page.address = address then none else space.table.view? address := by
  obtain ⟨view, found, leads, -⟩ := sound.view?_of_resident registered held
  exact PageTable.view?_of_unmap (sound.located _ _ registered).2 found leads

theorem Sound.view?_of_unmap {old : PhysAddr} {table : PageTable} (sound : space.Sound)
    (registered : space.pages.at? page.address = some page) (held : page.frame = some frame)
    (unmapped : space.table.unmap page.address = (.ok old, table)) (address : VirtAddr) :
    table.view? address =
      if page.address = address then none else space.table.view? address := by
  obtain ⟨rest, unmapped', views⟩ := sound.exists_unmap_eq registered held
  rw [unmapped] at unmapped'
  cases unmapped'
  exact views address

theorem Sound.translation?_of_unmap {old : PhysAddr} {table : PageTable} (sound : space.Sound)
    (registered : space.pages.at? page.address = some page) (held : page.frame = some frame)
    (unmapped : space.table.unmap page.address = (.ok old, table)) (address : VirtAddr) :
    table.translation? address =
      if page.address = address then none else space.table.translation? address := by
  unfold PageTable.translation?
  rw [sound.view?_of_unmap registered held unmapped]
  split <;> rfl

/-- Without its frame, a page that was unmapped agrees with the table. -/
theorem Sound.pageOut {old : PhysAddr} {table : PageTable} (sound : space.Sound)
    (registered : space.pages.at? page.address = some page) (held : page.frame = some frame)
    (unmapped : space.table.unmap page.address = (.ok old, table)) (backing : Backing) :
    ({ space with
      table
      pages := space.pages.put { page with backing, frame := none } } : AddressSpace).Sound := by
  have follows := sound.translation?_of_unmap registered held unmapped
  exact sound.put (sound.located _ _ registered).2 follows

theorem Sound.pageIn {table : PageTable} (sound : space.Sound)
    (registered : space.pages.at? page.address = some page)
    (physical : frame.toNat < PhysAddr.bound)
    (mapped : space.table.map page.address frame page.permission = .ok table)
    (backing : Backing) :
    ({ space with
      table
      pages := space.pages.put { page with backing, frame := some frame } } :
        AddressSpace).Sound := by
  have aligned := (sound.located _ _ registered).2
  show ({ space with table, pages := space.pages.put _ } : AddressSpace).Sound
  refine sound.put aligned fun address => ?_
  unfold PageTable.translation?
  rw [PageTable.view?_of_map physical mapped]
  split <;> rfl

/-- A page that is registered without a frame agrees with the table. -/
theorem Sound.register (sound : space.Sound) (absent : page.frame = none)
    (aligned : page.address.offset = 0) (unknown : space.pages.at? page.address = none) :
    ({ space with pages := space.pages.put page } : AddressSpace).Sound := by
  apply sound.put aligned
  intro address
  split
  case isTrue same =>
    subst same
    rw [sound.translated, unknown, Page.translation?, absent]
    rfl
  case isFalse => rfl

theorem Sound.eraseAbsent (sound : space.Sound)
    (registered : space.pages.at? page.address = some page) (absent : page.frame = none) :
    ({ space with pages := space.pages.erase page.address } : AddressSpace).Sound := by
  apply sound.erase (sound.located _ _ registered).2
  intro address
  split
  case isTrue same =>
    subst same
    rw [sound.translated, registered, Option.bind_some, Page.translation?, absent]
    rfl
  case isFalse => rfl

end AddressSpace

end DemandPaging
