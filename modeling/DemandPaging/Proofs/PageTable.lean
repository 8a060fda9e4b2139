import DemandPaging.PageTable

/-!
The page table as a table from page addresses to structured entries.

Owns:
- `PageTable.view?`, what the entry of a page says, and what every operation does to it;
- `PageTable.translation?`, the part of it that only mapping and unmapping change.

Does not own: which pages are mapped.

Main statements: `view?_of_map`, `view?_of_unmap` and `view?_of_access`, each operation changes the
entry of one page, and flags and frames never disturb each other.
-/

namespace DemandPaging

/-- What an entry says: the frame it leads to, whether it may be written, and its two marks. -/
structure EntryView where
  frame? : Option PhysAddr
  writable : Bool
  accessed : Bool
  dirty : Bool
deriving DecidableEq, Repr

/-- The flags of an entry after an access to its page. -/
def EntryFlags.marked (flags : EntryFlags) (write : Bool) : EntryFlags :=
  { flags with accessed := true, dirty := flags.dirty || write }

def Entry.view (entry : Entry) : EntryView where
  frame? := entry.frame?
  writable := entry.flags.writable
  accessed := entry.flags.accessed
  dirty := entry.flags.dirty

/-- Where a page is found, and whether it may be written there. -/
structure Translation where
  frame? : Option PhysAddr
  writable : Bool
deriving DecidableEq, Repr

namespace PageTable

/-- What the entry of a page says, if the page is mapped. -/
def view? (table : PageTable) (page : VirtAddr) : Option EntryView :=
  table.entries[page]?.map Entry.view

/-- Where a page is found, if it is mapped. -/
def translation? (table : PageTable) (page : VirtAddr) : Option Translation :=
  (table.view? page).map fun view => ⟨view.frame?, view.writable⟩

variable {table : PageTable}

theorem view?_empty (page : VirtAddr) : empty.view? page = none := by
  simp [view?, empty]

theorem translation?_eq_none_iff {page : VirtAddr} :
    table.translation? page = none ↔ table.view? page = none := by
  simp [translation?]

theorem isAccessed_eq (table : PageTable) (address : VirtAddr) :
    table.isAccessed address = (table.view? address.pageDown).any EntryView.accessed := by
  unfold isAccessed entry? view?
  cases table.entries[address.pageDown]? <;> rfl

theorem isDirty_eq (table : PageTable) (address : VirtAddr) :
    table.isDirty address = (table.view? address.pageDown).any EntryView.dirty := by
  unfold isDirty entry? view?
  cases table.entries[address.pageDown]? <;> rfl

theorem isEmpty_iff_view? : table.isEmpty = true ↔ ∀ page, table.view? page = none := by
  unfold isEmpty view?
  rw [Std.ExtTreeMap.isEmpty_iff]
  constructor
  · intro same page
    simp [same]
  · intro none
    apply Std.ExtTreeMap.ext_getElem?
    intro page
    simpa using none page

theorem getElem?_insert (page : VirtAddr) (entry : Entry) (other : VirtAddr) :
    (table.entries.insert page entry)[other]? =
      if page = other then some entry else table.entries[other]? := by
  simp [Std.ExtTreeMap.getElem?_insert]

theorem getElem?_erase (page other : VirtAddr) :
    (table.entries.erase page)[other]? =
      if page = other then none else table.entries[other]? := by
  simp [Std.ExtTreeMap.getElem?_erase]

/-! ## Mapping and unmapping -/

/-- A page that is mapped has a clean entry for its frame, and no other entry changes. -/
theorem view?_of_map {result : PageTable} {page : VirtAddr} {frame : PhysAddr}
    {permission : Permission} (physical : frame.toNat < PhysAddr.bound)
    (mapped : table.map page frame permission = .ok result) (other : VirtAddr) :
    result.view? other =
      if page = other then some ⟨some frame, permission.write, false, false⟩
      else table.view? other := by
  unfold map at mapped
  split at mapped
  · cases mapped
  case isFalse aligned =>
    split at mapped
    · cases mapped
    split at mapped
    · cases mapped
    cases mapped
    have frameAligned : frame.offset = 0 := by simpa using (not_or.1 aligned).2
    unfold view?
    rw [getElem?_insert]
    split
    · simp [Entry.view, Entry.flags_ofFrame frameAligned, freshFlags,
        Entry.frame?_ofFrame frameAligned physical]
    · rfl

theorem view?_eq_none_of_map {result : PageTable} {page : VirtAddr} {frame : PhysAddr}
    {permission : Permission} (mapped : table.map page frame permission = .ok result) :
    table.view? page = none := by
  unfold map at mapped
  split at mapped
  · cases mapped
  split at mapped
  · cases mapped
  split at mapped
  · cases mapped
  case isFalse absent =>
    rw [Std.ExtTreeMap.mem_iff_isSome_getElem?] at absent
    simpa [view?] using absent

/-- A mapped page can be unmapped, which answers its frame, and no other entry changes. -/
theorem view?_of_unmap {page : VirtAddr} {frame : PhysAddr} {view : EntryView}
    (aligned : page.offset = 0) (found : table.view? page = some view)
    (leads : view.frame? = some frame) :
    ∃ rest, table.unmap page = (.ok frame, rest) ∧
      ∀ other, rest.view? other = if page = other then none else table.view? other := by
  obtain ⟨entry, atPage, rfl⟩ := Option.map_eq_some_iff.1 found
  have leads' : entry.frame? = some frame := leads
  refine ⟨⟨table.entries.erase page⟩, by simp [unmap, aligned, atPage, leads'], fun other => ?_⟩
  unfold view?
  rw [getElem?_erase]
  split <;> rfl

/-- A page that is not mapped cannot be unmapped, and trying to changes nothing. -/
theorem unmap_of_unmapped {page : VirtAddr} (unmapped : table.view? page = none) :
    table.unmap page = (.error (if page.offset = 0 then .notExist else .unaligned), table) := by
  have absent : table.entries[page]? = none := by simpa [view?] using unmapped
  by_cases aligned : page.offset = 0
  · simp [unmap, aligned, absent]
  · simp [unmap, aligned]

/-! ## Marks -/

theorem view?_updateFlags (address : VirtAddr) (change : EntryFlags → EntryFlags)
    (present : ∀ flags, (change flags).present = flags.present) (other : VirtAddr) :
    (table.updateFlags address change).view? other =
      if address.pageDown = other then
        (table.entry? address).map fun entry =>
          { frame? := entry.frame?
            writable := (change entry.flags).writable
            accessed := (change entry.flags).accessed
            dirty := (change entry.flags).dirty }
      else table.view? other := by
  unfold updateFlags
  cases found : table.entry? address with
  | none =>
      by_cases same : address.pageDown = other
      · subst same
        simp only [if_true, Option.map_none]
        simpa [view?, entry?] using found
      · simp [same]
  | some entry =>
      unfold view?
      dsimp only
      rw [getElem?_insert]
      split
      · simp [Entry.view, Entry.frame?_withFlags _ (present _)]
      · rfl

theorem view?_setAccessed (address : VirtAddr) (accessed : Bool) (other : VirtAddr) :
    (table.setAccessed address accessed).view? other =
      if address.pageDown = other then
        (table.view? other).map fun view => { view with accessed }
      else table.view? other := by
  unfold setAccessed
  rw [view?_updateFlags address (fun flags => { flags with accessed }) (fun _ => rfl)]
  by_cases same : address.pageDown = other
  · subst same
    simp [view?, entry?, Entry.view, Function.comp_def]
  · simp [same]

theorem translation?_setAccessed (address : VirtAddr) (accessed : Bool) (other : VirtAddr) :
    (table.setAccessed address accessed).translation? other = table.translation? other := by
  unfold translation?
  rw [view?_setAccessed]
  split
  · cases table.view? other <;> rfl
  · rfl

/-! ## Access -/

/-- An access to a page that is not mapped faults and changes nothing. -/
theorem access_of_unmapped {address : VirtAddr} (write : Bool)
    (unmapped : table.view? address.pageDown = none) :
    table.access address write = (.error ⟨false, write, true⟩, table) := by
  have absent : table.entry? address = none := by simpa [view?, entry?] using unmapped
  simp [access, absent]

/-- A write to a page that may not be written faults and changes nothing. -/
theorem access_of_protected {address : VirtAddr} {view : EntryView}
    (found : table.view? address.pageDown = some view) (protectedPage : view.writable = false) :
    table.access address true = (.error ⟨true, true, true⟩, table) := by
  obtain ⟨entry, atPage, rfl⟩ := Option.map_eq_some_iff.1 found
  have present : table.entry? address = some entry := atPage
  have readOnly : entry.flags.writable = false := protectedPage
  simp [access, present, readOnly]

/-- Any other access leaves its marks, and answers the place of the byte if the entry gives its
frame back. -/
theorem access_of_permitted {address : VirtAddr} {write : Bool} {entry : Entry}
    (found : table.entry? address = some entry)
    (permitted : write = true → entry.flags.writable = true) :
    table.access address write =
      (match entry.frame? with
        | some frame => .ok ⟨frame, address.offset⟩
        | none => .error { present := false, write, user := true },
        ⟨table.entries.insert address.pageDown (entry.withFlags (entry.flags.marked write))⟩) := by
  have permits : (write && !entry.flags.writable) = false := by
    cases write with
    | false => rfl
    | true => simpa using permitted rfl
  have kept : (entry.withFlags (entry.flags.marked write)).frame? = entry.frame? :=
    entry.frame?_withFlags rfl
  have marks : ({ entry.flags with accessed := true, dirty := entry.flags.dirty || write } :
      EntryFlags) = entry.flags.marked write := rfl
  simp only [access, found, permits, Bool.false_eq_true, if_false, marks, kept]
  cases entry.frame? <;> rfl

/-- So does an access to a page whose entry gives its frame back. -/
theorem access_of_mapped {address : VirtAddr} {write : Bool} {view : EntryView}
    {frame : PhysAddr} (found : table.view? address.pageDown = some view)
    (leads : view.frame? = some frame) (allowed : write = true → view.writable = true) :
    ∃ marked, table.access address write = (.ok ⟨frame, address.offset⟩, marked) ∧
      ∀ other, marked.view? other =
        if address.pageDown = other then
          some { view with accessed := true, dirty := view.dirty || write }
        else table.view? other := by
  obtain ⟨entry, atPage, rfl⟩ := Option.map_eq_some_iff.1 found
  have leads' : entry.frame? = some frame := leads
  have accessed : table.access address write = _ := access_of_permitted atPage allowed
  have kept : (entry.withFlags (entry.flags.marked write)).frame? = entry.frame? :=
    entry.frame?_withFlags rfl
  rw [leads'] at accessed
  refine ⟨_, accessed, fun other => ?_⟩
  unfold view?
  rw [getElem?_insert]
  split
  · rw [Option.map_some, Entry.view, kept, Entry.flags_withFlags]
    rfl
  · rfl

theorem translation?_access (address : VirtAddr) (write : Bool)
    (leads : ∀ view, table.view? address.pageDown = some view → view.frame?.isSome)
    (other : VirtAddr) :
    (table.access address write).2.translation? other = table.translation? other := by
  cases found : table.view? address.pageDown with
  | none => rw [access_of_unmapped write found]
  | some view =>
      obtain ⟨frame, atFrame⟩ := Option.isSome_iff_exists.1 (leads view found)
      by_cases allowed : write = true → view.writable = true
      · obtain ⟨marked, accessed, views⟩ := access_of_mapped found atFrame allowed
        rw [accessed]
        unfold translation?
        rw [views]
        split
        case isTrue same => subst same; simp [found]
        case isFalse => rfl
      · obtain ⟨rfl, readOnly⟩ := Classical.not_imp.1 allowed
        rw [access_of_protected found (by simpa using readOnly)]

/-! ## The number of entries -/

theorem mem_entries_iff {page : VirtAddr} :
    page ∈ table.entries ↔ (table.view? page).isSome = true := by
  rw [Std.ExtTreeMap.mem_iff_isSome_getElem?, view?, Option.isSome_map]

theorem size_of_map {result : PageTable} {page : VirtAddr} {frame : PhysAddr}
    {permission : Permission} (mapped : table.map page frame permission = .ok result) :
    result.size = table.size + 1 := by
  have absent : page ∉ table.entries := by simp [mem_entries_iff, view?_eq_none_of_map mapped]
  unfold map at mapped
  split at mapped
  · cases mapped
  split at mapped
  · cases mapped
  cases mapped
  simp [size, Std.ExtTreeMap.size_insert, absent]

theorem size_erase {page : VirtAddr} (present : page ∈ table.entries) :
    (⟨table.entries.erase page⟩ : PageTable).size = table.size - 1 := by
  rw [size, Std.ExtTreeMap.size_erase, if_pos (Std.ExtTreeMap.contains_iff_mem.2 present)]
  rfl

/-- Another entry for a page that has one. -/
theorem size_insert {page : VirtAddr} (present : page ∈ table.entries) (entry : Entry) :
    (⟨table.entries.insert page entry⟩ : PageTable).size = table.size := by
  rw [size, Std.ExtTreeMap.size_insert, if_pos (Std.ExtTreeMap.contains_iff_mem.2 present)]
  rfl

end PageTable

end DemandPaging
