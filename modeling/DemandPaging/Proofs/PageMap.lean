import DemandPaging.Proofs.PageTable
import DemandPaging.Proofs.Requests
import Mathlib.Data.Finmap

/-!
The page table as a finite map from the pages below the kernel to their frames and marks.

Owns:
- `PageMap`, such a map, and how it answers the requests that a page table answers;
- `PageTable.Shows`, which map a page table stands for, and that every request keeps it.

Does not own: what the word of an entry holds (`Entry`), and which pages a process has.

An entry holds any page-aligned word as its frame, but gives back a physical address only. So the
map keeps frames whose number is too large as well, and answers accesses to their pages and requests
to unmap them as if there were no frame.

Main statement: `PageTable.serves_as_map`.
-/

namespace DemandPaging

/-! ## Finite maps of pages -/

/-- A page that a user may have: a page address below the kernel. -/
structure UserPage where
  address : VirtAddr
  aligned : address.offset = 0
  user : address.isKernel = false
deriving DecidableEq

/-- The page of an address, if it is the address of a page below the kernel. -/
def UserPage.of? (address : VirtAddr) : Option UserPage :=
  if proper : address.offset = 0 ∧ address.isKernel = false then
    some ⟨address, proper.1, proper.2⟩
  else
    none

theorem UserPage.of?_address (page : UserPage) : of? page.address = some page :=
  dif_pos ⟨page.aligned, page.user⟩

theorem UserPage.address_inj {left right : UserPage} :
    left.address = right.address ↔ left = right := by
  cases left
  cases right
  simp

/-- An address is that of a page below the kernel or of none. -/
theorem UserPage.address_or_none (address : VirtAddr) :
    (∃ page : UserPage, page.address = address) ∨ of? address = none := by
  by_cases proper : address.offset = 0 ∧ address.isKernel = false
  · exact .inl ⟨⟨address, proper.1, proper.2⟩, rfl⟩
  · exact .inr (dif_neg proper)

/-- Where a page is found, whether it may be written there, and its two marks. -/
structure PageState where
  frame : PhysAddr
  aligned : frame.offset = 0
  writable : Bool
  accessed : Bool
  dirty : Bool

/-- The frame of a page, unless its number is too large for a physical address. Such a frame comes
from unchecked arithmetic only, and an entry does not give it back. -/
def PageState.frame? (state : PageState) : Option PhysAddr :=
  if state.frame.toNat < PhysAddr.bound then some state.frame else none

/-- A page after an access to it. -/
def PageState.marked (state : PageState) (write : Bool) : PageState :=
  { state with accessed := true, dirty := state.dirty || write }

/-- A finite map from pages to where they are found. -/
abbrev PageMap : Type := Finmap fun _ : UserPage => PageState

namespace PageMap

variable (pages : PageMap)

/-- Where the page with an address is found, if the map has it. -/
def at? (address : VirtAddr) : Option PageState :=
  (UserPage.of? address).bind fun page => pages.lookup page

def remove (address : VirtAddr) : PageMap :=
  match UserPage.of? address with
  | some page => pages.erase page
  | none => pages

/-- Change what the map has for the page with an address, if it has the page. -/
def modify (address : VirtAddr) (change : PageState → PageState) : PageMap :=
  match UserPage.of? address with
  | some page =>
    match pages.lookup page with
    | some state => pages.insert page (change state)
    | none => pages
  | none => pages

variable {pages}

theorem at?_empty (address : VirtAddr) : at? ∅ address = none := by
  unfold at?
  cases UserPage.of? address <;> rfl

theorem at?_address (page : UserPage) : pages.at? page.address = pages.lookup page := by
  rw [at?, page.of?_address, Option.bind_some]

theorem at?_eq_none {address : VirtAddr} (improper : UserPage.of? address = none) :
    pages.at? address = none := by
  rw [at?, improper, Option.bind_none]

theorem exists_page_of_at? {address : VirtAddr} {state : PageState}
    (found : at? pages address = some state) : ∃ page : UserPage, page.address = address := by
  obtain mapped | improper := UserPage.address_or_none address
  · exact mapped
  · rw [at?_eq_none improper] at found
    cases found

theorem mem_iff_at? {page : UserPage} : page ∈ pages ↔ (pages.at? page.address).isSome := by
  rw [at?_address, Finmap.lookup_isSome]

theorem at?_insert (page : UserPage) (state : PageState) (other : VirtAddr) :
    at? (pages.insert page state) other =
      if page.address = other then some state else pages.at? other := by
  obtain ⟨otherPage, rfl⟩ | improper := UserPage.address_or_none other
  · rw [at?_address, at?_address]
    by_cases same : page = otherPage
    · rw [same, if_pos rfl, Finmap.lookup_insert]
    · rw [if_neg (mt UserPage.address_inj.1 same), Finmap.lookup_insert_of_ne _ (Ne.symm same)]
  · have distinct : page.address ≠ other := by
      rintro rfl
      simp [page.of?_address] at improper
    rw [at?_eq_none improper, at?_eq_none improper, if_neg distinct]

theorem at?_remove (address other : VirtAddr) :
    at? (pages.remove address) other = if address = other then none else pages.at? other := by
  obtain ⟨page, rfl⟩ | improper := UserPage.address_or_none address
  · simp only [remove, page.of?_address]
    obtain ⟨otherPage, rfl⟩ | improper := UserPage.address_or_none other
    · rw [at?_address, at?_address]
      by_cases same : page = otherPage
      · rw [same, if_pos rfl, Finmap.lookup_erase]
      · rw [if_neg (mt UserPage.address_inj.1 same), Finmap.lookup_erase_ne (Ne.symm same)]
    · rw [at?_eq_none improper, at?_eq_none improper, ite_self]
  · simp only [remove, improper]
    by_cases same : address = other
    · rw [if_pos same, ← same, at?_eq_none improper]
    · rw [if_neg same]

theorem modify_eq_self {address : VirtAddr} (absent : pages.at? address = none)
    (change : PageState → PageState) : pages.modify address change = pages := by
  obtain ⟨page, rfl⟩ | improper := UserPage.address_or_none address
  · rw [at?_address] at absent
    simp only [modify, page.of?_address, absent]
  · simp only [modify, improper]

theorem modify_eq_insert {page : UserPage} {state : PageState}
    (found : pages.at? page.address = some state) (change : PageState → PageState) :
    pages.modify page.address change = pages.insert page (change state) := by
  rw [at?_address] at found
  simp only [modify, page.of?_address, found]

theorem at?_modify (address other : VirtAddr) (change : PageState → PageState) :
    at? (pages.modify address change) other =
      if address = other then (pages.at? other).map change else pages.at? other := by
  cases found : pages.at? address with
  | none =>
      rw [modify_eq_self found]
      by_cases same : address = other
      · rw [if_pos same, ← same, found, Option.map_none]
      · rw [if_neg same]
  | some state =>
      obtain ⟨page, rfl⟩ := exists_page_of_at? found
      rw [modify_eq_insert found, at?_insert]
      by_cases same : page.address = other
      · rw [if_pos same, if_pos same, ← same, found, Option.map_some]
      · rw [if_neg same, if_neg same]

/-- A change of what the map has for a page keeps the pages that it has. -/
theorem keys_modify (address : VirtAddr) (change : PageState → PageState) :
    (pages.modify address change).keys = pages.keys := by
  cases found : pages.at? address with
  | none => rw [modify_eq_self found]
  | some state =>
      obtain ⟨page, rfl⟩ := exists_page_of_at? found
      rw [modify_eq_insert found]
      ext other
      simp only [Finmap.mem_keys, Finmap.mem_insert]
      constructor
      · rintro (rfl | mapped)
        · exact mem_iff_at?.2 (by rw [found]; rfl)
        · exact mapped
      · exact .inr

theorem card_keys_insert {page : UserPage} (absent : page ∉ pages) (state : PageState) :
    (pages.insert page state).keys.card = pages.keys.card + 1 := by
  have keys : (pages.insert page state).keys = insert page pages.keys := by
    ext other
    simp only [Finmap.mem_keys, Finmap.mem_insert, Finset.mem_insert]
  rw [keys, Finset.card_insert_of_notMem (mt Finmap.mem_keys.1 absent)]

theorem card_keys_remove {page : UserPage} {state : PageState}
    (found : pages.at? page.address = some state) :
    (pages.remove page.address).keys.card = pages.keys.card - 1 := by
  have present : page ∈ pages := mem_iff_at?.2 (Option.isSome_of_eq_some found)
  simp only [remove, page.of?_address]
  rw [Finmap.keys_erase, Finset.card_erase_of_mem (Finmap.mem_keys.2 present)]

end PageMap

/-! ## Requests -/

/-- What may be asked of a page table. -/
inductive PageRequest where
  | map (page : VirtAddr) (frame : PhysAddr) (permission : Permission)
  | unmap (page : VirtAddr)
  | access (address : VirtAddr) (write : Bool)
  | setDirty (address : VirtAddr) (dirty : Bool)
  | setAccessed (address : VirtAddr) (accessed : Bool)

inductive PageReply where
  | mapped (outcome : Except MapError Unit)
  | unmapped (outcome : Except MapError PhysAddr)
  /-- The number of the physical byte, or the code of the fault. -/
  | accessed (outcome : Except FaultCode Nat)
  | done
deriving DecidableEq

def PageTable.answer (table : PageTable) : PageRequest → PageReply × PageTable
  | .map page frame permission =>
    match table.map page frame permission with
    | .ok result => (.mapped (.ok ()), result)
    | .error cause => (.mapped (.error cause), table)
  | .unmap page =>
    let (outcome, rest) := table.unmap page
    (.unmapped outcome, rest)
  | .access address write =>
    let (outcome, marked) := table.access address write
    (.accessed (outcome.map Location.address), marked)
  | .setDirty address dirty => (.done, table.setDirty address dirty)
  | .setAccessed address accessed => (.done, table.setAccessed address accessed)

/-- A page is mapped clean, once both addresses are page addresses, the page is below the kernel and
the map does not have it. Only a page that the map has can be accessed, which marks it, and only a
writable one written. A page whose frame has too large a number is marked by an access and removed
by unmapping as any other, but the frame is not answered. -/
def PageMap.answer (pages : PageMap) : PageRequest → PageReply × PageMap
  | .map page frame permission =>
    if unaligned : page.offset ≠ 0 ∨ frame.offset ≠ 0 then
      (.mapped (.error .unaligned), pages)
    else
      match UserPage.of? page with
      | none => (.mapped (.error .invalidPermission), pages)
      | some userPage =>
        if userPage ∈ pages then
          (.mapped (.error .duplicated), pages)
        else
          have aligned := Decidable.not_not.1 (not_or.1 unaligned).2
          (.mapped (.ok ()), pages.insert userPage ⟨frame, aligned, permission.write, false, false⟩)
  | .unmap page =>
    match pages.at? page with
    | some state =>
      match state.frame? with
      | some frame => (.unmapped (.ok frame), pages.remove page)
      | none => (.unmapped (.error .notExist), pages.remove page)
    | none => (.unmapped (.error (if page.offset = 0 then .notExist else .unaligned)), pages)
  | .access address write =>
    match pages.at? address.pageDown with
    | some state =>
      if write = true ∧ state.writable = false then
        (.accessed (.error { present := true, write := true, user := true }), pages)
      else
        let marked := pages.modify address.pageDown fun state => state.marked write
        match state.frame? with
        | some frame => (.accessed (.ok (frame.toNat + address.offset)), marked)
        | none => (.accessed (.error { present := false, write, user := true }), marked)
    | none => (.accessed (.error { present := false, write, user := true }), pages)
  | .setDirty address dirty =>
    (.done, pages.modify address.pageDown fun state => { state with dirty })
  | .setAccessed address accessed =>
    (.done, pages.modify address.pageDown fun state => { state with accessed })

/-! ## The entry of a page -/

namespace PageState

variable (state : PageState)

def flags : EntryFlags where
  present := true
  writable := state.writable
  user := true
  accessed := state.accessed
  dirty := state.dirty

/-- The entry that stands for what a map has for a page. -/
def entry : Entry := .ofFrame state.frame state.flags

/-- What the entry of a page that is mapped says. -/
def view : EntryView where
  frame? := state.frame?
  writable := state.writable
  accessed := state.accessed
  dirty := state.dirty

theorem flags_entry : state.entry.flags = state.flags := Entry.flags_ofFrame state.aligned _

theorem frame?_entry : state.entry.frame? = state.frame? := by
  unfold frame? PageState.entry
  split
  case isTrue physical => exact Entry.frame?_ofFrame state.aligned physical rfl
  case isFalse beyond => exact Entry.frame?_ofFrame_of_le state.aligned (Nat.le_of_not_lt beyond) _

theorem view_entry : state.entry.view = state.view := by
  rw [Entry.view, flags_entry, frame?_entry]
  rfl

/-- Other marks leave the frame of an entry alone. -/
theorem withFlags_entry (changed : PageState) (frame : changed.frame = state.frame) :
    state.entry.withFlags changed.flags = changed.entry := by
  rw [PageState.entry, Entry.withFlags_ofFrame state.aligned, PageState.entry, frame]

end PageState

namespace PageTable

/-- A page table stands for a map if its entries are those of the pages in the map. -/
structure Shows (table : PageTable) (pages : PageMap) : Prop where
  entries : ∀ page, table.entries[page]? = (pages.at? page).map PageState.entry
  size : table.size = pages.keys.card

theorem shows_empty : empty.Shows ∅ where
  entries page := by
    rw [PageMap.at?_empty]
    simp [empty]
  size := rfl

namespace Shows

variable {table : PageTable} {pages : PageMap}

theorem mem_entries_iff (stands : table.Shows pages) (page : UserPage) :
    page.address ∈ table.entries ↔ page ∈ pages := by
  rw [Std.ExtTreeMap.mem_iff_isSome_getElem?, stands.entries, Option.isSome_map,
    PageMap.mem_iff_at?]

theorem view? (stands : table.Shows pages) (page : VirtAddr) :
    table.view? page = (pages.at? page).map PageState.view := by
  rw [PageTable.view?, stands.entries, Option.map_map]
  exact Option.map_congr fun state _ => state.view_entry

/-! ### Every request keeps it -/

theorem answer_map (stands : table.Shows pages) (page : VirtAddr) (frame : PhysAddr)
    (permission : Permission) :
    let request := PageRequest.map page frame permission
    (table.answer request).1 = (pages.answer request).1 ∧
      (table.answer request).2.Shows (pages.answer request).2 := by
  intro request
  by_cases unaligned : page.offset ≠ 0 ∨ frame.offset ≠ 0
  · have refused : table.map page frame permission = .error .unaligned := by
      rw [map, if_pos unaligned]
    simp only [request, answer, PageMap.answer, refused, dif_pos unaligned]
    exact ⟨trivial, stands⟩
  obtain ⟨userPage, rfl⟩ | improper := UserPage.address_or_none page
  · by_cases present : userPage ∈ pages
    · have refused : table.map userPage.address frame permission = .error .duplicated := by
        rw [map, if_neg unaligned, userPage.user, if_neg Bool.false_ne_true,
          if_pos ((stands.mem_entries_iff userPage).2 present)]
      simp only [request, answer, PageMap.answer, refused, dif_neg unaligned, userPage.of?_address,
        if_pos present]
      exact ⟨trivial, stands⟩
    · have absent := mt (stands.mem_entries_iff userPage).1 present
      have mapped : table.map userPage.address frame permission =
          .ok ⟨table.entries.insert userPage.address (.ofFrame frame (freshFlags permission))⟩ := by
        rw [map, if_neg unaligned, userPage.user, if_neg Bool.false_ne_true, if_neg absent]
      simp only [request, answer, PageMap.answer, mapped, dif_neg unaligned, userPage.of?_address,
        if_neg present]
      refine ⟨trivial, fun address => ?_, ?_⟩
      · rw [getElem?_insert, stands.entries, PageMap.at?_insert]
        split <;> rfl
      · rw [size_of_map mapped, stands.size, PageMap.card_keys_insert present]
  · have kernel : page.isKernel = true := by
      by_contra below
      have proper : page.offset = 0 ∧ page.isKernel = false :=
        ⟨by simpa using (not_or.1 unaligned).1, by simpa using below⟩
      rw [UserPage.of?, dif_pos proper] at improper
      cases improper
    have refused : table.map page frame permission = .error .invalidPermission := by
      rw [map, if_neg unaligned, if_pos kernel]
    simp only [request, answer, PageMap.answer, refused, dif_neg unaligned, improper]
    exact ⟨trivial, stands⟩

theorem answer_unmap (stands : table.Shows pages) (page : VirtAddr) :
    (table.answer (.unmap page)).1 = (pages.answer (.unmap page)).1 ∧
      (table.answer (.unmap page)).2.Shows (pages.answer (.unmap page)).2 := by
  cases found : pages.at? page with
  | none =>
      have unmapped : table.view? page = none := by rw [stands.view?, found, Option.map_none]
      simp only [answer, PageMap.answer, unmap_of_unmapped unmapped, found]
      exact ⟨trivial, stands⟩
  | some state =>
      obtain ⟨userPage, rfl⟩ := PageMap.exists_page_of_at? found
      have atPage : table.entries[userPage.address]? = some state.entry := by
        rw [stands.entries, found, Option.map_some]
      have rest : (⟨table.entries.erase userPage.address⟩ : PageTable).Shows
          (pages.remove userPage.address) := by
        refine ⟨fun address => ?_, ?_⟩
        · rw [getElem?_erase, stands.entries, PageMap.at?_remove]
          split <;> rfl
        · have present := (stands.mem_entries_iff userPage).2
            (PageMap.mem_iff_at?.2 (Option.isSome_of_eq_some found))
          rw [PageMap.card_keys_remove found, ← stands.size, size_erase present]
      simp only [answer, PageMap.answer, found, unmap, userPage.aligned, ne_eq, not_true, if_false,
        atPage, state.frame?_entry]
      cases state.frame? with
      | some frame => exact ⟨rfl, rest⟩
      | none => exact ⟨rfl, rest⟩

/-- Changing the entry of a page, and what the map has for the page, in the same way. -/
theorem modify (stands : table.Shows pages) {address : VirtAddr} {state : PageState}
    (found : pages.at? address = some state) (change : PageState → PageState)
    (frame : (change state).frame = state.frame) :
    (⟨table.entries.insert address (state.entry.withFlags (change state).flags)⟩ : PageTable).Shows
      (pages.modify address change) where
  entries other := by
    rw [getElem?_insert, stands.entries, PageMap.at?_modify]
    split
    case isTrue same =>
      rw [← same, found, state.withFlags_entry (change state) frame]
      rfl
    case isFalse => rfl
  size := by
    have present : address ∈ table.entries := by
      rw [Std.ExtTreeMap.mem_iff_isSome_getElem?, stands.entries, found]
      rfl
    rw [PageMap.keys_modify, ← stands.size, size_insert present]

theorem updateFlags (stands : table.Shows pages) (address : VirtAddr)
    (change : EntryFlags → EntryFlags) (changeState : PageState → PageState)
    (frame : ∀ state, (changeState state).frame = state.frame)
    (same : ∀ state : PageState, (changeState state).flags = change state.flags) :
    (table.updateFlags address change).Shows (pages.modify address.pageDown changeState) := by
  unfold PageTable.updateFlags entry?
  rw [stands.entries]
  cases found : pages.at? address.pageDown with
  | none =>
      rw [PageMap.modify_eq_self found]
      exact stands
  | some state =>
      have changed := stands.modify found changeState (frame state)
      rw [same] at changed
      rw [Option.map_some]
      dsimp only
      rw [state.flags_entry]
      exact changed

theorem answer_access (stands : table.Shows pages) (address : VirtAddr) (write : Bool) :
    (table.answer (.access address write)).1 = (pages.answer (.access address write)).1 ∧
      (table.answer (.access address write)).2.Shows (pages.answer (.access address write)).2 := by
  cases found : pages.at? address.pageDown with
  | none =>
      have unmapped : table.view? address.pageDown = none := by
        rw [stands.view?, found, Option.map_none]
      simp only [answer, PageMap.answer, access_of_unmapped write unmapped, found]
      exact ⟨rfl, stands⟩
  | some state =>
      by_cases refused : write = true ∧ state.writable = false
      · obtain ⟨rfl, readOnly⟩ := refused
        have atPage : table.view? address.pageDown = some state.view := by
          rw [stands.view?, found, Option.map_some]
        simp only [answer, PageMap.answer, access_of_protected atPage readOnly, found, readOnly]
        exact ⟨rfl, stands⟩
      · have atPage : table.entry? address = some state.entry := by
          rw [PageTable.entry?, stands.entries, found, Option.map_some]
        have permitted : write = true → state.entry.flags.writable = true := by
          rw [state.flags_entry]
          exact fun writes => Bool.of_not_eq_false fun readOnly => refused ⟨writes, readOnly⟩
        have marks : state.entry.flags.marked write = (state.marked write).flags := by
          rw [state.flags_entry]
          rfl
        have shows := stands.modify found (fun state => state.marked write) rfl
        simp only [answer, PageMap.answer, found, if_neg refused,
          access_of_permitted atPage permitted, state.frame?_entry, marks]
        cases state.frame? with
        | some frame => exact ⟨rfl, shows⟩
        | none => exact ⟨rfl, shows⟩

/-- A page table answers a request as its map does, and stands for the map afterwards. -/
theorem answer_alike (stands : table.Shows pages) (request : PageRequest) :
    (table.answer request).1 = (pages.answer request).1 ∧
      (table.answer request).2.Shows (pages.answer request).2 := by
  cases request with
  | map page frame permission => exact stands.answer_map page frame permission
  | unmap page => exact stands.answer_unmap page
  | access address write => exact stands.answer_access address write
  | setDirty address dirty =>
      refine ⟨rfl, ?_⟩
      exact stands.updateFlags address (fun flags => { flags with dirty })
        (fun state => { state with dirty }) (fun _ => rfl) (fun _ => rfl)
  | setAccessed address accessed =>
      refine ⟨rfl, ?_⟩
      exact stands.updateFlags address (fun flags => { flags with accessed })
        (fun state => { state with accessed }) (fun _ => rfl) (fun _ => rfl)

end Shows

/-- However often pages are mapped, unmapped and accessed and their marks set or cleared, by
whatever addresses and to whatever frames, a page table answers as a finite map from the pages below
the kernel does, which is empty at first. Afterwards a page has an entry if the map has the page,
and the entry says what the map has for it. -/
theorem serves_as_map (requests : List PageRequest) :
    let served := serve answer empty requests
    let expected := serve PageMap.answer ∅ requests
    served.1 = expected.1 ∧
      (∀ page, served.2.entries[page]? = (expected.2.at? page).map PageState.entry) ∧
      (∀ page, served.2.view? page = (expected.2.at? page).map PageState.view) ∧
      (∀ address, served.2.isAccessed address =
        (expected.2.at? address.pageDown).any PageState.accessed) ∧
      (∀ address, served.2.isDirty address =
        (expected.2.at? address.pageDown).any PageState.dirty) ∧
      served.2.size = expected.2.keys.card := by
  intro served expected
  obtain ⟨sameReplies, stands⟩ :=
    serve_alike Shows (fun _ _ stands request => stands.answer_alike request) shows_empty requests
  refine ⟨sameReplies, stands.entries, stands.view?, fun address => ?_, fun address => ?_,
    stands.size⟩
  · rw [isAccessed_eq, stands.view?]
    cases expected.2.at? address.pageDown <;> rfl
  · rw [isDirty_eq, stands.view?]
    cases expected.2.at? address.pageDown <;> rfl

/-- Unchecked arithmetic makes a frame with a number that is too large for a physical address. Its
page is mapped, but an access to the page is answered as if it were not and leaves its marks, and
unmapping the page removes it without answering the frame. -/
theorem frame_lost_beyond_bound :
    let frame : PhysAddr := ⟨0xffff000000000000, by decide⟩
    let page : VirtAddr := ⟨0x1000, by decide⟩
    let mapped : List PageRequest := [.map page frame (.userPage true)]
    let accessed := mapped ++ [.access page true]
    let unmapped := accessed ++ [.unmap page]
    (∃ last, PhysAddr.ofNat? 0xfffefffffffff000 = some last ∧ last.add 0x1000 = .ok frame) ∧
      (serve answer empty unmapped).1 =
        [.mapped (.ok ()), .accessed (.error { present := false, write := true, user := true }),
          .unmapped (.error .notExist)] ∧
      (serve answer empty mapped).2.entries[page]? = some ⟨0xffff000000000007⟩ ∧
      (serve answer empty accessed).2.entries[page]? = some ⟨0xffff000000000067⟩ ∧
      (⟨0xffff000000000067⟩ : Entry).frame? = none ∧
      (serve answer empty unmapped).2.size = 0 := by
  have sum : ∃ last, PhysAddr.ofNat? 0xfffefffffffff000 = some last ∧
      last.add 0x1000 = .ok ⟨0xffff000000000000, by decide⟩ :=
    ⟨⟨0xfffefffffffff000, by decide⟩, PhysAddr.ofNat?_eq_some_iff.2 ⟨by decide, rfl⟩,
      dif_pos (by decide)⟩
  exact ⟨sum, by decide +kernel⟩

end PageTable

end DemandPaging
