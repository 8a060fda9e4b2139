import DemandPaging.Machine.Calls
import DemandPaging.Proofs.Registration

/-!
The pages of a mapping come and go together.

Owns:
- `Machine.MappingsWhole`, a process that has a page of a mapping has all of its pages, and they
  follow one another in the file;
- the steps of mapping a file and of removing a mapping, and that they touch file pages only.

Main statements: `ends_mapFile` and `ends_unmapFile`, which keep `MappingsWhole`, and
`MappingsWhole.of_path`.
-/

namespace DemandPaging

/-- A mapping may be made, and file pages of one process registered. -/
def Move.Maps (pid : Pid) (move : Move) : Prop :=
  move = .refer ∨ ∃ address, move = .register pid address .file

/-- File pages of one process may be removed. -/
def Move.Unmaps (pid : Pid) (move : Move) : Prop :=
  ∃ address, move = .remove pid address .file

/-- No file page of a process is registered or removed. -/
def Move.KeepsMappings (pid : Pid) (move : Move) : Prop :=
  ∀ address, move ≠ .register pid address .file ∧ move ≠ .remove pid address .file

/-- A mapping has a page with an index, counted from its first page, at an address. -/
def Mapping.HasPage (mapping : Mapping) (index : Nat) (address : VirtAddr) : Prop :=
  index < mapping.pageCount ∧ address.toNat = mapping.start.toNat + index * pageSize

/-- An address is that of one of the pages of a mapping. -/
def Mapping.Covers (mapping : Mapping) (address : VirtAddr) : Prop :=
  ∃ index, mapping.HasPage index address

/-- The part of a file behind a page of a mapping, when the mapping covers a number of bytes of the
file from an offset on. -/
def Mapping.regionAt (mapping : Mapping) (offset length index : Nat) : FileRegion :=
  let readBytes := min (length - index * pageSize) pageSize
  { mapping
    offset := offset + index * pageSize
    readBytes
    zeroBytes := pageSize - readBytes
    isFirst := index = 0
    remaining := mapping.pageCount - 1 - index }

theorem Mapping.Covers.start {mapping : Mapping} {address : VirtAddr}
    (covers : mapping.Covers address) : mapping.Covers mapping.start := by
  obtain ⟨index, inside, -⟩ := covers
  exact ⟨0, Nat.zero_lt_of_lt inside, by simp⟩

/-- A whole number of pages from the first address of a page on. -/
theorem Address.pages_of_aligned {address : VirtAddr} {count : Nat} {range : PageRange}
    (aligned : address.offset = 0) (touched : address.pages (count * pageSize) = .ok range) :
    range.start = address ∧ range.count = count := by
  have whole := Address.pageDown_eq_self_iff.2 aligned
  unfold Address.pages at touched
  split at touched
  case isTrue empty =>
    cases touched
    refine ⟨whole, ?_⟩
    simp only [pageSize] at empty
    show 0 = count
    omega
  case isFalse =>
    split at touched
    · cases touched
      refine ⟨whole, ?_⟩
      simp only [aligned, pageSize]
      omega
    · cases touched

/-- The pages that a mapping lists are those from its start on. -/
theorem Mapping.of_pages {mapping : Mapping} {range : PageRange}
    (aligned : mapping.start.offset = 0) (listed : mapping.pages = .ok range) :
    range.start = mapping.start ∧ range.count = mapping.pageCount := by
  unfold Mapping.pages at listed
  cases product : Word.mul mapping.pageCount pageSize with
  | error operation =>
      rw [product] at listed
      cases listed
  | ok length =>
      rw [product, ← (Word.mul_eq_ok_iff.1 product).2] at listed
      exact Address.pages_of_aligned aligned listed

namespace Machine

open DemandPaging.Action (Takes)

variable {before after : Machine} {pid : Pid} {address : VirtAddr}

/-- A process that has a page of a mapping has every page of it. The pages of the mapping follow one
another in the file, and each has some bytes of it. -/
def MappingsWhole (machine : Machine) (pid : Pid) : Prop :=
  ∀ address region, machine.region? pid address = some region →
    region.mapping.start.offset = 0 ∧ region.mapping.Covers address ∧
      ∃ offset length, region.mapping.pageCount * pageSize < length + pageSize ∧
        ∀ index place, region.mapping.HasPage index place →
          machine.region? pid place = some (region.mapping.regionAt offset length index)

theorem exists_region?_of_mapping? {mapping : Mapping}
    (mapped : before.mapping? pid address = some mapping) :
    ∃ region, before.region? pid address = some region ∧ region.mapping = mapping := by
  rw [mapping?_eq_map] at mapped
  exact Option.map_eq_some_iff.1 mapped

theorem mapping?_of_region? {region : FileRegion}
    (atAddress : before.region? pid address = some region) :
    before.mapping? pid address = some region.mapping := by
  rw [mapping?_eq_map, atAddress]
  rfl

theorem MappingsWhole.members {mapping : Mapping} (whole : before.MappingsWhole pid)
    (mapped : before.mapping? pid address = some mapping) :
    mapping.start.offset = 0 ∧ mapping.Covers address ∧
      ∀ place, mapping.Covers place → before.mapping? pid place = some mapping := by
  obtain ⟨region, atAddress, rfl⟩ := exists_region?_of_mapping? mapped
  obtain ⟨aligned, covers, offset, length, -, pages⟩ := whole address region atAddress
  refine ⟨aligned, covers, fun place covered => ?_⟩
  obtain ⟨index, hasPage⟩ := covered
  rw [mapping?_eq_map, pages index place hasPage]
  rfl

theorem MappingsWhole.congr (whole : before.MappingsWhole pid)
    (same : ∀ address, after.region? pid address = before.region? pid address) :
    after.MappingsWhole pid := by
  intro address region
  simp only [same]
  exact whole address region

theorem MappingsWhole.of_gone (gone : after.spaces[pid]? = none) :
    after.MappingsWhole pid := by
  intro address region atAddress
  rw [region?, page?, gone] at atAddress
  cases atAddress

/-- A mapping of unregistered pages is added. -/
theorem MappingsWhole.add {mapping : Mapping} {length : Nat} (offset : Nat)
    (whole : before.MappingsWhole pid) (aligned : mapping.start.offset = 0)
    (least : mapping.pageCount * pageSize < length + pageSize)
    (unknown : ∀ address, mapping.Covers address → before.region? pid address = none)
    (inside : ∀ index address, mapping.HasPage index address →
      after.region? pid address = some (mapping.regionAt offset length index))
    (outside : ∀ address, ¬mapping.Covers address →
      after.region? pid address = before.region? pid address) : after.MappingsWhole pid := by
  intro address region atAddress
  by_cases covered : mapping.Covers address
  · obtain ⟨index, hasPage⟩ := covered
    rw [inside index address hasPage, Option.some.injEq] at atAddress
    subst atAddress
    exact ⟨aligned, ⟨index, hasPage⟩, offset, length, least, inside⟩
  · rw [outside address covered] at atAddress
    obtain ⟨otherAligned, otherCovers, base, size, many, pages⟩ := whole address region atAddress
    refine ⟨otherAligned, otherCovers, base, size, many, fun index place hasPage => ?_⟩
    have member := pages index place hasPage
    by_cases also : mapping.Covers place
    · rw [unknown place also] at member
      cases member
    · rw [outside place also, member]

/-- A mapping is removed with all of its pages. -/
theorem MappingsWhole.remove {mapping : Mapping} (whole : before.MappingsWhole pid)
    (members : ∀ address, mapping.Covers address → before.mapping? pid address = some mapping)
    (inside : ∀ address, mapping.Covers address → after.region? pid address = none)
    (outside : ∀ address, ¬mapping.Covers address →
      after.region? pid address = before.region? pid address) : after.MappingsWhole pid := by
  intro address region atAddress
  by_cases covered : mapping.Covers address
  · rw [inside address covered] at atAddress
    cases atAddress
  · rw [outside address covered] at atAddress
    obtain ⟨otherAligned, otherCovers, base, size, many, pages⟩ := whole address region atAddress
    refine ⟨otherAligned, otherCovers, base, size, many, fun index place hasPage => ?_⟩
    have member := pages index place hasPage
    by_cases also : mapping.Covers place
    · have belongs := mapping?_of_region? member
      rw [members place also, Option.some.injEq] at belongs
      rw [belongs] at covered
      exact absurd otherCovers covered
    · rw [outside place also, member]

/-! ## Steps that touch no file page -/

theorem region?_of_step {move : Move} (step : Step move before after)
    (owned : before.FramesOwned) (keeps : move.KeepsMappings pid) (address : VirtAddr) :
    after.region? pid address = before.region? pid address := by
  unfold region?
  cases step.pageChange owned with
  | still _ _ pages => rw [pages]
  | @moved _ _ _ other page changed _ registered continues pages =>
      rw [pages]
      split
      case isTrue same =>
        obtain ⟨rfl, rfl⟩ := same
        rw [registered]
        exact continues.region?
      case isFalse => rfl
  | @registered _ _ other page initializer untouched _ _ unknown pages =>
      rw [pages]
      split
      case isTrue same =>
        obtain ⟨rfl, rfl⟩ := same
        rw [unknown]
        cases kind : page.kind with
        | anonymous => exact Page.region?_eq_none_iff.2 kind
        | file => exact absurd (by rw [kind]) (keeps page.address).1
      case isFalse => rfl
  | @removed _ _ other page registered pages =>
      rw [pages]
      split
      case isTrue same =>
        obtain ⟨rfl, rfl⟩ := same
        rw [registered]
        cases kind : page.kind with
        | anonymous => exact (Page.region?_eq_none_iff.2 kind).symm
        | file => exact absurd (by rw [kind]) (keeps page.address).2
      case isFalse => rfl

theorem region?_of_path {allowed : Move → Prop} (path : Path allowed before after)
    (sound : before.Sound) (keeps : ∀ move, allowed move → move.KeepsMappings pid)
    (address : VirtAddr) : after.region? pid address = before.region? pid address := by
  refine path.keeps_of_sound
    (fun state => state.region? pid address = before.region? pid address) sound rfl ?_
  intro move middle next allow step soundMiddle same
  exact (region?_of_step step soundMiddle.frames (keeps move allow) address).trans same

theorem MappingsWhole.of_path {allowed : Move → Prop} (whole : before.MappingsWhole pid)
    (path : Path allowed before after) (sound : before.Sound)
    (keeps : ∀ move, allowed move → move.KeepsMappings pid) : after.MappingsWhole pid :=
  whole.congr (region?_of_path path sound keeps)

/-! ## Mapping a file -/

/-- No page belongs to a mapping that was just made, so any process may have it. -/
theorem Sound.admits_new {start : VirtAddr} {pageCount references : Nat} {file : FileId}
    {mapping : Mapping} {store : BackingStore} (sound : before.Sound)
    (made : BackingStore.createMapping start pageCount file references before.store =
      .done mapping store) (pid : Pid) :
    ({ before with store } : Machine).Admits pid mapping := by
  have ends : (BackingStore.createMapping start pageCount file references
    before.store).Ends _ _ _ := BackingStore.ends_createMapping
  rw [made] at ends
  obtain ⟨same, known, -⟩ := ends
  refine ⟨known, fun other place found atPlace sameId => ?_⟩
  have earlier := sound.lt_nextMapping atPlace
  rw [sameId, same] at earlier
  exact absurd earlier (Nat.lt_irrefl _)

/-- A page of the mapping may follow another one. -/
theorem Admits.of_registered {mapping : Mapping} {page : Page} (admits : before.Admits pid mapping)
    (store : after.store = before.store)
    (pages : ∀ other place, after.page? other place =
      if pid = other ∧ page.address = place then some page else before.page? other place)
    (belongs : page.mapping? = some mapping) : after.Admits pid mapping := by
  refine ⟨store ▸ admits.known, fun other place found mapped sameId => ?_⟩
  rw [mapping?, pages] at mapped
  split at mapped
  case isTrue here =>
    rw [Option.bind_some, belongs] at mapped
    cases mapped
    exact ⟨here.1.symm, rfl⟩
  case isFalse => exact admits.own other place found mapped sameId

/-- Untouched pages of a mapping, at addresses of their own, are registered one after the other. -/
theorem path_of_registerAll {pages : List Page} {space : AddressSpace} {mapping : Mapping}
    (found : before.spaces[pid]? = some space) (admits : before.Admits pid mapping)
    (untouched : ∀ page ∈ pages, ∃ region, page.backing = .untouched (.file region) ∧
      region.mapping = mapping)
    (absent : ∀ page ∈ pages, page.frame = none)
    (aligned : ∀ page ∈ pages, page.address.offset = 0)
    (distinct : (pages.map Page.address).Nodup)
    (unknown : ∀ page ∈ pages, space.pages.at? page.address = none) :
    Path (Move.Maps pid) before { before with
      spaces := before.spaces.insert pid { space with
        pages := pages.foldl PageRegistry.put space.pages } } := by
  induction pages generalizing before space with
  | nil =>
      show Path _ before { before with spaces := before.spaces.insert pid space }
      rw [insert_space found]
      exact .refl before
  | cons page rest inductionHypothesis =>
      obtain ⟨region, backed, same⟩ := untouched page List.mem_cons_self
      rw [List.map_cons, List.nodup_cons] at distinct
      have inserted := PageRegistry.insert_eq_ok (unknown page List.mem_cons_self)
      have belongs : page.mapping? = some mapping := by
        rw [Page.mapping?, Page.region?, backed, ← same]
        rfl
      have admitted : ∀ other, page.mapping? = some other → before.Admits pid other := by
        intro other also
        rw [belongs] at also
        cases also
        exact admits
      have step := Step.register found backed (absent page List.mem_cons_self)
        (aligned page List.mem_cons_self) admitted inserted
      have foundNext : (before.spaces.insert pid { space with pages := space.pages.put page })[pid]?
          = some { space with pages := space.pages.put page } := by simp
      let next : Machine := { before with
        spaces := before.spaces.insert pid { space with pages := space.pages.put page } }
      have path := @inductionHypothesis next _
        foundNext (admits.of_registered rfl (page?_update found rfl rfl) belongs)
        (fun other member => untouched other (List.mem_cons_of_mem _ member))
        (fun other member => absent other (List.mem_cons_of_mem _ member))
        (fun other member => aligned other (List.mem_cons_of_mem _ member)) distinct.2 (by
          intro other member
          show (space.pages.put page).at? other.address = none
          rw [PageRegistry.at?_put, if_neg]
          · exact unknown other (List.mem_cons_of_mem _ member)
          · intro same
            exact distinct.1 (same ▸ List.mem_map_of_mem member))
      dsimp only at path
      rw [insert_insert_space] at path
      exact (Path.single step (.inr ⟨page.address, by rw [Page.kind_of_mapping? belongs]⟩)).trans
        path

theorem at?_foldl_put_of_not_mem {pages : List Page} {registry : PageRegistry}
    {address : VirtAddr} (elsewhere : address ∉ pages.map Page.address) :
    (pages.foldl PageRegistry.put registry).at? address = registry.at? address := by
  induction pages generalizing registry with
  | nil => rfl
  | cons first rest inductionHypothesis =>
      rw [List.map_cons, List.mem_cons, not_or] at elsewhere
      rw [List.foldl_cons, inductionHypothesis elsewhere.2, PageRegistry.at?_put,
        if_neg (Ne.symm elsewhere.1)]

theorem at?_foldl_put {pages : List Page} (distinct : (pages.map Page.address).Nodup)
    (registry : PageRegistry) {page : Page} (member : page ∈ pages) :
    (pages.foldl PageRegistry.put registry).at? page.address = some page := by
  induction pages generalizing registry with
  | nil => cases member
  | cons first rest inductionHypothesis =>
      rw [List.map_cons, List.nodup_cons] at distinct
      rcases List.mem_cons.1 member with rfl | later
      · rw [List.foldl_cons, at?_foldl_put_of_not_mem distinct.1, PageRegistry.at?_put, if_pos rfl]
      · exact inductionHypothesis distinct.2 _ later

theorem mem_or_at?_of_foldl_put {pages : List Page} {registry : PageRegistry} {page : Page}
    {address : VirtAddr} (found : (pages.foldl PageRegistry.put registry).at? address = some page) :
    page ∈ pages ∨ registry.at? address = some page := by
  induction pages generalizing registry with
  | nil => exact .inr found
  | cons first rest inductionHypothesis =>
      rcases inductionHypothesis found with later | earlier
      · exact .inl (List.mem_cons_of_mem _ later)
      · rw [PageRegistry.at?_put] at earlier
        split at earlier
        · cases earlier
          exact .inl List.mem_cons_self
        · exact .inr earlier

/-- The pages of a mapping, in order. -/
def mappingPages (range : PageRange) (mapping : Mapping) (writable : Bool)
    (offset length : Nat) : List Page :=
  (List.finRange range.count).map fun index =>
    Page.create (range.page index) writable .normal
      (.untouched (.file (mapping.regionAt offset length index.val)))

section MappingPages

variable {range : PageRange} {mapping : Mapping} {writable : Bool} {offset length : Nat}
  {page : Page}

theorem pageDown_rangePage (aligned : range.start.offset = 0) (index : Fin range.count) :
    (range.page index).pageDown = range.page index := by
  rw [Address.pageDown_eq_self_iff]
  simp only [Address.offset, PageRange.page, pageSize] at *
  omega

theorem map_address_mappingPages (aligned : range.start.offset = 0) :
    (mappingPages range mapping writable offset length).map Page.address = range.toList := by
  rw [mappingPages, PageRange.toList, List.map_map]
  apply List.map_congr_left
  intro index _
  exact pageDown_rangePage aligned index

theorem nodup_rangeToList (range : PageRange) : range.toList.Nodup := by
  apply (List.nodup_finRange range.count).map
  intro left right same
  have equal := congrArg Address.toNat same
  simp only [PageRange.page, pageSize] at equal
  exact Fin.ext (by omega)

theorem eq_of_pageDown_rangePage {left right : Fin range.count}
    (same : (range.page left).pageDown = (range.page right).pageDown) : left = right := by
  have equal := congrArg Address.toNat same
  simp only [Address.toNat_pageDown, PageRange.page, pageSize] at equal
  exact Fin.ext (by omega)

/-- Where no page is registered from an index on, every page from there is registered, with its part
of the file: what remains to be covered is what the pages before leave of the mapping. -/
theorem insertMapping_of_vacant {pages : PageRegistry} (start : Nat)
    (vacant : ∀ index : Fin range.count, start ≤ index.val →
      pages.find? (range.page index) = none) :
    pages.insertMapping range mapping writable offset ((List.finRange range.count).drop start)
        (length - start * pageSize) =
      (.ok (), ((mappingPages range mapping writable offset length).drop start).foldl
        PageRegistry.put pages) := by
  rw [mappingPages, ← List.map_drop]
  induction rest : (List.finRange range.count).drop start generalizing start pages with
  | nil => rfl
  | cons index later inductionHypothesis =>
      have inside : start < (List.finRange range.count).length := by
        by_contra outside
        rw [List.drop_eq_nil_of_le (Nat.le_of_not_lt outside)] at rest
        cases rest
      rw [List.drop_eq_getElem_cons inside, List.cons.injEq] at rest
      obtain ⟨here, following⟩ := rest
      have atStart : index.val = start := by rw [← here, List.getElem_finRange]; rfl
      have free : (range.page index).pageDown ∉ pages.pages := by
        simpa [PageRegistry.find?] using vacant index (Nat.le_of_eq atStart.symm)
      have left : length - start * pageSize - min (length - start * pageSize) pageSize =
          length - (start + 1) * pageSize := by
        simp only [pageSize]
        omega
      have stillVacant : ∀ other : Fin range.count, start + 1 ≤ other.val →
          (pages.put (Page.create (range.page index) writable .normal (.untouched
            (.file (mapping.regionAt offset length index.val))))).find? (range.page other) =
              none := by
        intro other beyond
        rw [PageRegistry.find?_put, if_neg, vacant other (by omega)]
        intro same
        have equal := congrArg Fin.val (eq_of_pageDown_rangePage same)
        omega
      have next := inductionHypothesis (start + 1) stillVacant following
      rw [PageRegistry.insertMapping, List.map_cons, List.foldl_cons, ← next, ← left]
      simp only [Mapping.regionAt, PageRegistry.insert, Page.create, free, if_false, atStart]

theorem exists_region_of_mem_mappingPages
    (member : page ∈ mappingPages range mapping writable offset length) :
    ∃ region, page.backing = .untouched (.file region) ∧ region.mapping = mapping ∧
      page.frame = none := by
  obtain ⟨index, -, rfl⟩ := List.mem_map.1 member
  exact ⟨_, rfl, rfl, rfl⟩

end MappingPages

theorem covers_iff_mem_toList {range : PageRange} {mapping : Mapping}
    (start : range.start = mapping.start) (count : range.count = mapping.pageCount) :
    mapping.Covers address ↔ address ∈ range.toList := by
  rw [PageRange.mem_toList_iff, start, count]
  rfl

/-- The page of a mapping with an index is one of those that are registered for it. -/
theorem exists_mem_mappingPages {range : PageRange} {mapping : Mapping} {index : Nat}
    (writable : Bool) (offset length : Nat) (start : range.start = mapping.start)
    (count : range.count = mapping.pageCount) (aligned : mapping.start.offset = 0)
    (hasPage : mapping.HasPage index address) :
    ∃ page ∈ mappingPages range mapping writable offset length, page.address = address ∧
      page.region? = some (mapping.regionAt offset length index) := by
  have inRange : index < range.count := count ▸ hasPage.1
  have place : range.page ⟨index, inRange⟩ = address := by
    apply Address.ext_toNat
    rw [hasPage.2, ← start]
    rfl
  refine ⟨_, List.mem_map_of_mem (List.mem_finRange ⟨index, inRange⟩), ?_, rfl⟩
  exact (pageDown_rangePage (start ▸ aligned) _).trans place

theorem find?_eq_none_of_not_any {pages : PageRegistry} {range : PageRange}
    (free : ¬range.any (fun page => (pages.find? page).isSome) = true) :
    ∀ address ∈ range.toList, pages.find? address = none := by
  intro address listed
  rw [PageRange.any_eq_true_iff] at free
  exact Option.not_isSome_iff_eq_none.1 fun registered => free ⟨address, listed, registered⟩

/-- Where no page of a mapping is registered yet, all of them are. -/
theorem registerMapping_of_vacant {target : AddressSpace} {range : PageRange}
    (vacant : ∀ address ∈ range.toList, target.pages.find? address = none) (pid : Pid)
    (mapping : Mapping) (writable : Bool) (offset length : Nat) :
    registerMapping pid target range mapping writable offset length =
      setSpace pid { target with
        pages := (mappingPages range mapping writable offset length).foldl PageRegistry.put
          target.pages } := by
  have inserted : target.pages.insertMapping range mapping writable offset
      ((List.finRange range.count).drop 0) (length - 0 * pageSize) = _ :=
    insertMapping_of_vacant 0 fun index _ =>
      vacant (range.page index) (List.mem_map_of_mem (List.mem_finRange index))
  rw [List.drop_zero, List.drop_zero, Nat.zero_mul, Nat.sub_zero] at inserted
  rw [registerMapping, inserted]
  rfl

/-- The pages of a mapping are registered where no page is. -/
theorem path_of_mappingPages {target : AddressSpace} {range : PageRange} {mapping : Mapping}
    {writable : Bool} {offset length : Nat} (found : before.spaces[pid]? = some target)
    (aligned : mapping.start.offset = 0) (start : range.start = mapping.start)
    (count : range.count = mapping.pageCount)
    (vacant : ∀ address ∈ range.toList, target.pages.at? address = none)
    (admits : before.Admits pid mapping)
    (result : after = { before with
      spaces := before.spaces.insert pid { target with
        pages := (mappingPages range mapping writable offset length).foldl PageRegistry.put
          target.pages } }) :
    Path (Move.Maps pid) before after ∧
      (∀ index address, mapping.HasPage index address →
        after.region? pid address = some (mapping.regionAt offset length index)) ∧
      ∀ address, ¬mapping.Covers address →
        after.region? pid address = before.region? pid address := by
  subst result
  have alignedRange : range.start.offset = 0 := start ▸ aligned
  let pages := mappingPages range mapping writable offset length
  have addresses : pages.map Page.address = range.toList := map_address_mappingPages alignedRange
  have distinct : (pages.map Page.address).Nodup := addresses ▸ nodup_rangeToList range
  have lookup (place : VirtAddr) : ({ before with
      spaces := before.spaces.insert pid { target with
        pages := pages.foldl PageRegistry.put target.pages } } : Machine).region? pid place =
      ((pages.foldl PageRegistry.put target.pages).at? place).bind Page.region? := by
    simp [region?, page?]
  refine ⟨?_, fun index place hasPage => ?_, fun place outside => ?_⟩
  · apply path_of_registerAll found admits
    · intro page member
      obtain ⟨region, backed, same, -⟩ := exists_region_of_mem_mappingPages member
      exact ⟨region, backed, same⟩
    · intro page member
      obtain ⟨region, -, -, absent⟩ := exists_region_of_mem_mappingPages member
      exact absent
    · intro page member
      obtain ⟨index, -, rfl⟩ := List.mem_map.1 member
      exact Address.offset_pageDown _
    · exact distinct
    · intro page member
      exact vacant page.address (addresses ▸ List.mem_map_of_mem member)
  · obtain ⟨page, member, rfl, atPage⟩ := exists_mem_mappingPages writable offset length start
      count aligned hasPage
    rw [lookup, at?_foldl_put distinct _ member]
    exact atPage
  · rw [covers_iff_mem_toList start count, ← addresses] at outside
    rw [lookup, at?_foldl_put_of_not_mem outside, region?, page?_of_space found]

/-- A part of a file was mapped for a process: a new mapping has a page at each of its addresses,
where no page of a mapping was, and no other page of a mapping changed. -/
structure MapsFile (before : Machine) (pid : Pid) (offset length : Nat) (mapping : Mapping)
    (after : Machine) : Prop where
  path : Path (Move.Maps pid) before after
  made : BackingStore.createMapping mapping.start mapping.pageCount mapping.file mapping.pageCount
    before.store = .done mapping after.store
  aligned : mapping.start.offset = 0
  positive : 0 < length
  count : mapping.pageCount = (length + (pageSize - 1)) / pageSize
  belowKernel : mapping.start.toNat + mapping.pageCount * pageSize ≤ kernelBase
  vacant : ∀ address, mapping.Covers address → before.region? pid address = none
  inside : ∀ index address, mapping.HasPage index address →
    after.region? pid address = some (mapping.regionAt offset length index)
  outside : ∀ address, ¬mapping.Covers address →
    after.region? pid address = before.region? pid address

theorem MapsFile.mappingsWhole {mapping : Mapping} {offset length : Nat}
    (maps : before.MapsFile pid offset length mapping after) (whole : before.MappingsWhole pid) :
    after.MappingsWhole pid := by
  refine whole.add offset maps.aligned ?_ maps.vacant maps.inside maps.outside
  rw [maps.count]
  simp only [pageSize]
  omega

/-- Mapping a file makes a mapping of what the file has of the bytes asked for, or changes
nothing. -/
theorem ends_mapFile_mapsFile (sound : before.Sound) (address : VirtAddr) (length : Nat)
    (writable : Bool) (file : FileId) (offset : Nat) :
    (mapFile pid address length writable file offset before).Ends
      (fun answer after => answer = address ∧ ∃ mapping : Mapping, mapping.start = address ∧
        mapping.file = file ∧ before.MapsFile pid offset
          (min length (before.store.files.size file - offset)) mapping after)
      (fun _ after => after = before) (fun fault => fault.isOverflow = true) := by
  simp only [mapFile, Action.ends_bind, Action.ends_get]
  split
  · exact rfl
  case isFalse acceptable =>
    simp only [Bool.or_eq_true, Bool.not_eq_true', decide_eq_true_iff, not_or] at acceptable
    have aligned : address.offset = 0 := by simpa [Address.isPageAligned] using acceptable.1.2
    have positive := Nat.pos_of_ne_zero acceptable.1.1
    simp only [Action.ends_bind, Action.ends_checked, Action.ends_require]
    refine ⟨fun byteCount product => ⟨fun last advanced => ?_, fun _ => trivial⟩, fun _ _ => rfl⟩
    split
    · exact rfl
    case isFalse below =>
      simp only [Action.ends_bind, space, Action.ends_require]
      refine ⟨fun target found => ?_, fun _ => trivial⟩
      simp only [Action.ends_checked]
      refine ⟨fun range touched => ?_, fun _ _ => rfl⟩
      split
      · exact rfl
      case isFalse vacant =>
        have whole := (Word.mul_eq_ok_iff.1 product).2
        have reach := (VirtAddr.ofNat?_eq_some_iff.1 advanced).2
        rw [← whole] at touched reach
        have start := (Address.pages_of_aligned aligned touched).1
        have count := (Address.pages_of_aligned aligned touched).2
        have free := find?_eq_none_of_not_any vacant
        have unregistered : ∀ place ∈ range.toList, target.pages.at? place = none := by
          intro place listed
          have whole' : place.pageDown = place := by
            obtain ⟨index, -, rfl⟩ := List.mem_map.1 listed
            exact pageDown_rangePage (start ▸ aligned) index
          rw [← whole', ← PageRegistry.find?_eq_at?]
          exact free place listed
        simp only [Action.ends_bind, Action.ends_checked]
        refine ⟨fun _ _ => ?_, fun _ _ => rfl⟩
        simp only [onStore, Action.ends_onPart, registerMapping_of_vacant free, setSpace,
          Action.ends_modify, Action.ends_pure]
        refine (BackingStore.ends_createMapping.and Outcome.ends_self).imp ?_ ?_
          (fun _ no => no.1.elim)
        · intro mapping store made
          obtain ⟨⟨same, -⟩, done⟩ := made
          let mapped : Machine := { before with store }
          have step : Step .refer before mapped := .createMapping done
          have admits : mapped.Admits pid mapping := sound.admits_new done pid
          obtain ⟨sameStart, sameCount, sameFile⟩ : mapping.start = address ∧
              mapping.pageCount = range.count ∧ mapping.file = file := by
            rw [same, count]
            exact ⟨rfl, rfl, rfl⟩
          have startOfMapping : range.start = mapping.start := start.trans sameStart.symm
          obtain ⟨path, inside, outside⟩ := path_of_mappingPages
            (show mapped.spaces[pid]? = some target from found) (sameStart ▸ aligned)
            startOfMapping sameCount.symm unregistered admits rfl
          refine ⟨trivial, mapping, sameStart, sameFile, (Path.single step (.inl rfl)).trans path,
            ?_, sameStart ▸ aligned, positive, sameCount.trans count, ?_, fun place covered => ?_,
            inside, outside⟩
          · rw [sameStart, sameFile, sameCount, count]
            exact done
          · rw [sameStart, sameCount, count, ← reach]
            exact Nat.le_of_not_lt below
          · rw [covers_iff_mem_toList startOfMapping sameCount.symm] at covered
            rw [region?, page?_of_space found, unregistered place covered]
            rfl
        · intro _ store same
          rw [same.1]

/-- Mapping a file registers the pages of a new mapping where no page was, or changes nothing. -/
theorem ends_mapFile (sound : before.Sound) (whole : before.MappingsWhole pid)
    (address : VirtAddr) (length : Nat) (writable : Bool) (file : FileId) (offset : Nat) :
    (mapFile pid address length writable file offset before).Ends
      (fun _ after => Path (Move.Maps pid) before after ∧ after.MappingsWhole pid)
      (fun _ after => after = before) (fun fault => fault.isCorruption = false) := by
  refine (ends_mapFile_mapsFile sound address length writable file offset).imp ?_
    (fun _ _ same => same) (fun _ => Fault.isCorruption_of_isOverflow)
  intro _ after result
  obtain ⟨-, mapping, -, -, maps⟩ := result
  exact ⟨maps.path, maps.mappingsWhole whole⟩

/-! ## Removing a mapping -/

/-- A registered page is removed, unless its file stops the machine. -/
theorem ends_unmapPage {page : Page} (sound : before.Sound) (mapping : Mapping)
    (registered : before.page? pid address = some page) :
    (unmapPage pid mapping address before).Ends
      (fun _ after => Step (.remove pid address page.kind) before after ∧
        ∀ other place, after.page? other place =
          if pid = other ∧ address = place then none else before.page? other place)
      (fun _ _ => False) (fun fault => fault.isCorruption = false) := by
  obtain ⟨space, found, atAddress⟩ := space_of_page? registered
  obtain ⟨rfl, aligned⟩ := sound.frames.located registered
  have whole := Address.pageDown_eq_self_iff.2 aligned
  simp only [unmapPage, Machine.space, setSpace, Action.ends_bind, Action.ends_require]
  refine ⟨fun target found' => ?_, fun missing => by rw [found] at missing; cases missing⟩
  rw [found] at found'
  cases found'
  rw [PageRegistry.find?_eq_at?, whole, atAddress]
  simp only [Action.ends_bind, Action.ends_modify]
  refine (ends_destroyPage sound found atAddress).imp ?_ (fun _ _ no => no)
    (fun _ stopped => stopped)
  intro table after result
  obtain ⟨same, step⟩ := result
  have sameSpaces : after.spaces = before.spaces := by rw [same]
  rw [sameSpaces]
  refine ⟨step, fun other place => ?_⟩
  rw [page?_erased found rfl rfl, whole]

/-- A mapping has been removed up to some pages that are left. -/
private structure UnmappedUpTo (before : Machine) (pid : Pid) (range : PageRange)
    (rest : List VirtAddr) (state : Machine) : Prop where
  path : Path (Move.Unmaps pid) before state
  distinct : rest.Nodup
  inside : ∀ place ∈ rest, place ∈ range.toList
  lookup : ∀ place, state.region? pid place =
    if place ∈ range.toList ∧ place ∉ rest then none else before.region? pid place

private theorem UnmappedUpTo.ends_unmapPage {range : PageRange} {rest : List VirtAddr}
    {state : Machine} {mapping : Mapping} {place : VirtAddr} {stops : Fault → Prop}
    (sound : before.Sound)
    (members : ∀ place ∈ range.toList, before.mapping? pid place = some mapping)
    (pages : ∀ page, state.page? pid place = some page → page.mapping? = some mapping →
      (unmapPage pid mapping place state).Ends (fun _ _ => True) (fun _ _ => True) stops)
    (reached : UnmappedUpTo before pid range (place :: rest) state) :
    (unmapPage pid mapping place state).Ends
      (fun _ after => UnmappedUpTo before pid range rest after)
      (fun _ _ => False) stops := by
  have distinct := List.nodup_cons.1 reached.distinct
  have listed := reached.inside place List.mem_cons_self
  have here : state.mapping? pid place = some mapping := by
    rw [mapping?_eq_map, reached.lookup, if_neg (by simp), ← mapping?_eq_map, members place listed]
  obtain ⟨page, registered, mapped⟩ := Option.bind_eq_some_iff.1 here
  refine ((Machine.ends_unmapPage (reached.path.sound sound) mapping registered).and
    (pages page registered mapped)).imp ?_ (fun _ _ no => no.1) (fun _ stopped => stopped.2)
  intro _ after result
  obtain ⟨⟨step, pages⟩, -⟩ := result
  rw [Page.kind_of_mapping? mapped] at step
  refine ⟨reached.path.snoc step ⟨place, rfl⟩, distinct.2,
    fun other member => reached.inside other (List.mem_cons_of_mem _ member), fun other => ?_⟩
  by_cases same : place = other
  · subst same
    rw [region?, pages, if_pos ⟨rfl, rfl⟩, if_pos ⟨listed, distinct.1⟩]
    rfl
  · rw [region?, pages, if_neg (fun both => same both.2)]
    refine (reached.lookup other).trans ?_
    simp [Ne.symm same]

/-- A mapping of a process was removed with all of its pages, and no other page of a mapping
changed. -/
structure UnmapsFile (before : Machine) (pid : Pid) (mapping : Mapping) (after : Machine) : Prop
    where
  known : before.mapping? pid mapping.start = some mapping
  path : Path (Move.Unmaps pid) before after
  members : ∀ address, mapping.Covers address → before.mapping? pid address = some mapping
  inside : ∀ address, mapping.Covers address → after.region? pid address = none
  outside : ∀ address, ¬mapping.Covers address →
    after.region? pid address = before.region? pid address

/-- What stops the removal of a mapping: an overflow, what stops the removal of one of its pages, or
a reference that is left after all of them. -/
inductive UnmapStops (before : Machine) (pid : Pid) (stops : Fault → Prop) : Fault → Prop where
  | overflow {address : VirtAddr} {mapping : Mapping} {operation : Overflow}
      (known : before.mapping? pid address = some mapping)
      (overflows : mapping.pages = .error operation) :
      UnmapStops before pid stops (.overflow operation)
  | page {fault : Fault} (stopped : stops fault) : UnmapStops before pid stops fault
  | referenced {mapping : Mapping} {after : Machine} (unmaps : before.UnmapsFile pid mapping after)
      (left : 0 < after.store.referenceCount mapping.id) :
      UnmapStops before pid stops (.mappingReferenced mapping.start)

theorem UnmapStops.isCorruption {fault : Fault}
    (stopped : before.UnmapStops pid (fun fault => fault.isCorruption = false) fault) :
    fault.isCorruption = false := by
  cases stopped with
  | overflow => rfl
  | page stopped => exact stopped
  | referenced => rfl

/-- A page of a mapping can be removed, unless its file stops the machine. -/
theorem stops_unmapPage (sound : before.Sound) (state : Machine) (place : VirtAddr) (page : Page)
    (mapping : Mapping) (path : Path (Move.Unmaps pid) before state)
    (registered : state.page? pid place = some page) (_ : page.mapping? = some mapping) :
    (unmapPage pid mapping place state).Ends (fun _ _ => True) (fun _ _ => True)
      (fun fault => fault.isCorruption = false) :=
  (ends_unmapPage (path.sound sound) mapping registered).imp (fun _ _ _ => trivial)
    (fun _ _ no => no.elim) (fun _ stopped => stopped)

/-- Removing the mapping at an address removes every page of it and no other page. Without a mapping
it changes nothing. -/
theorem ends_unmapFile_cases (stops : Fault → Prop) (sound : before.Sound)
    (whole : before.MappingsWhole pid) (address : VirtAddr)
    (pages : ∀ (state : Machine) place page mapping,
      before.mapping? pid address.pageDown = some mapping → Path (Move.Unmaps pid) before state →
      state.page? pid place = some page → page.mapping? = some mapping →
      (unmapPage pid mapping place state).Ends (fun _ _ => True) (fun _ _ => True) stops) :
    (unmapFile pid address before).Ends
      (fun _ after => ∃ mapping, before.mapping? pid address.pageDown = some mapping ∧
        before.UnmapsFile pid mapping after)
      (fun _ after => after = before ∧ before.mapping? pid address.pageDown = none)
      (before.UnmapStops pid stops) := by
  simp only [unmapFile, Action.ends_bind, space, Action.ends_require]
  refine ⟨fun target found => ?_, fun missing => ⟨trivial, by rw [mapping?, page?, missing]; rfl⟩⟩
  rw [show (target.pages.find? address).bind Page.mapping? = before.mapping? pid address.pageDown by
    rw [mapping?, page?_of_space found, PageRegistry.find?_eq_at?]]
  refine ⟨fun mapping atAddress => ?_, fun none => ⟨trivial, none⟩⟩
  simp only [Action.ends_checked]
  refine ⟨fun range touched => ?_, fun _ overflows => .overflow atAddress overflows⟩
  obtain ⟨aligned, covers, members⟩ := whole.members atAddress
  have placed := Mapping.of_pages aligned touched
  have covered (place : VirtAddr) : mapping.Covers place ↔ place ∈ range.toList :=
    covers_iff_mem_toList placed.1 placed.2
  have loop : (range.toList.forM (unmapPage pid mapping) before).Ends
      (fun _ => UnmappedUpTo before pid range []) (fun _ _ => False) stops := by
    apply Action.ends_forM (UnmappedUpTo before pid range)
    · intro place rest state reached
      exact reached.ends_unmapPage sound
        (fun place listed => members place ((covered place).2 listed))
        fun page => pages state place page mapping atAddress reached.path
    · refine ⟨.refl before, nodup_rangeToList range, fun _ listed => listed, fun place => ?_⟩
      rw [if_neg (fun both => both.2 both.1)]
  refine loop.imp ?_ (fun _ _ no => no.elim) (fun _ stopped => .page stopped)
  intro _ after reached
  have unmaps : before.UnmapsFile pid mapping after := by
    refine ⟨members _ covers.start, reached.path, members, fun place inside => ?_,
      fun place outside => ?_⟩
    · rw [reached.lookup, if_pos ⟨(covered place).1 inside, List.not_mem_nil⟩]
    · rw [reached.lookup, if_neg (fun both => outside ((covered place).2 both.1))]
  simp only [Action.ends_get]
  split
  case isTrue referred => exact .referenced unmaps referred
  case isFalse => exact ⟨mapping, atAddress, unmaps⟩

/-- Removing the mapping at an address removes every page of it and no other page, or changes
nothing. -/
theorem ends_unmapFile_unmapsFile (stops : Fault → Prop) (sound : before.Sound)
    (whole : before.MappingsWhole pid) (address : VirtAddr)
    (pages : ∀ (state : Machine) place page mapping, Path (Move.Unmaps pid) before state →
      state.page? pid place = some page → page.mapping? = some mapping →
      (unmapPage pid mapping place state).Ends (fun _ _ => True) (fun _ _ => True) stops) :
    (unmapFile pid address before).Ends
      (fun _ after => ∃ mapping, before.mapping? pid address.pageDown = some mapping ∧
        before.UnmapsFile pid mapping after)
      (fun _ after => after = before)
      (before.UnmapStops pid stops) :=
  (ends_unmapFile_cases stops sound whole address fun state place page mapping _ =>
    pages state place page mapping).imp (fun _ _ unmaps => unmaps) (fun _ _ same => same.1)
      (fun _ stopped => stopped)

/-- Removing a mapping removes every page of it and no other page, or changes nothing. -/
theorem ends_unmapFile (sound : before.Sound) (whole : before.MappingsWhole pid)
    (address : VirtAddr) :
    (unmapFile pid address before).Ends
      (fun _ after => Path (Move.Unmaps pid) before after ∧ after.MappingsWhole pid)
      (fun _ after => after = before) (fun fault => fault.isCorruption = false) := by
  refine (ends_unmapFile_unmapsFile _ sound whole address (stops_unmapPage sound)).imp ?_
    (fun _ _ same => same) (fun _ stopped => stopped.isCorruption)
  intro _ after result
  obtain ⟨mapping, -, unmaps⟩ := result
  exact ⟨unmaps.path, whole.remove unmaps.members unmaps.inside unmaps.outside⟩

/-! ## Calls -/

/-- The call that maps a file answers the address of the mapping that it made, or the word of an
error and changes nothing. -/
theorem ends_mmapCall_mapsFile (sound : before.Sound) (word length : Nat) (writable : Bool)
    (file? : Option FileId) (offset : Nat) :
    (mmapCall pid word length writable file? offset before).Ends
      (fun answer after =>
        (∃ file mapping, file? = some file ∧ userAddress? word = some mapping.start ∧
          answer = word ∧ mapping.file = file ∧ before.MapsFile pid offset
            (min length (before.store.files.size file - offset)) mapping after) ∨
        (∃ error : Errno, answer = error.word) ∧ after = before)
      (fun _ _ => False) (fun fault => fault.isOverflow = true) := by
  have ends : (mapForUser pid word length writable file? offset before).Ends
      (fun answer after => ∃ file mapping, file? = some file ∧
        userAddress? word = some mapping.start ∧ answer = mapping.start ∧ mapping.file = file ∧
        before.MapsFile pid offset (min length (before.store.files.size file - offset)) mapping
          after)
      (fun _ after => after = before) (fun fault => fault.isOverflow = true) := by
    simp only [mapForUser, Action.ends_bind, Action.ends_require, Action.ends_get,
      Action.ends_checked]
    refine ⟨fun file found => ⟨fun address given => ⟨fun valid _ => ?_, fun _ _ => rfl⟩,
      fun _ => trivial⟩, fun _ => trivial⟩
    split
    · exact rfl
    · refine (ends_mapFile_mapsFile sound address length writable file offset).imp ?_
        (fun _ _ same => same) (fun _ stopped => stopped)
      intro answer after result
      obtain ⟨rfl, mapping, start, sameFile, maps⟩ := result
      exact ⟨file, mapping, found, start ▸ (Option.filter_eq_some_iff.1 given).1, start.symm,
        sameFile, maps⟩
  simp only [mmapCall, Action.ends_bind, Action.ends_attempt]
  refine ends.imp ?_ (fun error _ same => .inr ⟨⟨error, rfl⟩, same⟩) (fun _ stopped => stopped)
  intro answer after result
  obtain ⟨file, mapping, found, given, rfl, sameFile, maps⟩ := result
  refine .inl ⟨file, mapping, found, given, ?_, sameFile, maps⟩
  exact (VirtAddr.ofNat?_eq_some_iff.1 (Option.filter_eq_some_iff.1 given).1).2

/-- The call that maps a file maps it, or changes nothing. -/
theorem ends_mmapCall (sound : before.Sound) (whole : before.MappingsWhole pid)
    (word length : Nat) (writable : Bool) (file? : Option FileId) (offset : Nat) :
    (mmapCall pid word length writable file? offset before).Ends
      (fun _ after => Path (Move.Maps pid) before after ∧ after.MappingsWhole pid)
      (fun _ _ => False) (fun fault => fault.isCorruption = false) := by
  refine (ends_mmapCall_mapsFile sound word length writable file? offset).imp ?_
    (fun _ _ no => no) (fun _ => Fault.isCorruption_of_isOverflow)
  intro _ after result
  rcases result with ⟨file, mapping, -, -, -, -, maps⟩ | ⟨-, rfl⟩
  · exact ⟨maps.path, maps.mappingsWhole whole⟩
  · exact ⟨.refl after, whole⟩

/-- The call that removes a mapping answers 0 and removes it, or the word of an error and changes
nothing. -/
theorem ends_munmapCall_unmapsFile (stops : Fault → Prop) (sound : before.Sound)
    (whole : before.MappingsWhole pid) (word : Nat)
    (pages : ∀ (state : Machine) place page mapping, Path (Move.Unmaps pid) before state →
      state.page? pid place = some page → page.mapping? = some mapping →
      (unmapPage pid mapping place state).Ends (fun _ _ => True) (fun _ _ => True) stops) :
    (munmapCall pid word before).Ends
      (fun answer after =>
        (∃ address mapping, userAddress? word = some address ∧ answer = 0 ∧
          before.mapping? pid address.pageDown = some mapping ∧
          before.UnmapsFile pid mapping after) ∨
        (∃ error : Errno, answer = error.word) ∧ after = before)
      (fun _ _ => False)
      (before.UnmapStops pid stops) := by
  simp only [munmapCall, unmapForUser, Action.ends_bind, Action.ends_attempt, Action.ends_require]
  refine ⟨fun address given => ?_, fun _ => .inr ⟨⟨_, rfl⟩, rfl⟩⟩
  refine (ends_unmapFile_unmapsFile stops sound whole address pages).imp ?_
    (fun error _ same => .inr ⟨⟨error, rfl⟩, same⟩) (fun _ stopped => stopped)
  intro _ after result
  obtain ⟨mapping, mapped, unmaps⟩ := result
  exact .inl ⟨address, mapping, given, rfl, mapped, unmaps⟩

/-- The call that removes a mapping removes it, or changes nothing. -/
theorem ends_munmapCall (sound : before.Sound) (whole : before.MappingsWhole pid) (word : Nat) :
    (munmapCall pid word before).Ends
      (fun _ after => Path (Move.Unmaps pid) before after ∧ after.MappingsWhole pid)
      (fun _ _ => False) (fun fault => fault.isCorruption = false) := by
  refine (ends_munmapCall_unmapsFile _ sound whole word (stops_unmapPage sound)).imp ?_
    (fun _ _ no => no) (fun _ stopped => stopped.isCorruption)
  intro _ after result
  rcases result with ⟨address, mapping, -, -, -, unmaps⟩ | ⟨-, rfl⟩
  · exact ⟨unmaps.path, whole.remove unmaps.members unmaps.inside unmaps.outside⟩
  · exact ⟨.refl after, whole⟩

end Machine

end DemandPaging
