import DemandPaging.Proofs.FileBytes
import DemandPaging.Proofs.Lockstep
import DemandPaging.Proofs.MappingGroups
import Mathlib.Algebra.GroupWithZero.Nat

/-!
Where the pages of a new mapping lie, in memory and in the file.

Owns:
- `FileRegion.Tile`, regions that follow one another in a file and are whole pages up to the last;
- `Machine.Fits` and `Machine.Vacant`, when a file can be mapped, and `Machine.MapRefused`, with
  which error it is refused otherwise;
- `Machine.LaysOut`, what a machine is like after a file was mapped;
- `Machine.sealed`, a machine that cannot read its files.

Does not own: what a user program may pass (`Machine.Mappable`).

The file decides about a mapping only by its size. What it holds is not read before a page of the
mapping is touched, so a machine that cannot read it makes the same mapping.

Main statement: `Reachable.lays_out_mapping`.
-/

namespace DemandPaging

open Outcome (EndAlike)

/-! ## Regions -/

/-- The regions behind the pages of a mapping, in order. -/
def Mapping.regions (mapping : Mapping) (offset length : Nat) : List FileRegion :=
  (List.range mapping.pageCount).map (mapping.regionAt offset length)

/-- Regions cover a run of bytes of a file, one page after the other. -/
structure FileRegion.Tile (offset length : Nat) (regions : List FileRegion) : Prop where
  count : regions.length = (length + (pageSize - 1)) / pageSize
  ends : ∀ index (inside : index < regions.length),
    regions[index].offset = offset + index * pageSize ∧
      regions[index].offset + regions[index].readBytes =
        offset + min length ((index + 1) * pageSize)
  consecutive : ∀ index (inside : index + 1 < regions.length),
    regions[index].offset + regions[index].readBytes = regions[index + 1].offset
  disjoint : regions.Pairwise fun left right => ∀ position, left.Spans position →
    ¬right.Spans position
  covers : ∀ position, (∃ region ∈ regions, region.Spans position) ↔
    offset ≤ position ∧ position < offset + length
  total : (regions.map FileRegion.readBytes).sum = length

theorem FileRegion.spans_iff {region : FileRegion} (short : region.readBytes ≤ pageSize)
    (position : Nat) : region.Spans position ↔
      region.offset ≤ position ∧ position < region.offset + region.readBytes := by
  constructor
  · rintro ⟨index, inside, rfl⟩
    exact ⟨Nat.le_add_right .., Nat.add_lt_add_left inside _⟩
  · rintro ⟨above, below⟩
    have inside : position - region.offset < region.readBytes := by omega
    exact ⟨⟨_, Nat.lt_of_lt_of_le inside short⟩, inside, (Nat.add_sub_cancel' above).symm⟩

namespace Mapping

variable {mapping : Mapping} {offset length index : Nat}

theorem readBytes_regionAt_le (mapping : Mapping) (offset length index : Nat) :
    (mapping.regionAt offset length index).readBytes ≤ pageSize :=
  Nat.min_le_right ..

/-- A region ends where the next one begins, or with the bytes that are mapped. -/
theorem end_regionAt (mapping : Mapping) (offset : Nat) (inside : index * pageSize ≤ length) :
    (mapping.regionAt offset length index).offset +
        (mapping.regionAt offset length index).readBytes =
      offset + min length ((index + 1) * pageSize) := by
  simp only [regionAt, Nat.add_mul, Nat.one_mul]
  omega

/-- The first regions together have as many bytes as fit into their pages. -/
theorem sum_readBytes (mapping : Mapping) (offset length count : Nat) :
    (((List.range count).map (mapping.regionAt offset length)).map FileRegion.readBytes).sum =
      min length (count * pageSize) := by
  induction count with
  | zero => simp
  | succ count inductionHypothesis =>
      rw [List.range_succ, List.map_append, List.map_append, List.sum_append, inductionHypothesis]
      simp only [List.map_cons, List.map_nil, List.sum_cons, List.sum_nil, regionAt, Nat.add_mul,
        Nat.one_mul]
      omega

/-- The regions of a mapping with just enough pages for some bytes are those bytes. -/
theorem tile_regions (count : mapping.pageCount = (length + (pageSize - 1)) / pageSize) :
    FileRegion.Tile offset length (mapping.regions offset length) := by
  have within (index : Nat) (inside : index < mapping.pageCount) : index * pageSize < length := by
    simp only [pageSize] at *
    omega
  have reach : length ≤ mapping.pageCount * pageSize := by
    simp only [pageSize] at *
    omega
  have lengthIs : (mapping.regions offset length).length = mapping.pageCount := by simp [regions]
  have atIndex (index : Nat) (inside : index < (mapping.regions offset length).length) :
      (mapping.regions offset length)[index] = mapping.regionAt offset length index := by
    simp [regions]
  have ends (index : Nat) (inside : index < (mapping.regions offset length).length) :=
    mapping.end_regionAt offset (Nat.le_of_lt (within index (lengthIs ▸ inside)))
  have spans (index position : Nat) :=
    (FileRegion.spans_iff (mapping.readBytes_regionAt_le offset length index) position)
  refine ⟨lengthIs.trans count, fun index inside => ?_, fun index inside => ?_, ?_,
    fun position => ?_, ?_⟩
  · rw [atIndex]
    exact ⟨rfl, ends index inside⟩
  · rw [atIndex, atIndex, ends index (Nat.lt_of_succ_lt inside)]
    have next := within (index + 1) (lengthIs ▸ inside)
    exact congrArg (offset + ·) (Nat.min_eq_right (Nat.le_of_lt next))
  · -- A region does not reach beyond its page, where the later ones begin.
    refine List.pairwise_iff_getElem.2 fun left right inside insideRight less position => ?_
    have later : (left + 1) * pageSize ≤ right * pageSize := Nat.mul_le_mul_right _ less
    have stop := ends left inside
    rw [atIndex, atIndex, spans, spans, stop]
    simp only [regionAt]
    omega
  · constructor
    · rintro ⟨region, listed, spanned⟩
      obtain ⟨index, inside, rfl⟩ := List.mem_map.1 listed
      have begins := Nat.le_of_lt (within index (List.mem_range.1 inside))
      rw [spans, mapping.end_regionAt offset begins] at spanned
      simp only [regionAt] at spanned
      omega
    · rintro ⟨above, below⟩
      have inside : (position - offset) / pageSize < mapping.pageCount := by
        simp only [pageSize] at *
        omega
      refine ⟨_, List.mem_map_of_mem (List.mem_range.2 inside), ?_⟩
      rw [spans, mapping.end_regionAt offset (Nat.le_of_lt (within _ inside))]
      simp only [regionAt, pageSize]
      omega
  · rw [regions, sum_readBytes, Nat.min_eq_left reach]

end Mapping

/-! ## Files that cannot be read -/

/-- A file of the same size, of which no byte can be read. -/
def Inode.sealed (inode : Inode) : Inode :=
  { inode with storage := .blank inode.size, readMode := .always .failing }

namespace FileStore

def sealed (store : FileStore) : FileStore := ⟨store.inodes.map Inode.sealed⟩

theorem inodes_sealed (store : FileStore) (file : FileId) :
    store.sealed.inodes[file]? = store.inodes[file]?.map Inode.sealed :=
  Array.getElem?_map ..

/-- The size of a file is known without reading it. -/
theorem size_sealed (store : FileStore) (file : FileId) :
    store.sealed.size file = store.size file := by
  unfold size
  rw [inodes_sealed]
  cases store.inodes[file]? <;> rfl

/-- A handle is opened without reading the file. -/
theorem endAlike_openHandle_sealed (store : FileStore) (file : FileId) :
    EndAlike (fun _ state twin => twin = state.sealed) (fun _ state twin => twin = state.sealed)
      (openHandle file store) (openHandle file store.sealed) := by
  unfold openHandle
  rw [Action.bind_apply, Action.bind_apply, inode, inode, inodes_sealed]
  cases store.inodes[file]? with
  | none => exact .failed rfl
  | some found =>
      refine .done ?_
      unfold sealed
      rw [Array.map_setIfInBounds]
      rfl

end FileStore

namespace Machine

variable {before after machine : Machine} {pid : Pid} {address : VirtAddr} {writable : Bool}
  {file : FileId} {mapping : Mapping} {offset length : Nat}

/-! ## What can be mapped -/

/-- How many bytes a mapping covers: what was asked for, as far as the file reaches. -/
def covered (machine : Machine) (file : FileId) (offset length : Nat) : Nat :=
  min length (machine.store.files.size file - offset)

/-- The mapping that is made next. -/
def nextMappingOf (machine : Machine) (address : VirtAddr) (file : FileId) (offset length : Nat) :
    Mapping :=
  ⟨machine.store.nextMapping, address, machine.store.files.pagesOf file offset length, file⟩

/-- A file has bytes to be mapped at an address, and whole pages for them end below the kernel. -/
structure Fits (machine : Machine) (address : VirtAddr) (file : FileId) (offset length : Nat) :
    Prop where
  positive : 0 < machine.covered file offset length
  aligned : address.isPageAligned = true
  user : address.isUser = true
  below : address.toNat + machine.store.files.pagesOf file offset length * pageSize ≤ kernelBase

/-- A process has no page at the addresses of a mapping. -/
def Vacant (machine : Machine) (pid : Pid) (mapping : Mapping) : Prop :=
  ∀ place : VirtAddr, mapping.start.toNat ≤ place.toNat →
    place.toNat < mapping.start.toNat + mapping.pageCount * pageSize →
    machine.page? pid place = none

/-- Why a file is not mapped. -/
inductive MapRefused (machine : Machine) (pid : Pid) (address : VirtAddr) (file : FileId)
    (offset length : Nat) : Errno → Prop where
  | unfit (unfit : ¬machine.Fits address file offset length) :
      MapRefused machine pid address file offset length .invalidArgument
  | missing (fits : machine.Fits address file offset length)
      (missing : machine.spaces[pid]? = none) :
      MapRefused machine pid address file offset length .noSuchEntry
  | taken (fits : machine.Fits address file offset length)
      (process : (machine.spaces[pid]?).isSome = true)
      (taken : ¬machine.Vacant pid (machine.nextMappingOf address file offset length)) :
      MapRefused machine pid address file offset length .fileExist

/-! ## What is mapped -/

/-- What a machine is like after a file was mapped. -/
structure LaysOut (before : Machine) (pid : Pid) (mapping : Mapping) (writable : Bool)
    (offset length : Nat) (after : Machine) : Prop where
  /-- No frame is taken or written, and the swap area is left alone. -/
  outside : after = { before with
    store := { after.store with swap := before.store.swap }
    spaces := after.spaces }
  /-- Each page of the mapping is registered, and was not touched so far. -/
  pages : ∀ index < mapping.pageCount, ∃ place : VirtAddr,
    place.toNat = mapping.start.toNat + index * pageSize ∧
      after.page? pid place = some (Page.create place writable .normal
        (.untouched (.file (mapping.regionAt offset length index))))
  others : ∀ other place, ¬(pid = other ∧ mapping.Covers place) →
    after.page? other place = before.page? other place
  views : ∀ other place, after.view? other place = before.view? other place
  processes : ∀ other, after.stackPointer? other = before.stackPointer? other
  /-- What files hold stays as it is. -/
  files : ∀ other, after.store.files.content? other = before.store.files.content? other
  handles : ∀ other, after.store.files.handles other =
    before.store.files.handles other + if mapping.file = other then 1 else 0

/-- To make a mapping changes what is stored nowhere. -/
theorem stored_of_createMapping {start : VirtAddr} {pageCount references : Nat}
    {store made : BackingStore}
    (creates : BackingStore.createMapping start pageCount file references store =
      .done mapping made) :
    made.swap = store.swap ∧
      ∀ other, made.files.content? other = store.files.content? other := by
  constructor
  · have ends : (BackingStore.createMapping start pageCount file references store).Ends _ _ _ :=
      BackingStore.ends_createMapping
    rw [creates, Outcome.ends_done] at ends
    exact ends.2.2.swap
  · obtain ⟨_, next, opens, rest⟩ := Action.bind_eq_done creates
    cases rest
    unfold BackingStore.onFiles Action.onPart at opens
    dsimp only at opens
    split at opens
    case h_1 _ files opened =>
      cases opens
      exact (FileStore.of_openHandle opened).2
    · cases opens
    · cases opens

/-- A new mapping is laid out by registering its pages where no page was. -/
theorem laysOut_of_mappingPages {target : AddressSpace} {range : PageRange}
    {store : BackingStore} {references : Nat} (found : before.spaces[pid]? = some target)
    (creates : BackingStore.createMapping address range.count file references before.store =
      .done mapping store)
    (aligned : range.start.offset = 0) (start : range.start = address)
    (writable : Bool) (offset length : Nat) :
    before.LaysOut pid mapping writable offset length { before with
      store
      spaces := before.spaces.insert pid { target with
        pages := (mappingPages range mapping writable offset length).foldl PageRegistry.put
          target.pages } } := by
  obtain ⟨same, -, handles⟩ := BackingStore.of_createMapping creates
  obtain ⟨swap, contents⟩ := stored_of_createMapping creates
  have sameStart : range.start = mapping.start := by rw [same, start]
  have sameCount : range.count = mapping.pageCount := by rw [same]
  let pages := mappingPages range mapping writable offset length
  have addresses : pages.map Page.address = range.toList := map_address_mappingPages aligned
  have distinct : (pages.map Page.address).Nodup := addresses ▸ nodup_rangeToList range
  generalize result : ({ before with
    store
    spaces := before.spaces.insert pid { target with
      pages := pages.foldl PageRegistry.put target.pages } } : Machine) = after
  have spaces : after.spaces = before.spaces.insert pid { target with
      pages := pages.foldl PageRegistry.put target.pages } := by rw [← result]
  have lookup (place : VirtAddr) : after.page? pid place =
      (pages.foldl PageRegistry.put target.pages).at? place :=
    page?_of_space (by rw [spaces_insert spaces, if_pos rfl]) place
  refine ⟨?_, fun index inside => ?_, fun other place outside => ?_, ?_, ?_, fun other => ?_,
    fun other => ?_⟩
  · rw [← result, ← swap]
  · have inRange : index < range.count := sameCount ▸ inside
    have listed : Page.create (range.page ⟨index, inRange⟩) writable .normal
        (.untouched (.file (mapping.regionAt offset length index))) ∈ pages :=
      List.mem_map_of_mem (List.mem_finRange ⟨index, inRange⟩)
    refine ⟨range.page ⟨index, inRange⟩, by rw [← sameStart]; rfl, ?_⟩
    have atPlace := at?_foldl_put distinct target.pages listed
    rw [Page.create, pageDown_rangePage aligned] at atPlace
    rw [lookup, atPlace, Page.create, pageDown_rangePage aligned]
  · by_cases own : pid = other
    · subst own
      have elsewhere : place ∉ pages.map Page.address := by
        rw [addresses, ← covers_iff_mem_toList sameStart sameCount]
        exact fun covered => outside ⟨rfl, covered⟩
      rw [lookup, at?_foldl_put_of_not_mem elsewhere, page?_of_space found]
    · rw [page?, spaces_insert spaces, if_neg own]
      rfl
  · exact view?_keep found spaces rfl
  · exact stackPointer?_keep found spaces rfl
  · rw [← result]
    exact contents other
  · have sameFile : mapping.file = file := by rw [same]
    rw [← result, sameFile]
    exact handles other

/-! ## Addresses and numbers -/

theorem isPageAligned_iff : address.isPageAligned = true ↔ address.toNat % pageSize = 0 := by
  rw [Address.isPageAligned, beq_iff_eq, Address.offset]

/-- A page of a range is registered exactly if some address in the range has a page. -/
theorem any_registered_iff {target : AddressSpace} {range : PageRange} (sound : before.Sound)
    (found : before.spaces[pid]? = some target) (aligned : range.start.offset = 0) :
    range.any (fun place => (target.pages.find? place).isSome) = true ↔
      ∃ place : VirtAddr, range.start.toNat ≤ place.toNat ∧
        place.toNat < range.start.toNat + range.count * pageSize ∧
        before.page? pid place ≠ none := by
  rw [PageRange.any_eq_true_iff]
  constructor
  · rintro ⟨place, listed, registered⟩
    obtain ⟨index, inRange, here⟩ := PageRange.mem_toList_iff.1 listed
    have placeAligned : place.offset = 0 := by
      rw [Address.offset] at aligned ⊢
      simp only [pageSize] at *
      omega
    rw [PageRegistry.find?_eq_at?, Address.pageDown_eq_self_iff.2 placeAligned,
      ← page?_of_space found] at registered
    refine ⟨place, ?_, ?_, Option.isSome_iff_ne_none.1 registered⟩
    · omega
    · simp only [pageSize] at *
      omega
  · rintro ⟨place, atLeast, atMost, registered⟩
    obtain ⟨page, known⟩ := Option.ne_none_iff_exists'.1 registered
    have placeAligned := (sound.frames.located known).2
    refine ⟨place, PageRange.mem_toList_iff.2
      ⟨(place.toNat - range.start.toNat) / pageSize, ?_, ?_⟩, ?_⟩
    · rw [Address.offset] at aligned placeAligned
      simp only [pageSize] at *
      omega
    · rw [Address.offset] at aligned placeAligned
      simp only [pageSize] at *
      omega
    · rw [PageRegistry.find?_eq_at?, Address.pageDown_eq_self_iff.2 placeAligned,
        ← page?_of_space found, known]
      rfl

/-- The pages of a mapping that fits can be listed. -/
theorem Fits.exists_pages (fits : before.Fits address file offset length) :
    ∃ range, address.pages (before.store.files.pagesOf file offset length * pageSize) = .ok range ∧
      range.start = address ∧ range.count = before.store.files.pagesOf file offset length := by
  have below := fits.below
  have sum : address.toNat + before.store.files.pagesOf file offset length * pageSize +
      (pageSize - 1) < Word.limit := by
    simp only [kernelBase, pageSize, Word.limit] at *
    omega
  obtain ⟨range, listed⟩ := Address.exists_pages (.inr sum)
  have aligned : address.offset = 0 := isPageAligned_iff.1 fits.aligned
  exact ⟨range, listed, Address.pages_of_aligned aligned listed⟩

/-- The end of a mapping that fits is an address. -/
theorem Fits.advance?_isSome (fits : before.Fits address file offset length) :
    (address.advance? (before.store.files.pagesOf file offset length * pageSize)).isSome =
      true := by
  have below := fits.below
  have reached : address.advance? (before.store.files.pagesOf file offset length * pageSize) =
      some ⟨address.toNat + before.store.files.pagesOf file offset length * pageSize, by
        simp only [kernelBase, Word.limit] at *; omega⟩ := by
    refine VirtAddr.ofNat?_eq_some_iff.2 ⟨.inl ?_, rfl⟩
    simp only [kernelBase] at below
    omega
  rw [reached]
  rfl

/-- A mapping of what a file has begins within the file. -/
theorem Fits.file_exists (fits : before.Fits address file offset length) :
    offset < before.store.files.size file ∧ file < before.store.files.inodes.size := by
  have positive := fits.positive
  have inFile : offset < before.store.files.size file := by
    unfold covered at positive
    omega
  refine ⟨inFile, ?_⟩
  rw [FileStore.size] at inFile
  split at inFile
  case h_1 _ found => exact (Array.getElem?_eq_some_iff.1 found).1
  case h_2 => exact absurd inFile (Nat.not_lt_zero offset)

/-- The position in the file at which the last page begins is a machine word. -/
theorem Fits.add_eq_ok (fits : before.Fits address file offset length)
    (sized : before.store.files.size file < Word.limit) :
    Word.add offset (before.store.files.pagesOf file offset length * pageSize - pageSize) =
      .ok (offset + (before.store.files.pagesOf file offset length * pageSize - pageSize)) := by
  have positive := fits.positive
  refine Word.add_eq_ok_iff.2 ⟨?_, rfl⟩
  unfold covered at positive
  unfold FileStore.pagesOf
  simp only [pageSize]
  omega

/-! ## Mapping a file -/

/-- A file is mapped exactly if it fits, the process exists and has no page in the way. Nothing
stops the machine, if the number of bytes of the file and of the mapping are machine words. -/
theorem ends_mapFile_laysOut (sound : before.Sound) (pid : Pid) (address : VirtAddr) (length : Nat)
    (writable : Bool) (file : FileId) (offset : Nat)
    (sized : before.store.files.size file < Word.limit)
    (rounded : before.store.files.pagesOf file offset length * pageSize < Word.limit) :
    (mapFile pid address length writable file offset before).Ends
      (fun answer after => answer = address ∧ before.Fits address file offset length ∧
        (before.spaces[pid]?).isSome = true ∧
        before.Vacant pid (before.nextMappingOf address file offset length) ∧
        before.LaysOut pid (before.nextMappingOf address file offset length) writable offset
          (before.covered file offset length) after)
      (fun error after => after = before ∧
        before.MapRefused pid address file offset length error)
      (fun _ => False) := by
  simp only [mapFile, Action.ends_bind, Action.ends_get]
  rw [show (min length (before.store.files.size file - offset) + (pageSize - 1)) / pageSize =
    before.store.files.pagesOf file offset length from rfl,
    show min length (before.store.files.size file - offset) = before.covered file offset length
      from rfl]
  split
  case isTrue refused =>
    refine ⟨rfl, .unfit fun fits => ?_⟩
    simp [fits.aligned, fits.user, Nat.ne_of_gt fits.positive] at refused
  case isFalse acceptable =>
    simp only [Bool.or_eq_true, Bool.not_eq_true', decide_eq_true_eq, not_or,
      Bool.not_eq_false] at acceptable
    obtain ⟨⟨covers, aligned⟩, user⟩ := acceptable
    rw [Word.mul_eq_ok_iff.2 ⟨rounded, rfl⟩]
    simp only [Action.ends_bind, Action.ends_checked]
    refine Action.of_result_eq_ok rfl ?_
    simp only [Action.ends_require]
    refine ⟨fun last advanced => ?_, fun none => ⟨trivial, .unfit fun fits => ?_⟩⟩
    · have reach := (VirtAddr.ofNat?_eq_some_iff.1 advanced).2
      split
      case isTrue beyond =>
        exact ⟨rfl, .unfit fun fits => Nat.not_lt.2 fits.below (reach ▸ beyond)⟩
      case isFalse below =>
        have fits : before.Fits address file offset length :=
          ⟨Nat.pos_of_ne_zero covers, aligned, user, reach ▸ Nat.le_of_not_lt below⟩
        simp only [Action.ends_bind, space, Action.ends_require]
        refine ⟨fun target found => ?_, fun missing => ⟨trivial, .missing fits missing⟩⟩
        have process : (before.spaces[pid]?).isSome = true := by rw [found]; rfl
        obtain ⟨range, listed, start, count⟩ := fits.exists_pages
        have alignedStart : range.start.offset = 0 := start ▸ isPageAligned_iff.1 aligned
        have registered := any_registered_iff sound found alignedStart
        rw [start, count] at registered
        rw [listed]
        simp only [Action.ends_checked]
        refine Action.of_result_eq_ok rfl ?_
        split
        case isTrue taken =>
          refine ⟨rfl, .taken fits process fun vacant => ?_⟩
          obtain ⟨place, atLeast, atMost, known⟩ := registered.1 taken
          exact known (vacant place atLeast atMost)
        case isFalse free =>
          have vacant : before.Vacant pid (before.nextMappingOf address file offset length) := by
            intro place atLeast atMost
            by_contra known
            exact free (registered.2 ⟨place, atLeast, atMost, known⟩)
          rw [fits.add_eq_ok sized]
          simp only [Action.ends_bind, Action.ends_checked]
          refine Action.of_result_eq_ok rfl ?_
          simp only [onStore, Action.ends_onPart,
            registerMapping_of_vacant (find?_eq_none_of_not_any free), setSpace,
            Action.ends_modify, Action.ends_pure]
          refine ((BackingStore.makes_createMapping fits.file_exists.2).and Outcome.ends_self).imp
            ?_ (fun _ _ no => no.1.elim) (fun _ no => no.1)
          rintro mapping store ⟨-, creates⟩
          obtain ⟨rfl, -, -⟩ := BackingStore.of_createMapping creates
          rw [← count] at creates
          have laid := laysOut_of_mappingPages found creates alignedStart start writable offset
            (before.covered file offset length)
          rw [count] at laid
          exact ⟨trivial, fits, process, vacant, laid⟩
    · have reached := fits.advance?_isSome
      rw [none] at reached
      cases reached

/-! ## What is not read -/

/-- The machine as it is if no file can be read. -/
def sealed (machine : Machine) : Machine :=
  { machine with store := { machine.store with files := machine.store.files.sealed } }

/-- A machine differs from another one in that no file can be read. -/
def Seals (machine twin : Machine) : Prop := twin = machine.sealed

/-- A mapping is made without reading the file. -/
theorem endAlike_createMapping_sealed (machine : Machine) (start : VirtAddr) (pageCount : Nat)
    (file : FileId) (references : Nat) :
    EndAlike (fun _ => Seals) (fun _ => Seals)
      (onStore (BackingStore.createMapping start pageCount file references) machine)
      (onStore (BackingStore.createMapping start pageCount file references) machine.sealed) := by
  refine Action.endAlike_onPart ?_
  refine Action.endAlike_bind (fun _ store twin =>
    Seals { machine with store } { machine.sealed with store := twin }) ?_ ?_
  · exact Action.endAlike_onPart
      ((FileStore.endAlike_openHandle_sealed machine.store.files file).imp
        (fun _ _ _ same => by rw [Seals, same]; rfl) fun _ _ _ same => by rw [Seals, same]; rfl)
  · intro _ store twin same
    obtain rfl : twin = { store with files := store.files.sealed } := congrArg Machine.store same
    exact .done rfl

/-- A file is mapped by its size alone, without reading it. -/
theorem endAlike_mapFile_sealed (machine : Machine) (pid : Pid) (address : VirtAddr) (length : Nat)
    (writable : Bool) (file : FileId) (offset : Nat) :
    EndAlike (fun _ => Seals) (fun _ => Seals)
      (mapFile pid address length writable file offset machine)
      (mapFile pid address length writable file offset machine.sealed) := by
  have size : machine.sealed.store.files.size file = machine.store.files.size file :=
    FileStore.size_sealed ..
  unfold mapFile
  rw [Action.get_bind_apply, Action.get_bind_apply, size]
  dsimp only
  split
  case isTrue => exact .failed rfl
  case isFalse =>
    refine Action.endAlike_bind (fun _ => Seals) (Action.endAlike_checked fun _ _ => rfl) ?_
    rintro byteCount state _ rfl
    refine Action.endAlike_require_bind (fun last _ => ?_) fun _ => rfl
    split
    case isTrue => exact .failed rfl
    case isFalse =>
      refine Action.endAlike_require_bind (fun target _ => ?_) fun _ => rfl
      refine Action.endAlike_bind (fun _ => Seals) (Action.endAlike_checked fun _ _ => rfl) ?_
      rintro range state _ rfl
      split
      case isTrue => exact .failed rfl
      case isFalse free =>
        refine Action.endAlike_bind (fun _ => Seals) (Action.endAlike_checked fun _ _ => rfl) ?_
        rintro _ state _ rfl
        refine Action.endAlike_bind (fun _ => Seals) (endAlike_createMapping_sealed ..) ?_
        rintro mapping state _ rfl
        rw [registerMapping_of_vacant (find?_eq_none_of_not_any free)]
        exact .done rfl

/-! ## When a file is mapped -/

/-- There is one reason why a file is not mapped. -/
theorem MapRefused.unique {error other : Errno}
    (left : machine.MapRefused pid address file offset length error)
    (right : machine.MapRefused pid address file offset length other) : error = other := by
  cases left with
  | unfit unfit =>
      cases right with
      | unfit => rfl
      | missing fits | taken fits => exact absurd fits unfit
  | missing fits missing =>
      cases right with
      | unfit unfit => exact absurd fits unfit
      | missing => rfl
      | taken _ process => simp [missing] at process
  | taken fits process taken =>
      cases right with
      | unfit unfit => exact absurd fits unfit
      | missing _ missing => simp [missing] at process
      | taken => rfl

/-- What fits a process and is not in the way of its pages is not refused. -/
theorem MapRefused.not_mappable {error : Errno}
    (refused : machine.MapRefused pid address file offset length error) :
    ¬(machine.Fits address file offset length ∧ (machine.spaces[pid]?).isSome = true ∧
      machine.Vacant pid (machine.nextMappingOf address file offset length)) := by
  rintro ⟨fits, process, vacant⟩
  cases refused with
  | unfit unfit => exact unfit fits
  | missing _ missing => simp [missing] at process
  | taken _ _ taken => exact taken vacant

/-- In every reachable state a file is mapped exactly if it has bytes for the mapping, their whole
pages lie at user addresses, the process exists, and none of these pages is registered. Then just
enough pages for the bytes are registered, none of which was touched. Together the regions behind
them are these bytes, one page after the other. One handle on the file is opened, no frame is taken,
and nothing else changes. In every other case the error tells what was the matter, first of the
numbers, then of the process, then of the pages, and the state is what it was. In no case is the
file read: where no read can work and no byte is known, everything ends in the same way. -/
theorem Reachable.lays_out_mapping (reachable : machine.Reachable) (pid : Pid)
    (address : VirtAddr) (length : Nat) (writable : Bool) (file : FileId) (offset : Nat)
    (sized : machine.store.files.size file < Word.limit)
    (rounded : machine.store.files.pagesOf file offset length * pageSize < Word.limit) :
    ((∃ after, mapFile pid address length writable file offset machine = .done address after) ↔
      machine.Fits address file offset length ∧ (machine.spaces[pid]?).isSome = true ∧
        machine.Vacant pid (machine.nextMappingOf address file offset length)) ∧
    (∀ answer after, mapFile pid address length writable file offset machine =
        .done answer after →
      answer = address ∧
        machine.LaysOut pid (machine.nextMappingOf address file offset length) writable offset
          (machine.covered file offset length) after ∧
        FileRegion.Tile offset (machine.covered file offset length)
          ((machine.nextMappingOf address file offset length).regions offset
            (machine.covered file offset length))) ∧
    (∀ error after, mapFile pid address length writable file offset machine =
        .failed error after ↔
      after = machine ∧ machine.MapRefused pid address file offset length error) ∧
    (∀ fault, mapFile pid address length writable file offset machine ≠ .halted fault) ∧
    EndAlike (fun _ => Seals) (fun _ => Seals)
      (mapFile pid address length writable file offset machine)
      (mapFile pid address length writable file offset machine.sealed) := by
  have unread := endAlike_mapFile_sealed machine pid address length writable file offset
  have ends := ends_mapFile_laysOut reachable.sound pid address length writable file offset sized
    rounded
  cases ran : mapFile pid address length writable file offset machine with
  | done answer after =>
      rw [ran, Outcome.ends_done] at ends
      obtain ⟨rfl, fits, process, vacant, laid⟩ := ends
      refine ⟨iff_of_true ⟨after, rfl⟩ ⟨fits, process, vacant⟩, ?_, fun error _ => ?_, nofun,
        ran ▸ unread⟩
      · rintro _ _ ⟨⟩
        exact ⟨rfl, laid, Mapping.tile_regions rfl⟩
      · exact iff_of_false nofun fun refused =>
          refused.2.not_mappable ⟨fits, process, vacant⟩
  | failed error after =>
      rw [ran, Outcome.ends_failed] at ends
      obtain ⟨rfl, refused⟩ := ends
      refine ⟨iff_of_false nofun refused.not_mappable, nofun, fun other later => ?_, nofun,
        ran ▸ unread⟩
      constructor
      · rintro ⟨⟩
        exact ⟨rfl, refused⟩
      · rintro ⟨rfl, also⟩
        rw [refused.unique also]
  | halted fault =>
      rw [ran] at ends
      exact ends.elim

/-- A file of 5000 bytes is mapped from its byte 100 on, and the second page of the mapping has the
last 804 bytes. For a process that does not exist it is not mapped. -/
theorem lays_out_mapping_tinyWithBlank :
    ∃ machine after, tinyWithBlank.after? [.createProcess] = some machine ∧
      mapFile ⟨1⟩ firstPage 10000 true 0 100 machine = .done firstPage after ∧
      machine.LaysOut ⟨1⟩ ⟨0, firstPage, 2, 0⟩ true 100 4900 after ∧
      FileRegion.Tile 100 4900 [⟨⟨0, firstPage, 2, 0⟩, 100, 4096, 0, true, 1⟩,
        ⟨⟨0, firstPage, 2, 0⟩, 4196, 804, 3292, false, 0⟩] ∧
      mapFile ⟨2⟩ firstPage 10000 true 0 100 machine = .failed .noSuchEntry machine := by
  have runs : (tinyWithBlank.after? [.createProcess]).any (fun machine =>
      machine.store.files.size 0 = 5000 ∧ machine.store.nextMapping = 0 ∧
      (mapFile ⟨1⟩ firstPage 10000 true 0 100 machine).answer? = some firstPage ∧
      (mapFile ⟨2⟩ firstPage 10000 true 0 100 machine).error? = some .noSuchEntry) = true := by
    decide +kernel
  obtain ⟨machine, run, state⟩ := (Option.any_eq_true _ _).1 runs
  obtain ⟨size, next, maps, refuses⟩ := of_decide_eq_true state
  obtain ⟨after, mapped⟩ := Outcome.exists_of_answer? maps
  obtain ⟨left, refused⟩ := Outcome.exists_of_error? refuses
  have start : tinyWithBlank.Reachable := .start {} 1 (Disk.create 16) _
  have reachable := start.of_after? run
  have pages : machine.store.files.pagesOf 0 100 10000 = 2 := by rw [FileStore.pagesOf, size]; rfl
  have bytes : machine.covered 0 100 10000 = 4900 := by rw [covered, size]; rfl
  have mapping : machine.nextMappingOf firstPage 0 100 10000 = ⟨0, firstPage, 2, 0⟩ := by
    rw [nextMappingOf, next, pages]
  have sized : machine.store.files.size 0 < Word.limit := by rw [size]; decide
  have rounded : machine.store.files.pagesOf 0 100 10000 * pageSize < Word.limit := by
    rw [pages]
    decide
  obtain ⟨-, lays, -⟩ :=
    reachable.lays_out_mapping ⟨1⟩ firstPage 10000 true 0 100 sized rounded
  obtain ⟨-, laid, tile⟩ := lays firstPage after mapped
  obtain ⟨-, -, fails, -, -⟩ :=
    reachable.lays_out_mapping ⟨2⟩ firstPage 10000 true 0 100 sized rounded
  obtain ⟨rfl, -⟩ := (fails _ _).1 refused
  rw [bytes, mapping] at laid tile
  exact ⟨_, after, run, mapped, laid, tile, refused⟩

end Machine

end DemandPaging
