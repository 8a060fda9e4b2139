import DemandPaging.Proofs.FileSizes
import DemandPaging.Proofs.SlotOwnership
import DemandPaging.Proofs.SwapSectors
import Mathlib.Data.Option.Basic

/-!
What can go wrong while a page is moved, where devices, files and loaders only ever fail cleanly.

Owns:
- `Inode.NeverShort`, a file that moves all the bytes it is asked for or fails;
- `Page.Served`, what a page needs from the files and from its loader either works or fails with an
  I/O error.

Does not own: which pages are moved (`Machine.evict`, `Machine.makeResident`).

Nothing else is assumed: a file may fail any time, and so may every sector of the disk and every
loader. What is left are I/O errors and a swap area without a free slot, and the machine never
stops.

Main statements: `Page.Served.ends_save`, `Page.Served.ends_bringIn` and `Path.served`.
-/

namespace DemandPaging

/-! ## Files -/

namespace TransferModes

variable {modes : TransferModes}

/-- The modes of all transfers. -/
def all (modes : TransferModes) : List TransferMode :=
  modes.usual :: modes.exceptions.map Prod.snd

theorem modeAt_mem_all (modes : TransferModes) (position : Nat) :
    modes.modeAt position ∈ modes.all := by
  unfold modeAt
  cases found : modes.exceptions.lookup position with
  | none => exact List.mem_cons_self
  | some mode =>
      obtain ⟨front, back, exceptions, -⟩ := List.lookup_eq_some_iff.1 found
      refine List.mem_cons_of_mem _ (List.mem_map.2 ⟨(position, mode), ?_, rfl⟩)
      rw [exceptions]
      exact List.mem_append_right front List.mem_cons_self

theorem admit_cases (whole : .half ∉ modes.all) (position length : Nat) :
    modes.admit position length = .ok length ∨ modes.admit position length = .error .ioError := by
  unfold TransferModes.admit
  cases mode : modes.modeAt position with
  | whole => exact .inl rfl
  | half => exact absurd (mode ▸ modes.modeAt_mem_all position) whole
  | failing => exact .inr rfl

end TransferModes

/-- A file moves all the bytes that it has and is asked for, or it fails. It is no longer than what
memory can hold. -/
structure Inode.NeverShort (inode : Inode) : Prop where
  reads : .half ∉ inode.readMode.all
  writes : .half ∉ inode.writeMode.all
  inMemory : inode.storage.bytes.size ≤ Capacity.most
  word : inode.size < Word.limit

instance (inode : Inode) : Decidable inode.NeverShort :=
  decidable_of_iff (.half ∉ inode.readMode.all ∧ .half ∉ inode.writeMode.all ∧
      inode.storage.bytes.size ≤ Capacity.most ∧ inode.size < Word.limit)
    ⟨fun ⟨reads, writes, inMemory, word⟩ => ⟨reads, writes, inMemory, word⟩,
      fun ⟨reads, writes, inMemory, word⟩ => ⟨reads, writes, inMemory, word⟩⟩

/-- A read fails with an I/O error only, whatever the file. -/
theorem Inode.eq_ioError_of_read {inode : Inode} {position length : Nat} {error : Errno}
    (failed : inode.read position length = .error error) : error = .ioError := by
  unfold Inode.read at failed
  unfold TransferModes.admit TransferMode.admit at failed
  cases mode : inode.readMode.modeAt position <;> cases stored : inode.storage <;>
    simp only [mode, stored] at failed <;> cases failed
  all_goals rfl

/-- A file that moves all bytes it is asked for is read within its bounds. -/
theorem Inode.read_of_whole {inode : Inode} {position length : Nat}
    (whole : inode.readMode.modeAt position = .whole) (inFile : position + length ≤ inode.size) :
    ∃ bytes, inode.read position length = .ok bytes ∧ bytes.size = length := by
  unfold size at inFile
  unfold read TransferModes.admit
  rw [whole]
  cases stored : inode.storage with
  | contents bytes =>
      rw [stored, FileStorage.size] at inFile
      refine ⟨_, rfl, ?_⟩
      rw [Array.size_extract]
      omega
  | blank size =>
      rw [stored, FileStorage.size] at inFile
      refine ⟨_, rfl, ?_⟩
      rw [Array.size_replicate]
      omega

namespace Inode.NeverShort

variable {inode : Inode} {position length : Nat} {data : Array UInt8}

theorem read_cases (neverShort : inode.NeverShort) (inFile : position + length ≤ inode.size) :
    inode.read position length = .error .ioError ∨
      ∃ bytes, inode.read position length = .ok bytes ∧ bytes.size = length := by
  cases mode : inode.readMode.modeAt position with
  | whole => exact .inr (Inode.read_of_whole mode inFile)
  | half => exact absurd (mode ▸ inode.readMode.modeAt_mem_all position) neverShort.reads
  | failing =>
      left
      unfold Inode.read TransferModes.admit
      rw [mode]
      rfl

theorem write_cases (neverShort : inode.NeverShort)
    (inFile : position + data.size ≤ inode.size) :
    inode.outgrowsMemory position data.size = false ∧
      (inode.write position data = .error .ioError ∨
        ∃ after, inode.write position data = .ok (data.size, after)) := by
  unfold outgrowsMemory Inode.write
  have inMemory := neverShort.inMemory
  have word := neverShort.word
  unfold Inode.size at inFile word
  rcases TransferModes.admit_cases neverShort.writes position data.size with admits | fails
  · rw [admits]
    cases stored : inode.storage with
    | contents bytes =>
        rw [stored, FileStorage.size] at inFile word
        rw [stored, FileStorage.bytes] at inMemory
        have inWords : position + data.size < Word.limit := by omega
        refine ⟨decide_eq_false (by omega), .inr ⟨{ inode with
          storage := .contents (overlayBytes bytes position (data.extract 0 data.size))
          writes := inode.writes + 1 }, ?_⟩⟩
        show (if position + data.size < Word.limit then _ else _) = _
        rw [if_pos inWords]
    | blank size => exact ⟨rfl, .inr ⟨inode, rfl⟩⟩
  · rw [fails]
    refine ⟨?_, .inl rfl⟩
    cases inode.storage <;> rfl

/-- A file that is written within its bounds stays one that moves all bytes. -/
theorem laid (neverShort : inode.NeverShort) (inFile : position + data.size ≤ inode.size) :
    (inode.laid position data).NeverShort := by
  have sameSize := size_laid_of_fits inFile
  have word := neverShort.word
  unfold Inode.laid at sameSize ⊢
  cases stored : inode.storage with
  | contents bytes =>
      have inMemory := neverShort.inMemory
      simp only [stored, Inode.size, FileStorage.size] at sameSize word
      simp only [stored, FileStorage.bytes] at inMemory
      refine ⟨neverShort.reads, neverShort.writes, ?_, ?_⟩
      · show (overlayBytes bytes position data).size ≤ _
        rw [sameSize]
        exact inMemory
      · show (overlayBytes bytes position data).size < _
        rw [sameSize]
        exact word
  | blank size => exact neverShort

end Inode.NeverShort

/-! ## Parts of files -/

/-- A file has the part of it that is behind a page, and moves all of it or fails. -/
def FileRegion.Served (region : FileRegion) (files : FileStore) : Prop :=
  ∃ inode ∈ files.inodes[region.mapping.file]?,
    inode.NeverShort ∧ region.offset + region.readBytes ≤ inode.size

instance (region : FileRegion) (files : FileStore) : Decidable (region.Served files) :=
  inferInstanceAs (Decidable (∃ inode ∈ files.inodes[region.mapping.file]?,
    inode.NeverShort ∧ region.offset + region.readBytes ≤ inode.size))

namespace FileRegion.Served

variable {region other : FileRegion} {files : FileStore} {page : VirtAddr} {bytes : PageData}
  {dirty : Bool}

theorem ends_bringIn {transfer : Transfer BackingStore}
    (served : region.Served transfer.store.files) :
    (region.bringIn page transfer).Ends (fun _ _ => True) (fun error _ => error = .ioError)
      (fun _ => False) := by
  obtain ⟨inode, found, neverShort, inFile⟩ := served
  have atFile : transfer.store.files.inodes[region.mapping.file]? = some inode := found
  have word := neverShort.word
  simp only [FileRegion.bringIn, BackingStore.transferFiles, Action.ends_bind, Action.ends_onPart,
    OpenFile.read, FileStore.read, FileStore.inode, Action.ends_require, Action.ends_orFail,
    Action.ends_checked]
  refine ⟨fun found' same => ?_, fun missing => ?_⟩
  · rw [atFile, Option.some.injEq] at same
    subst same
    rcases neverShort.read_cases inFile with failed | ⟨answer, answered, whole⟩
    · refine ⟨fun read same => ?_, fun error same => ?_⟩
      · rw [failed] at same
        cases same
      · rw [failed] at same
        cases same
        rfl
    · refine ⟨fun read same => ?_, fun error same => ?_⟩
      · rw [answered, Except.ok.injEq] at same
        subst same
        refine ⟨fun position _ => ?_, fun operation overflow => ?_⟩
        · simp [whole, BackingStore.fill]
        · unfold Word.add at overflow
          rw [if_pos (by omega)] at overflow
          cases overflow
      · rw [answered] at same
        cases same
  · rw [atFile] at missing
    cases missing

theorem ends_writeBack {store : BackingStore} (served : region.Served store.files)
    (inPage : region.readBytes ≤ pageSize) :
    (region.writeBack page bytes dirty store).Ends (fun _ _ => True)
      (fun error _ => error = .ioError) (fun _ => False) := by
  obtain ⟨inode, found, neverShort, inFile⟩ := served
  have atFile : store.files.inodes[region.mapping.file]? = some inode := found
  have word := neverShort.word
  have sliceSize : (bytes.slice 0 region.readBytes).size = region.readBytes := by
    rw [Block.size_slice]
    omega
  rw [← sliceSize] at inFile
  obtain ⟨small, written⟩ := neverShort.write_cases inFile
  unfold FileRegion.writeBack
  split
  · simp only [BackingStore.onFiles, Action.ends_bind, Action.ends_onPart, OpenFile.write,
      FileStore.write, FileStore.inode, FileStore.setInode, Action.ends_require]
    refine ⟨fun found' same => ?_, fun missing => ?_⟩
    · rw [atFile, Option.some.injEq] at same
      subst same
      rw [small]
      simp only [Bool.false_eq_true, if_false, Action.ends_bind, Action.ends_orFail,
        Action.ends_modify, Action.ends_pure, Action.ends_checked]
      rcases written with failed | ⟨after, wrote⟩
      · refine ⟨fun answer same => ?_, fun error same => ?_⟩
        · rw [failed] at same
          cases same
        · rw [failed] at same
          cases same
          rfl
      · refine ⟨fun answer same => ?_, fun error same => ?_⟩
        · rw [wrote, Except.ok.injEq] at same
          subst same
          refine ⟨fun position _ => ?_, fun operation overflow => ?_⟩
          · simp [sliceSize]
          · unfold Word.add at overflow
            rw [if_pos (by omega)] at overflow
            cases overflow
        · rw [wrote] at same
          cases same
    · rw [atFile] at missing
      cases missing
  · trivial

/-- A page that is written back leaves every file one that moves all bytes. -/
theorem departed (served : region.Served files) (writer : other.Served files)
    (inPage : other.readBytes ≤ pageSize) : region.Served (other.departed bytes dirty files) := by
  unfold FileRegion.departed
  split
  · obtain ⟨inode, found, neverShort, inFile⟩ := served
    obtain ⟨written, foundToo, neverShortToo, inFileToo⟩ := writer
    have sliceSize : (bytes.slice 0 other.readBytes).size = other.readBytes := by
      rw [Block.size_slice]
      omega
    by_cases same : other.mapping.file = region.mapping.file
    · rw [same, show _ = some inode from found, Option.mem_some_iff] at foundToo
      subst foundToo
      rw [← sliceSize] at inFileToo
      refine ⟨inode.laid other.offset (bytes.slice 0 other.readBytes), ?_,
        neverShort.laid inFileToo, ?_⟩
      · rw [Option.mem_def, FileStore.getElem?_laid, if_pos same, show _ = some inode from found]
        rfl
      · rw [Inode.size_laid_of_fits inFileToo]
        exact inFile
    · refine ⟨inode, ?_, neverShort, inFile⟩
      rw [Option.mem_def, FileStore.getElem?_laid, if_neg same]
      exact found
  · exact served

theorem congr {after : FileStore} (served : region.Served files)
    (same : after.content? region.mapping.file = files.content? region.mapping.file) :
    region.Served after := by
  obtain ⟨inode, found, neverShort, inFile⟩ := served
  unfold FileStore.content? at same
  rw [show files.inodes[region.mapping.file]? = some inode from found, Option.map_some,
    Option.map_eq_some_iff] at same
  obtain ⟨other, foundToo, sameInode⟩ := same
  obtain ⟨storage, reads, writes⟩ : other.storage = inode.storage ∧
      other.readMode = inode.readMode ∧ other.writeMode = inode.writeMode := by
    injection sameInode with storage reads writes
    exact ⟨storage, reads, writes⟩
  have sameSize : other.size = inode.size := by rw [Inode.size, storage, Inode.size]
  exact ⟨other, foundToo, ⟨reads ▸ neverShort.reads, writes ▸ neverShort.writes,
    storage ▸ neverShort.inMemory, sameSize ▸ neverShort.word⟩, sameSize ▸ inFile⟩

end FileRegion.Served

/-! ## Loaders -/

/-- A loader fails with an I/O error only, when it is handed the page at an address. -/
def Loader.Served (loader : Loader) (page : VirtAddr) (store : BackingStore) : Prop :=
  match loader with
  | segment file _ _ => file < store.files.inodes.size
  | routine run =>
    (run store.world page Block.zero).2 = .ok () ∨
      (run store.world page Block.zero).2 = .error .ioError

instance (loader : Loader) (page : VirtAddr) (store : BackingStore) :
    Decidable (loader.Served page store) :=
  match loader with
  | .segment file _ _ => inferInstanceAs (Decidable (file < store.files.inodes.size))
  | .routine run => inferInstanceAs (Decidable
      ((run store.world page Block.zero).2 = .ok () ∨
        (run store.world page Block.zero).2 = .error .ioError))

theorem Loader.Served.congr {loader : Loader} {page : VirtAddr} {store now : BackingStore}
    (served : loader.Served page store)
    (fileCount : now.files.inodes.size = store.files.inodes.size)
    (world : now.world = store.world) : loader.Served page now := by
  unfold Loader.Served at served ⊢
  cases loader with
  | segment file _ _ =>
      dsimp only
      rw [fileCount]
      exact served
  | routine _ =>
      dsimp only
      rw [world]
      exact served

theorem Loader.Served.ends_load {loader : Loader} {page : VirtAddr} {store : BackingStore}
    (served : loader.Served page store) :
    (loader.load page ⟨store, Block.zero⟩).Ends (fun _ _ => True)
      (fun error _ => error = .ioError) (fun _ => False) := by
  cases loader with
  | segment file offset readBytes =>
      have exist : file < store.files.inodes.size := served
      simp only [load, BackingStore.transferFiles, BackingStore.fill, Action.ends_bind,
        Action.ends_onPart, FileStore.read, FileStore.inode, Action.ends_require,
        Action.ends_orFail, Action.ends_modify]
      refine ⟨fun inode found => ⟨fun bytes read => ?_, fun error failed => ?_⟩, fun missing => ?_⟩
      · split
        · rfl
        · trivial
      · exact Inode.eq_ioError_of_read failed
      · rw [Array.getElem?_eq_getElem exist] at missing
        cases missing
  | routine run =>
      simp only [load, Action.ends_bind, Action.ends_get, Action.ends_set, Action.ends_orFail]
      rcases served with succeeds | fails
      · exact ⟨fun _ _ => trivial, fun error failed => by rw [succeeds] at failed; cases failed⟩
      · refine ⟨fun _ _ => trivial, fun error failed => ?_⟩
        rw [fails] at failed
        cases failed
        rfl

/-! ## Pages -/

/-- What a page needs from the files, and from its loader, works or fails with an I/O error. -/
def Page.Served (page : Page) (store : BackingStore) : Prop :=
  match page.backing with
  | .untouched (.anonymous none) | .anonymous _ => True
  | .untouched (.anonymous (some loader)) => loader.Served page.address store
  | .untouched (.file region) | .file region => region.Served store.files

instance (page : Page) (store : BackingStore) : Decidable (page.Served store) :=
  match backed : page.backing with
  | .untouched (.anonymous none) | .anonymous _ =>
    isTrue (by rw [Page.Served, backed]; trivial)
  | .untouched (.anonymous (some loader)) =>
    decidable_of_iff (loader.Served page.address store) (by rw [Page.Served, backed])
  | .untouched (.file region) | .file region =>
    decidable_of_iff (region.Served store.files) (by rw [Page.Served, backed])

namespace Page.Served

variable {page : Page} {store : BackingStore} {bound : Nat}

theorem region {region : FileRegion} (served : page.Served store)
    (ofFile : page.region? = some region) : region.Served store.files := by
  unfold Page.region? at ofFile
  unfold Page.Served at served
  match backed : page.backing with
  | .untouched (.anonymous _) | .anonymous _ =>
      rw [backed] at ofFile
      cases ofFile
  | .untouched (.file other) | .file other =>
      rw [backed] at ofFile served
      cases ofFile
      exact served

theorem congr {now : BackingStore} (served : page.Served store)
    (fileCount : now.files.inodes.size = store.files.inodes.size)
    (world : now.world = store.world)
    (regions : ∀ region, page.region? = some region → region.Served now.files) :
    page.Served now := by
  unfold Page.Served at served ⊢
  match backed : page.backing with
  | .untouched (.anonymous none) | .anonymous _ => trivial
  | .untouched (.anonymous (some _)) =>
      rw [backed] at served
      exact served.congr fileCount world
  | .untouched (.file region) | .file region =>
      exact regions region (by rw [Page.region?, backed]; rfl)

/-- A page that was touched is saved, or the swap area has no free slot for it, or a sector or its
file failed. -/
theorem ends_save (served : page.Served store) (fits : store.swap.Fits bound)
    (touched : page.isUntouched = false)
    (inPage : ∀ region, page.region? = some region → region.readBytes ≤ pageSize)
    (bytes : PageData) (dirty : Bool) :
    (page.backing.save page.address bytes dirty store).Ends (fun _ _ => True)
      (fun error _ => error = .ioError ∨
        error = .noSpace ∧ page.kind = .anonymous ∧ store.swap.slots.lowestFree? = none)
      (fun _ => False) := by
  unfold Page.isUntouched at touched
  match backed : page.backing with
  | .untouched _ =>
      rw [backed] at touched
      cases touched
  | .anonymous slot? =>
      simp only [Backing.save, BackingStore.onSwap, Action.ends_bind, Action.ends_onPart,
        Action.ends_pure]
      refine ((fits.ends_swapOut bytes).and (SwapArea.ends_swapOut bytes store.swap)).imp
        (fun _ _ _ => trivial) ?_ ?_
      · rintro error swap ⟨⟨noSpace, full, -⟩ | ⟨ioError, -⟩, -⟩
        · exact .inr ⟨noSpace, by rw [Page.kind, backed]; rfl, full⟩
        · exact .inl ioError
      · rintro fault ⟨noOverflow, operation, rfl⟩
        cases noOverflow
  | .file region =>
      have ofFile : page.region? = some region := by rw [Page.region?, backed]; rfl
      simp only [Backing.save, Action.ends_bind, Action.ends_pure]
      exact ((served.region ofFile).ends_writeBack (inPage region ofFile)).imp
        (fun _ _ _ => trivial) (fun _ _ ioError => .inl ioError) (fun _ no => no)

/-- A page that is not in memory comes in, or what it is made of fails. -/
theorem ends_bringIn {bytes : PageData} (served : page.Served store)
    (fits : store.swap.Fits bound) (placed : page.Placed) (absent : page.frame = none)
    (occupied : ∀ slot, page.slot? = some slot → store.swap.isOccupied slot = true) :
    (page.backing.bringIn page.address ⟨store, bytes⟩).Ends (fun _ _ => True)
      (fun error _ => error = .ioError) (fun _ => False) := by
  unfold Page.Served at served
  unfold Page.Placed at placed
  match backed : page.backing with
  | .untouched (.anonymous none) => trivial
  | .untouched (.anonymous (some loader)) =>
      rw [backed] at served
      simp only [Backing.bringIn, Action.ends_bind, BackingStore.fill, Action.ends_modify,
        Action.ends_pure]
      exact served.ends_load
  | .untouched (.file region) | .file region =>
      rw [backed] at served
      simp only [Backing.bringIn, Action.ends_bind, Action.ends_pure]
      exact FileRegion.Served.ends_bringIn served
  | .anonymous none =>
      rw [backed, absent] at placed
      cases placed
  | .anonymous (some slot) =>
      have taken := occupied slot (by rw [Page.slot?, backed]; rfl)
      simp only [Backing.bringIn, BackingStore.transferSwap, Action.ends_bind, Action.ends_onPart,
        Action.ends_pure]
      have inside : slot < store.swap.slots.size := SlotMap.lt_size_of_isTaken taken
      have fitsHere : ({ store := store.swap, bytes } : Transfer SwapArea).store.Fits bound := fits
      have reads : (SwapArea.swapIn slot { store := store.swap, bytes }).Ends _ _ _ :=
        SwapArea.ends_swapIn taken
      refine ((fitsHere.ends_swapIn inside).and reads).imp (fun _ _ _ => trivial)
        (fun _ _ failed => failed.1) ?_
      rintro fault ⟨noOverflow, operation, rfl⟩
      cases noOverflow

end Page.Served

/-- What the pages of all processes need from the files and from their loaders works, or fails with
an I/O error. -/
def Machine.Served (machine : Machine) : Prop :=
  ∀ page ∈ machine.pages, page.Served machine.store

instance (machine : Machine) : Decidable machine.Served :=
  inferInstanceAs (Decidable (∀ page ∈ machine.pages, page.Served machine.store))

theorem Machine.Served.page {machine : Machine} {pid : Pid} {address : VirtAddr} {page : Page}
    (served : machine.Served) (registered : machine.page? pid address = some page) :
    page.Served machine.store :=
  served page (Machine.mem_pages_iff.2 ⟨pid, address, registered⟩)

/-- While room is made, what a page that is not in memory needs stays available. -/
theorem Path.served {before after : Machine} {pid : Pid} {address : VirtAddr} {page : Page}
    (path : Path Move.MakesRoom before after) (sound : before.Sound)
    (whole : ∀ pid, before.MappingsWhole pid) (served : before.Served)
    (registered : before.page? pid address = some page) : page.Served after.store := by
  have regions : (∀ pid address, after.region? pid address = before.region? pid address) ∧
      ∀ pid address region, before.region? pid address = some region →
        region.Served after.store.files := by
    refine path.keeps_of_sound (fun state =>
      (∀ pid address, state.region? pid address = before.region? pid address) ∧
      ∀ pid address region, before.region? pid address = some region →
        region.Served state.store.files) sound ⟨fun _ _ => rfl, ?_⟩ ?_
    · intro pid address region ofFile
      obtain ⟨page, registered, ofPage⟩ := Option.bind_eq_some_iff.1 ofFile
      exact (served.page registered).region ofPage
    · rintro move middle next allow step soundMiddle ⟨sameRegions, available⟩
      refine ⟨fun pid address => (Machine.region?_of_step step soundMiddle.frames
        (allow.unseen.keepsMappings pid) address).trans (sameRegions pid address),
        fun pid address region ofFile => ?_⟩
      have availableHere := available pid address region ofFile
      rcases step.content?_cases allow.ne_outside with
        same | ⟨other, page, written, _, _, departs, changed⟩
      · exact availableHere.congr (same _)
      · have ofPage : before.region? other page.address = some written := by
          rw [← sameRegions, Machine.region?, departs.registered, Option.bind_some, Page.region?,
            departs.backed]
          rfl
        exact (availableHere.departed (available _ _ _ ofPage)
          ((whole other).readBytes_le ofPage)).congr (changed _)
  refine (served.page registered).congr (path.fileCount sound).1
    (path.world_eq sound fun _ room => room.ne_outside) fun region ofPage => ?_
  exact regions.2 pid address region (by rw [Machine.region?, registered, Option.bind_some, ofPage])

end DemandPaging
