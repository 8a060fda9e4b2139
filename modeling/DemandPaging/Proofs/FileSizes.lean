import DemandPaging.Proofs.WriteBack

/-!
The sizes of files.

Owns:
- how a write changes the size of a file, and that it does not where it fits into the file;
- `Machine.RegionsFit`, the part of a file behind a page in memory lies within the file;
- that no step changes the size of a file, unless files are changed from outside.

Does not own: the bytes of a file (`Step.bytes?_cases`).

A page of a file comes into memory only if the file has all the bytes that it had for the page when
it was mapped. So a page that is written back fits into its file, which is not extended.

Main statements: `Step.size_eq` and `Event.regionsFit`.
-/

namespace DemandPaging

/-! ## Files -/

namespace Inode

variable {inode : Inode} {position : Nat} {data : Array UInt8}

theorem size_laid_of_fits (fits : position + data.size ≤ inode.size) :
    (inode.laid position data).size = inode.size := by
  unfold laid size at *
  cases stored : inode.storage with
  | contents bytes =>
      rw [stored] at fits
      simp only [FileStorage.size, size_overlayBytes] at *
      omega
  | blank size => simp [stored, FileStorage.size]

/-- What is read lies within the file, if it is not empty. -/
theorem le_size_of_read {length : Nat} (read : inode.read position length = .ok data)
    (nonempty : 0 < data.size) : position + data.size ≤ inode.size := by
  unfold Inode.read at read
  unfold size
  cases granted : inode.readMode.admit position length with
  | error error => rw [granted] at read; cases read
  | ok admitted =>
      rw [granted] at read
      dsimp only [bind, Except.bind] at read
      cases stored : inode.storage with
      | contents bytes =>
          rw [stored] at read
          cases read
          rw [Array.size_extract] at *
          simp only [FileStorage.size]
          omega
      | blank size =>
          rw [stored] at read
          cases read
          rw [Array.size_replicate] at *
          simp only [FileStorage.size]
          omega

end Inode

namespace FileStore

variable {store after : FileStore} {file other : FileId} {position : Nat} {data : Array UInt8}

theorem size_eq (store : FileStore) (file : FileId) :
    store.size file = (store.inodes[file]?.map Inode.size).getD 0 := by
  unfold size
  cases store.inodes[file]? <;> rfl

theorem size_of_bytes? {bytes : Array UInt8} (stored : store.bytes? file = some bytes) :
    store.size file = bytes.size := by
  obtain ⟨inode, found, holds⟩ := exists_of_bytes? stored
  rw [size_eq, found, Option.map_some, Option.getD_some, Inode.size, holds]
  rfl

/-- The size of a file is part of its content. -/
theorem size_congr (same : after.content? file = store.content? file) :
    after.size file = store.size file := by
  have ofContent (files : FileStore) :
      files.size file = ((files.content? file).map Inode.size).getD 0 := by
    rw [size_eq, content?, Option.map_map]
    rfl
  rw [ofContent, same, ofContent]

theorem size_laid_of_fits (fits : position + data.size ≤ store.size file) :
    (store.laid file position data).size other = store.size other := by
  rw [size_eq, size_eq, getElem?_laid]
  split
  case isTrue same =>
    subst same
    rw [size_eq] at fits
    cases found : store.inodes[file]? with
    | none => rfl
    | some inode =>
        rw [found] at fits
        exact Inode.size_laid_of_fits fits
  case isFalse => rfl

end FileStore

namespace FileRegion

variable {region : FileRegion} {page : VirtAddr}

/-- The part of a file behind a page that was brought in lies within the file. -/
theorem le_size_of_bringIn {transfer after : Transfer BackingStore}
    (brought : region.bringIn page transfer = .done () after) (nonempty : 0 < region.readBytes) :
    region.offset + region.readBytes ≤ transfer.store.files.size region.mapping.file := by
  have ends : (region.bringIn page transfer).Ends (fun _ _ =>
      region.offset + region.readBytes ≤ transfer.store.files.size region.mapping.file)
      (fun _ _ => True) (fun _ => True) := by
    simp only [bringIn, BackingStore.transferFiles, OpenFile.read, FileStore.read,
      FileStore.inode, Action.ends_bind, Action.ends_onPart, Action.ends_require,
      Action.ends_orFail, Action.ends_checked, Action.ends_pure]
    refine ⟨fun inode found => ⟨fun data read => ⟨fun _ _ => ?_, fun _ _ => trivial⟩,
      fun _ _ => trivial⟩, fun _ => trivial⟩
    split
    case isTrue whole =>
      rw [← whole, FileStore.size_eq, found]
      exact Inode.le_size_of_read read (by omega)
    case isFalse => trivial
  rw [brought] at ends
  exact ends

end FileRegion

/-! ## Steps -/

/-- The part of a file behind a page in memory lies within the file. -/
def Machine.RegionsFit (machine : Machine) : Prop :=
  ∀ pid address region frame, machine.region? pid address = some region →
    machine.frame? pid address = some frame →
    region.offset + region.readBytes ≤ machine.store.files.size region.mapping.file

/-- A move brings in no page of a file that has no byte of it. -/
def Move.BringsSome (move : Move) (machine : Machine) : Prop :=
  ∀ pid address frame kind first region, move = .pageIn pid address frame kind first →
    machine.region? pid address = some region → 0 < region.readBytes

open Machine

section Steps

variable {before after : Machine} {move : Move} {allowed : Move → Prop} {pid : Pid}
  {address : VirtAddr} {region : FileRegion}

theorem Machine.RegionsFit.of_sizes {store : BackingStore} (fit : before.RegionsFit)
    (sizes : ∀ file, before.store.files.size file ≤ store.files.size file) :
    ({ before with store } : Machine).RegionsFit :=
  fun pid address region frame atAddress held =>
    Nat.le_trans (fit pid address region frame atAddress held) (sizes _)

/-- The part of a file behind a page that leaves memory lies within the file. -/
theorem Machine.Departs.le_size {page : Page} {frame : PhysAddr} {contents : PageData}
    (departs : before.Departs move pid page region frame contents) (fit : before.RegionsFit) :
    region.offset + region.readBytes ≤ before.store.files.size region.mapping.file := by
  have held : before.frame? pid page.address = some frame := by
    rw [frame?, departs.registered]
    exact departs.held
  exact fit pid page.address region frame departs.pageOf.region? held

/-- Unless files are changed from outside, no file changes its size. -/
theorem Step.size_eq (step : Step move before after) (inside : move ≠ .outside)
    (fit : before.RegionsFit) (file : FileId) :
    after.store.files.size file = before.store.files.size file := by
  rcases step.content?_cases inside with
    same | ⟨pid, page, region, frame, bytes, departs, changed⟩
  · exact FileStore.size_congr (same file)
  · rw [FileStore.size_congr (changed file), FileRegion.departed]
    split
    · have fits := departs.le_size fit
      refine FileStore.size_laid_of_fits ?_
      rw [Block.size_slice]
      omega
    · rfl

theorem Step.le_size_of_pageIn {frame : PhysAddr} {kind : PageKind} {first : Bool}
    (step : Step (.pageIn pid address frame kind first) before after)
    (atAddress : before.region? pid address = some region) (nonempty : 0 < region.readBytes) :
    region.offset + region.readBytes ≤ before.store.files.size region.mapping.file := by
  cases step with
  | pageIn found registered _ _ _ _ _ brought =>
      rw [region?, page?_of_space found, registered, Option.bind_some, Page.region?] at atAddress
      exact FileRegion.le_size_of_bringIn (Backing.bringIn_of_region atAddress brought) nonempty

theorem Step.regionsFit (step : Step move before after) (sound : before.Sound)
    (inside : move ≠ .outside) (brings : move.BringsSome before) (fit : before.RegionsFit) :
    after.RegionsFit := by
  intro pid address region frame atAddress held
  have earlier := (step.pageOf_of_held sound ⟨atAddress, rfl⟩ held).region?
  rw [step.size_eq inside fit]
  rcases step.frame?_cases sound held with ⟨heldBefore, -⟩ | ⟨kind, first, rfl⟩
  · exact fit pid address region frame earlier heldBefore
  · exact step.le_size_of_pageIn earlier (brings pid address frame kind first region rfl earlier)

/-- What every step keeps holds at the end of a path along which no mapping is made or removed, or
no page of a file is brought in. -/
theorem Path.keeps_of_brings (path : Path allowed before after) (condition : Machine → Prop)
    (sound : before.Sound) (whole : ∀ pid, before.MappingsWhole pid)
    (brings : (∀ move, allowed move → ∀ pid, move.KeepsMappings pid) ∨
      ∀ pid address frame first, ¬allowed (.pageIn pid address frame .file first))
    (start : condition before)
    (keep : ∀ move middle next, allowed move → Step move middle next → middle.Sound →
      move.BringsSome middle → condition middle → condition next) : condition after := by
  rcases brings with keeps | absent
  · have kept : condition after ∧
        ∀ pid address, after.region? pid address = before.region? pid address := by
      refine path.keeps_of_sound (fun state => condition state ∧
        ∀ pid address, state.region? pid address = before.region? pid address) sound
        ⟨start, fun _ _ => rfl⟩ ?_
      rintro move middle next allow step soundMiddle ⟨holds, same⟩
      refine ⟨keep move middle next allow step soundMiddle ?_ holds, fun pid address => ?_⟩
      · intro pid address frame kind first region _ atAddress
        exact (whole pid).nonempty ((same pid address).symm.trans atAddress)
      · exact (region?_of_step step soundMiddle.frames (keeps move allow pid) address).trans
          (same pid address)
    exact kept.1
  · refine path.keeps_of_sound condition sound start fun move middle next allow step soundMiddle =>
      keep move middle next allow step soundMiddle ?_
    rintro pid address frame kind first region rfl atAddress
    obtain ⟨page, registered, rfl, -⟩ := step.page_of_pageIn
    have ofFile : middle.PageOf region.mapping.file pid address region := ⟨atAddress, rfl⟩
    rw [ofFile.kind registered] at allow
    exact absurd allow (absent pid address frame first)

end Steps

/-! ## Events -/

namespace Event

variable {event : Event} {before after : Machine}

/-- An event makes no file shorter, if it changes files from outside. -/
def ShrinksNone : Event → Prop
  | changeFiles change => ∀ file inode, inode.size ≤ (change file inode).size
  | _ => True

/-- No operation of the machine changes the size of a file. -/
theorem size_eq (sound : before.Sound) (whole : ∀ pid, before.MappingsWhole pid)
    (fit : before.RegionsFit) (inside : ¬event.IsOutside)
    (leaves : (event.perform before).state? = some after) :
    after.RegionsFit ∧
      ∀ file, after.store.files.size file = before.store.files.size file := by
  refine (leads_of_perform sound whole leaves).path.keeps_of_brings (fun state =>
    state.RegionsFit ∧ ∀ file, state.store.files.size file = before.store.files.size file) sound
      whole (event.keepsMappings_or _) ⟨fit, fun _ => rfl⟩ ?_
  rintro move middle next allow step soundMiddle brings ⟨fits, same⟩
  have insideHere := ne_outside_of_allows inside allow
  exact ⟨step.regionsFit soundMiddle insideHere brings fits, fun file =>
    (step.size_eq insideHere fits file).trans (same file)⟩

theorem regionsFit (sound : before.Sound) (whole : ∀ pid, before.MappingsWhole pid)
    (fit : before.RegionsFit) (shrinksNone : event.ShrinksNone)
    (leaves : (event.perform before).state? = some after) : after.RegionsFit := by
  by_cases outside : event.IsOutside
  · cases event with
    | changeDisk _ _ | changeWorld _ =>
        cases leaves
        exact fit
    | changeFiles change =>
        cases leaves
        refine fit.of_sizes fun file => ?_
        rw [FileStore.size_eq, FileStore.size_eq, Array.getElem?_mapIdx]
        cases before.store.files.inodes[file]? with
        | none => exact Nat.le_refl _
        | some inode => exact shrinksNone file inode
    | _ => exact outside.elim
  · exact (size_eq sound whole fit outside leaves).1

end Event

/-- The parts of files behind pages in memory lie within the files, all along a run that makes no
file shorter from outside. -/
theorem Machine.Reachable.regionsFit {machine last : Machine} {events : List Event}
    (reachable : machine.Reachable) (fit : machine.RegionsFit)
    (shrinksNone : ∀ event ∈ events, event.ShrinksNone)
    (run : machine.after? events = some last) : last.RegionsFit :=
  (reachable.keeps RegionsFit run fit fun event listed _ _ reached leaves fits =>
    Event.regionsFit reached.sound reached.mappingsWhole fits (shrinksNone event listed) leaves).2

end DemandPaging
