import DemandPaging.Proofs.CleanFailures
import DemandPaging.Proofs.FaultRetry
import DemandPaging.Proofs.FirstTouch
import DemandPaging.Proofs.PageLife
import DemandPaging.Proofs.SegmentLayout

/-!
What the pages of a segment hold.

Owns:
- `FileStore.byteAt?`, a byte of a file, and `FileStore.Delivers`, when a file can be read;
- `Segment.byteAt?`, a byte of a segment as the file has it;
- `Machine.Awaits`, how the next touch of a page of a segment ends that was not touched so far;
- `Machine.Filled`, what a page of a segment holds after a run that touched it.

Does not own: where the pages are and how a segment is loaded (`Machine.Loads`).

A frame is taken for a page before the file is read. So a file that is too short is noticed only
where a frame can be had.

Main statement: `Reachable.segment_contents`.
-/

namespace DemandPaging

open Outcome (EndAlike)

/-! ## Bytes of a file -/

/-- The byte at a position. A blank file consists of zero bytes. -/
def FileStorage.byteAt? : FileStorage → Nat → Option UInt8
  | contents bytes, position => bytes[position]?
  | blank size, position => if position < size then some 0 else none

/-- The byte at a position of a file, if the file is that long. -/
def FileStore.byteAt? (files : FileStore) (file : FileId) (position : Nat) : Option UInt8 :=
  (files.inodes[file]?).bind fun inode => inode.storage.byteAt? position

/-- A file has a number of bytes from a position on, and reading it moves all bytes asked for. -/
def FileStore.Delivers (files : FileStore) (file : FileId) (position length : Nat) : Prop :=
  ∃ inode ∈ files.inodes[file]?,
    inode.readMode.modeAt position = .whole ∧ position + length ≤ inode.size

instance (files : FileStore) (file : FileId) (position length : Nat) :
    Decidable (files.Delivers file position length) :=
  inferInstanceAs (Decidable (∃ inode ∈ files.inodes[file]?,
    inode.readMode.modeAt position = .whole ∧ position + length ≤ inode.size))

/-- A read that moves all bytes asked for shows that the file is long enough, and answers what the
file has. -/
theorem Inode.of_full_read {inode : Inode} {position length : Nat} {bytes : Array UInt8}
    (answered : inode.read position length = .ok bytes) (full : bytes.size = length)
    (nonempty : 0 < length) :
    inode.readMode.modeAt position = .whole ∧ position + length ≤ inode.size ∧
      ∀ index < length, bytes[index]? = inode.storage.byteAt? (position + index) := by
  unfold read TransferModes.admit TransferMode.admit at answered
  unfold size
  cases mode : inode.readMode.modeAt position <;> cases stored : inode.storage <;>
    simp only [mode, stored] at answered <;> cases answered <;>
    simp only [Array.size_extract, Array.size_replicate] at full
  case half.contents | half.blank => omega
  case whole.contents bytes =>
    refine ⟨rfl, ?_, fun index inside => ?_⟩
    · rw [FileStorage.size]
      omega
    · rw [FileStorage.byteAt?, Array.getElem?_extract, if_pos (by omega)]
  case whole.blank size =>
    refine ⟨rfl, ?_, fun index inside => ?_⟩
    · rw [FileStorage.size]
      omega
    · rw [FileStorage.byteAt?, Array.getElem?_replicate, if_pos (by omega), if_pos (by omega)]

/-- What is found where a file can be read is what the file has. -/
theorem FileStore.Delivers.bytesAt {files : FileStore} {file : FileId} {position length : Nat}
    (delivers : files.Delivers file position length) :
    (files.bytesAt file position length).size = length ∧
      ∀ index < length,
        (files.bytesAt file position length)[index]? = files.byteAt? file (position + index) := by
  obtain ⟨inode, found, whole, inFile⟩ := delivers
  have atFile : files.inodes[file]? = some inode := found
  obtain ⟨bytes, answered, full⟩ := Inode.read_of_whole whole inFile
  have same : files.bytesAt file position length = bytes := by
    rw [FileStore.bytesAt, atFile]
    dsimp only
    rw [answered]
  rw [same]
  refine ⟨full, fun index inside => ?_⟩
  rw [FileStore.byteAt?, atFile, Option.bind_some]
  exact (Inode.of_full_read answered full (by omega)).2.2 index inside

/-- A page is loaded from a file exactly if the file can be read there. -/
theorem Loader.ends_load_segment {file : FileId} {position length : Nat} {page : VirtAddr}
    {transfer : Transfer BackingStore} (nonempty : 0 < length) :
    ((Loader.segment file position length).load page transfer).Ends
      (fun _ _ => transfer.store.files.Delivers file position length)
      (fun error _ => file < transfer.store.files.inodes.size →
        error = .ioError ∧ ¬transfer.store.files.Delivers file position length)
      (fun _ => False) := by
  simp only [load, BackingStore.transferFiles, BackingStore.fill, Action.ends_bind,
    Action.ends_onPart, FileStore.read, FileStore.inode, Action.ends_require, Action.ends_orFail,
    Action.ends_modify]
  refine ⟨fun inode found => ⟨fun bytes answered => ?_, fun error failed _ => ?_⟩,
    fun missing stored => ?_⟩
  · split
    case isTrue short =>
      refine fun _ => ⟨rfl, fun delivers => short ?_⟩
      have full := delivers.bytesAt.1
      rw [FileStore.bytesAt, found] at full
      dsimp only at full
      rw [answered] at full
      exact full
    case isFalse full =>
      obtain ⟨whole, inFile, -⟩ := Inode.of_full_read answered (Decidable.not_not.1 full) nonempty
      exact ⟨inode, found, whole, inFile⟩
  · refine ⟨Inode.eq_ioError_of_read failed, fun delivers => ?_⟩
    obtain ⟨other, also, whole, inFile⟩ := delivers
    rw [found, Option.mem_some_iff] at also
    subst also
    obtain ⟨bytes, answered, -⟩ := Inode.read_of_whole whole inFile
    rw [failed] at answered
    cases answered
  · rw [Array.getElem?_eq_getElem stored] at missing
    cases missing

/-! ## Bytes of a segment -/

namespace Segment

variable {segment : Segment} {file : FileId} {index : Nat} {place : VirtAddr}
  {store : BackingStore} {files : FileStore}

/-- The byte at a position of a segment as the file has it: a byte of the file, if it is that long,
and then zero bytes. -/
def byteAt? (segment : Segment) (file : FileId) (files : FileStore) (position : Nat) :
    Option UInt8 :=
  if position < segment.readBytes then files.byteAt? file (segment.offset + position) else some 0

/-- The part of a file that belongs to a page of the segment can be read. -/
def Delivered (segment : Segment) (file : FileId) (files : FileStore) (index : Nat) : Prop :=
  segment.readAt index = 0 ∨
    files.Delivers file (segment.offset + index * pageSize) (segment.readAt index)

instance (segment : Segment) (file : FileId) (files : FileStore) (index : Nat) :
    Decidable (segment.Delivered file files index) :=
  inferInstanceAs (Decidable (_ ∨ _))

theorem kind_pageAt : (segment.pageAt file index place).kind = .anonymous := rfl

theorem isUntouched_pageAt : (segment.pageAt file index place).isUntouched = true := rfl

/-- A page of the segment is filled exactly if its part of the file can be read. -/
theorem ends_bringIn (segment : Segment) (file : FileId) (index : Nat) (place page : VirtAddr)
    (transfer : Transfer BackingStore) :
    ((segment.pageAt file index place).backing.bringIn page transfer).Ends
      (fun _ _ => segment.Delivered file transfer.store.files index)
      (fun error _ => file < transfer.store.files.inodes.size →
        error = .ioError ∧ ¬segment.Delivered file transfer.store.files index)
      (fun _ => False) := by
  show ((Backing.untouched (.anonymous (segment.loaderAt file index))).bringIn page transfer).Ends
    _ _ _
  by_cases nothing : segment.readAt index = 0
  · rw [loaderAt, if_pos nothing]
    exact .inl nothing
  · rw [loaderAt, if_neg nothing]
    simp only [Backing.bringIn, BackingStore.fill, Action.ends_bind, Action.ends_modify,
      Action.ends_pure]
    refine (Loader.ends_load_segment (Nat.pos_of_ne_zero nothing)).imp
      (fun _ _ delivers => .inr delivers) ?_ (fun _ no => no)
    intro error _ fails stored
    obtain ⟨ioError, refused⟩ := fails stored
    refine ⟨ioError, fun delivered => ?_⟩
    cases delivered with
    | inl zero => exact nothing zero
    | inr delivers => exact refused delivers

theorem canFill_iff (stored : file < store.files.inodes.size) :
    (segment.pageAt file index place).CanFill store ↔
      segment.Delivered file store.files index := by
  have ends := segment.ends_bringIn file index place
    (segment.pageAt file index place).address ⟨store, Block.zero⟩
  constructor
  · intro fills
    obtain ⟨backing, transfer, filled⟩ := fills
    unfold Page.fill at filled
    rw [filled] at ends
    exact ends
  · intro delivered
    unfold Page.CanFill Page.fill
    cases filled : (segment.pageAt file index place).backing.bringIn
        (segment.pageAt file index place).address ⟨store, Block.zero⟩ with
    | done backing transfer => exact ⟨backing, transfer, rfl⟩
    | failed error transfer =>
        rw [filled] at ends
        exact absurd delivered (ends stored).2
    | halted fault =>
        rw [filled] at ends
        exact ends.elim

/-- A page of the segment comes in with the bytes of the segment. -/
theorem getElem_incoming (delivered : segment.Delivered file files index) (place page : VirtAddr)
    (swap : SwapArea) (world : World) {position : Nat} (inPage : position < pageSize) :
    let backing := (segment.pageAt file index place).backing
    segment.byteAt? file files (index * pageSize + position) =
      some (backing.incoming page swap files world)[position] := by
  show _ = some ((Backing.untouched (.anonymous (segment.loaderAt file index))).incoming page
    swap files world)[position]
  unfold byteAt?
  -- A page behind the last byte of the file has no loader. The others are split at that byte.
  by_cases nothing : segment.readAt index = 0
  · have behind : ¬index * pageSize + position < segment.readBytes := by
      unfold readAt at nothing
      simp only [pageSize] at *
      omega
    rw [loaderAt, if_pos nothing, if_neg behind]
    exact congrArg some (Block.getElem_zero inPage).symm
  · have delivers := delivered.resolve_left nothing
    obtain ⟨size, bytes⟩ := delivers.bytesAt
    rw [loaderAt, if_neg nothing]
    show _ = some (Block.zero.overlay 0 (files.bytesAt file (segment.offset + index * pageSize)
      (segment.readAt index)))[position]
    rw [Block.getElem_overlay inPage, size, Nat.zero_add, Nat.sub_zero]
    by_cases read : position < segment.readAt index
    · have inside : index * pageSize + position < segment.readBytes := by
        unfold readAt at read
        simp only [pageSize] at *
        omega
      have here := bytes position read
      rw [Nat.add_assoc] at here
      rw [if_pos inside, if_pos ⟨Nat.zero_le _, read⟩, ← here, Array.getD_eq_getD_getElem?,
        Array.getElem?_eq_getElem (by omega), Option.getD_some]
    · have behind : ¬index * pageSize + position < segment.readBytes := by
        unfold readAt at read
        simp only [pageSize] at *
        omega
      rw [if_neg behind, if_neg fun both => read both.2]
      exact congrArg some (Block.getElem_zero inPage).symm

end Segment

open Machine

/-! ## The first touch -/

section Touch

variable {allowed : Move → Prop} {before middle brought after : Machine} {pid : Pid}
  {place spot : VirtAddr} {frame : PhysAddr} {kind : PageKind} {first : Bool} {page : Page}
  {segment : Segment} {file : FileId} {index : Nat}

/-- An anonymous page that is brought in holds the bytes that its backing stands for. -/
theorem Step.contents?_of_first (step : Step (.pageIn pid place frame kind first) before after)
    (sound : before.Sound) (registered : before.page? pid place = some page)
    (anonymous : page.kind = .anonymous) :
    after.contents? pid place =
      some (page.backing.incoming page.address before.store.swap before.store.files
        before.store.world) := by
  obtain ⟨now, found, claimed⟩ := (step.claimedTo_of_pageIn registered).2
  have held := step.frame?_of_pageIn
  rw [frame?, found, Option.bind_some] at held
  rw [contents?_of_page found, contentsOf?_of_held (claimed.continues.kind.trans anonymous)
    ((step.sound sound).slots.placed _ _ _ found) held]
  exact (step.incoming_of_pageIn registered).1

/-- A page of a segment is brought in only where its part of the file can be read. -/
theorem Step.delivered_of_pageIn (step : Step (.pageIn pid place frame kind first) before after)
    (registered : before.page? pid place = some (segment.pageAt file index place)) :
    segment.Delivered file before.store.files index := by
  cases step with
  | @pageIn _ _ space brought _ bytes backing transfer _ _ _ resident onSpace atPlace _ _ _ _ _
      fills =>
      have ends := segment.ends_bringIn file index brought.address brought.address
        ⟨before.store, bytes⟩
      rw [page?_of_space onSpace, atPlace, Option.some.injEq] at registered
      rw [← registered, fills] at ends
      exact ends

/-- A page of a segment is brought in with the bytes of the segment as the file has them. -/
theorem Step.byte?_of_segment (step : Step (.pageIn pid place frame kind first) before after)
    (sound : before.Sound)
    (registered : before.page? pid place = some (segment.pageAt file index place))
    (here : place.toNat = segment.address.toNat + index * pageSize)
    (inPage : spot.pageDown = place) :
    ∃ byte, segment.byteAt? file before.store.files (spot.toNat - segment.address.toNat) =
        some byte ∧ after.byte? pid spot = some byte := by
  have delivered := step.delivered_of_pageIn registered
  have contents := step.contents?_of_first sound registered Segment.kind_pageAt
  have position := Address.pageDown_add_offset spot
  have distance : spot.toNat - segment.address.toNat = index * pageSize + spot.offset := by
    rw [inPage] at position
    omega
  have byte := Segment.getElem_incoming delivered place (segment.pageAt file index place).address
    before.store.swap before.store.world spot.offset_lt_pageSize
  refine ⟨_, by rw [distance]; exact byte, ?_⟩
  rw [Machine.byte?, inPage, contents]
  rfl

end Touch

namespace Machine

variable {machine loaded last after : Machine} {pid : Pid} {address place : VirtAddr}
  {segment : Segment} {file : FileId} {index : Nat} {page : Page} {write : Bool}

/-! ## Faults -/

theorem space_eq_done {space : AddressSpace} (found : machine.spaces[pid]? = some space) :
    Machine.space pid machine = .done space machine := by
  rw [Machine.space, found]
  rfl

/-- A fault on a registered page that allows the access brings the page in. -/
theorem handleFault_eq_makeResident (user : machine.UserPages)
    (registered : machine.page? pid address.pageDown = some page) {code : FaultCode}
    (permits : code.write = true → page.writable = true) (stackPointer : VirtAddr) :
    handleFault pid { address, code, stackPointer } machine =
      makeResident pid address machine := by
  obtain ⟨space, found, atPage⟩ := space_of_page? registered
  have below := user pid address.pageDown page registered
  have notKernel : address.isKernel = false := by
    rw [Address.toNat_pageDown] at below
    simp only [Address.isKernel, decide_eq_false_iff_not, kernelBase, pageSize] at *
    omega
  have allowed : (code.write && !page.writable) = false := by
    cases write : code.write with
    | false => rfl
    | true => rw [permits write]; rfl
  have known := space_eq_done found
  simp only [handleFault, notKernel, Bool.and_false, Bool.false_eq_true, if_false,
    Action.bind_apply, known, PageRegistry.find?_eq_at?, atPage, allowed]

/-- An access to a page that is not in memory faults. -/
theorem access_of_absent (sound : machine.Sound)
    (registered : machine.page? pid address.pageDown = some page) (absent : page.frame = none)
    (write : Bool) :
    access pid address write machine = .done (.error ⟨false, write, true⟩) machine := by
  obtain ⟨space, found, atPage⟩ := space_of_page? registered
  have known := space_eq_done found
  have unmapped : space.table.view? address.pageDown = none := by
    refine (sound.frames.spaces pid space found).1.view?_of_absent fun other also => ?_
    rw [atPage, Option.some.injEq] at also
    rw [← also, absent]
  simp only [access, Action.bind_apply, known, PageTable.access_of_unmapped write unmapped,
    setSpace, Action.modify, insert_space found]
  rfl

/-- An access to a page that is not in memory ends as bringing the page in. -/
theorem Reachable.locate_of_absent (reachable : machine.Reachable)
    (registered : machine.page? pid address.pageDown = some page) (absent : page.frame = none)
    (permits : write = true → page.writable = true) :
    (∀ error after, makeResident pid address machine = .failed error after →
      locate pid address write machine = .failed error after) ∧
    ∀ after, makeResident pid address machine = .done () after →
      ∃ location last, locate pid address write machine = .done location last := by
  obtain ⟨space, found, -⟩ := space_of_page? registered
  have known := space_eq_done found
  have faults := access_of_absent reachable.sound registered absent write
  have handles (code : FaultCode) (same : code.write = write) :=
    handleFault_eq_makeResident reachable.userPages registered (fun writes =>
      permits (same ▸ writes)) space.stackPointer
  constructor
  · intro error after failed
    simp only [locate, Action.bind_apply, known, faults, handles ⟨false, write, true⟩ rfl, failed]
  · intro after came
    have handled := (handles ⟨false, write, true⟩ rfl).trans came
    have retried := reachable.retry_succeeds_iff faults handled
    have noGrowth := retried.2.1 (.inr (by rw [registered]; rfl))
    refine (retried.2.2 space found rfl).1.2 ?_
    rw [noGrowth]
    exact Nat.zero_le _

/-! ## Pages that were not touched so far -/

/-- How the next touch of a page of a segment ends that was not touched so far: as taking a frame
for it ends, and then as reading its part of the file. -/
structure Awaits (machine : Machine) (pid : Pid) (file : FileId) (segment : Segment) (index : Nat)
    (address : VirtAddr) : Prop where
  /-- Without a frame the file is not read. -/
  refused : ∀ error after, takeFrame machine = .failed error after →
    makeResident pid address machine = .failed error after
  /-- The file is too short, or it does not move all bytes it is asked for. -/
  short : ∀ frame held, takeFrame machine = .done frame held →
    ¬segment.Delivered file held.store.files index →
    ∃ after, makeResident pid address machine = .failed .ioError after
  comes : ∀ frame held, takeFrame machine = .done frame held →
    segment.Delivered file held.store.files index →
    ∃ after, makeResident pid address machine = .done () after
  /-- The page has the bytes of the segment, as the file has them at that moment. -/
  filled : ∀ after, makeResident pid address machine = .done () after →
    ∀ spot : VirtAddr, spot.pageDown = address.pageDown → ∃ byte,
      segment.byteAt? file after.store.files (spot.toNat - segment.address.toNat) = some byte ∧
        after.byte? pid spot = some byte
  /-- A touch that fails leaves the page untouched. -/
  stays : ∀ error after, makeResident pid address machine = .failed error after →
    after.page? pid address.pageDown = some (segment.pageAt file index address.pageDown)
  /-- A fault that the page allows brings it in, and so does an access. -/
  faults : ∀ code stackPointer, (code.write = true → segment.writable = true) →
    handleFault pid { address, code, stackPointer } machine = makeResident pid address machine
  accesses : ∀ write, (write = true → segment.writable = true) →
    (∀ error after, makeResident pid address machine = .failed error after →
      locate pid address write machine = .failed error after) ∧
    ∀ after, makeResident pid address machine = .done () after →
      ∃ location last, locate pid address write machine = .done location last

/-- Taking a frame keeps the number of files. -/
theorem Sound.fileCount_of_takeFrame (sound : machine.Sound) {frame : PhysAddr} {held : Machine}
    (takes : takeFrame machine = .done frame held) :
    held.store.files.inodes.size = machine.store.files.inodes.size := by
  have ends := ends_takeFrame sound
  rw [takes] at ends
  obtain ⟨settled, holding⟩ := ends
  rw [holding.inHand]
  exact (holding.path.fileCount sound).1

/-- Without a frame a page that is not in memory stays where it is. -/
theorem makeResident_of_refused (registered : machine.page? pid address.pageDown = some page)
    (absent : page.frame = none) {error : Errno}
    (refused : takeFrame machine = .failed error after) :
    makeResident pid address machine = .failed error after := by
  have notResident : page.isResident = false := by
    rw [Page.isResident, absent]
    rfl
  simp only [makeResident, Action.bind_apply, Action.get, findPage?_eq_page?, registered,
    notResident, Bool.false_eq_true, if_false, refused]

/-- With a frame in hand, a page of a segment fails with an I/O error where its part of the file
cannot be read. -/
theorem Reachable.makeResident_of_short (reachable : machine.Reachable)
    (registered : machine.page? pid address.pageDown = some (segment.pageAt file index place))
    (stored : file < machine.store.files.inodes.size) {frame : PhysAddr} {held : Machine}
    (takes : takeFrame machine = .done frame held)
    (short : ¬segment.Delivered file held.store.files index) :
    ∃ after, makeResident pid address machine = .failed .ioError after := by
  have sound := reachable.sound
  have storedHeld : file < held.store.files.inodes.size := by
    rw [sound.fileCount_of_takeFrame takes]
    exact stored
  have fill := segment.ends_bringIn file index place (segment.pageAt file index place).address
    ⟨held.store, Block.zero⟩
  have ends := sound.ends_makeResident_fill reachable.userPages registered rfl
  cases outcome : makeResident pid address machine with
  | done _ after =>
      rw [outcome] at ends
      obtain ⟨_, also, same, fills⟩ := ends
      rw [takes] at same
      cases same
      exact absurd ((Segment.canFill_iff storedHeld).1 fills) short
  | failed error after =>
      rw [outcome] at ends
      cases ends with
      | inl refused =>
          rw [takes] at refused
          cases refused
      | inr fails =>
          obtain ⟨_, also, same, fails⟩ := fails
          rw [takes] at same
          cases same
          obtain ⟨transfer, failed⟩ := fails.failed
          unfold Page.fill at failed
          rw [failed] at fill
          exact ⟨after, by rw [(fill storedHeld).1]⟩
  | halted fault =>
      rw [outcome] at ends
      cases ends with
      | inl refused =>
          rw [takes] at refused
          cases refused
      | inr stops =>
          obtain ⟨_, also, same, stops⟩ := stops
          rw [takes] at same
          cases same
          unfold Page.fill at stops
          rw [stops] at fill
          exact fill.elim

/-- Bringing in a page that was not touched so far is its first touch. -/
theorem Sound.brings_of_makeResident (sound : machine.Sound)
    (registered : machine.page? pid address.pageDown = some page) (absent : page.frame = none)
    (untouched : page.isUntouched = true)
    (came : makeResident pid address machine = .done () after) :
    ∃ middle, machine.Brings Move.IsUnseen pid address.pageDown page middle after after := by
  have ends := ends_makeResident sound pid address
  rw [came, frame?, registered, Option.bind_some, absent] at ends
  cases ends with
  | inl resident => cases resident.2
  | inr comes =>
      obtain ⟨-, frame, kind, first, middle, held, holding, step, -⟩ := comes
      obtain ⟨known, -⟩ := holding.path.page?_of_makesRoom sound registered absent
      obtain ⟨other, also, rfl, rfl⟩ := step.page_of_pageIn
      rw [known, Option.some.injEq] at also
      subst also
      rw [untouched] at step
      exact ⟨middle, holding.path.mono fun _ room => room.unseen, known, ⟨frame, step⟩, .refl after⟩

theorem Reachable.awaits (reachable : machine.Reachable)
    (registered : machine.page? pid address.pageDown =
      some (segment.pageAt file index address.pageDown))
    (stored : file < machine.store.files.inodes.size)
    (here : address.pageDown.toNat = segment.address.toNat + index * pageSize) :
    machine.Awaits pid file segment index address where
  refused _ _ refused := makeResident_of_refused registered rfl refused
  short _ _ takes short := reachable.makeResident_of_short registered stored takes short
  comes frame held takes delivered := by
    apply (reachable.sound.exists_makeResident_iff reachable.userPages registered rfl).2
    refine ⟨frame, held, takes, (Segment.canFill_iff ?_).2 delivered⟩
    rw [reachable.sound.fileCount_of_takeFrame takes]
    exact stored
  filled after came spot inPage := by
    obtain ⟨middle, brings⟩ := reachable.sound.brings_of_makeResident registered rfl rfl came
    obtain ⟨frame, step⟩ := brings.step
    have soundMiddle := brings.earlier.sound reachable.sound
    rw [(step.incoming_of_pageIn brings.untouched).2.1]
    exact step.byte?_of_segment soundMiddle brings.untouched here inPage
  stays error after failed := by
    rw [← findPage?_eq_page?]
    exact (reachable.claimFails registered failed).same
  faults code stackPointer permits :=
    handleFault_eq_makeResident reachable.userPages registered permits stackPointer
  accesses write permits := reachable.locate_of_absent registered rfl permits

/-! ## Runs -/

/-- A page of a segment was touched in a run. It came in during one event, with the bytes of the
segment as the file had them then. Since this event began every byte of it is what was stored there
last, or else the byte it came in with. -/
def Filled (loaded : Machine) (events : List Event) (pid : Pid) (file : FileId)
    (segment : Segment) (index : Nat) (place : VirtAddr) (last : Machine) : Prop :=
  ∃ past event rest state next middle brought, events = past ++ event :: rest ∧
    loaded.after? past = some state ∧ (event.perform state).state? = some next ∧
    state.Brings (event.Allows state.nextPid) pid place (segment.pageAt file index place)
      middle brought next ∧
    ∀ spot : VirtAddr, spot.pageDown = place → ∃ byte,
      segment.byteAt? file middle.store.files (spot.toNat - segment.address.toNat) = some byte ∧
        brought.byte? pid spot = some byte ∧
        last.byte? pid spot = some (storedLast pid spot (event :: rest) state byte)

/-- The files of a machine stay the same in number. -/
theorem Reachable.fileCount (reachable : machine.Reachable) {events : List Event}
    (run : machine.after? events = some last) :
    last.store.files.inodes.size = machine.store.files.inodes.size := by
  refine (reachable.keeps (fun state => state.store.files.inodes.size =
    machine.store.files.inodes.size) run rfl ?_).2
  intro event _ before after reached leaves same
  have path := (Event.leads_of_perform reached.sound reached.mappingsWhole leaves).path
  exact (path.fileCount reached.sound).1.trans same

/-- A page of a segment that was not touched yet is untouched after any run in which its process
lives, and awaits its touch, or it was filled on the way. -/
theorem Reachable.awaits_or_filled (reachable : loaded.Reachable)
    (registered : loaded.page? pid place = some (segment.pageAt file index place))
    (stored : file < loaded.store.files.inodes.size)
    (here : place.toNat = segment.address.toNat + index * pageSize) {events : List Event}
    (run : loaded.after? events = some last) (present : last.spaces[pid]?.isSome = true) :
    (last.page? pid place = some (segment.pageAt file index place) ∧
        ∀ address : VirtAddr, address.pageDown = place →
          last.Awaits pid file segment index address) ∨
      loaded.Filled events pid file segment index place last := by
  have reachableLast := reachable.of_after? run
  cases reachable.same_or_brings registered Segment.isUntouched_pageAt Segment.kind_pageAt run
      present with
  | inl same =>
      refine .inl ⟨same, fun address inPage => ?_⟩
      subst inPage
      apply reachableLast.awaits same _ here
      rw [reachable.fileCount run]
      exact stored
  | inr touched =>
      obtain ⟨past, event, rest, state, next, middle, brought, split, reached, leaves, brings,
        bytes⟩ := touched
      refine .inr ⟨past, event, rest, state, next, middle, brought, split, reached, leaves, brings,
        fun spot inPage => ?_⟩
      obtain ⟨frame, step⟩ := brings.step
      have soundMiddle := brings.earlier.sound (reachable.of_after? reached).sound
      obtain ⟨byte, ofSegment, comes⟩ := step.byte?_of_segment soundMiddle brings.untouched here
        inPage
      exact ⟨byte, ofSegment, comes, bytes spot byte inPage comes⟩

theorem Reachable.of_loadSegment (reachable : machine.Reachable)
    (done : loadSegment pid file segment machine = .done () loaded) : loaded.Reachable := by
  apply reachable.next (.loadSegment pid file segment)
  show (loadSegment pid file segment machine).state? = some loaded
  rw [done]
  rfl

/-- In every reachable state a segment, with sizes and a last position that are machine words, is
loaded exactly if it consists of whole pages and there is room for them. Its pages are registered
then and nothing else happens, as if no file could be read. A page that was not touched since comes
in with the bytes of the segment as the file has them, as soon as a frame can be had for it. If its
part of the file cannot be read then, because the file is too short, the touch fails with an I/O
error; and whichever error it fails with, the page stays untouched. From its first touch on, a byte
of the segment is what was stored there last, or else what the file had for it during that touch,
whatever happens to the page and to the file. -/
theorem Reachable.segment_contents (reachable : machine.Reachable) (pid : Pid) (file : FileId)
    (segment : Segment) (sizes : segment.readBytes + segment.zeroBytes < Word.limit)
    (position : segment.offset + segment.readBytes < Word.limit)
    (stored : file < machine.store.files.inodes.size) :
    ((∃ loaded, loadSegment pid file segment machine = .done () loaded) ↔
      segment.Whole ∧ machine.RoomFor pid segment.address.toNat segment.pageCount) ∧
    (∀ fault, loadSegment pid file segment machine ≠ .halted fault) ∧
    EndAlike (fun _ => Seals) (fun _ => Seals) (loadSegment pid file segment machine)
      (loadSegment pid file segment machine.sealed) ∧
    ∀ loaded, loadSegment pid file segment machine = .done () loaded →
      machine.Loads pid file segment loaded ∧
      ∀ events last, loaded.after? events = some last → last.spaces[pid]?.isSome = true →
        ∀ index < segment.pageCount, ∀ place : VirtAddr,
          place.toNat = segment.address.toNat + index * pageSize →
          (last.page? pid place = some (segment.pageAt file index place) ∧
              ∀ address : VirtAddr, address.pageDown = place →
                last.Awaits pid file segment index address) ∨
            loaded.Filled events pid file segment index place last := by
  have reach : segment.reach = segment.pageCount := by rw [Segment.reach, if_pos position]
  have ends := ends_loadSegment_loads machine pid file segment
    (Nat.lt_of_le_of_lt (Nat.le_add_right _ _) position)
  rw [reach] at ends
  have goesOn : ∀ fault, loadSegment pid file segment machine ≠ .halted fault := by
    intro fault halted
    rw [halted] at ends
    cases ends.2 with
    | inl large => exact absurd sizes (Nat.not_lt.2 large)
    | inr beyond => exact absurd position (Nat.not_lt.2 beyond.2.2)
  refine ⟨⟨?_, ?_⟩, goesOn, endAlike_loadSegment_sealed machine pid file segment, ?_⟩
  · intro done
    obtain ⟨loaded, done⟩ := done
    rw [done] at ends
    exact ⟨ends.2.1, ends.2.2.1⟩
  · intro fits
    cases outcome : loadSegment pid file segment machine with
    | done _ loaded => exact ⟨loaded, rfl⟩
    | failed error after =>
        rw [outcome] at ends
        cases ends.2 with
        | inl unfit => exact absurd fits.1 unfit.1
        | inr full => exact absurd fits.2 full.2
    | halted fault => exact absurd outcome (goesOn fault)
  · intro loaded done
    rw [done] at ends
    have loads := ends.2.2.2.2
    refine ⟨loads, fun events last run present index inside place here => ?_⟩
    obtain ⟨other, there, registered⟩ := loads.pages index inside
    obtain rfl : place = other := Address.ext_toNat (here.trans there.symm)
    apply (reachable.of_loadSegment done).awaits_or_filled registered _ here run present
    rw [loads.outside]
    exact stored

/-- A segment of one page, for which a file of three bytes is too short. -/
def tooLong : Segment := ⟨0, firstPage, pageSize, 0, true⟩

/-- The page of the segment is registered, and its touch fails with an I/O error. -/
theorem segment_too_long_tiny :
    ∃ machine loaded after, tinyWithFile.after? [.createProcess] = some machine ∧
      loadSegment ⟨1⟩ 0 tooLong machine = .done () loaded ∧
      makeResident ⟨1⟩ firstPage loaded = .failed .ioError after ∧
      after.page? ⟨1⟩ firstPage = some (tooLong.pageAt 0 0 firstPage) := by
  have runs : (tinyWithFile.after? [.createProcess]).any (fun machine =>
      machine.store.files = ⟨#[{ storage := .contents #[7, 8, 9] }]⟩ ∧
        (machine.spaces[(⟨1⟩ : Pid)]?).isSome = true ∧
        (machine.page? ⟨1⟩ firstPage).isNone = true ∧ 0 < machine.freeFrames) = true := by
    decide +kernel
  obtain ⟨machine, run, state⟩ := (Option.any_eq_true _ _).1 runs
  obtain ⟨files, process, absent, free⟩ := of_decide_eq_true state
  have room : machine.RoomFor ⟨1⟩ tooLong.address.toNat tooLong.pageCount := by
    refine roomFor_succ_iff.2 ⟨roomFor_first_iff.2 ?_, roomFor_zero⟩
    exact ⟨process, by decide, Option.isNone_iff_eq_none.1 absent⟩
  have contents := (reachable_tinyWithFile.of_after? run).segment_contents ⟨1⟩ 0 tooLong
    (by decide) (by decide) (by rw [files]; decide)
  obtain ⟨loaded, done⟩ := contents.1.2 ⟨by decide, room⟩
  obtain ⟨loads, pages⟩ := contents.2.2.2 loaded done
  have reachable := (reachable_tinyWithFile.of_after? run).of_loadSegment done
  have present : loaded.spaces[(⟨1⟩ : Pid)]?.isSome = true := by
    obtain ⟨place, -, registered⟩ := loads.pages 0 (by decide)
    obtain ⟨space, found, -⟩ := space_of_page? registered
    rw [found]
    rfl
  have freeAfter : 0 < loaded.freeFrames := by
    rw [loads.outside]
    exact free
  obtain ⟨frame, taken, -, takes⟩ := takeFrame_of_free reachable.sound freeAfter
  have short : ¬tooLong.Delivered 0 loaded.store.files 0 := by
    rw [loads.outside]
    show ¬tooLong.Delivered 0 machine.store.files 0
    rw [files]
    decide
  cases pages [] loaded rfl present 0 (by decide) firstPage (by decide) with
  | inl awaits =>
      have touch := awaits.2 firstPage (by decide)
      obtain ⟨after, failed⟩ := touch.short frame _ takes short
      exact ⟨machine, loaded, after, run, done, failed, touch.stays _ after failed⟩
  | inr filled =>
      obtain ⟨past, event, rest, _, _, _, _, split, -⟩ := filled
      cases past <;> cases split

/-- A machine with one frame, without swap, and with a file of three bytes. -/
def swaplessWithFile : Machine :=
  create {} (FramePool.create 1) (Disk.create 0) ⟨#[{ storage := .contents #[7, 8, 9] }]⟩

/-- Another page occupies the only frame. -/
def occupying : List Event :=
  [.createProcess, .registerPage ⟨1⟩ secondPage true .normal none, .makeResident ⟨1⟩ secondPage]

/-- The file is too short for the page of the segment, and yet its touch does not fail with an I/O
error, as there is no space for the page that would have to make room for it. -/
theorem segment_too_long_swapless :
    ∃ machine loaded after, swaplessWithFile.after? occupying = some machine ∧ machine.Reachable ∧
      loadSegment ⟨1⟩ 0 tooLong machine = .done () loaded ∧
      loaded.store.files.size 0 < tooLong.offset + tooLong.readBytes ∧
      makeResident ⟨1⟩ firstPage loaded = .failed .noSpace after := by
  have runs : (swaplessWithFile.after? occupying).any (fun machine =>
      ((loadSegment ⟨1⟩ 0 tooLong >>= fun _ => Action.get) machine).answer?.any (fun loaded =>
        loaded.store.files.size 0 < tooLong.offset + tooLong.readBytes ∧
          (makeResident ⟨1⟩ firstPage loaded).error? = some .noSpace)) = true := by
    decide +kernel
  obtain ⟨machine, run, state⟩ := (Option.any_eq_true _ _).1 runs
  obtain ⟨loaded, answers, state⟩ := (Option.any_eq_true _ _).1 state
  obtain ⟨short, fails⟩ := of_decide_eq_true state
  obtain ⟨_, ran⟩ := Outcome.exists_of_answer? answers
  obtain ⟨_, _, done, same⟩ := Action.bind_eq_done ran
  cases same
  obtain ⟨after, failed⟩ := Outcome.exists_of_error? fails
  have start : swaplessWithFile.Reachable := .start {} 1 (Disk.create 0) _
  exact ⟨machine, _, after, run, start.of_after? run, done, short, failed⟩

end Machine

end DemandPaging
