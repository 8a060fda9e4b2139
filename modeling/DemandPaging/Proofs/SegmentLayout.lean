import DemandPaging.Proofs.MappingLayout
import DemandPaging.Proofs.Registration

/-!
Where the pages of a segment lie, in memory and in the file.

Owns:
- `Segment.Whole`, a segment of whole pages, and `Segment.pageAt`, a page of it before its first
  touch;
- `Machine.RoomFor`, pages that can be registered;
- `Machine.Loads`, what a machine is like after a segment was loaded;
- how loading a segment ends, pages, errors and faults (`ends_loadSegment_loads`), and that it is
  done without a look into the file (`endAlike_loadSegment_sealed`).

Does not own: what the pages hold once they are touched (`SegmentContents`).

The loop over the pages keeps four numbers of what is left of the segment. The bytes to be read and
the zero bytes stay a number of whole pages together, and while there is something to be read the
position in the file is that of a page. So the only sum that can leave the machine words is the
position in the file, and it does so after the last page that the words have room for.
-/

namespace DemandPaging

open Outcome (EndAlike)

theorem Word.of_add_eq_error {left right : Nat} {operation : Overflow}
    (fails : Word.add left right = .error operation) :
    Word.limit ≤ left + right ∧ operation = .add := by
  unfold Word.add at fails
  split at fails
  case isTrue => cases fails
  case isFalse beyond =>
    cases fails
    exact ⟨Nat.le_of_not_lt beyond, rfl⟩

/-! ## The pages of a segment -/

namespace Segment

/-- A segment consists of whole pages, in memory and in the file. -/
structure Whole (segment : Segment) : Prop where
  total : (segment.readBytes + segment.zeroBytes) % pageSize = 0
  address : segment.address.isPageAligned = true
  offset : segment.offset % pageSize = 0

instance (segment : Segment) : Decidable segment.Whole :=
  decidable_of_iff ((segment.readBytes + segment.zeroBytes) % pageSize = 0 ∧
      segment.address.isPageAligned = true ∧ segment.offset % pageSize = 0)
    ⟨fun parts => ⟨parts.1, parts.2.1, parts.2.2⟩,
      fun whole => ⟨whole.total, whole.address, whole.offset⟩⟩

def pageCount (segment : Segment) : Nat := (segment.readBytes + segment.zeroBytes) / pageSize

/-- How many bytes of a page of the segment come from the file. -/
def readAt (segment : Segment) (index : Nat) : Nat :=
  min (segment.readBytes - index * pageSize) pageSize

/-- What brings in the bytes of a page of the segment. -/
def loaderAt (segment : Segment) (file : FileId) (index : Nat) : Option Loader :=
  if segment.readAt index = 0 then none
  else some (.segment file (segment.offset + index * pageSize) (segment.readAt index))

/-- A page of the segment that was not touched so far. -/
def pageAt (segment : Segment) (file : FileId) (index : Nat) (place : VirtAddr) : Page :=
  .create place segment.writable .normal (.untouched (.anonymous (segment.loaderAt file index)))

/-- The pages of the segment are at these addresses. -/
def HasPage (segment : Segment) (place : VirtAddr) : Prop :=
  ∃ index < segment.pageCount, place.toNat = segment.address.toNat + index * pageSize

/-- How many pages are registered before the position in the file leaves the machine words. -/
def reach (segment : Segment) : Nat :=
  if segment.offset + segment.readBytes < Word.limit then segment.pageCount
  else (Word.limit - segment.offset) / pageSize

/-- What is left of a segment after its first page. The next page is at a given address. -/
def rest (segment : Segment) (address : VirtAddr) : Segment :=
  { segment with
    offset := segment.offset + min segment.readBytes pageSize
    address
    readBytes := segment.readBytes - min segment.readBytes pageSize
    zeroBytes := segment.zeroBytes - (pageSize - min segment.readBytes pageSize) }

variable {segment : Segment} {count : Nat} {address : VirtAddr}

theorem rest_total (address : VirtAddr)
    (total : segment.readBytes + segment.zeroBytes = (count + 1) * pageSize) :
    (segment.rest address).readBytes + (segment.rest address).zeroBytes = count * pageSize := by
  simp only [rest, pageSize] at *
  omega

theorem rest_offset (inFile : segment.readBytes = 0 ∨ segment.offset % pageSize = 0) :
    (segment.rest address).readBytes = 0 ∨ (segment.rest address).offset % pageSize = 0 := by
  simp only [rest, pageSize] at *
  omega

theorem rest_aligned (aligned : segment.address.offset = 0)
    (next : address.toNat = segment.address.toNat + pageSize) :
    (segment.rest address).address.offset = 0 := by
  have same : (segment.rest address).address = address := rfl
  rw [same]
  simp only [Address.offset, pageSize] at *
  omega

theorem pageCount_of_total (total : segment.readBytes + segment.zeroBytes = count * pageSize) :
    segment.pageCount = count := by
  simp only [pageCount, pageSize] at *
  omega

theorem loaderAt_rest (file : FileId) (index : Nat) :
    (segment.rest address).loaderAt file index = segment.loaderAt file (index + 1) := by
  have read : (segment.rest address).readAt index = segment.readAt (index + 1) := by
    simp only [readAt, rest, pageSize]
    omega
  unfold loaderAt
  rw [read]
  by_cases none : segment.readAt (index + 1) = 0
  · rw [if_pos none, if_pos none]
  · rw [if_neg none, if_neg none]
    have position : (segment.rest address).offset + index * pageSize =
        segment.offset + (index + 1) * pageSize := by
      simp only [readAt, rest, pageSize] at *
      omega
    rw [position]

/-- One page is registered before the others. -/
theorem reach_rest (address : VirtAddr)
    (total : segment.readBytes + segment.zeroBytes = (count + 1) * pageSize)
    (word : segment.offset < Word.limit)
    (next : segment.offset + min segment.readBytes pageSize < Word.limit) :
    segment.reach = (segment.rest address).reach + 1 := by
  have left := pageCount_of_total (rest_total address total)
  have all := pageCount_of_total total
  have same : (segment.rest address).offset + (segment.rest address).readBytes =
      segment.offset + segment.readBytes := by
    simp only [rest]
    omega
  unfold reach
  rw [left, all, same]
  by_cases within : segment.offset + segment.readBytes < Word.limit
  · rw [if_pos within, if_pos within]
  · rw [if_neg within, if_neg within]
    simp only [rest, pageSize, Word.limit] at *
    omega

theorem reach_of_overflow (inFile : segment.readBytes = 0 ∨ segment.offset % pageSize = 0)
    (word : segment.offset < Word.limit)
    (beyond : Word.limit ≤ segment.offset + min segment.readBytes pageSize) :
    segment.reach = 1 := by
  unfold reach
  simp only [pageSize, Word.limit] at *
  split <;> omega

theorem reach_of_beyond (beyond : Word.limit ≤ segment.offset + segment.readBytes) :
    segment.reach = (Word.limit - segment.offset) / pageSize := by
  rw [reach, if_neg (Nat.not_lt.2 beyond)]

end Segment

namespace Machine

variable {before middle after machine : Machine} {pid : Pid} {address place : VirtAddr}
  {file : FileId} {segment : Segment} {count start : Nat}

/-! ## Room for pages -/

/-- A page can be registered at an address of a process. -/
structure Free (machine : Machine) (pid : Pid) (place : VirtAddr) : Prop where
  process : (machine.spaces[pid]?).isSome = true
  user : place.isUser = true
  unregistered : machine.page? pid place = none

/-- Some consecutive pages of a process can be registered. -/
def RoomFor (machine : Machine) (pid : Pid) (start count : Nat) : Prop :=
  ∀ index < count, ∃ place : VirtAddr, place.toNat = start + index * pageSize ∧
    machine.Free pid place

theorem roomFor_zero : machine.RoomFor pid start 0 := nofun

theorem roomFor_succ_iff :
    machine.RoomFor pid start (count + 1) ↔
      (∃ place : VirtAddr, place.toNat = start ∧ machine.Free pid place) ∧
        machine.RoomFor pid (start + pageSize) count := by
  constructor
  · intro room
    constructor
    · simpa using room 0 (Nat.succ_pos count)
    · intro index inside
      obtain ⟨place, here, free⟩ := room (index + 1) (Nat.succ_lt_succ inside)
      refine ⟨place, ?_, free⟩
      rw [here, Nat.add_mul, Nat.one_mul]
      omega
  · intro room index inside
    cases index with
    | zero => simpa using room.1
    | succ index =>
        obtain ⟨place, here, free⟩ := room.2 index (Nat.lt_of_succ_lt_succ inside)
        refine ⟨place, ?_, free⟩
        rw [here, Nat.add_mul, Nat.one_mul]
        omega

/-- There is room for the first page if its address is free. -/
theorem roomFor_first_iff :
    (∃ place : VirtAddr, place.toNat = address.toNat ∧ machine.Free pid place) ↔
      machine.Free pid address := by
  constructor
  · intro found
    obtain ⟨place, here, free⟩ := found
    exact Address.ext_toNat here ▸ free
  · intro free
    exact ⟨address, rfl, free⟩

theorem roomFor_congr
    (same : ∀ place : VirtAddr, start ≤ place.toNat →
      (after.Free pid place ↔ before.Free pid place)) :
    after.RoomFor pid start count ↔ before.RoomFor pid start count := by
  have alike (index : Nat) (place : VirtAddr) (here : place.toNat = start + index * pageSize) :=
    same place (by omega)
  constructor
  · intro room index inside
    obtain ⟨place, here, free⟩ := room index inside
    exact ⟨place, here, (alike index place here).1 free⟩
  · intro room index inside
    obtain ⟨place, here, free⟩ := room index inside
    exact ⟨place, here, (alike index place here).2 free⟩

/-! ## One page -/

/-- A machine has one more page, and is the same otherwise. -/
structure Adds (before : Machine) (pid : Pid) (page : Page) (after : Machine) : Prop where
  outside : after = { before with spaces := after.spaces }
  pages : ∀ other place, after.page? other place =
    if pid = other ∧ page.address = place then some page else before.page? other place
  views : ∀ other place, after.view? other place = before.view? other place
  processes : ∀ other, after.stackPointer? other = before.stackPointer? other

/-- A page is registered exactly if its address is free. -/
theorem ends_registerPage_adds (aligned : address.offset = 0) (writable : Bool)
    (marker : PageMarker) (initializer : Initializer) :
    (registerPage pid address writable marker initializer before).Ends
      (fun _ after => before.Free pid address ∧
        before.Adds pid (Page.create address writable marker (.untouched initializer)) after)
      (fun _ after => after = before ∧ ¬before.Free pid address)
      (fun _ => False) := by
  have own : (Page.create address writable marker (.untouched initializer)).address = address :=
    Address.pageDown_eq_self_iff.2 aligned
  unfold registerPage
  split
  case isFalse kernel => exact ⟨rfl, fun free => kernel free.user⟩
  case isTrue user =>
    simp only [insertPage, space, setSpace, Action.ends_bind, Action.ends_require,
      Action.ends_orFail, Action.ends_modify]
    refine ⟨fun target found => ⟨fun pages inserted => ?_, fun _ refused => ⟨trivial, ?_⟩⟩,
      fun missing => ⟨trivial, fun free => ?_⟩⟩
    · obtain ⟨absent, rfl⟩ := PageRegistry.at?_of_insert inserted
      rw [own, ← page?_of_space found] at absent
      refine ⟨⟨by rw [found]; rfl, user, absent⟩, rfl, ?_, ?_, ?_⟩
      · exact page?_update found rfl rfl
      · exact view?_keep found rfl rfl
      · exact stackPointer?_keep found rfl rfl
    · intro free
      have absent := free.unregistered
      rw [page?_of_space found, ← own] at absent
      rw [PageRegistry.insert_eq_ok absent] at refused
      cases refused
    · have process := free.process
      rw [missing] at process
      cases process

/-! ## All pages of a segment -/

/-- What a machine is like after a segment was loaded. -/
structure Loads (before : Machine) (pid : Pid) (file : FileId) (segment : Segment)
    (after : Machine) : Prop where
  /-- No frame is taken or written, and files and the swap area are left alone. -/
  outside : after = { before with spaces := after.spaces }
  /-- Each page of the segment is registered, and was not touched so far. -/
  pages : ∀ index < segment.pageCount, ∃ place : VirtAddr,
    place.toNat = segment.address.toNat + index * pageSize ∧
      after.page? pid place = some (segment.pageAt file index place)
  others : ∀ other place, ¬(pid = other ∧ segment.HasPage place) →
    after.page? other place = before.page? other place
  views : ∀ other place, after.view? other place = before.view? other place
  processes : ∀ other, after.stackPointer? other = before.stackPointer? other

theorem Loads.nil (empty : segment.pageCount = 0) : machine.Loads pid file segment machine where
  outside := rfl
  pages := by
    intro index inside
    omega
  others _ _ _ := rfl
  views _ _ := rfl
  processes _ := rfl

/-- A segment is loaded by registering its first page and loading the rest. -/
theorem Loads.cons (aligned : segment.address.offset = 0)
    (total : segment.readBytes + segment.zeroBytes = (count + 1) * pageSize)
    (next : address.toNat = segment.address.toNat + pageSize)
    (adds : before.Adds pid (segment.pageAt file 0 segment.address) middle)
    (loads : middle.Loads pid file (segment.rest address) after) :
    before.Loads pid file segment after := by
  have own : segment.address.pageDown = segment.address := Address.pageDown_eq_self_iff.2 aligned
  have left := Segment.pageCount_of_total (Segment.rest_total address total)
  have all := Segment.pageCount_of_total total
  have start : (segment.rest address).address = address := rfl
  -- The first page lies below the others.
  have below : ¬(segment.rest address).HasPage segment.address := by
    intro listed
    obtain ⟨index, -, here⟩ := listed
    rw [start, next] at here
    simp only [pageSize] at here
    omega
  refine ⟨?_, ?_, ?_, ?_, ?_⟩
  · rw [loads.outside, adds.outside]
  · intro index inside
    cases index with
    | zero =>
        refine ⟨segment.address, by simp, ?_⟩
        rw [loads.others pid segment.address fun listed => below listed.2, adds.pages, if_pos]
        exact ⟨rfl, own⟩
    | succ index =>
        obtain ⟨place, here, registered⟩ := loads.pages index (by omega)
        refine ⟨place, ?_, ?_⟩
        · rw [here, start, next, Nat.add_mul, Nat.one_mul]
          omega
        · rw [registered, Segment.pageAt, Segment.loaderAt_rest]
          rfl
  · intro other place outside
    have notRest : ¬(pid = other ∧ (segment.rest address).HasPage place) := by
      intro listed
      obtain ⟨index, inside, here⟩ := listed.2
      refine outside ⟨listed.1, index + 1, by omega, ?_⟩
      rw [here, start, next, Nat.add_mul, Nat.one_mul]
      omega
    rw [loads.others other place notRest, adds.pages, if_neg]
    intro first
    refine outside ⟨first.1, 0, by omega, ?_⟩
    rw [← first.2, Nat.zero_mul, Nat.add_zero]
    exact congrArg Address.toNat own
  · intro other place
    rw [loads.views, adds.views]
  · intro other
    rw [loads.processes, adds.processes]

/-- Other addresses are as free as before. -/
theorem Adds.free_iff {page : Page} (adds : before.Adds pid page after)
    (elsewhere : page.address ≠ place) : after.Free pid place ↔ before.Free pid place := by
  have process : (after.spaces[pid]?).isSome = (before.spaces[pid]?).isSome := by
    have same := congrArg Option.isSome (adds.processes pid)
    simpa only [stackPointer?, Option.isSome_map] using same
  have registered : after.page? pid place = before.page? pid place := by
    rw [adds.pages, if_neg fun own => elsewhere own.2]
  constructor
  · intro free
    exact ⟨process ▸ free.process, free.user, registered ▸ free.unregistered⟩
  · intro free
    exact ⟨process ▸ free.process, free.user, registered.trans free.unregistered⟩

theorem Free.address_add (free : machine.Free pid address) :
    ∃ next : VirtAddr, address.add pageSize = .ok next ∧ next.toNat = address.toNat + pageSize := by
  have user := free.user
  simp only [Address.isUser, decide_eq_true_eq, kernelBase] at user
  have fits : address.toNat + pageSize < Word.limit := by
    simp only [pageSize, Word.limit]
    omega
  exact ⟨⟨address.toNat + pageSize, fits⟩, by rw [Address.add, dif_pos fits], rfl⟩

/-- The pages of a segment are registered if there is room for them and the position in the file
stays a machine word. Otherwise the loop ends at the page for which there is no room, or at the page
after which the position leaves the machine words, whichever is first. -/
theorem ends_loadPages_loads (count : Nat)
    (total : segment.readBytes + segment.zeroBytes = count * pageSize)
    (aligned : segment.address.offset = 0)
    (inFile : segment.readBytes = 0 ∨ segment.offset % pageSize = 0)
    (word : segment.offset < Word.limit) :
    (loadPages pid file count segment before).Ends
      (fun _ after => before.RoomFor pid segment.address.toNat segment.reach ∧
        segment.offset + segment.readBytes < Word.limit ∧ before.Loads pid file segment after)
      (fun _ _ => ¬before.RoomFor pid segment.address.toNat segment.reach)
      (fun fault => before.RoomFor pid segment.address.toNat segment.reach ∧
        Word.limit ≤ segment.offset + segment.readBytes ∧ fault = .overflow .add) := by
  induction count generalizing before segment with
  | zero =>
      have empty := Segment.pageCount_of_total total
      have within : segment.offset + segment.readBytes < Word.limit := by omega
      have reach : segment.reach = 0 := by rw [Segment.reach, if_pos within, empty]
      rw [reach]
      exact ⟨roomFor_zero, within, .nil empty⟩
  | succ count inductionHypothesis =>
      have loader : (if min segment.readBytes pageSize = 0 then none
          else some (Loader.segment file segment.offset (min segment.readBytes pageSize))) =
          segment.loaderAt file 0 := by
        simp [Segment.loaderAt, Segment.readAt]
      simp only [loadPages, Action.ends_bind, loader]
      refine (ends_registerPage_adds aligned segment.writable .normal _).imp ?_ ?_
        fun _ no => no.elim
      · intro _ middle added
        obtain ⟨free, adds⟩ := added
        have own : segment.address.pageDown = segment.address :=
          Address.pageDown_eq_self_iff.2 aligned
        obtain ⟨address, nextPage, next⟩ := free.address_add
        have zeros : pageSize - min segment.readBytes pageSize ≤ segment.zeroBytes := by
          simp only [pageSize] at *
          omega
        have room (more : Nat) (same : segment.reach = more + 1) :
            before.RoomFor pid segment.address.toNat segment.reach ↔
              middle.RoomFor pid address.toNat more := by
          rw [same, roomFor_succ_iff, roomFor_first_iff, next]
          constructor
          · intro both
            refine (roomFor_congr fun place above => adds.free_iff fun here => ?_).2 both.2
            rw [← here, Page.create, own] at above
            simp only [pageSize] at above
            omega
          · intro rest
            refine ⟨free, (roomFor_congr fun place above => adds.free_iff fun here => ?_).1 rest⟩
            rw [← here, Page.create, own] at above
            simp only [pageSize] at above
            omega
        cases sum : Word.add segment.offset (min segment.readBytes pageSize) with
        | error operation =>
            obtain ⟨beyond, rfl⟩ := Word.of_add_eq_error sum
            simp only [Action.ends_checked]
            refine ⟨nofun, ?_⟩
            intro _ same
            cases same
            refine ⟨?_, by omega, rfl⟩
            rw [room 0 (Segment.reach_of_overflow inFile word beyond)]
            exact roomFor_zero
        | ok offset =>
            obtain ⟨fits, rfl⟩ := Word.add_eq_ok_iff.1 sum
            have later := @inductionHypothesis middle (segment.rest address)
              (Segment.rest_total address total)
              (Segment.rest_aligned aligned next) (Segment.rest_offset inFile) fits
            have same : (segment.rest address).offset + (segment.rest address).readBytes =
                segment.offset + segment.readBytes := by
              simp only [Segment.rest]
              omega
            have reach := Segment.reach_rest address total word fits
            rw [nextPage, Word.sub_eq_ok_iff.2 ⟨zeros, rfl⟩]
            simp only [Action.ends_checked]
            refine Action.of_result_eq_ok rfl (Action.of_result_eq_ok rfl
              (Action.of_result_eq_ok rfl ?_))
            rw [same] at later
            rw [room _ reach]
            exact later.imp (fun _ _ loaded => ⟨loaded.1, loaded.2.1,
              .cons aligned total next adds loaded.2.2⟩) (fun _ _ stopped => stopped)
              fun _ stopped => stopped
      · intro _ after refused room
        have first : ∃ more, segment.reach = more + 1 := by
          by_cases fits : segment.offset + min segment.readBytes pageSize < Word.limit
          · exact ⟨_, Segment.reach_rest segment.address total word fits⟩
          · exact ⟨0, Segment.reach_of_overflow inFile word (Nat.le_of_not_lt fits)⟩
        obtain ⟨more, same⟩ := first
        rw [same, roomFor_succ_iff, roomFor_first_iff] at room
        exact refused.2 room.1

/-- A segment is loaded exactly if it is whole, has room and stays within the machine words. -/
theorem ends_loadSegment_loads (before : Machine) (pid : Pid) (file : FileId) (segment : Segment)
    (word : segment.offset < Word.limit) :
    (loadSegment pid file segment before).Ends
      (fun _ after => segment.readBytes + segment.zeroBytes < Word.limit ∧ segment.Whole ∧
        before.RoomFor pid segment.address.toNat segment.reach ∧
        segment.offset + segment.readBytes < Word.limit ∧ before.Loads pid file segment after)
      (fun error after => segment.readBytes + segment.zeroBytes < Word.limit ∧
        ((¬segment.Whole ∧ error = .invalidArgument ∧ after = before) ∨
          (segment.Whole ∧ ¬before.RoomFor pid segment.address.toNat segment.reach)))
      (fun fault => fault = .overflow .add ∧
        (Word.limit ≤ segment.readBytes + segment.zeroBytes ∨
          (segment.Whole ∧ before.RoomFor pid segment.address.toNat segment.reach ∧
            Word.limit ≤ segment.offset + segment.readBytes))) := by
  simp only [loadSegment, Action.ends_bind, Action.ends_checked]
  constructor
  · intro size sum
    obtain ⟨fits, rfl⟩ := Word.add_eq_ok_iff.1 sum
    split
    case isTrue refused =>
      refine ⟨fits, .inl ⟨fun whole => ?_, rfl, rfl⟩⟩
      simp [whole.total, whole.address, whole.offset] at refused
    case isFalse accepted =>
      simp only [Bool.or_eq_true, Bool.not_eq_true', decide_eq_true_eq, not_or,
        Bool.not_eq_false, ne_eq, Decidable.not_not] at accepted
      have whole : segment.Whole := ⟨accepted.1.1, accepted.1.2, accepted.2⟩
      have total : segment.readBytes + segment.zeroBytes =
          (segment.readBytes + segment.zeroBytes) / pageSize * pageSize := by
        have total := whole.total
        simp only [pageSize] at *
        omega
      exact (ends_loadPages_loads _ total (isPageAligned_iff.1 whole.address) (.inr whole.offset)
        word).imp (fun _ _ loaded => ⟨fits, whole, loaded⟩)
          (fun _ _ stopped => ⟨fits, .inr ⟨whole, stopped⟩⟩)
          fun _ stopped => ⟨stopped.2.2, .inr ⟨whole, stopped.1, stopped.2.1⟩⟩
  · intro operation sum
    obtain ⟨beyond, rfl⟩ := Word.of_add_eq_error sum
    exact ⟨rfl, .inl beyond⟩

/-! ## What is not read -/

/-- A page is registered without reading a file. -/
theorem endAlike_registerPage_sealed (machine : Machine) (pid : Pid) (address : VirtAddr)
    (writable : Bool) (marker : PageMarker) (initializer : Initializer) :
    EndAlike (fun _ => Seals) (fun _ => Seals)
      (registerPage pid address writable marker initializer machine)
      (registerPage pid address writable marker initializer machine.sealed) := by
  unfold registerPage
  split
  case isFalse => exact .failed rfl
  case isTrue =>
    refine Action.endAlike_require_bind (fun target _ => ?_) fun _ => rfl
    refine Action.endAlike_bind (fun _ => Seals) (Action.endAlike_orFail (fun _ _ => rfl)
      fun _ _ => rfl) ?_
    intro pages state twin same
    cases same
    exact .done rfl

theorem endAlike_loadPages_sealed (machine : Machine) (pid : Pid) (file : FileId) (count : Nat)
    (segment : Segment) :
    EndAlike (fun _ => Seals) (fun _ => Seals) (loadPages pid file count segment machine)
      (loadPages pid file count segment machine.sealed) := by
  induction count generalizing machine segment with
  | zero => exact .done rfl
  | succ count inductionHypothesis =>
      refine Action.endAlike_bind (fun _ => Seals) (endAlike_registerPage_sealed ..) ?_
      intro _ state twin same
      cases same
      refine Action.endAlike_bind (fun _ => Seals) (Action.endAlike_checked fun _ _ => rfl) ?_
      intro offset state twin same
      cases same
      refine Action.endAlike_bind (fun _ => Seals) (Action.endAlike_checked fun _ _ => rfl) ?_
      intro zeroBytes state twin same
      cases same
      refine Action.endAlike_bind (fun _ => Seals) (Action.endAlike_checked fun _ _ => rfl) ?_
      intro address state twin same
      cases same
      exact inductionHypothesis state _

/-- A segment is loaded without reading the file. -/
theorem endAlike_loadSegment_sealed (machine : Machine) (pid : Pid) (file : FileId)
    (segment : Segment) :
    EndAlike (fun _ => Seals) (fun _ => Seals) (loadSegment pid file segment machine)
      (loadSegment pid file segment machine.sealed) := by
  refine Action.endAlike_bind (fun _ => Seals) (Action.endAlike_checked fun _ _ => rfl) ?_
  intro size state twin same
  cases same
  split
  case isTrue => exact .failed rfl
  case isFalse => exact endAlike_loadPages_sealed state pid file _ segment

end Machine

end DemandPaging
