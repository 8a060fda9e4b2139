import DemandPaging.Machine.Run
import DemandPaging.Proofs.Outcome

/-!
The faults by which the machine stops over a mapping.

Owns:
- `Fault.isMappingFault`, the faults that show a wrong number of references to a mapping or of
  handles on its file;
- `Action.StopsOnly`, what an operation may stop the machine with, in whatever state it starts;
- that no operation stops the machine over a mapping, apart from those that remove pages.

Does not own: why the removal of a page finds the reference and the handle that it ends
(`Machine.Balanced`).

Main statements: `spares_copyPage`, and one such statement for every other operation.
-/

namespace DemandPaging

/-- The machine stopped because a handle was closed more often than opened, or because the pages of
a mapping and the references to it disagree. -/
def Fault.isMappingFault : Fault → Bool
  | handleClosedTwice | mappedPageMissing _ _ | mappingReferenced _ => true
  | overflow _ | foreignFrame _ | doubleFree _ | frameOccupied _ _ _ | frameQueuedTwice
  | ownerUnknown | ownerExited _ _ | ownerPageMissing _ _ | frameMismatch _ _
  | evictedNotResident _ | residentNotMapped _ _ | untouchedResident _ | imageMissing _
  | slotEmpty _ | slotReleasedTwice _ | capacityExceeded | fileTruncated _ _ | shortWriteBack _ _
  | writeBackFailed _ _ | entriesLeft => false

/-- The machine stopped for another reason. -/
def Fault.SparesMappings (fault : Fault) : Prop := fault.isMappingFault = false

theorem Fault.sparesMappings_of_isOverflow {fault : Fault} (overflow : fault.isOverflow = true) :
    fault.SparesMappings := by
  cases fault with
  | overflow operation => rfl
  | _ => cases overflow

namespace Action

variable {State Part Value Result Item : Type} {allowed : Fault → Prop}

/-- Whatever state it starts in, an operation stops the machine with an allowed fault only. -/
structure StopsOnly (allowed : Fault → Prop) (action : Action State Value) : Prop where
  ends : ∀ state, (action state).Ends (fun _ _ => True) (fun _ _ => True) allowed

/-- An operation does not stop the machine over a mapping. -/
abbrev SparesMappings (action : Action State Value) : Prop :=
  action.StopsOnly Fault.SparesMappings

namespace StopsOnly

variable {action : Action State Value}

theorem pure (value : Value) : (Pure.pure value : Action State Value).StopsOnly allowed :=
  ⟨fun _ => trivial⟩

theorem get : (Action.get : Action State State).StopsOnly allowed := ⟨fun _ => trivial⟩

theorem set (state : State) : (Action.set state).StopsOnly allowed := ⟨fun _ => trivial⟩

theorem modify (change : State → State) : (Action.modify change).StopsOnly allowed :=
  ⟨fun _ => trivial⟩

theorem fail (error : Errno) : (Action.fail error : Action State Value).StopsOnly allowed :=
  ⟨fun _ => trivial⟩

theorem halt {fault : Fault} (allow : allowed fault) :
    (Action.halt fault : Action State Value).StopsOnly allowed := ⟨fun _ => allow⟩

theorem require (error : Errno) (value? : Option Value) :
    (Action.require error value? : Action State Value).StopsOnly allowed := by
  cases value? with
  | none => exact fail error
  | some value => exact pure value

theorem orFail (result : Except Errno Value) :
    (Action.orFail result : Action State Value).StopsOnly allowed := by
  cases result with
  | error error => exact fail error
  | ok value => exact pure value

theorem orHalt {result : Except Fault Value}
    (allow : ∀ fault, result = .error fault → allowed fault) :
    (Action.orHalt result : Action State Value).StopsOnly allowed := by
  cases result with
  | error fault => exact halt (allow fault rfl)
  | ok value => exact pure value

theorem checked {result : Except Overflow Value}
    (allow : ∀ operation, allowed (.overflow operation)) :
    (Action.checked result : Action State Value).StopsOnly allowed := by
  cases result with
  | error operation => exact halt (allow operation)
  | ok value => exact pure value

theorem attempt (only : action.StopsOnly allowed) : action.attempt.StopsOnly allowed := by
  refine ⟨fun state => ?_⟩
  rw [ends_attempt]
  exact only.ends state

theorem onPart {part : State → Part} {replace : Part → State → State}
    {action : Action Part Value} (only : action.StopsOnly allowed) :
    (Action.onPart part replace action).StopsOnly allowed := by
  refine ⟨fun state => ?_⟩
  rw [ends_onPart]
  exact only.ends (part state)

theorem bind {first : Action State Result} {next : Result → Action State Value}
    (only : first.StopsOnly allowed) (onlyNext : ∀ value, (next value).StopsOnly allowed) :
    (first >>= next).StopsOnly allowed := by
  refine ⟨fun state => ?_⟩
  rw [ends_bind]
  exact (only.ends state).imp (fun value middle _ => (onlyNext value).ends middle)
    (fun _ _ _ => trivial) (fun _ allow => allow)

theorem ite {condition : Prop} [Decidable condition] {other : Action State Value}
    (yes : action.StopsOnly allowed) (no : other.StopsOnly allowed) :
    (if condition then action else other).StopsOnly allowed := by
  split
  · exact yes
  · exact no

/-- An operation that goes on unless a condition makes it stop first. -/
theorem guard {condition : Prop} [Decidable condition] {first : Action State Result}
    (stop : first.StopsOnly allowed) (only : action.StopsOnly allowed) :
    (if condition then
      (do let _ ← first
          action)
    else action).StopsOnly allowed :=
  ite (stop.bind fun _ => only) only

theorem forM {round : Item → Action State Unit} (only : ∀ item, (round item).StopsOnly allowed)
    (rounds : List Item) : (rounds.forM round).StopsOnly allowed := by
  induction rounds with
  | nil => exact pure ()
  | cons item rest inductionHypothesis => exact (only item).bind fun _ => inductionHypothesis

end StopsOnly

end Action

open DemandPaging.Action (StopsOnly SparesMappings)

/-! ## Files and the swap area -/

namespace FileStore

theorem spares_inode (file : FileId) : (inode file).SparesMappings :=
  ⟨fun store => (StopsOnly.require .badFileDescriptor store.inodes[file]?).ends store⟩

theorem spares_read (file : FileId) (position length : Nat) :
    (read file position length).SparesMappings :=
  (spares_inode file).bind fun _ => .orFail _

theorem spares_write (file : FileId) (position : Nat) (data : Array UInt8) :
    (write file position data).SparesMappings :=
  (spares_inode file).bind fun _ => .guard (.halt rfl) <|
    (StopsOnly.orFail _).bind fun _ => (StopsOnly.modify _).bind fun _ => .pure _

theorem spares_openHandle (file : FileId) : (openHandle file).SparesMappings :=
  (spares_inode file).bind fun _ => .modify _

end FileStore

theorem OpenFile.spares_read (handle : OpenFile) (length : Nat) :
    (handle.read length).SparesMappings :=
  (FileStore.spares_read ..).bind fun _ => (StopsOnly.checked fun _ => rfl).bind fun _ => .pure _

theorem OpenFile.spares_write (handle : OpenFile) (data : Array UInt8) :
    (handle.write data).SparesMappings :=
  (FileStore.spares_write ..).bind fun _ => (StopsOnly.checked fun _ => rfl).bind fun _ => .pure _

namespace SwapArea

theorem spares_release (slot : Nat) : (release slot).SparesMappings :=
  StopsOnly.get.bind fun _ => .ite (.set _) (.halt rfl)

theorem spares_swapOut (page : PageData) : (swapOut page).SparesMappings := by
  have writes (slot : Nat) : (writeImage slot page).SparesMappings :=
    StopsOnly.get.bind fun _ => (StopsOnly.checked fun _ => rfl).bind fun base =>
      .forM (fun index => (StopsOnly.checked fun _ => rfl).bind fun _ => StopsOnly.get.bind fun _ =>
        (StopsOnly.orFail _).bind fun _ => .set _) _
  refine StopsOnly.get.bind fun _ => (StopsOnly.require ..).bind fun slot =>
    (StopsOnly.set _).bind fun _ => (writes slot.1).attempt.bind fun result => ?_
  cases result with
  | ok _ => exact .pure _
  | error _ => exact (spares_release _).bind fun _ => .fail _

theorem spares_swapIn (slot : Nat) : (swapIn slot).SparesMappings := by
  have reads : (readImage slot).SparesMappings :=
    StopsOnly.get.bind fun _ => (StopsOnly.checked fun _ => rfl).bind fun base =>
      .forM (fun index => (StopsOnly.checked fun _ => rfl).bind fun _ => StopsOnly.get.bind fun _ =>
        (StopsOnly.orFail _).bind fun _ => .set _) _
  exact StopsOnly.get.bind fun _ => .guard (.halt rfl) <|
    reads.bind fun _ => .onPart (spares_release slot)

end SwapArea

/-! ## Pages outside the frames -/

namespace FileRegion

theorem spares_bringIn (region : FileRegion) (page : VirtAddr) :
    (region.bringIn page).SparesMappings :=
  (StopsOnly.onPart (OpenFile.spares_read ..)).bind fun _ => .ite (.modify _) (.halt rfl)

theorem spares_writeBack (region : FileRegion) (page : VirtAddr) (bytes : PageData)
    (dirty : Bool) : (region.writeBack page bytes dirty).SparesMappings :=
  .ite ((StopsOnly.onPart (OpenFile.spares_write ..)).bind fun _ => .ite (.halt rfl) (.pure _))
    (.pure _)

end FileRegion

theorem Loader.spares_load (loader : Loader) (page : VirtAddr) :
    (loader.load page).SparesMappings := by
  cases loader with
  | segment file offset readBytes =>
      exact (StopsOnly.onPart (FileStore.spares_read ..)).bind fun _ =>
        (StopsOnly.modify _).bind fun _ => .ite (.fail _) (.pure _)
  | routine run =>
      exact StopsOnly.get.bind fun _ => (StopsOnly.set _).bind fun _ => .orFail _

namespace Backing

theorem spares_bringIn (backing : Backing) (page : VirtAddr) :
    (backing.bringIn page).SparesMappings := by
  match backing with
  | untouched (.anonymous none) =>
      exact (StopsOnly.modify _).bind fun _ => (StopsOnly.pure _).bind fun _ => .pure _
  | untouched (.anonymous (some loader)) =>
      exact (StopsOnly.modify _).bind fun _ => (loader.spares_load page).bind fun _ => .pure _
  | untouched (.file region) | file region =>
      exact (region.spares_bringIn page).bind fun _ => .pure _
  | anonymous none => exact .halt rfl
  | anonymous (some slot) =>
      exact (StopsOnly.onPart (SwapArea.spares_swapIn slot)).bind fun _ => .pure _

theorem spares_save (backing : Backing) (page : VirtAddr) (bytes : PageData) (dirty : Bool) :
    (backing.save page bytes dirty).SparesMappings := by
  match backing with
  | untouched _ => exact .halt rfl
  | anonymous _ =>
      exact (StopsOnly.onPart (SwapArea.spares_swapOut bytes)).bind fun _ => .pure _
  | file region => exact (region.spares_writeBack page bytes dirty).bind fun _ => .pure _

theorem spares_giveUp (backing : Backing) (page : VirtAddr) (resident : Option PageData)
    (dirty : Bool) : (backing.giveUp page resident dirty).SparesMappings := by
  match backing, resident with
  | untouched _, _ | anonymous none, _ | file _, none => exact .pure _
  | anonymous (some slot), _ =>
      exact (StopsOnly.onPart (SwapArea.spares_release slot)).bind fun _ => .pure _
  | file region, some bytes =>
      refine (region.spares_writeBack page bytes dirty).attempt.bind fun result => ?_
      cases result with
      | ok _ => exact .pure _
      | error _ => exact .halt rfl

end Backing

theorem BackingStore.spares_createMapping (start : VirtAddr) (pageCount : Nat) (file : FileId)
    (references : Nat) : (createMapping start pageCount file references).SparesMappings :=
  (StopsOnly.onPart (FileStore.spares_openHandle file)).bind fun _ => StopsOnly.get.bind fun _ =>
    (StopsOnly.set _).bind fun _ => .pure _

/-! ## Frames -/

namespace ResidentSet

variable {set resident : ResidentSet} {frame : PhysAddr} {fault : Fault}

theorem sparesMappings_of_read (stopped : set.read frame = .error fault) :
    fault.SparesMappings := by
  unfold read FramePool.read at stopped
  split at stopped
  · cases stopped; rfl
  · cases stopped

theorem sparesMappings_of_write {contents : PageData}
    (stopped : set.write frame contents = .error fault) : fault.SparesMappings := by
  unfold write FramePool.write at stopped
  split at stopped
  · cases stopped; rfl
  · cases stopped

theorem sparesMappings_of_release (stopped : set.release frame = .error fault) :
    fault.SparesMappings := by
  unfold release FramePool.release at stopped
  dsimp only at stopped
  split at stopped
  · cases stopped; rfl
  · split at stopped
    · cases stopped
    · cases stopped; rfl

theorem sparesMappings_of_link {owner : FrameOwner}
    (stopped : set.link frame owner = .error fault) : fault.SparesMappings := by
  unfold link at stopped
  split at stopped
  · cases stopped; rfl
  · split at stopped
    · cases stopped; rfl
    · cases stopped

theorem eq_ownerUnknown_of_firstUnaccessed {State : Type} {owner? : PhysAddr → Option FrameOwner}
    {ask : Question State} {frames : List PhysAddr} {state : State}
    (stopped : firstUnaccessed owner? ask frames state = .error fault) : fault = .ownerUnknown := by
  induction frames generalizing state with
  | nil => cases stopped
  | cons first rest inductionHypothesis =>
      unfold firstUnaccessed at stopped
      split at stopped
      · cases stopped; rfl
      · split at stopped
        · cases stopped
        · exact inductionHypothesis stopped

theorem sparesMappings_of_selectVictim {State : Type} {ask : Question State} {state : State}
    (stopped : set.selectVictim ask state = .error fault) : fault.SparesMappings := by
  unfold selectVictim at stopped
  cases asked : firstUnaccessed set.owner? ask (set.queue ++ set.queue) state with
  | error cause =>
      rw [asked] at stopped
      cases stopped
      rw [eq_ownerUnknown_of_firstUnaccessed asked]
      rfl
  | ok answer =>
      rw [asked] at stopped
      dsimp only [bind, Except.bind] at stopped
      split at stopped
      · cases stopped
      · split at stopped
        · cases stopped; rfl
        · cases stopped

end ResidentSet

namespace Machine

theorem spares_setResident {resident : Except Fault ResidentSet}
    (spares : ∀ fault, resident = .error fault → fault.SparesMappings) :
    (setResident resident).SparesMappings :=
  (StopsOnly.orHalt spares).bind fun _ => .modify _

theorem spares_read (resident : ResidentSet) (frame : PhysAddr) :
    (Action.orHalt (resident.read frame) : Action Machine PageData).SparesMappings :=
  .orHalt fun _ => ResidentSet.sparesMappings_of_read

theorem spares_write (resident : ResidentSet) (frame : PhysAddr) (contents : PageData) :
    (setResident (resident.write frame contents)).SparesMappings :=
  spares_setResident fun _ => ResidentSet.sparesMappings_of_write

theorem spares_releaseFrame (frame : PhysAddr) : (releaseFrame frame).SparesMappings :=
  StopsOnly.get.bind fun _ => spares_setResident fun _ => ResidentSet.sparesMappings_of_release

theorem spares_space (pid : Pid) : (space pid).SparesMappings :=
  ⟨fun machine => (StopsOnly.require .noSuchEntry machine.spaces[pid]?).ends machine⟩

theorem spares_pageOut (pid : Pid) (space : AddressSpace) (page : Page) :
    (pageOut pid space page).SparesMappings := by
  unfold pageOut
  split
  · exact .halt rfl
  · refine StopsOnly.get.bind fun _ => (spares_read ..).bind fun _ =>
      (StopsOnly.onPart (Backing.spares_save ..)).bind fun _ => ?_
    split
    · exact .halt rfl
    · exact (StopsOnly.modify _).bind fun _ => .pure _

theorem spares_takeFrame : takeFrame.SparesMappings := by
  have chooses : chooseVictim.SparesMappings :=
    StopsOnly.get.bind fun _ =>
      (StopsOnly.orHalt fun _ => ResidentSet.sparesMappings_of_selectVictim).bind fun _ =>
        (StopsOnly.set _).bind fun _ => .require ..
  have evicts : evict.SparesMappings := by
    refine chooses.bind fun chosen => StopsOnly.get.bind fun machine => ?_
    split
    · exact .halt rfl
    · split
      · exact .halt rfl
      · refine (spares_pageOut ..).attempt.bind fun result => ?_
        split
        · exact .ite ((StopsOnly.modify _).bind fun _ => .pure _) (.halt rfl)
        · exact (StopsOnly.modify _).bind fun _ => .fail _
  refine StopsOnly.get.bind fun _ => ?_
  split
  · exact (StopsOnly.set _).bind fun _ => .pure _
  · exact evicts

theorem spares_pageIn (pid : Pid) (space : AddressSpace) (page : Page) (frame : PhysAddr) :
    (pageIn pid space page frame).SparesMappings := by
  have brings : (bringIn page frame).SparesMappings := by
    refine StopsOnly.get.bind fun machine => (spares_read ..).bind fun bytes => ?_
    have ends := (page.backing.spares_bringIn page.address).ends ⟨machine.store, bytes⟩
    split
    case h_1 fault stopped =>
      rw [stopped] at ends
      exact .halt ends
    · exact (spares_write ..).bind fun _ => (StopsOnly.modify _).bind fun _ => .pure _
    · exact (spares_write ..).bind fun _ => (StopsOnly.modify _).bind fun _ => .fail _
  unfold pageIn
  split
  · exact (spares_releaseFrame frame).bind fun _ => .fail _
  · refine StopsOnly.get.bind fun _ =>
      (spares_setResident fun _ => ResidentSet.sparesMappings_of_link).bind fun _ =>
        brings.attempt.bind fun result => ?_
    split
    · exact .modify _
    · exact (spares_releaseFrame frame).bind fun _ => .fail _

theorem spares_makeResident (pid : Pid) (address : VirtAddr) :
    (makeResident pid address).SparesMappings := by
  refine StopsOnly.get.bind fun _ => ?_
  split
  · exact .fail _
  · refine .ite (.pure _) (spares_takeFrame.bind fun frame => StopsOnly.get.bind fun _ => ?_)
    split
    · exact (spares_releaseFrame frame).bind fun _ => .fail _
    · split
      · exact (spares_releaseFrame frame).bind fun _ => .fail _
      · exact spares_pageIn ..

/-! ## Registering pages -/

theorem spares_insertPage (pid : Pid) (page : Page) : (insertPage pid page).SparesMappings :=
  (spares_space pid).bind fun _ => (StopsOnly.orFail _).bind fun _ => .modify _

theorem spares_registerPage (pid : Pid) (address : VirtAddr) (writable : Bool)
    (marker : PageMarker) (initializer : Initializer) :
    (registerPage pid address writable marker initializer).SparesMappings :=
  .ite (spares_insertPage ..) (.fail _)

theorem spares_setStackPointer (pid : Pid) (stackPointer : VirtAddr) :
    (setStackPointer pid stackPointer).SparesMappings :=
  (spares_space pid).bind fun _ => .modify _

theorem spares_loadSegment (pid : Pid) (file : FileId) (segment : Segment) :
    (loadSegment pid file segment).SparesMappings := by
  have loads (pages : Nat) (segment : Segment) :
      (loadPages pid file pages segment).SparesMappings := by
    induction pages generalizing segment with
    | zero => exact .pure _
    | succ pages inductionHypothesis =>
        exact (spares_registerPage ..).bind fun _ => (StopsOnly.checked fun _ => rfl).bind fun _ =>
          (StopsOnly.checked fun _ => rfl).bind fun _ => (StopsOnly.checked fun _ => rfl).bind
            fun _ => inductionHypothesis _
  exact (StopsOnly.checked fun _ => rfl).bind fun _ => .guard (.fail _) (loads _ _)

theorem spares_setUpStack (pid : Pid) : (setUpStack pid).SparesMappings :=
  (spares_registerPage ..).bind fun _ => (spares_makeResident ..).bind fun _ =>
    (spares_setStackPointer ..).bind fun _ => .pure _

/-! ## Access -/

theorem spares_handleFault (pid : Pid) (reason : FaultReason) :
    (handleFault pid reason).SparesMappings := by
  have grows (pages : Nat) : (growFrom pid pages).SparesMappings := by
    induction pages with
    | zero => exact .pure _
    | succ pages inductionHypothesis =>
        exact (spares_space pid).bind fun _ => .ite (.pure _) <|
          (spares_registerPage ..).bind fun _ => (spares_makeResident ..).bind fun _ =>
            inductionHypothesis
  refine .guard (.fail _) ((spares_space pid).bind fun _ => ?_)
  split
  · exact .ite (.fail _) (spares_makeResident ..)
  · exact StopsOnly.get.bind fun _ => .ite (grows _) (.fail _)

theorem spares_access (pid : Pid) (address : VirtAddr) (write : Bool) :
    (access pid address write).SparesMappings :=
  (spares_space pid).bind fun _ => (StopsOnly.modify _).bind fun _ => .pure _

theorem spares_locateChunk (pid : Pid) (address : VirtAddr) (write : Bool) (chunk : Chunk) :
    (locateChunk pid address write chunk).SparesMappings := by
  refine (StopsOnly.require ..).bind fun place => (spares_space pid).bind fun _ =>
    (spares_access ..).bind fun result => ?_
  split
  · exact .pure _
  · refine (spares_handleFault ..).bind fun _ => (spares_access ..).bind fun again => ?_
    split
    · exact .pure _
    · exact .fail _

theorem spares_readUser (pid : Pid) (address : VirtAddr) (length : Nat) :
    (readUser pid address length).SparesMappings :=
  .forM (fun _ => (StopsOnly.onPart ((spares_locateChunk ..).bind fun _ => StopsOnly.get.bind
    fun _ => (spares_read ..).bind fun _ => .pure _)).bind fun _ => .modify _) _

theorem spares_fetchUser (pid : Pid) (address : VirtAddr) (length : Nat) :
    (fetchUser pid address length).SparesMappings := by
  refine ⟨fun machine => ?_⟩
  have ends := (spares_readUser pid address length).ends { machine }
  unfold fetchUser
  split
  · trivial
  · trivial
  case h_3 fault stopped =>
    rw [stopped] at ends
    exact ends

theorem spares_writeUser (pid : Pid) (address : VirtAddr) (data : Array UInt8) :
    (writeUser pid address data).SparesMappings :=
  .forM (fun _ => (spares_locateChunk ..).bind fun _ => StopsOnly.get.bind fun _ =>
    (spares_read ..).bind fun _ => spares_write ..) _

/-! ## Copying a process -/

theorem spares_createProcess : createProcess.SparesMappings :=
  StopsOnly.get.bind fun _ => (StopsOnly.checked fun _ => rfl).bind fun _ =>
    (StopsOnly.set _).bind fun _ => .pure _

theorem spares_copyRegion (copies : MappingCopies) (region : FileRegion) :
    (copyRegion copies region).SparesMappings := by
  unfold copyRegion
  dsimp only
  split
  · exact (StopsOnly.modify _).bind fun _ => .pure _
  · exact (BackingStore.spares_createMapping ..).bind fun _ => .pure _

theorem spares_copyPage (child parent : Pid) (copies : MappingCopies) (address : VirtAddr) :
    (copyPage child parent copies address).SparesMappings := by
  have anonymous : (copyAnonymousPage child parent address).SparesMappings :=
    (spares_makeResident ..).bind fun _ => StopsOnly.get.bind fun _ =>
      (StopsOnly.require ..).bind fun _ => (StopsOnly.require ..).bind fun _ =>
        (spares_read ..).bind fun _ => (spares_registerPage ..).bind fun _ =>
          (spares_makeResident ..).bind fun _ => StopsOnly.get.bind fun _ =>
            (StopsOnly.require ..).bind fun _ => (StopsOnly.require ..).bind fun _ =>
              spares_write ..
  refine StopsOnly.get.bind fun _ => (StopsOnly.require ..).bind fun page => ?_
  split
  · exact (spares_insertPage ..).bind fun _ => .pure _
  · exact (StopsOnly.onPart (spares_copyRegion ..)).bind fun _ =>
      (spares_insertPage ..).bind fun _ => .pure _
  · exact (StopsOnly.onPart (spares_copyRegion ..)).bind fun _ =>
      (spares_insertPage ..).bind fun _ => .pure _
  · exact anonymous.bind fun _ => .pure _

end Machine

end DemandPaging
