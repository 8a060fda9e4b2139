import DemandPaging.Page
import DemandPaging.Proofs.SwapImage

/-!
What bringing a page in, saving it and giving it up do to the backing store.

Owns:
- `Fault.isCorruption`, the faults by which the machine shows that its own records disagree;
- the effect of every kind of backing on the swap area, for each way in which its operations end.

Does not own: what files hold afterwards.

Main statements: `ends_bringIn`, `ends_save` and `ends_giveUp` for pages that have or lack an image,
as their operations ask.
-/

namespace DemandPaging

/-- The machine stopped because its records of frames, slots and pages disagree. The other faults
are due to a caller, a file, or the range of machine words. -/
def Fault.isCorruption : Fault → Bool
  | foreignFrame _ | doubleFree _ | frameOccupied _ _ _ | frameQueuedTwice | ownerUnknown
  | ownerExited _ _ | ownerPageMissing _ _ | frameMismatch _ _ | evictedNotResident _
  | residentNotMapped _ _ | untouchedResident _ | imageMissing _ | slotEmpty _
  | slotReleasedTwice _ | entriesLeft => true
  | overflow _ | handleClosedTwice | capacityExceeded | fileTruncated _ _ | shortWriteBack _ _
  | writeBackFailed _ _ | mappedPageMissing _ _ | mappingReferenced _ => false

theorem Fault.isCorruption_of_isOverflow {fault : Fault} (overflow : fault.isOverflow = true) :
    fault.isCorruption = false := by
  cases fault with
  | overflow operation => rfl
  | _ => cases overflow

/-! ## Files -/

theorem FileStore.ends_read {file : FileId} {position length : Nat} {store : FileStore} :
    (read file position length store).Ends (fun _ after => after = store)
      (fun _ after => after = store) (fun _ => False) := by
  simp only [read, inode, Action.ends_bind, Action.ends_require, Action.ends_orFail]
  simp

theorem OpenFile.ends_read {handle : OpenFile} {length : Nat} {store : FileStore} :
    (handle.read length store).Ends (fun _ after => after = store) (fun _ after => after = store)
      (fun fault => fault.isCorruption = false) := by
  simp only [read, Action.ends_bind]
  refine FileStore.ends_read.imp ?_ (fun _ _ same => same) (fun _ impossible => impossible.elim)
  rintro bytes after rfl
  simp only [Action.ends_checked, Action.ends_pure]
  exact ⟨fun _ _ => trivial, fun _ _ => rfl⟩

/-- A file after bytes were written to it. A blank file forgets them. -/
def Inode.laid (inode : Inode) (position : Nat) (data : Array UInt8) : Inode :=
  match inode.storage with
  | .contents bytes => { inode with
      storage := .contents (overlayBytes bytes position data)
      writes := inode.writes + 1 }
  | .blank _ => inode

/-- The files after bytes were written to one of them. -/
def FileStore.laid (store : FileStore) (file : FileId) (position : Nat) (data : Array UInt8) :
    FileStore :=
  ⟨store.inodes.modify file fun inode => inode.laid position data⟩

theorem FileStore.size_laid (store : FileStore) (file : FileId) (position : Nat)
    (data : Array UInt8) :
    (store.laid file position data).inodes.size = store.inodes.size := Array.size_modify

theorem FileStore.setIfInBounds_eq_laid {store : FileStore} {file : FileId} {inode : Inode}
    (found : store.inodes[file]? = some inode) (position : Nat) (data : Array UInt8) :
    (⟨store.inodes.setIfInBounds file (inode.laid position data)⟩ : FileStore) =
      store.laid file position data := by
  refine congrArg FileStore.mk (Array.ext_getElem? fun other => ?_)
  rw [Array.getElem?_setIfInBounds, Array.getElem?_modify]
  split
  case isTrue same =>
    subst same
    rw [if_pos (Array.getElem?_eq_some_iff.1 found).1, found]
    rfl
  case isFalse => rfl

/-- A write that succeeds writes a first part of the bytes. -/
theorem Inode.of_write {inode after : Inode} {position written : Nat} {data : Array UInt8}
    (wrote : inode.write position data = .ok (written, after)) :
    written ≤ data.size ∧ after = inode.laid position (data.extract 0 written) := by
  unfold write at wrote
  have admits {admitted : Nat} (granted : inode.writeMode.admit position data.size = .ok admitted) :
      admitted ≤ data.size := by
    unfold TransferModes.admit TransferMode.admit at granted
    split at granted
    · cases granted; exact Nat.le_refl _
    · cases granted; exact Nat.div_le_self ..
    · cases granted
  cases granted : inode.writeMode.admit position data.size with
  | error error => rw [granted] at wrote; cases wrote
  | ok admitted =>
      rw [granted] at wrote
      unfold laid
      cases stored : inode.storage with
      | contents bytes =>
          rw [stored] at wrote
          dsimp only [bind, Except.bind] at wrote
          split at wrote
          · cases wrote
            exact ⟨admits granted, rfl⟩
          · cases wrote
      | blank size =>
          rw [stored] at wrote
          cases wrote
          exact ⟨admits granted, rfl⟩

/-- A write that fails changes no file. -/
theorem OpenFile.ends_write {handle : OpenFile} {data : Array UInt8} {store : FileStore} :
    (handle.write data store).Ends
      (fun answer after => answer.1 ≤ data.size ∧
        after = store.laid handle.file handle.position (data.extract 0 answer.1))
      (fun _ after => after = store) (fun fault => fault.isCorruption = false) := by
  simp only [write, FileStore.write, FileStore.inode, FileStore.setInode, Action.ends_bind,
    Action.ends_require]
  refine ⟨fun inode found => ?_, fun _ => trivial⟩
  split
  · rfl
  · simp only [Action.ends_bind, Action.ends_orFail, Action.ends_modify, Action.ends_pure,
      Action.ends_checked]
    refine ⟨fun answer wrote => ⟨fun _ _ => ?_, fun _ _ => rfl⟩, fun _ _ => trivial⟩
    obtain ⟨fits, after⟩ := Inode.of_write wrote
    rw [after]
    exact ⟨fits, FileStore.setIfInBounds_eq_laid found _ _⟩

theorem FileStore.ends_openHandle {file : FileId} {store : FileStore} :
    (openHandle file store).Ends
      (fun _ after => file < store.inodes.size ∧ after.inodes.size = store.inodes.size)
      (fun _ after => after = store) (fun _ => False) := by
  simp only [openHandle, inode, setInode, Action.ends_bind, Action.ends_require,
    Action.ends_modify]
  refine ⟨fun inode found => ⟨?_, Array.size_setIfInBounds ..⟩, fun _ => trivial⟩
  exact (Array.getElem?_eq_some_iff.1 found).1

/-- A handle on a file that exists is closed, unless none is open. -/
theorem FileStore.ends_closeHandle {file : FileId} {store : FileStore}
    (exist : file < store.inodes.size) :
    (closeHandle file store).Ends (fun _ after => after.inodes.size = store.inodes.size)
      (fun _ _ => False) (fun fault => fault.isCorruption = false) := by
  simp only [closeHandle, inode, setInode, Action.ends_bind, Action.ends_require]
  refine ⟨fun inode _ => ?_, fun missing => ?_⟩
  · split
    · rfl
    · exact Array.size_setIfInBounds ..
  · rw [Array.getElem?_eq_getElem exist] at missing
    cases missing

/-- What operations on files and mappings leave alone: the swap area, the number of files, the
world, and the numbers of the mappings that there are. -/
structure BackingStore.KeepsSwap (before after : BackingStore) : Prop where
  swap : after.swap = before.swap
  fileCount : after.files.inodes.size = before.files.inodes.size
  world : after.world = before.world
  nextMapping : before.nextMapping ≤ after.nextMapping

theorem BackingStore.KeepsSwap.refl (store : BackingStore) : store.KeepsSwap store :=
  ⟨rfl, rfl, rfl, Nat.le_refl _⟩

namespace FileRegion

/-- Reading the file behind a page changes nothing but the bytes of the page. -/
theorem ends_bringIn {region : FileRegion} {page : VirtAddr} {transfer : Transfer BackingStore} :
    (region.bringIn page transfer).Ends (fun _ after => after.store = transfer.store)
      (fun _ after => after.store = transfer.store) (fun fault => fault.isCorruption = false) := by
  simp only [bringIn, BackingStore.transferFiles, Action.ends_bind, Action.ends_onPart]
  refine OpenFile.ends_read.imp ?_ ?_ (fun _ stopped => stopped)
  · rintro ⟨bytes, handle⟩ after rfl
    dsimp only
    split
    · simp [BackingStore.fill]
    · rfl
  · rintro _ after rfl
    rfl

/-- The files after a page left memory. It is written back only if it was written. -/
def departed (region : FileRegion) (bytes : PageData) (dirty : Bool) (files : FileStore) :
    FileStore :=
  if dirty then files.laid region.mapping.file region.offset (bytes.slice 0 region.readBytes)
  else files

theorem size_departed (region : FileRegion) (bytes : PageData) (dirty : Bool)
    (files : FileStore) :
    (region.departed bytes dirty files).inodes.size = files.inodes.size := by
  unfold departed
  split
  · exact FileStore.size_laid ..
  · rfl

/-- Writing a page back changes its file only, and if it fails, nothing. -/
theorem ends_writeBack {region : FileRegion} {page : VirtAddr} {bytes : PageData} {dirty : Bool}
    {store : BackingStore} :
    (region.writeBack page bytes dirty store).Ends
      (fun _ after => after =
        { store with files := region.departed bytes dirty store.files })
      (fun _ after => after = store) (fun fault => fault.isCorruption = false) := by
  unfold writeBack departed
  split
  · simp only [BackingStore.onFiles, Action.ends_bind, Action.ends_onPart]
    refine OpenFile.ends_write.imp ?_ ?_ (fun _ stopped => stopped)
    · rintro ⟨written, handle⟩ after ⟨-, wrote⟩
      dsimp only at wrote ⊢
      split
      · rfl
      case isFalse whole =>
        -- The file took as many bytes as the page has of it, so it took all of them.
        have all : (bytes.slice 0 region.readBytes).extract 0 written =
            bytes.slice 0 region.readBytes := by
          apply Array.extract_eq_self_of_le
          rw [Block.size_slice]
          omega
        rw [all] at wrote
        rw [wrote]
        rfl
    · rintro _ after rfl
      rfl
  · rfl

end FileRegion

/-- A page that leaves memory leaves the swap area alone. -/
theorem BackingStore.KeepsSwap.of_departed {before after : BackingStore} {region : FileRegion}
    {bytes : PageData} {dirty : Bool}
    (same : after = { before with files := region.departed bytes dirty before.files }) :
    before.KeepsSwap after := by
  subst same
  exact ⟨rfl, region.size_departed bytes dirty before.files, rfl, Nat.le_refl _⟩

/-- A loader changes nothing but the bytes of the page. -/
theorem Loader.ends_load {loader : Loader} {page : VirtAddr} {transfer : Transfer BackingStore} :
    (loader.load page transfer).Ends (fun _ after => after.store = transfer.store)
      (fun _ after => after.store = transfer.store) (fun fault => fault.isCorruption = false) := by
  cases loader with
  | segment file offset readBytes =>
      simp only [load, BackingStore.transferFiles, Action.ends_bind, Action.ends_onPart]
      refine FileStore.ends_read.imp ?_ ?_ (fun _ impossible => impossible.elim)
      · rintro bytes after rfl
        simp only [BackingStore.fill, Action.ends_modify]
        split <;> rfl
      · rintro _ after rfl
        rfl
  | routine run =>
      simp only [load, Action.ends_bind, Action.ends_get]
      simp only [Action.ends_set, Action.ends_orFail]
      exact ⟨fun _ _ => trivial, fun _ _ => trivial⟩

namespace Backing

/-! ## Bringing a page in -/

/-- A page other than a swapped-out one comes in without a change to the store. -/
theorem ends_bringIn {backing : Backing} {page : VirtAddr} {transfer : Transfer BackingStore}
    (notAnonymous : ∀ slot?, backing ≠ anonymous slot?) :
    (backing.bringIn page transfer).Ends
      (fun answer after => answer = backing ∧ after.store = transfer.store)
      (fun _ after => after.store = transfer.store) (fun fault => fault.isCorruption = false) := by
  match backing with
  | untouched (.anonymous none) => exact ⟨rfl, rfl⟩
  | untouched (.anonymous (some loader)) =>
      simp only [bringIn, Action.ends_bind, BackingStore.fill, Action.ends_modify,
        Action.ends_pure]
      exact Loader.ends_load.imp (fun _ _ same => ⟨trivial, same⟩) (fun _ _ same => same)
        (fun _ stopped => stopped)
  | untouched (.file region) | file region =>
      simp only [bringIn, Action.ends_bind, Action.ends_pure]
      exact FileRegion.ends_bringIn.imp (fun _ _ same => ⟨trivial, same⟩) (fun _ _ same => same)
        (fun _ stopped => stopped)
  | anonymous slot? => exact absurd rfl (notAnonymous slot?)

/-- A swapped-out page comes in with the bytes of its image, and gives its slot up. -/
theorem ends_bringIn_anonymous {slot : Nat} {page : VirtAddr} {transfer : Transfer BackingStore}
    (occupied : transfer.store.swap.isOccupied slot = true) :
    ((anonymous (some slot)).bringIn page transfer).Ends
      (fun answer after => answer = anonymous none ∧
        after.bytes = transfer.store.swap.image slot ∧
        after.store = { transfer.store with swap := after.store.swap } ∧
        transfer.store.swap.Keeps after.store.swap ∧
        ∀ other, after.store.swap.isOccupied other =
          (!decide (slot = other) && transfer.store.swap.isOccupied other))
      (fun _ after => after.store = transfer.store) (fun fault => fault.isCorruption = false) := by
  simp only [bringIn, BackingStore.transferSwap, Action.ends_bind, Action.ends_onPart,
    Action.ends_pure]
  refine (SwapArea.ends_swapIn occupied).imp ?_ ?_ ?_
  · rintro _ after ⟨bytes, keeps, slots⟩
    exact ⟨trivial, bytes, trivial, keeps, slots⟩
  · rintro _ after same
    rw [same]
  · rintro _ ⟨operation, rfl⟩
    rfl

/-! ## Saving a page -/

/-- An anonymous page is saved to a slot that was free. -/
theorem ends_save_anonymous {slot? : Option Nat} {page : VirtAddr} {bytes : PageData}
    {dirty : Bool} {store : BackingStore} :
    ((anonymous slot?).save page bytes dirty store).Ends
      (fun answer after => ∃ slot, answer = anonymous (some slot) ∧
        after = { store with swap := after.swap } ∧
        store.swap.Keeps after.swap ∧ after.swap.image slot = bytes ∧
        store.swap.isOccupied slot = false ∧
        ∀ other, after.swap.isOccupied other =
          (decide (slot = other) || store.swap.isOccupied other))
      (fun error after => ∃ swap, SwapArea.swapOut bytes store.swap = .failed error swap ∧
        after = { store with swap })
      (fun fault => fault.isCorruption = false) := by
  simp only [save, BackingStore.onSwap, Action.ends_bind, Action.ends_onPart, Action.ends_pure]
  refine ((SwapArea.ends_swapOut bytes store.swap).and Outcome.ends_self).imp ?_ ?_ ?_
  · rintro slot after ⟨⟨keeps, image, free, slots⟩, -⟩
    exact ⟨slot, rfl, trivial, keeps, image, free, slots⟩
  · rintro error after ⟨-, refused⟩
    exact ⟨after, refused, rfl⟩
  · rintro _ ⟨⟨operation, rfl⟩, -⟩
    rfl

/-- A page of a file is saved without a change to the swap area. -/
theorem ends_save_file {region : FileRegion} {page : VirtAddr} {bytes : PageData} {dirty : Bool}
    {store : BackingStore} :
    ((file region).save page bytes dirty store).Ends
      (fun answer after => answer = file region ∧ store.KeepsSwap after)
      (fun _ after => after = store) (fun fault => fault.isCorruption = false) := by
  simp only [save, Action.ends_bind, Action.ends_pure]
  exact FileRegion.ends_writeBack.imp (fun _ _ same => ⟨trivial, .of_departed same⟩)
    (fun _ _ same => same) (fun _ stopped => stopped)

/-! ## Giving a page up -/

/-- What a page without a slot gives up is not in the swap area. -/
theorem ends_giveUp {backing : Backing} {page : VirtAddr} {resident : Option PageData}
    {dirty : Bool} {store : BackingStore} (noSlot : backing.slot? = none) :
    (backing.giveUp page resident dirty store).Ends (fun _ after => store.KeepsSwap after)
      (fun _ _ => False) (fun fault => fault.isCorruption = false) := by
  match backing with
  | untouched _ | anonymous none => exact .refl store
  | anonymous (some slot) => cases noSlot
  | file region =>
      cases resident with
      | none => exact .refl store
      | some bytes =>
          simp only [giveUp, Action.ends_bind, Action.ends_attempt]
          exact FileRegion.ends_writeBack.imp (fun _ _ same => .of_departed same)
            (fun _ _ _ => rfl) (fun _ stopped => stopped)

theorem ends_giveUp_anonymous {slot : Nat} {page : VirtAddr} {resident : Option PageData}
    {dirty : Bool} {store : BackingStore} (occupied : store.swap.isOccupied slot = true) :
    ((anonymous (some slot)).giveUp page resident dirty store).Ends
      (fun _ after => after = { store with swap := after.swap } ∧ store.swap.Keeps after.swap ∧
        ∀ other, after.swap.isOccupied other =
          (!decide (slot = other) && store.swap.isOccupied other))
      (fun _ _ => False) (fun _ => False) := by
  simp only [giveUp, BackingStore.onSwap, Action.ends_bind, Action.ends_onPart, Action.ends_pure]
  exact (SwapArea.ends_release occupied).imp (fun _ _ freed => ⟨trivial, freed.2⟩)
    (fun _ _ failed => failed) (fun _ stopped => stopped)

/-! ## What it means that a page came in, was saved or was given up -/

/-- A page that came in was not an anonymous one without an image. A swapped-out page has the bytes
of its image now, and gave its slot up. -/
theorem of_bringIn {backing answer : Backing} {page : VirtAddr}
    {transfer after : Transfer BackingStore}
    (brought : backing.bringIn page transfer = .done answer after) :
    (∃ slot, backing = anonymous (some slot) ∧ answer = anonymous none ∧
        transfer.store.swap.isOccupied slot = true ∧
        after.bytes = transfer.store.swap.image slot ∧
        after.store = { transfer.store with swap := after.store.swap } ∧
        transfer.store.swap.Keeps after.store.swap ∧
        ∀ other, after.store.swap.isOccupied other =
          (!decide (slot = other) && transfer.store.swap.isOccupied other)) ∨
      (∀ slot?, backing ≠ anonymous slot?) ∧ answer = backing ∧ after.store = transfer.store := by
  cases backing with
  | anonymous image? =>
    cases image? with
    | none => cases brought
    | some slot =>
        have occupied : transfer.store.swap.isOccupied slot = true := by
          cases found : transfer.store.swap.isOccupied slot with
          | true => rfl
          | false =>
              simp [bringIn, BackingStore.transferSwap, SwapArea.swapIn, Action.bind_apply,
                Action.onPart, Action.get, Action.halt, found] at brought
        have ends : ((anonymous (some slot)).bringIn page transfer).Ends _ _ _ :=
          ends_bringIn_anonymous occupied
        rw [brought] at ends
        obtain ⟨same, bytes, store, keeps, slots⟩ := ends
        exact .inl ⟨slot, rfl, same, occupied, bytes, store, keeps, slots⟩
  | untouched initializer =>
      have notAnonymous (slot? : Option Nat) : untouched initializer ≠ anonymous slot? := by
        intro same
        cases same
      have ends : ((untouched initializer).bringIn page transfer).Ends _ _ _ :=
        ends_bringIn notAnonymous
      rw [brought] at ends
      exact .inr ⟨notAnonymous, ends⟩
  | file region =>
      have notAnonymous (slot? : Option Nat) : file region ≠ anonymous slot? := by
        intro same
        cases same
      have ends : ((file region).bringIn page transfer).Ends _ _ _ := ends_bringIn notAnonymous
      rw [brought] at ends
      exact .inr ⟨notAnonymous, ends⟩

/-- A page that was to be zero-filled came in so. -/
theorem bytes_of_bringIn {answer : Backing} {page : VirtAddr}
    {transfer after : Transfer BackingStore}
    (brought : (untouched (.anonymous none)).bringIn page transfer = .done answer after) :
    after.bytes = Block.zero := by
  cases brought
  rfl

/-- A page that was saved was touched. An anonymous one is in a slot that was free. -/
theorem of_save {backing answer : Backing} {page : VirtAddr} {bytes : PageData} {dirty : Bool}
    {store after : BackingStore}
    (saved : backing.save page bytes dirty store = .done answer after) :
    (∃ slot? slot, backing = anonymous slot? ∧ answer = anonymous (some slot) ∧
        after = { store with swap := after.swap } ∧ store.swap.Keeps after.swap ∧
        after.swap.image slot = bytes ∧ store.swap.isOccupied slot = false ∧
        ∀ other, after.swap.isOccupied other =
          (decide (slot = other) || store.swap.isOccupied other)) ∨
      ∃ region, backing = file region ∧ answer = file region ∧ store.KeepsSwap after := by
  match backing with
  | untouched _ => cases saved
  | anonymous slot? =>
      have ends : ((anonymous slot?).save page bytes dirty store).Ends _ _ _ := ends_save_anonymous
      rw [saved] at ends
      obtain ⟨slot, same, rest⟩ := ends
      exact .inl ⟨slot?, slot, rfl, same, rest⟩
  | file region =>
      have ends : ((file region).save page bytes dirty store).Ends _ _ _ := ends_save_file
      rw [saved] at ends
      exact .inr ⟨region, rfl, ends⟩

/-- A page that was given up is in no slot any more. -/
theorem of_giveUp {backing answer : Backing} {page : VirtAddr} {resident : Option PageData}
    {dirty : Bool} {store after : BackingStore}
    (gaveUp : backing.giveUp page resident dirty store = .done answer after) :
    (∃ slot, backing = anonymous (some slot) ∧ after = { store with swap := after.swap } ∧
        store.swap.Keeps after.swap ∧
        ∀ other, after.swap.isOccupied other =
          (!decide (slot = other) && store.swap.isOccupied other)) ∨
      backing.slot? = none ∧ store.KeepsSwap after := by
  cases atSlot : backing.slot? with
  | none =>
      have ends : (backing.giveUp page resident dirty store).Ends _ _ _ := ends_giveUp atSlot
      rw [gaveUp] at ends
      exact .inr ⟨rfl, ends⟩
  | some slot =>
      match backing with
      | anonymous (some found) =>
          cases atSlot
          have occupied : store.swap.isOccupied slot = true := by
            cases found : store.swap.slots.isTaken slot with
            | true => exact found
            | false =>
                simp [giveUp, BackingStore.onSwap, SwapArea.release, SlotMap.release,
                  Action.bind_apply, Action.onPart, Action.get, Action.halt, found] at gaveUp
          have ends : ((anonymous (some slot)).giveUp page resident dirty store).Ends _ _ _ :=
            ends_giveUp_anonymous occupied
          rw [gaveUp] at ends
          exact .inl ⟨slot, rfl, ends⟩

end Backing

/-! ## References to mappings -/

/-- A mapping was made of a file that exists. -/
structure BackingStore.Knows (store : BackingStore) (mapping : Mapping) : Prop where
  file : mapping.file < store.files.inodes.size
  id : mapping.id < store.nextMapping

theorem BackingStore.ends_createMapping {start : VirtAddr} {pageCount references : Nat}
    {file : FileId} {store : BackingStore} :
    (createMapping start pageCount file references store).Ends
      (fun mapping after => mapping = ⟨store.nextMapping, start, pageCount, file⟩ ∧
        after.Knows mapping ∧ store.KeepsSwap after)
      (fun _ after => after = store) (fun _ => False) := by
  simp only [createMapping, onFiles, Action.ends_bind, Action.ends_onPart]
  refine FileStore.ends_openHandle.imp ?_ ?_ (fun _ impossible => impossible)
  · rintro _ after ⟨exist, sameCount⟩
    exact ⟨rfl, ⟨sameCount ▸ exist, Nat.lt_succ_self _⟩, rfl, sameCount, rfl, Nat.le_succ _⟩
  · rintro _ after rfl
    rfl

/-- A mapping can be made of any file that exists. -/
theorem BackingStore.makes_createMapping {start : VirtAddr} {pageCount references : Nat}
    {file : FileId} {store : BackingStore} (exist : file < store.files.inodes.size) :
    (createMapping start pageCount file references store).Ends (fun _ _ => True)
      (fun _ _ => False) (fun _ => False) := by
  simp only [createMapping, onFiles, FileStore.openHandle, FileStore.inode, FileStore.setInode,
    Action.ends_bind, Action.ends_onPart, Action.ends_require, Array.getElem?_eq_getElem exist]
  refine ⟨fun _ _ => trivial, fun missing => ?_⟩
  cases missing

/-- A page that is let go drops its reference to its mapping, and no more. -/
theorem Page.ends_forget {page : Page} {store : BackingStore}
    (exist : ∀ mapping, page.mapping? = some mapping → mapping.file < store.files.inodes.size) :
    (page.forget store).Ends (fun _ after => store.KeepsSwap after) (fun _ _ => False)
      (fun fault => fault.isCorruption = false) := by
  unfold forget
  cases mapped : page.mapping? with
  | none => exact .refl store
  | some mapping =>
      simp only [BackingStore.drop, Action.ends_bind, Action.ends_get]
      cases store.references[mapping.id]? with
      | none => exact .refl store
      | some count =>
          dsimp only
          split
          · simp only [Action.ends_set, Action.ends_bind, BackingStore.onFiles,
              Action.ends_onPart]
            exact (FileStore.ends_closeHandle (exist mapping mapped)).imp
              (fun _ _ sameCount => ⟨rfl, sameCount, rfl, Nat.le_refl _⟩)
              (fun _ _ impossible => impossible) (fun _ stopped => stopped)
          · exact ⟨rfl, rfl, rfl, Nat.le_refl _⟩

end DemandPaging
