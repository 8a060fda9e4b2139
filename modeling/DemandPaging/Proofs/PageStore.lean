import DemandPaging.Proofs.SwapSectors

/-!
The swap area as a store of pages.

Owns:
- `SwapArea.Ledger`, the pages that were given to the swap area and not taken back;
- `SwapArea.Served`, the swap areas that requests in any order lead to, each with its ledger, on a
  disk whose sectors may begin and cease to fail;
- `SwapArea.Holds`, the slots that are taken hold the pages of the ledger;
- `SwapArea.Serves`, the answers to further requests are those that the ledger demands.

Does not own: the pages of processes that slots belong to (`Machine.SlotsOwned`).

A sector is asked for at most once by a request, so sectors that begin to fail while a request is
carried out make no difference to one before which they fail already.

Main statement: `Served.serves`.
-/

namespace DemandPaging

/-- Every slot is taken if none is found free. -/
theorem SlotMap.isTaken_of_full {slots : SlotMap} (full : slots.lowestFree? = none) (slot : Nat)
    (inside : slot < slots.size) : slots.isTaken slot = true := by
  induction slot using Nat.strongRecOn with
  | ind slot inductionHypothesis =>
      cases taken : slots.isTaken slot with
      | true => rfl
      | false =>
          have lowest := lowestFree?_eq_some_iff.2
            ⟨inside, taken, fun lower less => inductionHypothesis lower less (by omega)⟩
          rw [full] at lowest
          cases lowest

namespace SwapArea

open Outcome (EndAlike)

/-- The pages that were written out, by the slots that were answered for them, until they are read
back or given up. -/
abbrev Ledger : Type := Std.ExtTreeMap Nat PageData

/-- What requests in any order lead to. Only slots that are taken are read back or freed. -/
inductive Served (settings : Settings) (disk : Disk) : SwapArea → Ledger → Prop where
  | start : Served settings disk (create disk settings) ∅
  | swapOut {area after : SwapArea} {ledger : Ledger} {page : PageData} {slot : Nat}
      (served : Served settings disk area ledger)
      (wrote : SwapArea.swapOut page area = .done slot after) :
      Served settings disk after (ledger.insert slot page)
  | swapOutFailed {area after : SwapArea} {ledger : Ledger} {page : PageData} {error : Errno}
      (served : Served settings disk area ledger)
      (refused : SwapArea.swapOut page area = .failed error after) :
      Served settings disk after ledger
  | swapIn {area : SwapArea} {ledger : Ledger} {slot : Nat} {bytes : PageData}
      {after : Transfer SwapArea} (served : Served settings disk area ledger)
      (occupied : area.isOccupied slot = true)
      (read : SwapArea.swapIn slot ⟨area, bytes⟩ = .done () after) :
      Served settings disk after.store (ledger.erase slot)
  | swapInFailed {area : SwapArea} {ledger : Ledger} {slot : Nat} {bytes : PageData}
      {error : Errno} {after : Transfer SwapArea} (served : Served settings disk area ledger)
      (occupied : area.isOccupied slot = true)
      (refused : SwapArea.swapIn slot ⟨area, bytes⟩ = .failed error after) :
      Served settings disk after.store ledger
  | release {area after : SwapArea} {ledger : Ledger} {slot : Nat}
      (served : Served settings disk area ledger) (occupied : area.isOccupied slot = true)
      (released : SwapArea.release slot area = .done () after) :
      Served settings disk after (ledger.erase slot)
  /-- Other sectors fail from now on. -/
  | changeDisk {area : SwapArea} {ledger : Ledger} (unreadable unwritable : FailingSectors)
      (served : Served settings disk area ledger) :
      Served settings disk { area with disk := { area.disk with unreadable, unwritable } } ledger

/-- A sector is neither reserved nor beyond the end of the disk. -/
def Usable (settings : Settings) (disk : Disk) (number : Nat) : Prop :=
  settings.reservedSectors ≤ number ∧ number < disk.sectorCount

/-- The slots that are taken are those of the ledger, and they hold its pages. The sectors that are
not for slots hold what they did. -/
structure Holds (settings : Settings) (disk : Disk) (area : SwapArea) (ledger : Ledger) :
    Prop where
  firstSector : area.firstSector = ⟨settings.reservedSectors⟩
  slotCount : area.slots.size = settings.swapSlots disk.sectorCount
  sectorCount : area.disk.sectorCount = disk.sectorCount
  occupied : ∀ slot, area.isOccupied slot = (ledger[slot]?).isSome
  image : ∀ slot page, ledger[slot]? = some page → area.image slot = page
  elsewhere : ∀ number, ¬Usable settings disk number → area.disk.data number = disk.data number

/-- The swap area answers every request as its ledger demands, and needs no sector for it but those
of its slots. -/
structure Serves (settings : Settings) (disk : Disk) (area : SwapArea) (ledger : Ledger) : Prop
    extends Holds settings disk area ledger where
  /-- A page goes to the lowest slot that is free. There is no space exactly if none is. If the disk
  fails, every page stays where it was. -/
  swapOut : ∀ page, (SwapArea.swapOut page area).Ends
    (fun slot after => slot < settings.swapSlots disk.sectorCount ∧ ledger[slot]? = none ∧
      (∀ lower < slot, (ledger[lower]?).isSome = true) ∧
      Holds settings disk after (ledger.insert slot page))
    (fun error after =>
      (error = .noSpace ∧
          (∀ slot < settings.swapSlots disk.sectorCount, (ledger[slot]?).isSome = true) ∨
        error = .ioError ∧ ∃ slot < settings.swapSlots disk.sectorCount, ledger[slot]? = none) ∧
      Holds settings disk after ledger)
    (fun _ => False)
  /-- The page comes back that was given, and its slot is free; or the disk fails, and nothing
  changes. -/
  swapIn : ∀ slot page bytes, ledger[slot]? = some page → (SwapArea.swapIn slot ⟨area, bytes⟩).Ends
    (fun _ after => after.bytes = page ∧ Holds settings disk after.store (ledger.erase slot))
    (fun error after => error = .ioError ∧ after.store = area) (fun _ => False)
  release : ∀ slot page, ledger[slot]? = some page → (SwapArea.release slot area).Ends
    (fun _ after => Holds settings disk after (ledger.erase slot)) (fun _ _ => False)
    (fun _ => False)
  /-- The sectors of a slot are neither reserved nor beyond the end of the disk, -/
  located : ∀ slot < settings.swapSlots disk.sectorCount, ∀ index, ∃ sector,
    area.sectorOf slot index = .ok sector ∧ Usable settings disk sector.number
  /-- and they are not those of another slot. -/
  apart : ∀ slot < settings.swapSlots disk.sectorCount,
    ∀ other < settings.swapSlots disk.sectorCount, ∀ index place,
      area.sectorOf slot index = area.sectorOf other place → slot = other
  /-- Whatever the other sectors of the disk hold, whether they fail or whether they exist, the
  answers are the same. -/
  confined : ∀ twin, area.AgreeOn (Usable settings disk) twin →
    (∀ page, EndAlike (fun _ => AgreeOn (Usable settings disk))
      (fun _ => AgreeOn (Usable settings disk)) (SwapArea.swapOut page area)
      (SwapArea.swapOut page twin)) ∧
    (∀ slot page bytes, ledger[slot]? = some page → EndAlike
      (fun _ state other => state.store.AgreeOn (Usable settings disk) other.store ∧
        other.bytes = state.bytes)
      (fun _ state other => state.store.AgreeOn (Usable settings disk) other.store)
      (SwapArea.swapIn slot ⟨area, bytes⟩) (SwapArea.swapIn slot ⟨twin, bytes⟩)) ∧
    ∀ slot, EndAlike (fun _ => AgreeOn (Usable settings disk))
      (fun _ => AgreeOn (Usable settings disk)) (SwapArea.release slot area)
      (SwapArea.release slot twin)

variable {settings : Settings} {disk : Disk} {area after : SwapArea} {ledger changed : Ledger}
  {slot : Nat} {page : PageData}

namespace Holds

variable (holds : Holds settings disk area ledger)

include holds

theorem fits (word : disk.sectorCount < Word.limit) : area.Fits disk.sectorCount := by
  have created : (create disk settings).Fits disk.sectorCount := fits_create word
  exact created.congr holds.firstSector holds.slotCount

theorem lt_slotCount (given : ledger[slot]? = some page) :
    slot < settings.swapSlots disk.sectorCount := by
  have occupied := holds.occupied slot
  rw [given] at occupied
  exact holds.slotCount ▸ SlotMap.lt_size_of_isTaken occupied

/-- A change at one slot keeps what the other slots hold. -/
theorem step (word : disk.sectorCount < Word.limit) (inside : slot < area.slots.size)
    (touches : area.Touches after slot)
    (occupied : ∀ other, after.isOccupied other = (changed[other]?).isSome)
    (image : ∀ other page, changed[other]? = some page → after.image other = page) :
    Holds settings disk after changed where
  firstSector := touches.firstSector.trans holds.firstSector
  slotCount := touches.slotCount.trans holds.slotCount
  sectorCount := touches.sectorCount.trans holds.sectorCount
  occupied := occupied
  image := image
  elsewhere number unusable := by
    rw [touches.data, holds.elsewhere number unusable]
    intro has
    have within := (holds.fits word).lt_bound_of_hasSector inside has
    rw [holds.firstSector] at within
    exact unusable within

theorem eq_none_of_free (free : area.isOccupied slot = false) : ledger[slot]? = none := by
  rw [holds.occupied, Option.isSome_eq_false_iff, Option.isNone_iff_eq_none] at free
  exact free

theorem isOccupied_of_given (given : ledger[slot]? = some page) :
    area.isOccupied slot = true := by
  rw [holds.occupied, given]
  rfl

theorem ends_swapOut (word : disk.sectorCount < Word.limit) (page : PageData) :
    (SwapArea.swapOut page area).Ends
      (fun slot after => slot < settings.swapSlots disk.sectorCount ∧ ledger[slot]? = none ∧
        (∀ lower < slot, (ledger[lower]?).isSome = true) ∧
        Holds settings disk after (ledger.insert slot page))
      (fun error after =>
        (error = .noSpace ∧
            (∀ slot < settings.swapSlots disk.sectorCount, (ledger[slot]?).isSome = true) ∨
          error = .ioError ∧ ∃ slot < settings.swapSlots disk.sectorCount, ledger[slot]? = none) ∧
        Holds settings disk after ledger)
      (fun _ => False) := by
  refine ((SwapArea.ends_swapOut page area).and ((holds.fits word).ends_swapOut page)).imp
    ?_ ?_ ?_
  · rintro slot after ⟨⟨keeps, image, free, occupied⟩, lowest, touches⟩
    obtain ⟨inside, -, lower⟩ := SlotMap.lowestFree?_eq_some_iff.1 lowest
    refine ⟨holds.slotCount ▸ inside, holds.eq_none_of_free free, fun other less => ?_,
      holds.step word inside touches (fun other => ?_) fun other given atOther => ?_⟩
    · rw [← holds.occupied]
      exact lower other less
    · rw [occupied, Std.ExtTreeMap.getElem?_insert, holds.occupied]
      by_cases same : slot = other
      · simp [same]
      · simp [same]
    · rw [Std.ExtTreeMap.getElem?_insert] at atOther
      by_cases same : slot = other
      · subst same
        rw [if_pos (by simp), Option.some.injEq] at atOther
        exact image.trans atOther
      · rw [if_neg (by simpa using same)] at atOther
        rw [keeps.image other (holds.isOccupied_of_given atOther)]
        exact holds.image other given atOther
  · rintro error after ⟨⟨keeps, occupied⟩, ⟨rfl, full, rfl⟩ | ⟨rfl, slot, lowest, touches⟩⟩
    · refine ⟨.inl ⟨rfl, fun slot inside => ?_⟩, holds⟩
      rw [← holds.occupied]
      exact SlotMap.isTaken_of_full full slot (holds.slotCount ▸ inside)
    · obtain ⟨inside, free, -⟩ := SlotMap.lowestFree?_eq_some_iff.1 lowest
      refine ⟨.inr ⟨rfl, slot, holds.slotCount ▸ inside, holds.eq_none_of_free free⟩,
        holds.step word inside touches (fun other => ?_) fun other given atOther => ?_⟩
      · rw [occupied, holds.occupied]
      · rw [keeps.image other (holds.isOccupied_of_given atOther)]
        exact holds.image other given atOther
  · rintro _ ⟨⟨operation, rfl⟩, notOverflow⟩
    cases notOverflow

/-- The ledger without a slot that was freed. -/
theorem erase (word : disk.sectorCount < Word.limit) (given : ledger[slot]? = some page)
    (keeps : area.Keeps after) (touches : area.Touches after slot)
    (occupied : ∀ other, after.isOccupied other =
      (!decide (slot = other) && area.isOccupied other)) :
    Holds settings disk after (ledger.erase slot) := by
  have inside : slot < area.slots.size := holds.slotCount ▸ holds.lt_slotCount given
  refine holds.step word inside touches (fun other => ?_) fun other found atOther => ?_
  · rw [occupied, Std.ExtTreeMap.getElem?_erase, holds.occupied]
    by_cases same : slot = other
    · simp [same]
    · simp [same]
  · rw [Std.ExtTreeMap.getElem?_erase] at atOther
    split at atOther
    · cases atOther
    · rw [keeps.image other (holds.isOccupied_of_given atOther)]
      exact holds.image other found atOther

theorem ends_swapIn (word : disk.sectorCount < Word.limit) (given : ledger[slot]? = some page)
    (bytes : PageData) :
    (SwapArea.swapIn slot ⟨area, bytes⟩).Ends
      (fun _ after => after.bytes = page ∧ Holds settings disk after.store (ledger.erase slot))
      (fun error after => error = .ioError ∧ after.store = area) (fun _ => False) := by
  have occupied := holds.isOccupied_of_given given
  have fits : ({ store := area, bytes } : Transfer SwapArea).store.Fits disk.sectorCount :=
    holds.fits word
  have inside := SlotMap.lt_size_of_isTaken occupied
  refine ((SwapArea.ends_swapIn occupied).and (fits.ends_swapIn inside)).imp ?_ ?_ ?_
  · rintro _ after ⟨⟨read, keeps, occupiedAfter⟩, -, touches⟩
    exact ⟨read.trans (holds.image slot page given),
      holds.erase word given keeps touches occupiedAfter⟩
  · rintro error after ⟨same, failed⟩
    exact ⟨failed, same⟩
  · rintro _ ⟨⟨operation, rfl⟩, notOverflow⟩
    cases notOverflow

theorem ends_release (word : disk.sectorCount < Word.limit) (given : ledger[slot]? = some page) :
    (SwapArea.release slot area).Ends
      (fun _ after => Holds settings disk after (ledger.erase slot)) (fun _ _ => False)
      (fun _ => False) := by
  have occupied := holds.isOccupied_of_given given
  refine ((SwapArea.ends_release occupied).and (ends_release_touches slot slot area)).imp ?_
    (fun _ _ impossible => impossible.1) (fun _ impossible => impossible.1)
  rintro _ after ⟨⟨-, keeps, occupiedAfter⟩, -, touches⟩
  exact holds.erase word given keeps touches occupiedAfter

end Holds

theorem holds_create (settings : Settings) (disk : Disk) :
    Holds settings disk (create disk settings) ∅ := by
  refine ⟨rfl, rfl, rfl, fun slot => ?_, fun slot page given => ?_, fun _ _ => rfl⟩
  · simp [create, isOccupied]
  · simp at given

/-- Whatever was asked of the swap area, it holds the pages of its ledger. -/
theorem Served.holds (served : Served settings disk area ledger)
    (word : disk.sectorCount < Word.limit) : Holds settings disk area ledger := by
  have given {area : SwapArea} {ledger : Ledger} {slot : Nat}
      (holds : Holds settings disk area ledger) (occupied : area.isOccupied slot = true) :
      ∃ page, ledger[slot]? = some page := by
    rw [holds.occupied] at occupied
    exact Option.isSome_iff_exists.1 occupied
  induction served with
  | start => exact holds_create settings disk
  | @swapOut _ _ _ page _ _ wrote inductionHypothesis =>
      have ends := inductionHypothesis.ends_swapOut word page
      rw [wrote] at ends
      exact ends.2.2.2
  | @swapOutFailed _ _ _ page _ _ refused inductionHypothesis =>
      have ends := inductionHypothesis.ends_swapOut word page
      rw [refused] at ends
      exact ends.2
  | @swapIn _ _ _ bytes _ _ occupied read inductionHypothesis =>
      obtain ⟨page, atSlot⟩ := given inductionHypothesis occupied
      have ends := inductionHypothesis.ends_swapIn word atSlot bytes
      rw [read] at ends
      exact ends.2
  | @swapInFailed _ _ _ bytes _ _ _ occupied refused inductionHypothesis =>
      obtain ⟨page, atSlot⟩ := given inductionHypothesis occupied
      have ends := inductionHypothesis.ends_swapIn word atSlot bytes
      rw [refused] at ends
      rw [ends.2]
      exact inductionHypothesis
  | release _ occupied released inductionHypothesis =>
      obtain ⟨page, atSlot⟩ := given inductionHypothesis occupied
      have ends := inductionHypothesis.ends_release word atSlot
      rw [released] at ends
      exact ends
  | changeDisk unreadable unwritable _ inductionHypothesis =>
      obtain ⟨firstSector, slotCount, sectorCount, occupied, image, elsewhere⟩ :=
        inductionHypothesis
      exact ⟨firstSector, slotCount, sectorCount, occupied, image, elsewhere⟩

/-- On a disk whose sectors have numbers the swap area keeps every page that it is given, at any
place behind the reserved sectors, until the page is read back or given up; failing sectors lose
none, and nothing else on the disk is looked at or changed. -/
theorem Served.serves (served : Served settings disk area ledger)
    (word : disk.sectorCount < Word.limit) : Serves settings disk area ledger := by
  have holds := served.holds word
  have fits := holds.fits word
  have usable {slot number : Nat} (inside : slot < area.slots.size)
      (has : area.HasSector slot number) : Usable settings disk number := by
    have within := fits.lt_bound_of_hasSector inside has
    rw [holds.firstSector] at within
    exact within
  have inArea {slot : Nat} (inside : slot < settings.swapSlots disk.sectorCount) :
      slot < area.slots.size := holds.slotCount ▸ inside
  refine { holds with
    swapOut := holds.ends_swapOut word
    swapIn := fun _ _ bytes given => holds.ends_swapIn word given bytes
    release := fun _ _ given => holds.ends_release word given
    located := fun slot inside index => ⟨_, fits.sectorOf_eq (inArea inside) index, ?_⟩
    apart := fun slot inside other insideToo index place => ?_
    confined := fun twin agree => ⟨fun page => ?_, fun slot page bytes given => ?_, ?_⟩ }
  · exact usable (inArea inside) ⟨index, rfl⟩
  · exact fits.eq_of_sectorOf_eq (inArea inside) (inArea insideToo)
  · refine agree.endAlike_swapOut page fun slot number lowest has => usable ?_ has
    exact (SlotMap.lowestFree?_eq_some_iff.1 lowest).1
  · have inside := inArea (holds.lt_slotCount given)
    refine (agree.endAlike_swapIn (fun _ => usable inside) bytes bytes).imp ?_ ?_
    · rintro _ state other ⟨agreeAfter, read, -⟩
      exact ⟨agreeAfter, read⟩
    · rintro _ state other ⟨same, sameToo⟩
      rw [same, sameToo]
      exact agree
  · exact agree.endAlike_release

/-- A disk with a reserved sector and room for two pages. -/
def shortDisk : Disk := Disk.create 17

/-- The second page cannot be written, since a sector of its slot fails. -/
theorem serves_after_refusal :
    ∃ area, Served { reservedSectors := 1 } shortDisk area
        ((∅ : Ledger).insert 0 (Block.filled 7)) ∧
      shortDisk.sectorCount < Word.limit ∧
      Serves { reservedSectors := 1 } shortDisk area
        ((∅ : Ledger).insert 0 (Block.filled 7)) := by
  let start := create shortDisk { reservedSectors := 1 }
  have writes : (SwapArea.swapOut (Block.filled 7) start).answer? = some 0 := by decide +kernel
  obtain ⟨first, wrote⟩ := Outcome.exists_of_answer? writes
  have disk : first = (SwapArea.swapOut (Block.filled 7) start).state?.getD start := by
    rw [wrote]
    rfl
  have fails : (SwapArea.swapOut (Block.filled 9) { first with
      disk := { first.disk with unreadable := .none, unwritable := .always [12] } }).error? =
        some .ioError := by
    rw [disk]
    decide +kernel
  obtain ⟨second, refused⟩ := Outcome.exists_of_error? fails
  have served :=
    ((Served.start.swapOut wrote).changeDisk .none (.always [12])).swapOutFailed refused
  exact ⟨second, served, by decide, served.serves (by decide)⟩

end SwapArea

end DemandPaging
