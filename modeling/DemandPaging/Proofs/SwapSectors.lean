import DemandPaging.Proofs.Lockstep
import DemandPaging.Proofs.SwapImage

/-!
The sectors that the swap area touches.

Owns:
- `SwapArea.Fits`, the sectors of all slots have numbers, and those lie before a bound;
- `SwapArea.sectorOf`, the sector behind a part of a slot, and that no two slots share one;
- `SwapArea.Touches`, at most the sectors of one slot were changed;
- `SwapArea.AgreeOn`, two swap areas that differ at most in sectors that are of no account.

Does not own: the pages that the sectors hold (`SwapArea.image`).

Main statements: `Fits.ends_swapOut` and `Fits.ends_swapIn`, with room for the numbers of its
sectors the swap area neither overflows nor reports another error of its disk than that it failed;
`AgreeOn.endAlike_swapOut` and `AgreeOn.endAlike_swapIn`, what the other sectors hold and whether
they fail makes no difference.
-/

namespace DemandPaging

/-- Two disks agree on some sectors: whether they exist, what they hold, and whether they fail, now
and after as many more writes to both. -/
structure Disk.AgreeOn (usable : Nat → Prop) (left right : Disk) : Prop where
  exists_iff : ∀ number, usable number →
    (number < left.sectorCount ↔ number < right.sectorCount)
  unreadable_iff : ∀ more number, usable number →
    (number ∈ left.unreadable.after (left.writes + more) ↔
      number ∈ right.unreadable.after (right.writes + more))
  unwritable_iff : ∀ more number, usable number →
    (number ∈ left.unwritable.after (left.writes + more) ↔
      number ∈ right.unwritable.after (right.writes + more))
  data : ∀ number, usable number → left.data number = right.data number

namespace Disk

variable {usable : Nat → Prop} {left right disk after : Disk} {sector : Sector} {data : SectorData}
  {error : Errno}

theorem AgreeOn.refl (disk : Disk) : disk.AgreeOn usable disk :=
  ⟨fun _ _ => Iff.rfl, fun _ _ _ => Iff.rfl, fun _ _ _ => Iff.rfl, fun _ _ => rfl⟩

/-- A sector is readable or the disk fails; it never reports another error. -/
theorem eq_ioError_of_read (refused : disk.read sector = .error error) : error = .ioError := by
  unfold read stored at refused
  split at refused
  · cases refused; rfl
  split at refused
  · cases refused
  · cases refused; rfl

theorem eq_ioError_of_write (refused : disk.write sector data = .error error) :
    error = .ioError := by
  unfold write at refused
  split at refused
  · cases refused; rfl
  split at refused
  · cases refused
  · cases refused; rfl

theorem sectorCount_of_write (wrote : disk.write sector data = .ok after) :
    after.sectorCount = disk.sectorCount := by
  unfold write at wrote
  split at wrote
  · cases wrote
  split at wrote
  · cases wrote; rfl
  · cases wrote

theorem AgreeOn.read_eq (agree : left.AgreeOn usable right) (inside : usable sector.number) :
    left.read sector = right.read sector := by
  have same := agree.data sector.number inside
  have failing : sector.number ∈ left.unreadable.after left.writes ↔
      sector.number ∈ right.unreadable.after right.writes := agree.unreadable_iff 0 _ inside
  unfold Disk.data at same
  simp only [read, stored, failing, agree.exists_iff _ inside, same]

/-- What is written to both disks, they agree on afterwards. -/
theorem AgreeOn.write (agree : left.AgreeOn usable right) (inside : usable sector.number)
    (data : SectorData) :
    (left.write sector data = .error .ioError ∧ right.write sector data = .error .ioError) ∨
      ∃ wrote twin, left.write sector data = .ok wrote ∧ right.write sector data = .ok twin ∧
        wrote.AgreeOn usable twin := by
  have failing_iff : sector.number ∈ left.unwritable.after left.writes ↔
      sector.number ∈ right.unwritable.after right.writes := agree.unwritable_iff 0 _ inside
  by_cases failing : sector.number ∈ left.unwritable.after left.writes
  · exact .inl ⟨if_pos failing, if_pos (failing_iff.1 failing)⟩
  have sound := mt failing_iff.2 failing
  by_cases exist : sector.number < left.sectorCount
  · have existToo := (agree.exists_iff _ inside).1 exist
    have wrote : left.write sector data =
        .ok { left with
          written := left.written.insert sector.number data, writes := left.writes + 1 } := by
      rw [Disk.write, if_neg failing, if_pos exist]
    have wroteToo : right.write sector data =
        .ok { right with
          written := right.written.insert sector.number data, writes := right.writes + 1 } := by
      rw [Disk.write, if_neg sound, if_pos existToo]
    refine .inr ⟨_, _, wrote, wroteToo, agree.exists_iff, fun more number use => ?_,
      fun more number use => ?_, fun number use => ?_⟩
    · have later := agree.unreadable_iff (1 + more) number use
      rwa [← Nat.add_assoc, ← Nat.add_assoc] at later
    · have later := agree.unwritable_iff (1 + more) number use
      rwa [← Nat.add_assoc, ← Nat.add_assoc] at later
    · rw [Disk.data_of_write wrote, Disk.data_of_write wroteToo, agree.data number use]
  · have missing : ¬sector.number < right.sectorCount := fun existToo =>
      exist ((agree.exists_iff _ inside).2 existToo)
    exact .inl ⟨by rw [Disk.write, if_neg failing, if_neg exist],
      by rw [Disk.write, if_neg sound, if_neg missing]⟩

end Disk

namespace SwapArea

open Outcome (EndAlike)

variable {area before after left right : SwapArea} {slot other bound : Nat} {page : PageData}
  {usable : Nat → Prop}

/-! ## Where the sectors are -/

/-- The sectors of every slot lie before a bound, and the bound is a machine word. -/
structure Fits (area : SwapArea) (bound : Nat) : Prop where
  word : bound < Word.limit
  below : ∀ slot < area.slots.size,
    area.firstSector.number + slot * sectorsPerPage + sectorsPerPage ≤ bound

/-- The sector that holds a part of the page in a slot. -/
def sectorOf (area : SwapArea) (slot : Nat) (index : Fin sectorsPerPage) :
    Except Overflow Sector := do
  let base ← area.baseSector slot
  base.add index.val

/-- A sector is one of those that hold the page in a slot. -/
def HasSector (area : SwapArea) (slot number : Nat) : Prop :=
  ∃ index : Fin sectorsPerPage, number = area.firstSector.number + slot * sectorsPerPage + index.val

/-- A slot that exists on a disk ends before the disk does. -/
theorem fits_create {settings : Settings} {disk : Disk} (word : disk.sectorCount < Word.limit) :
    (create disk settings).Fits disk.sectorCount := by
  refine ⟨word, fun slot inside => ?_⟩
  simp only [create, SlotMap.create, Settings.swapSlots, sectorsPerPage] at inside ⊢
  omega

namespace Fits

variable (fits : area.Fits bound) (inside : slot < area.slots.size)

include fits

theorem congr (firstSector : after.firstSector = area.firstSector)
    (slotCount : after.slots.size = area.slots.size) : after.Fits bound :=
  ⟨fits.word, by rw [firstSector, slotCount]; exact fits.below⟩

include inside

theorem baseSector_eq :
    area.baseSector slot = .ok ⟨area.firstSector.number + slot * sectorsPerPage⟩ := by
  have below := fits.below slot inside
  have word := fits.word
  have distance : Word.mul slot sectorsPerPage = .ok (slot * sectorsPerPage) :=
    Word.mul_eq_ok_iff.2 ⟨by omega, rfl⟩
  have sum : Word.add area.firstSector.number (slot * sectorsPerPage) =
      .ok (area.firstSector.number + slot * sectorsPerPage) :=
    Word.add_eq_ok_iff.2 ⟨by omega, rfl⟩
  simp [baseSector, Sector.add, distance, sum, bind, Except.bind, Except.map]

theorem sector_add_eq (index : Fin sectorsPerPage) :
    Sector.add ⟨area.firstSector.number + slot * sectorsPerPage⟩ index.val =
      .ok ⟨area.firstSector.number + slot * sectorsPerPage + index.val⟩ := by
  have below := fits.below slot inside
  have word := fits.word
  have small := index.isLt
  have sum : Word.add (area.firstSector.number + slot * sectorsPerPage) index.val =
      .ok (area.firstSector.number + slot * sectorsPerPage + index.val) :=
    Word.add_eq_ok_iff.2 ⟨by omega, rfl⟩
  simp [Sector.add, sum, Except.map]

theorem sectorOf_eq (index : Fin sectorsPerPage) :
    area.sectorOf slot index =
      .ok ⟨area.firstSector.number + slot * sectorsPerPage + index.val⟩ := by
  unfold sectorOf
  rw [fits.baseSector_eq inside]
  exact fits.sector_add_eq inside index

theorem lt_bound_of_hasSector {number : Nat} (has : area.HasSector slot number) :
    area.firstSector.number ≤ number ∧ number < bound := by
  obtain ⟨index, rfl⟩ := has
  have below := fits.below slot inside
  have small := index.isLt
  omega

/-- No sector belongs to two slots. -/
theorem eq_of_sectorOf_eq (insideToo : other < area.slots.size) {index place : Fin sectorsPerPage}
    (same : area.sectorOf slot index = area.sectorOf other place) : slot = other := by
  rw [fits.sectorOf_eq inside, fits.sectorOf_eq insideToo, Except.ok.injEq,
    Sector.mk.injEq] at same
  have small := index.isLt
  have smallToo := place.isLt
  simp only [sectorsPerPage] at *
  omega

end Fits

/-! ## What the sectors of a slot are written to -/

/-- At most the sectors of one slot were written to. Which slots are taken is left open. -/
structure Touches (before after : SwapArea) (slot : Nat) : Prop where
  firstSector : after.firstSector = before.firstSector
  slotCount : after.slots.size = before.slots.size
  sectorCount : after.disk.sectorCount = before.disk.sectorCount
  data : ∀ number, ¬before.HasSector slot number →
    after.disk.data number = before.disk.data number

theorem Touches.refl (area : SwapArea) (slot : Nat) : area.Touches area slot :=
  ⟨rfl, rfl, rfl, fun _ _ => rfl⟩

theorem Touches.of_disk (disk : after.disk = before.disk)
    (firstSector : after.firstSector = before.firstSector)
    (slotCount : after.slots.size = before.slots.size) : before.Touches after slot :=
  ⟨firstSector, slotCount, by rw [disk], fun _ _ => by rw [disk]⟩

theorem Touches.trans {last : SwapArea} (first : before.Touches after slot)
    (second : after.Touches last slot) : before.Touches last slot where
  firstSector := second.firstSector.trans first.firstSector
  slotCount := second.slotCount.trans first.slotCount
  sectorCount := second.sectorCount.trans first.sectorCount
  data number outside := by
    have same : ¬after.HasSector slot number := by
      unfold HasSector
      rw [first.firstSector]
      exact outside
    rw [second.data number same, first.data number outside]

/-- Freeing a slot writes nothing, and no number leaves its range. -/
theorem ends_release_touches (slot other : Nat) (area : SwapArea) :
    (release slot area).Ends
      (fun _ after => after.disk = area.disk ∧ area.Touches after other)
      (fun _ _ => False) (fun fault => fault.isOverflow = false) := by
  simp only [release, Action.ends_bind, Action.ends_get]
  by_cases taken : area.slots.isTaken slot = true
  · have freed : area.slots.release slot = (true, area.slots.mark slot false) := if_pos taken
    simp only [freed, if_true, Action.ends_set]
    exact ⟨trivial, .of_disk rfl rfl (SlotMap.size_mark ..)⟩
  · have freed : area.slots.release slot = (false, area.slots) := if_neg taken
    simp only [freed, Bool.false_eq_true, if_false, Action.ends_halt]
    rfl

theorem Fits.ends_writeImage (fits : area.Fits bound) (inside : slot < area.slots.size)
    (page : PageData) :
    (writeImage slot page area).Ends (fun _ after => area.Touches after slot)
      (fun error after => error = .ioError ∧ area.Touches after slot) (fun _ => False) := by
  simp only [writeImage, Action.ends_bind, Action.ends_get, Action.ends_checked]
  refine Action.of_result_eq_ok (fits.baseSector_eq inside) ?_
  apply Action.ends_forM fun _ after => area.Touches after slot
  · intro index rest middle touches
    simp only [writeSector, Action.ends_bind, Action.ends_checked, Action.ends_get,
      Action.ends_orFail, Action.ends_set]
    refine Action.of_result_eq_ok (fits.sector_add_eq inside index) ⟨fun disk wrote => ?_,
      fun error refused => ⟨Disk.eq_ioError_of_write refused, touches⟩⟩
    refine ⟨touches.firstSector, touches.slotCount,
      (Disk.sectorCount_of_write wrote).trans touches.sectorCount, fun number outside => ?_⟩
    rw [Disk.data_of_write wrote, if_neg fun same => outside ⟨index, same.symm⟩]
    exact touches.data number outside
  · exact .refl area slot

/-- A page is written to the lowest free slot, or not at all if there is none. -/
theorem Fits.ends_swapOut (fits : area.Fits bound) (page : PageData) :
    (swapOut page area).Ends
      (fun slot after => area.slots.lowestFree? = some slot ∧ area.Touches after slot)
      (fun error after => error = .noSpace ∧ area.slots.lowestFree? = none ∧ after = area ∨
        error = .ioError ∧ ∃ slot, area.slots.lowestFree? = some slot ∧ area.Touches after slot)
      (fun fault => fault.isOverflow = false) := by
  simp only [swapOut, Action.ends_bind, Action.ends_get, Action.ends_require]
  refine ⟨fun allocation allocated => ?_, fun full => .inl ⟨trivial, ?_, trivial⟩⟩
  · obtain ⟨slot, lowest, rfl⟩ := Option.map_eq_some_iff.1 allocated
    have inside := (SlotMap.lowestFree?_eq_some_iff.1 lowest).1
    let marked : SwapArea := { area with slots := area.slots.mark slot true }
    have markedCount : marked.slots.size = area.slots.size := SlotMap.size_mark ..
    have markedTouches : area.Touches marked slot := .of_disk rfl rfl markedCount
    have markedFits : marked.Fits bound := fits.congr rfl markedCount
    simp only [Action.ends_set, Action.ends_attempt]
    refine (markedFits.ends_writeImage (markedCount ▸ inside) page).imp ?_ ?_
      (fun _ impossible => impossible.elim)
    · intro _ after touches
      exact ⟨lowest, markedTouches.trans touches⟩
    · rintro _ after ⟨rfl, touches⟩
      simp only [Action.ends_bind, Action.ends_fail]
      refine (ends_release_touches slot slot after).imp ?_ (fun _ _ impossible => impossible.elim)
        (fun _ stopped => stopped)
      intro _ freed released
      exact .inr ⟨trivial, slot, lowest, (markedTouches.trans touches).trans released.2⟩
  · exact Option.map_eq_none_iff.1 full

theorem Fits.ends_swapIn {transfer : Transfer SwapArea} (fits : transfer.store.Fits bound)
    (inside : slot < transfer.store.slots.size) :
    (swapIn slot transfer).Ends
      (fun _ after => after.store.disk = transfer.store.disk ∧
        transfer.store.Touches after.store slot)
      (fun error _ => error = .ioError) (fun fault => fault.isOverflow = false) := by
  obtain ⟨area, bytes⟩ := transfer
  simp only [swapIn, readImage, Action.ends_bind, Action.ends_get]
  split
  · rfl
  · simp only [Action.ends_bind, Action.ends_checked, Action.ends_get]
    refine Action.of_result_eq_ok (fits.baseSector_eq inside) ?_
    refine Outcome.Ends.imp (Action.ends_forM (fun _ transfer => transfer.store = area) ?_ rfl)
      (fun _ transfer same => ?_) (fun _ _ failed => failed) (fun _ impossible => impossible)
    case refine_2 =>
      simp only [Action.ends_onPart]
      refine (ends_release_touches slot slot transfer.store).imp ?_
        (fun _ _ impossible => impossible.elim) (fun _ stopped => stopped)
      intro _ freed released
      rw [← same]
      exact released
    · intro index rest transfer same
      obtain ⟨store, bytes⟩ := transfer
      cases same
      simp only [readSector, Action.ends_bind, Action.ends_checked, Action.ends_get,
        Action.ends_orFail, Action.ends_set]
      exact Action.of_result_eq_ok (fits.sector_add_eq inside index)
        ⟨fun _ _ => trivial, fun _ refused => Disk.eq_ioError_of_read refused⟩

/-! ## Sectors of no account -/

/-- Two swap areas with the same slots whose disks agree on some sectors. -/
structure AgreeOn (usable : Nat → Prop) (left right : SwapArea) : Prop where
  slots : left.slots = right.slots
  firstSector : left.firstSector = right.firstSector
  disk : left.disk.AgreeOn usable right.disk

namespace AgreeOn

variable (agree : left.AgreeOn usable right)

include agree

theorem endAlike_release (slot : Nat) :
    EndAlike (fun _ => AgreeOn usable) (fun _ => AgreeOn usable) (release slot left)
      (release slot right) := by
  obtain ⟨disk, slots, firstSector⟩ := left
  obtain ⟨twin, _, _⟩ := right
  obtain ⟨rfl, rfl, same⟩ := agree
  simp only [release, Action.bind_apply, Action.get]
  split
  · exact .done ⟨rfl, rfl, same⟩
  · exact .halted _

theorem baseSector_eq (slot : Nat) : left.baseSector slot = right.baseSector slot := by
  rw [baseSector, agree.firstSector, baseSector]

variable (slotUsable : ∀ number, left.HasSector slot number → usable number)

include slotUsable

theorem endAlike_writeImage (page : PageData) :
    EndAlike (fun _ => AgreeOn usable) (fun _ => AgreeOn usable) (writeImage slot page left)
      (writeImage slot page right) := by
  unfold writeImage
  simp only [Action.get_bind_apply]
  rw [← agree.baseSector_eq slot]
  refine Action.endAlike_bind (fun base state twin =>
    left.baseSector slot = .ok base ∧ state.AgreeOn usable twin) ?_ ?_
  · exact Action.endAlike_checked fun base located => ⟨located, agree⟩
  · rintro base state twin ⟨located, agreeNow⟩
    refine Action.endAlike_forM (fun _ => AgreeOn usable) ?_ agreeNow
    intro index rest state twin agreeNow
    refine Action.endAlike_bind (fun sector state twin =>
      base.add index.val = .ok sector ∧ state.AgreeOn usable twin) ?_ ?_
    · exact Action.endAlike_checked fun sector sectorAt => ⟨sectorAt, agreeNow⟩
    rintro sector state twin ⟨sectorAt, agreeNow⟩
    have use : usable sector.number := slotUsable _
      ⟨index, by rw [sector_add_eq_ok sectorAt, baseSector_eq_ok located]⟩
    simp only [Action.get_bind_apply]
    rcases agreeNow.disk.write use (page.sector index) with ⟨refused, refusedToo⟩ |
      ⟨wrote, wroteToo, atLeft, atRight, agreeAfter⟩
    · rw [refused, refusedToo]
      exact .failed agreeNow
    · rw [atLeft, atRight]
      exact .done ⟨agreeNow.slots, agreeNow.firstSector, agreeAfter⟩

/-- Two pages into which a slot is read are the same in the end, whatever they held before. -/
theorem endAlike_readImage (bytes other : PageData) :
    EndAlike (fun _ state twin => state.store = left ∧ twin.store = right ∧
        twin.bytes = state.bytes)
      (fun _ state twin => state.store = left ∧ twin.store = right)
      (readImage slot ⟨left, bytes⟩) (readImage slot ⟨right, other⟩) := by
  unfold readImage
  simp only [Action.get_bind_apply]
  rw [← agree.baseSector_eq slot]
  refine Action.endAlike_bind (fun base state twin => left.baseSector slot = .ok base ∧
    state.store = left ∧ twin.store = right) ?_ ?_
  · exact Action.endAlike_checked fun base located => ⟨located, rfl, rfl⟩
  rintro base state twin ⟨located, same, sameToo⟩
  -- The sectors that were read are the same in both pages.
  refine (Action.endAlike_forM (fun rest state twin => state.store = left ∧ twin.store = right ∧
    ∀ index, index ∉ rest → twin.bytes.sector index = state.bytes.sector index) ?_
    ⟨same, sameToo, fun index absent => absurd (List.mem_finRange index) absent⟩).imp
    (fun _ _ _ reached => ⟨reached.1, reached.2.1, PageData.ext_sector fun index =>
      reached.2.2 index List.not_mem_nil⟩) (fun _ _ _ failed => failed)
  rintro index rest ⟨area, page⟩ ⟨areaToo, pageToo⟩ ⟨rfl, rfl, read⟩
  refine Action.endAlike_bind (fun sector state twin => base.add index.val = .ok sector ∧
    state = ⟨area, page⟩ ∧ twin = ⟨areaToo, pageToo⟩) ?_ ?_
  · exact Action.endAlike_checked fun sector sectorAt => ⟨sectorAt, rfl, rfl⟩
  rintro sector _ _ ⟨sectorAt, rfl, rfl⟩
  have use : usable sector.number := slotUsable _
    ⟨index, by rw [sector_add_eq_ok sectorAt, baseSector_eq_ok located]⟩
  simp only [Action.get_bind_apply]
  rw [← agree.disk.read_eq use]
  cases area.disk.read sector with
  | error error => exact .failed ⟨rfl, rfl⟩
  | ok data =>
      refine .done ⟨rfl, rfl, fun place notLeft => ?_⟩
      by_cases here : place = index
      · subst here
        rw [PageData.sector_withSector, PageData.sector_withSector]
      · rw [PageData.sector_withSector_of_ne _ here, PageData.sector_withSector_of_ne _ here]
        exact read place (by simp [notLeft, here])

/-- Reading a slot back depends on its sectors only, and not on the page it is read into. -/
theorem endAlike_swapIn (bytes other : PageData) :
    EndAlike (fun _ state twin => state.store.AgreeOn usable twin.store ∧
        twin.bytes = state.bytes ∧ release slot left = .done () state.store ∧
        release slot right = .done () twin.store)
      (fun _ state twin => state.store = left ∧ twin.store = right)
      (swapIn slot ⟨left, bytes⟩) (swapIn slot ⟨right, other⟩) := by
  have sameSlots : right.isOccupied slot = left.isOccupied slot := by
    rw [isOccupied, isOccupied, agree.slots]
  unfold swapIn
  simp only [Action.get_bind_apply, sameSlots]
  split
  · exact .halted _
  · refine Action.endAlike_bind _ (agree.endAlike_readImage slotUsable bytes other) ?_
    rintro _ ⟨area, page⟩ ⟨areaToo, pageToo⟩ ⟨rfl, rfl, read⟩
    refine Action.endAlike_onPart ((agree.endAlike_release slot).and_self.imp ?_ ?_)
    · rintro _ freed freedToo ⟨agreeAfter, released, releasedToo⟩
      exact ⟨agreeAfter, read, released, releasedToo⟩
    · rintro error state twin ⟨-, failed, -⟩
      have ends := ends_release_touches slot slot area
      rw [failed] at ends
      exact ends.elim

omit slotUsable

/-- Writing a page out depends on the sectors of the slot only that it goes to. -/
theorem endAlike_swapOut (page : PageData)
    (lowestUsable : ∀ slot number, left.slots.lowestFree? = some slot →
      left.HasSector slot number → usable number) :
    EndAlike (fun _ => AgreeOn usable) (fun _ => AgreeOn usable) (swapOut page left)
      (swapOut page right) := by
  unfold swapOut
  simp only [Action.get_bind_apply, ← agree.slots]
  refine Action.endAlike_bind (fun allocation state twin =>
    left.slots.allocate = some allocation ∧ state = left ∧ twin = right) ?_ ?_
  · exact Action.endAlike_require (fun allocation allocated => ⟨allocated, rfl, rfl⟩)
      fun _ => agree
  rintro allocation area areaToo ⟨allocated, rfl, rfl⟩
  obtain ⟨slot, lowest, rfl⟩ := Option.map_eq_some_iff.1 allocated
  let start : SwapArea := { area with slots := area.slots.mark slot true }
  let startToo : SwapArea := { areaToo with slots := area.slots.mark slot true }
  have agreeStart : start.AgreeOn usable startToo := ⟨rfl, agree.firstSector, agree.disk⟩
  refine Action.endAlike_bind (fun _ state twin => state = start ∧ twin = startToo)
    (.done ⟨rfl, rfl⟩) ?_
  rintro _ _ _ ⟨rfl, rfl⟩
  refine Action.endAlike_bind (fun _ => AgreeOn usable) (Action.endAlike_attempt
    (agreeStart.endAlike_writeImage (fun number has => lowestUsable slot number lowest has) page))
    ?_
  intro result state twin agreeAfter
  cases result with
  | ok => exact .done agreeAfter
  | error error =>
      refine Action.endAlike_bind (fun _ => AgreeOn usable) (agreeAfter.endAlike_release slot) ?_
      intro _ freed freedToo agreeFreed
      exact .failed agreeFreed

end AgreeOn

end SwapArea

end DemandPaging
