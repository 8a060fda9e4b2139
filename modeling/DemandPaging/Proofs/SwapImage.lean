import DemandPaging.SwapArea
import DemandPaging.Proofs.Outcome

/-!
The page images in the slots of the swap area.

Owns:
- `SwapArea.image`, the page that the sectors of a slot hold;
- what writing a page out, reading one back and freeing a slot do to the images and to the slots
  that are taken, also when the disk fails at any sector.

Main statements: `ends_swapOut`, a page goes to a slot that was free and no other image changes;
`ends_swapIn`, a page comes back as its slot holds it; neither changes an image when it fails.
-/

namespace DemandPaging

def Disk.data (disk : Disk) (number : Nat) : SectorData :=
  disk.written.getD number Block.zero

theorem Disk.data_of_read {disk : Disk} {sector : Sector} {data : SectorData}
    (read : disk.read sector = .ok data) : disk.data sector.number = data := by
  unfold Disk.read Disk.stored at read
  split at read
  · cases read
  split at read
  · exact Except.ok.inj read
  · cases read

theorem Disk.data_of_write {disk after : Disk} {sector : Sector} {data : SectorData}
    (wrote : disk.write sector data = .ok after) (number : Nat) :
    after.data number = if sector.number = number then data else disk.data number := by
  unfold Disk.write at wrote
  split at wrote
  · cases wrote
  split at wrote
  · cases wrote
    unfold Disk.data
    rw [Std.ExtTreeMap.getD_insert]
    simp
  · cases wrote

theorem PageData.ext_sector {left right : PageData}
    (same : ∀ index, left.sector index = right.sector index) : left = right := by
  ext position inPage
  have inPage' : position < 4096 := inPage
  let index : Fin sectorsPerPage := ⟨position / sectorSize, by
    simp only [sectorSize, sectorsPerPage]; omega⟩
  have inSector : position % sectorSize < sectorSize := Nat.mod_lt _ (by decide)
  have whole : index.val * sectorSize + position % sectorSize = position :=
    Nat.div_add_mod' position sectorSize
  have left' := PageData.getElem_sector left index inSector (by rw [whole]; exact inPage)
  have right' := PageData.getElem_sector right index inSector (by rw [whole]; exact inPage)
  simp only [whole] at left' right'
  rw [← left', ← right', same index]

namespace SwapArea

/-- The page that the sectors of a slot hold. -/
def image (area : SwapArea) (slot : Nat) : PageData :=
  Vector.ofFn fun position =>
    have inSector : position.val % sectorSize < sectorSize := Nat.mod_lt _ (by decide)
    (area.disk.data (area.firstSector.number + slot * sectorsPerPage +
      position.val / sectorSize))[position.val % sectorSize]

theorem sector_image (area : SwapArea) (slot : Nat) (index : Fin sectorsPerPage) :
    (area.image slot).sector index =
      area.disk.data (area.firstSector.number + slot * sectorsPerPage + index.val) := by
  ext byte inSector
  have small := index.isLt
  have small' : byte < 512 := inSector
  have sector : (index.val * 512 + byte) / 512 = index.val := by omega
  have position : (index.val * 512 + byte) % 512 = byte := by omega
  rw [PageData.getElem_sector _ _ inSector (by
    simp only [sectorsPerPage, sectorSize, pageSize] at *; omega)]
  simp [image, sectorSize, sector, position]

/-- What every operation leaves alone: the layout, and the image in every slot that was taken. -/
structure Keeps (before after : SwapArea) : Prop where
  firstSector : after.firstSector = before.firstSector
  slotCount : after.slots.size = before.slots.size
  image : ∀ slot, before.isOccupied slot = true → after.image slot = before.image slot

theorem Keeps.refl (area : SwapArea) : area.Keeps area := ⟨rfl, rfl, fun _ _ => rfl⟩

theorem Keeps.of_eq {before after : SwapArea} (same : after = before) : before.Keeps after := by
  rw [same]
  exact .refl before

/-- Sectors outside the slot that is written or read are not touched. -/
theorem image_eq_of_data {before after : SwapArea} {slot other : Nat}
    (firstSector : after.firstSector = before.firstSector) (different : slot ≠ other)
    (elsewhere : ∀ number,
      (∀ index : Fin sectorsPerPage,
        number ≠ before.firstSector.number + slot * sectorsPerPage + index.val) →
      after.disk.data number = before.disk.data number) :
    after.image other = before.image other := by
  apply PageData.ext_sector
  intro index
  rw [sector_image, sector_image, firstSector]
  apply elsewhere
  -- Slots are as far apart as they are long, so no sector lies in two of them.
  intro written same
  have small := index.isLt
  have small' := written.isLt
  simp only [sectorsPerPage] at *
  omega

theorem baseSector_eq_ok {area : SwapArea} {slot : Nat} {base : Sector}
    (located : area.baseSector slot = .ok base) :
    base.number = area.firstSector.number + slot * sectorsPerPage := by
  unfold baseSector Word.mul Sector.add Word.add at located
  simp only [bind, Except.bind, Except.map] at located
  split at located
  · cases located
  case h_2 distance product =>
    split at product
    · cases product
      split at located
      · cases located
      case h_2 sum total =>
        split at total
        · cases total; cases located; rfl
        · cases total
    · cases product

theorem sector_add_eq_ok {base sector : Sector} {count : Nat}
    (located : base.add count = .ok sector) : sector.number = base.number + count := by
  unfold Sector.add Word.add at located
  split at located
  · cases located; rfl
  · cases located

/-! ## Freeing a slot -/

/-- Freeing a slot that is taken changes nothing else. -/
theorem ends_release {area : SwapArea} {slot : Nat} (occupied : area.isOccupied slot = true) :
    (release slot area).Ends
      (fun _ after => after.disk = area.disk ∧ area.Keeps after ∧
        ∀ other, after.isOccupied other = (!decide (slot = other) && area.isOccupied other))
      (fun _ _ => False) (fun _ => False) := by
  have taken : area.slots.isTaken slot = true := occupied
  have inside := SlotMap.lt_size_of_isTaken taken
  have freed : area.slots.release slot = (true, area.slots.mark slot false) := if_pos taken
  simp only [release, Action.ends_bind, Action.ends_get, freed, if_true, Action.ends_set]
  refine ⟨trivial, ⟨rfl, SlotMap.size_mark .., fun _ _ => rfl⟩, fun other => ?_⟩
  unfold isOccupied
  rw [SlotMap.isTaken_mark]
  by_cases same : slot = other
  · subst same; simp [inside]
  · simp [same]

/-! ## Writing a page out -/

/-- The sectors of a slot while a page is written to it: those that are done hold the page. -/
private structure Writing (slot : Nat) (page : PageData) (start : SwapArea)
    (rest : List (Fin sectorsPerPage)) (area : SwapArea) : Prop where
  slots : area.slots = start.slots
  firstSector : area.firstSector = start.firstSector
  written : ∀ index : Fin sectorsPerPage, index ∉ rest →
    area.disk.data (start.firstSector.number + slot * sectorsPerPage + index.val) =
      page.sector index
  elsewhere : ∀ number,
    (∀ index : Fin sectorsPerPage,
      number ≠ start.firstSector.number + slot * sectorsPerPage + index.val) →
    area.disk.data number = start.disk.data number

private theorem Writing.keeps {slot : Nat} {page : PageData} {start area : SwapArea}
    {rest : List (Fin sectorsPerPage)} (writing : Writing slot page start rest area)
    {before : SwapArea} (free : before.isOccupied slot = false)
    (disk : start.disk = before.disk) (firstSector : start.firstSector = before.firstSector)
    (size : start.slots.size = before.slots.size) : before.Keeps area := by
  refine ⟨writing.firstSector.trans firstSector, by rw [writing.slots, size],
    fun other occupied => ?_⟩
  have different : slot ≠ other := by
    intro same
    rw [same, occupied] at free
    cases free
  refine image_eq_of_data (writing.firstSector.trans firstSector) different fun number apart => ?_
  rw [← disk]
  exact writing.elsewhere number (by rwa [firstSector])

private theorem ends_writeImage (slot : Nat) (page : PageData) (start : SwapArea) :
    (writeImage slot page start).Ends (fun _ area => Writing slot page start [] area)
      (fun _ area => ∃ rest, Writing slot page start rest area)
      (fun fault => ∃ operation, fault = .overflow operation) := by
  simp only [writeImage, Action.ends_bind, Action.ends_get, Action.ends_checked]
  refine ⟨fun base located => ?_, fun operation _ => ⟨operation, rfl⟩⟩
  have baseAt := baseSector_eq_ok located
  apply Action.ends_forM (Writing slot page start)
  · intro index rest area writing
    simp only [writeSector, Action.ends_bind, Action.ends_checked, Action.ends_get,
      Action.ends_orFail, Action.ends_set]
    refine ⟨fun sector sectorAt => ⟨fun disk wrote => ?_, fun _ _ => ⟨_, writing⟩⟩,
      fun operation _ => ⟨operation, rfl⟩⟩
    have number : sector.number =
        start.firstSector.number + slot * sectorsPerPage + index.val := by
      rw [sector_add_eq_ok sectorAt, baseAt]
    refine ⟨writing.slots, writing.firstSector, fun other notLeft => ?_, fun other apart => ?_⟩
    · rw [Disk.data_of_write wrote, number]
      by_cases same : index = other
      · rw [if_pos (by rw [same]), same]
      · rw [if_neg (by intro equal; exact same (Fin.ext (by omega)))]
        exact writing.written other (by simp [notLeft, Ne.symm same])
    · rw [Disk.data_of_write wrote, number, if_neg (fun equal => apart index equal.symm)]
      exact writing.elsewhere other apart
  · exact ⟨rfl, rfl, fun index absent => absurd (List.mem_finRange index) absent,
      fun _ _ => rfl⟩

/-- A page goes to a slot that was free; no other image and no other slot changes. If it cannot be
written, the same slots are taken as before, with the same images. -/
theorem ends_swapOut (page : PageData) (area : SwapArea) :
    (swapOut page area).Ends
      (fun slot after => area.Keeps after ∧ after.image slot = page ∧
        area.isOccupied slot = false ∧
        ∀ other, after.isOccupied other = (decide (slot = other) || area.isOccupied other))
      (fun _ after => area.Keeps after ∧ ∀ other, after.isOccupied other = area.isOccupied other)
      (fun fault => ∃ operation, fault = .overflow operation) := by
  simp only [swapOut, Action.ends_bind, Action.ends_get, Action.ends_require]
  refine ⟨?_, fun _ => ⟨Keeps.refl area, fun _ => trivial⟩⟩
  intro allocation allocated
  obtain ⟨lowest, slotFree, same⟩ := Option.map_eq_some_iff.1 allocated
  subst same
  obtain ⟨inside, free, -⟩ := SlotMap.lowestFree?_eq_some_iff.1 slotFree
  have occupied : ∀ other, (area.slots.mark lowest true).isTaken other =
      (decide (lowest = other) || area.isOccupied other) := by
    intro other
    rw [SlotMap.isTaken_mark]
    by_cases same : lowest = other
    · subst same; simp [inside]
    · simp [same, isOccupied]
  simp only [Action.ends_set, Action.ends_attempt]
  refine (ends_writeImage lowest page _).imp ?_ ?_ fun _ stopped => stopped
  · intro _ after writing
    refine ⟨writing.keeps free rfl rfl (SlotMap.size_mark ..), ?_, free, fun other => ?_⟩
    · apply PageData.ext_sector
      intro index
      rw [sector_image, writing.firstSector]
      exact writing.written index List.not_mem_nil
    · rw [isOccupied, writing.slots]
      exact occupied other
  · intro error after failed
    obtain ⟨rest, writing⟩ := failed
    have taken : after.isOccupied lowest = true := by
      rw [isOccupied, writing.slots]
      simpa using occupied lowest
    have keeps := writing.keeps free rfl rfl (SlotMap.size_mark ..)
    simp only [Action.ends_bind, Action.ends_fail]
    refine (ends_release taken).imp ?_ (fun _ _ impossible => impossible.elim)
      (fun _ impossible => impossible.elim)
    intro _ freed released
    obtain ⟨-, kept, slotsAfter⟩ := released
    refine ⟨⟨kept.firstSector.trans keeps.firstSector, kept.slotCount.trans keeps.slotCount,
      fun other isTaken => ?_⟩, fun other => ?_⟩
    · have takenAfter : after.isOccupied other = true := by
        rw [isOccupied, writing.slots]
        exact (occupied other).trans (by simp [isTaken])
      rw [kept.image other takenAfter, keeps.image other isTaken]
    · rw [slotsAfter, isOccupied, writing.slots, occupied]
      by_cases same : lowest = other
      · subst same; simpa [isOccupied] using free
      · simp [same]

/-! ## Reading a page back -/

/-- The page while a slot is read: the sectors that are done are those of the image. -/
private structure Reading (slot : Nat) (area : SwapArea) (rest : List (Fin sectorsPerPage))
    (transfer : Transfer SwapArea) : Prop where
  same : transfer.store = area
  read : ∀ index : Fin sectorsPerPage, index ∉ rest →
    transfer.bytes.sector index = (area.image slot).sector index

private theorem ends_readImage (slot : Nat) (area : SwapArea) (bytes : PageData) :
    (readImage slot ⟨area, bytes⟩).Ends (fun _ after => Reading slot area [] after)
      (fun _ after => after.store = area)
      (fun fault => ∃ operation, fault = .overflow operation) := by
  simp only [readImage, Action.ends_bind, Action.ends_get, Action.ends_checked]
  refine ⟨fun base located => ?_, fun operation _ => ⟨operation, rfl⟩⟩
  have baseAt := baseSector_eq_ok located
  apply Action.ends_forM (Reading slot area)
  · intro index rest transfer reading
    obtain ⟨store, page⟩ := transfer
    have same : store = area := reading.same
    subst same
    simp only [readSector, Action.ends_bind, Action.ends_checked, Action.ends_get,
      Action.ends_orFail, Action.ends_set]
    refine ⟨fun sector sectorAt => ⟨fun data got => ⟨rfl, fun other notLeft => ?_⟩,
      fun _ _ => trivial⟩, fun operation _ => ⟨operation, rfl⟩⟩
    by_cases here : other = index
    · subst here
      rw [PageData.sector_withSector, sector_image, ← Disk.data_of_read got,
        sector_add_eq_ok sectorAt, baseAt]
    · rw [PageData.sector_withSector_of_ne _ here]
      exact reading.read other (by simp [notLeft, here])
  · exact ⟨rfl, fun index absent => absurd (List.mem_finRange index) absent⟩

/-- A page comes back as its slot holds it, and the slot is free. If the disk fails, the slot keeps
its image. -/
theorem ends_swapIn {slot : Nat} {transfer : Transfer SwapArea}
    (occupied : transfer.store.isOccupied slot = true) :
    (swapIn slot transfer).Ends
      (fun _ after => after.bytes = transfer.store.image slot ∧
        transfer.store.Keeps after.store ∧
        ∀ other, after.store.isOccupied other =
          (!decide (slot = other) && transfer.store.isOccupied other))
      (fun _ after => after.store = transfer.store)
      (fun fault => ∃ operation, fault = .overflow operation) := by
  obtain ⟨area, bytes⟩ := transfer
  have taken : area.isOccupied slot = true := occupied
  simp only [swapIn, Action.ends_bind, Action.ends_get, taken, Bool.not_true, Bool.false_eq_true,
    if_false]
  refine (ends_readImage slot area bytes).imp ?_ (fun _ _ failed => failed)
    (fun _ stopped => stopped)
  intro _ after reading
  obtain ⟨store, page⟩ := after
  have same : store = area := reading.same
  subst same
  simp only [Action.ends_onPart]
  refine (ends_release taken).imp ?_ (fun _ _ impossible => impossible.elim)
    (fun _ impossible => impossible.elim)
  intro _ freed released
  obtain ⟨-, keeps, slotsAfter⟩ := released
  exact ⟨PageData.ext_sector fun index => reading.read index List.not_mem_nil, keeps, slotsAfter⟩

end SwapArea

end DemandPaging
