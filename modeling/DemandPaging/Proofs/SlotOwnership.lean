import DemandPaging.Proofs.Reachable
import DemandPaging.Proofs.SlotSet

/-!
Slots of the swap area between two events.

Owns:
- the pages that are swapped out, over all processes, and that there are as many of them as slots
  are taken;
- where pages of every kind are, in every reachable state;
- the faults by which the machine would show that slots and pages disagree, and that no event ends
  with one of them.

Does not own: why single steps keep slots and pages in agreement (`Step.slotsOwned`).

Main statement: `Reachable.slots_owned`.
-/

namespace DemandPaging

/-- A page is swapped out: it is an anonymous page that was touched and is not in memory. -/
def Page.isSwappedOut (page : Page) : Bool :=
  page.kind == .anonymous && !page.isUntouched && !page.isResident

/-- The machine stopped because a page and the swap area disagree about a slot. -/
def Fault.IsSlotFault (fault : Fault) : Prop :=
  (∃ page, fault = .imageMissing page) ∨ (∃ slot, fault = .slotEmpty slot) ∨
    (∃ slot, fault = .slotReleasedTwice slot) ∨ ∃ page, fault = .untouchedResident page

theorem Fault.IsSlotFault.isCorruption {fault : Fault} (slotFault : fault.IsSlotFault) :
    fault.isCorruption = true := by
  rcases slotFault with ⟨_, rfl⟩ | ⟨_, rfl⟩ | ⟨_, rfl⟩ | ⟨_, rfl⟩ <;> rfl

namespace Page

variable {page : Page}

/-- A page that is where it belongs records a slot exactly when it is swapped out. -/
theorem Placed.slot?_isSome (placed : page.Placed) : page.slot?.isSome = page.isSwappedOut := by
  unfold Placed at placed
  unfold slot? isSwappedOut kind isUntouched isResident
  match backed : page.backing with
  | .untouched (.anonymous _) | .untouched (.file _) | .file _ =>
      simp [Backing.slot?, Backing.kind, Backing.isUntouched]
  | .anonymous none =>
      rw [backed] at placed
      simp [Backing.slot?, Backing.kind, Backing.isUntouched, placed]
  | .anonymous (some slot) =>
      rw [backed] at placed
      simp [Backing.slot?, Backing.kind, Backing.isUntouched, placed]

end Page

namespace Machine

variable {machine : Machine}

def pages (machine : Machine) : List Page :=
  machine.spaces.toList.flatMap fun entry => entry.2.pages.toList

def swappedOut (machine : Machine) : List Page := machine.pages.filter Page.isSwappedOut

theorem mem_pages_iff {page : Page} :
    page ∈ machine.pages ↔ ∃ pid address, machine.page? pid address = some page := by
  unfold pages
  rw [List.mem_flatMap]
  constructor
  · intro listed
    obtain ⟨⟨pid, space⟩, known, member⟩ := listed
    have found := Std.ExtTreeMap.mem_toList_iff_getElem?_eq_some.1 known
    obtain ⟨address, registered⟩ := PageRegistry.mem_toList_iff.1 member
    exact ⟨pid, address, (page?_of_space found address).trans registered⟩
  · intro known
    obtain ⟨pid, address, registered⟩ := known
    obtain ⟨space, found, atAddress⟩ := space_of_page? registered
    exact ⟨(pid, space), Std.ExtTreeMap.mem_toList_iff_getElem?_eq_some.2 found,
      PageRegistry.mem_toList_iff.2 ⟨address, atAddress⟩⟩

theorem SlotsOwned.nodup_slots (owned : machine.SlotsOwned) :
    (machine.pages.filterMap Page.slot?).Nodup := by
  have apart {pid other : Pid} {address place : VirtAddr} {page another : Page}
      (registered : machine.page? pid address = some page)
      (also : machine.page? other place = some another)
      (different : pid ≠ other ∨ address ≠ place) :
      ∀ slot, page.slot? = some slot → ∀ same, another.slot? = some same → slot ≠ same := by
    intro slot recorded same recordedToo equal
    subst equal
    have here : machine.slot? pid address = some slot := by rw [slot?, registered]; exact recorded
    have there : machine.slot? other place = some slot := by rw [slot?, also]; exact recordedToo
    obtain ⟨samePid, sameAddress⟩ := owned.distinct slot pid address other place here there
    rcases different with differs | differs
    · exact differs samePid
    · exact differs sameAddress
  -- Two pages of one process differ by their addresses, and others by their processes.
  rw [List.Nodup, List.pairwise_filterMap, pages, List.pairwise_flatMap]
  constructor
  · intro entry known
    have found := Std.ExtTreeMap.mem_toList_iff_getElem?_eq_some.1 known
    rw [PageRegistry.toList, List.pairwise_map]
    refine Std.ExtTreeMap.distinct_keys_toList.imp_of_mem ?_
    intro left right inLeft inRight differ
    have atLeft := Std.ExtTreeMap.mem_toList_iff_getElem?_eq_some.1 inLeft
    have atRight := Std.ExtTreeMap.mem_toList_iff_getElem?_eq_some.1 inRight
    refine apart ((page?_of_space found left.1).trans atLeft)
      ((page?_of_space found right.1).trans atRight) (.inr ?_)
    intro same
    exact differ (by rw [same]; exact Std.ReflCmp.compare_self)
  · refine Std.ExtTreeMap.distinct_keys_toList.imp_of_mem ?_
    intro left right inLeft inRight differ page member another memberToo
    have foundLeft := Std.ExtTreeMap.mem_toList_iff_getElem?_eq_some.1 inLeft
    have foundRight := Std.ExtTreeMap.mem_toList_iff_getElem?_eq_some.1 inRight
    obtain ⟨address, atAddress⟩ := PageRegistry.mem_toList_iff.1 member
    obtain ⟨place, atPlace⟩ := PageRegistry.mem_toList_iff.1 memberToo
    refine apart ((page?_of_space foundLeft address).trans atAddress)
      ((page?_of_space foundRight place).trans atPlace) (.inl ?_)
    intro same
    exact differ (by rw [same]; exact Std.ReflCmp.compare_self)

theorem SlotsOwned.usedSwapSlots_eq (owned : machine.SlotsOwned) :
    machine.usedSwapSlots = machine.swappedOut.length := by
  have listed : (machine.pages.filterMap Page.slot?).Perm machine.store.swap.slots.takenSlots := by
    rw [List.perm_ext_iff_of_nodup owned.nodup_slots (SlotMap.nodup_takenSlots _)]
    intro slot
    rw [SlotMap.mem_takenSlots, List.mem_filterMap]
    have occupied := owned.occupied_iff slot
    rw [SwapArea.isOccupied] at occupied
    rw [occupied]
    constructor
    · intro recorded
      obtain ⟨page, member, atPage⟩ := recorded
      obtain ⟨pid, address, registered⟩ := mem_pages_iff.1 member
      refine ⟨pid, address, ?_⟩
      rw [slot?, registered]
      exact atPage
    · intro recorded
      obtain ⟨pid, address, atAddress⟩ := recorded
      obtain ⟨page, registered, atPage⟩ := Option.bind_eq_some_iff.1 atAddress
      exact ⟨page, mem_pages_iff.2 ⟨pid, address, registered⟩, atPage⟩
  have placed : ∀ page ∈ machine.pages, page.slot?.isSome = page.isSwappedOut := by
    intro page member
    obtain ⟨pid, address, registered⟩ := mem_pages_iff.1 member
    exact (owned.placed pid address page registered).slot?_isSome
  calc machine.usedSwapSlots
      = machine.store.swap.slots.takenSlots.length := (SlotMap.length_takenSlots _).symm
    _ = (machine.pages.filterMap Page.slot?).length := listed.length_eq.symm
    _ = machine.pages.countP fun page => page.slot?.isSome := List.length_filterMap_eq_countP
    _ = machine.pages.countP Page.isSwappedOut := by
        apply List.countP_congr
        intro page member
        rw [placed page member]
    _ = machine.swappedOut.length := List.countP_eq_length_filter

/-- Between two events an anonymous page that was touched is in a frame or in a slot, and not in
both; a page that was never touched is in neither, and a file page in no slot. No slot is recorded
twice, the slots that are taken are those that are recorded, and there are as many as pages are
swapped out. So no event stops the machine because a page and the swap area disagree. -/
theorem Reachable.slots_owned (reachable : machine.Reachable) :
    (∀ pid address page, machine.page? pid address = some page →
      (page.kind = .anonymous → page.isUntouched = false →
        (page.frame.isSome = true ↔ page.slot? = none)) ∧
      (page.isUntouched = true → page.frame = none ∧ page.slot? = none) ∧
      (page.kind = .file → page.slot? = none)) ∧
    (∀ slot pid address other place, machine.slot? pid address = some slot →
      machine.slot? other place = some slot → pid = other ∧ address = place) ∧
    (∀ slot, machine.store.swap.isOccupied slot = true ↔
      ∃ pid address, machine.slot? pid address = some slot) ∧
    machine.usedSwapSlots = machine.swappedOut.length ∧
    ∀ event fault, Event.perform event machine = .halted fault → ¬fault.IsSlotFault := by
  have owned := reachable.sound.slots
  refine ⟨fun pid address page registered => ?_, owned.distinct, owned.occupied_iff,
    owned.usedSwapSlots_eq, fun event fault stopped slotFault => ?_⟩
  · have placed := owned.placed pid address page registered
    unfold Page.Placed at placed
    unfold Page.kind Page.isUntouched Page.slot?
    match backed : page.backing with
    | .untouched (.anonymous _) | .untouched (.file _) =>
        rw [backed] at placed
        simp [Backing.slot?, Backing.isUntouched, placed]
    | .file _ => simp [Backing.slot?, Backing.kind, Backing.isUntouched]
    | .anonymous none =>
        rw [backed] at placed
        simp [Backing.slot?, Backing.kind, Backing.isUntouched, placed]
    | .anonymous (some slot) =>
        rw [backed] at placed
        simp [Backing.slot?, Backing.kind, Backing.isUntouched, placed]
  · have ends := event.ends_perform reachable.sound reachable.mappingsWhole
    rw [stopped] at ends
    have notCorruption : fault.isCorruption = false := ends
    rw [slotFault.isCorruption] at notCorruption
    cases notCorruption

/-- The page that was driven out of the crowded machine has the only slot that is taken. -/
theorem slots_owned_crowded :
    ∃ machine, tiny.after? crowding = some machine ∧
      (machine.slot? ⟨1⟩ firstPage).isSome = true ∧ machine.swappedOut.length = 1 := by
  have stored : ((tiny.after? crowding).map fun machine =>
      (machine.usedSwapSlots, (machine.slot? ⟨1⟩ firstPage).isSome)) = some (1, true) := by
    decide +kernel
  obtain ⟨machine, run, state⟩ := Option.map_eq_some_iff.1 stored
  have used := (reachable_tiny.of_after? run).slots_owned.2.2.2.1
  obtain ⟨usedOne, recorded⟩ := Prod.mk.injEq .. ▸ state
  exact ⟨machine, run, recorded, used.symm.trans usedOne⟩

end Machine

end DemandPaging
