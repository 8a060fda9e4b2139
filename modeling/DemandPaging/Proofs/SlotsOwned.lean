import DemandPaging.Proofs.PageChange

/-!
Which page every slot of the swap area belongs to.

Owns:
- `Page.Placed`, where a page of each kind may be;
- `Machine.SlotsOwned`, the agreement between the slots that are taken and those that pages record;
- `Machine.Sound`, all that the records of frames, slots, pages and mappings agree on, and its
  preservation by every step.

Main statements: `Step.sound` and `Path.sound`.
-/

namespace DemandPaging

/-- An untouched page is nowhere, and an anonymous page is in a frame or in a slot. -/
def Page.Placed (page : Page) : Prop :=
  match page.backing with
  | .untouched _ => page.frame = none
  | .anonymous none => page.frame.isSome = true
  | .anonymous (some _) => page.frame = none
  | .file _ => True

theorem Page.Placed.frame_eq_none {page : Page} (placed : page.Placed)
    (untouched : page.isUntouched = true) : page.frame = none := by
  unfold Page.Placed at placed
  unfold Page.isUntouched at untouched
  match backed : page.backing with
  | .untouched _ =>
      rw [backed] at placed
      exact placed
  | .anonymous _ | .file _ =>
      rw [backed] at untouched
      cases untouched

theorem Backing.slot?_of_not_anonymous {backing : Backing}
    (notAnonymous : ∀ slot?, backing ≠ .anonymous slot?) :
    backing.touched.slot? = none ∧ backing.slot? = none := by
  match backing with
  | .untouched (.anonymous _) | .untouched (.file _) | .file _ => exact ⟨rfl, rfl⟩
  | .anonymous slot? => exact absurd rfl (notAnonymous slot?)

/-- A page that had no image belongs in the frame in which it was touched. -/
theorem Page.placed_touched {page : Page} {frame : PhysAddr}
    (notAnonymous : ∀ slot?, page.backing ≠ .anonymous slot?) :
    ({ page with backing := page.backing.touched, frame := some frame } : Page).Placed := by
  unfold Page.Placed
  match backed : page.backing with
  | .untouched (.anonymous _) => rfl
  | .untouched (.file _) | .file _ => trivial
  | .anonymous slot? => exact absurd backed (notAnonymous slot?)

namespace Machine

/-- The records of slots agree: every slot that is taken is recorded by one page. -/
structure SlotsOwned (machine : Machine) : Prop where
  placed : ∀ pid address page, machine.page? pid address = some page → page.Placed
  occupied_iff : ∀ slot,
    machine.store.swap.isOccupied slot = true ↔ ∃ pid address, machine.slot? pid address = some slot
  distinct : ∀ slot pid address other place, machine.slot? pid address = some slot →
    machine.slot? other place = some slot → pid = other ∧ address = place

theorem SlotsOwned.isOccupied_of_recorded {machine : Machine} {pid : Pid} {address : VirtAddr}
    {page : Page} {slot : Nat} (owned : machine.SlotsOwned)
    (registered : machine.page? pid address = some page) (recorded : page.slot? = some slot) :
    machine.store.swap.isOccupied slot = true := by
  rw [owned.occupied_iff]
  refine ⟨pid, address, ?_⟩
  rw [slot?, registered]
  exact recorded

/-- Every page of a mapping belongs to one that was made. -/
def MappingsKnown (machine : Machine) : Prop :=
  ∀ pid address page mapping, machine.page? pid address = some page →
    page.mapping? = some mapping → machine.store.Knows mapping

/-- No two mappings have the same number, and the pages of a mapping are those of one process. -/
def MappingsApart (machine : Machine) : Prop :=
  ∀ pid address other place left right, machine.mapping? pid address = some left →
    machine.mapping? other place = some right → left.id = right.id → pid = other ∧ left = right

/-- All records agree. -/
structure Sound (machine : Machine) : Prop where
  frames : machine.FramesOwned
  slots : machine.SlotsOwned
  mappings : machine.MappingsKnown
  apart : machine.MappingsApart

variable {before after : Machine} {pid : Pid} {space changed : AddressSpace} {page : Page}
  {slot : Nat} {address : VirtAddr}

theorem Sound.lt_nextMapping {mapping : Mapping} (sound : before.Sound)
    (mapped : before.mapping? pid address = some mapping) :
    mapping.id < before.store.nextMapping := by
  obtain ⟨page, registered, belongs⟩ := Option.bind_eq_some_iff.1 mapped
  exact (sound.mappings pid address page mapping registered belongs).id

/-! ## Changes of one kind -/

/-- A change of one page, to one that fits, keeps what is known of every page. -/
theorem forall_page?_update {condition : Page → Prop}
    (holds : ∀ pid address page, before.page? pid address = some page → condition page)
    (found : before.spaces[pid]? = some space)
    (spaces : after.spaces = before.spaces.insert pid changed)
    (pages : changed.pages = space.pages.put page) (fits : condition page)
    (other : Pid) (place : VirtAddr) (registered : Page)
    (foundAfter : after.page? other place = some registered) : condition registered := by
  rw [page?_update found spaces pages] at foundAfter
  split at foundAfter
  · cases foundAfter; exact fits
  · exact holds other place registered foundAfter

theorem forall_page?_erased {condition : Page → Prop} {removed : VirtAddr}
    (holds : ∀ pid address page, before.page? pid address = some page → condition page)
    (found : before.spaces[pid]? = some space)
    (spaces : after.spaces = before.spaces.insert pid changed)
    (pages : changed.pages = space.pages.erase removed)
    (other : Pid) (place : VirtAddr) (registered : Page)
    (foundAfter : after.page? other place = some registered) : condition registered := by
  rw [page?_erased found spaces pages] at foundAfter
  split at foundAfter
  · cases foundAfter
  · exact holds other place registered foundAfter

/-- A change that neither takes nor frees a slot. -/
theorem SlotsOwned.of_slots (owned : before.SlotsOwned)
    (placed : ∀ pid address page, after.page? pid address = some page → page.Placed)
    (occupied : ∀ slot, after.store.swap.isOccupied slot = before.store.swap.isOccupied slot)
    (slots : ∀ pid address, after.slot? pid address = before.slot? pid address) :
    after.SlotsOwned where
  placed := placed
  occupied_iff slot := by
    rw [occupied, owned.occupied_iff]
    simp only [slots]
  distinct slot pid address other place := by
    rw [slots, slots]
    exact owned.distinct slot pid address other place

theorem SlotsOwned.of_pages (owned : before.SlotsOwned)
    (pages : ∀ pid address, after.page? pid address = before.page? pid address)
    (occupied : ∀ slot, after.store.swap.isOccupied slot = before.store.swap.isOccupied slot) :
    after.SlotsOwned := by
  refine owned.of_slots (fun pid address page registered => ?_) occupied fun pid address => ?_
  · rw [pages] at registered
    exact owned.placed pid address page registered
  · rw [slot?, pages, slot?]

/-- A page takes a slot that was free. -/
theorem SlotsOwned.record (owned : before.SlotsOwned)
    (placed : ∀ pid address page, after.page? pid address = some page → page.Placed)
    (free : before.store.swap.isOccupied slot = false)
    (unrecorded : before.slot? pid address = none)
    (occupied : ∀ other, after.store.swap.isOccupied other =
      (decide (slot = other) || before.store.swap.isOccupied other))
    (slots : ∀ other place, after.slot? other place =
      if pid = other ∧ address = place then some slot else before.slot? other place) :
    after.SlotsOwned where
  placed := placed
  occupied_iff candidate := by
    rw [occupied, Bool.or_eq_true, decide_eq_true_iff, owned.occupied_iff]
    constructor
    · intro known
      rcases known with rfl | ⟨other, place, recorded⟩
      · exact ⟨pid, address, by rw [slots, if_pos ⟨rfl, rfl⟩]⟩
      · refine ⟨other, place, ?_⟩
        rw [slots, if_neg]
        · exact recorded
        · intro same
          obtain ⟨rfl, rfl⟩ := same
          rw [unrecorded] at recorded
          cases recorded
    · intro known
      obtain ⟨other, place, recorded⟩ := known
      rw [slots] at recorded
      split at recorded
      · exact .inl (Option.some.inj recorded)
      · exact .inr ⟨other, place, recorded⟩
  distinct candidate left leftPlace right rightPlace := by
    have fresh (other : Pid) (place : VirtAddr) : before.slot? other place ≠ some slot := by
      intro recorded
      have taken := (owned.occupied_iff slot).2 ⟨other, place, recorded⟩
      rw [free] at taken
      cases taken
    rw [slots, slots]
    intro leftRecorded rightRecorded
    split at leftRecorded
    case isTrue leftHere =>
      cases leftRecorded
      split at rightRecorded
      case isTrue rightHere =>
        exact ⟨leftHere.1 ▸ rightHere.1, leftHere.2 ▸ rightHere.2⟩
      case isFalse => exact absurd rightRecorded (fresh right rightPlace)
    case isFalse =>
      split at rightRecorded
      case isTrue =>
        cases rightRecorded
        exact absurd leftRecorded (fresh left leftPlace)
      case isFalse => exact owned.distinct _ _ _ _ _ leftRecorded rightRecorded

theorem SlotsOwned.strike (owned : before.SlotsOwned)
    (placed : ∀ pid address page, after.page? pid address = some page → page.Placed)
    (recorded : before.slot? pid address = some slot)
    (occupied : ∀ other, after.store.swap.isOccupied other =
      (!decide (slot = other) && before.store.swap.isOccupied other))
    (slots : ∀ other place, after.slot? other place =
      if pid = other ∧ address = place then none else before.slot? other place) :
    after.SlotsOwned where
  placed := placed
  occupied_iff candidate := by
    rw [occupied, Bool.and_eq_true, Bool.not_eq_true', decide_eq_false_iff_not,
      owned.occupied_iff]
    constructor
    · intro known
      obtain ⟨different, other, place, found⟩ := known
      refine ⟨other, place, ?_⟩
      rw [slots, if_neg]
      · exact found
      · intro same
        obtain ⟨rfl, rfl⟩ := same
        rw [recorded] at found
        exact different (Option.some.inj found)
    · intro known
      obtain ⟨other, place, found⟩ := known
      rw [slots] at found
      split at found
      · cases found
      case isFalse elsewhere =>
        refine ⟨?_, other, place, found⟩
        intro same
        subst same
        exact elsewhere (owned.distinct _ _ _ _ _ recorded found)
  distinct candidate left leftPlace right rightPlace := by
    rw [slots, slots]
    intro leftRecorded rightRecorded
    split at leftRecorded
    · cases leftRecorded
    · split at rightRecorded
      · cases rightRecorded
      · exact owned.distinct _ _ _ _ _ leftRecorded rightRecorded

end Machine

/-! ## The store after a step -/

/-- A page that is removed gives up its slot, if it has one, and nothing else in the swap area. -/
theorem Page.of_removal {page : Page} {resident : Option PageData} {dirty : Bool}
    {backing : Backing} {store gone rest : BackingStore}
    (known : ∀ mapping, page.mapping? = some mapping → store.Knows mapping)
    (gaveUp : page.backing.giveUp page.address resident dirty store = .done backing gone)
    (forgot : page.forget gone = .done () rest) :
    rest.files.inodes.size = store.files.inodes.size ∧ store.nextMapping ≤ rest.nextMapping ∧
      rest.world = store.world ∧
      ((∃ slot, page.slot? = some slot ∧ store.swap.Keeps rest.swap ∧
          ∀ other, rest.swap.isOccupied other =
            (!decide (slot = other) && store.swap.isOccupied other)) ∨
        page.slot? = none ∧ rest.swap = store.swap) := by
  have keeps (sameCount : gone.files.inodes.size = store.files.inodes.size) :
      gone.KeepsSwap rest := by
    have ends : (page.forget gone).Ends _ _ _ := Page.ends_forget fun mapping mapped => by
      rw [sameCount]
      exact (known mapping mapped).file
    rw [forgot] at ends
    exact ends
  rcases Backing.of_giveUp gaveUp with ⟨slot, backed, store', keepsSwap, slots⟩ | ⟨noSlot, kept⟩
  · have forgotten := keeps (by rw [store'])
    refine ⟨by rw [forgotten.fileCount, store'], ?_, by rw [forgotten.world, store'],
      .inl ⟨slot, ?_, ?_, ?_⟩⟩
    · have later := forgotten.nextMapping
      rwa [store'] at later
    · simp [Page.slot?, backed, Backing.slot?]
    · rw [forgotten.swap]
      exact keepsSwap
    · rw [forgotten.swap]
      exact slots
  · have forgotten := keeps kept.fileCount
    exact ⟨forgotten.fileCount.trans kept.fileCount,
      Nat.le_trans kept.nextMapping forgotten.nextMapping, forgotten.world.trans kept.world,
      .inr ⟨noSlot, forgotten.swap.trans kept.swap⟩⟩

section Steps

variable {before after : Machine} {move : Move}

open Machine

/-- Upkeep takes no slot, frees none, keeps the images in those that are taken, and changes nothing
else behind the frames. -/
theorem Upkeep.store (upkeep : Upkeep before after) :
    before.store.swap.Keeps after.store.swap ∧
      (∀ slot, after.store.swap.isOccupied slot = before.store.swap.isOccupied slot) ∧
      after.store = { before.store with swap := after.store.swap } := by
  cases upkeep with
  | ask | requeue | spoil => exact ⟨.refl _, fun _ => rfl, rfl⟩
  | @strain contents error swap refused =>
      have ends := SwapArea.ends_swapOut contents before.store.swap
      rw [refused] at ends
      exact ⟨ends.1, ends.2, rfl⟩

/-- No step adds or removes a file, or gives the number of a mapping back. -/
theorem Step.fileCount (step : Step move before after) (known : before.MappingsKnown) :
    after.store.files.inodes.size = before.store.files.inodes.size ∧
      before.store.nextMapping ≤ after.store.nextMapping := by
  cases step with
  | upkeep upkeep =>
      rw [upkeep.store.2.2]
      exact ⟨rfl, Nat.le_refl _⟩
  | setStackPointer | access | overwrite | register | arrive | leave =>
      exact ⟨rfl, Nat.le_refl _⟩
  | @createMapping _ start pageCount references file mapping store made =>
      have ends : (BackingStore.createMapping start pageCount file references
        before.store).Ends _ _ _ := BackingStore.ends_createMapping
      rw [made] at ends
      exact ⟨ends.2.2.fileCount, ends.2.2.nextMapping⟩
  | retain retained =>
      cases retained
      exact ⟨rfl, Nat.le_refl _⟩
  | outside _ _ sameCount => exact ⟨sameCount, Nat.le_refl _⟩
  | pageOut _ _ _ _ saved =>
      rcases Backing.of_save saved with ⟨_, _, -, -, same, -⟩ | ⟨_, -, -, kept⟩
      · rw [same]
        exact ⟨rfl, Nat.le_refl _⟩
      · exact ⟨kept.fileCount, kept.nextMapping⟩
  | pageIn _ _ _ _ _ _ _ brought =>
      rcases Backing.of_bringIn brought with ⟨_, -, -, -, -, same, -⟩ | ⟨-, -, same⟩
      · rw [same]
        exact ⟨rfl, Nat.le_refl _⟩
      · rw [same]
        exact ⟨rfl, Nat.le_refl _⟩
  | removeAbsent found registered _ gaveUp forgot =>
      have left := Page.of_removal (fun mapping =>
        known _ _ _ mapping ((page?_of_space found _).trans registered)) gaveUp forgot
      exact ⟨left.1, left.2.1⟩
  | removeResident found registered _ _ gaveUp _ _ _ forgot =>
      have left := Page.of_removal (fun mapping =>
        known _ _ _ mapping ((page?_of_space found _).trans registered)) gaveUp forgot
      exact ⟨left.1, left.2.1⟩

/-- Only from outside the world is changed. -/
theorem Step.world_eq (step : Step move before after) (known : before.MappingsKnown)
    (inside : move ≠ .outside) : after.store.world = before.store.world := by
  cases step with
  | upkeep upkeep => rw [upkeep.store.2.2]
  | setStackPointer | access | overwrite | register | arrive | leave => rfl
  | @createMapping _ start pageCount references file mapping store made =>
      have ends : (BackingStore.createMapping start pageCount file references
        before.store).Ends _ _ _ := BackingStore.ends_createMapping
      rw [made] at ends
      exact ends.2.2.world
  | retain retained =>
      cases retained
      rfl
  | outside => exact absurd rfl inside
  | pageOut _ _ _ _ saved =>
      rcases Backing.of_save saved with ⟨_, _, -, -, same, -⟩ | ⟨_, -, -, kept⟩
      · rw [same]
      · exact kept.world
  | pageIn _ _ _ _ _ _ _ brought =>
      rcases Backing.of_bringIn brought with ⟨_, -, -, -, -, same, -⟩ | ⟨-, -, same⟩
      · rw [same]
      · rw [same]
  | removeAbsent found registered _ gaveUp forgot =>
      exact (Page.of_removal (fun mapping =>
        known _ _ _ mapping ((page?_of_space found _).trans registered)) gaveUp forgot).2.2.1
  | removeResident found registered _ _ gaveUp _ _ _ forgot =>
      exact (Page.of_removal (fun mapping =>
        known _ _ _ mapping ((page?_of_space found _).trans registered)) gaveUp forgot).2.2.1

/-- A mapping that was made stays one that was made. -/
theorem Step.knows {mapping : Mapping} (step : Step move before after)
    (known : before.MappingsKnown) (made : before.store.Knows mapping) :
    after.store.Knows mapping := by
  obtain ⟨sameCount, later⟩ := step.fileCount known
  exact ⟨sameCount ▸ made.file, Nat.lt_of_lt_of_le made.id later⟩

/-- A page that belongs to a mapping did so before the step, or the mapping may have it. -/
theorem Step.mapping?_cases {pid : Pid} {address : VirtAddr} {mapping : Mapping}
    (step : Step move before after) (owned : before.FramesOwned)
    (mapped : after.mapping? pid address = some mapping) :
    before.mapping? pid address = some mapping ∨
      move = .register pid address .file ∧ before.Admits pid mapping := by
  rw [mapping?_eq_map, Option.map_eq_some_iff] at mapped
  obtain ⟨region, atAddress, rfl⟩ := mapped
  rcases step.region?_cases owned atAddress with earlier | added
  · rw [mapping?_eq_map, earlier]
    exact .inl rfl
  · exact .inr added

theorem Step.mappingsKnown (step : Step move before after) (sound : before.Sound) :
    after.MappingsKnown := by
  intro pid address page mapping registered mapped
  apply step.knows sound.mappings
  have atAddress : after.mapping? pid address = some mapping := by
    rw [mapping?, registered]
    exact mapped
  rcases step.mapping?_cases sound.frames atAddress with earlier | ⟨-, admits⟩
  · obtain ⟨old, known, belongs⟩ := Option.bind_eq_some_iff.1 earlier
    exact sound.mappings pid address old mapping known belongs
  · exact admits.known

theorem Step.mappingsApart (step : Step move before after) (sound : before.Sound) :
    after.MappingsApart := by
  intro pid address other place left right leftAt rightAt sameId
  rcases step.mapping?_cases sound.frames leftAt with leftBefore | ⟨same, admits⟩
  · rcases step.mapping?_cases sound.frames rightAt with rightBefore | ⟨-, admits⟩
    · exact sound.apart _ _ _ _ _ _ leftBefore rightBefore sameId
    · exact admits.own _ _ _ leftBefore sameId
  · rcases step.mapping?_cases sound.frames rightAt with rightBefore | ⟨also, -⟩
    · obtain ⟨samePid, sameMapping⟩ := admits.own _ _ _ rightBefore sameId.symm
      exact ⟨samePid.symm, sameMapping.symm⟩
    · -- A step registers one page.
      rw [same] at also
      cases also
      rw [leftAt, Option.some.injEq] at rightAt
      exact ⟨rfl, rightAt⟩

/-- A page that gives its slot up, or has none, can be removed. -/
private theorem Machine.SlotsOwned.of_removal {pid : Pid} {space changed : AddressSpace}
    {page : Page} (owned : before.SlotsOwned)
    (found : before.spaces[pid]? = some space)
    (registered : space.pages.at? page.address = some page)
    (spaces : after.spaces = before.spaces.insert pid changed)
    (pages : changed.pages = space.pages.erase page.address)
    (aligned : page.address.pageDown = page.address)
    (store : (∃ slot, page.slot? = some slot ∧
        before.store.swap.Keeps after.store.swap ∧
        ∀ other, after.store.swap.isOccupied other =
          (!decide (slot = other) && before.store.swap.isOccupied other)) ∨
      page.slot? = none ∧ after.store.swap = before.store.swap) : after.SlotsOwned := by
  have placed := forall_page?_erased owned.placed found spaces pages
  have slots := bind_page?_erased Page.slot? found spaces pages
  rw [aligned] at slots
  have recorded : before.slot? pid page.address = page.slot? := by
    rw [slot?, page?_of_space found, registered]
    rfl
  rcases store with ⟨slot, hasSlot, -, occupied⟩ | ⟨noSlot, swap⟩
  · exact owned.strike placed (recorded.trans hasSlot) occupied slots
  · refine owned.of_slots placed (fun _ => by rw [swap]) fun other place => ?_
    refine (slots other place).trans ?_
    split
    case isTrue same =>
      obtain ⟨rfl, rfl⟩ := same
      rw [recorded, noSlot]
    case isFalse => rfl

/-- No step lets two records of slots disagree. -/
theorem Step.slotsOwned (step : Step move before after) (sound : before.Sound) :
    after.SlotsOwned := by
  have owned := sound.slots
  cases step with
  | upkeep upkeep => exact owned.of_pages upkeep.page? upkeep.store.2.1
  | @createMapping _ start pageCount references file mapping store made =>
      have ends : (BackingStore.createMapping start pageCount file references
        before.store).Ends _ _ _ := BackingStore.ends_createMapping
      rw [made] at ends
      exact owned.of_pages (fun _ _ => rfl) fun _ => by rw [ends.2.2.swap]
  | retain retained =>
      cases retained
      exact owned.of_pages (fun _ _ => rfl) fun _ => rfl
  | outside | overwrite => exact owned.of_pages (fun _ _ => rfl) fun _ => rfl
  | setStackPointer found | access found =>
      exact owned.of_pages (page?_keep found rfl (by rfl)) fun _ => rfl
  | arrive => exact owned.of_pages (page?_arrived sound.frames.space_of_next rfl) fun _ => rfl
  | leave found gone => exact owned.of_pages (page?_left found gone rfl) fun _ => rfl
  | @pageOut _ pid space page frame old bytes backing store table resident found registered held
      read saved unmapped released =>
      have known := (page?_of_space found page.address).trans registered
      have placed := owned.placed _ _ _ known
      rcases Backing.of_save saved with
        ⟨image?, slot, backed, rfl, -, -, -, free, occupied⟩ | ⟨region, backed, rfl, kept⟩
      · have unrecorded : before.slot? pid page.address = none := by
          rw [slot?, known, Option.bind_some, Page.slot?, backed]
          rw [Page.Placed, backed, held] at placed
          cases image? with
          | none => rfl
          | some _ => cases placed
        refine owned.record (forall_page?_update owned.placed found rfl rfl rfl) free unrecorded
          occupied fun other place => ?_
        exact (bind_page?_update Page.slot? found rfl rfl other place).trans rfl
      · refine owned.of_slots (forall_page?_update owned.placed found rfl rfl trivial)
          (fun _ => by rw [kept.swap]) fun other place => ?_
        refine (bind_page?_update Page.slot? found rfl rfl other place).trans ?_
        split
        case isTrue same =>
          obtain ⟨rfl, rfl⟩ := same
          rw [slot?, known, Option.bind_some, Page.slot?, Page.slot?, backed]
        case isFalse => rfl
  | @pageIn _ pid space page frame bytes backing transfer table taken linked resident found
      registered absent acquired mapped link read brought written =>
      have known := (page?_of_space found page.address).trans registered
      rcases Backing.of_bringIn brought with
        ⟨slot, backed, rfl, -, -, -, -, occupied⟩ | ⟨notAnonymous, rfl, sameStore⟩
      · have recorded : before.slot? pid page.address = some slot := by
          rw [slot?, known, Option.bind_some, Page.slot?, backed]
          rfl
        refine owned.strike (forall_page?_update owned.placed found rfl rfl rfl) recorded
          occupied fun other place => ?_
        exact (bind_page?_update Page.slot? found rfl rfl other place).trans rfl
      · have noSlot := Backing.slot?_of_not_anonymous notAnonymous
        refine owned.of_slots (forall_page?_update owned.placed found rfl rfl ?_)
          (fun _ => by rw [sameStore]) fun other place => ?_
        · exact Page.placed_touched notAnonymous
        · refine (bind_page?_update Page.slot? found rfl rfl other place).trans ?_
          split
          case isTrue same =>
            obtain ⟨rfl, rfl⟩ := same
            rw [slot?, known, Option.bind_some, Page.slot?, Page.slot?, noSlot.1, noSlot.2]
          case isFalse => rfl
  | @register _ pid space page initializer pages found untouched absent aligned admitted inserted =>
      obtain ⟨unknown, rfl⟩ := PageRegistry.at?_of_insert inserted
      refine owned.of_slots (forall_page?_update owned.placed found rfl rfl ?_) (fun _ => rfl)
        fun other place => ?_
      · rw [Page.Placed, untouched]
        exact absent
      · refine (bind_page?_update Page.slot? found rfl rfl other place).trans ?_
        split
        case isTrue same =>
          obtain ⟨rfl, rfl⟩ := same
          rw [slot?, page?_of_space found, unknown, Page.slot?, untouched]
          rfl
        case isFalse => rfl
  | removeAbsent found registered _ gaveUp forgot =>
      have known := fun mapping =>
        sound.mappings _ _ _ mapping ((page?_of_space found _).trans registered)
      exact owned.of_removal found registered rfl rfl
        (sound.frames.pageDown_address found registered) (Page.of_removal known gaveUp forgot).2.2.2
  | removeResident found registered _ _ gaveUp _ _ _ forgot =>
      have known := fun mapping =>
        sound.mappings _ _ _ mapping ((page?_of_space found _).trans registered)
      exact owned.of_removal found registered rfl rfl
        (sound.frames.pageDown_address found registered) (Page.of_removal known gaveUp forgot).2.2.2

theorem Step.sound (step : Step move before after) (sound : before.Sound) : after.Sound :=
  ⟨step.framesOwned sound.frames, step.slotsOwned sound, step.mappingsKnown sound,
    step.mappingsApart sound⟩

end Steps

theorem Path.sound {allowed : Move → Prop} {before after : Machine}
    (path : Path allowed before after) (sound : before.Sound) : after.Sound :=
  path.keeps sound fun _ _ _ _ step => step.sound

/-- What every allowed step keeps as long as the records agree holds at the end. -/
theorem Path.keeps_of_sound {allowed : Move → Prop} {before after : Machine}
    (condition : Machine → Prop) (path : Path allowed before after) (sound : before.Sound)
    (start : condition before)
    (keep : ∀ move before after, allowed move → Step move before after → before.Sound →
      condition before → condition after) : condition after := by
  have reached : after.Sound ∧ condition after := by
    induction path with
    | refl => exact ⟨sound, start⟩
    | tail _ stepped inductionHypothesis =>
        obtain ⟨move, allow, step⟩ := stepped
        exact ⟨step.sound inductionHypothesis.1,
          keep move _ _ allow step inductionHypothesis.1 inductionHypothesis.2⟩
  exact reached.2

theorem Path.fileCount {allowed : Move → Prop} {before after : Machine}
    (path : Path allowed before after) (sound : before.Sound) :
    after.store.files.inodes.size = before.store.files.inodes.size ∧
      before.store.nextMapping ≤ after.store.nextMapping := by
  refine path.keeps_of_sound (fun state =>
    state.store.files.inodes.size = before.store.files.inodes.size ∧
      before.store.nextMapping ≤ state.store.nextMapping) sound ⟨rfl, Nat.le_refl _⟩ ?_
  intro _ middle next _ step soundMiddle same
  obtain ⟨sameCount, later⟩ := step.fileCount soundMiddle.mappings
  exact ⟨sameCount.trans same.1, Nat.le_trans same.2 later⟩

/-- The world is the same after a path on which nothing is changed from outside. -/
theorem Path.world_eq {allowed : Move → Prop} {before after : Machine}
    (path : Path allowed before after) (sound : before.Sound)
    (inside : ∀ move, allowed move → move ≠ .outside) :
    after.store.world = before.store.world := by
  refine path.keeps_of_sound (fun state => state.store.world = before.store.world) sound rfl ?_
  intro move middle next allow step soundMiddle same
  exact (step.world_eq soundMiddle.mappings (inside move allow)).trans same

/-- Along a path that does not remove it, a page stays registered, as the same page. -/
theorem Path.exists_page?_of_kind {allowed : Move → Prop} {before after : Machine} {pid : Pid}
    {address : VirtAddr} {page : Page} (path : Path allowed before after) (sound : before.Sound)
    (registered : before.page? pid address = some page)
    (stays : ¬allowed (.remove pid address page.kind)) :
    ∃ changed, after.page? pid address = some changed ∧ page.Continues changed := by
  refine path.keeps_of_sound (fun state => ∃ changed, state.page? pid address = some changed ∧
    page.Continues changed) sound ⟨page, registered, .refl page⟩ ?_
  intro move middle next allow step soundMiddle known
  obtain ⟨changed, atAddress, continues⟩ := known
  obtain ⟨last, found, more⟩ := step.exists_page? soundMiddle.frames atAddress fun same =>
    stays (continues.kind ▸ same ▸ allow)
  exact ⟨last, found, continues.trans more⟩

theorem Path.exists_page? {allowed : Move → Prop} {before after : Machine} {pid : Pid}
    {address : VirtAddr} {page : Page} (path : Path allowed before after) (sound : before.Sound)
    (registered : before.page? pid address = some page)
    (stays : ∀ kind, ¬allowed (.remove pid address kind)) :
    ∃ changed, after.page? pid address = some changed ∧ page.Continues changed :=
  path.exists_page?_of_kind sound registered (stays page.kind)

/-- A page that is there at the end of a path, and whose kind of page the path registers nowhere at
its address, was there in the beginning. -/
theorem Path.exists_page?_of_after {allowed : Move → Prop} {before after : Machine} {pid : Pid}
    {address : VirtAddr} {page : Page} (path : Path allowed before after) (sound : before.Sound)
    (registered : after.page? pid address = some page)
    (noRegister : ¬allowed (.register pid address page.kind)) :
    ∃ former, before.page? pid address = some former ∧ former.Continues page := by
  have reached : ∀ last, after.page? pid address = some last →
      ¬allowed (.register pid address last.kind) →
      ∃ former, before.page? pid address = some former ∧ former.Continues last := by
    refine path.keeps_of_sound (fun state => ∀ last, state.page? pid address = some last →
      ¬allowed (.register pid address last.kind) →
      ∃ former, before.page? pid address = some former ∧ former.Continues last) sound
      (fun last known _ => ⟨last, known, .refl last⟩) ?_
    intro move middle next allow step soundMiddle known last found noRegister
    cases atMiddle : middle.page? pid address with
    | none =>
        rw [step.eq_register soundMiddle.frames atMiddle found] at allow
        exact absurd allow noRegister
    | some page =>
        obtain ⟨changed, atNext, more⟩ := step.exists_page? soundMiddle.frames atMiddle
          (step.ne_remove soundMiddle.frames found page.kind)
        rw [found, Option.some.injEq] at atNext
        subst atNext
        rw [more.kind] at noRegister
        obtain ⟨former, atFirst, continues⟩ := known page atMiddle noRegister
        exact ⟨former, atFirst, continues.trans more⟩
  exact reached page registered noRegister

/-- Along a path that neither registers nor removes a page at an address, there is a page all the
time or never. -/
theorem Path.isSome_page? {allowed : Move → Prop} {before after : Machine} {pid : Pid}
    {address : VirtAddr} (path : Path allowed before after) (sound : before.Sound)
    (keeps : ∀ kind, ¬allowed (.register pid address kind) ∧ ¬allowed (.remove pid address kind)) :
    (after.page? pid address).isSome = (before.page? pid address).isSome := by
  cases registered : before.page? pid address with
  | some page =>
      obtain ⟨changed, known, -⟩ := path.exists_page? sound registered fun kind => (keeps kind).2
      rw [known]
      rfl
  | none =>
      cases known : after.page? pid address with
      | none => rfl
      | some page =>
          obtain ⟨former, found, -⟩ := path.exists_page?_of_after sound known (keeps page.kind).1
          rw [registered] at found
          cases found

end DemandPaging
