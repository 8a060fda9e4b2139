import DemandPaging.Proofs.AddressSpace
import DemandPaging.Proofs.ResidentSet
import DemandPaging.Proofs.Step

/-!
Which page every frame belongs to.

Owns:
- `Machine.FramesOwned`, the agreement between the frames on loan, their owners, the queue, the page
  tables and the registries of all processes;
- its preservation by every step.

Main statement: `Step.framesOwned`, no step lets two of these records disagree.
-/

namespace DemandPaging

namespace Machine

/-- The memory of every process agrees with itself, and the process has a number that was given
out. -/
def SpacesSound (machine : Machine) : Prop :=
  ∀ (pid : Pid) (space : AddressSpace), machine.spaces[pid]? = some space →
    space.Sound ∧ pid.number < machine.nextPid

/-- The records of frames agree: a frame is owned by a page exactly when the page says that it is in
that frame. -/
structure FramesOwned (machine : Machine) : Prop where
  resident : machine.resident.Sound
  spaces : machine.SpacesSound
  owner_iff : ∀ frame pid address,
    machine.resident.owner? frame = some ⟨pid, address⟩ ↔ machine.frame? pid address = some frame

variable {before after : Machine} {pid : Pid} {space changed : AddressSpace} {page : Page}
  {frame : PhysAddr} {address : VirtAddr}

theorem FramesOwned.located (owned : before.FramesOwned)
    (registered : before.page? pid address = some page) :
    page.address = address ∧ address.offset = 0 := by
  obtain ⟨space, found, atAddress⟩ := space_of_page? registered
  exact (owned.spaces pid space found).1.located address page atAddress

theorem FramesOwned.owner?_of_held (owned : before.FramesOwned)
    (registered : before.page? pid address = some page) (held : page.frame = some frame) :
    before.resident.owner? frame = some ⟨pid, address⟩ := by
  rw [owned.owner_iff, frame?, registered]
  exact held

theorem FramesOwned.space_of_next (owned : before.FramesOwned) :
    before.spaces[(⟨before.nextPid⟩ : Pid)]? = none := by
  rw [Option.eq_none_iff_forall_ne_some]
  intro space found
  exact Nat.lt_irrefl _ (owned.spaces _ space found).2

theorem FramesOwned.pageDown_address (owned : before.FramesOwned)
    (found : before.spaces[pid]? = some space)
    (registered : space.pages.at? page.address = some page) :
    page.address.pageDown = page.address :=
  Address.pageDown_eq_self_iff.2 ((owned.spaces pid space found).1.located _ _ registered).2

/-! ## Changes of one kind -/

theorem SpacesSound.insert (sound : before.SpacesSound)
    (found : before.spaces[pid]? = some space) (changedSound : changed.Sound)
    (spaces : after.spaces = before.spaces.insert pid changed)
    (nextPid : after.nextPid = before.nextPid) : after.SpacesSound := by
  intro other memory foundAfter
  rw [spaces_insert spaces] at foundAfter
  rw [nextPid]
  split at foundAfter
  case isTrue same =>
    subst same
    cases foundAfter
    exact ⟨changedSound, (sound pid space found).2⟩
  case isFalse => exact sound other memory foundAfter

/-- A change that gives no frame to another page. -/
theorem FramesOwned.of_frames (owned : before.FramesOwned) (resident : after.resident.Sound)
    (owners : ∀ frame, after.resident.owner? frame = before.resident.owner? frame)
    (spaces : after.SpacesSound)
    (frames : ∀ pid address, after.frame? pid address = before.frame? pid address) :
    after.FramesOwned where
  resident := resident
  spaces := spaces
  owner_iff frame pid address := by rw [owners, frames, owned.owner_iff]

theorem FramesOwned.vacate (owned : before.FramesOwned) (resident : after.resident.Sound)
    (held : before.frame? pid address = some frame)
    (owners : ∀ other, after.resident.owner? other =
      if frame = other then none else before.resident.owner? other)
    (spaces : after.SpacesSound)
    (frames : ∀ other place, after.frame? other place =
      if pid = other ∧ address = place then none else before.frame? other place) :
    after.FramesOwned where
  resident := resident
  spaces := spaces
  owner_iff candidate other place := by
    rw [owners, frames]
    have owner := (owned.owner_iff frame pid address).2 held
    -- The page that loses the frame was its only owner, so no other page names the frame.
    by_cases sameFrame : frame = candidate
    · subst sameFrame
      by_cases samePage : pid = other ∧ address = place
      · simp [samePage]
      · have elsewhere : before.frame? other place ≠ some frame := by
          intro also
          have owner' := (owned.owner_iff frame other place).2 also
          rw [owner, Option.some.injEq, FrameOwner.mk.injEq] at owner'
          exact samePage owner'
        simp [samePage, elsewhere]
    · rw [if_neg sameFrame, owned.owner_iff]
      by_cases samePage : pid = other ∧ address = place
      · obtain ⟨rfl, rfl⟩ := samePage
        simp [held, sameFrame]
      · rw [if_neg samePage]

/-- A page gets a frame that no page occupied. -/
theorem FramesOwned.occupy (owned : before.FramesOwned) (resident : after.resident.Sound)
    (vacant : before.resident.owner? frame = none)
    (absent : before.frame? pid address = none)
    (owners : ∀ other, after.resident.owner? other =
      if frame = other then some ⟨pid, address⟩ else before.resident.owner? other)
    (spaces : after.SpacesSound)
    (frames : ∀ other place, after.frame? other place =
      if pid = other ∧ address = place then some frame else before.frame? other place) :
    after.FramesOwned where
  resident := resident
  spaces := spaces
  owner_iff candidate other place := by
    rw [owners, frames]
    by_cases samePage : pid = other ∧ address = place
    · obtain ⟨rfl, rfl⟩ := samePage
      by_cases sameFrame : frame = candidate
      · simp [sameFrame]
      · rw [if_neg sameFrame, owned.owner_iff, absent]
        simp [sameFrame]
    · rw [if_neg samePage, ← owned.owner_iff]
      by_cases sameFrame : frame = candidate
      · subst sameFrame
        simpa [vacant] using samePage
      · rw [if_neg sameFrame]

/-! ## Asking for the accessed mark -/

/-- Asking changes at most one mark in the page table of the owner. -/
theorem spaces_of_ask (owner : FrameOwner) (spaces : Std.ExtTreeMap Pid AddressSpace) :
    (testAndClearAccessed owner spaces).2 = spaces ∨
      ∃ space : AddressSpace, spaces[owner.pid]? = some space ∧
        (testAndClearAccessed owner spaces).2 = spaces.insert owner.pid
          { space with table := space.table.setAccessed owner.address false } := by
  unfold testAndClearAccessed
  cases found : spaces[owner.pid]? with
  | none => exact .inl rfl
  | some space =>
      dsimp only
      split
      · exact .inr ⟨space, rfl, rfl⟩
      · exact .inl rfl

end Machine

/-! ## Steps -/

section Steps

variable {before after : Machine} {pid : Pid} {space changed : AddressSpace}

open Machine

private theorem Machine.FramesOwned.of_table (owned : before.FramesOwned)
    (found : before.spaces[pid]? = some space) (changedSound : changed.Sound)
    (pages : changed.pages = space.pages) :
    ({ before with spaces := before.spaces.insert pid changed } : Machine).FramesOwned := by
  refine owned.of_frames owned.resident (fun _ => rfl)
    (owned.spaces.insert found changedSound rfl rfl) fun other address => ?_
  unfold frame?
  rw [page?_keep found rfl pages]

private theorem Machine.FramesOwned.of_write {frame : PhysAddr} {contents : PageData}
    {resident : ResidentSet} (owned : before.FramesOwned)
    (written : before.resident.write frame contents = .ok resident) :
    ({ before with resident } : Machine).FramesOwned := by
  exact owned.of_frames (owned.resident.write written) (ResidentSet.owner?_of_write written)
    owned.spaces fun _ _ => rfl

/-- Upkeep leaves every page where it is. -/
theorem Upkeep.page? (upkeep : Upkeep before after) (other : Pid) (address : VirtAddr) :
    after.page? other address = before.page? other address := by
  cases upkeep with
  | ask owner =>
      rcases spaces_of_ask owner before.spaces with same | ⟨space, found, asked⟩
      · exact page?_congr same other address
      · exact page?_keep found asked (by rfl) other address
  | requeue | spoil | strain => rfl

theorem Upkeep.framesOwned (upkeep : Upkeep before after) (owned : before.FramesOwned) :
    after.FramesOwned := by
  cases upkeep with
  | ask owner =>
      rcases spaces_of_ask owner before.spaces with same | ⟨space, found, asked⟩
      · rw [same]
        exact owned
      · rw [asked]
        have sound := (owned.spaces owner.pid space found).1
        exact owned.of_table found
          (sound.of_translation? fun _ => PageTable.translation?_setAccessed ..) rfl
  | requeue queued =>
      exact owned.of_frames (owned.resident.requeue queued).1 (fun _ => rfl) owned.spaces
        fun _ _ => rfl
  | spoil _ written =>
      exact owned.of_write written
  | strain => exact owned.of_frames owned.resident (fun _ => rfl) owned.spaces fun _ _ => rfl

/-- No step lets two records of frames disagree. -/
theorem Step.framesOwned {move : Move} (step : Step move before after)
    (owned : before.FramesOwned) : after.FramesOwned := by
  cases step with
  | upkeep upkeep => exact upkeep.framesOwned owned
  | createMapping | retain | outside =>
      exact owned.of_frames owned.resident (fun _ => rfl) owned.spaces fun _ _ => rfl
  | setStackPointer found =>
      exact owned.of_table found
        ((owned.spaces _ _ found).1.of_translation? fun _ => rfl) rfl
  | @access _ _ _ address write _ _ found reached =>
      have sound := (owned.spaces _ _ found).1.access address write
      rw [reached] at sound
      exact owned.of_table found sound rfl
  | overwrite _ _ written => exact owned.of_write written
  | @pageOut _ pid space page frame old bytes backing store table resident found registered held
      read saved unmapped released =>
      have sound := (owned.spaces pid space found).1
      have owner := owned.owner?_of_held
        ((page?_of_space found page.address).trans registered) held
      obtain ⟨soundResult, -, owners, -⟩ :=
        owned.resident.of_release owner released
      have changedSound := sound.pageOut registered held unmapped backing
      exact owned.vacate soundResult ((owned.owner_iff ..).1 owner) owners
        (owned.spaces.insert found changedSound rfl rfl)
        fun other place => (bind_page?_update Page.frame found rfl rfl other place).trans rfl
  | @pageIn _ pid space page frame bytes backing transfer table taken linked resident found
      registered absent acquired mapped link read brought written =>
      have sound := (owned.spaces pid space found).1
      have inHand := owned.resident.taken acquired
      obtain ⟨soundLinked, -, owners, -⟩ := owned.resident.occupy acquired link
      have changedSound := sound.pageIn registered inHand.physical mapped backing.touched
      refine owned.occupy (soundLinked.write written) inHand.vacant ?_ (fun other => ?_)
        (owned.spaces.insert found changedSound rfl rfl)
        fun other place => (bind_page?_update Page.frame found rfl rfl other place).trans rfl
      · rw [frame?, page?_of_space found, registered]
        exact absent
      · rw [← owners other]
        exact ResidentSet.owner?_of_write written other
  | @register _ pid space page initializer pages found untouched absent aligned admitted inserted =>
      have sound := (owned.spaces pid space found).1
      obtain ⟨unknown, rfl⟩ := PageRegistry.at?_of_insert inserted
      refine owned.of_frames owned.resident (fun _ => rfl)
        (owned.spaces.insert found (sound.register absent aligned unknown) rfl rfl)
        fun other place => ?_
      refine (bind_page?_update Page.frame found rfl rfl other place).trans ?_
      split
      case isTrue same =>
        obtain ⟨rfl, rfl⟩ := same
        rw [absent, frame?, page?_of_space found, unknown]
        rfl
      case isFalse => rfl
  | @removeAbsent _ pid space page backing store rest found registered absent gaveUp forgot =>
      have sound := (owned.spaces pid space found).1
      refine owned.of_frames owned.resident (fun _ => rfl)
        (owned.spaces.insert found (sound.eraseAbsent registered absent) rfl rfl)
        fun other place => ?_
      refine (bind_page?_erased Page.frame found rfl rfl other place).trans ?_
      rw [Address.pageDown_eq_self_iff.2 (sound.located _ _ registered).2]
      split
      case isTrue same =>
        obtain ⟨rfl, rfl⟩ := same
        rw [frame?, page?_of_space found, registered]
        exact absent.symm
      case isFalse => rfl
  | @removeResident _ pid space page frame old bytes backing store rest table cleared resident
      found registered held read gaveUp unmapped clear released forgot =>
      have sound := (owned.spaces pid space found).1
      have aligned := (sound.located _ _ registered).2
      have owner := owned.owner?_of_held
        ((page?_of_space found page.address).trans registered) held
      obtain ⟨soundResult, owners, -⟩ :=
        owned.resident.of_write_release owner clear released
      have follows := sound.translation?_of_unmap registered held unmapped
      refine owned.vacate soundResult ((owned.owner_iff ..).1 owner) owners
        (owned.spaces.insert found (sound.erase aligned follows) rfl rfl) fun other place => ?_
      refine (bind_page?_erased Page.frame found rfl rfl other place).trans ?_
      rw [Address.pageDown_eq_self_iff.2 aligned]
      rfl
  | arrive =>
      refine owned.of_frames owned.resident (fun _ => rfl) ?_ fun other place => ?_
      · intro other memory found
        rw [spaces_insert rfl] at found
        split at found
        case isTrue same =>
          subst same
          cases found
          exact ⟨AddressSpace.sound_empty, Nat.lt_succ_self _⟩
        case isFalse =>
          have sound := owned.spaces other memory found
          exact ⟨sound.1, Nat.lt_succ_of_lt sound.2⟩
      · unfold frame?
        rw [page?_arrived owned.space_of_next rfl]
  | leave found gone =>
      refine owned.of_frames owned.resident (fun _ => rfl) ?_ fun other place => ?_
      · intro other memory foundAfter
        rw [spaces_erase rfl] at foundAfter
        split at foundAfter
        · cases foundAfter
        · exact owned.spaces other memory foundAfter
      · unfold frame?
        rw [page?_left found gone rfl]

end Steps

end DemandPaging
