import DemandPaging.Proofs.FirstTouch
import DemandPaging.Proofs.GrownPages
import DemandPaging.Proofs.StackHoles
import Mathlib.Data.List.Perm.Subperm

/-!
How much memory the growth of a stack takes.

Owns:
- `Machine.grownPages`, the pages that growth registers in a process during a run;
- that no page is among them twice, so that their number is bounded by their addresses;
- for which settings these pages stay within the limit of the stack.

Does not own: where a single page of growth may be (`Settings.GrowsTo`).

The limit counts bytes and the stack grows by pages. The lowest page of growth sticks out of the
window by up to a page, unless the limit leaves no such page: because it ends at a page boundary or
one byte after it, or because only the page at address zero, which is never registered, would stick
out.

Main statements: `Reachable.grownPages_within`, for any settings, and `stack_limit_kept_iff`.
-/

namespace DemandPaging

open Machine

namespace Machine

/-- The pages of a process that are registered after an event and were not before it. -/
def newPages (before after : Machine) (pid : Pid) : List VirtAddr :=
  match after.spaces[pid]? with
  | some space => (space.pages.toList.map Page.address).filter fun place =>
      (before.page? pid place).isNone
  | none => []

/-- The pages that are registered in a process by growth, in the order of the events of a run. A
page that is registered twice is listed twice. -/
def grownPages (pid : Pid) : List Event → Machine → List VirtAddr
  | [], _ => []
  | event :: rest, machine =>
    match (event.perform machine).state? with
    | some next =>
      (if event.MayFault then newPages machine next pid else []) ++ grownPages pid rest next
    | none => []

/-- Pages that growth registers lie within the bytes below the top of the stack that the limit
allows, and together they are no more bytes than that. -/
structure KeepsStackLimit (settings : Settings) (places : List VirtAddr) : Prop where
  within : ∀ place ∈ places, stackTop - settings.stackLimit ≤ place.toNat ∧
    place.toNat + pageSize ≤ stackTop
  total : places.length * pageSize ≤ settings.stackLimit

variable {before after machine next last : Machine} {events rest : List Event} {event : Event}
  {pid : Pid} {place : VirtAddr} {settings : Settings}

/-! ## The pages of one event -/

theorem mem_newPages (sound : after.Sound) :
    place ∈ newPages before after pid ↔
      before.page? pid place = none ∧ ∃ page, after.page? pid place = some page := by
  unfold newPages
  cases found : after.spaces[pid]? with
  | none => simp [page?, found]
  | some space =>
      have soundSpace := (sound.frames.spaces pid space found).1
      rw [List.mem_filter, List.mem_map, Option.isNone_iff_eq_none, and_comm]
      have lookup (page : Page) : after.page? pid place = some page ↔
          page ∈ space.pages.toList ∧ page.address = place := by
        rw [page?_of_space found]
        exact soundSpace.mem_toList_iff
      simp only [lookup]

theorem nodup_newPages (sound : after.Sound) : (newPages before after pid).Nodup := by
  unfold newPages
  cases found : after.spaces[pid]? with
  | none => exact List.nodup_nil
  | some space => exact ((sound.frames.spaces pid space found).1.nodup_addresses).filter _

theorem grownPages_cons (leaves : (event.perform machine).state? = some next) :
    grownPages pid (event :: rest) machine =
      (if event.MayFault then newPages machine next pid else []) ++ grownPages pid rest next := by
  rw [grownPages, leaves]

/-! ## No page grows twice -/

/-- A page of a process cannot come by growth any more: an anonymous page is registered there, or
the process is gone. -/
def Spent (machine : Machine) (pid : Pid) (place : VirtAddr) : Prop :=
  (∃ page, machine.page? pid place = some page ∧ page.kind = .anonymous) ∨ machine.Gone pid

theorem Reachable.spent (reachable : machine.Reachable)
    (leaves : (event.perform machine).state? = some next) (spent : machine.Spent pid place) :
    next.Spent pid place := by
  have path := (Event.leads_of_perform reachable.sound reachable.mappingsWhole leaves).path
  rcases spent with ⟨page, registered, anonymous⟩ | gone
  · rcases event.page?_cases reachable.sound reachable.mappingsWhole registered leaves with
      ⟨changed, found, continues⟩ | ⟨-, removes⟩
    · exact .inl ⟨changed, found, continues.kind.trans anonymous⟩
    · -- Only the end of the process removes an anonymous page, and its number is not given again.
      rw [anonymous] at removes
      cases removes
      have earlier := Event.lt_nextPid_of_page? reachable.sound registered
      have numbered : machine.nextPid ≤ next.nextPid :=
        path.keeps (Nat.le_refl _) fun _ _ _ _ step less => Nat.le_trans less step.nextPid_le
      exact .inr ⟨Event.space_of_exit reachable.sound pid leaves,
        Nat.lt_of_lt_of_le earlier numbered⟩
  · exact .inr (path.keeps gone fun _ _ _ _ step gone => step.gone gone)

theorem Reachable.not_mem_grownPages (reachable : machine.Reachable)
    (run : machine.after? events = some last) (spent : machine.Spent pid place) :
    place ∉ grownPages pid events machine := by
  induction events generalizing machine with
  | nil => exact List.not_mem_nil
  | cons event rest inductionHypothesis =>
      obtain ⟨next, leaves, run⟩ := Option.bind_eq_some_iff.1 run
      have reachableNext := reachable.next event leaves
      have spentNext := reachable.spent leaves spent
      rw [grownPages_cons leaves, List.mem_append, not_or]
      constructor
      · split
        case isFalse => exact List.not_mem_nil
        case isTrue =>
          rw [mem_newPages reachableNext.sound]
          rintro ⟨vacant, page, found⟩
          rcases spent with ⟨former, registered, -⟩ | gone
          · rw [vacant] at registered
            cases registered
          · -- No process comes to be under the number of one that is gone.
            have leads :=
              Event.leads_of_perform reachable.sound reachable.mappingsWhole leaves
            have still : next.Gone pid :=
              leads.path.keeps gone fun _ _ _ _ step gone => step.gone gone
            rw [page?, still.missing] at found
            cases found
      · exact inductionHypothesis reachableNext run spentNext

/-- A page that comes by growth is spent from then on. -/
theorem Reachable.spent_of_newPages (reachable : machine.Reachable)
    (faults : event.MayFault = true) (leaves : (event.perform machine).state? = some next)
    (new : place ∈ newPages machine next pid) :
    next.Spent pid place ∧ machine.settings.GrowsTo place ∧ place.offset = 0 := by
  have soundNext := (reachable.next event leaves).sound
  obtain ⟨vacant, page, found⟩ := (mem_newPages soundNext).1 new
  obtain ⟨anonymous, grows⟩ := event.growsTo reachable.sound faults leaves vacant found
  exact ⟨.inl ⟨page, found, anonymous⟩, grows, (soundNext.frames.located found).2⟩

theorem Reachable.nodup_grownPages (reachable : machine.Reachable)
    (run : machine.after? events = some last) : (grownPages pid events machine).Nodup := by
  induction events generalizing machine with
  | nil => exact List.nodup_nil
  | cons event rest inductionHypothesis =>
      obtain ⟨next, leaves, run⟩ := Option.bind_eq_some_iff.1 run
      have reachableNext := reachable.next event leaves
      have later := inductionHypothesis reachableNext run
      rw [grownPages_cons leaves]
      split
      case isFalse => exact later
      case isTrue faults =>
        apply (nodup_newPages reachableNext.sound).append later
        intro place new again
        obtain ⟨spent, -⟩ := reachable.spent_of_newPages faults leaves new
        exact reachableNext.not_mem_grownPages run spent again

/-! ## Where the pages are, and how many -/

theorem Reachable.growsTo_of_mem (reachable : machine.Reachable)
    (run : machine.after? events = some last) (member : place ∈ grownPages pid events machine) :
    machine.settings.GrowsTo place ∧ place.offset = 0 := by
  induction events generalizing machine with
  | nil => cases member
  | cons event rest inductionHypothesis =>
      obtain ⟨next, leaves, run⟩ := Option.bind_eq_some_iff.1 run
      rw [grownPages_cons leaves, List.mem_append] at member
      rcases member with new | later
      · split at new
        case isTrue faults => exact (reachable.spent_of_newPages faults leaves new).2
        case isFalse => cases new
      · have path := (Event.leads_of_perform reachable.sound reachable.mappingsWhole leaves).path
        rw [← path.settings]
        exact inductionHypothesis (reachable.next event leaves) run later

/-- Different pages between two addresses are no more than fit between them. -/
theorem length_le_of_within {places : List VirtAddr} {count : Nat} (distinct : places.Nodup)
    (aligned : ∀ place ∈ places, place.offset = 0)
    (inside : ∀ place ∈ places, stackTop < place.toNat + (count + 1) * pageSize ∧
      place.toNat < stackTop) : places.length ≤ count := by
  -- A page is told by its distance from the top, which is one of the first numbers of pages.
  have subset : places.map (fun place => (stackTop - place.toNat) / pageSize) ⊆
      List.range' 1 count := by
    intro pages listed
    obtain ⟨place, member, rfl⟩ := List.mem_map.1 listed
    have atPlace := aligned place member
    have bounds := inside place member
    rw [List.mem_range'_1]
    simp only [Address.offset, stackTop, pageSize] at *
    omega
  have distances : (places.map fun place => (stackTop - place.toNat) / pageSize).Nodup := by
    apply distinct.map_on
    intro left leftMember right rightMember same
    have atLeft := aligned left leftMember
    have atRight := aligned right rightMember
    have leftBounds := inside left leftMember
    have rightBounds := inside right rightMember
    apply Address.ext_toNat
    simp only [Address.offset, stackTop, pageSize] at *
    omega
  have counted := (List.subperm_of_subset distances subset).length_le
  rwa [List.length_map, List.length_range'] at counted

/-- For any settings, pages of growth stick out of the window by less than a page, and together they
are less than a page larger than the limit. -/
theorem Reachable.grownPages_within (reachable : machine.Reachable)
    (run : machine.after? events = some last) (pid : Pid) :
    (∀ place ∈ grownPages pid events machine,
      stackTop - machine.settings.stackLimit < place.toNat + (pageSize - 1) ∧
        place.toNat + pageSize ≤ stackTop) ∧
    (grownPages pid events machine).length ≤
      (machine.settings.stackLimit + (pageSize - 2)) / pageSize := by
  have grows (place : VirtAddr) (member : place ∈ grownPages pid events machine) :=
    reachable.growsTo_of_mem run member
  constructor
  · intro place member
    obtain ⟨grown, aligned⟩ := grows place member
    refine ⟨grown.window, ?_⟩
    have below := grown.below
    simp only [Address.offset, stackTop, pageSize] at *
    omega
  · apply length_le_of_within (reachable.nodup_grownPages run) fun place member =>
      (grows place member).2
    intro place member
    obtain ⟨grown, aligned⟩ := grows place member
    refine ⟨?_, grown.below⟩
    have window := grown.window
    simp only [Address.offset, stackTop, pageSize] at *
    omega

/-- The settings under which no page of growth sticks out of the window. -/
theorem Reachable.keepsStackLimit (reachable : machine.Reachable)
    (run : machine.after? events = some last)
    (whole : stackTop - pageSize ≤ machine.settings.stackLimit ∨
      machine.settings.stackLimit % pageSize ≤ 1) (pid : Pid) :
    KeepsStackLimit machine.settings (grownPages pid events machine) := by
  obtain ⟨bounds, count⟩ := reachable.grownPages_within run pid
  have notNull (place : VirtAddr) (member : place ∈ grownPages pid events machine) :
      pageSize ≤ place.toNat := by
    obtain ⟨grown, aligned⟩ := reachable.growsTo_of_mem run member
    have user := grown.user
    simp only [Address.isUser, decide_eq_true_eq] at user
    simp only [Address.offset, pageSize] at *
    omega
  constructor
  · intro place member
    obtain ⟨-, aligned⟩ := reachable.growsTo_of_mem run member
    have inside := bounds place member
    have above := notNull place member
    refine ⟨?_, inside.2⟩
    simp only [Address.offset, stackTop, pageSize] at *
    omega
  · rcases whole with wide | rounded
    · have most : (grownPages pid events machine).length ≤ stackTop / pageSize - 1 := by
        apply length_le_of_within (reachable.nodup_grownPages run) fun place member =>
          (reachable.growsTo_of_mem run member).2
        intro place member
        have above := notNull place member
        have below := (bounds place member).2
        simp only [stackTop, pageSize] at *
        omega
      simp only [stackTop, pageSize] at *
      omega
    · simp only [stackTop, pageSize] at *
      omega

/-! ## Settings under which a page sticks out -/

/-- A machine without frames, slots and files. -/
def bare (settings : Settings) : Machine :=
  create settings (FramePool.create 0) (Disk.create 0) ⟨#[]⟩

/-- A user write to the lowest byte of the window. -/
def probe (settings : Settings) : FaultReason where
  address := ⟨stackTop - settings.stackLimit + 1, by simp only [stackTop, Word.limit]; omega⟩
  code := { present := false, write := true, user := true }
  stackPointer := ⟨stackTop - settings.stackLimit + 1, by simp only [stackTop, Word.limit]; omega⟩

/-- A process writes to the lowest byte of the window. -/
def probing (settings : Settings) : List Event :=
  [.createProcess, .handleFault ⟨1⟩ (probe settings)]

theorem takeFrame_of_noFrames
    (noFrames : machine.resident = ResidentSet.create (FramePool.create 0)) :
    takeFrame machine = .failed .noMemory machine := by
  have choice : machine.resident.selectVictim testAndClearAccessed machine.spaces =
      .ok (none, machine.resident, machine.spaces) := by
    rw [noFrames]
    rfl
  have exhausted : machine.resident.acquire = none := by
    rw [noFrames]
    rfl
  simp only [takeFrame, evict, chooseVictim, Action.bind_apply, Action.get, exhausted, choice,
    Action.orHalt, Action.set, Action.require]
  rfl

/-- The page of the lowest byte of the window is registered, though it cannot be brought in. -/
theorem handleFault_probe {pagesAbove : Nat} (inside : settings.stackLimit < stackTop - pageSize)
    (holdsTwo : 1 < settings.stackLimit)
    (count : (stackTop - (probe settings).address.pageDown.toNat) / pageSize = pagesAbove + 1)
    (user : pagesAbove + 1 < stackTop / pageSize)
    (here : VirtAddr.stackPage (pagesAbove + 1) = (probe settings).address.pageDown) :
    ∃ after page, handleFault ⟨1⟩ (probe settings) (bare settings).inhabited =
        .failed .noMemory after ∧
      after.page? ⟨1⟩ (probe settings).address.pageDown = some page := by
  have vacant (address : VirtAddr) : (bare settings).inhabited.page? ⟨1⟩ address = none :=
    vacant_inhabited settings 0 (Disk.create 0) ⟨#[]⟩ address
  have found : (bare settings).inhabited.spaces[(⟨1⟩ : Pid)]? = some AddressSpace.empty := by
    simp [inhabited, bare, create]
  have address : (probe settings).address.toNat = stackTop - settings.stackLimit + 1 := rfl
  have notKernel : (probe settings).address.isKernel = false := by
    rw [Address.isKernel, address, decide_eq_false_iff_not]
    simp only [stackTop, kernelBase]
    omega
  have grows : growsStack settings (probe settings) = true := by
    have pointer : (probe settings).stackPointer = (probe settings).address := rfl
    simp only [growsStack, Bool.and_eq_true, decide_eq_true_eq, pointer, address]
    refine ⟨⟨rfl, rfl⟩, Nat.lt_succ_self _, ?_, Nat.sub_le _ _⟩
    simp only [stackTop, pageSize] at inside ⊢
    omega
  have registers := ends_registerStackPage (bare settings).inhabited ⟨1⟩ (pagesAbove + 1)
  cases added : registerPage ⟨1⟩ (VirtAddr.stackPage (pagesAbove + 1)) true .stack
      (.anonymous none) (bare settings).inhabited with
  | halted fault =>
      rw [added] at registers
      exact registers.elim
  | failed error stopped =>
      rw [added] at registers
      rcases registers.2 (vacant _) with lowest | missing
      · omega
      · rw [stackPointer?, found] at missing
        cases missing
  | done _ middle =>
      rw [added] at registers
      obtain ⟨step, pages⟩ := registers
      have atPage := pages ⟨1⟩ (VirtAddr.stackPage (pagesAbove + 1))
      rw [if_pos ⟨rfl, rfl⟩] at atPage
      have claims : makeResident ⟨1⟩ (VirtAddr.stackPage (pagesAbove + 1)) middle =
          .failed .noMemory middle := by
        have down := Address.pageDown_eq_self_iff.2 (offset_stackPage (pagesAbove + 1))
        have noFrame := takeFrame_of_noFrames ((of_register step).1.trans rfl)
        simp only [makeResident, Action.bind_apply, Action.get, findPage?_eq_page?, down, atPage]
        rw [if_neg (by simp [Page.isResident, Page.create]), Action.bind_apply, noFrame]
      refine ⟨middle, _, ?_, here ▸ atPage⟩
      have same : (bare settings).inhabited.settings = settings := rfl
      have missing : (bare settings).inhabited.hasStackPage ⟨1⟩ (pagesAbove + 1) = false := by
        rw [hasStackPage, vacant]
        rfl
      rw [handleFault_eq, notKernel, Bool.and_false, if_neg Bool.false_ne_true, found, vacant, same]
      dsimp only
      rw [if_pos grows, growStack, count, growFrom_succ found, missing,
        if_neg Bool.false_ne_true, Action.bind_apply, added]
      dsimp only
      rw [Action.bind_apply, claims]

/-- Where the limit ends within a page, but not right after its first byte, and that page is not the
one at address zero, a page of growth sticks out of the window. -/
theorem exceeds_probing (inside : settings.stackLimit < stackTop - pageSize)
    (within : 1 < settings.stackLimit % pageSize) :
    ∃ last, (bare settings).after? (probing settings) = some last ∧
      ¬KeepsStackLimit settings (grownPages ⟨1⟩ (probing settings) (bare settings)) := by
  have below : (probe settings).address.toNat < stackTop := by
    simp only [probe, stackTop, pageSize] at *
    omega
  obtain ⟨pagesAbove, count, -, here⟩ := stackPage_of_lt below
  have user : pagesAbove + 1 < stackTop / pageSize := by
    rw [← count, Address.toNat_pageDown]
    simp only [probe, stackTop, pageSize] at *
    omega
  have holdsTwo : 1 < settings.stackLimit := by
    simp only [pageSize] at within
    omega
  obtain ⟨last, page, handled, registered⟩ := handleFault_probe inside holdsTwo count user here
  have leaves : ((Event.handleFault ⟨1⟩ (probe settings)).perform
      (bare settings).inhabited).state? = some last := by
    rw [Event.perform, handled]
    rfl
  have created : (Event.createProcess.perform (bare settings)).state? =
      some (bare settings).inhabited := rfl
  have reachable : (bare settings).Reachable := .start ..
  have run : (bare settings).after? (probing settings) = some last := by
    rw [probing, after?, created, Option.bind_some, after?, leaves]
    rfl
  have member : (probe settings).address.pageDown ∈
      grownPages ⟨1⟩ (probing settings) (bare settings) := by
    rw [probing, grownPages_cons created, grownPages_cons leaves]
    apply List.mem_append_right
    apply List.mem_append_left
    rw [if_pos (show Event.MayFault (.handleFault ⟨1⟩ (probe settings)) = true from rfl),
      mem_newPages (reachable.of_after? run).sound]
    exact ⟨vacant_inhabited settings 0 (Disk.create 0) ⟨#[]⟩ _, page, registered⟩
  refine ⟨last, run, fun keeps => ?_⟩
  have inWindow := (keeps.within _ member).1
  rw [Address.toNat_pageDown] at inWindow
  simp only [probe, stackTop, pageSize] at *
  omega

/-! ## The limit -/

/-- Whatever the settings, pages of growth stick out of the window below the top of the stack by
less than a page. In every run and for every process they stay within it, and are no more bytes than
the limit, exactly if no page can stick out: the limit ends at a page boundary or one byte after it,
or it leaves out none but the page at address zero. -/
theorem stack_limit_kept_iff (settings : Settings) :
    (∀ frames disk files events last,
      (create settings (FramePool.create frames) disk files).after? events = some last → ∀ pid,
        (∀ place ∈ grownPages pid events (create settings (FramePool.create frames) disk files),
          stackTop - settings.stackLimit < place.toNat + (pageSize - 1) ∧
            place.toNat + pageSize ≤ stackTop) ∧
        (grownPages pid events (create settings (FramePool.create frames) disk files)).length ≤
          (settings.stackLimit + (pageSize - 2)) / pageSize) ∧
    ((∀ frames disk files events last,
      (create settings (FramePool.create frames) disk files).after? events = some last → ∀ pid,
        KeepsStackLimit settings
          (grownPages pid events (create settings (FramePool.create frames) disk files))) ↔
      stackTop - pageSize ≤ settings.stackLimit ∨ settings.stackLimit % pageSize ≤ 1) := by
  constructor
  · intro frames disk files events last run pid
    have start : (create settings (FramePool.create frames) disk files).Reachable := .start ..
    exact start.grownPages_within run pid
  · constructor
    · intro keeps
      by_contra sticksOut
      rw [not_or, Nat.not_le, Nat.not_le] at sticksOut
      obtain ⟨last, run, exceeds⟩ := exceeds_probing sticksOut.1 sticksOut.2
      exact exceeds (keeps 0 (Disk.create 0) ⟨#[]⟩ (probing settings) last run ⟨1⟩)
    · intro whole frames disk files events last run pid
      have start : (create settings (FramePool.create frames) disk files).Reachable := .start ..
      exact start.keepsStackLimit run whole pid

/-- A machine with one frame, of which the stack may take a hundred bytes. -/
def hundredBytes : Machine :=
  create { stackLimit := 100 } (FramePool.create 1) (Disk.create 16) ⟨#[]⟩

/-- A process writes to the last byte below the top of the stack. -/
def pushingOnce : List Event :=
  [.createProcess, .handleFault ⟨1⟩
    { address := ⟨0x4747ffff, by decide⟩
      code := { present := false, write := true, user := true }
      stackPointer := ⟨0x4747ffff, by decide⟩ }]

/-- The fault is handled, and the stack has a whole page. -/
theorem stack_limit_exceeded_pushing :
    ∃ last, hundredBytes.after? pushingOnce = some last ∧
      (last.findPage? ⟨1⟩ ⟨0x4747f000, by decide⟩).isSome = true ∧
      grownPages ⟨1⟩ pushingOnce hundredBytes = [⟨0x4747f000, by decide⟩] ∧
      ¬KeepsStackLimit { stackLimit := 100 } (grownPages ⟨1⟩ pushingOnce hundredBytes) := by
  have runs : ((hundredBytes.after? pushingOnce).map fun last =>
      (last.findPage? ⟨1⟩ ⟨0x4747f000, by decide⟩).isSome) = some true := by decide +kernel
  have grown : grownPages ⟨1⟩ pushingOnce hundredBytes = [⟨0x4747f000, by decide⟩] := by
    decide +kernel
  obtain ⟨last, run, present⟩ := Option.map_eq_some_iff.1 runs
  refine ⟨last, run, present, grown, fun keeps => ?_⟩
  have total := keeps.total
  rw [grown] at total
  exact absurd total (by decide)

end Machine

end DemandPaging
