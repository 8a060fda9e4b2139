import DemandPaging.Proofs.Access
import DemandPaging.Proofs.Grace

/-!
What a fault that was handled leaves in memory.

Owns:
- `Machine.growth`, by how many pages the stack has to grow to hold an address;
- what one page of growth does to a page that is in memory, and what all of them do;
- when a faulting access succeeds after its fault was handled.

Does not own: how long a page stays in memory (`Machine.Lasts`).

The stack grows from the faulting page upward, and every page by which it grows is brought in at
once. The faulting page comes first, so the pages after it may drive it out again.

Main statements: `ends_growFrom` and `ends_handleFault`, the faulting page is in memory afterwards
exactly when the stack did not grow by more pages than the machine has grace for.
-/

namespace DemandPaging

namespace Machine

/-- The number of pages from a stack page upward, until a page that is registered or the top. -/
def stackGap (machine : Machine) (pid : Pid) : Nat → Nat
  | 0 => 0
  | pagesAbove + 1 =>
    if (machine.page? pid (VirtAddr.stackPage (pagesAbove + 1))).isSome then 0
    else machine.stackGap pid pagesAbove + 1

/-- The number of pages by which the stack of a process has to grow to hold an address. It is zero
if the page of the address is registered. -/
def growth (machine : Machine) (pid : Pid) (address : VirtAddr) : Nat :=
  machine.stackGap pid ((stackTop - address.pageDown.toNat) / pageSize)

variable {before middle after : Machine} {pid : Pid} {address : VirtAddr}

/-! ## Stack pages -/

theorem toNat_stackPage (pagesToTop : Nat) :
    (VirtAddr.stackPage pagesToTop).toNat = stackTop - pagesToTop * pageSize := rfl

theorem offset_stackPage (pagesToTop : Nat) : (VirtAddr.stackPage pagesToTop).offset = 0 := by
  rw [Address.offset, toNat_stackPage]
  simp only [stackTop, pageSize]
  omega

theorem stackPage_injective {left right : Nat} (leftFits : left ≤ stackTop / pageSize)
    (rightFits : right ≤ stackTop / pageSize)
    (same : VirtAddr.stackPage left = VirtAddr.stackPage right) : left = right := by
  have sameNumber : stackTop - left * pageSize = stackTop - right * pageSize := by
    rw [← toNat_stackPage, ← toNat_stackPage, same]
  simp only [stackTop, pageSize] at *
  omega

theorem stackPage_of_lt (below : address.toNat < stackTop) :
    ∃ pagesAbove, (stackTop - address.pageDown.toNat) / pageSize = pagesAbove + 1 ∧
      pagesAbove + 1 ≤ stackTop / pageSize ∧
      VirtAddr.stackPage (pagesAbove + 1) = address.pageDown := by
  have down := Address.toNat_pageDown address
  refine ⟨(stackTop - address.pageDown.toNat) / pageSize - 1, ?_, ?_, ?_⟩
  · simp only [stackTop, pageSize] at *
    omega
  · simp only [stackTop, pageSize] at *
    omega
  · apply Address.ext_toNat
    rw [toNat_stackPage]
    simp only [stackTop, pageSize] at *
    omega

/-! ## What is registered -/

theorem stackGap_congr {pagesToTop : Nat}
    (same : ∀ pages, 0 < pages → pages ≤ pagesToTop →
      (after.page? pid (VirtAddr.stackPage pages)).isSome =
        (before.page? pid (VirtAddr.stackPage pages)).isSome) :
    after.stackGap pid pagesToTop = before.stackGap pid pagesToTop := by
  induction pagesToTop with
  | zero => rfl
  | succ pagesAbove inductionHypothesis =>
      have rest := inductionHypothesis fun pages positive fits =>
        same pages positive (Nat.le_succ_of_le fits)
      rw [stackGap, stackGap, same (pagesAbove + 1) (Nat.succ_pos _) (Nat.le_refl _), rest]

theorem stackGap_of_registered {pagesAbove : Nat}
    (registered : (before.page? pid (VirtAddr.stackPage (pagesAbove + 1))).isSome = true) :
    before.stackGap pid (pagesAbove + 1) = 0 := by
  rw [stackGap, if_pos registered]

theorem stackGap_of_vacant {pagesAbove : Nat}
    (vacant : before.page? pid (VirtAddr.stackPage (pagesAbove + 1)) = none) :
    before.stackGap pid (pagesAbove + 1) = before.stackGap pid pagesAbove + 1 := by
  rw [stackGap, vacant]
  rfl

/-- Pages that move in and out of memory stay registered, and no page comes. -/
theorem isSome_page?_of_unseen (path : Path Move.IsUnseen before after) (sound : before.Sound)
    (pid : Pid) (address : VirtAddr) :
    (after.page? pid address).isSome = (before.page? pid address).isSome :=
  path.isSome_page? sound fun _ => ⟨id, id⟩

/-- Registering a page moves no page and clears no mark. -/
theorem of_register {kind : PageKind} (step : Step (.register pid address kind) before after) :
    after.resident = before.resident ∧
      ∀ frame, after.wasAccessed frame = before.wasAccessed frame := by
  cases step with
  | register found =>
      refine ⟨rfl, fun frame => wasAccessed_congr rfl fun owner _ => ?_⟩
      exact marked_keep found (by rfl) owner

/-! ## One page of growth -/

/-- A stack page was registered, and then it was brought in. -/
structure Grew (before : Machine) (pid : Pid) (page : VirtAddr) (middle after : Machine) :
    Prop where
  added : Step (.register pid page .anonymous) before middle
  lookup : ∀ place, (middle.page? pid place).isSome =
    (decide (page = place) || (before.page? pid place).isSome)
  created : middle.page? pid page =
    some (Page.create page true .stack (.untouched (.anonymous none)))
  broughtIn : middle.BroughtIn pid page after

/-- A stack page is registered, unless there is one at its address, or it is the page at address
zero, or the process does not exist. -/
theorem ends_registerStackPage (before : Machine) (pid : Pid) (pagesToTop : Nat) :
    (registerPage pid (VirtAddr.stackPage pagesToTop) true .stack (.anonymous none) before).Ends
      (fun _ after => Step (.register pid (VirtAddr.stackPage pagesToTop) .anonymous) before after ∧
        ∀ other place, after.page? other place =
          if pid = other ∧ VirtAddr.stackPage pagesToTop = place then
            some (Page.create (VirtAddr.stackPage pagesToTop) true .stack
              (.untouched (.anonymous none)))
          else before.page? other place)
      (fun _ after => after = before ∧
        (before.page? pid (VirtAddr.stackPage pagesToTop) = none →
          stackTop / pageSize ≤ pagesToTop ∨ before.stackPointer? pid = none))
      (fun _ => False) := by
  have down := Address.pageDown_eq_self_iff.2 (offset_stackPage pagesToTop)
  unfold registerPage
  split
  case isFalse refused =>
    refine ⟨rfl, fun _ => .inl ?_⟩
    rw [Address.isUser, decide_eq_true_eq, toNat_stackPage] at refused
    simp only [stackTop, pageSize, kernelBase] at *
    omega
  case isTrue =>
    have noMapping : ∀ mapping,
        (Page.create (VirtAddr.stackPage pagesToTop) true .stack
          (.untouched (.anonymous none))).mapping? = some mapping → before.Admits pid mapping := by
      intro mapping mapped
      cases mapped
    have ends : (insertPage pid (Page.create (VirtAddr.stackPage pagesToTop) true .stack
        (.untouched (.anonymous none))) before).Ends _ _ _ :=
      ends_insertPage rfl rfl (Address.offset_pageDown (VirtAddr.stackPage pagesToTop)) noMapping
    rw [show (Page.create (VirtAddr.stackPage pagesToTop) true .stack
      (.untouched (.anonymous none))).address = VirtAddr.stackPage pagesToTop from down] at ends
    exact ends.imp (fun _ _ added => added)
      (fun _ _ refused => ⟨refused.1, fun unknown => .inr (refused.2 unknown)⟩) (fun _ no => no)

/-- A stack page that is not registered is registered and brought in at once. -/
theorem ends_growFrom_succ {pagesAbove : Nat} {done : Unit → Machine → Prop}
    (sound : before.Sound)
    (unknown : before.page? pid (VirtAddr.stackPage (pagesAbove + 1)) = none)
    (next : ∀ middle after,
      before.Grew pid (VirtAddr.stackPage (pagesAbove + 1)) middle after →
      (growFrom pid pagesAbove after).Ends done (fun _ _ => True) (fun _ => True)) :
    (growFrom pid (pagesAbove + 1) before).Ends done (fun _ _ => True) (fun _ => True) := by
  have down := Address.pageDown_eq_self_iff.2 (offset_stackPage (pagesAbove + 1))
  simp only [growFrom, Action.ends_bind, space, Action.ends_require]
  refine ⟨fun target found => ?_, fun _ => trivial⟩
  have notFound : (target.pages.find? (VirtAddr.stackPage (pagesAbove + 1))).isSome = false := by
    rw [PageRegistry.find?_eq_at?, down, ← page?_of_space found, unknown]
    rfl
  rw [notFound, if_neg Bool.false_ne_true, Action.ends_bind]
  refine (ends_registerStackPage before pid (pagesAbove + 1)).imp ?_
    (fun _ _ _ => trivial) (fun _ _ => trivial)
  intro _ middle registered
  obtain ⟨added, pages⟩ := registered
  rw [Action.ends_bind]
  have here := pages pid (VirtAddr.stackPage (pagesAbove + 1))
  rw [if_pos ⟨rfl, rfl⟩] at here
  have lookup (place : VirtAddr) : (middle.page? pid place).isSome =
      (decide (VirtAddr.stackPage (pagesAbove + 1) = place) ||
        (before.page? pid place).isSome) := by
    rw [pages]
    split
    case isTrue same => simp [same.2]
    case isFalse other =>
      simp [show VirtAddr.stackPage (pagesAbove + 1) ≠ place by simpa using other]
  refine (ends_makeResident (added.sound sound) pid (VirtAddr.stackPage (pagesAbove + 1))).imp ?_
    (fun _ _ _ => trivial) (fun _ _ => trivial)
  intro _ after result
  rw [down] at result
  rcases result with ⟨-, resident⟩ | ⟨-, broughtIn⟩
  · rw [frame?, here] at resident
    cases resident
  · exact next middle after ⟨added, lookup, here, broughtIn⟩

/-- One page of growth leaves the gap above it as it was. -/
theorem Grew.stackGap {pagesAbove : Nat} (sound : before.Sound)
    (fits : pagesAbove + 1 ≤ stackTop / pageSize)
    (grew : before.Grew pid (VirtAddr.stackPage (pagesAbove + 1)) middle after) :
    after.stackGap pid pagesAbove = before.stackGap pid pagesAbove := by
  apply stackGap_congr
  intro pages _ below
  have different : VirtAddr.stackPage (pagesAbove + 1) ≠ VirtAddr.stackPage pages := by
    intro same
    have sameNumber := stackPage_injective fits (by omega) same
    omega
  rw [isSome_page?_of_unseen grew.broughtIn.path (grew.added.sound sound), grew.lookup,
    decide_eq_false different, Bool.false_or]

/-- Every page of growth shortens the stay of a page that is not among them by one. -/
theorem ends_growFrom {kept : FrameOwner} {left pagesAbove : Nat} (sound : before.Sound)
    (lasts : before.Lasts kept left) (fits : pagesAbove ≤ stackTop / pageSize)
    (elsewhere : ∀ pages, pages ≤ pagesAbove →
      (⟨pid, VirtAddr.stackPage pages⟩ : FrameOwner) ≠ kept) :
    (growFrom pid pagesAbove before).Ends
      (fun _ after => after.Lasts kept (left - before.stackGap pid pagesAbove))
      (fun _ _ => True) (fun _ => True) := by
  induction pagesAbove generalizing before left with
  | zero => exact lasts
  | succ pagesAbove inductionHypothesis =>
      cases registered : before.page? pid (VirtAddr.stackPage (pagesAbove + 1)) with
      | some page =>
          -- Growth stops at the first page that is registered.
          have noGap : before.stackGap pid (pagesAbove + 1) = 0 :=
            stackGap_of_registered (by rw [registered]; rfl)
          have down := Address.pageDown_eq_self_iff.2 (offset_stackPage (pagesAbove + 1))
          rw [noGap, Nat.sub_zero]
          simp only [growFrom, Action.ends_bind, space, Action.ends_require]
          refine ⟨fun target found => ?_, fun _ => trivial⟩
          have isFound :
              (target.pages.find? (VirtAddr.stackPage (pagesAbove + 1))).isSome = true := by
            rw [PageRegistry.find?_eq_at?, down, ← page?_of_space found, registered]
            rfl
          rw [isFound, if_pos rfl]
          exact lasts
      | none =>
          -- The page that is added takes one turn of the stay.
          apply ends_growFrom_succ sound registered
          intro middle after grew
          have soundMiddle := grew.added.sound sound
          have soundAfter := grew.broughtIn.path.sound soundMiddle
          obtain ⟨resident, marks⟩ := of_register grew.added
          have lastsAfter := (lasts.congr resident marks).broughtIn soundMiddle grew.broughtIn
            (elsewhere (pagesAbove + 1) (Nat.le_refl _))
          have gap := stackGap_of_vacant registered
          have rest := inductionHypothesis soundAfter lastsAfter (by omega)
            fun pages below => elsewhere pages (Nat.le_succ_of_le below)
          rw [grew.stackGap sound fits, Nat.sub_sub, Nat.add_comm 1, ← gap] at rest
          exact rest

/-! ## Faults -/

/-- A stack that grew holds the faulting page for what the growth left of its stay. -/
theorem ends_growStack (sound : before.Sound) (below : address.toNat < stackTop)
    (unknown : before.page? pid address.pageDown = none) :
    (growStack pid address before).Ends
      (fun _ after =>
        (∃ page, after.page? pid address.pageDown = some page ∧ page.writable = true) ∧
        ∃ left, after.Lasts ⟨pid, address.pageDown⟩ left ∧
          (0 < left ↔ before.growth pid address ≤ before.grace))
      (fun _ _ => True) (fun _ => True) := by
  obtain ⟨pagesAbove, count, fits, here⟩ := stackPage_of_lt below
  unfold growStack
  rw [count]
  apply ends_growFrom_succ sound (here ▸ unknown)
  intro middle after grew
  have soundMiddle := grew.added.sound sound
  have soundAfter := grew.broughtIn.path.sound soundMiddle
  obtain ⟨resident, marks⟩ := of_register grew.added
  have lastsAfter := grew.broughtIn.lasts soundMiddle
  have elsewhere : ∀ pages, pages ≤ pagesAbove →
      (⟨pid, VirtAddr.stackPage pages⟩ : FrameOwner) ≠
        ⟨pid, VirtAddr.stackPage (pagesAbove + 1)⟩ := by
    intro pages below same
    injection same with _ samePage
    have sameNumber := stackPage_injective (by omega) fits samePage
    omega
  -- The faulting page comes first, and the stay it is given has to outlast the pages above it.
  have growth : before.growth pid address = before.stackGap pid pagesAbove + 1 := by
    rw [Machine.growth, count, stackGap_of_vacant (here ▸ unknown)]
  have gap := grew.stackGap sound fits
  rw [here] at lastsAfter elsewhere grew
  have rest := ends_growFrom soundAfter lastsAfter (by omega) elsewhere
  rw [gap, grace_congr resident marks] at rest
  refine (rest.and ((takes_growFrom pid pagesAbove).ends after soundAfter)).imp ?_
    (fun _ _ _ => trivial) (fun _ _ => trivial)
  intro _ grown result
  obtain ⟨lasts, path⟩ := result
  constructor
  · obtain ⟨moved, stays, continues⟩ := grew.broughtIn.path.exists_page? soundMiddle grew.created
      fun _ => id
    obtain ⟨last, staysLast, continuesLast⟩ := path.exists_page? soundAfter stays
      (Move.not_registers_remove address.pageDown)
    exact ⟨last, staysLast, by rw [continuesLast.writable, continues.writable]; rfl⟩
  · refine ⟨_, lasts, ?_⟩
    rw [growth]
    omega

theorem growth_eq_zero (registered : (before.page? pid address.pageDown).isSome = true) :
    before.growth pid address = 0 := by
  by_cases below : address.toNat < stackTop
  · obtain ⟨pagesAbove, count, -, here⟩ := stackPage_of_lt below
    rw [growth, count, stackGap_of_registered (here ▸ registered)]
  · have none : (stackTop - address.pageDown.toNat) / pageSize = 0 := by
      have down := Address.toNat_pageDown address
      simp only [stackTop, pageSize] at *
      omega
    rw [growth, none]
    rfl

/-- A registered page that allows an access can be accessed once it was made resident. -/
theorem ends_makeResident_accessible (sound : before.Sound) {page : Page} {write : Bool}
    (registered : before.page? pid address.pageDown = some page)
    (permits : write = true → page.writable = true) :
    (makeResident pid address before).Ends
      (fun _ after => after.Accessible pid address write) (fun _ _ => True) (fun _ => True) := by
  refine (ends_makeResident sound pid address).imp ?_ (fun _ _ _ => trivial) (fun _ _ => trivial)
  intro _ after result
  rcases result with ⟨rfl, resident⟩ | ⟨-, broughtIn⟩
  · rw [frame?, registered] at resident
    exact ⟨page, registered, resident, permits⟩
  · obtain ⟨changed, found, continues⟩ :=
      broughtIn.path.exists_page? sound registered fun _ => id
    obtain ⟨frame, -, -, -, -, -, -, held⟩ := broughtIn
    rw [frame?, found, Option.bind_some] at held
    refine ⟨changed, found, by rw [held]; rfl, ?_⟩
    rw [continues.writable]
    exact permits

/-- After a fault was handled, the access is possible exactly when the stack did not have to grow by
more pages than the machine had grace for. -/
theorem ends_handleFault (sound : before.Sound) (pid : Pid) (reason : FaultReason) :
    (handleFault pid reason before).Ends
      (fun _ after =>
        (after.page? pid reason.address.pageDown).isSome = true ∧
        (after.Accessible pid reason.address reason.code.write ↔
          before.growth pid reason.address ≤ before.grace) ∧
        (reason.code.write = false → before.growth pid reason.address = 0))
      (fun _ _ => True) (fun _ => True) := by
  unfold handleFault
  split
  case isTrue => trivial
  case isFalse =>
    simp only [Action.ends_bind, space, Action.ends_require]
    refine ⟨fun target found => ?_, fun _ => trivial⟩
    have lookup := page?_of_space found reason.address.pageDown
    rw [PageRegistry.find?_eq_at?, ← lookup]
    cases registered : before.page? pid reason.address.pageDown with
    | some page =>
        have noGrowth := growth_eq_zero (by rw [registered]; rfl)
        dsimp only
        split
        case isTrue => trivial
        case isFalse allowed =>
          have permits : reason.code.write = true → page.writable = true := by
            intro write
            simpa [write] using allowed
          refine (ends_makeResident_accessible sound registered permits).imp ?_
            (fun _ _ _ => trivial) (fun _ _ => trivial)
          intro _ after accessible
          have present : (after.page? pid reason.address.pageDown).isSome = true := by
            obtain ⟨last, stays, -⟩ := accessible
            rw [stays]
            rfl
          rw [noGrowth]
          exact ⟨present, ⟨fun _ => Nat.zero_le _, fun _ => accessible⟩, fun _ => rfl⟩
    | none =>
        simp only [Action.ends_bind, Action.ends_get]
        split
        case isFalse => trivial
        case isTrue grows =>
          unfold growsStack at grows
          simp only [Bool.and_eq_true, decide_eq_true_eq] at grows
          obtain ⟨⟨-, write⟩, -, below, -⟩ := grows
          have path := (takes_growFrom pid
            ((stackTop - reason.address.pageDown.toNat) / pageSize)).ends before sound
          refine ((ends_growStack sound below registered).and path).imp ?_
            (fun _ _ _ => trivial) (fun _ _ => trivial)
          intro _ after result
          obtain ⟨⟨⟨page, found', writable⟩, left, lasts, enough⟩, path⟩ := result
          have present := lasts.frame?_isSome_iff (path.sound sound).frames
          rw [frame?, found', Option.bind_some, enough] at present
          rw [write, ← present]
          refine ⟨by rw [found']; rfl, ⟨?_, fun held => ⟨page, found', held, fun _ => writable⟩⟩,
            ?_⟩
          · intro accessible
            obtain ⟨other, known, held, -⟩ := accessible
            rw [found'] at known
            cases known
            exact held
          · intro reads
            cases reads

end Machine

end DemandPaging
