import DemandPaging.Proofs.Growth
import DemandPaging.Proofs.StackHoles

/-!
Which pages the growth of a stack leaves behind.

Owns:
- `Machine.Gained`, a stack page of zero bytes is at an address, in memory or saved;
- `Machine.StackGrown`, a stack gained every page from one address up to another and nothing else
  became of any page;
- that a growth which succeeds goes up to the first page that was registered, or to the top.

Does not own: which of the pages are in memory afterwards (`ends_growFrom`), and what a growth that
is given up leaves behind (`Reachable.stack_has_no_holes_iff`).

Each page of a growth is brought in before the next one is registered, and a later one may drive an
earlier one out again. What the earlier one holds is kept, wherever it is.

Main statement: `Reachable.stack_grown_of_fault`.
-/

namespace DemandPaging

/-- A page by which a stack grew. -/
structure Page.OfGrowth (page : Page) : Prop where
  writable : page.writable = true
  marker : page.marker = .stack
  kind : page.kind = .anonymous
  touched : page.isUntouched = false

namespace Machine

/-- A stack page that holds zero bytes, in its frame or in its slot, is at an address. -/
structure Gained (machine : Machine) (pid : Pid) (address : VirtAddr) : Prop where
  registered : ∃ page, machine.page? pid address = some page ∧ page.OfGrowth
  zero : machine.contents? pid address = some Block.zero

/-- The stack gained the pages between two distances from its top, and any other page is what it
was. -/
structure Gains (before : Machine) (pid : Pid) (low high : Nat) (after : Machine) : Prop where
  gained : ∀ pages, low < pages → pages ≤ high → after.Gained pid (VirtAddr.stackPage pages)
  others : ∀ other place,
    ¬(other = pid ∧ ∃ pages, low < pages ∧ pages ≤ high ∧ VirtAddr.stackPage pages = place) →
    before.KeepsPage after other place

/-- The stack of a process gained the pages from one address up to another, and any other page of
any process is what it was. -/
structure StackGrown (before : Machine) (pid : Pid) (bottom edge : VirtAddr) (after : Machine) :
    Prop where
  below : bottom < edge
  /-- Growth ends at a page that was registered, or at the top of the stack. -/
  ends : edge = VirtAddr.stackTop ∨
    edge < VirtAddr.stackTop ∧ (before.page? pid edge).isSome = true
  /-- There was no page on the way. -/
  vacant : ∀ place, bottom ≤ place → place < edge → before.page? pid place = none
  gained : ∀ place : VirtAddr, place.offset = 0 → bottom ≤ place → place < edge →
    after.Gained pid place
  others : ∀ other place,
    ¬(other = pid ∧ place.offset = 0 ∧ bottom ≤ place ∧ place < edge) →
    before.KeepsPage after other place

variable {before middle grown after machine : Machine} {pid other : Pid}
  {address place : VirtAddr} {pagesAbove low high : Nat}

/-! ## One page -/

/-- A page that is brought in leaves every other page what it was. -/
theorem BroughtIn.keepsPage (broughtIn : before.BroughtIn pid address after) (sound : before.Sound)
    (elsewhere : ¬(other = pid ∧ address = place)) : before.KeepsPage after other place := by
  obtain ⟨frame, kind, first, settled, inHand, holding, step, -⟩ := broughtIn
  have room : before.KeepsPage settled other place :=
    holding.path.keepsPage sound (fun _ => id) (fun _ => id) id fun _ _ => id
  refine room.trans (step.keepsPage (holding.path.sound sound) nofun nofun nofun ?_)
  intro otherFrame otherKind same
  injection same with samePid samePlace
  exact elsewhere ⟨samePid.symm, samePlace⟩

/-- A page by which the stack grew is a stack page of zero bytes. -/
theorem Grew.gained (sound : before.Sound) (grew : before.Grew pid address middle after) :
    after.Gained pid address := by
  have soundMiddle := grew.added.sound sound
  have path := grew.broughtIn.path
  obtain ⟨page, found, continues⟩ := path.exists_page? soundMiddle grew.created fun _ => id
  have untouchedZero : middle.contents? pid address = some Block.zero := by
    rw [contents?_of_page grew.created]
    rfl
  have zero := path.contents? soundMiddle untouchedZero id id
  refine ⟨⟨page, found, continues.writable, continues.marker, continues.kind, ?_⟩, zero⟩
  -- The page was brought in last, and no page is in memory before it is touched.
  obtain ⟨frame, -, -, -, -, -, -, held⟩ := grew.broughtIn
  rw [frame?, found, Option.bind_some] at held
  rw [Bool.eq_false_iff]
  intro fresh
  have placed := (path.sound soundMiddle).slots.placed pid address page found
  rw [placed.frame_eq_none fresh] at held
  cases held

/-- Growth by one page leaves every other page what it was. -/
theorem Grew.keepsPage (sound : before.Sound) (grew : before.Grew pid address middle after)
    (elsewhere : ¬(other = pid ∧ address = place)) : before.KeepsPage after other place := by
  have registers : before.KeepsPage middle other place := by
    refine grew.added.keepsPage sound (fun kind same => ?_) nofun nofun nofun
    injection same with samePid samePlace
    exact elsewhere ⟨samePid.symm, samePlace⟩
  exact registers.trans (grew.broughtIn.keepsPage (grew.added.sound sound) elsewhere)

/-- Growing further up takes nothing from a page that was gained. -/
theorem Gained.keepsPage (gained : before.Gained pid address)
    (keeps : before.KeepsPage after pid address) : after.Gained pid address := by
  obtain ⟨page, registered, ofGrowth⟩ := gained.registered
  obtain ⟨kept, found, continues, -⟩ := keeps.present page registered
  refine ⟨⟨kept, found, ?_, ?_, ?_, continues.touched ofGrowth.touched⟩, ?_⟩
  · rw [continues.writable, ofGrowth.writable]
  · rw [continues.marker, ofGrowth.marker]
  · rw [continues.kind, ofGrowth.kind]
  · rw [keeps.contents, gained.zero]

/-! ## All pages of a growth -/

theorem Gains.refl (machine : Machine) (pid : Pid) (high : Nat) :
    machine.Gains pid high high machine where
  gained _ above upTo := absurd upTo (Nat.not_le_of_lt above)
  others other place _ := .refl machine other place

/-- The stack grows by a page and then by the pages above it. -/
theorem Gains.cons (sound : before.Sound) (fits : pagesAbove + 1 ≤ stackTop / pageSize)
    (inside : low ≤ pagesAbove)
    (grew : before.Grew pid (VirtAddr.stackPage (pagesAbove + 1)) middle grown)
    (rest : grown.Gains pid low pagesAbove after) :
    before.Gains pid low (pagesAbove + 1) after where
  gained pages above upTo := by
    rcases Nat.lt_or_eq_of_le upTo with further | rfl
    · exact rest.gained pages above (Nat.le_of_lt_succ further)
    · refine (grew.gained sound).keepsPage (rest.others _ _ ?_)
      rintro ⟨-, pages, -, upToHere, same⟩
      have sameNumber := stackPage_injective (by omega) fits same
      omega
  others other place elsewhere := by
    refine (grew.keepsPage sound ?_).trans (rest.others other place ?_)
    · rintro ⟨samePid, samePlace⟩
      exact elsewhere ⟨samePid, pagesAbove + 1, by omega, Nat.le_refl _, samePlace⟩
    · rintro ⟨samePid, pages, above, upTo, samePlace⟩
      exact elsewhere ⟨samePid, pages, above, Nat.le_succ_of_le upTo, samePlace⟩

theorem stackGap_le (machine : Machine) (pid : Pid) (pagesToTop : Nat) :
    machine.stackGap pid pagesToTop ≤ pagesToTop := by
  induction pagesToTop with
  | zero => exact Nat.le_refl 0
  | succ pagesAbove inductionHypothesis =>
      rw [stackGap]
      split
      · exact Nat.zero_le _
      · exact Nat.succ_le_succ inductionHypothesis

/-- There is no page in the gap, and it ends at a page or at the top. -/
theorem stackGap_spec (machine : Machine) (pid : Pid) (pagesToTop : Nat) :
    (∀ pages, pagesToTop - machine.stackGap pid pagesToTop < pages → pages ≤ pagesToTop →
      machine.page? pid (VirtAddr.stackPage pages) = none) ∧
    (pagesToTop - machine.stackGap pid pagesToTop = 0 ∨
      (machine.page? pid
        (VirtAddr.stackPage (pagesToTop - machine.stackGap pid pagesToTop))).isSome = true) := by
  induction pagesToTop with
  | zero => exact ⟨fun pages above upTo => absurd upTo (Nat.not_le_of_lt above), .inl rfl⟩
  | succ pagesAbove inductionHypothesis =>
      cases registered : machine.page? pid (VirtAddr.stackPage (pagesAbove + 1)) with
      | some page =>
          have isRegistered :
              (machine.page? pid (VirtAddr.stackPage (pagesAbove + 1))).isSome = true := by
            rw [registered]
            rfl
          rw [stackGap_of_registered isRegistered, Nat.sub_zero]
          exact ⟨fun pages above upTo => absurd upTo (Nat.not_le_of_lt above), .inr isRegistered⟩
      | none =>
          obtain ⟨vacant, ends⟩ := inductionHypothesis
          rw [stackGap_of_vacant registered, Nat.add_sub_add_right]
          refine ⟨fun pages above upTo => ?_, ends⟩
          rcases Nat.lt_or_eq_of_le upTo with further | rfl
          · exact vacant pages above (Nat.le_of_lt_succ further)
          · exact registered

/-- A growth that succeeds goes on until the gap is closed. -/
theorem ends_growFrom_gains (sound : before.Sound) (fits : pagesAbove ≤ stackTop / pageSize) :
    (growFrom pid pagesAbove before).Ends
      (fun _ after =>
        before.Gains pid (pagesAbove - before.stackGap pid pagesAbove) pagesAbove after)
      (fun _ _ => True) (fun _ => True) := by
  induction pagesAbove generalizing before with
  | zero => exact .refl before pid 0
  | succ pagesAbove inductionHypothesis =>
      cases registered : before.page? pid (VirtAddr.stackPage (pagesAbove + 1)) with
      | some page =>
          have isRegistered : before.hasStackPage pid (pagesAbove + 1) = true := by
            rw [hasStackPage, registered]
            rfl
          obtain ⟨space, found, -⟩ := space_of_page? registered
          rw [growFrom_succ found, if_pos isRegistered, stackGap_of_registered isRegistered]
          exact .refl before pid (pagesAbove + 1)
      | none =>
          apply ends_growFrom_succ sound registered
          intro middle grown grew
          have soundGrown := grew.broughtIn.path.sound (grew.added.sound sound)
          refine (inductionHypothesis soundGrown (Nat.le_of_succ_le fits)).imp ?_
            (fun _ _ _ => trivial) (fun _ _ => trivial)
          intro _ after rest
          rw [grew.stackGap sound fits] at rest
          rw [stackGap_of_vacant registered, Nat.add_sub_add_right]
          exact .cons sound fits (Nat.sub_le ..) grew rest

/-! ## Addresses -/

/-- The first addresses of the pages of a growth. -/
theorem exists_stackPage_iff (fits : high ≤ stackTop / pageSize) :
    (∃ pages, low < pages ∧ pages ≤ high ∧ VirtAddr.stackPage pages = place) ↔
      place.offset = 0 ∧ VirtAddr.stackPage high ≤ place ∧ place < VirtAddr.stackPage low := by
  rw [Address.le_iff_toNat_le, Address.lt_iff_toNat_lt, toNat_stackPage, toNat_stackPage]
  constructor
  · rintro ⟨pages, above, upTo, rfl⟩
    refine ⟨offset_stackPage pages, ?_, ?_⟩
    all_goals
      rw [toNat_stackPage]
      simp only [stackTop, pageSize] at *
      omega
  · rintro ⟨aligned, atLeast, atMost⟩
    rw [Address.offset] at aligned
    have whole : (stackTop - place.toNat) / pageSize * pageSize = stackTop - place.toNat := by
      simp only [stackTop, pageSize] at *
      omega
    refine ⟨(stackTop - place.toNat) / pageSize, ?_, ?_, Address.ext_toNat ?_⟩
    · simp only [stackTop, pageSize] at *
      omega
    · simp only [stackTop, pageSize] at *
      omega
    · rw [toNat_stackPage, whole]
      exact Nat.sub_sub_self (by omega)

/-- A stack that gained the pages of its gap grew up to its edge. -/
theorem Gains.stackGrown (sound : before.Sound) (fits : high ≤ stackTop / pageSize)
    (gap : 0 < before.stackGap pid high)
    (gains : before.Gains pid (high - before.stackGap pid high) high after) :
    before.StackGrown pid (VirtAddr.stackPage high)
      (VirtAddr.stackPage (high - before.stackGap pid high)) after := by
  obtain ⟨vacant, ends⟩ := before.stackGap_spec pid high
  have gapLe := before.stackGap_le pid high
  have places (place : VirtAddr) : (∃ pages, high - before.stackGap pid high < pages ∧
      pages ≤ high ∧ VirtAddr.stackPage pages = place) ↔ _ :=
    exists_stackPage_iff fits
  constructor
  case below =>
    rw [Address.lt_iff_toNat_lt, toNat_stackPage, toNat_stackPage]
    simp only [stackTop, pageSize] at *
    omega
  case ends =>
    by_cases top : high - before.stackGap pid high = 0
    · exact .inl (by rw [top]; rfl)
    · refine .inr ⟨?_, ends.resolve_left top⟩
      rw [Address.lt_iff_toNat_lt, toNat_stackPage]
      simp only [VirtAddr.stackTop, stackTop, pageSize] at *
      omega
  case vacant =>
    intro place atLeast atMost
    cases known : before.page? pid place with
    | none => rfl
    | some page =>
        have aligned := (sound.frames.located known).2
        obtain ⟨pages, above, upTo, rfl⟩ := (places place).2 ⟨aligned, atLeast, atMost⟩
        rw [vacant pages above upTo] at known
        cases known
  case gained =>
    intro place aligned atLeast atMost
    obtain ⟨pages, above, upTo, rfl⟩ := (places place).2 ⟨aligned, atLeast, atMost⟩
    exact gains.gained pages above upTo
  case others =>
    intro other place elsewhere
    refine gains.others other place fun here => elsewhere ⟨here.1, ?_⟩
    exact (places place).1 here.2

/-! ## Faults -/

theorem ends_growStack_stackGrown (sound : before.Sound) (below : address.toNat < stackTop)
    (unregistered : before.page? pid address.pageDown = none) :
    (growStack pid address before).Ends
      (fun _ after => ∃ edge, before.StackGrown pid address.pageDown edge after)
      (fun _ _ => True) (fun _ => True) := by
  obtain ⟨pagesAbove, count, fits, here⟩ := stackPage_of_lt below
  unfold growStack
  rw [count]
  refine (ends_growFrom_gains sound fits).imp ?_ (fun _ _ _ => trivial) (fun _ _ => trivial)
  intro _ after gains
  have gap : 0 < before.stackGap pid (pagesAbove + 1) := by
    rw [stackGap_of_vacant (here ▸ unregistered)]
    exact Nat.succ_pos _
  have grown := gains.stackGrown sound fits gap
  rw [here] at grown
  exact ⟨_, grown⟩

/-- A fault that was handled at an address without a page may grow the stack, and did so. -/
theorem ends_handleFault_stackGrown (sound : before.Sound) (pid : Pid) (reason : FaultReason)
    (unregistered : before.page? pid reason.address.pageDown = none) :
    (handleFault pid reason before).Ends
      (fun _ after => growsStack before.settings reason = true ∧
        ∃ edge, before.StackGrown pid reason.address.pageDown edge after)
      (fun _ _ => True) (fun _ => True) := by
  unfold handleFault
  split
  case isTrue => trivial
  case isFalse =>
    simp only [Action.ends_bind, space, Action.ends_require]
    refine ⟨fun target found => ?_, fun _ => trivial⟩
    have lookup := page?_of_space found reason.address.pageDown
    rw [PageRegistry.find?_eq_at?, ← lookup, unregistered]
    simp only [Action.ends_bind, Action.ends_get]
    split
    case isFalse => trivial
    case isTrue grows =>
      have below : reason.address.toNat < stackTop := by
        unfold growsStack at grows
        simp only [Bool.and_eq_true, decide_eq_true_eq] at grows
        exact grows.2.2.1
      exact (ends_growStack_stackGrown sound below unregistered).imp
        (fun _ _ grown => ⟨grows, grown⟩) (fun _ _ _ => trivial) (fun _ _ => trivial)

/-- A fault at an address without a page is handled only if it is a user write that may grow the
stack. The stack then gained every page from the faulting one up to the first page that was
registered, or to its top: pages of zero bytes that may be written. No other page changed. -/
theorem Reachable.stack_grown_of_fault {reason : FaultReason} (reachable : machine.Reachable)
    (unregistered : machine.page? pid reason.address.pageDown = none)
    (handled : handleFault pid reason machine = .done () after) :
    growsStack machine.settings reason = true ∧
      ∃ edge, machine.StackGrown pid reason.address.pageDown edge after := by
  have ends := ends_handleFault_stackGrown reachable.sound pid reason unregistered
  rw [handled] at ends
  exact ends

/-- The stack grows by two pages on a machine with one frame, so all its pages but the last are
saved on the way. -/
theorem stack_grown_of_fault_pushing :
    ∃ machine after, tiny.inhabited.after? [.setUpStack ⟨1⟩] = some machine ∧
      machine.page? ⟨1⟩ push.address.pageDown = none ∧
      handleFault ⟨1⟩ push machine = .done () after ∧
      ∃ edge, machine.StackGrown ⟨1⟩ push.address.pageDown edge after := by
  have runs : ((tiny.inhabited.after? [.setUpStack ⟨1⟩]).bind fun machine =>
      (handleFault ⟨1⟩ push machine).answer?) = some () := by decide +kernel
  have vacant : ((tiny.inhabited.after? [.setUpStack ⟨1⟩]).bind fun machine =>
      machine.page? ⟨1⟩ push.address.pageDown) = none := by decide +kernel
  obtain ⟨machine, run, answers⟩ := Option.bind_eq_some_iff.1 runs
  obtain ⟨after, handled⟩ := Outcome.exists_of_answer? answers
  rw [run, Option.bind_some] at vacant
  have reachable : tiny.inhabited.Reachable := reachable_tiny.next .createProcess rfl
  have grown := (reachable.of_after? run).stack_grown_of_fault vacant handled
  exact ⟨machine, after, run, vacant, handled, grown.2⟩

end Machine

end DemandPaging
