import DemandPaging.Proofs.Growth
import DemandPaging.Proofs.Lifetime
import DemandPaging.Proofs.PrivateMemory

/-!
When the stack of a process has holes.

Owns:
- `Machine.StackWhole`, the registered pages below the top of the stack form one block that ends at
  the top;
- `Machine.breaksOff`, whether the growth of a stack registers a page that it cannot bring in before
  it reached the pages that were there, and the same of faults and of events;
- that this, and nothing else, leaves a hole.

Does not own: which of the pages of a growth are in memory afterwards (`Machine.ends_growFrom`).

The stack grows from the faulting page upward, away from the pages that are left to add. A growth
that is given up halfway leaves the pages that it added without those above them.

Main statement: `Reachable.stack_has_no_holes_iff`.
-/

namespace DemandPaging

namespace Machine

/-- Every page from a registered page below the top of the stack up to that top is registered. -/
def StackWhole (machine : Machine) (pid : Pid) : Prop :=
  ∀ low high : VirtAddr, low.offset = 0 → high.offset = 0 → low ≤ high → high.toNat < stackTop →
    (machine.page? pid low).isSome = true → (machine.page? pid high).isSome = true

/-- Whether the stack page with a number of pages up to the top is registered. -/
def hasStackPage (machine : Machine) (pid : Pid) (pagesToTop : Nat) : Bool :=
  (machine.page? pid (VirtAddr.stackPage pagesToTop)).isSome

/-- Whether a stack that grows from the page with a number of pages up to the top registers a page
that cannot be brought in, while the page above it is missing. -/
def breaksOff (pid : Pid) : Nat → Machine → Bool
  | 0, _ => false
  | pagesAbove + 1, machine =>
    if machine.hasStackPage pid (pagesAbove + 1) then
      false
    else
      match registerPage pid (VirtAddr.stackPage (pagesAbove + 1)) true .stack (.anonymous none)
        machine with
      | .failed _ _ | .halted _ => false
      | .done () registered =>
        match makeResident pid (VirtAddr.stackPage (pagesAbove + 1)) registered with
        | .done () grown => breaksOff pid pagesAbove grown
        | .failed _ stopped => decide (0 < pagesAbove) && !stopped.hasStackPage pid pagesAbove
        | .halted _ => false

/-- Whether the growth of a stack breaks off while a fault is handled. -/
def faultBreaksOff (machine : Machine) (pid : Pid) (reason : FaultReason) : Bool :=
  growsStack machine.settings reason &&
    breaksOff pid ((stackTop - reason.address.pageDown.toNat) / pageSize) machine

/-- Whether the growth of a stack breaks off while a byte is written. -/
def accessBreaksOff (machine : Machine) (pid : Pid) (place : VirtAddr) : Bool :=
  match machine.stackPointer? pid, access pid place true machine with
  | some stackPointer, .done (.error code) faulted =>
    faulted.faultBreaksOff pid { address := place, code, stackPointer }
  | _, _ => false

/-- Whether the growth of a stack breaks off while a chunk is written. -/
def chunkBreaksOff (machine : Machine) (pid : Pid) (address : VirtAddr) (chunk : Chunk) : Bool :=
  (address.advance? chunk.done).any (machine.accessBreaksOff pid)

/-- Whether the growth of a stack breaks off while some chunks are written. -/
def writeBreaksOff (pid : Pid) (address : VirtAddr) (data : Array UInt8) :
    List Chunk → Machine → Bool
  | [], _ => false
  | chunk :: rest, machine =>
    machine.chunkBreaksOff pid address chunk ||
      match writeChunk pid address data chunk machine with
      | .done () next => writeBreaksOff pid address data rest next
      | .failed _ _ | .halted _ => false

end Machine

/-- Whether the growth of the stack of a process breaks off during an event. A read never grows a
stack. -/
def Event.breaksOff (event : Event) (machine : Machine) (pid : Pid) : Bool :=
  match event with
  | handleFault target reason => decide (target = pid) && machine.faultBreaksOff pid reason
  | writeUser target address data => decide (target = pid) &&
      Machine.writeBreaksOff pid address data (Chunk.split address.offset data.size) machine
  | _ => false

/-- Whether the growth of the stack of a process breaks off during some events. -/
def Machine.runBreaksOff (pid : Pid) : List Event → Machine → Bool
  | [], _ => false
  | event :: rest, machine =>
    event.breaksOff machine pid ||
      match (event.perform machine).state? with
      | some next => runBreaksOff pid rest next
      | none => false

/-- An event sets up the stack of a process, or it may grow it. -/
def Event.MayGrow (event : Event) (pid : Pid) : Prop :=
  match event with
  | setUpStack target | handleFault target _ | writeUser target _ _ => target = pid
  | _ => False

/-- An event registers pages of a process below the top of the stack only by setting up the stack or
by growing it. -/
def Event.RegistersByGrowth (event : Event) (pid : Pid) (before after : Machine) : Prop :=
  event.MayGrow pid ∨ ∀ address : VirtAddr, address.toNat < stackTop →
    (after.page? pid address).isSome = true → (before.page? pid address).isSome = true

namespace Machine

variable {before middle after first : Machine} {pid : Pid} {low high : Nat}

/-! ## Blocks of stack pages -/

theorem stackWhole_iff :
    before.StackWhole pid ↔ ∀ lower upper, 0 < lower → lower ≤ upper →
      upper ≤ stackTop / pageSize → before.hasStackPage pid upper = true →
        before.hasStackPage pid lower = true := by
  constructor
  · intro whole lower upper positive inside fits registered
    refine whole _ _ (offset_stackPage upper) (offset_stackPage lower) ?_ ?_ registered
    · rw [Address.le_iff_toNat_le, toNat_stackPage, toNat_stackPage]
      exact Nat.sub_le_sub_left (Nat.mul_le_mul_right pageSize inside) stackTop
    · rw [toNat_stackPage]
      simp only [stackTop, pageSize]
      omega
  · intro whole low high lowAligned highAligned inside below registered
    rw [Address.le_iff_toNat_le] at inside
    obtain ⟨aboveLow, -, lowFits, atLow⟩ :=
      stackPage_of_lt (show low.toNat < stackTop from Nat.lt_of_le_of_lt inside below)
    obtain ⟨aboveHigh, -, highFits, atHigh⟩ := stackPage_of_lt below
    rw [Address.pageDown_eq_self_iff.2 lowAligned] at atLow
    rw [Address.pageDown_eq_self_iff.2 highAligned] at atHigh
    rw [← atHigh]
    apply whole (aboveHigh + 1) (aboveLow + 1) (Nat.succ_pos _) ?_ lowFits
    · rw [hasStackPage, atLow]
      exact registered
    · rw [← atLow, ← atHigh, toNat_stackPage, toNat_stackPage] at inside
      simp only [stackTop, pageSize] at *
      omega

theorem StackWhole.congr (whole : before.StackWhole pid)
    (same : ∀ address : VirtAddr, address.toNat < stackTop →
      (after.page? pid address).isSome = (before.page? pid address).isSome) :
    after.StackWhole pid := by
  intro low high lowAligned highAligned inside below registered
  rw [same low (Nat.lt_of_le_of_lt inside below)] at registered
  rw [same high below]
  exact whole low high lowAligned highAligned inside below registered

/-- Without pages below its top, a stack has no holes. -/
theorem stackWhole_of_vacant
    (vacant : ∀ address : VirtAddr, address.toNat < stackTop → before.page? pid address = none) :
    before.StackWhole pid := by
  intro low high _ _ inside below registered
  rw [vacant low (Nat.lt_of_le_of_lt inside below)] at registered
  cases registered

/-- Beside the stack pages that there were, those between two distances from the top are
registered. -/
def Extends (first : Machine) (pid : Pid) (low high : Nat) (after : Machine) : Prop :=
  ∀ pages, 0 < pages → pages ≤ stackTop / pageSize →
    (after.hasStackPage pid pages = true ↔
      first.hasStackPage pid pages = true ∨ low < pages ∧ pages ≤ high)

theorem Extends.refl (machine : Machine) (pid : Pid) (high : Nat) :
    machine.Extends pid high high machine := by
  intro pages _ _
  constructor
  · exact .inl
  · intro registered
    rcases registered with registered | ⟨above, below⟩
    · exact registered
    · exact absurd below (Nat.not_le_of_lt above)

/-- Pages that were added leave no hole exactly when they reach the pages that were there or the
top. -/
theorem Extends.stackWhole_iff (grown : first.Extends pid low high after)
    (whole : first.StackWhole pid) (inside : low ≤ high) (fits : high ≤ stackTop / pageSize) :
    after.StackWhole pid ↔
      low = high ∨ low = 0 ∨ first.hasStackPage pid low = true := by
  rw [Machine.stackWhole_iff] at whole ⊢
  constructor
  · intro wholeAfter
    by_cases added : low < high ∧ 0 < low
    · have topmost := (grown high (by omega) fits).2 (.inr ⟨added.1, Nat.le_refl high⟩)
      have next := wholeAfter low high added.2 inside fits topmost
      rcases (grown low added.2 (by omega)).1 next with registered | ⟨above, -⟩
      · exact .inr (.inr registered)
      · exact absurd above (Nat.lt_irrefl low)
    · omega
  · intro reaches lower upper positive below fitsUpper registered
    apply (grown lower positive (by omega)).2
    rcases (grown upper (by omega) fitsUpper).1 registered with former | ⟨above, upTo⟩
    · exact .inl (whole lower upper positive below fitsUpper former)
    · by_cases added : low < lower
      · exact .inr ⟨added, by omega⟩
      · rcases reaches with none | top | former
        · omega
        · omega
        · exact .inl (whole lower low positive (by omega) (by omega) former)

/-- Where pages were added and more are left to add, a hole is left if the next one is missing. -/
theorem Extends.stackWhole_iff_of_lt (grown : first.Extends pid low high after)
    (whole : first.StackWhole pid) (inside : low < high) (fits : high ≤ stackTop / pageSize) :
    after.StackWhole pid ↔ (decide (0 < low) && !after.hasStackPage pid low) = false := by
  rw [grown.stackWhole_iff whole (Nat.le_of_lt inside) fits]
  by_cases top : low = 0
  · simp [top]
  · have reaches := grown low (Nat.pos_of_ne_zero top) (by omega)
    simp only [Nat.lt_irrefl, false_and, or_false] at reaches
    simp only [Nat.ne_of_lt inside, top, false_or, ← reaches, Nat.pos_of_ne_zero top, decide_true,
      Bool.true_and, Bool.not_eq_false']

/-- One more page is registered below the pages that are left to add. -/
theorem Extends.next {pagesAbove : Nat} (grown : first.Extends pid (pagesAbove + 1) high before)
    (inside : pagesAbove + 1 ≤ high) (fits : high ≤ stackTop / pageSize)
    (lookup : ∀ place, (after.page? pid place).isSome =
      (decide (VirtAddr.stackPage (pagesAbove + 1) = place) ||
        (before.page? pid place).isSome)) :
    first.Extends pid pagesAbove high after := by
  intro pages positive fitsPages
  rw [hasStackPage, lookup, Bool.or_eq_true, decide_eq_true_eq]
  have rest := grown pages positive fitsPages
  rw [hasStackPage] at rest
  rw [rest]
  constructor
  · rintro (same | former | ⟨above, below⟩)
    · have sameNumber := stackPage_injective (by omega) fitsPages same
      omega
    · exact .inl former
    · omega
  · rintro (former | ⟨above, below⟩)
    · exact .inr (.inl former)
    · by_cases here : pagesAbove + 1 = pages
      · exact .inl (by rw [here])
      · omega

/-! ## Growth -/

theorem lookup_of_registered {pages : Nat}
    (registered : ∀ other place, middle.page? other place =
      if pid = other ∧ VirtAddr.stackPage pages = place then
        some (Page.create (VirtAddr.stackPage pages) true .stack (.untouched (.anonymous none)))
      else before.page? other place) (place : VirtAddr) :
    (middle.page? pid place).isSome =
      (decide (VirtAddr.stackPage pages = place) || (before.page? pid place).isSome) := by
  rw [registered]
  by_cases same : VirtAddr.stackPage pages = place
  · simp [same]
  · simp [same]

theorem growFrom_succ {pagesAbove : Nat} {target : AddressSpace}
    (found : before.spaces[pid]? = some target) :
    growFrom pid (pagesAbove + 1) before =
      if before.hasStackPage pid (pagesAbove + 1) then .done () before
      else (do
        registerPage pid (VirtAddr.stackPage (pagesAbove + 1)) true .stack (.anonymous none)
        makeResident pid (VirtAddr.stackPage (pagesAbove + 1))
        growFrom pid pagesAbove : Action Machine Unit) before := by
  have down := Address.pageDown_eq_self_iff.2 (offset_stackPage (pagesAbove + 1))
  have lookup : (target.pages.find? (VirtAddr.stackPage (pagesAbove + 1))).isSome =
      before.hasStackPage pid (pagesAbove + 1) := by
    rw [PageRegistry.find?_eq_at?, down, ← page?_of_space found, hasStackPage]
  have known : space pid before = .done target before := by
    rw [space, found]
    rfl
  simp only [growFrom, Action.bind_apply, known, lookup]
  split
  · rfl
  · rfl

theorem space_of_register {address : VirtAddr} {kind : PageKind}
    (step : Step (.register pid address kind) before after) :
    ∃ space, before.spaces[pid]? = some space := by
  cases step with
  | register found => exact ⟨_, found⟩

/-- A process that does not exist has no stack to grow. -/
theorem breaksOff_of_missing (missing : before.spaces[pid]? = none) (pagesToTop : Nat) :
    breaksOff pid pagesToTop before = false := by
  cases pagesToTop with
  | zero => rfl
  | succ pagesAbove =>
      have ends := ends_registerStackPage before pid (pagesAbove + 1)
      unfold breaksOff
      split
      · rfl
      · cases registered : registerPage pid (VirtAddr.stackPage (pagesAbove + 1)) true .stack
            (.anonymous none) before with
        | done _ middle =>
            rw [registered] at ends
            obtain ⟨space, found⟩ := space_of_register ends.1
            rw [missing] at found
            cases found
        | failed error after | halted fault => rfl

/-- The growth of a stack without holes leaves one exactly when it breaks off, and then it fails. -/
theorem ends_growFrom_stackWhole {pagesAbove : Nat} (sound : before.Sound)
    (whole : first.StackWhole pid) (grown : first.Extends pid pagesAbove high before)
    (inside : pagesAbove ≤ high) (fits : high ≤ stackTop / pageSize) :
    (growFrom pid pagesAbove before).Ends
      (fun _ after => after.StackWhole pid ∧ breaksOff pid pagesAbove before = false)
      (fun _ after => after.StackWhole pid ↔ breaksOff pid pagesAbove before = false)
      (fun _ => True) := by
  induction pagesAbove generalizing before with
  | zero => exact ⟨(grown.stackWhole_iff whole inside fits).2 (.inr (.inl rfl)), rfl⟩
  | succ pagesAbove inductionHypothesis =>
      cases found : before.spaces[pid]? with
      | none =>
          have vacant (address : VirtAddr) : before.page? pid address = none := by
            rw [page?, found]
            rfl
          rw [growFrom, Action.bind_apply, space, found, breaksOff_of_missing found]
          exact iff_of_true (stackWhole_of_vacant fun address _ => vacant address) rfl
      | some target =>
          rw [growFrom_succ found, breaksOff]
          cases known : before.hasStackPage pid (pagesAbove + 1) with
          | true =>
              refine ⟨(grown.stackWhole_iff whole inside fits).2 (.inr (.inr ?_)), rfl⟩
              rcases (grown _ (Nat.succ_pos _) (by omega)).1 known with former | ⟨above, -⟩
              · exact former
              · exact absurd above (Nat.lt_irrefl _)
          | false =>
              rw [if_neg Bool.false_ne_true, if_neg Bool.false_ne_true, Action.bind_apply]
              have registers := ends_registerStackPage before pid (pagesAbove + 1)
              cases registered : registerPage pid (VirtAddr.stackPage (pagesAbove + 1)) true .stack
                  (.anonymous none) before with
              | halted fault => trivial
              | failed error stopped =>
                  -- Only the page at address zero is refused, and it is the first one to be added.
                  rw [registered] at registers
                  obtain ⟨rfl, refused⟩ := registers
                  refine iff_of_true ?_ rfl
                  refine (grown.stackWhole_iff whole inside fits).2 (.inl ?_)
                  rcases refused (by simpa [hasStackPage] using known) with lowest | missing
                  · exact Nat.le_antisymm inside (Nat.le_trans fits lowest)
                  · rw [stackPointer?, found] at missing
                    cases missing
              | done _ middle =>
                  rw [registered] at registers
                  obtain ⟨added, pages⟩ := registers
                  have grownMiddle := grown.next inside fits (lookup_of_registered pages)
                  have soundMiddle := added.sound sound
                  have claims := (takes_makeResident pid
                    (VirtAddr.stackPage (pagesAbove + 1))).ends middle soundMiddle
                  -- Bringing the page in registers nothing, whether it succeeds or not.
                  have grownNext {next : Machine} (path : Path Move.IsUnseen middle next) :
                      first.Extends pid pagesAbove high next := by
                    intro pages positive fitsPages
                    rw [hasStackPage, isSome_page?_of_unseen path soundMiddle]
                    exact grownMiddle pages positive fitsPages
                  dsimp only
                  rw [Action.bind_apply]
                  cases claimed : makeResident pid (VirtAddr.stackPage (pagesAbove + 1)) middle with
                  | halted fault => trivial
                  | failed error stopped =>
                      rw [claimed] at claims
                      exact (grownNext claims).stackWhole_iff_of_lt whole inside fits
                  | done _ next =>
                      rw [claimed] at claims
                      exact inductionHypothesis (claims.sound soundMiddle) (grownNext claims)
                        (by omega)

/-- Pages that only move leave no hole. -/
theorem StackWhole.of_unseen (whole : before.StackWhole pid)
    (path : Path Move.IsUnseen before after) (sound : before.Sound) : after.StackWhole pid :=
  whole.congr fun address _ => isSome_page?_of_unseen path sound pid address

/-! ## Faults -/

variable {reason : FaultReason} {address : VirtAddr} {chunk : Chunk}

theorem faultBreaksOff_of_registered
    (registered : (before.page? pid reason.address.pageDown).isSome = true) :
    before.faultBreaksOff pid reason = false := by
  unfold faultBreaksOff
  rw [Bool.and_eq_false_iff, or_iff_not_imp_left]
  intro grows
  simp only [growsStack, Bool.and_eq_true, decide_eq_true_eq, Bool.not_eq_false] at grows
  obtain ⟨pagesAbove, count, -, here⟩ := stackPage_of_lt grows.2.2.1
  have known : before.hasStackPage pid (pagesAbove + 1) = true := by
    rw [hasStackPage, here]
    exact registered
  rw [count, breaksOff, if_pos known]

/-- A fault leaves a hole in a stack without holes exactly when its growth breaks off. -/
theorem ends_handleFault_stackWhole (sound : before.Sound) (whole : before.StackWhole pid)
    (reason : FaultReason) :
    (handleFault pid reason before).Ends
      (fun _ after => after.StackWhole pid ∧ before.faultBreaksOff pid reason = false)
      (fun _ after => after.StackWhole pid ↔ before.faultBreaksOff pid reason = false)
      (fun _ => True) := by
  unfold handleFault
  split
  case isTrue kernel =>
    refine iff_of_true whole ?_
    simp only [Address.isKernel, Bool.and_eq_true, decide_eq_true_eq, kernelBase] at kernel
    simp only [faultBreaksOff, growsStack, stackTop]
    rw [decide_eq_false (by omega), Bool.and_false, Bool.false_and]
  case isFalse =>
    simp only [Action.ends_bind, space, Action.ends_require]
    refine ⟨fun target found => ?_, fun missing => ?_⟩
    · rw [PageRegistry.find?_eq_at?, ← page?_of_space found]
      cases registered : before.page? pid reason.address.pageDown with
      | some page =>
          have isRegistered : (before.page? pid reason.address.pageDown).isSome = true := by
            rw [registered]
            rfl
          have notBroken := faultBreaksOff_of_registered isRegistered
          dsimp only
          split
          case isTrue => exact iff_of_true whole notBroken
          case isFalse =>
            exact ((takes_makeResident pid reason.address).ends before sound).imp
              (fun _ _ path => ⟨whole.of_unseen path sound, notBroken⟩)
              (fun _ _ path => iff_of_true (whole.of_unseen path sound) notBroken)
              (fun _ _ => trivial)
      | none =>
          simp only [Action.ends_bind, Action.ends_get]
          split
          case isFalse refused =>
            refine iff_of_true whole ?_
            rw [faultBreaksOff, Bool.eq_false_iff.2 refused, Bool.false_and]
          case isTrue grows =>
            rw [faultBreaksOff, grows, Bool.true_and, growStack]
            refine ends_growFrom_stackWhole sound whole (.refl before pid _) (Nat.le_refl _) ?_
            exact Nat.div_le_div_right (Nat.sub_le _ _)
    · refine iff_of_true whole ?_
      rw [faultBreaksOff, breaksOff_of_missing missing, Bool.and_false]

theorem StackWhole.of_access {write : Bool} (whole : before.StackWhole pid)
    (step : Step (.access pid address write) before after) (sound : before.Sound) :
    after.StackWhole pid := by
  have path : Path (· = .access pid address write) before after := Path.single step rfl
  exact whole.congr fun _ _ => path.isSome_page? sound fun _ => ⟨nofun, nofun⟩

/-- A byte is located for a write, and a hole is left exactly when the growth for it breaks off. -/
theorem ends_locate_stackWhole (sound : before.Sound) (whole : before.StackWhole pid)
    (place : VirtAddr) :
    (locate pid place true before).Ends
      (fun _ after => after.StackWhole pid ∧ before.accessBreaksOff pid place = false)
      (fun _ after => after.StackWhole pid ↔ before.accessBreaksOff pid place = false)
      (fun _ => True) := by
  simp only [locate, Action.ends_bind, space, Action.ends_require]
  refine ⟨fun target found => ?_, fun missing => ?_⟩
  · have pointer : before.stackPointer? pid = some target.stackPointer := by
      rw [stackPointer?, found]
      rfl
    have ends := ends_access sound pid place true
    cases accessed : access pid place true before with
    | halted fault => trivial
    | failed error after =>
        rw [accessed] at ends
        have notBroken : before.accessBreaksOff pid place = false := by
          rw [accessBreaksOff, pointer, accessed]
        rw [Outcome.ends_failed, ends.2.2]
        exact iff_of_true whole notBroken
    | done answer middle =>
        rw [accessed] at ends
        cases answer with
        | ok location =>
            have notBroken : before.accessBreaksOff pid place = false := by
              rw [accessBreaksOff, pointer, accessed]
            exact ⟨whole.of_access ends.2.1 sound, notBroken⟩
        | error code =>
            obtain ⟨-, same, -⟩ := ends
            have decided : before.accessBreaksOff pid place =
                before.faultBreaksOff pid
                  { address := place, code, stackPointer := target.stackPointer } := by
              rw [accessBreaksOff, pointer, accessed, same]
            rw [same, decided]
            simp only [Outcome.ends_done, Action.ends_bind]
            refine ((ends_handleFault_stackWhole sound whole _).and
              ((takes_handleFault pid _).ends before sound)).imp ?_ (fun _ _ both => both.1)
              (fun _ _ => trivial)
            intro _ handled both
            obtain ⟨⟨wholeHandled, notBroken⟩, path⟩ := both
            have soundHandled := path.sound sound
            refine (ends_access soundHandled pid place true).imp ?_ ?_ (fun _ _ => trivial)
            · intro answer after result
              cases answer with
              | ok location => exact ⟨wholeHandled.of_access result.2.1 soundHandled, notBroken⟩
              | error code =>
                  rw [result.2.1]
                  exact iff_of_true wholeHandled notBroken
            · intro _ after result
              rw [result.2.2]
              exact iff_of_true wholeHandled notBroken
  · refine iff_of_true whole ?_
    rw [accessBreaksOff, stackPointer?, missing]
    rfl

/-- The bytes of a chunk are stored in a page that is registered, and no page comes. -/
theorem ends_writeChunk_stackWhole (sound : before.Sound) (whole : before.StackWhole pid)
    (address : VirtAddr) (data : Array UInt8) (chunk : Chunk) :
    (writeChunk pid address data chunk before).Ends
      (fun _ after => after.StackWhole pid ∧ before.chunkBreaksOff pid address chunk = false)
      (fun _ after => after.StackWhole pid ↔ before.chunkBreaksOff pid address chunk = false)
      (fun _ => True) := by
  simp only [writeChunk, locateChunk, Action.ends_bind, Action.ends_require, Action.ends_get,
    Action.ends_orHalt, setResident, Action.ends_modify]
  refine ⟨fun place advanced => ?_, fun none => ?_⟩
  · rw [chunkBreaksOff, advanced, Option.any_some]
    refine (ends_locate_stackWhole sound whole place).imp ?_ (fun _ _ same => same)
      (fun _ _ => trivial)
    intro location middle located
    exact ⟨fun _ _ => ⟨fun _ _ => ⟨located.1.congr fun _ _ => rfl, located.2⟩, fun _ _ => trivial⟩,
      fun _ _ => trivial⟩
  · refine iff_of_true whole ?_
    rw [chunkBreaksOff, none, Option.any_none]

theorem ends_writeChunks_stackWhole (sound : before.Sound) (whole : before.StackWhole pid)
    (address : VirtAddr) (data : Array UInt8) (chunks : List Chunk) :
    (chunks.forM (writeChunk pid address data) before).Ends
      (fun _ after => after.StackWhole pid ∧
        writeBreaksOff pid address data chunks before = false)
      (fun _ after => after.StackWhole pid ↔
        writeBreaksOff pid address data chunks before = false)
      (fun _ => True) := by
  induction chunks generalizing before with
  | nil => exact ⟨whole, rfl⟩
  | cons chunk rest inductionHypothesis =>
      have first := ends_writeChunk_stackWhole sound whole address data chunk
      have path := (takes_writeChunk pid address data chunk).ends before sound
      show ((writeChunk pid address data chunk >>= fun _ => rest.forM _) before).Ends _ _ _
      rw [Action.bind_apply, writeBreaksOff]
      cases written : writeChunk pid address data chunk before with
      | halted fault => trivial
      | failed error stopped =>
          rw [written] at first
          rw [Bool.or_false]
          exact first
      | done _ next =>
          rw [written] at first path
          obtain ⟨wholeNext, notBroken⟩ := first
          rw [notBroken, Bool.false_or]
          exact inductionHypothesis (path.sound sound) wholeNext

/-- The first page of a stack is registered only where there is none. -/
theorem ends_setUpStack_stackWhole (sound : before.Sound) (whole : before.StackWhole pid) :
    (setUpStack pid before).Ends (fun _ after => after.StackWhole pid)
      (fun _ after => after.StackWhole pid) (fun _ => True) := by
  unfold setUpStack
  rw [Action.ends_bind]
  refine (ends_registerStackPage before pid 1).imp ?_ ?_ (fun _ _ => trivial)
  · intro _ middle registered
    obtain ⟨added, pages⟩ := registered
    have soundMiddle := added.sound sound
    have grown := (Extends.refl before pid 1).next (Nat.le_refl 1) (by decide)
      (lookup_of_registered pages)
    have wholeMiddle := (grown.stackWhole_iff whole (by decide) (by decide)).2 (.inr (.inl rfl))
    have rest : (do
        makeResident pid (VirtAddr.stackPage 1)
        setStackPointer pid VirtAddr.stackTop
        pure VirtAddr.stackTop : Action Machine VirtAddr).Takes
          fun move => move.IsUnseen ∨ move = .setStackPointer pid := by
      refine ((takes_makeResident ..).mono fun _ unseen => .inl unseen).bind fun _ => ?_
      exact ((takes_setStackPointer ..).mono fun _ same => .inr same).bind fun _ => .pure _
    have keeps {after : Machine} (path : Path (fun move => move.IsUnseen ∨
        move = .setStackPointer pid) middle after) : after.StackWhole pid := by
      refine wholeMiddle.congr fun address _ => path.isSome_page? soundMiddle fun kind => ?_
      constructor
      · rintro (unseen | same)
        · exact unseen
        · cases same
      · rintro (unseen | same)
        · exact unseen
        · cases same
    exact (rest.ends middle soundMiddle).imp (fun _ _ => keeps) (fun _ _ => keeps)
      (fun _ _ => trivial)
  · intro _ after refused
    rw [refused.1]
    exact whole

/-- No page of a process below the top of the stack is a part of a file. -/
def StackAnonymous (machine : Machine) (pid : Pid) : Prop :=
  ∀ address : VirtAddr, address.toNat < stackTop → machine.region? pid address = none

end Machine

/-! ## Events -/

namespace Event

open Machine

variable {event : Event} {before after : Machine} {pid : Pid}

theorem allows_keepsMappings {next : Nat} {move : Move} (grows : event.MayGrow pid)
    (allow : event.Allows next move) : move.KeepsMappings pid := by
  cases event with
  | setUpStack target =>
      rcases allow with registers | rfl
      · exact registers.keepsMappings pid
      · exact fun _ => ⟨nofun, nofun⟩
  | handleFault _ _ => exact Move.Registers.keepsMappings allow pid
  | writeUser _ _ _ => exact Move.Writes.keepsMappings allow pid
  | _ => exact grows.elim

/-- An event that grows no stack, and does not end the process, registers and removes no page below
the top of the stack, and the pages that are there continue. -/
theorem kept_below (sound : before.Sound) (wholeMappings : ∀ pid, before.MappingsWhole pid)
    (anonymous : before.StackAnonymous pid) (leaves : (event.perform before).state? = some after)
    (registers : ∀ address : VirtAddr, address.toNat < stackTop →
      (after.page? pid address).isSome = true → (before.page? pid address).isSome = true)
    (stays : event ≠ .exit pid) {address : VirtAddr} (below : address.toNat < stackTop) :
    (after.page? pid address).isSome = (before.page? pid address).isSome ∧
      after.region? pid address = none := by
  cases known : before.page? pid address with
  | none =>
      have vacant : after.page? pid address = none := by
        rw [← Option.not_isSome_iff_eq_none]
        intro present
        have earlier := registers address below present
        rw [known] at earlier
        cases earlier
      rw [region?, vacant]
      exact ⟨rfl, rfl⟩
  | some page =>
      have ofNoFile := anonymous address below
      rw [region?, known, Option.bind_some] at ofNoFile
      rcases event.page?_cases sound wholeMappings known leaves with
        ⟨changed, found, continues⟩ | ⟨-, removes⟩
      · rw [region?, found, Option.bind_some, continues.region?, ofNoFile]
        exact ⟨rfl, rfl⟩
      · rw [Page.region?_eq_none_iff.1 ofNoFile] at removes
        cases removes
        exact absurd rfl stays

theorem stackAnonymous (sound : before.Sound) (wholeMappings : ∀ pid, before.MappingsWhole pid)
    (anonymous : before.StackAnonymous pid) (leaves : (event.perform before).state? = some after)
    (registers : event.RegistersByGrowth pid before after) : after.StackAnonymous pid := by
  intro address below
  by_cases grows : event.MayGrow pid
  · have path := (leads_of_perform sound wholeMappings leaves).path
    rw [region?_of_path path sound fun _ => allows_keepsMappings grows]
    exact anonymous address below
  · by_cases stays : event = .exit pid
    · subst stays
      rw [region?, page?, space_of_exit sound pid leaves]
      rfl
    · exact (kept_below sound wholeMappings anonymous leaves (registers.resolve_left grows) stays
        below).2

/-- An event leaves a hole in a stack without holes exactly when a growth breaks off during it. -/
theorem stackWhole_iff (sound : before.Sound) (wholeMappings : ∀ pid, before.MappingsWhole pid)
    (anonymous : before.StackAnonymous pid) (whole : before.StackWhole pid)
    (leaves : (event.perform before).state? = some after)
    (registers : event.RegistersByGrowth pid before after) :
    after.StackWhole pid ↔ event.breaksOff before pid = false := by
  by_cases grows : event.MayGrow pid
  · cases event with
    | setUpStack target =>
        obtain rfl : target = pid := grows
        refine iff_of_true ?_ rfl
        have ends := ends_setUpStack_stackWhole sound whole
        have ran : ((setUpStack target).perform before).Ends
            (fun _ after => after.StackWhole target) (fun _ after => after.StackWhole target)
              (fun _ => True) := Action.ends_bind.2 ends
        exact ran.leaves (fun _ _ stays => stays) (fun _ _ stays => stays) after leaves
    | handleFault target reason =>
        obtain rfl : target = pid := grows
        rw [breaksOff, decide_eq_true rfl, Bool.true_and]
        exact (ends_handleFault_stackWhole sound whole reason).leaves
          (fun _ _ ends => iff_of_true ends.1 ends.2) (fun _ _ ends => ends) after leaves
    | writeUser target address data =>
        obtain rfl : target = pid := grows
        rw [breaksOff, decide_eq_true rfl, Bool.true_and]
        exact (ends_writeChunks_stackWhole sound whole address data _).leaves
          (fun _ _ ends => iff_of_true ends.1 ends.2) (fun _ _ ends => ends) after leaves
    | _ => exact grows.elim
  · refine iff_of_true ?_ ?_
    · by_cases stays : event = .exit pid
      · subst stays
        refine stackWhole_of_vacant fun address _ => ?_
        rw [page?, space_of_exit sound pid leaves]
        rfl
      · exact whole.congr fun address below =>
          (kept_below sound wholeMappings anonymous leaves (registers.resolve_left grows) stays
            below).1
    · cases event with
      | handleFault target reason =>
          rw [breaksOff, decide_eq_false (p := target = pid) grows, Bool.false_and]
      | writeUser target address data =>
          rw [breaksOff, decide_eq_false (p := target = pid) grows, Bool.false_and]
      | _ => rfl

end Event

namespace Machine

/-! ## Runs -/

variable {machine last : Machine} {events : List Event} {pid : Pid}

/-- Where pages below the top of the stack come by growth only, a stack without holes keeps having
none exactly as long as no growth breaks off. -/
theorem Reachable.stackWhole_iff (reachable : machine.Reachable)
    (anonymous : machine.StackAnonymous pid) (whole : machine.StackWhole pid)
    (run : machine.after? events = some last)
    (registers : ∀ past event before, past ++ [event] <+: events →
      machine.after? past = some before → ∀ after, (event.perform before).state? = some after →
        event.RegistersByGrowth pid before after) :
    (∀ past state, past <+: events → machine.after? past = some state → state.StackWhole pid) ↔
      runBreaksOff pid events machine = false := by
  induction events generalizing machine with
  | nil =>
      refine iff_of_true ?_ rfl
      intro past state earlier reached
      rw [List.prefix_nil] at earlier
      subst earlier
      cases reached
      exact whole
  | cons event rest inductionHypothesis =>
      obtain ⟨next, leaves, run⟩ := Option.bind_eq_some_iff.1 run
      rw [forall_events_cons leaves] at registers
      obtain ⟨registersHere, registersRest⟩ := registers
      have here := event.stackWhole_iff reachable.sound reachable.mappingsWhole anonymous whole
        leaves (registersHere next leaves)
      have anonymousNext := event.stackAnonymous reachable.sound reachable.mappingsWhole anonymous
        leaves (registersHere next leaves)
      have later (wholeNext : next.StackWhole pid) := inductionHypothesis
        (reachable.next event leaves) anonymousNext wholeNext run registersRest
      rw [forall_states_cons leaves, runBreaksOff, leaves, Bool.or_eq_false_iff]
      constructor
      · intro wholes
        have wholeNext := wholes.2 [] next List.nil_prefix rfl
        exact ⟨here.1 wholeNext, (later wholeNext).1 wholes.2⟩
      · intro notBroken
        exact ⟨whole, (later (here.2 notBroken.1)).2 notBroken.2⟩

/-- A process begins without pages below the top of its stack. If pages come there only when its
stack is set up or grows, then in every state of the run they form one block that ends at the top,
unless the growth breaks off: it registers a page that it cannot bring in, and the page above it is
missing still. -/
theorem Reachable.stack_has_no_holes_iff (reachable : machine.Reachable)
    (vacant : ∀ address : VirtAddr, address.toNat < stackTop → machine.page? pid address = none)
    (run : machine.after? events = some last)
    (registers : ∀ past event before, past ++ [event] <+: events →
      machine.after? past = some before → ∀ after, (event.perform before).state? = some after →
        event.RegistersByGrowth pid before after) :
    (∀ past state, past <+: events → machine.after? past = some state → state.StackWhole pid) ↔
      runBreaksOff pid events machine = false := by
  refine reachable.stackWhole_iff (fun address below => ?_) (stackWhole_of_vacant vacant) run
    registers
  rw [region?, vacant address below]
  rfl

/-- A user write to the third page from the top of the stack. -/
def push : FaultReason where
  address := ⟨0x4747d001, by decide⟩
  code := { present := false, write := true, user := true }
  stackPointer := ⟨0x4747d001, by decide⟩

/-- A process sets up its stack and lets it grow by two pages. -/
def pushing : List Event := [.setUpStack ⟨1⟩, .handleFault ⟨1⟩ push]

theorem mayGrow_of_mem_pushing {past : List Event} {event : Event}
    (earlier : past ++ [event] <+: pushing) : event.MayGrow ⟨1⟩ := by
  have member : event ∈ pushing := earlier.subset (by simp)
  simp only [pushing, List.mem_cons, List.not_mem_nil, or_false] at member
  rcases member with rfl | rfl
  · rfl
  · rfl

theorem stack_has_no_holes_tiny :
    ∃ last, tiny.inhabited.after? pushing = some last ∧ last.StackWhole ⟨1⟩ := by
  have runs : (tiny.inhabited.after? pushing).isSome = true := by decide +kernel
  obtain ⟨last, run⟩ := Option.isSome_iff_exists.1 runs
  have reachable : tiny.inhabited.Reachable := reachable_tiny.next .createProcess rfl
  have wholes := (reachable.stack_has_no_holes_iff (fun address _ => vacant_inhabited ..) run
    fun past event before earlier _ _ _ => .inl (mayGrow_of_mem_pushing earlier)).2
      (by decide +kernel)
  exact ⟨last, run, wholes pushing last (List.prefix_refl pushing) run⟩

/-- A machine with one frame and without swap. -/
def swapless : Machine := create {} (FramePool.create 1) (Disk.create 0) ⟨#[]⟩

/-- Without swap the first of the two pages cannot be brought in, and the second one is missing. -/
theorem stack_has_hole_swapless :
    swapless.inhabited.Reachable ∧
    (∀ address : VirtAddr, swapless.inhabited.page? ⟨1⟩ address = none) ∧
    (∀ event ∈ pushing, event.MayGrow ⟨1⟩) ∧
    ∃ last, swapless.inhabited.after? pushing = some last ∧ ¬last.StackWhole ⟨1⟩ := by
  have reachable : swapless.inhabited.Reachable :=
    (Reachable.start {} 1 (Disk.create 0) ⟨#[]⟩).next .createProcess rfl
  refine ⟨reachable, fun _ => vacant_inhabited .., by simp [pushing, Event.MayGrow], ?_⟩
  have runs : ((swapless.inhabited.after? pushing).map fun last =>
      (last.hasStackPage ⟨1⟩ 3, last.hasStackPage ⟨1⟩ 2)) = some (true, false) := by
    decide +kernel
  obtain ⟨last, run, pages⟩ := Option.map_eq_some_iff.1 runs
  obtain ⟨lower, missing⟩ := Prod.mk.inj pages
  refine ⟨last, run, fun whole => ?_⟩
  have present := Machine.stackWhole_iff.1 whole 2 3 (by decide) (by decide) (by decide) lower
  rw [missing] at present
  cases present

end Machine

end DemandPaging
