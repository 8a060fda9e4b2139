import DemandPaging.Proofs.Growth
import DemandPaging.Proofs.Reachable

/-!
Repeating an access whose fault was handled.

Owns: when an access succeeds that is repeated as soon as its fault was handled, and what happens to
a stack that grows by more pages than the machine has grace for.

Main statement: `Reachable.retry_succeeds_iff`.
-/

namespace DemandPaging

namespace Machine

variable {machine before after faulted : Machine} {pid : Pid} {address : VirtAddr} {write : Bool}
  {code : FaultCode}

/-! ## Accesses -/

/-- An access succeeds if the page is in memory and allows it, and only then. -/
theorem exists_access_eq_ok_iff (sound : before.Sound) (pid : Pid) (address : VirtAddr)
    (write : Bool) :
    (∃ location after, access pid address write before = .done (.ok location) after) ↔
      before.Accessible pid address write := by
  have ends := ends_access sound pid address write
  constructor
  · intro succeeds
    obtain ⟨location, after, accessed⟩ := succeeds
    rw [accessed] at ends
    exact ends.2.2.accessible
  · intro accessible
    cases outcome : access pid address write before with
    | done answer after =>
        rw [outcome] at ends
        cases answer with
        | ok location => exact ⟨location, after, rfl⟩
        | error code => exact absurd accessible ends.2.2.1
    | failed error after =>
        rw [outcome] at ends
        obtain ⟨page, registered, -⟩ := accessible
        obtain ⟨space, found, -⟩ := space_of_page? registered
        rw [ends.2.1] at found
        cases found
    | halted fault =>
        rw [outcome] at ends
        exact ends.elim

theorem eq_of_access_eq_error (sound : before.Sound)
    (faults : access pid address write before = .done (.error code) after) : after = before := by
  unfold access at faults
  rw [Action.bind_apply] at faults
  cases found : before.spaces[pid]? with
  | none =>
      simp [space, found, Action.require, Action.fail] at faults
  | some target =>
      cases answered : target.table.access address write with
      | mk answer table =>
          simp only [space, found, Action.require, Action.pure_apply, answered, setSpace,
            Action.bind_apply, Action.modify] at faults
          injection faults with sameAnswer sameAfter
          subst sameAnswer
          have unchanged := (sound.frames.spaces pid target found).1.table_of_access_error answered
          rw [← sameAfter, unchanged]
          show { before with spaces := before.spaces.insert pid target } = before
          rw [insert_space found]

/-- An access together with its fault ends like the access that is repeated after the fault was
handled. -/
theorem locate_eq_of_handled {stackPointer : VirtAddr} {space : AddressSpace}
    (found : machine.spaces[pid]? = some space) (saved : space.stackPointer = stackPointer)
    (faults : access pid address write machine = .done (.error code) faulted)
    (handled : handleFault pid { address, code, stackPointer } faulted = .done () after) :
    locate pid address write machine =
      match access pid address write after with
      | .done (.ok location) last => .done location last
      | .done (.error _) last => .failed .badAddress last
      | .failed error last => .failed error last
      | .halted fault => .halted fault := by
  have known : Machine.space pid machine = .done space machine := by
    rw [Machine.space, found]
    rfl
  subst saved
  simp only [locate, Action.bind_apply, known, faults, handled]
  cases access pid address write after with
  | done answer last =>
      cases answer with
      | ok location => rfl
      | error code => rfl
  | failed error last => rfl
  | halted fault => rfl

/-! ## The repeated access -/

/-- An access that is repeated after its fault was handled succeeds exactly when the stack did not
have to grow by more pages than the machine had grace for. A read needs no growth, and neither does
an access to a registered page. What an access with its fault answers follows: if the repeated
access fails, it is a bad address. -/
theorem Reachable.retry_succeeds_iff (reachable : machine.Reachable) {stackPointer : VirtAddr}
    (faults : access pid address write machine = .done (.error code) faulted)
    (handled : handleFault pid { address, code, stackPointer } faulted = .done () after) :
    ((∃ location last, access pid address write after = .done (.ok location) last) ↔
      machine.growth pid address ≤ machine.grace) ∧
    (write = false ∨ (machine.page? pid address.pageDown).isSome = true →
      machine.growth pid address = 0) ∧
    ∀ space, machine.spaces[pid]? = some space → space.stackPointer = stackPointer →
      ((∃ location last, locate pid address write machine = .done location last) ↔
        machine.growth pid address ≤ machine.grace) ∧
      ((∃ last, locate pid address write machine = .failed .badAddress last) ↔
        machine.grace < machine.growth pid address) := by
  have sound := reachable.sound
  -- The access left no marks, so the clock finds the frames as they were before it.
  have unchanged := eq_of_access_eq_error sound faults
  subst unchanged
  have sameWrite : code.write = write := by
    have ends := ends_access sound pid address write
    rw [faults] at ends
    exact ends.2.2.2.1
  have ends := ends_handleFault sound pid { address, code, stackPointer }
  have path := (takes_handleFault pid { address, code, stackPointer }).ends faulted sound
  rw [handled] at ends path
  obtain ⟨present, accessible, noGrowth⟩ := ends
  dsimp only at present accessible noGrowth
  rw [sameWrite] at accessible noGrowth
  have soundAfter : after.Sound := Path.sound path sound
  have succeeds := exists_access_eq_ok_iff soundAfter pid address write
  refine ⟨succeeds.trans accessible, ?_, fun space found saved => ?_⟩
  · intro spared
    rcases spared with reads | registered
    · exact noGrowth reads
    · exact growth_eq_zero registered
  · rw [locate_eq_of_handled found saved faults handled]
    have endsAgain := ends_access soundAfter pid address write
    rw [← accessible, ← Nat.not_le, ← accessible, ← succeeds]
    cases again : access pid address write after with
    | done answer last =>
        cases answer with
        | ok location => simp
        | error code => simp
    | failed error last =>
        rw [again] at endsAgain
        obtain ⟨page, registered⟩ := Option.isSome_iff_exists.1 present
        obtain ⟨space, found, -⟩ := space_of_page? registered
        rw [endsAgain.2.1] at found
        cases found
    | halted fault =>
        rw [again] at endsAgain
        exact endsAgain.elim

/-! ## A machine with one frame -/

/-- Let a new process access a byte, handle its fault, and answer the repeated access. -/
def retryAccess (address : VirtAddr) (write : Bool) :
    Action Machine (Option (Except FaultCode Location)) := do
  let pid ← createProcess
  match ← access pid address write with
  | .ok _ => pure none
  | .error code =>
    handleFault pid { address, code, stackPointer := address }
    let answer ← access pid address write
    pure (some answer)

theorem exists_of_retryAccess {answer : Except FaultCode Location} {last : Machine}
    (reachable : machine.Reachable)
    (ran : retryAccess address write machine = .done (some answer) last) :
    ∃ pid next code faulted after, Reachable next ∧
      access pid address write next = .done (.error code) faulted ∧
      handleFault pid { address, code, stackPointer := address } faulted = .done () after ∧
      access pid address write after = .done answer last := by
  unfold retryAccess at ran
  obtain ⟨pid, next, created, ran⟩ := Action.bind_eq_done ran
  obtain ⟨first, faulted, faults, ran⟩ := Action.bind_eq_done ran
  cases first with
  | ok location => cases ran
  | error code =>
      obtain ⟨_, after, handled, ran⟩ := Action.bind_eq_done ran
      obtain ⟨again, last', repeated, ran⟩ := Action.bind_eq_done ran
      cases ran
      refine ⟨pid, next, code, faulted, after, ?_, faults, handled, repeated⟩
      apply reachable.next .createProcess
      show ((createProcess >>= fun _ => pure ()) machine).state? = some next
      rw [Action.bind_apply, created]
      rfl

def shallow : VirtAddr := ⟨0x4747f001, by decide⟩

/-- The same byte of the page below. -/
def deep : VirtAddr := ⟨0x4747e001, by decide⟩

/-- A stack that grows by one page fits into the only frame. -/
theorem retry_succeeds_shallow :
    ∃ machine pid code faulted after, Reachable machine ∧
      access pid shallow true machine = .done (.error code) faulted ∧
      handleFault pid { address := shallow, code, stackPointer := shallow } faulted =
        .done () after ∧
      machine.growth pid shallow ≤ machine.grace := by
  have runs : (retryAccess shallow true tiny).answer?.join.map Except.isOk = some true := by
    decide +kernel
  obtain ⟨answer, answers, isOk⟩ := Option.map_eq_some_iff.1 runs
  obtain ⟨last, ran⟩ := Outcome.exists_of_answer? (Option.join_eq_some_iff.1 answers)
  obtain ⟨pid, machine, code, faulted, after, reachable, faults, handled, repeated⟩ :=
    exists_of_retryAccess reachable_tiny ran
  refine ⟨machine, pid, code, faulted, after, reachable, faults, handled, ?_⟩
  cases answer with
  | ok location =>
      exact (reachable.retry_succeeds_iff faults handled).1.1 ⟨location, last, repeated⟩
  | error again => cases isOk

/-- A stack that grows by two pages drives the faulting page out of the only frame, and the access
that is repeated faults again. -/
theorem retry_fails_deep :
    ∃ machine pid code faulted after, Reachable machine ∧
      access pid deep true machine = .done (.error code) faulted ∧
      handleFault pid { address := deep, code, stackPointer := deep } faulted = .done () after ∧
      ¬∃ location last, access pid deep true after = .done (.ok location) last := by
  have runs : (retryAccess deep true tiny).answer?.join.map Except.isOk = some false := by
    decide +kernel
  obtain ⟨answer, answers, isError⟩ := Option.map_eq_some_iff.1 runs
  obtain ⟨last, ran⟩ := Outcome.exists_of_answer? (Option.join_eq_some_iff.1 answers)
  obtain ⟨pid, machine, code, faulted, after, reachable, faults, handled, repeated⟩ :=
    exists_of_retryAccess reachable_tiny ran
  refine ⟨machine, pid, code, faulted, after, reachable, faults, handled, fun retried => ?_⟩
  obtain ⟨location, again, succeeds⟩ := retried
  rw [repeated] at succeeds
  cases succeeds
  cases isError

end Machine

end DemandPaging
