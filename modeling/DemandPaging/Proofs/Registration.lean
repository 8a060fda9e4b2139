import DemandPaging.Machine.FaultHandling
import DemandPaging.Machine.Program
import DemandPaging.Proofs.Residency

/-!
The steps by which pages are registered: page by page, by loading a program, and by faults.

Owns: the steps of the operations that register pages of one process, and that they register pages
of that process only.

Main statements: `takes_handleFault`, `takes_loadSegment` and `takes_setUpStack`.
-/

namespace DemandPaging

/-- Anonymous pages of one process may be registered, and any page may move. -/
def Move.Registers (pid : Pid) (move : Move) : Prop :=
  move.IsUnseen ∨ ∃ address, move = .register pid address .anonymous

theorem Move.IsUnseen.registers {move : Move} (unseen : move.IsUnseen) (pid : Pid) :
    move.Registers pid := .inl unseen

theorem Move.not_registers_overwrite {pid other : Pid} (address : VirtAddr) (kind : PageKind) :
    ¬Move.Registers pid (.overwrite other address kind) := by
  intro registers
  rcases registers with unseen | ⟨_, same⟩
  · exact unseen
  · cases same

theorem Move.not_registers_remove {pid other : Pid} (address : VirtAddr) (kind : PageKind) :
    ¬Move.Registers pid (.remove other address kind) := by
  intro registers
  rcases registers with unseen | ⟨_, same⟩
  · exact unseen
  · cases same

namespace Machine

open DemandPaging.Action (Takes)

variable {before : Machine} {pid : Pid} {page : Page}

/-! ## Processes and stack pointers -/

theorem ends_createProcess (before : Machine) :
    (createProcess before).Ends
      (fun pid after => pid = ⟨before.nextPid⟩ ∧ Step (.arrive pid) before after ∧
        after.nextPid = before.nextPid + 1)
      (fun _ _ => False) (fun fault => fault.isCorruption = false) := by
  simp only [createProcess, Action.ends_bind, Action.ends_get, Action.ends_checked,
    Action.ends_set, Action.ends_pure]
  refine ⟨fun next sum => ?_, fun _ _ => rfl⟩
  obtain ⟨-, rfl⟩ := Word.add_eq_ok_iff.1 sum
  exact ⟨trivial, .arrive, rfl⟩

theorem ends_setStackPointer (before : Machine) (pid : Pid) (stackPointer : VirtAddr) :
    (setStackPointer pid stackPointer before).Ends
      (fun _ after => Step (.setStackPointer pid) before after ∧
        after.stackPointer? pid = some stackPointer)
      (fun _ after => after = before ∧ before.stackPointer? pid = none) (fun _ => False) := by
  simp only [setStackPointer, space, setSpace, Action.ends_bind, Action.ends_require,
    Action.ends_modify]
  refine ⟨fun space found => ⟨.setStackPointer found, ?_⟩, fun missing => ⟨trivial, ?_⟩⟩
  · simp [stackPointer?]
  · rw [stackPointer?, missing]
    rfl

theorem takes_setStackPointer (pid : Pid) (stackPointer : VirtAddr) :
    (setStackPointer pid stackPointer).Takes (· = .setStackPointer pid) := by
  refine ⟨fun before _ => ?_⟩
  refine (ends_setStackPointer before pid stackPointer).imp ?_ ?_ (fun _ no => no.elim)
  · intro _ after result
    exact Path.single result.1 rfl
  · intro _ after result
    rw [result.1]
    exact .refl before

/-! ## Registering a page -/

/-- A page that was never touched is registered, unless there is one at its address or the process
does not exist. -/
theorem ends_insertPage {initializer : Initializer}
    (untouched : page.backing = .untouched initializer) (absent : page.frame = none)
    (aligned : page.address.offset = 0)
    (admitted : ∀ mapping, page.mapping? = some mapping → before.Admits pid mapping) :
    (insertPage pid page before).Ends
      (fun _ after => Step (.register pid page.address page.kind) before after ∧
        ∀ other place, after.page? other place =
          if pid = other ∧ page.address = place then some page else before.page? other place)
      (fun _ after => after = before ∧ (before.page? pid page.address = none →
        before.stackPointer? pid = none))
      (fun _ => False) := by
  simp only [insertPage, space, setSpace, Action.ends_bind, Action.ends_require,
    Action.ends_orFail, Action.ends_modify]
  refine ⟨fun space found => ⟨fun pages inserted => ?_, fun _ refused => ⟨trivial, ?_⟩⟩,
    fun missing => ⟨trivial, ?_⟩⟩
  · refine ⟨.register found untouched absent aligned admitted inserted, ?_⟩
    obtain ⟨-, rfl⟩ := PageRegistry.at?_of_insert inserted
    exact page?_update found rfl rfl
  · intro unknown
    rw [page?_of_space found] at unknown
    rw [PageRegistry.insert_eq_ok unknown] at refused
    cases refused
  · intro _
    rw [stackPointer?, missing]
    rfl

theorem takes_registerPage (pid : Pid) (address : VirtAddr) (writable : Bool)
    (marker : PageMarker) (loader : Option Loader) :
    (registerPage pid address writable marker (.anonymous loader)).Takes (Move.Registers pid) := by
  refine ⟨fun before _ => ?_⟩
  unfold registerPage
  split
  · have noMapping : ∀ mapping,
        (Page.create address writable marker (.untouched (.anonymous loader))).mapping? =
          some mapping → before.Admits pid mapping := by
      intro mapping mapped
      cases mapped
    refine (ends_insertPage rfl rfl (Address.offset_pageDown address) noMapping).imp ?_ ?_
      (fun _ no => no.elim)
    · intro _ after result
      exact Path.single result.1 (.inr ⟨_, rfl⟩)
    · intro _ after result
      rw [result.1]
      exact .refl before
  · exact .refl before

/-! ## Loading a program -/

theorem takes_loadPages (pid : Pid) (file : FileId) (pagesLeft : Nat) (segment : Segment) :
    (loadPages pid file pagesLeft segment).Takes (Move.Registers pid) := by
  induction pagesLeft generalizing segment with
  | zero => exact Takes.pure ()
  | succ pagesAfter inductionHypothesis =>
      refine (takes_registerPage ..).bind fun _ => ?_
      refine (Takes.checked _).bind fun offset => ?_
      refine (Takes.checked _).bind fun zeroBytes => ?_
      refine (Takes.checked _).bind fun address => ?_
      exact inductionHypothesis _

theorem takes_loadSegment (pid : Pid) (file : FileId) (segment : Segment) :
    (loadSegment pid file segment).Takes (Move.Registers pid) := by
  refine (Takes.checked _).bind fun size => ?_
  apply Takes.ite
  · intro _
    exact (Takes.fail _).bind fun _ => takes_loadPages ..
  · intro _
    exact takes_loadPages ..

theorem takes_setUpStack (pid : Pid) :
    (setUpStack pid).Takes fun move => move.Registers pid ∨ move = .setStackPointer pid := by
  refine ((takes_registerPage ..).mono fun _ registers => .inl registers).bind fun _ => ?_
  refine ((takes_makeResident ..).mono fun _ unseen => .inl (unseen.registers pid)).bind
    fun _ => ?_
  refine ((takes_setStackPointer ..).mono fun _ same => .inr same).bind fun _ => ?_
  exact Takes.pure _

/-! ## Faults -/

theorem takes_growFrom (pid : Pid) (pagesAbove : Nat) :
    (growFrom pid pagesAbove).Takes (Move.Registers pid) := by
  induction pagesAbove with
  | zero => exact Takes.pure ()
  | succ pagesAbove inductionHypothesis =>
      refine (Takes.space pid).bind fun target => ?_
      apply Takes.ite
      · intro _
        exact Takes.pure ()
      · intro _
        refine (takes_registerPage ..).bind fun _ => ?_
        refine ((takes_makeResident ..).mono fun move unseen => unseen.registers pid).bind
          fun _ => ?_
        exact inductionHypothesis

theorem takes_handleFault (pid : Pid) (reason : FaultReason) :
    (handleFault pid reason).Takes (Move.Registers pid) := by
  refine Takes.refuse _ ((Takes.space pid).bind fun target => ?_)
  cases target.pages.find? reason.address with
  | some page =>
      apply Takes.ite
      · intro _
        exact Takes.fail _
      · intro _
        exact (takes_makeResident ..).mono fun move unseen => unseen.registers pid
  | none =>
      refine Takes.get.bind fun machine => ?_
      apply Takes.ite
      · intro _
        exact takes_growFrom ..
      · intro _
        exact Takes.fail _

end Machine

end DemandPaging
