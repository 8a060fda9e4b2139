import DemandPaging.Machine.Residency

/-!
Page faults.

Owns:
- the decision whether a faulting access is legal;
- making a legal access succeed when it is repeated (`Machine.handleFault`);
- growing the user stack.

Does not own: the access itself (`PageTable.access`, `Machine.locate`).

A user access to the kernel and a write to a page that is not writable are refused. A fault on a
registered page brings the page in. Any other fault is legal only if it is a user write that grows
the stack: it lands within the stack's limit and not further below the stack pointer than a push
may probe.
-/

namespace DemandPaging

/-- The address of the stack page that has a number of pages from itself up to the top of the
stack. -/
def VirtAddr.stackPage (pagesToTop : Nat) : VirtAddr :=
  ⟨DemandPaging.stackTop - pagesToTop * pageSize,
    Nat.lt_of_le_of_lt (Nat.sub_le ..) (by decide)⟩

namespace Machine

/-- Whether a fault may grow the stack. -/
def growsStack (settings : Settings) (reason : FaultReason) : Bool :=
  let address := reason.address.toNat
  let bottom := stackTop - settings.stackLimit
  let lowestProbe := reason.stackPointer.toNat - settings.stackSlack
  reason.code.user && reason.code.write &&
    decide (bottom < address ∧ address < stackTop ∧ lowestProbe ≤ address)

/-- Add zero-filled stack pages, each brought in at once, from the page with a number of pages up to
the top of the stack on upward, until a page that is registered already or the top. -/
def growFrom (pid : Pid) : Nat → Action Machine Unit
  | 0 => pure ()
  | pagesAbove + 1 => do
    let page := VirtAddr.stackPage (pagesAbove + 1)
    let target ← space pid
    if (target.pages.find? page).isSome then
      pure ()
    else
      registerPage pid page true .stack (.anonymous none)
      makeResident pid page
      growFrom pid pagesAbove

/-- Grow the stack of a process down to the page that holds an address. -/
def growStack (pid : Pid) (address : VirtAddr) : Action Machine Unit :=
  growFrom pid ((stackTop - address.pageDown.toNat) / pageSize)

/-- Handle a page fault of a process, so that the access can be repeated. -/
def handleFault (pid : Pid) (reason : FaultReason) : Action Machine Unit := do
  let address := reason.address
  if reason.code.user && address.isKernel then
    Action.fail .invalidAccess
  let target ← space pid
  match target.pages.find? address with
  | some page =>
    if reason.code.write && !page.writable then
      Action.fail .invalidAccess
    else
      makeResident pid address
  | none =>
    let machine ← Action.get
    if growsStack machine.settings reason then
      growStack pid address
    else
      Action.fail .badAddress

end Machine

end DemandPaging
