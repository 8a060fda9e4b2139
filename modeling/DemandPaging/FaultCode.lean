import DemandPaging.Address

/-!
Why a memory access faulted.

Owns:
- the three bits by which the processor describes a faulting access, and their text;
- the reason handed to the fault handler: that code together with the faulting address and the
  user stack pointer.

Does not own: deciding whether a fault is legal (`Machine.handleFault`).
-/

namespace DemandPaging

/-- How the processor describes a faulting access. -/
structure FaultCode where
  present : Bool
  write : Bool
  user : Bool
deriving DecidableEq, Repr, Inhabited

namespace FaultCode

/-- The code with given bits: present 1, write 2, user 4. Other bits are ignored. -/
def ofBits (bits : Nat) : FaultCode where
  present := decide (bits % 2 = 1)
  write := decide (bits / 2 % 2 = 1)
  user := decide (bits / 4 % 2 = 1)

/-- The code with given bits, if there are no others among them. -/
def ofBits? (bits : Nat) : Option FaultCode :=
  if bits < 8 then some (ofBits bits) else none

def render (code : FaultCode) : String :=
  let names :=
    (if code.present then ["PRESENT"] else []) ++ (if code.write then ["WRITE_ACCESS"] else []) ++
      (if code.user then ["USER"] else [])
  if names.isEmpty then "(empty)" else " | ".intercalate names

end FaultCode

/-- What the fault handler is told about a fault. -/
structure FaultReason where
  /-- The address whose access faulted. -/
  address : VirtAddr
  code : FaultCode
  /-- The stack pointer of the user program when it was interrupted. -/
  stackPointer : VirtAddr
deriving DecidableEq, Repr, Inhabited

/-- Whether the fault is a write to a mapped page, so that its protection was violated. -/
def FaultReason.isProtectionViolation (reason : FaultReason) : Bool :=
  reason.code.present && reason.code.write

end DemandPaging
