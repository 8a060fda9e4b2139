import DemandPaging.Address

/-!
Names of processes and of the pages they own.

Owns: process identifiers with their order, and the reference from a frame back to the page that
occupies it.
-/

namespace DemandPaging

/-- The identifier of a process, that is, of an address space. -/
structure Pid where
  number : Nat
deriving DecidableEq, Repr, Inhabited

namespace Pid

instance : Ord Pid := ⟨fun left right => compare left.number right.number⟩

instance : Std.TransOrd Pid := inferInstanceAs (Std.TransCmp (compareOn Pid.number))

instance : Std.LawfulEqOrd Pid where
  eq_of_compare {left right} same := by
    cases left; cases right; exact congrArg _ (Nat.compare_eq_eq.1 same)

def render (pid : Pid) : String := "Pid(" ++ toString pid.number ++ ")"

end Pid

/-- The page that occupies a frame: a process and the address of one of its pages. -/
structure FrameOwner where
  pid : Pid
  address : VirtAddr
deriving DecidableEq, Repr, Inhabited

def FrameOwner.render (owner : FrameOwner) : String :=
  "FrameOwner \x7b pid: " ++ owner.pid.render ++ ", va: " ++ owner.address.render ++ " \x7d"

end DemandPaging
