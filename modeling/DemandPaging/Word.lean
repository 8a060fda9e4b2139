/-!
Checked arithmetic on 64-bit words.

Owns:
- the range of a machine word;
- sums, differences and products that stop at the ends of that range;
- the text that names the operation that left it.

Words are kept as natural numbers, so that every law is a law of `Nat`.
-/

namespace DemandPaging

/-- The operation by which a computation left the range of a machine word. -/
inductive Overflow where
  | add
  | subtract
  | multiply
deriving DecidableEq, Repr, Inhabited

def Overflow.message : Overflow → String
  | .add => "attempt to add with overflow"
  | .subtract => "attempt to subtract with overflow"
  | .multiply => "attempt to multiply with overflow"

namespace Word

/-- The first number that no longer fits a machine word. -/
abbrev limit : Nat := 0x10000000000000000

theorem limit_pos : 0 < limit := by decide

def add (left right : Nat) : Except Overflow Nat :=
  if left + right < limit then .ok (left + right) else .error .add

/-- The difference of two words, if it is not negative. -/
def sub (left right : Nat) : Except Overflow Nat :=
  if right ≤ left then .ok (left - right) else .error .subtract

def mul (left right : Nat) : Except Overflow Nat :=
  if left * right < limit then .ok (left * right) else .error .multiply

theorem add_eq_ok_iff {left right sum : Nat} :
    add left right = .ok sum ↔ left + right < limit ∧ left + right = sum := by
  unfold add; split <;> simp <;> omega

theorem sub_eq_ok_iff {left right difference : Nat} :
    sub left right = .ok difference ↔ right ≤ left ∧ left - right = difference := by
  unfold sub; split <;> simp <;> omega

theorem mul_eq_ok_iff {left right product : Nat} :
    mul left right = .ok product ↔ left * right < limit ∧ left * right = product := by
  unfold mul; split <;> simp <;> omega

end Word

end DemandPaging
