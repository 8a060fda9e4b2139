import DemandPaging.Fault

/-!
How much memory can be asked for at once.

Owns:
- the most bytes that one run of memory can have;
- the refusal of a longer run, which stops the machine.

Does not own: requests below that bound. They are taken to be met.

A run of memory has at most half as many bytes as machine words can count, so that the distance
between any two of them is a signed word.
-/

namespace DemandPaging

namespace Capacity

/-- The most bytes that one run of memory can have. -/
abbrev most : Nat := 0x7fffffffffffffff

/-- Ask for a run of memory that holds a number of items of a size. -/
def request (count itemSize : Nat) : Except Fault Unit :=
  if count * itemSize ≤ most then .ok () else .error .capacityExceeded

end Capacity

end DemandPaging
