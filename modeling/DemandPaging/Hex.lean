/-!
Hexadecimal text.

Owns: the one form in which addresses and file positions are written, lower case digits after
`0x` without padding.
-/

namespace DemandPaging

/-- A number in hexadecimal: `0x`, then lower case digits without leading zeros. -/
def hexText (number : Nat) : String :=
  "0x" ++ String.ofList (Nat.toDigits 16 number)

end DemandPaging
