/-!
Error numbers: the causes by which an operation of the paging system can fail, and how each
one is written for a caller, as a text and as a machine word.

Owns:
- the error causes, their names and their texts;
- the signed number of each cause and its reading back;
- the 64-bit word in which a system call hands the number to user code.

Does not own: causes that stop the machine (`Fault`).
-/

namespace DemandPaging

/-- The causes by which an operation can fail and leave the system running. -/
inductive Errno where
  | operationNotPermitted
  | noSuchEntry
  | ioError
  | badFileDescriptor
  | noMemory
  | invalidAccess
  | badAddress
  | fileExist
  | invalidArgument
  | noSpace
  | notSupportedOperation
deriving DecidableEq, Repr, Inhabited

namespace Errno

/-- Every cause, by falling number. -/
def all : List Errno :=
  [operationNotPermitted, noSuchEntry, ioError, badFileDescriptor, noMemory, invalidAccess,
    badAddress, fileExist, invalidArgument, noSpace, notSupportedOperation]

/-- The signed number of a cause: the negated POSIX errno value. -/
def number : Errno → Int
  | operationNotPermitted => -1
  | noSuchEntry => -2
  | ioError => -5
  | badFileDescriptor => -9
  | noMemory => -12
  | invalidAccess => -13
  | badAddress => -14
  | fileExist => -17
  | invalidArgument => -22
  | noSpace => -28
  | notSupportedOperation => -524

/-- The cause with a given signed number, if there is one. -/
def ofNumber? (number : Int) : Option Errno :=
  all.find? fun cause => cause.number == number

/-- The number of a cause as a 64-bit word in two's complement, the form in which a system call
returns it. -/
def word (cause : Errno) : Nat :=
  (cause.number + 0x10000000000000000).toNat

/-- Read a 64-bit word as a signed number in two's complement. -/
def signedOfWord (word : Nat) : Int :=
  if word < 0x8000000000000000 then word else (word : Int) - 0x10000000000000000

/-- The cause that a returned word stands for, if it stands for one. -/
def ofWord? (word : Nat) : Option Errno :=
  ofNumber? (signedOfWord word)

def name : Errno → String
  | operationNotPermitted => "OperationNotPermitted"
  | noSuchEntry => "NoSuchEntry"
  | ioError => "IOError"
  | badFileDescriptor => "BadFileDescriptor"
  | noMemory => "NoMemory"
  | invalidAccess => "InvalidAccess"
  | badAddress => "BadAddress"
  | fileExist => "FileExist"
  | invalidArgument => "InvalidArgument"
  | noSpace => "NoSpace"
  | notSupportedOperation => "NotSupportedOperation"

def ofName? (name : String) : Option Errno :=
  all.find? fun cause => cause.name == name

def message : Errno → String
  | operationNotPermitted => "operation not permitted"
  | noSuchEntry => "no such entry"
  | ioError => "I/O error"
  | badFileDescriptor => "bad file descriptor"
  | noMemory => "out of memory"
  | invalidAccess => "permission denied"
  | badAddress => "bad address"
  | fileExist => "entry exists"
  | invalidArgument => "invalid argument"
  | noSpace => "no space left on device"
  | notSupportedOperation => "operation not supported"

/-- What is shown for a number that no cause has. -/
def unknownNumberMessage (number : Int) : String :=
  "TryFromError \x7b e: " ++ toString number ++ " \x7d"

theorem ofNumber?_number (cause : Errno) : ofNumber? cause.number = some cause := by
  cases cause <;> decide

/-- Only the number of a cause reads as that cause. -/
theorem number_of_ofNumber? {number : Int} {cause : Errno}
    (read : ofNumber? number = some cause) : cause.number = number := by
  simpa using List.find?_some read

theorem ofWord?_word (cause : Errno) : ofWord? cause.word = some cause := by
  cases cause <;> decide

theorem number_neg (cause : Errno) : cause.number < 0 := by
  cases cause <;> decide

/-- A word that is not negative when it is read as a signed number stands for no cause. -/
theorem ofWord?_eq_none {word : Nat} (small : word < 0x8000000000000000) :
    ofWord? word = none := by
  cases read : ofWord? word with
  | none => rfl
  | some cause =>
      rw [ofWord?, signedOfWord, if_pos small] at read
      have negative := number_neg cause
      rw [number_of_ofNumber? read] at negative
      exact absurd negative (Int.not_lt.2 (Int.natCast_nonneg word))

end Errno

end DemandPaging
