import DemandPaging.Machine.FileMapping

/-!
The system calls that map files.

Owns: the checks on the arguments that a user program passes, and the word that the call returns:
the mapped address or 0 on success, the word of an error number otherwise.
-/

namespace DemandPaging

namespace Machine

/-- The user address that a word names, if it names one. -/
def userAddress? (word : Nat) : Option VirtAddr :=
  (VirtAddr.ofNat? word).filter Address.isUser

/-- Whether the arguments of a call that maps a file are acceptable, apart from the address. -/
def validMapping (files : FileStore) (address : VirtAddr) (length : Nat) (file : FileId)
    (offset : Nat) : Except Overflow Bool := do
  if length = 0 || kernelBase ≤ length then
    return false
  let last ← Word.add address.toNat length
  return last ≤ kernelBase && offset % pageSize = 0 && offset < files.size file

/-- Map a file for a user program, or report why not. -/
def mapForUser (pid : Pid) (word length : Nat) (writable : Bool) (file? : Option FileId)
    (offset : Nat) : Action Machine VirtAddr := do
  let file ← Action.require .badFileDescriptor file?
  let address ← Action.require .invalidArgument
    ((userAddress? word).filter Address.isPageAligned)
  let machine ← Action.get
  let valid ← Action.checked (validMapping machine.store.files address length file offset)
  if !valid then
    Action.fail .invalidArgument
  mapFile pid address length writable file offset

/-- The call by which a user program maps a file. -/
def mmapCall (pid : Pid) (word length : Nat) (writable : Bool) (file? : Option FileId)
    (offset : Nat) : Action Machine Nat := do
  match ← Action.attempt (mapForUser pid word length writable file? offset) with
  | .ok address => pure address.toNat
  | .error error => pure error.word

/-- Remove a mapping for a user program, or report why not. -/
def unmapForUser (pid : Pid) (word : Nat) : Action Machine Unit := do
  let address ← Action.require .invalidArgument (userAddress? word)
  unmapFile pid address

/-- The call by which a user program removes a mapping. -/
def munmapCall (pid : Pid) (word : Nat) : Action Machine Nat := do
  match ← Action.attempt (unmapForUser pid word) with
  | .ok () => pure 0
  | .error error => pure error.word

end Machine

end DemandPaging
