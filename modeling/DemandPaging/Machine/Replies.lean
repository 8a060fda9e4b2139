import DemandPaging.Machine.Run

/-!
What the machine answers to events.

Owns:
- `Reply`, the value that an event answers, and `Event.respond`, an event with its answer;
- `Answer`, a value, an error, or the fault that stops the machine;
- the answers to a sequence of events, up to the one that stops the machine
  (`Machine.transcript`).

Main statement: `Event.perform_eq_respond`, an event does what it does whether or not somebody looks
at its answer.
-/

namespace DemandPaging

/-- The value that an event answers. -/
inductive Reply where
  | nothing
  | process (pid : Pid)
  | address (address : VirtAddr)
  | word (word : Nat)
  | bytes (bytes : Array UInt8)
  | location (location : Location)
  | code (code : FaultCode)
deriving DecidableEq, Repr, Inhabited

/-- An access leads to a frame, or it faults. -/
def Reply.ofAccess : Except FaultCode Location → Reply
  | .ok place => location place
  | .error cause => code cause

/-- What an event does, and what it answers. -/
def Event.respond : Event → Action Machine Reply
  | createProcess => do
    let pid ← Machine.createProcess
    pure (.process pid)
  | fork parent => do
    let child ← Machine.fork parent
    pure (.process child)
  | exit pid => do
    Machine.exit pid
    pure .nothing
  | registerPage pid address writable marker loader => do
    Machine.registerPage pid address writable marker (.anonymous loader)
    pure .nothing
  | makeResident pid address => do
    Machine.makeResident pid address
    pure .nothing
  | handleFault pid reason => do
    Machine.handleFault pid reason
    pure .nothing
  | mapFile pid address length writable file offset => do
    let start ← Machine.mapFile pid address length writable file offset
    pure (.address start)
  | unmapFile pid address => do
    Machine.unmapFile pid address
    pure .nothing
  | mmapCall pid word length writable file? offset => do
    let answer ← Machine.mmapCall pid word length writable file? offset
    pure (.word answer)
  | munmapCall pid word => do
    let answer ← Machine.munmapCall pid word
    pure (.word answer)
  | loadSegment pid file segment => do
    Machine.loadSegment pid file segment
    pure .nothing
  | setUpStack pid => do
    let stackPointer ← Machine.setUpStack pid
    pure (.address stackPointer)
  | readUser pid address length => do
    let bytes ← Machine.fetchUser pid address length
    pure (.bytes bytes)
  | writeUser pid address data => do
    Machine.writeUser pid address data
    pure .nothing
  | setStackPointer pid stackPointer => do
    Machine.setStackPointer pid stackPointer
    pure .nothing
  | access pid address write => do
    let result ← Machine.access pid address write
    pure (.ofAccess result)
  | changeDisk unreadable unwritable => do
    Machine.changeDisk unreadable unwritable
    pure .nothing
  | changeFiles change => do
    Machine.changeFiles change
    pure .nothing
  | changeWorld world => do
    Machine.changeWorld world
    pure .nothing

/-- How an event ends, for whoever asked for it. -/
inductive Answer where
  | done (reply : Reply)
  | failed (error : Errno)
  | halted (fault : Fault)
deriving DecidableEq, Repr, Inhabited

def Outcome.answer {State : Type} : Outcome State Reply → Answer
  | .done reply _ => .done reply
  | .failed error _ => .failed error
  | .halted fault => .halted fault

/-- The answers to some events, in order, up to the one that stops the machine. -/
def Machine.transcript (machine : Machine) : List Event → List Answer
  | [] => []
  | event :: rest =>
    let outcome := event.respond machine
    outcome.answer :: match outcome.state? with
      | some next => next.transcript rest
      | none => []

/-- An event leaves the same state behind whether or not its answer is looked at. -/
theorem Event.perform_eq_respond (event : Event) :
    event.perform = event.respond >>= fun _ => pure () := by
  cases event <;> simp [perform, respond]

theorem Event.state?_perform (event : Event) (machine : Machine) :
    (event.perform machine).state? = (event.respond machine).state? := by
  rw [perform_eq_respond, Action.bind_apply]
  cases event.respond machine <;> rfl

end DemandPaging
