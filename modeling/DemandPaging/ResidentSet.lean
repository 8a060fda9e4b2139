import DemandPaging.FramePool

/-!
The frames on loan to pages, and which of them is to be evicted.

Owns:
- which page occupies each frame;
- the queue of the frames that may be evicted, in the order in which they were occupied;
- the choice of a victim by the clock algorithm.

Does not own: saving the victim (`Machine.evict`).

The clock asks the frames of the queue in turn whether their page was accessed, which clears that
mark, and takes the first whose page was not. After two rounds it takes the frame at the front.
-/

namespace DemandPaging

/-- The frames on loan to pages. -/
structure ResidentSet where
  pool : FramePool
  /-- The page that occupies a frame. -/
  owners : Std.ExtTreeMap PhysAddr FrameOwner
  /-- The frames that may be evicted. -/
  queue : List PhysAddr

namespace ResidentSet

def create (pool : FramePool) : ResidentSet where
  pool := pool
  owners := ∅
  queue := []

instance : Inhabited ResidentSet := ⟨create default⟩

def residentCount (set : ResidentSet) : Nat := set.owners.size

/-- The page that occupies a frame. -/
def owner? (set : ResidentSet) (frame : PhysAddr) : Option FrameOwner := set.owners[frame]?

/-- The frames of the queue with the pages that occupy them. -/
def victims (set : ResidentSet) : List (PhysAddr × FrameOwner) :=
  set.queue.filterMap fun frame => (set.owner? frame).map fun owner => (frame, owner)

def acquire (set : ResidentSet) : Option (PhysAddr × ResidentSet) :=
  set.pool.acquire.map fun (frame, pool) => (frame, { set with pool })

/-- Let a page occupy a frame, and put the frame at the end of the queue. -/
def link (set : ResidentSet) (frame : PhysAddr) (owner : FrameOwner) : Except Fault ResidentSet :=
  match set.owner? frame with
  | some previous => .error (.frameOccupied frame owner previous)
  | none =>
    if frame ∈ set.queue then
      .error .frameQueuedTwice
    else
      .ok { set with
        owners := set.owners.insert frame owner
        queue := set.queue ++ [frame] }

/-- Forget which page occupies a frame, and take the frame off the queue. -/
def unlink (set : ResidentSet) (frame : PhysAddr) : ResidentSet :=
  { set with
    owners := set.owners.erase frame
    queue := set.queue.filter fun queued => queued ≠ frame }

def release (set : ResidentSet) (frame : PhysAddr) : Except Fault ResidentSet := do
  let rest := set.unlink frame
  let pool ← rest.pool.release frame
  .ok { rest with pool }

/-- Put a frame back at the end of the queue. -/
def requeue (set : ResidentSet) (frame : PhysAddr) : ResidentSet :=
  { set with queue := set.queue ++ [frame] }

def read (set : ResidentSet) (frame : PhysAddr) : Except Fault PageData := set.pool.read frame

def write (set : ResidentSet) (frame : PhysAddr) (contents : PageData) :
    Except Fault ResidentSet := do
  let pool ← set.pool.write frame contents
  .ok { set with pool }

/-- A question to the owner of a frame: whether its page was accessed. Asking may change what the
next answers are. -/
abbrev Question (State : Type) : Type := FrameOwner → State → Bool × State

/-- Ask the owners of frames in turn, up to the first that answers no. -/
def firstUnaccessed {State : Type} (owner? : PhysAddr → Option FrameOwner)
    (ask : Question State) : List PhysAddr → State → Except Fault (Option PhysAddr × State)
  | [], state => .ok (none, state)
  | frame :: rest, state =>
    match owner? frame with
    | none => .error .ownerUnknown
    | some owner =>
      match ask owner state with
      | (false, state) => .ok (some frame, state)
      | (true, state) => firstUnaccessed owner? ask rest state

/-- Choose a victim by the clock algorithm, and take it off the queue. Its owner is kept until the
frame is unlinked. -/
def selectVictim {State : Type} (set : ResidentSet) (ask : Question State) (state : State) :
    Except Fault (Option (PhysAddr × FrameOwner) × ResidentSet × State) := do
  let (unaccessed, state) ← firstUnaccessed set.owner? ask (set.queue ++ set.queue) state
  match unaccessed.or set.queue.head? with
  | none => .ok (none, set, state)
  | some frame =>
    match set.owner? frame with
    | none => .error .ownerUnknown
    | some owner => .ok (some (frame, owner), { set with queue := set.queue.erase frame }, state)

end ResidentSet

end DemandPaging
