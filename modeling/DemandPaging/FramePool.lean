import DemandPaging.Bytes
import DemandPaging.Capacity

/-!
The pool of physical frames.

Owns:
- the frames of the machine with their contents and whether each is on loan;
- loaning a frame, lowest address first, and taking it back; a frame that came back last is
  loaned first;
- reading and writing a frame by its address.

Does not own: which page occupies a frame (`ResidentSet`).

Loaning and taking back never touch the contents of a frame. An address that is not that of a
frame of the pool stops the machine, whatever is asked of it.
-/

namespace DemandPaging

structure PoolFrame where
  contents : PageData
  onLoan : Bool
deriving Inhabited

/-- The pool of physical frames. -/
structure FramePool where
  frames : Array PoolFrame
  /-- The indices of the frames that are not on loan; the first one is loaned next. -/
  free : List Nat
  /-- Every frame has a physical address. -/
  addressable : 0x200000 + frames.size * pageSize ≤ PhysAddr.bound

namespace FramePool

/-- The physical address of the first frame. -/
abbrev base : Nat := 0x200000

/-- The most frames that have physical addresses. -/
abbrev mostFrames : Nat := (PhysAddr.bound - base) / pageSize

/-- A pool of zero-filled frames, none on loan. There are never more of them than have physical
addresses. -/
def create (count : Nat) : FramePool where
  frames := Array.replicate (min count mostFrames) { contents := Block.zero, onLoan := false }
  free := List.range (min count mostFrames)
  addressable := by
    have : min count mostFrames ≤ mostFrames := Nat.min_le_right ..
    simp only [Array.size_replicate, mostFrames, base, PhysAddr.bound, pageSize] at *; omega

/-- A pool of zero-filled frames, none on loan, if the table of the frames fits one run of memory.
The table has a machine word of eight bytes for each of them. -/
def reserve (count : Nat) : Except Fault FramePool := do
  Capacity.request count 8
  .ok (create count)

instance : Inhabited FramePool := ⟨create 0⟩

def capacity (pool : FramePool) : Nat := pool.frames.size

def freeCount (pool : FramePool) : Nat := pool.free.length

def addressOf (pool : FramePool) (index : Fin pool.frames.size) : PhysAddr :=
  ⟨base + index.val * pageSize, by
    have := pool.addressable; have := index.isLt
    simp only [base, PhysAddr.bound, pageSize, Word.limit] at *; omega⟩

/-- The index of the frame with an address: the address of one of the frames, page aligned. -/
def indexOf? (pool : FramePool) (frame : PhysAddr) : Option (Fin pool.frames.size) :=
  if base ≤ frame.toNat ∧ frame.offset = 0 then
    if inPool : (frame.toNat - base) / pageSize < pool.frames.size then
      some ⟨(frame.toNat - base) / pageSize, inPool⟩
    else
      none
  else
    none

def update (pool : FramePool) (index : Fin pool.frames.size) (frame : PoolFrame) : FramePool where
  frames := pool.frames.set index.val frame index.isLt
  free := pool.free
  addressable := by simpa using pool.addressable

/-- Loan a frame. Its contents are what its last user left. -/
def acquire (pool : FramePool) : Option (PhysAddr × FramePool) :=
  match pool.free with
  | [] => none
  | index :: rest =>
    if inPool : index < pool.frames.size then
      let loaned := pool.update ⟨index, inPool⟩ { pool.frames[index] with onLoan := true }
      some (pool.addressOf ⟨index, inPool⟩, { loaned with free := rest })
    else
      none

def release (pool : FramePool) (frame : PhysAddr) : Except Fault FramePool :=
  match pool.indexOf? frame with
  | none => .error (.foreignFrame frame)
  | some index =>
    if pool.frames[index].onLoan then
      let returned := pool.update index { pool.frames[index] with onLoan := false }
      .ok { returned with free := index.val :: pool.free }
    else
      .error (.doubleFree frame)

def read (pool : FramePool) (frame : PhysAddr) : Except Fault PageData :=
  match pool.indexOf? frame with
  | none => .error (.foreignFrame frame)
  | some index => .ok pool.frames[index].contents

def write (pool : FramePool) (frame : PhysAddr) (contents : PageData) : Except Fault FramePool :=
  match pool.indexOf? frame with
  | none => .error (.foreignFrame frame)
  | some index => .ok (pool.update index { pool.frames[index] with contents })

theorem toNat_addressOf (pool : FramePool) (index : Fin pool.frames.size) :
    (pool.addressOf index).toNat = base + index.val * pageSize := rfl

@[simp]
theorem indexOf?_addressOf (pool : FramePool) (index : Fin pool.frames.size) :
    pool.indexOf? (pool.addressOf index) = some index := by
  have whole : (base + index.val * pageSize - base) / pageSize = index.val := by
    simp only [base, pageSize]; omega
  unfold indexOf?
  rw [if_pos (by simp only [Address.offset, toNat_addressOf, base, pageSize]; omega),
    dif_pos (by rw [toNat_addressOf, whole]; exact index.isLt)]
  simp only [toNat_addressOf, whole]

/-- Only the address of a frame finds it. -/
theorem addressOf_of_indexOf? {pool : FramePool} {frame : PhysAddr}
    {index : Fin pool.frames.size} (found : pool.indexOf? frame = some index) :
    pool.addressOf index = frame := by
  unfold indexOf? at found
  split at found
  · split at found
    · cases found
      apply Address.ext_toNat
      simp only [toNat_addressOf, Address.offset, base, pageSize] at *; omega
    · cases found
  · cases found

end FramePool

end DemandPaging
