import DemandPaging.Machine.Residency
import DemandPaging.Proofs.Backing
import DemandPaging.Proofs.PageLookup
import Mathlib.Logic.Relation

/-!
The steps of which every operation is made.

Owns:
- `Step`, one change of the machine between two states in which no frame is in hand: what the parts
  of an operation answered, and the state that follows from it;
- `Upkeep`, the steps by which the machine looks after its own records;
- `Move`, what such a step does to the pages that a process sees;
- `Path`, any number of steps whose moves are allowed.

Does not own: which steps an operation takes (`Machine.ends_makeResident` and the like).

An operation that takes a frame holds it for a while without a page in it. The states in between
are not settled and no step ends there: a frame that is taken counts as free until its page is in
it.

Main statement: `Path.keeps`, what every allowed step keeps holds at the end of a path.
-/

namespace DemandPaging

/-- What a step does to the pages that processes see, and to what they share. -/
inductive Move where
  | upkeep
  /-- A mapping of a file is made, or it is referred to once more. -/
  | refer
  /-- Files, the swap disk or the world are changed from outside. -/
  | outside
  | setStackPointer (pid : Pid)
  /-- The processor accesses a byte of a page in memory. -/
  | access (pid : Pid) (address : VirtAddr) (write : Bool)
  | pageOut (frame : PhysAddr)
  /-- A page is brought in, perhaps for the first time. -/
  | pageIn (pid : Pid) (address : VirtAddr) (frame : PhysAddr) (kind : PageKind) (first : Bool)
  /-- The contents of a page are replaced. -/
  | overwrite (pid : Pid) (address : VirtAddr) (kind : PageKind)
  | register (pid : Pid) (address : VirtAddr) (kind : PageKind)
  | remove (pid : Pid) (address : VirtAddr) (kind : PageKind)
  /-- A process is created, without pages. -/
  | arrive (pid : Pid)
  /-- A process without pages is removed. -/
  | leave (pid : Pid)
deriving DecidableEq, Repr

/-- No page is registered, removed, accessed or written, though pages may move in and out of
memory. -/
def Move.IsUnseen : Move → Prop
  | upkeep | pageOut _ | pageIn _ _ _ _ _ => True
  | refer | outside | setStackPointer _ | access _ _ _ | overwrite _ _ _ | register _ _ _
  | remove _ _ _ | arrive _ | leave _ => False

/-- Pages may leave memory, and none comes in. -/
def Move.MakesRoom : Move → Prop
  | upkeep | pageOut _ => True
  | refer | outside | setStackPointer _ | access _ _ _ | pageIn _ _ _ _ _ | overwrite _ _ _
  | register _ _ _ | remove _ _ _ | arrive _ | leave _ => False

theorem Move.MakesRoom.unseen {move : Move} (room : move.MakesRoom) : move.IsUnseen := by
  cases move with
  | upkeep | pageOut _ => trivial
  | _ => exact room.elim

theorem Move.MakesRoom.ne_outside {move : Move} (room : move.MakesRoom) : move ≠ .outside := by
  rintro rfl
  exact room

/-- A page of a process may belong to a mapping: it was made of a file that exists, and no other
process has a page of it. -/
structure Machine.Admits (machine : Machine) (pid : Pid) (mapping : Mapping) : Prop where
  known : machine.store.Knows mapping
  own : ∀ other place found, machine.mapping? other place = some found → found.id = mapping.id →
    other = pid ∧ found = mapping

open Machine in
/-- One change by which the machine looks after its own records. -/
inductive Upkeep : Machine → Machine → Prop where
  /-- The accessed mark of a page is read and cleared. -/
  | ask {before : Machine} (owner : FrameOwner) :
      Upkeep before
        { before with spaces := (testAndClearAccessed owner before.spaces).2 }
  /-- A frame goes to the end of the queue. -/
  | requeue {before : Machine} {frame : PhysAddr} (queued : frame ∈ before.resident.queue) :
      Upkeep before
        { before with
          resident := { before.resident with
            queue := before.resident.queue.erase frame ++ [frame] } }
  /-- The bytes of a frame that no page occupies change. -/
  | spoil {before : Machine} {frame : PhysAddr} {contents : PageData} {resident : ResidentSet}
      (vacant : before.resident.owner? frame = none)
      (written : before.resident.write frame contents = .ok resident) :
      Upkeep before { before with resident }
  /-- A page could not be written to the swap area. -/
  | strain {before : Machine} {contents : PageData} {error : Errno} {swap : SwapArea}
      (refused : SwapArea.swapOut contents before.store.swap = .failed error swap) :
      Upkeep before { before with store := { before.store with swap } }

/-- One change of the machine. -/
inductive Step : Move → Machine → Machine → Prop where
  | upkeep {before after : Machine} (upkeep : Upkeep before after) : Step .upkeep before after
  /-- A mapping of a file is made. -/
  | createMapping {before : Machine} {start : VirtAddr} {pageCount references : Nat}
      {file : FileId} {mapping : Mapping} {store : BackingStore}
      (made : BackingStore.createMapping start pageCount file references before.store =
        .done mapping store) :
      Step .refer before { before with store }
  /-- A mapping is referred to once more. -/
  | retain {before : Machine} {mapping : Mapping} {store : BackingStore}
      (retained : BackingStore.retain mapping before.store = .done () store) :
      Step .refer before { before with store }
  /-- Files and the world are changed from outside, and sectors of the swap disk begin or cease to
  fail. -/
  | outside {before : Machine} {disk : Disk} {files : FileStore} {world : World}
      (written : disk.written = before.store.swap.disk.written)
      (sectorCount : disk.sectorCount = before.store.swap.disk.sectorCount)
      (fileCount : files.inodes.size = before.store.files.inodes.size) :
      Step .outside before
        { before with
          store := { before.store with
            swap := { before.store.swap with disk }, files, world } }
  /-- The user stack pointer of a process is saved. -/
  | setStackPointer {before : Machine} {pid : Pid} {space : AddressSpace}
      {stackPointer : VirtAddr} (found : before.spaces[pid]? = some space) :
      Step (.setStackPointer pid) before
        { before with spaces := before.spaces.insert pid { space with stackPointer } }
  /-- A process accesses a byte, and the access leads to a frame. -/
  | access {before : Machine} {pid : Pid} {space : AddressSpace} {address : VirtAddr}
      {write : Bool} {location : Location} {table : PageTable}
      (found : before.spaces[pid]? = some space)
      (reached : space.table.access address write = (.ok location, table)) :
      Step (.access pid address write) before
        { before with spaces := before.spaces.insert pid { space with table } }
  /-- A page is saved and loses its frame. -/
  | pageOut {before : Machine} {pid : Pid} {space : AddressSpace} {page : Page}
      {frame old : PhysAddr} {bytes : PageData} {backing : Backing} {store : BackingStore}
      {table : PageTable} {resident : ResidentSet}
      (found : before.spaces[pid]? = some space)
      (registered : space.pages.at? page.address = some page)
      (held : page.frame = some frame)
      (read : before.resident.read frame = .ok bytes)
      (saved : page.backing.save page.address bytes (space.table.isDirty page.address)
        before.store = .done backing store)
      (unmapped : space.table.unmap page.address = (.ok old, table))
      (released : before.resident.release frame = .ok resident) :
      Step (.pageOut frame) before
        { before with
          resident, store
          spaces := before.spaces.insert pid { space with
            table, pages := space.pages.put { page with backing, frame := none } } }
  /-- A page is brought into a free frame. -/
  | pageIn {before : Machine} {pid : Pid} {space : AddressSpace} {page : Page}
      {frame : PhysAddr} {bytes : PageData} {backing : Backing}
      {transfer : Transfer BackingStore} {table : PageTable}
      {taken linked resident : ResidentSet}
      (found : before.spaces[pid]? = some space)
      (registered : space.pages.at? page.address = some page)
      (absent : page.frame = none)
      (acquired : before.resident.acquire = some (frame, taken))
      (mapped : space.table.map page.address frame page.permission = .ok table)
      (link : taken.link frame ⟨pid, page.address⟩ = .ok linked)
      (read : linked.read frame = .ok bytes)
      (brought : page.backing.bringIn page.address ⟨before.store, bytes⟩ =
        .done backing transfer)
      (written : linked.write frame transfer.bytes = .ok resident) :
      Step (.pageIn pid page.address frame page.kind page.isUntouched) before
        { before with
          resident, store := transfer.store
          spaces := before.spaces.insert pid { space with
            table
            pages := space.pages.put
              { page with backing := backing.touched, frame := some frame } } }
  /-- The contents of a page in memory are replaced. -/
  | overwrite {before : Machine} {pid : Pid} {address : VirtAddr} {page : Page}
      {frame : PhysAddr} {contents : PageData} {resident : ResidentSet}
      (owned : before.resident.owner? frame = some ⟨pid, address⟩)
      (registered : before.page? pid address = some page)
      (written : before.resident.write frame contents = .ok resident) :
      Step (.overwrite pid address page.kind) before { before with resident }
  /-- A page that was never touched is registered. -/
  | register {before : Machine} {pid : Pid} {space : AddressSpace} {page : Page}
      {initializer : Initializer} {pages : PageRegistry}
      (found : before.spaces[pid]? = some space)
      (untouched : page.backing = .untouched initializer)
      (absent : page.frame = none)
      (aligned : page.address.offset = 0)
      (admitted : ∀ mapping, page.mapping? = some mapping → before.Admits pid mapping)
      (inserted : space.pages.insert page = .ok pages) :
      Step (.register pid page.address page.kind) before
        { before with spaces := before.spaces.insert pid { space with pages } }
  /-- A page that is not in memory is removed. -/
  | removeAbsent {before : Machine} {pid : Pid} {space : AddressSpace} {page : Page}
      {backing : Backing} {store rest : BackingStore}
      (found : before.spaces[pid]? = some space)
      (registered : space.pages.at? page.address = some page)
      (absent : page.frame = none)
      (gaveUp : page.backing.giveUp page.address none false before.store = .done backing store)
      (forgot : page.forget store = .done () rest) :
      Step (.remove pid page.address page.kind) before
        { before with
          store := rest
          spaces := before.spaces.insert pid { space with
            pages := space.pages.erase page.address } }
  /-- A page in memory is removed, and its frame is cleared. -/
  | removeResident {before : Machine} {pid : Pid} {space : AddressSpace} {page : Page}
      {frame old : PhysAddr} {bytes : PageData} {backing : Backing}
      {store rest : BackingStore} {table : PageTable} {cleared resident : ResidentSet}
      (found : before.spaces[pid]? = some space)
      (registered : space.pages.at? page.address = some page)
      (held : page.frame = some frame)
      (read : before.resident.read frame = .ok bytes)
      (gaveUp : page.backing.giveUp page.address (some bytes) (space.table.isDirty page.address)
        before.store = .done backing store)
      (unmapped : space.table.unmap page.address = (.ok old, table))
      (clear : before.resident.write frame Block.zero = .ok cleared)
      (released : cleared.release frame = .ok resident)
      (forgot : page.forget store = .done () rest) :
      Step (.remove pid page.address page.kind) before
        { before with
          resident, store := rest
          spaces := before.spaces.insert pid { space with
            table, pages := space.pages.erase page.address } }
  /-- A process is created under the next number. -/
  | arrive {before : Machine} :
      Step (.arrive ⟨before.nextPid⟩) before
        { before with
          spaces := before.spaces.insert ⟨before.nextPid⟩ AddressSpace.empty
          nextPid := before.nextPid + 1 }
  /-- A process that has no pages left is removed. -/
  | leave {before : Machine} {pid : Pid} {space : AddressSpace}
      (found : before.spaces[pid]? = some space)
      (gone : ∀ address, space.pages.at? address = none) :
      Step (.leave pid) before { before with spaces := before.spaces.erase pid }

/-- Any number of steps whose moves are allowed. -/
def Path (allowed : Move → Prop) : Machine → Machine → Prop :=
  Relation.ReflTransGen fun before after => ∃ move, allowed move ∧ Step move before after

namespace Path

variable {allowed wider : Move → Prop} {first before after last : Machine}

theorem refl (machine : Machine) : Path allowed machine machine := Relation.ReflTransGen.refl

theorem single {move : Move} (step : Step move before after) (allow : allowed move) :
    Path allowed before after :=
  Relation.ReflTransGen.single ⟨move, allow, step⟩

theorem trans (left : Path allowed before after) (right : Path allowed after last) :
    Path allowed before last :=
  Relation.ReflTransGen.trans left right

theorem snoc {move : Move} (path : Path allowed before after) (step : Step move after last)
    (allow : allowed move) : Path allowed before last :=
  path.trans (single step allow)

theorem mono (path : Path allowed before after) (more : ∀ move, allowed move → wider move) :
    Path wider before after := by
  induction path with
  | refl => exact refl before
  | tail _ step inductionHypothesis =>
      obtain ⟨move, allow, stepped⟩ := step
      exact inductionHypothesis.snoc stepped (more move allow)

/-- What every allowed step keeps holds at the end. -/
theorem keeps {condition : Machine → Prop} (path : Path allowed before after)
    (start : condition before)
    (keep : ∀ move before after, allowed move → Step move before after → condition before →
      condition after) : condition after := by
  induction path with
  | refl => exact start
  | tail _ step inductionHypothesis =>
      obtain ⟨move, allow, stepped⟩ := step
      exact keep move _ _ allow stepped inductionHypothesis

end Path

end DemandPaging
