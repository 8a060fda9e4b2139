import DemandPaging.Errno
import DemandPaging.FaultCode
import DemandPaging.PageTable.Entry

/-!
The page table of one process: where the processor finds each of its pages.

Owns:
- mapping a page to a frame and unmapping it, and the errors of doing so;
- an access as the processor performs it: look up, check, set the accessed and dirty flags;
- reading and setting those two flags.

Does not own: which pages a process has (`PageRegistry`) and what a fault leads to.

Pages are mapped and unmapped by their own addresses only. Every other operation takes any address
and means the page that holds it.
-/

namespace DemandPaging

/-- Why a page could not be mapped or unmapped. -/
inductive MapError where
  | unaligned
  | notExist
  | duplicated
  | invalidPermission
deriving DecidableEq, Repr, Inhabited

namespace MapError

def all : List MapError := [unaligned, notExist, duplicated, invalidPermission]

def name : MapError → String
  | unaligned => "Unaligned"
  | notExist => "NotExist"
  | duplicated => "Duplicated"
  | invalidPermission => "InvalidPermission"

def ofName? (name : String) : Option MapError :=
  all.find? fun cause => cause.name == name

/-- The error number under which a cause is reported further up. -/
def toErrno : MapError → Errno
  | unaligned => .invalidArgument
  | notExist => .badAddress
  | duplicated => .fileExist
  | invalidPermission => .invalidAccess

end MapError

/-- What a page may be used for. -/
structure Permission where
  read : Bool
  write : Bool
  execute : Bool
  user : Bool
deriving DecidableEq, Repr, Inhabited

namespace Permission

/-- The permission with given bits: read 1, write 2, execute 4, user 8. Other bits are ignored. -/
def ofBits (bits : Nat) : Permission where
  read := decide (bits % 2 = 1)
  write := decide (bits / 2 % 2 = 1)
  execute := decide (bits / 4 % 2 = 1)
  user := decide (bits / 8 % 2 = 1)

def bits (permission : Permission) : Nat :=
  permission.read.toNat + 2 * permission.write.toNat + 4 * permission.execute.toNat +
    8 * permission.user.toNat

/-- The permission of a user page: readable, and writable on request. -/
def userPage (writable : Bool) : Permission where
  read := true
  write := writable
  execute := false
  user := true

end Permission

/-- Where an access leads: a frame and the position of the byte within it. -/
structure Location where
  frame : PhysAddr
  offset : Nat
deriving DecidableEq, Repr, Inhabited

/-- The number of the physical byte. -/
def Location.address (location : Location) : Nat :=
  location.frame.toNat + location.offset

structure PageTable where
  entries : Std.ExtTreeMap VirtAddr Entry

namespace PageTable

def empty : PageTable := ⟨∅⟩

instance : Inhabited PageTable := ⟨empty⟩

def size (table : PageTable) : Nat := table.entries.size

def isEmpty (table : PageTable) : Bool := table.entries.isEmpty

/-- The flags of a fresh entry. -/
def freshFlags (permission : Permission) : EntryFlags where
  present := true
  writable := permission.write
  user := true
  accessed := false
  dirty := false

/-- Map a page to a frame. Both addresses have to be page addresses, the page has to be below the
kernel, and it must not be mapped yet; of several errors the first one in this order is
reported. -/
def map (table : PageTable) (page : VirtAddr) (frame : PhysAddr) (permission : Permission) :
    Except MapError PageTable :=
  if page.offset ≠ 0 ∨ frame.offset ≠ 0 then
    .error .unaligned
  else if page.isKernel then
    .error .invalidPermission
  else if page ∈ table.entries then
    .error .duplicated
  else
    .ok ⟨table.entries.insert page (.ofFrame frame (freshFlags permission))⟩

/-- Unmap a page, and answer the frame it was mapped to. -/
def unmap (table : PageTable) (page : VirtAddr) : Except MapError PhysAddr × PageTable :=
  if page.offset ≠ 0 then
    (.error .unaligned, table)
  else
    match table.entries[page]? with
    | none => (.error .notExist, table)
    | some entry =>
      let rest : PageTable := ⟨table.entries.erase page⟩
      match entry.frame? with
      | some frame => (.ok frame, rest)
      | none => (.error .notExist, rest)

/-- The entry of the page that holds an address. -/
def entry? (table : PageTable) (address : VirtAddr) : Option Entry :=
  table.entries[address.pageDown]?

/-- The entry of the page that holds an address, or the error that there is none. -/
def walk (table : PageTable) (address : VirtAddr) : Except MapError Entry :=
  match table.entry? address with
  | some entry => .ok entry
  | none => .error .notExist

/-- Change the flags of the page that holds an address, if it is mapped. -/
def updateFlags (table : PageTable) (address : VirtAddr) (change : EntryFlags → EntryFlags) :
    PageTable :=
  match table.entry? address with
  | some entry =>
    ⟨table.entries.insert address.pageDown (entry.withFlags (change entry.flags))⟩
  | none => table

/-- Whether the page that holds an address was written since its dirty flag was last cleared. An
unmapped page never was. -/
def isDirty (table : PageTable) (address : VirtAddr) : Bool :=
  (table.entry? address).any fun entry => entry.flags.dirty

/-- Set or clear the dirty flag of the page that holds an address. -/
def setDirty (table : PageTable) (address : VirtAddr) (dirty : Bool) : PageTable :=
  table.updateFlags address fun flags => { flags with dirty }

/-- Whether the page that holds an address was accessed since its accessed flag was last cleared.
An unmapped page never was. -/
def isAccessed (table : PageTable) (address : VirtAddr) : Bool :=
  (table.entry? address).any fun entry => entry.flags.accessed

/-- Set or clear the accessed flag of the page that holds an address. -/
def setAccessed (table : PageTable) (address : VirtAddr) (accessed : Bool) : PageTable :=
  table.updateFlags address fun flags => { flags with accessed }

/-- Access a byte from user mode the way the processor does. An access to an unmapped page and a
write to a page that is not writable fault and change nothing; any other access marks the page as
accessed, a write marks it as dirty too, and the place of the byte is answered. -/
def access (table : PageTable) (address : VirtAddr) (write : Bool) :
    Except FaultCode Location × PageTable :=
  let unmapped : FaultCode := { present := false, write, user := true }
  match table.entry? address with
  | none => (.error unmapped, table)
  | some entry =>
    if write && !entry.flags.writable then
      (.error { unmapped with present := true }, table)
    else
      let flags := { entry.flags with accessed := true, dirty := entry.flags.dirty || write }
      let marked := entry.withFlags flags
      let table : PageTable := ⟨table.entries.insert address.pageDown marked⟩
      match marked.frame? with
      | some frame => (.ok ⟨frame, address.offset⟩, table)
      | none => (.error unmapped, table)

end PageTable

end DemandPaging
