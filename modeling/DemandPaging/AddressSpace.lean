import DemandPaging.Page
import DemandPaging.PageRange

/-!
The memory of one process.

Owns: the page table, the registered pages and the saved user stack pointer of a process, and
the check of a range of addresses against its layout.

Does not own: bringing pages in when the range is accessed (`Machine.readUser`).
-/

namespace DemandPaging

structure AddressSpace where
  /-- Where the pages in memory are found. -/
  table : PageTable
  /-- Every page of the process. -/
  pages : PageRegistry
  /-- The user stack pointer, saved when the process last entered the kernel. -/
  stackPointer : VirtAddr

namespace AddressSpace

def empty : AddressSpace where
  table := PageTable.empty
  pages := PageRegistry.empty
  stackPointer := VirtAddr.stackTop

instance : Inhabited AddressSpace := ⟨empty⟩

/-- Whether the process may access the addresses from a first one up to, but not including, a last
one: they are user addresses, and every page that holds one of them is registered and, if they are
to be written, writable. Brings nothing in. -/
def accessOk (space : AddressSpace) (first last : VirtAddr) (write : Bool) :
    Except Overflow Bool := do
  if last < first || !first.isUser then
    return false
  let length ← last.distance first
  if 0 < length then
    let final ← last.sub 1
    if final.isKernel then
      return false
  let range ← first.pages length
  return range.all fun page =>
    (space.pages.find? page).any fun page => !write || page.writable

end AddressSpace

end DemandPaging
