import Std.Data.ExtTreeMap
import DemandPaging.Hex
import DemandPaging.Word

/-!
Virtual and physical addresses.

Owns:
- page geometry and the split of the virtual addresses into a user part and a kernel part;
- addresses of both realms, which addresses a caller may name, and their checked arithmetic;
- the order of addresses, by which every table of the system is sorted.

Does not own: ranges of pages (`PageRange`) and where a virtual address leads (`PageTable`).

An address is any 64-bit word. Which words a caller may name is decided when an address is
read from a number (`VirtAddr.ofNat?`, `PhysAddr.ofNat?`); sums and differences stay within the
word and are not checked again.
-/

namespace DemandPaging

/-- The size of a page and of a frame, in bytes. -/
abbrev pageSize : Nat := 0x1000

/-- The first address of the kernel; user addresses lie below it. -/
abbrev kernelBase : Nat := 0x8004000000

/-- The bits of a word that a position within a page leaves clear. -/
abbrev pageMask : Nat := Word.limit - pageSize

/-- The top of the user stack, which grows downward from here. -/
abbrev stackTop : Nat := 0x47480000

inductive Realm where
  | virtual
  | physical
deriving DecidableEq, Repr

/-- An address of one realm: a 64-bit word. -/
structure Address (realm : Realm) where
  toNat : Nat
  lt_limit : toNat < Word.limit
deriving DecidableEq, Repr

/-- An address in the memory that a process sees. -/
abbrev VirtAddr : Type := Address .virtual

/-- An address of a physical frame. -/
abbrev PhysAddr : Type := Address .physical

namespace Address

variable {realm : Realm}

@[ext]
theorem ext_toNat {left right : Address realm} (same : left.toNat = right.toNat) :
    left = right := by
  cases left; cases right; simp_all

instance : Inhabited (Address realm) := ⟨⟨0, by decide⟩⟩

/-! ## Order -/

instance : Ord (Address realm) := ⟨fun left right => compare left.toNat right.toNat⟩

instance : Std.TransOrd (Address realm) :=
  inferInstanceAs (Std.TransCmp (compareOn Address.toNat))

instance : Std.LawfulEqOrd (Address realm) where
  eq_of_compare same := ext_toNat (Nat.compare_eq_eq.1 same)

instance : LT (Address realm) := ⟨fun left right => left.toNat < right.toNat⟩

instance : LE (Address realm) := ⟨fun left right => left.toNat ≤ right.toNat⟩

instance (left right : Address realm) : Decidable (left < right) :=
  inferInstanceAs (Decidable (left.toNat < right.toNat))

instance (left right : Address realm) : Decidable (left ≤ right) :=
  inferInstanceAs (Decidable (left.toNat ≤ right.toNat))

theorem lt_iff_toNat_lt {left right : Address realm} :
    left < right ↔ left.toNat < right.toNat :=
  Iff.rfl

theorem le_iff_toNat_le {left right : Address realm} :
    left ≤ right ↔ left.toNat ≤ right.toNat :=
  Iff.rfl

/-! ## Page geometry -/

/-- The first address of the page that holds this address. -/
def pageDown (address : Address realm) : Address realm :=
  ⟨address.toNat - address.toNat % pageSize,
    Nat.lt_of_le_of_lt (Nat.sub_le ..) address.lt_limit⟩

/-- The position of this address within its page. -/
def offset (address : Address realm) : Nat :=
  address.toNat % pageSize

/-- Whether this address is the first one of a page. -/
def isPageAligned (address : Address realm) : Bool :=
  address.offset == 0

theorem toNat_pageDown (address : Address realm) :
    address.pageDown.toNat = address.toNat - address.toNat % pageSize := rfl

theorem pageDown_add_offset (address : Address realm) :
    address.pageDown.toNat + address.offset = address.toNat :=
  Nat.sub_add_cancel (Nat.mod_le ..)

theorem offset_lt_pageSize (address : Address realm) : address.offset < pageSize :=
  Nat.mod_lt _ (by decide)

@[simp]
theorem offset_pageDown (address : Address realm) : address.pageDown.offset = 0 := by
  simp only [offset, toNat_pageDown, pageSize]; omega

@[simp]
theorem pageDown_pageDown (address : Address realm) :
    address.pageDown.pageDown = address.pageDown := by
  apply ext_toNat; simp only [toNat_pageDown, pageSize]; omega

theorem pageDown_eq_self_iff {address : Address realm} :
    address.pageDown = address ↔ address.offset = 0 := by
  constructor
  · intro same; rw [← same]; simp
  · intro aligned; apply ext_toNat; rw [← pageDown_add_offset address, aligned]; rfl

/-! ## Checked arithmetic -/

/-- The address a number of bytes further up. -/
def add (address : Address realm) (count : Nat) : Except Overflow (Address realm) :=
  if fits : address.toNat + count < Word.limit then .ok ⟨_, fits⟩ else .error .add

/-- The address a number of bytes further down. -/
def sub (address : Address realm) (count : Nat) : Except Overflow (Address realm) :=
  if count ≤ address.toNat then
    .ok ⟨address.toNat - count, Nat.lt_of_le_of_lt (Nat.sub_le ..) address.lt_limit⟩
  else
    .error .subtract

/-- The number of bytes from one address up to another. -/
def distance (upper lower : Address realm) : Except Overflow Nat :=
  Word.sub upper.toNat lower.toNat

/-- The address with only those bits kept that are set in a mask. -/
def mask (address : Address realm) (bits : Nat) : Address realm :=
  ⟨address.toNat &&& bits, Nat.lt_of_le_of_lt Nat.and_le_left address.lt_limit⟩

/-- Clearing the bits of the position within a page rounds a word down to a page boundary. -/
theorem and_pageMask {word : Nat} (fits : word < Word.limit) :
    word &&& pageMask = word / pageSize * pageSize := by
  have pageNumber : word / pageSize < 2 ^ 52 := by
    simp only [Word.limit, pageSize] at *
    omega
  have positionOutside : word % pageSize &&& pageMask = 0 := by
    rw [show word % pageSize = word &&& (2 ^ 12 - 1) from
      (Nat.and_two_pow_sub_one_eq_mod word 12).symm, Nat.and_assoc]
    exact Nat.and_zero _
  calc word &&& pageMask
      = ((word / pageSize) <<< 12 + word % pageSize) &&& pageMask := by
        rw [Nat.shiftLeft_eq, Nat.mul_comm, Nat.div_add_mod]
    _ = ((word / pageSize) <<< 12 &&& pageMask) ||| (word % pageSize &&& pageMask) := by
        rw [Nat.shiftLeft_add_eq_or_of_lt (Nat.mod_lt _ (by decide)), Nat.and_or_distrib_right]
    _ = (word / pageSize) <<< 12 &&& (2 ^ 52 - 1) <<< 12 := by
        rw [positionOutside, Nat.or_zero]
        rfl
    _ = word / pageSize * pageSize := by
        rw [← Nat.shiftLeft_and_distrib, Nat.and_two_pow_sub_one_of_lt_two_pow pageNumber,
          Nat.shiftLeft_eq]

theorem mask_pageMask (address : Address realm) : address.mask pageMask = address.pageDown := by
  apply ext_toNat
  show address.toNat &&& pageMask = _
  rw [and_pageMask address.lt_limit, toNat_pageDown]
  simp only [pageSize]
  omega

/-! ## Virtual addresses -/

/-- Whether this address belongs to the kernel. -/
def isKernel (address : VirtAddr) : Bool :=
  decide (kernelBase ≤ address.toNat)

/-- Whether this address is one that user code may use: below the kernel and not null. -/
def isUser (address : VirtAddr) : Bool :=
  decide (address.toNat ≠ 0 ∧ address.toNat < kernelBase)

/-- The first page boundary at or above this address. -/
def pageUp (address : VirtAddr) : Except Overflow VirtAddr :=
  (address.add (pageSize - 1)).map pageDown

end Address

/-- The words that name a virtual address: those whose upper seventeen bits agree. -/
def VirtAddr.Canonical (word : Nat) : Prop :=
  word < 0x800000000000 ∨ Word.limit - 0x800000000000 ≤ word

instance (word : Nat) : Decidable (VirtAddr.Canonical word) :=
  inferInstanceAs (Decidable (_ ∨ _))

/-- The virtual address that a number names, if it is a canonical word. -/
def VirtAddr.ofNat? (word : Nat) : Option VirtAddr :=
  if fits : word < Word.limit then
    if VirtAddr.Canonical word then some ⟨word, fits⟩ else none
  else
    none

/-- The first word that no longer names a physical address. -/
abbrev PhysAddr.bound : Nat := 0xffff000000000000

/-- The physical address that a number names, if it is below `PhysAddr.bound`. -/
def PhysAddr.ofNat? (word : Nat) : Option PhysAddr :=
  if fits : word < PhysAddr.bound then some ⟨word, Nat.lt_trans fits (by decide)⟩ else none

namespace Address

/-- The canonical address a number of bytes further up, if there is one. -/
def advance? (address : VirtAddr) (count : Nat) : Option VirtAddr :=
  VirtAddr.ofNat? (address.toNat + count)

def render {realm : Realm} (address : Address realm) : String :=
  match realm with
  | .virtual => "Va(" ++ hexText address.toNat ++ ")"
  | .physical => "Pa(" ++ hexText address.toNat ++ ")"

end Address

def VirtAddr.stackTop : VirtAddr := ⟨DemandPaging.stackTop, by decide⟩

theorem VirtAddr.ofNat?_eq_some_iff {word : Nat} {address : VirtAddr} :
    VirtAddr.ofNat? word = some address ↔ VirtAddr.Canonical word ∧ address.toNat = word := by
  have bounded := address.lt_limit
  unfold VirtAddr.ofNat?
  constructor
  · split
    · split
      · rintro ⟨⟩; exact ⟨‹_›, rfl⟩
      · simp
    · simp
  · rintro ⟨canonical, rfl⟩; simp [bounded, canonical]

theorem PhysAddr.ofNat?_eq_some_iff {word : Nat} {address : PhysAddr} :
    PhysAddr.ofNat? word = some address ↔ word < PhysAddr.bound ∧ address.toNat = word := by
  unfold PhysAddr.ofNat?
  constructor
  · split
    · rintro ⟨⟩; exact ⟨‹_›, rfl⟩
    · simp
  · rintro ⟨bounded, rfl⟩; simp [bounded]

end DemandPaging
