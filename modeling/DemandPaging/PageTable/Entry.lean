import DemandPaging.Address

/-!
Entries of a page table.

Owns:
- the flags of an entry and their places in the entry's word;
- an entry as one word: the address of a frame, with the flags in the bits below a page;
- the text of an entry.

Main statements: `Entry.flags_withFlags` and `Entry.frame?_withFlags`, changing the flags sets
exactly the flags and keeps the frame.
-/

namespace DemandPaging

structure EntryFlags where
  /-- The entry maps a frame. -/
  present : Bool
  writable : Bool
  user : Bool
  /-- The page was accessed since this flag was last cleared. -/
  accessed : Bool
  /-- The page was written since this flag was last cleared. -/
  dirty : Bool
deriving DecidableEq, Repr, Inhabited

namespace EntryFlags

/-- The bits of an entry below those of a page address, in which the flags are kept. -/
abbrev mask : Nat := 0xfff

/-- The flags as bits of a word: present 1, writable 2, user 4, accessed 32, dirty 64. -/
def bits (flags : EntryFlags) : Nat :=
  flags.present.toNat ||| flags.writable.toNat <<< 1 ||| flags.user.toNat <<< 2 |||
    flags.accessed.toNat <<< 5 ||| flags.dirty.toNat <<< 6

/-- The flags that a word carries. Other bits are ignored. -/
def ofBits (word : Nat) : EntryFlags where
  present := word.testBit 0
  writable := word.testBit 1
  user := word.testBit 2
  accessed := word.testBit 5
  dirty := word.testBit 6

def render (flags : EntryFlags) : String :=
  let names :=
    (if flags.present then ["P"] else []) ++ (if flags.writable then ["RW"] else []) ++
      (if flags.user then ["US"] else []) ++ (if flags.accessed then ["A"] else []) ++
      (if flags.dirty then ["D"] else [])
  if names.isEmpty then "(empty)" else " | ".intercalate names

theorem ofBits_bits (flags : EntryFlags) : ofBits flags.bits = flags := by
  rcases flags with ⟨_ | _, _ | _, _ | _, _ | _, _ | _⟩ <;> rfl

theorem bits_and_mask (flags : EntryFlags) : flags.bits &&& mask = flags.bits := by
  rcases flags with ⟨_ | _, _ | _, _ | _, _ | _, _ | _⟩ <;> rfl

end EntryFlags

/-- A page table entry: a machine word with the address of a frame, and the flags in the bits below
a page. -/
structure Entry where
  word : Nat
deriving DecidableEq, Repr, Inhabited

namespace Entry

/-- The bits of an entry that hold the address of its frame. -/
abbrev frameMask : Nat := 0xfffffffffffff000

/-- The entry that maps a page-aligned frame with given flags. -/
def ofFrame (frame : PhysAddr) (flags : EntryFlags) : Entry :=
  ⟨frame.toNat ||| flags.bits⟩

def flags (entry : Entry) : EntryFlags :=
  EntryFlags.ofBits (entry.word &&& EntryFlags.mask)

/-- The frame that the entry maps, if it is present and names a physical address. -/
def frame? (entry : Entry) : Option PhysAddr :=
  if entry.flags.present then PhysAddr.ofNat? (entry.word &&& frameMask) else none

/-- The entry for the same frame with other flags. -/
def withFlags (entry : Entry) (flags : EntryFlags) : Entry :=
  ⟨(entry.word &&& frameMask) ||| flags.bits⟩

/-! ## The two fields of an entry -/

theorem flags_and_frameMask (flags : EntryFlags) : flags.bits &&& frameMask = 0 := by
  rw [← flags.bits_and_mask, Nat.and_assoc]
  exact Nat.and_zero _

theorem frame_and_flagMask (word : Nat) : word &&& frameMask &&& EntryFlags.mask = 0 := by
  rw [Nat.and_assoc]
  exact Nat.and_zero _

/-- The address of a frame has no bit among the flags. -/
theorem aligned_and_flagMask {frame : PhysAddr} (aligned : frame.offset = 0) :
    frame.toNat &&& EntryFlags.mask = 0 :=
  (Nat.and_two_pow_sub_one_eq_mod frame.toNat 12).trans aligned

/-- The address of a frame lies in the bits that hold it. -/
theorem aligned_and_frameMask {frame : PhysAddr} (aligned : frame.offset = 0) :
    frame.toNat &&& frameMask = frame.toNat := by
  show (frame.mask pageMask).toNat = frame.toNat
  rw [Address.mask_pageMask, Address.pageDown_eq_self_iff.2 aligned]

@[simp]
theorem flags_withFlags (entry : Entry) (flags : EntryFlags) :
    (entry.withFlags flags).flags = flags := by
  rw [Entry.flags, withFlags, Nat.and_or_distrib_right, frame_and_flagMask, flags.bits_and_mask,
    Nat.zero_or, flags.ofBits_bits]

theorem withFlags_and_frameMask (entry : Entry) (flags : EntryFlags) :
    (entry.withFlags flags).word &&& frameMask = entry.word &&& frameMask := by
  rw [withFlags, Nat.and_or_distrib_right, flags_and_frameMask, Nat.or_zero, Nat.and_assoc,
    Nat.and_self]

/-- Other flags leave the frame of a present entry alone. -/
theorem frame?_withFlags (entry : Entry) {flags : EntryFlags}
    (present : flags.present = entry.flags.present) :
    (entry.withFlags flags).frame? = entry.frame? := by
  simp only [frame?, flags_withFlags, withFlags_and_frameMask, present]

@[simp]
theorem flags_ofFrame {frame : PhysAddr} (aligned : frame.offset = 0) (flags : EntryFlags) :
    (ofFrame frame flags).flags = flags := by
  rw [Entry.flags, ofFrame, Nat.and_or_distrib_right, aligned_and_flagMask aligned,
    flags.bits_and_mask, Nat.zero_or, flags.ofBits_bits]

theorem ofFrame_and_frameMask {frame : PhysAddr} (aligned : frame.offset = 0)
    (flags : EntryFlags) : (ofFrame frame flags).word &&& frameMask = frame.toNat := by
  rw [ofFrame, Nat.and_or_distrib_right, aligned_and_frameMask aligned, flags_and_frameMask,
    Nat.or_zero]

/-- Other flags make the entry for the same frame with these flags. -/
theorem withFlags_ofFrame {frame : PhysAddr} (aligned : frame.offset = 0)
    (flags other : EntryFlags) : (ofFrame frame flags).withFlags other = ofFrame frame other := by
  rw [withFlags, ofFrame_and_frameMask aligned, ofFrame]

/-- A present entry gives back the page-aligned frame it was made for. -/
theorem frame?_ofFrame {frame : PhysAddr} (aligned : frame.offset = 0)
    (physical : frame.toNat < PhysAddr.bound) {flags : EntryFlags}
    (present : flags.present = true) : (ofFrame frame flags).frame? = some frame := by
  rw [frame?, flags_ofFrame aligned, present, if_pos rfl, ofFrame_and_frameMask aligned,
    PhysAddr.ofNat?_eq_some_iff]
  exact ⟨physical, rfl⟩

/-- An entry does not give back a frame whose number is too large for a physical address. -/
theorem frame?_ofFrame_of_le {frame : PhysAddr} (aligned : frame.offset = 0)
    (beyond : PhysAddr.bound ≤ frame.toNat) (flags : EntryFlags) :
    (ofFrame frame flags).frame? = none := by
  rw [frame?, ofFrame_and_frameMask aligned, PhysAddr.ofNat?, dif_neg (Nat.not_lt.2 beyond),
    ite_self]

def render (entry : Entry) : String :=
  let frame :=
    match entry.frame? with
    | some frame => "Some(" ++ frame.render ++ ")"
    | none => "None"
  "Pte(" ++ frame ++ ", " ++ entry.flags.render ++ ")"

end Entry

end DemandPaging
