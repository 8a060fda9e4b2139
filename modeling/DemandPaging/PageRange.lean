import DemandPaging.Address

/-!
Ranges of consecutive pages.

Owns:
- a range as its first page and a count, with the promise that it ends within the 64-bit words;
- the pages that a run of bytes touches (`Address.pages`);
- visiting a range in order, stopping as soon as the answer is known.

Main statement: `mem_pages_iff`, the pages of a run of bytes are those that hold one of its bytes.
-/

namespace DemandPaging

/-- A number of consecutive pages from a first one on. -/
structure PageRange where
  start : VirtAddr
  count : Nat
  fits : start.toNat + count * pageSize ≤ Word.limit

namespace PageRange

/-- The page at a position of the range. -/
def page (range : PageRange) (index : Fin range.count) : VirtAddr :=
  ⟨range.start.toNat + index.val * pageSize, by
    have := range.fits; have := index.isLt; simp only [pageSize] at *; omega⟩

def toList (range : PageRange) : List VirtAddr :=
  (List.finRange range.count).map range.page

/-- The first pages in order, at most a given number of them. -/
def take (range : PageRange) (most : Nat) : List VirtAddr :=
  (List.finRange (min most range.count)).map fun index =>
    range.page ⟨index.val, Nat.lt_of_lt_of_le index.isLt (Nat.min_le_right ..)⟩

/-- Whether every page of the range passes a test; stops at the first that does not. -/
def all (range : PageRange) (test : VirtAddr → Bool) : Bool :=
  Nat.all range.count fun index inRange => test (range.page ⟨index, inRange⟩)

/-- Whether some page of the range passes a test; stops at the first that does. -/
def any (range : PageRange) (test : VirtAddr → Bool) : Bool :=
  Nat.any range.count fun index inRange => test (range.page ⟨index, inRange⟩)

theorem length_toList (range : PageRange) : range.toList.length = range.count := by
  simp [toList]

theorem mem_toList_iff {range : PageRange} {address : VirtAddr} :
    address ∈ range.toList ↔
      ∃ index < range.count, address.toNat = range.start.toNat + index * pageSize := by
  constructor
  · intro listed
    obtain ⟨index, -, rfl⟩ := List.mem_map.1 listed
    exact ⟨index.val, index.isLt, rfl⟩
  · rintro ⟨index, inRange, same⟩
    exact List.mem_map.2
      ⟨⟨index, inRange⟩, List.mem_finRange _, Address.ext_toNat same.symm⟩

theorem all_eq_true_iff {range : PageRange} {test : VirtAddr → Bool} :
    range.all test = true ↔ ∀ address ∈ range.toList, test address = true := by
  simp [all, toList, Nat.all_eq_finRange_all]

theorem any_eq_true_iff {range : PageRange} {test : VirtAddr → Bool} :
    range.any test = true ↔ ∃ address ∈ range.toList, test address = true := by
  simp only [any, toList, Nat.any_eq_finRange_any, List.any_eq_true, List.mem_map]
  constructor
  · rintro ⟨index, listed, passes⟩; exact ⟨_, ⟨index, listed, rfl⟩, passes⟩
  · rintro ⟨_, ⟨index, listed, rfl⟩, passes⟩; exact ⟨index, listed, passes⟩

end PageRange

/-- The pages that a run of bytes touches, in order; none if the run is empty. The end of the run
is rounded up to a page boundary, and that sum has to be a word. -/
def Address.pages (address : VirtAddr) (length : Nat) : Except Overflow PageRange :=
  if length = 0 then
    .ok ⟨address.pageDown, 0, by
      have := address.pageDown.lt_limit; simp only [pageSize] at *; omega⟩
  else if fits : address.toNat + length + (pageSize - 1) < Word.limit then
    .ok {
      start := address.pageDown
      count := (address.offset + length + (pageSize - 1)) / pageSize
      fits := by
        have := address.pageDown_add_offset
        simp only [pageSize] at *
        omega }
  else
    .error .add

/-- The pages of a run cannot be listed exactly if the end of the run, before it is rounded down, is
no longer a word. -/
theorem Address.pages_eq_error_iff {address : VirtAddr} {length : Nat} :
    address.pages length = .error .add ↔
      0 < length ∧ Word.limit ≤ address.toNat + length + (pageSize - 1) := by
  unfold pages
  split
  case isTrue empty => exact iff_of_false nofun fun beyond => absurd empty (Nat.ne_of_gt beyond.1)
  case isFalse nonempty =>
    split
    case isTrue fits => exact iff_of_false nofun fun beyond => absurd fits (Nat.not_lt.2 beyond.2)
    case isFalse beyond => exact iff_of_true rfl ⟨Nat.pos_of_ne_zero nonempty, Nat.not_lt.1 beyond⟩

theorem Address.exists_pages {address : VirtAddr} {length : Nat}
    (fits : length = 0 ∨ address.toNat + length + (pageSize - 1) < Word.limit) :
    ∃ range, address.pages length = .ok range := by
  unfold pages
  split
  case isTrue => exact ⟨_, rfl⟩
  case isFalse nonempty =>
    rw [dif_pos (fits.resolve_left nonempty)]
    exact ⟨_, rfl⟩

/-- The pages of a run of bytes are exactly the page boundaries below which, within one page, a
byte of the run lies. -/
theorem Address.mem_pages_iff {address page : VirtAddr} {length : Nat} {range : PageRange}
    (touched : address.pages length = .ok range) :
    page ∈ range.toList ↔
      page.offset = 0 ∧
        ∃ byte, address.toNat ≤ byte ∧ byte < address.toNat + length ∧
          page.toNat ≤ byte ∧ byte < page.toNat + pageSize := by
  rw [PageRange.mem_toList_iff]
  unfold Address.pages at touched
  split at touched
  · cases touched
    simp only [Nat.not_lt_zero, false_and, exists_false, false_iff, not_and, not_exists]
    omega
  · split at touched
    · cases touched
      have split := address.pageDown_add_offset
      have within := address.offset_lt_pageSize
      have aligned := address.offset_pageDown
      simp only [Address.offset, pageSize] at *
      constructor
      · rintro ⟨index, inRange, same⟩
        refine ⟨by omega, max address.toNat page.toNat, ?_⟩
        omega
      · rintro ⟨pageAligned, byte, _, _, _, _⟩
        refine ⟨(page.toNat - address.pageDown.toNat) / 4096, ?_, ?_⟩ <;> omega
    · cases touched

end DemandPaging
