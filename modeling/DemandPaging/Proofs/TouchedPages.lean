import DemandPaging.PageRange

/-!
The pages of a run of bytes, one after the other.

Owns:
- `Word.pageSteps`, the words from one on, a page apart, below an end;
- `Address.Touches`, a byte of a run lies in a page.

Does not own: what is done with the pages that are visited.

A range of pages is kept as a first page and a count. Here it is compared with steps of a page from
the first address, rounded down, up to the end, rounded up.

Main statement: `Address.visits_touched_pages`.
-/

namespace DemandPaging

/-! ## Steps of a page -/

namespace Word

/-- The words from one on, a page apart, that lie below an end. -/
def pageSteps (first stop : Nat) : List Nat :=
  if first < stop then first :: pageSteps (first + pageSize) stop else []
termination_by stop - first
decreasing_by
  simp only [pageSize]
  omega

theorem pageSteps_add (first count : Nat) :
    pageSteps first (first + count * pageSize) = List.range' first count pageSize := by
  induction count generalizing first with
  | zero =>
      rw [pageSteps, if_neg (by omega)]
      rfl
  | succ count inductionHypothesis =>
      have below : first < first + (count + 1) * pageSize := by
        simp only [pageSize]
        omega
      have sameEnd : first + (count + 1) * pageSize = first + pageSize + count * pageSize := by
        simp only [pageSize]
        omega
      rw [pageSteps, if_pos below, sameEnd, inductionHypothesis, List.range'_succ]

end Word

namespace PageRange

theorem map_toNat_toList (range : PageRange) :
    range.toList.map Address.toNat = List.range' range.start.toNat range.count pageSize := by
  rw [toList, List.map_map]
  apply List.ext_getElem
  · simp
  · intro index _ _
    simp [page, Nat.mul_comm]

theorem toList_ascending (range : PageRange) : range.toList.Pairwise (· < ·) := by
  have ascending := List.pairwise_lt_range' (s := range.start.toNat) (n := range.count) pageSize
  rw [← map_toNat_toList, List.pairwise_map] at ascending
  exact ascending

end PageRange

/-! ## The pages of a run -/

namespace Address

/-- One of the bytes of a run that starts at an address lies in a page. -/
def Touches (address : VirtAddr) (length : Nat) (page : VirtAddr) : Prop :=
  page.offset = 0 ∧
    ∃ byte, address.toNat ≤ byte ∧ byte < address.toNat + length ∧
      page.toNat ≤ byte ∧ byte < page.toNat + pageSize

/-- The end of a run, rounded up to a page boundary. That of an empty run is its start, rounded
down. -/
def runEnd (address : VirtAddr) (length : Nat) : Except Overflow Nat :=
  if length = 0 then
    .ok (address.toNat &&& pageMask)
  else do
    let stop ← Word.add address.toNat length
    let raised ← Word.add stop (pageSize - 1)
    return raised &&& pageMask

variable {address : VirtAddr} {length : Nat} {range : PageRange}

theorem runEnd_of_fits (nonempty : 0 < length)
    (fits : address.toNat + length + (pageSize - 1) < Word.limit) :
    address.runEnd length = .ok ((address.toNat + length + (pageSize - 1)) &&& pageMask) := by
  have sum : Word.add address.toNat length = .ok (address.toNat + length) :=
    Word.add_eq_ok_iff.2 ⟨Nat.lt_of_le_of_lt (Nat.le_add_right ..) fits, rfl⟩
  have raised : Word.add (address.toNat + length) (pageSize - 1) =
      .ok (address.toNat + length + (pageSize - 1)) := Word.add_eq_ok_iff.2 ⟨fits, rfl⟩
  simp only [runEnd, if_neg (Nat.ne_of_gt nonempty), sum, raised, bind, Except.bind, pure,
    Except.pure]

theorem runEnd_of_beyond (nonempty : 0 < length)
    (beyond : Word.limit ≤ address.toNat + length + (pageSize - 1)) :
    address.runEnd length = .error .add := by
  have raised : Word.add (address.toNat + length) (pageSize - 1) = .error .add :=
    if_neg (Nat.not_lt.2 beyond)
  simp only [runEnd, if_neg (Nat.ne_of_gt nonempty)]
  by_cases sum : address.toNat + length < Word.limit
  · simp only [Word.add_eq_ok_iff.2 ⟨sum, rfl⟩, raised, bind, Except.bind]
  · simp only [show Word.add address.toNat length = .error .add from if_neg sum, bind, Except.bind]

/-- The pages of a run are what is visited by steps of a page, from its start rounded down up to its
end rounded up. -/
theorem pages_eq_steps (address : VirtAddr) (length : Nat) :
    (address.pages length).map (fun range => range.toList.map toNat) =
      (address.runEnd length).map (Word.pageSteps (address.toNat &&& pageMask)) := by
  have start : address.pageDown.toNat = address.toNat &&& pageMask := by
    rw [← mask_pageMask]
    rfl
  obtain empty | nonempty := Nat.eq_zero_or_pos length
  · rw [pages, if_pos empty, runEnd, if_pos empty, ← start]
    simp only [Except.map, PageRange.map_toNat_toList, ← Word.pageSteps_add, Nat.zero_mul,
      Nat.add_zero]
  obtain fits | beyond := Nat.lt_or_ge (address.toNat + length + (pageSize - 1)) Word.limit
  · have stop : address.pageDown.toNat +
        (address.offset + length + (pageSize - 1)) / pageSize * pageSize =
          (address.toNat + length + (pageSize - 1)) &&& pageMask := by
      rw [and_pageMask fits]
      simp only [toNat_pageDown, offset, pageSize]
      omega
    rw [pages, if_neg (Nat.ne_of_gt nonempty), dif_pos fits, runEnd_of_fits nonempty fits,
      ← stop, ← start]
    simp only [Except.map, PageRange.map_toNat_toList, Word.pageSteps_add]
  · rw [pages_eq_error_iff.2 ⟨nonempty, beyond⟩, runEnd_of_beyond nonempty beyond]
    rfl

theorem toList_pages_eq_nil_iff (touched : address.pages length = .ok range) :
    range.toList = [] ↔ length = 0 := by
  constructor
  · intro empty
    by_cases nonempty : 0 < length
    · have listed : address.pageDown ∈ range.toList := by
        refine (mem_pages_iff touched).2 ⟨address.offset_pageDown, address.toNat, ?_⟩
        have within := address.offset_lt_pageSize
        have split := address.pageDown_add_offset
        omega
      rw [empty] at listed
      cases listed
    · exact Nat.eq_zero_of_not_pos nonempty
  · rintro rfl
    refine List.eq_nil_iff_forall_not_mem.2 fun page listed => ?_
    obtain ⟨-, byte, lower, upper, -⟩ := (mem_pages_iff touched).1 listed
    omega

/-- The pages of a run of bytes are visited in ascending order, none of them twice, and they are
those in which a byte of the run lies: none if the run is empty. They are those at which steps of a
page arrive from the start of the run, rounded down, up to its end, rounded up, and only if that end
cannot be rounded up within the machine words are they not listed. -/
theorem visits_touched_pages (address : VirtAddr) (length : Nat) :
    (address.pages length = .error .add ↔
      0 < length ∧ Word.limit ≤ address.toNat + length + (pageSize - 1)) ∧
    (address.pages length).map (fun range => range.toList.map toNat) =
      (address.runEnd length).map (Word.pageSteps (address.toNat &&& pageMask)) ∧
    (length = 0 ∨ address.toNat + length + (pageSize - 1) < Word.limit →
      ∃ range, address.pages length = .ok range ∧
        range.toList.Pairwise (· < ·) ∧ range.toList.Nodup ∧
        (∀ page, page ∈ range.toList ↔ address.Touches length page) ∧
        (range.toList = [] ↔ length = 0)) := by
  refine ⟨pages_eq_error_iff, pages_eq_steps address length, fun fits => ?_⟩
  obtain ⟨range, touched⟩ := exists_pages fits
  have ascending := range.toList_ascending
  have distinct : range.toList.Nodup :=
    ascending.imp fun less => by
      rintro rfl
      exact Nat.lt_irrefl _ less
  exact ⟨range, touched, ascending, distinct, fun _ => mem_pages_iff touched,
    toList_pages_eq_nil_iff touched⟩

/-- A run that starts and ends in the middle of a page, and crosses the end of the lower half of the
canonical addresses. -/
theorem visits_touched_pages_across :
    ∃ range, pages ⟨0x7fffffffeff0, by decide⟩ 0x2000 = .ok range ∧
      range.toList.map toNat = [0x7fffffffe000, 0x7ffffffff000, 0x800000000000] ∧
      range.toList.Pairwise (· < ·) ∧
      ∀ page, page ∈ range.toList ↔ Touches ⟨0x7fffffffeff0, by decide⟩ 0x2000 page := by
  obtain ⟨-, -, visits⟩ := visits_touched_pages ⟨0x7fffffffeff0, by decide⟩ 0x2000
  obtain ⟨range, touched, ascending, -, members, -⟩ := visits (.inr (by decide))
  refine ⟨range, touched, ?_, ascending, members⟩
  cases touched
  rw [PageRange.map_toNat_toList]
  decide

end Address

end DemandPaging
