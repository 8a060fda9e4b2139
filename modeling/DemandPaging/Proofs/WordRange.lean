import DemandPaging.Proofs.SegmentLayout

/-!
Numbers that leave the machine words.

Owns: which numbers of a mapping and of a segment make a sum or a product leave the 64-bit words,
which stops the machine, and that no other numbers do.

Does not own: how mapping a file and loading a segment end otherwise (`ends_mapFile_laysOut`,
`ends_loadSegment_loads`).

The end of a mapping is checked against the kernel with care for the range of the words. The number
of bytes of its whole pages is a plain product, taken before that check. A segment is checked for
whole pages by a plain sum of its sizes, and after each page the position in the file is moved on by
a plain sum, after the last page too, where nothing needs it.

Main statements: `Reachable.mapping_overflows_iff` and `loading_overflows_iff`.
-/

namespace DemandPaging

namespace Machine

variable {machine : Machine} {address : VirtAddr} {file : FileId} {offset length : Nat}

/-! ## Mapping a file -/

/-- Whole pages for the bytes of a mapping have more bytes than a machine word can count. -/
def Overlong (machine : Machine) (file : FileId) (offset length : Nat) : Prop :=
  Word.limit - pageSize < machine.covered file offset length

instance (machine : Machine) (file : FileId) (offset length : Nat) :
    Decidable (machine.Overlong file offset length) :=
  inferInstanceAs (Decidable (_ < _))

theorem overlong_iff :
    machine.Overlong file offset length ↔
      Word.limit ≤ machine.store.files.pagesOf file offset length * pageSize := by
  unfold Overlong FileStore.pagesOf covered
  simp only [pageSize, Word.limit]
  omega

/-- The product is taken for every page address of a user that has bytes to map. -/
theorem mapFile_of_overlong (overlong : machine.Overlong file offset length)
    (aligned : address.isPageAligned = true) (user : address.isUser = true) (pid : Pid)
    (writable : Bool) :
    mapFile pid address length writable file offset machine = .halted (.overflow .multiply) := by
  have beyond := overlong_iff.1 overlong
  have covers : min length (machine.store.files.size file - offset) ≠ 0 := by
    unfold Overlong covered at overlong
    simp only [pageSize, Word.limit] at overlong
    omega
  have product : Word.mul ((min length (machine.store.files.size file - offset) + (pageSize - 1)) /
      pageSize) pageSize = .error .multiply := by
    unfold Word.mul
    exact if_neg (Nat.not_lt.2 beyond)
  unfold mapFile
  rw [Action.get_bind_apply]
  dsimp only
  rw [if_neg (by simp [covers, aligned, user]), product]
  rfl

/-- Other addresses are refused before. -/
theorem mapFile_of_not_page
    (unfit : ¬(address.isPageAligned = true ∧ address.isUser = true)) (pid : Pid)
    (writable : Bool) :
    mapFile pid address length writable file offset machine = .failed .invalidArgument machine := by
  unfold mapFile
  rw [Action.get_bind_apply]
  dsimp only
  rw [if_pos]
  · rfl
  · cases aligned : address.isPageAligned with
    | false => simp
    | true =>
        cases user : address.isUser with
        | false => simp
        | true => exact absurd ⟨aligned, user⟩ unfit

/-- In every reachable state, mapping a file stops the machine if the address is a page address of a
user and the whole pages for the bytes to be mapped have more bytes than a machine word can count,
and for no other numbers and no other reason. A mapping that would reach kernel addresses is an
invalid argument up to that length. -/
theorem Reachable.mapping_overflows_iff (reachable : machine.Reachable) (pid : Pid)
    (address : VirtAddr) (length : Nat) (writable : Bool) (file : FileId) (offset : Nat)
    (sized : machine.store.files.size file < Word.limit) :
    (∀ fault, mapFile pid address length writable file offset machine = .halted fault ↔
      fault = .overflow .multiply ∧ address.isPageAligned = true ∧ address.isUser = true ∧
        machine.Overlong file offset length) ∧
    (¬machine.Overlong file offset length →
      kernelBase < address.toNat +
        machine.store.files.pagesOf file offset length * pageSize →
      mapFile pid address length writable file offset machine =
        .failed .invalidArgument machine) := by
  by_cases overlong : machine.Overlong file offset length
  · refine ⟨fun fault => ?_, fun short => absurd overlong short⟩
    by_cases fit : address.isPageAligned = true ∧ address.isUser = true
    · rw [mapFile_of_overlong overlong fit.1 fit.2]
      constructor
      · intro same
        cases same
        exact ⟨rfl, fit.1, fit.2, overlong⟩
      · intro stops
        rw [stops.1]
    · rw [mapFile_of_not_page fit]
      constructor
      · intro same
        cases same
      · intro stops
        exact absurd ⟨stops.2.1, stops.2.2.1⟩ fit
  · have rounded : machine.store.files.pagesOf file offset length * pageSize < Word.limit :=
      Nat.lt_of_not_le fun beyond => overlong (overlong_iff.2 beyond)
    have ends := ends_mapFile_laysOut reachable.sound pid address length writable file offset sized
      rounded
    cases ran : mapFile pid address length writable file offset machine with
    | halted fault =>
        rw [ran] at ends
        exact ends.elim
    | done answer after =>
        rw [ran, Outcome.ends_done] at ends
        refine ⟨fun fault => iff_of_false nofun fun stops => overlong stops.2.2.2, ?_⟩
        intro _ beyond
        exact absurd ends.2.1.below (Nat.not_le.2 beyond)
    | failed error after =>
        rw [ran, Outcome.ends_failed] at ends
        refine ⟨fun fault => iff_of_false nofun fun stops => overlong stops.2.2.2, ?_⟩
        intro _ beyond
        obtain ⟨rfl, refused⟩ := ends
        cases refused with
        | unfit => rfl
        | missing fits | taken fits => exact absurd fits.below (Nat.not_le.2 beyond)

/-- A mapping of two pages from the last user page on is an invalid argument. -/
theorem mapping_refused_at_kernel :
    ∃ machine, tinyWithBlank.after? [.createProcess] = some machine ∧
      mapFile ⟨1⟩ ⟨kernelBase - pageSize, by decide⟩ 5000 true 0 0 machine =
        .failed .invalidArgument machine := by
  have runs : (tinyWithBlank.after? [.createProcess]).any (fun machine =>
      machine.store.files.size 0 = 5000) = true := by
    decide +kernel
  obtain ⟨machine, run, state⟩ := (Option.any_eq_true _ _).1 runs
  have size := of_decide_eq_true state
  have start : tinyWithBlank.Reachable := .start {} 1 (Disk.create 16) _
  have sized : machine.store.files.size 0 < Word.limit := by rw [size]; decide
  have short : ¬machine.Overlong 0 0 5000 := by
    unfold Overlong covered
    rw [size]
    decide
  have beyond : kernelBase < kernelBase - pageSize +
      machine.store.files.pagesOf 0 0 5000 * pageSize := by
    rw [FileStore.pagesOf, size]
    decide
  exact ⟨machine, run, ((start.of_after? run).mapping_overflows_iff ⟨1⟩ _ 5000 true 0 0 sized).2
    short beyond⟩

/-- A machine with a file that is as large as a machine word can tell. -/
def tinyWithLargest : Machine :=
  create {} (FramePool.create 1) (Disk.create 16) ⟨#[{ storage := .blank (Word.limit - 1) }]⟩

/-- To map all of the largest file, which would reach kernel addresses, stops the machine. -/
theorem mapping_overflows_largest :
    ∃ machine, tinyWithLargest.after? [.createProcess] = some machine ∧ machine.Reachable ∧
      machine.store.files.size 0 < Word.limit ∧
      kernelBase < firstPage.toNat +
        machine.store.files.pagesOf 0 0 (Word.limit - 1) * pageSize ∧
      mapFile ⟨1⟩ firstPage (Word.limit - 1) true 0 0 machine =
        .halted (.overflow .multiply) := by
  have runs : (tinyWithLargest.after? [.createProcess]).any (fun machine =>
      machine.store.files.size 0 = Word.limit - 1) = true := by
    decide +kernel
  obtain ⟨machine, run, state⟩ := (Option.any_eq_true _ _).1 runs
  have size := of_decide_eq_true state
  have start : tinyWithLargest.Reachable := .start {} 1 (Disk.create 16) _
  have overlong : machine.Overlong 0 0 (Word.limit - 1) := by
    unfold Overlong covered
    rw [size]
    decide
  refine ⟨machine, run, start.of_after? run, by rw [size]; decide, ?_,
    mapFile_of_overlong overlong (by decide) (by decide) ⟨1⟩ true⟩
  rw [FileStore.pagesOf, size]
  decide

/-! ## Loading a segment -/

/-- A segment is larger than a machine word can tell, or it consists of whole pages, the position in
the file behind its last byte is no machine word, and there is room for all pages up to where the
position leaves the words. -/
def Overflows (machine : Machine) (pid : Pid) (segment : Segment) : Prop :=
  Word.limit ≤ segment.readBytes + segment.zeroBytes ∨
    (segment.Whole ∧ Word.limit ≤ segment.offset + segment.readBytes ∧
      machine.RoomFor pid segment.address.toNat ((Word.limit - segment.offset) / pageSize))

theorem loadSegment_of_overflows {pid : Pid} {segment : Segment}
    (word : segment.offset < Word.limit) (overflows : machine.Overflows pid segment) :
    loadSegment pid file segment machine = .halted (.overflow .add) := by
  have ends := ends_loadSegment_loads machine pid file segment word
  cases ran : loadSegment pid file segment machine with
  | halted fault =>
      rw [ran, Outcome.ends_halted] at ends
      rw [ends.1]
  | done answer after =>
      rw [ran, Outcome.ends_done] at ends
      cases overflows with
      | inl sizes => exact absurd ends.1 (Nat.not_lt.2 sizes)
      | inr position => exact absurd ends.2.2.2.1 (Nat.not_lt.2 position.2.1)
  | failed error after =>
      rw [ran, Outcome.ends_failed] at ends
      cases overflows with
      | inl sizes => exact absurd ends.1 (Nat.not_lt.2 sizes)
      | inr position =>
          cases ends.2 with
          | inl unfit => exact absurd position.1 unfit.1
          | inr full => exact absurd (Segment.reach_of_beyond position.2.1 ▸ position.2.2) full.2

/-- Loading a segment stops the machine if one of these two sums leaves the words, and for no other
numbers and no other reason. -/
theorem loading_overflows_iff (machine : Machine) (pid : Pid) (file : FileId) (segment : Segment)
    (word : segment.offset < Word.limit) (fault : Fault) :
    loadSegment pid file segment machine = .halted fault ↔
      fault = .overflow .add ∧ machine.Overflows pid segment := by
  constructor
  · intro stopped
    have ends := ends_loadSegment_loads machine pid file segment word
    rw [stopped, Outcome.ends_halted] at ends
    refine ⟨ends.1, ?_⟩
    cases ends.2 with
    | inl sizes => exact .inl sizes
    | inr position =>
        exact .inr ⟨position.1, position.2.2, Segment.reach_of_beyond position.2.2 ▸ position.2.1⟩
  · intro stops
    rw [stops.1]
    exact loadSegment_of_overflows word stops.2

/-- The last position in a file at which a page begins. -/
def lastPosition : Nat := Word.limit - pageSize

/-- A page of the file and a zero page are loaded from the beginning of the file, and nothing stops
the machine. -/
theorem loading_keeps_words :
    ∃ machine, tinyWithFile.after? [.createProcess] = some machine ∧
      ∀ fault, loadSegment ⟨1⟩ 0 ⟨0, firstPage, pageSize, pageSize, true⟩ machine ≠
        .halted fault := by
  have runs : (tinyWithFile.after? [.createProcess]).isSome = true := by decide +kernel
  obtain ⟨machine, run⟩ := Option.isSome_iff_exists.1 runs
  refine ⟨machine, run, fun fault stopped => ?_⟩
  have stops := (loading_overflows_iff machine ⟨1⟩ 0 ⟨0, firstPage, pageSize, pageSize, true⟩
    (by decide) fault).1 stopped
  cases stops.2 with
  | inl sizes => exact absurd sizes (by decide)
  | inr position => exact absurd position.2.1 (by decide)

/-- One page of the file, the last one that has a position, is registered and then stops the
machine, although nothing needs the position behind it. So does a segment with sizes that are no
machine word together, which no address space could hold. -/
theorem loading_overflows_last :
    ∃ machine, tinyWithFile.after? [.createProcess] = some machine ∧ machine.Reachable ∧
      loadSegment ⟨1⟩ 0 ⟨lastPosition, firstPage, pageSize, 0, true⟩ machine =
        .halted (.overflow .add) ∧
      loadSegment ⟨1⟩ 0 ⟨0, firstPage, lastPosition, pageSize, true⟩ machine =
        .halted (.overflow .add) := by
  have runs : (tinyWithFile.after? [.createProcess]).any (fun machine =>
      (machine.spaces[(⟨1⟩ : Pid)]?).isSome = true ∧
        (machine.page? ⟨1⟩ firstPage).isNone = true) = true := by
    decide +kernel
  obtain ⟨machine, run, state⟩ := (Option.any_eq_true _ _).1 runs
  obtain ⟨process, absent⟩ := of_decide_eq_true state
  have free : machine.Free ⟨1⟩ firstPage :=
    ⟨process, by decide, Option.isNone_iff_eq_none.1 absent⟩
  have room : machine.RoomFor ⟨1⟩ firstPage.toNat 1 :=
    roomFor_succ_iff.2 ⟨roomFor_first_iff.2 free, roomFor_zero⟩
  refine ⟨machine, run, reachable_tinyWithFile.of_after? run, ?_, ?_⟩
  · apply loadSegment_of_overflows (by decide)
    exact .inr ⟨⟨by decide, by decide, by decide⟩, by decide, room⟩
  · apply loadSegment_of_overflows (by decide)
    exact .inl (by decide)

end Machine

end DemandPaging
