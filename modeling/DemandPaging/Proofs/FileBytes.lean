import DemandPaging.Proofs.FileContents
import DemandPaging.Proofs.UserBytes

/-!
The bytes of a file and those of its pages.

Owns:
- `FileRegion.Spans`, the positions in the file of the bytes of a page that come from there;
- `FileRegion.Matches`, these bytes are those of a run of bytes at their positions;
- what reading a page from its file and writing it back do, byte by byte.

Does not own: which pages of a file are in memory (`Machine.Represents`).

Main statements: `FileRegion.matches_of_bringIn` and `FileRegion.Matches.writtenBack`.
-/

namespace DemandPaging

/-! ## Files -/

/-- Bytes that are laid over others are found at their positions, and the others at theirs, unless
there is a gap between them. -/
theorem getElem?_overlayBytes (bytes : Array UInt8) (position : Nat) (data : Array UInt8)
    {index : Nat} (noGap : position ≤ index ∨ index < bytes.size) :
    (overlayBytes bytes position data)[index]? =
      if position ≤ index ∧ index < position + data.size then data[index - position]?
      else bytes[index]? := by
  by_cases inside : index < max bytes.size (position + data.size)
  · have getD := getD_overlayBytes bytes position data index
    rw [Array.getD_eq_getD_getElem?, Array.getElem?_eq_getElem (by simp; omega)] at getD
    rw [Array.getElem?_eq_getElem (by simp; omega)]
    rw [Option.getD_some] at getD
    rw [getD]
    split
    case isTrue covered =>
      have inData : index - position < data.size := by omega
      rw [Array.getElem?_eq_getElem inData]
      simp [Array.getD, inData]
    case isFalse =>
      have inBytes : index < bytes.size := by omega
      rw [Array.getElem?_eq_getElem inBytes]
      simp [inBytes]
  · have neither : ¬(position ≤ index ∧ index < position + data.size) := by omega
    rw [if_neg neither, Array.getElem?_eq_none (by simp; omega), Array.getElem?_eq_none (by omega)]

/-- What is read from a file that stores bytes are its bytes from the position on. -/
theorem Inode.of_read {inode : Inode} {bytes data : Array UInt8} {position length : Nat}
    (read : inode.read position length = .ok data) (holds : inode.storage = .contents bytes)
    {index : Nat} (inside : index < data.size) : data[index]? = bytes[position + index]? := by
  unfold Inode.read at read
  cases granted : inode.readMode.admit position length with
  | error error => rw [granted] at read; cases read
  | ok admitted =>
      rw [granted, holds] at read
      cases read
      rw [Array.size_extract] at inside
      rw [Array.getElem?_extract, if_pos (by omega)]

theorem OpenFile.ends_read_bytes {handle : OpenFile} {length : Nat} {store : FileStore}
    {bytes : Array UInt8} (stored : store.bytes? handle.file = some bytes) :
    (handle.read length store).Ends
      (fun answer _ => ∀ index, index < answer.1.size →
        answer.1[index]? = bytes[handle.position + index]?)
      (fun _ _ => True) (fun _ => True) := by
  simp only [read, FileStore.read, FileStore.inode, Action.ends_bind, Action.ends_require,
    Action.ends_orFail, Action.ends_checked, Action.ends_pure]
  refine ⟨fun inode found => ⟨fun data read => ⟨fun _ _ index inside => ?_, fun _ _ => trivial⟩,
    fun _ _ => trivial⟩, fun _ => trivial⟩
  obtain ⟨known, found', holds⟩ := FileStore.exists_of_bytes? stored
  rw [found, Option.some.injEq] at found'
  subst found'
  exact Inode.of_read read holds inside

/-! ## Parts of files -/

namespace FileRegion

variable {region : FileRegion} {bytes intended : Array UInt8} {contents : PageData}

/-- A position in the file is that of a byte of the page that comes from the file. -/
def Spans (region : FileRegion) (position : Nat) : Prop :=
  ∃ index : Fin pageSize, index.val < region.readBytes ∧ position = region.offset + index.val

/-- The bytes of a page that come from the file are those of a run of bytes, at their positions. -/
structure Matches (region : FileRegion) (contents : PageData) (intended : Array UInt8) : Prop where
  nonempty : 0 < region.readBytes
  bytes : ∀ index : Fin pageSize, index.val < region.readBytes →
    intended[region.offset + index.val]? = some contents[index]

/-- A page that is brought in has the bytes that the file has for it. -/
theorem matches_of_bringIn {page : VirtAddr} {transfer after : Transfer BackingStore}
    (brought : region.bringIn page transfer = .done () after) (nonempty : 0 < region.readBytes)
    (stored : transfer.store.files.bytes? region.mapping.file = some bytes)
    (agrees : ∀ position, region.Spans position → bytes[position]? = intended[position]?) :
    region.Matches after.bytes intended := by
  have ends : (region.bringIn page transfer).Ends
      (fun _ after => region.Matches after.bytes intended) (fun _ _ => True)
      (fun _ => True) := by
    simp only [bringIn, BackingStore.transferFiles, Action.ends_bind, Action.ends_onPart]
    refine (OpenFile.ends_read_bytes stored).imp ?_ (fun _ _ _ => trivial) (fun _ _ => trivial)
    intro answer files read
    dsimp only at read ⊢
    split
    case isFalse => trivial
    case isTrue whole =>
      simp only [BackingStore.fill, Action.ends_modify]
      refine ⟨nonempty, fun index inside => ?_⟩
      have inAnswer : index.val < answer.1.size := by omega
      rw [← agrees _ ⟨index, inside, rfl⟩, ← read index.val inAnswer, Fin.getElem_fin,
        Block.getElem_ofBytes, Array.getD_eq_getD_getElem?, Array.getElem?_eq_getElem inAnswer,
        Option.getD_some]
  rw [brought] at ends
  exact ends

/-- What a page matches is at least as long as the part of the file behind the page. -/
theorem Matches.le_size (agrees : region.Matches contents intended) :
    region.offset + min region.readBytes pageSize ≤ intended.size := by
  have positive := agrees.nonempty
  have inPage : min region.readBytes pageSize - 1 < pageSize := by
    simp only [pageSize]
    omega
  have last := agrees.bytes ⟨_, inPage⟩ (by dsimp only; omega)
  have known := (Array.getElem?_eq_some_iff.1 last).1
  dsimp only at known
  omega

/-- A page that is written back replaces the bytes that it spans, wherever the run of bytes ends. -/
theorem getElem?_writtenBack (bytes : Array UInt8) (contents : PageData) :
    let result := overlayBytes bytes region.offset (contents.slice 0 region.readBytes)
    (∀ index : Fin pageSize, index.val < region.readBytes →
        result[region.offset + index.val]? = some contents[index]) ∧
      ∀ position < bytes.size, ¬region.Spans position → result[position]? = bytes[position]? := by
  intro result
  have sliceSize : (contents.slice 0 region.readBytes).size = min region.readBytes pageSize := by
    rw [Block.size_slice]
    omega
  refine ⟨fun index inside => ?_, fun position inBytes outside => ?_⟩
  · have inPage := index.isLt
    rw [getElem?_overlayBytes _ _ _ (by omega), if_pos (by omega), Nat.add_sub_cancel_left,
      Block.getElem?_slice contents inside, Nat.zero_add]
    simp
  · rw [getElem?_overlayBytes _ _ _ (by omega), if_neg]
    rintro ⟨lower, upper⟩
    exact outside ⟨⟨position - region.offset, by omega⟩, by dsimp only; omega, by dsimp only; omega⟩

/-- A page that is written back within a run of bytes keeps its length. -/
theorem writtenBack (contents : PageData)
    (fits : region.offset + min region.readBytes pageSize ≤ bytes.size) :
    let result := overlayBytes bytes region.offset (contents.slice 0 region.readBytes)
    result.size = bytes.size ∧
      (∀ index : Fin pageSize, index.val < region.readBytes →
        result[region.offset + index.val]? = some contents[index]) ∧
      ∀ position, ¬region.Spans position → result[position]? = bytes[position]? := by
  intro result
  have sameSize : result.size = bytes.size := by
    rw [size_overlayBytes, Block.size_slice]
    omega
  obtain ⟨spanned, others⟩ := region.getElem?_writtenBack bytes contents
  refine ⟨sameSize, spanned, fun position outside => ?_⟩
  by_cases inBytes : position < bytes.size
  · exact others position inBytes outside
  · rw [Array.getElem?_eq_none (by omega), Array.getElem?_eq_none (by omega)]

/-- Writing a page back makes the file agree with the page where the page spans it, and changes no
other byte of the file. -/
theorem Matches.writtenBack (agrees : region.Matches contents intended)
    (size : bytes.size = intended.size) :
    let result := overlayBytes bytes region.offset (contents.slice 0 region.readBytes)
    result.size = intended.size ∧
      (∀ position, region.Spans position → result[position]? = intended[position]?) ∧
      ∀ position, ¬region.Spans position → result[position]? = bytes[position]? := by
  obtain ⟨sameSize, spanned, others⟩ :=
    region.writtenBack contents (size ▸ agrees.le_size : _ ≤ bytes.size)
  refine ⟨sameSize.trans size, ?_, others⟩
  rintro position ⟨index, inside, rfl⟩
  exact (spanned index inside).trans (agrees.bytes index inside).symm

end FileRegion

/-- A page of a file comes in as the file has it, touched or not. -/
theorem Backing.bringIn_of_region {backing answer : Backing} {region : FileRegion} {page : VirtAddr}
    {transfer after : Transfer BackingStore} (ofFile : backing.region? = some region)
    (brought : backing.bringIn page transfer = .done answer after) :
    region.bringIn page transfer = .done () after := by
  match backing with
  | untouched (.anonymous _) | anonymous _ => cases ofFile
  | untouched (.file _) | file _ =>
      cases ofFile
      obtain ⟨_, _, brings, rest⟩ := Action.bind_eq_done brought
      cases rest
      exact brings

end DemandPaging
