import DemandPaging.Proofs.FileBytes

/-!
Files in memory and the cursors of the handles on them.

Owns:
- laying bytes over others piece by piece, and cutting them out again;
- `FileStore.InMemory`, a file stores bytes and moves all that it is asked for, and what reading and
  writing it at any position does;
- what becomes of the cursor of a handle, and transfers that are split in two.

Does not own: the pages of a file (`FileBytes`), and what a file that moves less than it is asked
for holds.

Main statement: `FileStore.InMemory.servesBytes`.
-/

namespace DemandPaging

/-! ## Runs of bytes -/

/-- Where bytes are laid beyond the end of others, zero bytes fill the gap. -/
theorem getElem?_overlayBytes_gap (bytes : Array UInt8) (position : Nat) (data : Array UInt8)
    {index : Nat} (past : bytes.size ≤ index) (before : index < position) :
    (overlayBytes bytes position data)[index]? = some 0 := by
  have inside : index < (overlayBytes bytes position data).size := by
    rw [size_overlayBytes]
    omega
  rw [Array.getElem?_eq_getElem inside, Array.getElem_eq_getD 0, getD_overlayBytes,
    if_neg (by omega)]
  simp [Array.getD, show ¬index < bytes.size by omega]

/-- Bytes that are laid one after the other are laid as one run. -/
theorem overlayBytes_append (bytes : Array UInt8) (position : Nat) (front back : Array UInt8) :
    overlayBytes (overlayBytes bytes position front) (position + front.size) back =
      overlayBytes bytes position (front ++ back) := by
  refine Array.ext ?_ fun index inLeft inRight => ?_
  · simp only [size_overlayBytes, Array.size_append]
    omega
  · rw [Array.getElem_eq_getD 0, Array.getElem_eq_getD 0, getD_overlayBytes, getD_overlayBytes,
      getD_overlayBytes, Array.size_append]
    by_cases inBack : position + front.size ≤ index ∧ index < position + front.size + back.size
    · rw [if_pos inBack, if_pos (by omega), Array.getD_eq_getD_getElem?,
        Array.getD_eq_getD_getElem?, Array.getElem?_append_right (by omega), Nat.sub_sub]
    · rw [if_neg inBack]
      by_cases inFront : position ≤ index ∧ index < position + front.size
      · rw [if_pos inFront, if_pos (by omega), Array.getD_eq_getD_getElem?,
          Array.getD_eq_getD_getElem?, Array.getElem?_append_left (by omega)]
      · rw [if_neg inFront, if_neg (by omega)]

/-- Bytes that were laid over others are found there again, any part of them. -/
theorem extract_overlayBytes (bytes : Array UInt8) (position : Nat) (data : Array UInt8)
    {start count : Nat} (inside : start + count ≤ data.size) :
    (overlayBytes bytes position data).extract (position + start) (position + start + count) =
      data.extract start (start + count) := by
  refine Array.ext_getElem? fun index => ?_
  rw [Array.getElem?_extract, Array.getElem?_extract, size_overlayBytes]
  by_cases inPart : index < count
  · rw [if_pos (by omega), if_pos (by omega), getElem?_overlayBytes _ _ _ (by omega),
      if_pos (by omega), show position + start + index - position = start + index by omega]
  · rw [if_neg (by omega), if_neg (by omega)]

/-- What is found from a position on is found in two parts, the second from where the first ends. -/
theorem extract_add (bytes : Array UInt8) (position first second : Nat) :
    let front := bytes.extract position (position + first)
    front ++ bytes.extract (position + front.size) (position + front.size + second) =
      bytes.extract position (position + (first + second)) := by
  intro front
  have frontSize : front.size = min (position + first) bytes.size - position := Array.size_extract
  refine Array.ext_getElem? fun index => ?_
  rw [Array.getElem?_append, Array.getElem?_extract, Array.getElem?_extract,
    Array.getElem?_extract]
  by_cases inFront : index < front.size
  · rw [if_pos inFront, if_pos (by omega), if_pos (by omega)]
  · rw [if_neg inFront]
    by_cases inBoth : index < min (position + (first + second)) bytes.size - position
    · rw [if_pos (by omega), if_pos inBoth,
        show position + front.size + (index - front.size) = position + index by omega]
    · rw [if_neg (by omega), if_neg inBoth]

/-- Nothing is found beyond the end. -/
theorem extract_min (bytes : Array UInt8) (position stop : Nat) :
    bytes.extract position stop = bytes.extract position (min bytes.size stop) := by
  refine Array.ext_getElem? fun index => ?_
  rw [Array.getElem?_extract, Array.getElem?_extract, Nat.min_comm bytes.size, Nat.min_assoc,
    Nat.min_self]

/-! ## Files in memory -/

theorem FileStore.inode_of_found {store : FileStore} {file : FileId} {inode : Inode}
    (found : store.inodes[file]? = some inode) :
    FileStore.inode file store = .done inode store := by
  unfold FileStore.inode
  rw [found]
  rfl

/-- A file stores bytes in memory and moves all that it is asked for. -/
structure FileStore.InMemory (store : FileStore) (file : FileId) (bytes : Array UInt8) : Prop where
  stored : ∃ inode, store.inodes[file]? = some inode ∧ inode.storage = .contents bytes ∧
    inode.readMode = .always .whole ∧ inode.writeMode = .always .whole
  fits : bytes.size ≤ Capacity.most

namespace FileStore.InMemory

variable {store : FileStore} {file : FileId} {bytes : Array UInt8} {position length : Nat}
  {data : Array UInt8}

theorem bytes? (inMemory : store.InMemory file bytes) : store.bytes? file = some bytes := by
  obtain ⟨inode, found, holds, -⟩ := inMemory.stored
  rw [FileStore.bytes?, found, Option.bind_some, holds]

theorem read (inMemory : store.InMemory file bytes) (position length : Nat) :
    FileStore.read file position length store =
      .done (bytes.extract position (position + length)) store := by
  obtain ⟨inode, found, holds, reads, -⟩ := inMemory.stored
  have answered : inode.read position length =
      .ok (bytes.extract position (position + length)) := by
    unfold Inode.read
    rw [reads, holds]
    rfl
  unfold FileStore.read
  rw [Action.bind_of_done (inode_of_found found), answered]
  rfl

/-- The bytes that are found end within the range of machine words. -/
theorem cursor_lt (inMemory : store.InMemory file bytes) (word : position < Word.limit) :
    position + (bytes.extract position (position + length)).size < Word.limit := by
  have fits := inMemory.fits
  rw [Array.size_extract]
  simp only [Capacity.most, Word.limit] at *
  omega

theorem write (inMemory : store.InMemory file bytes) (position : Nat) (data : Array UInt8) :
    FileStore.write file position data store =
      if position + data.size < Word.limit then
        if position + data.size ≤ Capacity.most then
          .done data.size (store.laid file position data)
        else
          .halted .capacityExceeded
      else
        .failed .invalidArgument store := by
  obtain ⟨inode, found, holds, -, writes⟩ := inMemory.stored
  have outgrows : inode.outgrowsMemory position data.size =
      decide (Capacity.most < position + data.size ∧ position + data.size < Word.limit) := by
    unfold Inode.outgrowsMemory
    rw [holds, writes]
    rfl
  have answered : inode.write position data =
      if position + data.size < Word.limit then
        .ok (data.size, inode.laid position data)
      else
        .error .invalidArgument := by
    unfold Inode.write Inode.laid
    rw [holds, writes]
    show (if position + data.size < Word.limit then _ else _) = _
    rw [Array.extract_size]
  unfold FileStore.write
  rw [Action.bind_of_done (inode_of_found found), outgrows, answered]
  by_cases inWords : position + data.size < Word.limit
  · rw [if_pos inWords, if_pos inWords]
    by_cases allocated : position + data.size ≤ Capacity.most
    · rw [if_pos allocated, decide_eq_false (by omega), ← setIfInBounds_eq_laid found]
      rfl
    · rw [if_neg allocated, decide_eq_true (by omega)]
      rfl
  · rw [if_neg inWords, if_neg inWords, decide_eq_false (by omega)]
    rfl

/-- What is written to a file in memory is in memory too. -/
theorem laid (inMemory : store.InMemory file bytes)
    (allocated : position + data.size ≤ Capacity.most) :
    (store.laid file position data).InMemory file (overlayBytes bytes position data) := by
  obtain ⟨inode, found, holds, reads, writes⟩ := inMemory.stored
  have fits := inMemory.fits
  have replaced : inode.laid position data = { inode with
      storage := .contents (overlayBytes bytes position data)
      writes := inode.writes + 1 } := by
    rw [Inode.laid, holds]
  refine ⟨⟨inode.laid position data, ?_, ?_, ?_, ?_⟩, ?_⟩
  · rw [getElem?_laid, if_pos rfl, found, Option.map_some]
  · rw [replaced]
  · rw [replaced, ← reads]
  · rw [replaced, ← writes]
  · rw [size_overlayBytes]
    omega

end FileStore.InMemory

/-! ## Handles -/

/-- A write stops the machine only if the file would outgrow memory. -/
theorem FileStore.halts_write {file : FileId} {position : Nat} {data : Array UInt8}
    {store : FileStore} :
    (FileStore.write file position data store).Ends (fun _ _ => True) (fun _ _ => True)
      (fun fault => fault = .capacityExceeded) := by
  simp only [write, inode, setInode, Action.ends_bind, Action.ends_require]
  refine ⟨fun inode _ => ?_, fun _ => trivial⟩
  split
  · rfl
  · simp only [Action.ends_bind, Action.ends_orFail, Action.ends_modify, Action.ends_pure]
    exact ⟨fun _ _ => trivial, fun _ _ => trivial⟩

namespace OpenFile

variable {handle : OpenFile} {store : FileStore} {bytes data : Array UInt8}

/-- A handle on any file that answers a read has moved past the bytes that it answers. -/
theorem ends_read_moved (handle : OpenFile) (length : Nat) (store : FileStore) :
    (handle.read length store).Ends
      (fun answer after =>
        answer.2 = { handle with position := handle.position + answer.1.size } ∧ after = store)
      (fun _ after => after = store) (fun fault => ∃ operation, fault = .overflow operation) := by
  simp only [read, Action.ends_bind, Action.ends_checked, Action.ends_pure]
  refine FileStore.ends_read.imp ?_ (fun _ _ same => same) (fun _ impossible => impossible.elim)
  rintro found after rfl
  refine ⟨fun position added => ⟨?_, rfl⟩, fun operation _ => ⟨operation, rfl⟩⟩
  rw [(Word.add_eq_ok_iff.1 added).2]

/-- A handle on any file that answers a write has moved past the bytes that were written, which are
the first ones. -/
theorem ends_write_moved (handle : OpenFile) (data : Array UInt8) (store : FileStore) :
    (handle.write data store).Ends
      (fun answer after =>
        answer.2 = { handle with position := handle.position + answer.1 } ∧
          answer.1 ≤ data.size ∧
          after = store.laid handle.file handle.position (data.extract 0 answer.1))
      (fun _ after => after = store)
      (fun fault => fault = .capacityExceeded ∨ ∃ operation, fault = .overflow operation) := by
  have moved : (handle.write data store).Ends
      (fun answer _ => answer.2 = { handle with position := handle.position + answer.1 })
      (fun _ _ => True)
      (fun fault => fault = .capacityExceeded ∨ ∃ operation, fault = .overflow operation) := by
    simp only [write, Action.ends_bind, Action.ends_checked, Action.ends_pure]
    refine FileStore.halts_write.imp (fun written _ _ => ?_) (fun _ _ _ => trivial)
      (fun _ exceeded => .inl exceeded)
    refine ⟨fun position added => ?_, fun operation _ => .inr ⟨operation, rfl⟩⟩
    rw [(Word.add_eq_ok_iff.1 added).2]
  refine (moved.and ends_write).imp ?_ (fun _ _ both => both.2) (fun _ both => both.1)
  rintro answer after ⟨cursor, written, laid⟩
  exact ⟨cursor, written, laid⟩

/-- A handle on a file in memory moves past what it reads. -/
theorem read_of_inMemory (inMemory : store.InMemory handle.file bytes)
    (word : handle.position < Word.limit) {length : Nat} {found : Array UInt8}
    (isFound : bytes.extract handle.position (handle.position + length) = found) :
    handle.read length store =
      .done (found, { handle with position := handle.position + found.size }) store := by
  subst isFound
  unfold OpenFile.read
  rw [Action.bind_of_done (inMemory.read _ _), Word.add, if_pos (inMemory.cursor_lt word)]
  rfl

/-- A handle on a file in memory moves past what it writes. -/
theorem write_of_inMemory (inMemory : store.InMemory handle.file bytes)
    (allocated : handle.position + data.size ≤ Capacity.most) :
    handle.write data store =
      .done (data.size, { handle with position := handle.position + data.size })
        (store.laid handle.file handle.position data) := by
  have inWords : handle.position + data.size < Word.limit := by
    simp only [Capacity.most, Word.limit] at *
    omega
  have written := inMemory.write handle.position data
  rw [if_pos inWords, if_pos allocated] at written
  unfold OpenFile.write
  rw [Action.bind_of_done written, Word.add, if_pos inWords]
  rfl

theorem write_eq_failed (inMemory : store.InMemory handle.file bytes)
    (beyond : Word.limit ≤ handle.position + data.size) :
    handle.write data store = .failed .invalidArgument store := by
  have refused := inMemory.write handle.position data
  rw [if_neg (Nat.not_lt.2 beyond)] at refused
  unfold OpenFile.write
  rw [Action.bind_apply, refused]

end OpenFile

/-! ## The laws of transfers -/

/-- What reading and writing does: at the positions of a file in memory, and through handles. An
operation that fails answers no handle, so the one that it was asked of stays as it was. -/
structure FileStore.ServesBytes (store : FileStore) (file : FileId) (bytes : Array UInt8) :
    Prop where
  /-- A write is refused, and changes nothing, exactly if it would end beyond the range of machine
  words. If memory can hold the file up to there, all bytes are written. -/
  write : ∀ position data, FileStore.write file position data store =
    if position + data.size < Word.limit then
      if position + data.size ≤ Capacity.most then
        .done data.size (store.laid file position data)
      else
        .halted .capacityExceeded
    else
      .failed .invalidArgument store
  /-- What is written is found at its position, the other bytes stay, a gap before it is filled with
  zero bytes, one more write is counted, and no other file changes. -/
  written : ∀ position data,
    let after := store.laid file position data
    ∃ result, after.bytes? file = some result ∧
      result.size = max bytes.size (position + data.size) ∧
      (∀ index < data.size, result[position + index]? = data[index]?) ∧
      (∀ index < bytes.size, ¬(position ≤ index ∧ index < position + data.size) →
        result[index]? = bytes[index]?) ∧
      (∀ index, bytes.size ≤ index → index < position → result[index]? = some 0) ∧
      after.writes file = store.writes file + 1 ∧
      ∀ other ≠ file, after.inodes[other]? = store.inodes[other]?
  /-- A read finds the bytes from the position up to the end of the file or of the buffer, even if
  the end of the buffer is cut at the last word. They go to the front of the buffer, and the rest of
  it stays. -/
  read : ∀ position (buffer : Array UInt8), ∃ found,
    FileStore.read file position buffer.size store = .done found store ∧
      found = bytes.extract position
        (min bytes.size (min (position + buffer.size) (Word.limit - 1))) ∧
      found.size = min bytes.size (position + buffer.size) - position ∧
      (∀ index < found.size, found[index]? = bytes[position + index]?) ∧
      (overlayBytes buffer 0 found).size = buffer.size ∧
      ∀ index, (overlayBytes buffer 0 found)[index]? =
        if index < found.size then found[index]? else buffer[index]?
  /-- A handle on any file moves past the bytes that it answers, and a read that fails changes
  nothing. -/
  cursor_read : ∀ (handle : OpenFile) length, (handle.read length store).Ends
    (fun answer after =>
      answer.2 = { handle with position := handle.position + answer.1.size } ∧ after = store)
    (fun _ after => after = store) (fun fault => ∃ operation, fault = .overflow operation)
  /-- A handle on any file moves past the bytes that were written, which are the first ones, and a
  write that fails changes nothing. -/
  cursor_write : ∀ (handle : OpenFile) data, (handle.write data store).Ends
    (fun answer after =>
      answer.2 = { handle with position := handle.position + answer.1 } ∧
        answer.1 ≤ data.size ∧
        after = store.laid handle.file handle.position (data.extract 0 answer.1))
    (fun _ after => after = store)
    (fun fault => fault = .capacityExceeded ∨ ∃ operation, fault = .overflow operation)
  /-- A handle on the file reads what is found at its cursor, wherever that is. -/
  handle_read : ∀ handle : OpenFile, handle.file = file → handle.position < Word.limit →
    ∀ length, ∃ found, FileStore.read file handle.position length store = .done found store ∧
      handle.read length store =
        .done (found, { handle with position := handle.position + found.size }) store
  /-- A handle on the file writes at its cursor, unless that would end beyond the range of machine
  words. -/
  handle_write : ∀ handle : OpenFile, handle.file = file → ∀ data : Array UInt8,
    (handle.position + data.size ≤ Capacity.most → handle.write data store =
      .done (data.size, { handle with position := handle.position + data.size })
        (store.laid file handle.position data)) ∧
    (Word.limit ≤ handle.position + data.size →
      handle.write data store = .failed .invalidArgument store)
  /-- Reading in two parts is reading at once. -/
  read_split : ∀ handle : OpenFile, handle.file = file → handle.position < Word.limit →
    ∀ first second, ∃ front middle back last,
      handle.read first store = .done (front, middle) store ∧
        middle.read second store = .done (back, last) store ∧
        handle.read (first + second) store = .done (front ++ back, last) store
  /-- Writing in two parts leaves the bytes and the cursor that writing at once leaves. -/
  write_split : ∀ handle : OpenFile, handle.file = file → ∀ front back : Array UInt8,
    handle.position + (front.size + back.size) ≤ Capacity.most →
    ∃ middle between last twice once result,
      handle.write front store = .done (front.size, middle) between ∧
        middle.write back between = .done (back.size, last) twice ∧
        handle.write (front ++ back) store = .done (front.size + back.size, last) once ∧
        twice.bytes? file = some result ∧ once.bytes? file = some result
  /-- What is written is read again through any handle on the file, any part of it. -/
  read_back : ∀ writer : OpenFile, writer.file = file → ∀ data : Array UInt8,
    writer.position + data.size ≤ Capacity.most →
    ∃ next after, writer.write data store = .done (data.size, next) after ∧
      ∀ reader : OpenFile, reader.file = file → ∀ start count,
        reader.position = writer.position + start → start + count ≤ data.size →
          reader.read count after =
            .done (data.extract start (start + count),
              { reader with position := reader.position + count }) after

namespace FileStore.InMemory

variable {store : FileStore} {file : FileId} {bytes : Array UInt8} {position : Nat}
  {handle : OpenFile}

/-- The bytes of a file in memory after a write. -/
theorem of_laid (inMemory : store.InMemory file bytes) (position : Nat) (data : Array UInt8) :
    let after := store.laid file position data
    ∃ result, after.bytes? file = some result ∧
      result.size = max bytes.size (position + data.size) ∧
      (∀ index < data.size, result[position + index]? = data[index]?) ∧
      (∀ index < bytes.size, ¬(position ≤ index ∧ index < position + data.size) →
        result[index]? = bytes[index]?) ∧
      (∀ index, bytes.size ≤ index → index < position → result[index]? = some 0) ∧
      after.writes file = store.writes file + 1 ∧
      ∀ other ≠ file, after.inodes[other]? = store.inodes[other]? := by
  intro after
  obtain ⟨stored, counted⟩ := FileStore.of_laid inMemory.bytes? position data
  refine ⟨_, stored, size_overlayBytes .., fun index inside => ?_,
    fun index inside outside => ?_,
    fun index past before => getElem?_overlayBytes_gap bytes position data past before, counted,
    fun other different => ?_⟩
  · rw [getElem?_overlayBytes _ _ _ (by omega), if_pos (by omega), Nat.add_sub_cancel_left]
  · rw [getElem?_overlayBytes _ _ _ (.inr inside), if_neg outside]
  · rw [getElem?_laid, if_neg (Ne.symm different)]

/-- What a read of a file in memory finds, and what it leaves of the buffer. -/
theorem exists_read_eq_done (inMemory : store.InMemory file bytes) (position : Nat)
    (buffer : Array UInt8) :
    ∃ found, FileStore.read file position buffer.size store = .done found store ∧
      found = bytes.extract position
        (min bytes.size (min (position + buffer.size) (Word.limit - 1))) ∧
      found.size = min bytes.size (position + buffer.size) - position ∧
      (∀ index < found.size, found[index]? = bytes[position + index]?) ∧
      (overlayBytes buffer 0 found).size = buffer.size ∧
      ∀ index, (overlayBytes buffer 0 found)[index]? =
        if index < found.size then found[index]? else buffer[index]? := by
  have fits := inMemory.fits
  have cut : min bytes.size (min (position + buffer.size) (Word.limit - 1)) =
      min bytes.size (position + buffer.size) := by
    simp only [Capacity.most, Word.limit] at *
    omega
  have foundSize : (bytes.extract position (position + buffer.size)).size =
      min bytes.size (position + buffer.size) - position := by
    rw [Array.size_extract, Nat.min_comm]
  have inBuffer : (bytes.extract position (position + buffer.size)).size ≤ buffer.size := by
    omega
  refine ⟨_, inMemory.read position buffer.size, ?_, foundSize, fun index inside => ?_, ?_,
    fun index => ?_⟩
  · rw [cut]
    exact extract_min ..
  · rw [Array.getElem?_extract, if_pos (by omega)]
  · rw [size_overlayBytes, Nat.zero_add, Nat.max_eq_left inBuffer]
  · rw [getElem?_overlayBytes _ _ _ (.inl (Nat.zero_le _)), Nat.zero_add, Nat.sub_zero]
    simp only [Nat.zero_le, true_and]

theorem exists_read_split (inMemory : store.InMemory handle.file bytes)
    (word : handle.position < Word.limit) (first second : Nat) :
    ∃ front middle back last,
      handle.read first store = .done (front, middle) store ∧
        middle.read second store = .done (back, last) store ∧
        handle.read (first + second) store = .done (front ++ back, last) store := by
  let front := bytes.extract handle.position (handle.position + first)
  let middle : OpenFile := { handle with position := handle.position + front.size }
  let back := bytes.extract middle.position (middle.position + second)
  have whole : bytes.extract handle.position (handle.position + (first + second)) =
      front ++ back := (extract_add ..).symm
  have alsoInMemory : store.InMemory middle.file bytes := inMemory
  have backRead : middle.read second store =
      .done (back, { middle with position := middle.position + back.size }) store :=
    OpenFile.read_of_inMemory alsoInMemory (inMemory.cursor_lt word) rfl
  have wholeRead := OpenFile.read_of_inMemory inMemory word whole
  rw [Array.size_append, ← Nat.add_assoc] at wholeRead
  exact ⟨front, middle, back, _, OpenFile.read_of_inMemory inMemory word rfl, backRead,
    wholeRead⟩

theorem exists_write_split (inMemory : store.InMemory handle.file bytes)
    {front back : Array UInt8}
    (allocated : handle.position + (front.size + back.size) ≤ Capacity.most) :
    ∃ middle between last twice once result,
      handle.write front store = .done (front.size, middle) between ∧
        middle.write back between = .done (back.size, last) twice ∧
        handle.write (front ++ back) store = .done (front.size + back.size, last) once ∧
        twice.bytes? handle.file = some result ∧ once.bytes? handle.file = some result := by
  let middle : OpenFile := { handle with position := handle.position + front.size }
  have frontAllocated : handle.position + front.size ≤ Capacity.most := by omega
  have backAllocated : middle.position + back.size ≤ Capacity.most := by
    show handle.position + front.size + back.size ≤ _
    omega
  have wholeAllocated : handle.position + (front ++ back).size ≤ Capacity.most := by
    rwa [Array.size_append]
  have frontWritten : (store.laid handle.file handle.position front).InMemory middle.file
      (overlayBytes bytes handle.position front) := inMemory.laid frontAllocated
  have frontWrite := OpenFile.write_of_inMemory inMemory frontAllocated
  have backWrite := OpenFile.write_of_inMemory frontWritten backAllocated
  have wholeWrite := OpenFile.write_of_inMemory inMemory wholeAllocated
  rw [Array.size_append, ← Nat.add_assoc] at wholeWrite
  refine ⟨middle, _, _, _, _, _, frontWrite, backWrite, wholeWrite,
    (frontWritten.laid backAllocated).bytes?, ?_⟩
  rw [overlayBytes_append]
  exact (inMemory.laid wholeAllocated).bytes?

theorem exists_read_back {writer : OpenFile} {data : Array UInt8}
    (inMemory : store.InMemory writer.file bytes)
    (allocated : writer.position + data.size ≤ Capacity.most) :
    ∃ next after, writer.write data store = .done (data.size, next) after ∧
      ∀ reader : OpenFile, reader.file = writer.file → ∀ start count,
        reader.position = writer.position + start → start + count ≤ data.size →
          reader.read count after =
            .done (data.extract start (start + count),
              { reader with position := reader.position + count }) after := by
  refine ⟨_, _, OpenFile.write_of_inMemory inMemory allocated, ?_⟩
  intro reader sameFile start count atStart inside
  have written := inMemory.laid allocated
  rw [← sameFile] at written ⊢
  have word : reader.position < Word.limit := by
    simp only [Capacity.most, Word.limit] at *
    omega
  have size : (data.extract start (start + count)).size = count := by
    rw [Array.size_extract]
    omega
  have found : (overlayBytes bytes writer.position data).extract reader.position
      (reader.position + count) = data.extract start (start + count) := by
    rw [atStart]
    exact extract_overlayBytes _ _ _ inside
  have read := OpenFile.read_of_inMemory written word found
  rwa [size] at read

/-- A file in memory is read and written byte by byte at any position, and through handles with
cursors of their own, in one part or in two. -/
theorem servesBytes (inMemory : store.InMemory file bytes) : store.ServesBytes file bytes where
  write := inMemory.write
  written := inMemory.of_laid
  read := inMemory.exists_read_eq_done
  cursor_read handle length := handle.ends_read_moved length store
  cursor_write handle data := handle.ends_write_moved data store
  handle_read handle same word length := by
    subst same
    exact ⟨_, inMemory.read _ _, OpenFile.read_of_inMemory inMemory word rfl⟩
  handle_write handle same data := by
    subst same
    exact ⟨OpenFile.write_of_inMemory inMemory, OpenFile.write_eq_failed inMemory⟩
  read_split handle same word first second := by
    subst same
    exact inMemory.exists_read_split word first second
  write_split handle same front back allocated := by
    subst same
    exact inMemory.exists_write_split allocated
  read_back writer same data allocated := by
    subst same
    exact inMemory.exists_read_back allocated

/-- Ten digits are served, and a byte that is written beyond them leaves a gap of zero bytes. -/
theorem servesBytes_digits :
    let digits : Array UInt8 := #[48, 49, 50, 51, 52, 53, 54, 55, 56, 57]
    let store : FileStore := ⟨#[{ storage := .contents digits }]⟩
    store.InMemory 0 digits ∧ store.ServesBytes 0 digits ∧
      OpenFile.write { file := 0, position := 12 } #[33] store =
        .done (1, { file := 0, position := 13 })
          ⟨#[{ storage := .contents (digits ++ #[0, 0, 33]), writes := 1 }]⟩ := by
  intro digits store
  have inMemory : store.InMemory 0 digits := ⟨⟨_, rfl, rfl, rfl, rfl⟩, by decide⟩
  exact ⟨inMemory, inMemory.servesBytes, rfl⟩

end FileStore.InMemory

end DemandPaging
