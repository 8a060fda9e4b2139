import DemandPaging.Proofs.Access
import DemandPaging.Proofs.Contents

/-!
The bytes that are copied out of and into the memory of a process.

Owns:
- `Chunk.Tile`, the chunks of a run of bytes follow one another and stay within pages;
- `Machine.HoldsRun`, the anonymous pages of a process hold a run of bytes;
- what reading answers and what writing leaves behind, byte by byte.

Does not own: the steps that bring pages in for it (`ends_fetchChunk`, `ends_writeChunk`).

Main statements: `ends_readUser_bytes` and `ends_writeUser_bytes`.
-/

namespace DemandPaging

/-! ## Chunks -/

/-- From a position of a run of bytes on, chunks follow one another up to its end, and each of them
lies within one page. The run begins at a position within its first page. -/
def Chunk.Tile (offset length : Nat) : Nat → List Chunk → Prop
  | done, [] => done = length
  | done, chunk :: rest =>
    chunk.done = done ∧ (offset + done) % pageSize + chunk.size ≤ pageSize ∧
      Tile offset length (done + chunk.size) rest

theorem Chunk.Tile.le_length {offset length done : Nat} {chunks : List Chunk}
    (tile : Tile offset length done chunks) : done ≤ length := by
  induction chunks generalizing done with
  | nil => exact Nat.le_of_eq tile
  | cons chunk rest inductionHypothesis =>
      have later := inductionHypothesis tile.2.2
      omega

/-- The chunks of the pages from one on tile what is left of the run. -/
theorem Chunk.tile_map_range' {offset length : Nat} (inPage : offset < pageSize)
    (count index : Nat) (start : index * pageSize < offset + length ∨ count = 0)
    (total : offset + length ≤ (index + count) * pageSize)
    (least : (index + count) * pageSize < offset + length + pageSize) :
    Tile offset length (min (index * pageSize - offset) length)
      ((List.range' index count).map (ofPage offset length)) := by
  induction count generalizing index with
  | zero =>
      show min (index * pageSize - offset) length = length
      simp only [pageSize] at *
      omega
  | succ count inductionHypothesis =>
      have here : index * pageSize < offset + length := by
        rcases start with here | none
        · exact here
        · cases none
      -- Every page but the last is covered up to its end.
      have more : (index + 1) * pageSize < offset + length ∨ count = 0 := by
        clear start total inductionHypothesis
        simp only [pageSize] at *
        omega
      have rest : index + (count + 1) = index + 1 + count := by omega
      rw [rest] at total least
      have next := inductionHypothesis (index + 1) more total least
      have position : min (index * pageSize - offset) length + (ofPage offset length index).size =
          min ((index + 1) * pageSize - offset) length := by
        simp only [ofPage, pageSize] at *
        omega
      rw [List.range'_succ, List.map_cons]
      refine ⟨?_, ?_, ?_⟩
      · simp only [ofPage, pageSize] at *
        omega
      · simp only [ofPage, pageSize] at *
        omega
      · rw [position]
        exact next

/-- A run of bytes is split into chunks that tile it. -/
theorem Chunk.tile_split {offset : Nat} (inPage : offset < pageSize) (length : Nat) :
    Tile offset length 0 (split offset length) := by
  unfold split
  split
  case isTrue empty => exact empty.symm
  case isFalse nonempty =>
    rw [List.range_eq_range']
    have first : min (0 * pageSize - offset) length = 0 := by simp
    have tile := @tile_map_range' offset length inPage
      ((offset + length + (pageSize - 1)) / pageSize) 0
      (by simp only [pageSize] at *; omega) (by simp only [pageSize] at *; omega)
      (by simp only [pageSize] at *; omega)
    rw [first] at tile
    exact tile

/-- From one address to a later one in the same page. -/
theorem Address.pageDown_of_offset {first place : VirtAddr} (lower : first.toNat ≤ place.toNat)
    (upper : first.offset + (place.toNat - first.toNat) < pageSize) :
    place.pageDown = first.pageDown ∧
      place.offset = first.offset + (place.toNat - first.toNat) := by
  simp only [offset, pageSize] at *
  constructor
  · apply ext_toNat
    rw [toNat_pageDown, toNat_pageDown]
    simp only [pageSize]
    omega
  · omega

theorem Block.getElem?_slice {size : Nat} (block : Block size) {start length index : Nat}
    (inside : index < length) : (block.slice start length)[index]? = block[start + index]? := by
  rw [slice, Array.getElem?_ofFn]
  by_cases inBlock : start + index < size
  · rw [dif_pos (by omega), Vector.getElem?_eq_getElem inBlock]
  · rw [dif_neg (by omega), Vector.getElem?_eq_none (by omega)]

namespace Machine

variable {machine before middle after : Machine} {pid : Pid} {address place : VirtAddr}
  {write : Bool} {location : Location}

/-- Some first bytes of a run are those that a process holds from an address on, wherever its pages
are anonymous. All of these pages are registered. -/
def HoldsRun (machine : Machine) (pid : Pid) (address : VirtAddr) (bytes : Array UInt8)
    (count : Nat) : Prop :=
  ∀ (place : VirtAddr) (byte : UInt8), address.toNat ≤ place.toNat →
    place.toNat < address.toNat + count → bytes[place.toNat - address.toNat]? = some byte →
    ∃ page, machine.page? pid place.pageDown = some page ∧
      (page.kind = .anonymous → machine.byte? pid place = some byte)

theorem HoldsRun.of_path {allowed : Move → Prop} {bytes : Array UInt8} {count : Nat}
    (holds : before.HoldsRun pid address bytes count) (path : Path allowed before after)
    (sound : before.Sound) (kept : ∀ place, ¬allowed (.overwrite pid place .anonymous))
    (stays : ∀ place kind, ¬allowed (.remove pid place kind)) :
    after.HoldsRun pid address bytes count := by
  intro place byte lower upper listed
  obtain ⟨page, registered, holdsByte⟩ := holds place byte lower upper listed
  obtain ⟨changed, found, continues⟩ := path.exists_page? sound registered (stays place.pageDown)
  refine ⟨changed, found, fun kind => ?_⟩
  exact path.byte? sound (holdsByte (continues.kind.symm.trans kind)) (kept place.pageDown)
    (stays place.pageDown .anonymous)

/-- An access leads to the frame of a page. If the page is anonymous, its contents are there. -/
theorem Reaches.exists_page (reaches : machine.Reaches pid place write location)
    (sound : machine.Sound) :
    ∃ page, machine.page? pid place.pageDown = some page ∧ page.frame = some location.frame ∧
      (page.kind = .anonymous →
        machine.contents? pid place.pageDown = machine.resident.contents? location.frame) := by
  have held := (sound.frames.owner_iff _ _ _).1 reaches.owner
  obtain ⟨page, registered, atFrame⟩ := Option.bind_eq_some_iff.1 held
  refine ⟨page, registered, atFrame, fun kind => ?_⟩
  rw [contents?_of_page registered]
  exact contentsOf?_of_held kind (sound.slots.placed _ _ _ registered) atFrame

/-! ## Reading -/

/-- What is fetched from a page continues a run of bytes. -/
theorem HoldsRun.append {bytes : Array UInt8} {contents : PageData} {first : VirtAddr} {size : Nat}
    (holds : machine.HoldsRun pid address bytes bytes.size) (sound : machine.Sound)
    (reaches : machine.Reaches pid first write location)
    (follows : first.toNat = address.toNat + bytes.size)
    (atFrame : machine.resident.contents? location.frame = some contents)
    (inPage : location.offset + size ≤ pageSize) :
    machine.HoldsRun pid address (bytes ++ contents.slice location.offset size)
      (bytes.size + size) := by
  intro place byte lower upper listed
  rw [Array.getElem?_append] at listed
  by_cases earlier : place.toNat - address.toNat < bytes.size
  · rw [if_pos earlier] at listed
    exact holds place byte lower (by omega) listed
  · rw [if_neg earlier] at listed
    have distance : place.toNat - address.toNat - bytes.size = place.toNat - first.toNat := by omega
    rw [distance, Block.getElem?_slice _ (by omega), reaches.offset] at listed
    have inPage' : first.offset + (place.toNat - first.toNat) < pageSize := by
      rw [reaches.offset] at inPage
      omega
    obtain ⟨samePage, position⟩ := Address.pageDown_of_offset (by omega) inPage'
    obtain ⟨page, registered, -, leads⟩ := reaches.exists_page sound
    rw [← samePage] at registered leads
    refine ⟨page, registered, fun kind => ?_⟩
    rw [← position, Vector.getElem?_eq_getElem place.offset_lt_pageSize] at listed
    rw [byte?, leads kind, atFrame]
    exact listed

/-- A run has been read up to some chunks that are left. -/
private structure ReadUpTo (before : Machine) (pid : Pid) (address : VirtAddr) (length : Nat)
    (rest : List Chunk) (state : UserRead) : Prop where
  path : Path (Move.Accesses pid false) before state.machine
  tile : Chunk.Tile address.offset length state.bytes.size rest
  holds : state.machine.HoldsRun pid address state.bytes state.bytes.size

private theorem ReadUpTo.ends_readChunk {length : Nat} {chunk : Chunk} {rest : List Chunk}
    {state : UserRead} (sound : before.Sound)
    (reached : ReadUpTo before pid address length (chunk :: rest) state) :
    (readChunk pid address chunk state).Ends
      (fun _ state => ReadUpTo before pid address length rest state)
      (fun _ _ => True) (fun _ => True) := by
  obtain ⟨follows, inPage, tileRest⟩ := reached.tile
  have soundState := reached.path.sound sound
  simp only [readChunk, Action.ends_bind, Action.ends_onPart, Action.ends_modify]
  refine (ends_fetchChunk soundState pid address chunk).imp ?_ (fun _ _ _ => trivial)
    (fun _ _ => trivial)
  intro piece after fetched
  obtain ⟨toAfter, first, location, contents, advanced, reaches, atFrame, rfl⟩ := fetched
  have start := (VirtAddr.ofNat?_eq_some_iff.1 advanced).2
  rw [follows] at start
  have holdsAfter := reached.holds.of_path toAfter soundState
    (fun place => Move.not_accesses_overwrite place .anonymous) Move.not_accesses_remove
  have offset : location.offset = (address.offset + state.bytes.size) % pageSize := by
    rw [reaches.offset]
    simp only [Address.offset, start, pageSize]
    omega
  have fits : location.offset + chunk.size ≤ pageSize := by rw [offset]; exact inPage
  have size : (state.bytes ++ contents.slice location.offset chunk.size).size =
      state.bytes.size + chunk.size := by
    rw [Array.size_append, Block.size_slice]
    omega
  refine ⟨reached.path.trans toAfter, ?_, ?_⟩
  · rw [size]
    exact tileRest
  · rw [size]
    exact holdsAfter.append (toAfter.sound soundState) reaches start atFrame fits

/-- Reading answers as many bytes as were asked for: those that the process holds. -/
theorem ends_readUser_bytes (sound : before.Sound) (pid : Pid) (address : VirtAddr)
    (length : Nat) :
    (readUser pid address length ⟨before, #[]⟩).Ends
      (fun _ read => read.bytes.size = length ∧
        read.machine.HoldsRun pid address read.bytes length)
      (fun _ _ => True) (fun _ => True) := by
  have loop : ((Chunk.split address.offset length).forM (readChunk pid address)
      ⟨before, #[]⟩).Ends (fun _ => ReadUpTo before pid address length [])
      (fun _ _ => True) (fun _ => True) := by
    apply Action.ends_forM (ReadUpTo before pid address length)
    · intro chunk rest state reached
      exact reached.ends_readChunk sound
    · refine ⟨.refl before, Chunk.tile_split address.offset_lt_pageSize length, ?_⟩
      intro place byte lower upper listed
      simp at listed
  refine loop.imp ?_ (fun _ _ _ => trivial) (fun _ _ => trivial)
  intro _ read reached
  have size : read.bytes.size = length := reached.tile
  exact ⟨size, size ▸ reached.holds⟩

/-! ## Writing -/

/-- The number of bytes that are copied chunk by chunk until one of the chunks fails. -/
def copied (pid : Pid) (address : VirtAddr) (data : Array UInt8) : List Chunk → Machine → Nat
  | [], _ => 0
  | chunk :: rest, machine =>
    match writeChunk pid address data chunk machine with
    | .done () next => chunk.size + copied pid address data rest next
    | .failed _ _ | .halted _ => 0

theorem copied_le {data : Array UInt8} {chunks : List Chunk} {done : Nat}
    (tile : Chunk.Tile address.offset data.size done chunks) (pid : Pid) (machine : Machine) :
    done + copied pid address data chunks machine ≤ data.size := by
  induction chunks generalizing done machine with
  | nil => exact Nat.le_of_eq tile
  | cons chunk rest inductionHypothesis =>
      have inData := tile.le_length
      rw [copied]
      split
      case h_1 next _ =>
        have later := inductionHypothesis tile.2.2 next
        omega
      case h_2 | h_3 => exact inData

/-- All bytes are what they were, apart from a number of bytes of a process from an address on. -/
def KeepsOutside (before after : Machine) (pid : Pid) (address : VirtAddr) (count : Nat) : Prop :=
  ∀ (other : Pid) (place : VirtAddr) (byte : UInt8), before.byte? other place = some byte →
    ¬(other = pid ∧ address.toNat ≤ place.toNat ∧ place.toNat < address.toNat + count) →
    after.byte? other place = some byte

theorem KeepsOutside.of_path {allowed : Move → Prop} {count : Nat}
    (path : Path allowed before after) (sound : before.Sound)
    (kept : ∀ other place, ¬allowed (.overwrite other place .anonymous))
    (stays : ∀ other place, ¬allowed (.remove other place .anonymous)) :
    before.KeepsOutside after pid address count := by
  intro other place byte known _
  exact path.byte? sound known (kept other place.pageDown) (stays other place.pageDown)

theorem KeepsOutside.trans {fewer count : Nat}
    (first : before.KeepsOutside middle pid address fewer)
    (second : middle.KeepsOutside after pid address count) (less : fewer ≤ count) :
    before.KeepsOutside after pid address count := by
  intro other place byte known outside
  refine second other place byte (first other place byte known fun inside => outside ?_) outside
  exact ⟨inside.1, inside.2.1, by omega⟩

/-- What an anonymous page holds after part of it was replaced. -/
theorem Stored.contents? {data : Array UInt8} {chunk : Chunk} {contents : PageData}
    (stored : Stored pid address data chunk place location contents middle after)
    (sound : middle.Sound) :
    ∃ page, middle.page? pid place.pageDown = some page ∧
      Step (.overwrite pid place.pageDown page.kind) middle after ∧
      (page.kind = .anonymous → middle.contents? pid place.pageDown = some contents ∧
        after.contents? pid place.pageDown = some (contents.overlay place.offset
          (data.extract chunk.done (chunk.done + chunk.size)))) := by
  obtain ⟨page, registered, held, leads⟩ := stored.reaches.exists_page sound
  obtain ⟨other, registered', step⟩ := stored.step
  rw [registered, Option.some.injEq] at registered'
  subst registered'
  refine ⟨page, registered, step, fun kind => ⟨(leads kind).trans stored.contents, ?_⟩⟩
  obtain ⟨resident, written, rfl⟩ := stored.written
  rw [← stored.reaches.offset]
  exact contents?_of_written (sound.slots.placed _ _ _ registered) registered kind held written

/-- A chunk that is stored within a page replaces the bytes it covers, and no others. -/
theorem Stored.byte? {data : Array UInt8} {chunk : Chunk} {contents : PageData}
    (stored : Stored pid address data chunk place location contents middle after)
    (sound : middle.Sound) (inPage : place.offset + chunk.size ≤ pageSize)
    (inData : chunk.done + chunk.size ≤ data.size) :
    middle.KeepsOutside after pid place chunk.size ∧
      ∀ (target : VirtAddr) (byte : UInt8), place.toNat ≤ target.toNat →
        target.toNat < place.toNat + chunk.size →
        data[chunk.done + (target.toNat - place.toNat)]? = some byte →
        ∃ page, after.page? pid target.pageDown = some page ∧
          (page.kind = .anonymous → after.byte? pid target = some byte) := by
  obtain ⟨page, registered, step, changes⟩ := stored.contents? sound
  have size : (data.extract chunk.done (chunk.done + chunk.size)).size = chunk.size := by
    rw [Array.size_extract]
    omega
  constructor
  · intro other target byte known outside
    by_cases samePage : other = pid ∧ target.pageDown = place.pageDown
    · obtain ⟨rfl, sameDown⟩ := samePage
      obtain ⟨bytes, holds, sameByte⟩ := Option.map_eq_some_iff.1 known
      rw [sameDown, contents?_of_page registered] at holds
      obtain ⟨contentsBefore, contentsAfter⟩ := changes (kind_of_contentsOf? holds)
      rw [contents?_of_page registered, holds, Option.some.injEq] at contentsBefore
      subst contentsBefore
      rw [Machine.byte?, sameDown, contentsAfter, ← sameByte]
      have position := Address.pageDown_add_offset target
      have position' := Address.pageDown_add_offset place
      rw [sameDown] at position
      refine congrArg some ((Block.getElem_overlay target.offset_lt_pageSize).trans (if_neg ?_))
      rw [size]
      intro covered
      exact outside ⟨rfl, by omega, by omega⟩
    · have path : Path (fun move => move = .overwrite pid place.pageDown page.kind) middle after :=
        Path.single step rfl
      refine path.byte? sound known ?_ (fun same => by cases same)
      intro same
      injection same with samePid sameDown
      exact samePage ⟨samePid, sameDown⟩
  · intro target byte lower inside listed
    obtain ⟨sameDown, position⟩ := Address.pageDown_of_offset lower (by omega)
    rw [sameDown]
    refine ⟨page, (stored.page? ..).trans registered, fun kind => ?_⟩
    rw [Machine.byte?, sameDown, (changes kind).2]
    refine congrArg some ((Block.getElem_overlay target.offset_lt_pageSize).trans ?_)
    rw [if_pos ⟨by omega, by rw [size]; omega⟩, position, Nat.add_sub_cancel_left,
      Array.getD_eq_getD_getElem?, Array.getElem?_extract, if_pos (by omega), listed]
    rfl

/-- A chunk that is written continues the bytes that are held. A chunk that fails changes no
byte. -/
theorem ends_writeChunk_bytes {data : Array UInt8} {chunk : Chunk} {done : Nat}
    (sound : before.Sound) (follows : chunk.done = done)
    (inPage : (address.offset + done) % pageSize + chunk.size ≤ pageSize)
    (inData : done + chunk.size ≤ data.size) (holds : before.HoldsRun pid address data done) :
    (writeChunk pid address data chunk before).Ends
      (fun _ after => before.KeepsOutside after pid address (done + chunk.size) ∧
        after.HoldsRun pid address data (done + chunk.size))
      (fun _ after => before.KeepsOutside after pid address done ∧
        after.HoldsRun pid address data done)
      (fun _ => True) := by
  subst follows
  have keeps {after : Machine} (path : Path (Move.Accesses pid true) before after) (count : Nat) :
      before.KeepsOutside after pid address count ∧ after.HoldsRun pid address data chunk.done :=
    ⟨.of_path path sound (fun _ place => Move.not_accesses_overwrite place .anonymous)
        fun _ place => Move.not_accesses_remove place .anonymous,
      holds.of_path path sound (fun place => Move.not_accesses_overwrite place .anonymous)
        Move.not_accesses_remove⟩
  refine (ends_writeChunk sound pid address data chunk).imp ?_
    (fun _ _ path => keeps (path.mono fun _ registers => .inl registers) _) (fun _ _ => trivial)
  intro _ after result
  obtain ⟨handled, middle, first, location, contents, path, accessed, stored⟩ := result
  have toMiddle : Path (Move.Accesses pid true) before middle :=
    (path.mono fun _ registers => .inl registers).snoc accessed (.inr ⟨first, rfl⟩)
  obtain ⟨kept, held⟩ := keeps toMiddle (chunk.done + chunk.size)
  have start := (VirtAddr.ofNat?_eq_some_iff.1 stored.advanced).2
  have offset : first.offset = (address.offset + chunk.done) % pageSize := by
    simp only [Address.offset, start, pageSize]
    omega
  obtain ⟨outside, inside⟩ := stored.byte? (toMiddle.sound sound) (by rw [offset]; exact inPage)
    inData
  constructor
  · intro other place byte known elsewhere
    refine outside other place byte (kept other place byte known elsewhere) fun covered => ?_
    exact elsewhere ⟨covered.1, by omega, by omega⟩
  · intro place byte lower upper listed
    by_cases later : first.toNat ≤ place.toNat
    · refine inside place byte later (by omega) ?_
      have distance : chunk.done + (place.toNat - first.toNat) = place.toNat - address.toNat := by
        omega
      rw [distance]
      exact listed
    · obtain ⟨page, registered, holdsByte⟩ := held place byte lower (by omega) listed
      refine ⟨page, (stored.page? ..).trans registered, fun kind => ?_⟩
      exact outside pid place byte (holdsByte kind) fun covered => later covered.2.1

/-- Writing copies a first part of the data and changes no other byte. It copies all of the data if
it succeeds. -/
theorem ends_writeChunks_bytes {data : Array UInt8} {chunks : List Chunk} {done : Nat}
    (sound : before.Sound) (tile : Chunk.Tile address.offset data.size done chunks)
    (holds : before.HoldsRun pid address data done) :
    (chunks.forM (writeChunk pid address data) before).Ends
      (fun _ after => done + copied pid address data chunks before = data.size ∧
        before.KeepsOutside after pid address (done + copied pid address data chunks before) ∧
        after.HoldsRun pid address data (done + copied pid address data chunks before))
      (fun _ after =>
        before.KeepsOutside after pid address (done + copied pid address data chunks before) ∧
        after.HoldsRun pid address data (done + copied pid address data chunks before))
      (fun _ => True) := by
  induction chunks generalizing before done with
  | nil => exact ⟨tile, fun _ _ _ known _ => known, holds⟩
  | cons chunk rest inductionHypothesis =>
      obtain ⟨follows, inPage, tileRest⟩ := tile
      have inData := tileRest.le_length
      have ends := ends_writeChunk_bytes sound follows inPage inData holds
      have takes := (takes_writeChunk pid address data chunk).ends before sound
      show ((writeChunk pid address data chunk >>= fun _ => rest.forM _) before).Ends _ _ _
      rw [Action.ends_bind, copied]
      cases outcome : writeChunk pid address data chunk before with
      | done _ next =>
          rw [outcome] at ends takes
          obtain ⟨kept, held⟩ := ends
          have later := inductionHypothesis (takes.sound sound) tileRest held
          dsimp only
          rw [← Nat.add_assoc]
          refine later.imp ?_ ?_ (fun _ _ => trivial)
          · intro _ after result
            exact ⟨result.1, kept.trans result.2.1 (by omega), result.2.2⟩
          · intro _ after result
            exact ⟨kept.trans result.1 (by omega), result.2⟩
      | failed error after =>
          -- A chunk that fails copies nothing, and no chunk follows it.
          rw [outcome] at ends
          exact ends
      | halted fault => trivial

theorem ends_writeUser_bytes (sound : before.Sound) (pid : Pid) (address : VirtAddr)
    (data : Array UInt8) :
    let count := copied pid address data (Chunk.split address.offset data.size) before
    (writeUser pid address data before).Ends
      (fun _ after => count = data.size ∧ before.KeepsOutside after pid address count ∧
        after.HoldsRun pid address data count)
      (fun _ after => before.KeepsOutside after pid address count ∧
        after.HoldsRun pid address data count)
      (fun _ => True) := by
  have nothing : before.HoldsRun pid address data 0 := by
    intro place byte lower upper listed
    omega
  have ends := ends_writeChunks_bytes sound
    (Chunk.tile_split address.offset_lt_pageSize data.size) nothing
  rw [Nat.zero_add] at ends
  exact ends

end Machine

end DemandPaging
