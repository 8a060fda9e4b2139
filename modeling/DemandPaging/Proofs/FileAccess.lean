import DemandPaging.Proofs.FilePages
import DemandPaging.Proofs.Reachable

/-!
Reading and writing a file through the memory of a process.

Owns:
- `Machine.filePosition?`, the position in a file of the byte at an address of a process;
- `Machine.overlaid`, the bytes of a file with those laid over them that are stored in the memory of
  a process;
- what reading answers and what writing leaves behind, where pages of a file are accessed.

Does not own: anonymous pages (`Machine.HoldsRun`).

Main statements: `ends_readUser_file`, reading answers the bytes that are represented, and
`ends_writeUser_file`, writing lays the bytes that it copies over them.
-/

namespace DemandPaging

theorem Move.Registers.isQuiet {move : Move} {pid : Pid} (registers : move.Registers pid) :
    move.IsQuiet := by
  rcases registers with unseen | ⟨address, rfl⟩
  · cases move with
    | upkeep | pageOut _ | pageIn _ _ _ _ _ => trivial
    | _ => exact unseen.elim
  · trivial

theorem Move.Accesses.isQuiet {move : Move} {pid : Pid} (accesses : move.Accesses pid false) :
    move.IsQuiet := by
  rcases accesses with registers | ⟨address, rfl⟩
  · exact registers.isQuiet
  · rfl

/-- The addresses up to the end of a page follow its first ones. -/
theorem Address.exists_advance? {address first : VirtAddr} {done : Nat}
    (advanced : address.advance? done = some first) (count : Nat)
    (inPage : first.offset + count < pageSize) :
    ∃ place, address.advance? (done + count) = some place ∧ place.toNat = first.toNat + count ∧
      place.pageDown = first.pageDown ∧ place.offset = first.offset + count := by
  obtain ⟨canonical, start⟩ := VirtAddr.ofNat?_eq_some_iff.1 advanced
  have bound := first.lt_limit
  have fits : first.toNat + count < Word.limit := by
    simp only [offset, pageSize, Word.limit] at *
    omega
  let place : VirtAddr := ⟨first.toNat + count, fits⟩
  have distance : place.toNat - first.toNat = count := Nat.add_sub_cancel_left ..
  obtain ⟨samePage, position⟩ := pageDown_of_offset (Nat.le_add_right _ count : _ ≤ place.toNat)
    (by rw [distance]; exact inPage)
  refine ⟨place, VirtAddr.ofNat?_eq_some_iff.2 ⟨?_, ?_⟩, rfl, samePage, distance ▸ position⟩
  · simp only [offset, pageSize, VirtAddr.Canonical, Word.limit] at *
    omega
  · show first.toNat + count = address.toNat + (done + count)
    omega

/-- No chunk is empty. -/
theorem Chunk.pos_of_mem_split {offset length : Nat} {chunk : Chunk} (inPage : offset < pageSize)
    (member : chunk ∈ split offset length) : 0 < chunk.size := by
  unfold split at member
  split at member
  case isTrue => cases member
  case isFalse nonempty =>
    obtain ⟨index, listed, rfl⟩ := List.mem_map.1 member
    have inside := List.mem_range.1 listed
    simp only [ofPage, pageSize] at *
    omega

namespace Machine

variable {machine before middle after : Machine} {file : FileId} {pid : Pid}
  {address first place : VirtAddr} {region : FileRegion} {writer : FileRegion → Prop}
  {contents intended data : Array UInt8} {location : Location}

/-! ## Positions in a file -/

/-- The position in a file of the byte at an address of a process, if the byte comes from the
file. -/
def filePosition? (machine : Machine) (file : FileId) (pid : Pid) (place : VirtAddr) : Option Nat :=
  (machine.region? pid place.pageDown).bind fun region =>
    if region.mapping.file = file ∧ place.offset < region.readBytes then
      some (region.offset + place.offset)
    else
      none

theorem filePosition?_eq_some_iff {position : Nat} :
    machine.filePosition? file pid place = some position ↔
      ∃ region, machine.PageOf file pid place.pageDown region ∧ place.offset < region.readBytes ∧
        position = region.offset + place.offset := by
  unfold filePosition?
  rw [Option.bind_eq_some_iff]
  constructor
  · rintro ⟨region, atPlace, here⟩
    split at here
    case isTrue inside =>
      cases here
      exact ⟨region, ⟨atPlace, inside.1⟩, inside.2, rfl⟩
    case isFalse => cases here
  · rintro ⟨region, ofFile, inside, rfl⟩
    exact ⟨region, ofFile.region?, if_pos ⟨ofFile.file, inside⟩⟩

theorem filePosition?_of_pageOf (ofFile : machine.PageOf file pid place.pageDown region) :
    machine.filePosition? file pid place =
      if place.offset < region.readBytes then some (region.offset + place.offset) else none := by
  rw [filePosition?, ofFile.region?, Option.bind_some]
  simp [ofFile.file]

/-! ## Reading -/

/-- An access leads to the frame in which the page is. -/
theorem Reaches.frame?_eq {write : Bool} (reaches : machine.Reaches pid place write location)
    (owned : machine.FramesOwned) : machine.frame? pid place.pageDown = some location.frame :=
  (owned.owner_iff _ _ _).1 reaches.owner

/-- A run has been read up to some chunks that are left. -/
private structure FileReadUpTo (before : Machine) (file : FileId) (pid : Pid) (address : VirtAddr)
    (writer : FileRegion → Prop) (intended : Array UInt8) (length : Nat) (rest : List Chunk)
    (state : UserRead) : Prop where
  path : Path (Move.Accesses pid false) before state.machine
  tile : Chunk.Tile address.offset length state.bytes.size rest
  reads : ∀ (place : VirtAddr) region, address.toNat ≤ place.toNat →
    place.toNat < address.toNat + state.bytes.size →
    before.PageOf file pid place.pageDown region → writer region →
    place.offset < region.readBytes →
    state.bytes[place.toNat - address.toNat]? = intended[region.offset + place.offset]?

private theorem FileReadUpTo.ends_readChunk {length : Nat} {chunk : Chunk} {rest : List Chunk}
    {state : UserRead} (sound : before.Sound) (whole : ∀ pid, before.MappingsWhole pid)
    (apart : before.Apart file writer) (represents : before.Represents file writer intended)
    (reached : FileReadUpTo before file pid address writer intended length (chunk :: rest) state) :
    (readChunk pid address chunk state).Ends
      (fun _ state => FileReadUpTo before file pid address writer intended length rest state)
      (fun _ _ => True) (fun _ => True) := by
  obtain ⟨follows, inPage, tileRest⟩ := reached.tile
  simp only [readChunk, Action.ends_bind, Action.ends_onPart, Action.ends_modify]
  refine (ends_fetchChunk (reached.path.sound sound) pid address chunk).imp ?_
    (fun _ _ _ => trivial) (fun _ _ => trivial)
  intro piece after fetched
  obtain ⟨path, first, location, held, advanced, reaches, atFrame, rfl⟩ := fetched
  have toAfter := reached.path.trans path
  have soundAfter := toAfter.sound sound
  have start := (VirtAddr.ofNat?_eq_some_iff.1 advanced).2
  rw [follows] at start
  have offset : location.offset = first.offset := reaches.offset
  have fits : first.offset + chunk.size ≤ pageSize := by
    simp only [Address.offset, start, pageSize] at *
    omega
  have size : (state.bytes ++ held.slice location.offset chunk.size).size =
      state.bytes.size + chunk.size := by
    rw [Array.size_append, Block.size_slice]
    omega
  refine ⟨toAfter, ?_, fun place region lower upper ofFile writes inside => ?_⟩
  · rw [size]
    exact tileRest
  · dsimp only at upper ⊢
    rw [size] at upper
    rw [Array.getElem?_append]
    split
    case isTrue earlier => exact reached.reads place region lower (by omega) ofFile writes inside
    case isFalse later =>
      have distance : place.toNat - address.toNat - state.bytes.size =
          place.toNat - first.toNat := by omega
      obtain ⟨samePage, position⟩ := Address.pageDown_of_offset
        (show first.toNat ≤ place.toNat by omega) (by omega)
      have ofFileAfter := ofFile.of_region?_eq
        (region?_of_path toAfter sound
          (fun _ accesses => Move.Accesses.keepsMappings accesses pid) _)
      have shows := (toAfter.represents sound whole apart represents
        (fun _ accesses => Move.Accesses.isQuiet accesses)
        fun _ accesses => Move.Accesses.keepsMappings accesses).held pid
        place.pageDown region location.frame held ofFileAfter writes
        (samePage ▸ reaches.frame?_eq soundAfter.frames) atFrame
      rw [distance, Block.getElem?_slice _ (by omega), offset, ← position,
        shows.bytes ⟨place.offset, place.offset_lt_pageSize⟩ inside]
      exact Vector.getElem?_eq_getElem place.offset_lt_pageSize

/-- Reading answers as many bytes as were asked for. Those of pages of a file that may be written
are the bytes of the file that are represented. -/
theorem ends_readUser_file (sound : before.Sound) (whole : ∀ pid, before.MappingsWhole pid)
    (apart : before.Apart file writer) (represents : before.Represents file writer intended)
    (pid : Pid) (address : VirtAddr) (length : Nat) :
    (readUser pid address length ⟨before, #[]⟩).Ends
      (fun _ read => read.bytes.size = length ∧
        ∀ (place : VirtAddr) region, address.toNat ≤ place.toNat →
          place.toNat < address.toNat + length →
          before.PageOf file pid place.pageDown region → writer region →
          place.offset < region.readBytes →
          read.bytes[place.toNat - address.toNat]? = intended[region.offset + place.offset]?)
      (fun _ _ => True) (fun _ => True) := by
  have loop : ((Chunk.split address.offset length).forM (readChunk pid address)
      ⟨before, #[]⟩).Ends
      (fun _ => FileReadUpTo before file pid address writer intended length [])
      (fun _ _ => True) (fun _ => True) := by
    apply Action.ends_forM (FileReadUpTo before file pid address writer intended length)
    · intro chunk rest state reached
      exact reached.ends_readChunk sound whole apart represents
    · refine ⟨.refl before, Chunk.tile_split address.offset_lt_pageSize length, ?_⟩
      intro place region lower upper
      simp only [Array.size_empty] at upper
      omega
  refine loop.imp ?_ (fun _ _ _ => trivial) (fun _ _ => trivial)
  intro _ read reached
  have size : read.bytes.size = length := reached.tile
  exact ⟨size, size ▸ reached.reads⟩

/-! ## Bytes that are laid over a file -/

/-- The bytes of a file with a number of bytes of a run laid over them, which are stored in the
memory of a process from an address on. Each of them goes to its position in the file, if it has
one. -/
def overlaid (machine : Machine) (file : FileId) (pid : Pid) (address : VirtAddr)
    (data contents : Array UInt8) : Nat → Array UInt8
  | 0 => contents
  | count + 1 =>
    let earlier := machine.overlaid file pid address data contents count
    match (address.advance? count).bind (machine.filePosition? file pid) with
    | some position => earlier.setIfInBounds position (data.getD count 0)
    | none => earlier

@[simp]
theorem size_overlaid (machine : Machine) (file : FileId) (pid : Pid) (address : VirtAddr)
    (data contents : Array UInt8) (count : Nat) :
    (machine.overlaid file pid address data contents count).size = contents.size := by
  induction count with
  | zero => rfl
  | succ count inductionHypothesis =>
      rw [overlaid]
      split
      · rw [Array.size_setIfInBounds, inductionHypothesis]
      · exact inductionHypothesis

/-- Where the bytes go depends only on the parts of the file behind the pages. -/
theorem overlaid_congr (same : ∀ address, after.region? pid address = before.region? pid address)
    (address : VirtAddr) (data contents : Array UInt8) (count : Nat) :
    after.overlaid file pid address data contents count =
      before.overlaid file pid address data contents count := by
  have position (place : VirtAddr) :
      after.filePosition? file pid place = before.filePosition? file pid place := by
    rw [filePosition?, same, filePosition?]
  induction count with
  | zero => rfl
  | succ count inductionHypothesis =>
      rw [overlaid, overlaid, inductionHypothesis, funext position]

/-- Bytes that are stored in a page of another kind are not laid over the file. -/
theorem overlaid_of_absent {done : Nat} (advanced : address.advance? done = some first)
    (absent : ∀ region, ¬machine.PageOf file pid first.pageDown region) {count : Nat}
    (inPage : first.offset + count ≤ pageSize) :
    machine.overlaid file pid address data contents (done + count) =
      machine.overlaid file pid address data contents done := by
  induction count with
  | zero => rfl
  | succ count inductionHypothesis =>
      obtain ⟨place, known, -, samePage, -⟩ := Address.exists_advance? advanced count
        (by omega)
      have nowhere : machine.filePosition? file pid place = none := by
        rw [Option.eq_none_iff_forall_ne_some]
        intro position atPlace
        obtain ⟨region, ofFile, -⟩ := filePosition?_eq_some_iff.1 atPlace
        exact absent region (samePage ▸ ofFile)
      rw [← Nat.add_assoc, overlaid, known, Option.bind_some, nowhere]
      exact inductionHypothesis (by omega)

theorem overlaid_succ {count : Nat} (known : address.advance? count = some place)
    (ofFile : machine.PageOf file pid place.pageDown region) (inData : count < data.size) :
    machine.overlaid file pid address data contents (count + 1) =
      if place.offset < region.readBytes then
        (machine.overlaid file pid address data contents count).setIfInBounds
          (region.offset + place.offset) data[count]
      else machine.overlaid file pid address data contents count := by
  rw [overlaid, known, Option.bind_some, filePosition?_of_pageOf ofFile]
  by_cases fromFile : place.offset < region.readBytes
  · simp [fromFile, Array.getD, inData]
  · simp [fromFile]

/-- Bytes that are stored in a page of the file are laid over it where the page spans it. -/
theorem overlaid_of_pageOf (contents : Array UInt8) {done : Nat}
    (advanced : address.advance? done = some first)
    (ofFile : machine.PageOf file pid first.pageDown region) {count : Nat}
    (inPage : first.offset + count ≤ pageSize) (inData : done + count ≤ data.size) :
    (∀ index : Fin pageSize, index.val < region.readBytes →
      region.offset + index.val < contents.size →
      (machine.overlaid file pid address data contents
        (done + count))[region.offset + index.val]? =
        if first.offset ≤ index.val ∧ index.val < first.offset + count then
          data[done + (index.val - first.offset)]?
        else (machine.overlaid file pid address data contents
          done)[region.offset + index.val]?) ∧
    ∀ position : Nat, ¬region.Spans position →
      (machine.overlaid file pid address data contents (done + count))[position]? =
        (machine.overlaid file pid address data contents done)[position]? := by
  induction count with
  | zero =>
      refine ⟨fun index _ _ => ?_, fun _ _ => rfl⟩
      rw [if_neg (by omega)]
      rfl
  | succ count inductionHypothesis =>
      obtain ⟨inside, outside⟩ := inductionHypothesis (by omega) (by omega)
      obtain ⟨place, known, -, samePage, position⟩ := Address.exists_advance? advanced count
        (by omega)
      rw [← samePage] at ofFile
      rw [← Nat.add_assoc, overlaid_succ known ofFile (by omega)]
      have notLast (index : Fin pageSize) (other : place.offset ≠ index.val) :
          (first.offset ≤ index.val ∧ index.val < first.offset + count) ↔
            first.offset ≤ index.val ∧ index.val < first.offset + (count + 1) := by omega
      by_cases fromFile : place.offset < region.readBytes
      · simp only [if_pos fromFile, Array.getElem?_setIfInBounds, size_overlaid]
        constructor
        · intro index within inContents
          by_cases here : place.offset = index.val
          · rw [if_pos (by omega), if_pos (by omega), if_pos (by omega),
              show done + (index.val - first.offset) = done + count by omega]
            exact (Array.getElem?_eq_getElem _).symm
          · rw [if_neg (by omega), inside index within inContents]
            exact if_congr (notLast index here) rfl rfl
        · intro other elsewhere
          rw [if_neg]
          · exact outside other elsewhere
          · rintro rfl
            exact elsewhere ⟨⟨place.offset, place.offset_lt_pageSize⟩, fromFile, rfl⟩
      · simp only [if_neg fromFile]
        refine ⟨fun index within inContents => ?_, outside⟩
        rw [inside index within inContents]
        exact if_congr (notLast index (by omega)) rfl rfl

/-! ## Writing -/

/-- A chunk of a run of bytes is stored in a page that is dirty, and is laid over the file if the
page is one of its pages. -/
theorem Represents.stored_chunk {chunk : Chunk} {held : PageData} (sound : middle.Sound)
    (apart : middle.Apart file writer)
    (represents : middle.Represents file writer
      (middle.overlaid file pid address data contents chunk.done))
    (dirty : middle.isDirty pid first.pageDown = true)
    (stored : Stored pid address data chunk first location held middle after)
    (inPage : first.offset + chunk.size ≤ pageSize) (inData : chunk.done + chunk.size ≤ data.size) :
    after.Represents file writer
      (middle.overlaid file pid address data contents (chunk.done + chunk.size)) := by
  by_cases absent : ∀ region, ¬middle.PageOf file pid first.pageDown region
  · rw [overlaid_of_absent stored.advanced absent inPage]
    obtain ⟨page, registered, step⟩ := stored.step
    refine step.represents sound represents ⟨nofun, nofun, nofun, ?_⟩
    intro other place kind region same ofFile
    cases same
    exact absent region ofFile
  · obtain ⟨region, ofFile⟩ := Classical.not_forall_not.1 absent
    obtain ⟨inside, outside⟩ := overlaid_of_pageOf contents stored.advanced ofFile inPage inData
    have atFrame := stored.reaches.frame?_eq sound.frames
    have shows := represents.held pid first.pageDown region location.frame held ofFile
      (represents.written pid first.pageDown region ofFile dirty) atFrame stored.contents
    have offset := stored.reaches.offset
    obtain ⟨resident, written, rfl⟩ := stored.written
    refine represents.overwritten sound apart ofFile dirty atFrame written (by simp)
      ⟨shows.nonempty, fun index within => ?_⟩ outside
    have listed := shows.bytes index within
    have inContents := (Array.getElem?_eq_some_iff.1 listed).1
    rw [size_overlaid] at inContents
    have size : (data.extract chunk.done (chunk.done + chunk.size)).size = chunk.size := by
      rw [Array.size_extract]
      omega
    rw [inside index within inContents, Fin.getElem_fin, Block.getElem_overlay, size, offset]
    split
    case isTrue covered =>
      rw [Array.getD_eq_getD_getElem?, Array.getElem?_extract, if_pos (by omega),
        Array.getElem?_eq_getElem (by omega), Option.getD_some]
    case isFalse => exact listed

/-- A chunk that is written is laid over the file. A chunk that fails changes no byte of it. -/
theorem ends_writeChunk_file {chunk : Chunk} (sound : before.Sound)
    (whole : ∀ pid, before.MappingsWhole pid) (apart : before.Apart file writer)
    (represents : before.Represents file writer
      (before.overlaid file pid address data contents chunk.done))
    (inPage : (address.offset + chunk.done) % pageSize + chunk.size ≤ pageSize)
    (inData : chunk.done + chunk.size ≤ data.size) :
    (writeChunk pid address data chunk before).Ends
      (fun _ after =>
        (∀ place region, address.advance? chunk.done = some place →
          before.PageOf file pid place.pageDown region → writer region) →
        after.Represents file writer
          (before.overlaid file pid address data contents (chunk.done + chunk.size)))
      (fun _ after => after.Represents file writer
        (before.overlaid file pid address data contents chunk.done))
      (fun _ => True) := by
  have kept {after : Machine} (path : Path (Move.Registers pid) before after) :
      after.Represents file writer
        (before.overlaid file pid address data contents chunk.done) :=
    path.represents sound whole apart represents
      (fun _ registers => Move.Registers.isQuiet registers)
      fun _ registers => Move.Registers.keepsMappings registers
  refine (ends_writeChunk sound pid address data chunk).imp ?_ (fun _ _ path => kept path)
    (fun _ _ => trivial)
  intro _ after result writes
  obtain ⟨handled, middle, first, location, held, path, accessed, stored⟩ := result
  have soundHandled := path.sound sound
  have soundMiddle := accessed.sound soundHandled
  have sameHandled (other : Pid) (place : VirtAddr) :
      handled.region? other place = before.region? other place :=
    region?_of_path path sound
      (fun _ registers => Move.Registers.keepsMappings registers other) place
  have same (other : Pid) (place : VirtAddr) :
      middle.region? other place = before.region? other place := by
    refine (region?_of_step accessed soundHandled.frames ?_ place).trans (sameHandled other place)
    exact fun _ => ⟨nofun, nofun⟩
  have marks : Move.Respects (.access pid first true) handled file writer := by
    refine ⟨nofun, nofun, ?_, nofun⟩
    intro other place region sameMove ofFile
    cases sameMove
    exact writes first region stored.advanced (ofFile.of_region?_eq (sameHandled _ _).symm)
  have represented := accessed.represents soundHandled (kept path) marks
  have offset : first.offset = (address.offset + chunk.done) % pageSize := by
    have start := (VirtAddr.ofNat?_eq_some_iff.1 stored.advanced).2
    simp only [Address.offset, start, pageSize]
    omega
  have dirty : middle.isDirty pid first.pageDown = true := by
    have marked := accessed.isDirty_of_access soundHandled.frames
    rw [isDirty_eq] at marked ⊢
    rw [Address.pageDown_pageDown]
    exact marked
  rw [← overlaid_congr (same pid)] at represented
  rw [← overlaid_congr (same pid)]
  exact represented.stored_chunk soundMiddle (apart.of_region?_eq same) dirty stored
    (by rw [offset]; exact inPage) inData

/-- Writing lays the bytes over the file that are copied, whether it fails or not. -/
theorem ends_writeChunks_file {chunks : List Chunk} {done : Nat} (sound : before.Sound)
    (whole : ∀ pid, before.MappingsWhole pid) (apart : before.Apart file writer)
    (represents : before.Represents file writer
      (before.overlaid file pid address data contents done))
    (tile : Chunk.Tile address.offset data.size done chunks)
    (nonempty : ∀ chunk ∈ chunks, 0 < chunk.size)
    (writes : ∀ index place region, index < done + copied pid address data chunks before →
      address.advance? index = some place → before.PageOf file pid place.pageDown region →
      writer region) :
    let written := before.overlaid file pid address data contents
      (done + copied pid address data chunks before)
    (chunks.forM (writeChunk pid address data) before).Ends
      (fun _ after => after.Represents file writer written)
      (fun _ after => after.Represents file writer written) (fun _ => True) := by
  induction chunks generalizing before done with
  | nil => exact represents
  | cons chunk rest inductionHypothesis =>
      obtain ⟨follows, inPage, tileRest⟩ := tile
      subst follows
      have ends := ends_writeChunk_file sound whole apart represents inPage tileRest.le_length
      have takes := (takes_writeChunk pid address data chunk).ends before sound
      intro written
      show ((writeChunk pid address data chunk >>= fun _ => rest.forM _) before).Ends _ _ _
      rw [Action.ends_bind]
      cases outcome : writeChunk pid address data chunk before with
      | done _ next =>
          rw [outcome] at ends takes
          have path : Path (Move.Writes pid) before next := takes
          have same (other : Pid) (place : VirtAddr) :
              next.region? other place = before.region? other place :=
            region?_of_path path sound
              (fun _ writes => Move.Writes.keepsMappings writes other) place
          have many : chunk.done + copied pid address data (chunk :: rest) before =
              chunk.done + chunk.size + copied pid address data rest next := by
            rw [copied, outcome, Nat.add_assoc]
          have positive := nonempty chunk List.mem_cons_self
          have here := ends fun place region => writes chunk.done place region (by omega)
          rw [← overlaid_congr (same pid)] at here
          have later := inductionHypothesis (path.sound sound)
            (fun other => (whole other).of_path path sound fun _ writes =>
              Move.Writes.keepsMappings writes other)
            (apart.of_region?_eq same) here tileRest
            (fun other member => nonempty other (List.mem_cons_of_mem _ member))
            (fun index place region inside advanced ofFile => writes index place region (by omega)
              advanced (ofFile.of_region?_eq (same pid _).symm))
          rw [overlaid_congr (same pid), ← many] at later
          exact later
      | failed error after =>
          rw [outcome] at ends
          have nothing : copied pid address data (chunk :: rest) before = 0 := by
            rw [copied, outcome]
          simp only [written, nothing]
          exact ends
      | halted fault => trivial

theorem ends_writeUser_file (sound : before.Sound) (whole : ∀ pid, before.MappingsWhole pid)
    (apart : before.Apart file writer) (represents : before.Represents file writer contents)
    (pid : Pid) (address : VirtAddr) (data : Array UInt8)
    (writes : ∀ index place region,
      index < copied pid address data (Chunk.split address.offset data.size) before →
      address.advance? index = some place → before.PageOf file pid place.pageDown region →
      writer region) :
    let written := before.overlaid file pid address data contents
      (copied pid address data (Chunk.split address.offset data.size) before)
    (writeUser pid address data before).Ends
      (fun _ after => after.Represents file writer written)
      (fun _ after => after.Represents file writer written) (fun _ => True) := by
  have start : before.Represents file writer (before.overlaid file pid address data contents 0) :=
    represents
  have ends := ends_writeChunks_file sound whole apart start
    (Chunk.tile_split address.offset_lt_pageSize data.size)
    (fun _ => Chunk.pos_of_mem_split address.offset_lt_pageSize)
    (by rw [Nat.zero_add]; exact writes)
  rw [Nat.zero_add] at ends
  exact ends

end Machine

end DemandPaging
