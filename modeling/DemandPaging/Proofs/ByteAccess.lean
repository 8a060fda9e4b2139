import DemandPaging.Proofs.UserBytes

/-!
Access to the memory of a process one byte at a time.

Owns:
- `Machine.Settled`, a page to which every access of a kind leads and that no such access changes;
- `Chunk.Divisible`, a copy of a chunk is a copy of its two parts, one after the other;
- copying a run of bytes with one call for each byte (`Machine.writeBytewise`,
  `Machine.readBytewise`), and with two calls, the second of which continues the first one.

Does not own: which bytes are copied (`ends_readUser_bytes`, `ends_writeUser_bytes`) and what an
access does to other pages (`ends_locate`).

Main statement: `Machine.chunked_access_is_bytewise`. It asks nothing of the machine.
-/

namespace DemandPaging

/-! ## Addresses of one page -/

/-- The addresses of a page are canonical together: from one of them on, no sum fails before the
page ends. -/
theorem Address.advance?_within {address place : VirtAddr} {count more : Nat}
    (found : address.advance? count = some place) (inPage : place.offset + more < pageSize) :
    ∃ further, address.advance? (count + more) = some further ∧
      further.pageDown = place.pageDown ∧ further.offset = place.offset + more := by
  obtain ⟨canonical, total⟩ := VirtAddr.ofNat?_eq_some_iff.1 found
  have below := place.lt_limit
  simp only [offset, pageSize] at inPage
  have fits : place.toNat + more < Word.limit := by
    simp only [Word.limit] at *
    omega
  refine ⟨⟨place.toNat + more, fits⟩, ?_, ?_, ?_⟩
  · apply VirtAddr.ofNat?_eq_some_iff.2
    constructor
    · simp only [VirtAddr.Canonical, Word.limit, ← Nat.add_assoc, ← total] at *
      omega
    · simp only [total, Nat.add_assoc]
  · apply ext_toNat
    simp only [toNat_pageDown, pageSize]
    omega
  · simp only [offset, pageSize]
    omega

theorem Address.offset_add_mod (address : VirtAddr) (count : Nat) :
    (address.offset + count) % pageSize = (address.toNat + count) % pageSize :=
  Nat.mod_add_mod _ _ _

theorem Address.advance?_advance? {address place : VirtAddr} {count : Nat}
    (found : address.advance? count = some place) (more : Nat) :
    place.advance? more = address.advance? (count + more) := by
  have total := (VirtAddr.ofNat?_eq_some_iff.1 found).2
  rw [advance?, advance?, total, Nat.add_assoc]

/-! ## Loops in two parts -/

namespace Action

variable {State Item : Type} {round : Item → Action State Unit}

theorem forM_append (earlier later : List Item) :
    (earlier ++ later).forM round = (earlier.forM round >>= fun _ => later.forM round) :=
  List.forM_append

/-- Loops over numbers that do the same things, one of them counting from zero. -/
theorem forM_range'_shift {counted shifted : Nat → Action State Unit} {start count : Nat}
    (same : ∀ index, index < count → counted index = shifted (start + index)) :
    (List.range' 0 count).forM counted = (List.range' start count).forM shifted := by
  induction count with
  | zero => rfl
  | succ count inductionHypothesis =>
      have earlier := inductionHypothesis fun index below => same index (by omega)
      have last := same count (by omega)
      rw [List.range'_1_concat, List.range'_1_concat, forM_append, forM_append, earlier]
      simp [last]

/-- A loop reports an error if one of its rounds does and the rounds before it answer. -/
theorem forM_eq_failed_iff {rounds : List Item} {before after : State} {error : Errno} :
    rounds.forM round before = .failed error after ↔
      ∃ earlier item later middle, rounds = earlier ++ item :: later ∧
        earlier.forM round before = .done () middle ∧ round item middle = .failed error after := by
  constructor
  · intro failed
    induction rounds generalizing before with
    | nil => cases failed
    | cons item rest inductionHypothesis =>
        change (round item >>= fun _ => rest.forM round) before = _ at failed
        rw [bind_apply] at failed
        cases first : round item before with
        | halted fault =>
            rw [first] at failed
            cases failed
        | failed other stopped =>
            rw [first] at failed
            cases failed
            exact ⟨[], item, rest, before, rfl, rfl, first⟩
        | done answer next =>
            rw [first] at failed
            obtain ⟨earlier, failing, later, middle, split, ran, fails⟩ :=
              inductionHypothesis failed
            refine ⟨item :: earlier, failing, later, middle, ?_, ?_, fails⟩
            · rw [split, List.cons_append]
            · show (round item >>= fun _ => earlier.forM round) before = _
              rw [bind_apply, first]
              exact ran
  · intro split
    obtain ⟨earlier, item, later, middle, rfl, ran, fails⟩ := split
    rw [forM_append, bind_apply, ran]
    show (round item >>= fun _ => later.forM round) middle = _
    rw [bind_apply, fails]

end Action

/-! ## Chunks in two parts -/

namespace Chunk

variable {State : Type} {offset length done : Nat} {copy : Chunk → Action State Unit}

theorem size_pos_of_mem_split {chunk : Chunk} (inPage : offset < pageSize)
    (listed : chunk ∈ split offset length) : 0 < chunk.size := by
  unfold split at listed
  split at listed
  case isTrue => cases listed
  case isFalse nonempty =>
    obtain ⟨index, inRun, rfl⟩ := List.mem_map.1 listed
    have bound := List.mem_range.1 inRun
    simp only [ofPage, pageSize] at *
    omega

/-- A chunk begins where the run begins or where a page does. -/
theorem boundary_of_mem_split {chunk : Chunk} (listed : chunk ∈ split offset length) :
    chunk.done = 0 ∨ (offset + chunk.done) % pageSize = 0 := by
  unfold split at listed
  split at listed
  case isTrue => cases listed
  case isFalse nonempty =>
    obtain ⟨index, -, rfl⟩ := List.mem_map.1 listed
    simp only [ofPage, pageSize]
    omega

theorem done_lt_of_mem_split {chunk : Chunk} (inPage : offset < pageSize)
    (listed : chunk ∈ split offset length) : chunk.done < length := by
  have nonempty := size_pos_of_mem_split inPage listed
  unfold split at listed
  split at listed
  case isTrue => cases listed
  case isFalse =>
    obtain ⟨index, -, rfl⟩ := List.mem_map.1 listed
    simp only [ofPage] at *
    omega

/-- The chunks before one of a tiling tile the run up to it. -/
theorem Tile.earlier {chunk : Chunk} {earlier later : List Chunk}
    (tile : Tile offset length done (earlier ++ chunk :: later)) :
    Tile offset chunk.done done earlier := by
  induction earlier generalizing done with
  | nil => exact tile.1.symm
  | cons first rest inductionHypothesis =>
      exact ⟨tile.1, tile.2.1, inductionHypothesis tile.2.2⟩

/-- A copy of a chunk is a copy of its first part followed by a copy of the rest, if the rest begins
in the same page. -/
def Divisible (offset : Nat) (copy : Chunk → Action State Unit) : Prop :=
  ∀ done first rest, (offset + done) % pageSize + first < pageSize →
    copy ⟨done, first + rest⟩ = (copy ⟨done, first⟩ >>= fun _ => copy ⟨done + first, rest⟩)

/-- A chunk of a page is copied as its bytes are, one after the other. -/
theorem Divisible.eq_forM (divisible : Divisible offset copy) {size : Nat} (nonempty : 0 < size)
    (inPage : (offset + done) % pageSize + size ≤ pageSize) :
    copy ⟨done, size⟩ = (List.range' done size).forM fun index => copy ⟨index, 1⟩ := by
  induction size with
  | zero => omega
  | succ size inductionHypothesis =>
      by_cases single : size = 0
      · subst single
        simp
      · rw [divisible done size 1 (by omega), inductionHypothesis (by omega) (by omega),
          List.range'_1_concat]
        simp

/-- A run is copied as its bytes are, whichever chunks tile it. -/
theorem Divisible.forM_of_tile (divisible : Divisible offset copy) {chunks : List Chunk}
    (tile : Tile offset length done chunks) (nonempty : ∀ chunk ∈ chunks, 0 < chunk.size) :
    chunks.forM copy = (List.range' done (length - done)).forM fun index => copy ⟨index, 1⟩ := by
  induction chunks generalizing done with
  | nil =>
      have complete : done = length := tile
      rw [complete, Nat.sub_self]
      rfl
  | cons chunk rest inductionHypothesis =>
      obtain ⟨start, inPage, next⟩ := tile
      subst start
      have upTo := next.le_length
      have first := divisible.eq_forM (nonempty chunk List.mem_cons_self) inPage
      have others := inductionHypothesis next fun other listed =>
        nonempty other (List.mem_cons_of_mem _ listed)
      have bytes : length - chunk.done = chunk.size + (length - (chunk.done + chunk.size)) := by
        omega
      rw [bytes, ← List.range'_append_1, Action.forM_append, ← first, ← others]
      rfl

/-- A run whose copy fails is copied up to a boundary between pages, or not at all, and the byte
there fails. It is enough that chunks fail with their first byte. -/
theorem Divisible.split_eq_failed_iff (divisible : Divisible offset copy)
    (inPage : offset < pageSize) {before after : State} {error : Errno}
    (fails : ∀ chunk (middle : State), copy chunk middle = .failed error after →
      copy ⟨chunk.done, 1⟩ middle = .failed error after) :
    (split offset length).forM copy before = .failed error after ↔
      ∃ count middle, count < length ∧ (count = 0 ∨ (offset + count) % pageSize = 0) ∧
        ((List.range' 0 count).forM fun index => copy ⟨index, 1⟩) before = .done () middle ∧
        copy ⟨count, 1⟩ middle = .failed error after := by
  constructor
  · intro failed
    obtain ⟨earlier, chunk, later, middle, whole, ran, stopped⟩ :=
      Action.forM_eq_failed_iff.1 failed
    have listed : chunk ∈ split offset length := by
      rw [whole]
      simp
    have tile := tile_split inPage length
    rw [whole] at tile
    have bytes := divisible.forM_of_tile tile.earlier fun other inEarlier =>
      size_pos_of_mem_split inPage (whole ▸ List.mem_append_left _ inEarlier)
    rw [bytes, Nat.sub_zero] at ran
    exact ⟨chunk.done, middle, done_lt_of_mem_split inPage listed, boundary_of_mem_split listed,
      ran, fails chunk middle stopped⟩
  · intro transferred
    obtain ⟨count, middle, below, -, ran, stopped⟩ := transferred
    rw [divisible.forM_of_tile (tile_split inPage length)
      fun _ listed => size_pos_of_mem_split inPage listed]
    apply Action.forM_eq_failed_iff.2
    refine ⟨List.range' 0 count, count, List.range' (count + 1) (length - count - 1), middle, ?_,
      ran, stopped⟩
    rw [← List.range'_succ, Nat.sub_zero,
      show length = count + (length - count - 1 + 1) by omega, ← List.range'_append_1]
    simp

end Chunk

/-! ## Frames written in two parts -/

/-- Of two writes to a frame only the second one is seen. -/
theorem FramePool.write_write {pool written : FramePool} {frame : PhysAddr} {contents : PageData}
    (wrote : pool.write frame contents = .ok written) (last : PageData) :
    written.write frame last = pool.write frame last := by
  unfold write at wrote
  cases atIndex : pool.indexOf? frame with
  | none => simp [atIndex] at wrote
  | some index =>
      rw [atIndex] at wrote
      injection wrote with same
      subst same
      obtain rfl := addressOf_of_indexOf? atIndex
      let changed := pool.update index { pool.frames[index] with contents }
      have inPool : index.val < changed.frames.size := by
        simp [changed, update]
      have again : changed.indexOf? (pool.addressOf index) = some ⟨index.val, inPool⟩ :=
        indexOf?_addressOf changed ⟨index.val, inPool⟩
      simp only [write, atIndex, again, changed]
      simp [update]

theorem ResidentSet.write_write {set written : ResidentSet} {frame : PhysAddr} {contents : PageData}
    (wrote : set.write frame contents = .ok written) (last : PageData) :
    written.write frame last = set.write frame last := by
  unfold write at *
  cases wrotePool : set.pool.write frame contents with
  | error fault => simp [wrotePool, bind, Except.bind] at wrote
  | ok pool =>
      simp only [wrotePool, bind, Except.bind, Except.ok.injEq] at wrote
      subst wrote
      rw [FramePool.write_write wrotePool]

/-- Laying a run over a block is laying its first part over it and then the rest. -/
theorem Block.overlay_extract {size : Nat} (block : Block size) (start : Nat) (data : Array UInt8)
    (done first rest : Nat) :
    block.overlay start (data.extract done (done + (first + rest))) =
      (block.overlay start (data.extract done (done + first))).overlay (start + first)
        (data.extract (done + first) (done + first + rest)) := by
  ext index inBlock
  simp only [getElem_overlay, Array.size_extract, Array.getD_eq_getD_getElem?,
    Array.getElem?_extract]
  by_cases early : index < start + first
  · rw [if_neg (show ¬(start + first ≤ index ∧ _) by omega)]
    by_cases covered : start ≤ index ∧ index < start + (min (done + first) data.size - done)
    · rw [if_pos covered, if_pos (by omega), if_pos (by omega), if_pos (by omega)]
    · rw [if_neg covered, if_neg (by omega)]
  · rw [if_neg (show ¬(start ≤ index ∧ index < start + (min (done + first) data.size - done)) by
      omega)]
    by_cases covered : start + first ≤ index ∧
        index < start + first + (min (done + first + rest) data.size - (done + first))
    · rw [if_pos covered, if_pos (by omega), if_pos (by omega), if_pos (by omega),
        show done + (index - start) = done + first + (index - (start + first)) by omega]
    · rw [if_neg covered, if_neg (by omega)]

/-- A slice of a block is its first part followed by the rest. -/
theorem Block.slice_append {size : Nat} (block : Block size) (start first rest : Nat)
    (inBlock : start + first ≤ size) :
    block.slice start (first + rest) =
      block.slice start first ++ block.slice (start + first) rest := by
  apply Array.ext_getElem?
  intro index
  rw [Array.getElem?_append, size_slice, show min (start + first) size - start = first by omega]
  by_cases early : index < first
  · rw [if_pos early, getElem?_slice _ (by omega), getElem?_slice _ early]
  · rw [if_neg early]
    by_cases inRun : index < first + rest
    · rw [getElem?_slice _ inRun, getElem?_slice _ (by omega),
        show start + first + (index - first) = start + index by omega]
    · rw [Array.getElem?_eq_none (by rw [size_slice]; omega),
        Array.getElem?_eq_none (by rw [size_slice]; omega)]

/-! ## Repeated accesses -/

/-- The flags after an access. -/
def EntryFlags.touched (flags : EntryFlags) (write : Bool) : EntryFlags :=
  { flags with accessed := true, dirty := flags.dirty || write }

theorem EntryFlags.touched_touched (flags : EntryFlags) (write : Bool) :
    (flags.touched write).touched write = flags.touched write := by
  simp [touched]

/-- An entry as an access leaves it. -/
def Entry.touched (entry : Entry) (write : Bool) : Entry :=
  entry.withFlags (entry.flags.touched write)

theorem Entry.touched_eq (entry : Entry) (write : Bool) :
    entry.touched write = entry.withFlags { entry.flags with
      accessed := true
      dirty := entry.flags.dirty || write } := rfl

theorem Entry.touched_touched (entry : Entry) (write : Bool) :
    (entry.touched write).touched write = entry.touched write := by
  unfold touched
  rw [flags_withFlags, EntryFlags.touched_touched]
  conv_lhs => rw [withFlags, withFlags_and_frameMask]
  rfl

/-- An access succeeds on a present entry that allows it, and leaves its marks there. -/
theorem PageTable.access_eq_ok_iff {table marked : PageTable} {address : VirtAddr} {write : Bool}
    {location : Location} :
    table.access address write = (.ok location, marked) ↔
      ∃ entry, table.entry? address = some entry ∧ (write && !entry.flags.writable) = false ∧
        (entry.touched write).frame? = some location.frame ∧ location.offset = address.offset ∧
        marked = ⟨table.entries.insert address.pageDown (entry.touched write)⟩ := by
  constructor
  · intro accessed
    unfold access at accessed
    cases found : table.entry? address with
    | none => simp [found] at accessed
    | some entry =>
        simp only [found] at accessed
        split at accessed
        case isTrue => simp at accessed
        case isFalse allowed =>
          rw [← Entry.touched_eq] at accessed
          cases leads : (entry.touched write).frame? with
          | none => simp [leads] at accessed
          | some frame =>
              simp only [leads, Prod.mk.injEq, Except.ok.injEq] at accessed
              obtain ⟨rfl, rfl⟩ := accessed
              exact ⟨entry, rfl, by simpa using allowed, leads, rfl, rfl⟩
  · intro present
    obtain ⟨entry, found, allowed, leads, position, rfl⟩ := present
    cases location
    cases position
    unfold access
    simp only [found, allowed]
    rw [← Entry.touched_eq, leads]
    rfl

/-- A second access to a page leads to the same frame and finds its own marks there. -/
theorem PageTable.access_of_access {table marked : PageTable} {address place : VirtAddr}
    {write : Bool} {location : Location}
    (accessed : table.access address write = (.ok location, marked))
    (samePage : place.pageDown = address.pageDown) :
    marked.access place write = (.ok ⟨location.frame, place.offset⟩, marked) := by
  obtain ⟨entry, found, allowed, leads, -, rfl⟩ := access_eq_ok_iff.1 accessed
  apply access_eq_ok_iff.2
  refine ⟨entry.touched write, ?_, ?_, ?_, rfl, ?_⟩
  · simp [samePage, entry?]
  · simpa [Entry.touched, EntryFlags.touched] using allowed
  · rw [Entry.touched_touched, leads]
  · rw [Entry.touched_touched, samePage]
    congr 1
    apply Std.ExtTreeMap.ext_getElem?
    intro other
    simp only [Std.ExtTreeMap.getElem?_insert]
    split <;> rfl

namespace Machine

variable {machine before middle after : Machine} {pid : Pid} {address place page : VirtAddr}
  {write : Bool} {frame : PhysAddr} {location : Location}

/-- Accesses to a page lead to a frame, and each of them finds the marks it would leave. -/
def Settled (machine : Machine) (pid : Pid) (page : VirtAddr) (write : Bool)
    (frame : PhysAddr) : Prop :=
  ∃ space, machine.spaces[pid]? = some space ∧
    ∀ place, place.pageDown = page →
      space.table.access place write = (.ok ⟨frame, place.offset⟩, space.table)

theorem Settled.of_spaces (settled : before.Settled pid page write frame)
    (same : after.spaces = before.spaces) : after.Settled pid page write frame := by
  unfold Settled
  rw [same]
  exact settled

theorem Settled.locate (settled : machine.Settled pid place.pageDown write frame) :
    locate pid place write machine = .done ⟨frame, place.offset⟩ machine := by
  obtain ⟨space, found, accesses⟩ := settled
  have known : Machine.space pid machine = .done space machine := by
    rw [Machine.space, found]
    rfl
  have kept : ({ machine with spaces := machine.spaces.insert pid space } : Machine) = machine := by
    rw [insert_space found]
  simp only [Machine.locate, Machine.access, Action.bind_apply, known, accesses place rfl, setSpace,
    Action.modify, Action.pure_apply, kept]

/-- An access settles its page. -/
theorem settled_of_access
    (accessed : access pid address write before = .done (.ok location) after) :
    location.offset = address.offset ∧
      after.Settled pid address.pageDown write location.frame := by
  obtain ⟨space, known, found, rest⟩ := Action.bind_eq_done accessed
  cases answered : space.table.access address write with
  | mk answer table =>
      rw [answered] at rest
      injection rest with sameAnswer sameAfter
      subst sameAnswer
      constructor
      · obtain ⟨_, -, -, -, position, -⟩ := PageTable.access_eq_ok_iff.1 answered
        exact position
      · refine ⟨{ space with table }, ?_, fun place samePage => ?_⟩
        · rw [← sameAfter]
          exact Std.ExtTreeMap.getElem?_insert_self
        · exact PageTable.access_of_access answered samePage

/-- So does an access together with its fault. -/
theorem settled_of_locate (located : locate pid address write before = .done location after) :
    location.offset = address.offset ∧
      after.Settled pid address.pageDown write location.frame := by
  obtain ⟨space, known, -, rest⟩ := Action.bind_eq_done located
  obtain ⟨answer, accessed, first, rest⟩ := Action.bind_eq_done rest
  cases answer with
  | ok found =>
      injection rest with sameLocation sameAfter
      rw [← sameLocation, ← sameAfter]
      exact settled_of_access first
  | error code =>
      obtain ⟨_, handled, -, rest⟩ := Action.bind_eq_done rest
      obtain ⟨again, repeated, second, rest⟩ := Action.bind_eq_done rest
      cases again with
      | ok found =>
          injection rest with sameLocation sameAfter
          rw [← sameLocation, ← sameAfter]
          exact settled_of_access second
      | error code => cases rest

/-! ## Copying in two parts -/

/-- An access to a place of a run leads to that place's position in its page, and it settles the
page. -/
theorem settled_of_locateChunk {chunk : Chunk}
    (located : locateChunk pid address write chunk before = .done location middle) :
    ∃ place, address.advance? chunk.done = some place ∧
      place.offset = (address.offset + chunk.done) % pageSize ∧ location.offset = place.offset ∧
      middle.Settled pid place.pageDown write location.frame := by
  obtain ⟨place, start, found, located⟩ := Action.bind_eq_done located
  cases onwards : address.advance? chunk.done with
  | none =>
      rw [onwards] at found
      cases found
  | some place =>
      rw [onwards] at found
      cases found
      have start := (VirtAddr.ofNat?_eq_some_iff.1 onwards).2
      have settles := settled_of_locate located
      refine ⟨place, rfl, ?_, settles.1, settles.2⟩
      simp only [Address.offset, pageSize] at *
      omega

/-- After an access to some place of a run, a place further up in the same page is found without a
change. -/
theorem locateChunk_of_located {done size first rest : Nat}
    (located : locateChunk pid address write ⟨done, size⟩ before = .done location middle)
    (inPage : (address.offset + done) % pageSize + first < pageSize)
    (same : after.spaces = middle.spaces) :
    locateChunk pid address write ⟨done + first, rest⟩ after =
      .done ⟨location.frame, location.offset + first⟩ after := by
  obtain ⟨place, onwards, position, atPlace, settled⟩ := settled_of_locateChunk located
  obtain ⟨further, next, samePage, offset⟩ :=
    Address.advance?_within onwards (position ▸ inPage)
  have again := settled.of_spaces same
  rw [← samePage] at again
  simp only [locateChunk, next, Action.require, pure_bind, again.locate, offset, atPlace]

/-- Put bytes into the frame of a place. -/
def overwrite (location : Location) (piece : Array UInt8) : Action Machine Unit := do
  let machine ← Action.get
  let contents ← Action.orHalt (machine.resident.read location.frame)
  setResident (machine.resident.write location.frame (contents.overlay location.offset piece))

theorem writeChunk_eq (pid : Pid) (address : VirtAddr) (data : Array UInt8) (chunk : Chunk) :
    writeChunk pid address data chunk =
      (locateChunk pid address true chunk >>= fun location =>
        overwrite location (data.extract chunk.done (chunk.done + chunk.size))) := rfl

/-- What is put into a frame is in it, and nothing but frames changes. -/
theorem overwrite_eq (location : Location) (piece : Array UInt8) (machine : Machine) :
    overwrite location piece machine =
      match machine.resident.read location.frame with
      | .error fault => .halted fault
      | .ok contents =>
        match machine.resident.write location.frame (contents.overlay location.offset piece) with
        | .error fault => .halted fault
        | .ok resident => .done () { machine with resident } := by
  unfold overwrite
  simp only [Action.bind_apply, Action.get]
  cases machine.resident.read location.frame with
  | error fault => rfl
  | ok contents =>
      show setResident _ machine = _
      simp only [setResident, Action.bind_apply]
      cases machine.resident.write location.frame (contents.overlay location.offset piece) <;> rfl

theorem overwrite_extract (location : Location) (data : Array UInt8) (done first rest : Nat) :
    overwrite location (data.extract done (done + (first + rest))) =
      (overwrite location (data.extract done (done + first)) >>= fun _ =>
        overwrite ⟨location.frame, location.offset + first⟩
          (data.extract (done + first) (done + first + rest))) := by
  funext machine
  rw [Action.bind_apply, overwrite_eq, overwrite_eq]
  cases held : machine.resident.read location.frame with
  | error fault => rfl
  | ok contents =>
      obtain ⟨written, wrote⟩ := ResidentSet.exists_write_eq_ok
        (Option.isSome_iff_exists.2 ⟨contents, ResidentSet.read_eq_ok_iff.1 held⟩)
        (contents.overlay location.offset (data.extract done (done + first)))
      have now : written.read location.frame =
          .ok (contents.overlay location.offset (data.extract done (done + first))) := by
        rw [ResidentSet.read_eq_ok_iff, (ResidentSet.of_write wrote).2.2.2, if_pos rfl]
      simp only [wrote]
      rw [overwrite_eq]
      simp only [now, ResidentSet.write_write wrote, Block.overlay_extract]

theorem spaces_of_overwrite {piece : Array UInt8}
    (wrote : overwrite location piece before = .done () after) : after.spaces = before.spaces := by
  rw [overwrite_eq] at wrote
  split at wrote
  · cases wrote
  · split at wrote
    · cases wrote
    · injection wrote with _ same
      rw [← same]

/-- Writing a part of a page and then the rest is writing all of it. -/
theorem divisible_writeChunk (pid : Pid) (address : VirtAddr) (data : Array UInt8) :
    Chunk.Divisible address.offset (writeChunk pid address data) := by
  intro done first rest inPage
  funext before
  have sameStart : locateChunk pid address true ⟨done, first + rest⟩ =
    locateChunk pid address true ⟨done, first⟩ := rfl
  simp only [writeChunk_eq, sameStart, overwrite_extract, Action.bind_apply]
  cases located : locateChunk pid address true ⟨done, first⟩ before with
  | failed error middle => rfl
  | halted fault => rfl
  | done location middle =>
      dsimp only
      cases wrote : overwrite location (data.extract done (done + first)) middle with
      | failed error after => rfl
      | halted fault => rfl
      | done answer after =>
          dsimp only
          rw [locateChunk_of_located located inPage (spaces_of_overwrite wrote)]

/-- Add bytes from the frame of a place to those copied so far. -/
def fetch (location : Location) (size : Nat) : Action UserRead Unit := do
  let read ← Action.get
  let contents ← Action.orHalt (read.machine.resident.read location.frame)
  Action.modify fun read => { read with bytes := read.bytes ++ contents.slice location.offset size }

theorem fetch_eq (location : Location) (size : Nat) (read : UserRead) :
    fetch location size read =
      match read.machine.resident.read location.frame with
      | .error fault => .halted fault
      | .ok contents =>
        .done () { read with bytes := read.bytes ++ contents.slice location.offset size } := by
  unfold fetch
  simp only [Action.bind_apply, Action.get]
  cases read.machine.resident.read location.frame <;> rfl

/-- A chunk is read by an access and a look into the frame to which it leads. -/
theorem readChunk_eq (pid : Pid) (address : VirtAddr) (chunk : Chunk) :
    readChunk pid address chunk =
      (Action.onPart UserRead.machine (fun machine read => { read with machine })
        (locateChunk pid address false chunk) >>= fun location => fetch location chunk.size) := by
  funext read
  unfold readChunk fetchChunk
  simp only [Action.bind_apply, Action.onPart]
  cases locateChunk pid address false chunk read.machine with
  | failed error middle => rfl
  | halted fault => rfl
  | done location middle =>
      simp only [fetch_eq, Action.get]
      cases middle.resident.read location.frame <;> rfl

/-- Reading a part of a page and then the rest is reading all of it. -/
theorem divisible_readChunk (pid : Pid) (address : VirtAddr) :
    Chunk.Divisible address.offset (readChunk pid address) := by
  intro done first rest inPage
  funext before
  have sameStart : locateChunk pid address false ⟨done, first + rest⟩ =
    locateChunk pid address false ⟨done, first⟩ := rfl
  simp only [readChunk_eq, sameStart, Action.bind_apply, Action.onPart]
  cases located : locateChunk pid address false ⟨done, first⟩ before.machine with
  | failed error middle => rfl
  | halted fault => rfl
  | done location middle =>
      obtain ⟨place, -, position, atPlace, -⟩ := settled_of_locateChunk located
      simp only [fetch_eq]
      cases held : middle.resident.read location.frame with
      | error fault => rfl
      | ok contents =>
          dsimp only
          rw [locateChunk_of_located located inPage rfl]
          simp only [held]
          have withinPage : location.offset + first ≤ pageSize := by
            rw [atPlace, position]
            exact Nat.le_of_lt inPage
          rw [Block.slice_append _ _ _ _ withinPage, Array.append_assoc]

/-! ## One call for each byte -/

/-- Write bytes that follow others of a run. If there are any, the place of the first one has to be
canonical. -/
def writeRest (pid : Pid) (address : VirtAddr) (done : Nat) (data : Array UInt8) :
    Action Machine Unit :=
  if data.isEmpty then
    pure ()
  else do
    let place ← Action.require .badAddress (address.advance? done)
    writeUser pid place data

/-- Write a run with one call for each of its bytes, up to the first error. -/
def writeBytewise (pid : Pid) (address : VirtAddr) (data : Array UInt8) : Action Machine Unit :=
  (List.range data.size).forM fun index =>
    writeRest pid address index (data.extract index (index + 1))

/-- Read bytes that follow others of a run. If there are any, the place of the first one has to be
canonical. -/
def readRest (pid : Pid) (address : VirtAddr) (done length : Nat) : Action UserRead Unit :=
  if length = 0 then
    pure ()
  else do
    let place ← Action.require .badAddress (address.advance? done)
    readUser pid place length

/-- Read a run with one call for each of its bytes, up to the first error. -/
def readBytewise (pid : Pid) (address : VirtAddr) (length : Nat) : Action UserRead Unit :=
  (List.range length).forM fun index => readRest pid address index 1

/-- A run is written as its bytes are. -/
theorem writeUser_eq_forM (pid : Pid) (address : VirtAddr) (data : Array UInt8) :
    writeUser pid address data =
      (List.range' 0 data.size).forM fun index => writeChunk pid address data ⟨index, 1⟩ :=
  (divisible_writeChunk pid address data).forM_of_tile
    (Chunk.tile_split address.offset_lt_pageSize data.size)
    fun _ listed => Chunk.size_pos_of_mem_split address.offset_lt_pageSize listed

/-- A run is read as its bytes are. -/
theorem readUser_eq_forM (pid : Pid) (address : VirtAddr) (length : Nat) :
    readUser pid address length =
      (List.range' 0 length).forM fun index => readChunk pid address ⟨index, 1⟩ :=
  (divisible_readChunk pid address).forM_of_tile
    (Chunk.tile_split address.offset_lt_pageSize length)
    fun _ listed => Chunk.size_pos_of_mem_split address.offset_lt_pageSize listed

/-- The access to a chunk is the access to its first byte. -/
theorem locateChunk_size (chunk : Chunk) (size : Nat) :
    locateChunk pid address write ⟨chunk.done, size⟩ = locateChunk pid address write chunk := rfl

theorem locateChunk_of_noncanonical {chunk : Chunk}
    (beyond : address.advance? chunk.done = none) :
    locateChunk pid address write chunk = Action.fail .badAddress := by
  unfold locateChunk
  rw [beyond]
  rfl

theorem locateChunk_advance {done : Nat} (onwards : address.advance? done = some place)
    (index size : Nat) :
    locateChunk pid place write ⟨index, size⟩ =
      locateChunk pid address write ⟨done + index, size⟩ := by
  unfold locateChunk
  rw [Address.advance?_advance? onwards]

/-- The bytes that follow others of a run are written as bytes of the run. -/
theorem writeRest_eq_forM (data : Array UInt8) {rest : Array UInt8} {done : Nat}
    (same : ∀ index, index < rest.size →
      rest.extract index (index + 1) = data.extract (done + index) (done + index + 1)) :
    writeRest pid address done rest =
      (List.range' done rest.size).forM fun index => writeChunk pid address data ⟨index, 1⟩ := by
  unfold writeRest
  by_cases empty : rest.size = 0
  · rw [if_pos (by simpa using empty), empty]
    rfl
  · rw [if_neg (by simpa using empty)]
    cases onwards : address.advance? done with
    | none =>
        rw [← Nat.succ_pred_eq_of_ne_zero empty, List.range'_succ]
        show _ = writeChunk pid address data ⟨done, 1⟩ >>= _
        rw [writeChunk_eq, locateChunk_of_noncanonical onwards]
        rfl
    | some place =>
        show writeUser pid place rest = _
        rw [writeUser_eq_forM]
        apply Action.forM_range'_shift
        intro index inRest
        rw [writeChunk_eq, writeChunk_eq, locateChunk_advance onwards, same index inRest]

theorem readRest_eq_forM (pid : Pid) (address : VirtAddr) (done length : Nat) :
    readRest pid address done length =
      (List.range' done length).forM fun index => readChunk pid address ⟨index, 1⟩ := by
  unfold readRest
  by_cases empty : length = 0
  · rw [if_pos empty, empty]
    rfl
  · rw [if_neg empty]
    cases onwards : address.advance? done with
    | none =>
        rw [← Nat.succ_pred_eq_of_ne_zero empty, List.range'_succ]
        show _ = readChunk pid address ⟨done, 1⟩ >>= _
        rw [readChunk_eq, locateChunk_of_noncanonical onwards]
        rfl
    | some place =>
        show readUser pid place length = _
        rw [readUser_eq_forM]
        apply Action.forM_range'_shift
        intro index _
        rw [readChunk_eq, readChunk_eq, locateChunk_advance onwards]

theorem writeUser_eq_writeBytewise (pid : Pid) (address : VirtAddr) (data : Array UInt8) :
    writeUser pid address data = writeBytewise pid address data := by
  rw [writeUser_eq_forM, writeBytewise, List.range_eq_range']
  apply Eq.symm
  apply Action.forM_range'_shift
  intro index inRun
  have single : (data.extract index (index + 1)).size = 1 := by
    rw [Array.size_extract]
    omega
  rw [writeRest_eq_forM data, single, Nat.zero_add]
  · simp
  · intro position below
    rw [single] at below
    obtain rfl : position = 0 := by omega
    simp

theorem readUser_eq_readBytewise (pid : Pid) (address : VirtAddr) (length : Nat) :
    readUser pid address length = readBytewise pid address length := by
  rw [readUser_eq_forM, readBytewise, List.range_eq_range']
  apply Action.forM_range'_shift
  intro index _
  rw [readRest_eq_forM, Nat.zero_add]
  simp

/-! ## Two calls for a run -/

/-- Some first bytes of a run are written as bytes of the run. -/
theorem writeUser_extract (pid : Pid) (address : VirtAddr) {data : Array UInt8} {count : Nat}
    (inRun : count ≤ data.size) :
    writeUser pid address (data.extract 0 count) =
      (List.range' 0 count).forM fun index => writeChunk pid address data ⟨index, 1⟩ := by
  have size : (data.extract 0 count).size = count := by
    rw [Array.size_extract]
    omega
  rw [writeUser_eq_forM, size]
  apply Action.forM_range'_shift
  intro index below
  rw [Nat.zero_add, writeChunk_eq, writeChunk_eq, Array.extract_extract]
  simp only [Nat.zero_add, Nat.min_eq_left (show index + 1 ≤ count by omega)]

theorem writeUser_append (pid : Pid) (address : VirtAddr) (left right : Array UInt8) :
    writeUser pid address (left ++ right) =
      (writeUser pid address left >>= fun _ => writeRest pid address left.size right) := by
  have leftPart : (left ++ right).extract 0 left.size = left := by simp
  have inRun : left.size ≤ (left ++ right).size := by simp
  have first := writeUser_extract pid address inRun
  rw [leftPart] at first
  have rest : writeRest pid address left.size right =
      (List.range' left.size right.size).forM fun index =>
        writeChunk pid address (left ++ right) ⟨index, 1⟩ := by
    apply writeRest_eq_forM (left ++ right)
    intro index inRight
    have beyond : left.extract (left.size + index) (left.size + index + 1) = #[] :=
      Array.extract_eq_empty_of_le (by omega)
    rw [Array.extract_append, beyond, Array.empty_append]
    congr 1 <;> omega
  rw [writeUser_eq_forM, Array.size_append, ← List.range'_append_1, Action.forM_append,
    Nat.zero_add, first, rest]

theorem readUser_add (pid : Pid) (address : VirtAddr) (first rest : Nat) :
    readUser pid address (first + rest) =
      (readUser pid address first >>= fun _ => readRest pid address first rest) := by
  rw [readUser_eq_forM, ← List.range'_append_1, Action.forM_append, Nat.zero_add,
    readUser_eq_forM, readRest_eq_forM]

/-! ## Copies that fail -/

/-- Only the access of a write may fail. -/
theorem writeChunk_eq_failed_iff {data : Array UInt8} {chunk : Chunk} {error : Errno} :
    writeChunk pid address data chunk before = .failed error after ↔
      locateChunk pid address true chunk before = .failed error after := by
  rw [writeChunk_eq, Action.bind_apply]
  cases locateChunk pid address true chunk before with
  | failed other middle => simp
  | halted fault => simp
  | done location middle =>
      dsimp only
      rw [overwrite_eq]
      split
      · simp
      · split <;> simp

/-- Only the access of a read may fail. -/
theorem readChunk_eq_failed_iff {chunk : Chunk} {error : Errno} {before after : UserRead} :
    readChunk pid address chunk before = .failed error after ↔
      locateChunk pid address false chunk before.machine = .failed error after.machine ∧
        after.bytes = before.bytes := by
  rw [readChunk_eq, Action.bind_apply, Action.onPart]
  cases locateChunk pid address false chunk before.machine with
  | failed other middle =>
      cases after
      simp only [Outcome.failed.injEq, UserRead.mk.injEq]
      constructor
      · intro same
        exact ⟨⟨same.1, same.2.1⟩, same.2.2.symm⟩
      · intro same
        exact ⟨same.1.1, same.1.2, same.2.symm⟩
  | halted fault => simp
  | done location middle =>
      dsimp only
      rw [fetch_eq]
      split <;> simp

theorem exists_bytes_of_readChunk {chunk : Chunk} {before after : UserRead}
    (inPage : (address.offset + chunk.done) % pageSize + chunk.size ≤ pageSize)
    (ran : readChunk pid address chunk before = .done () after) :
    ∃ piece, after.bytes = before.bytes ++ piece ∧ piece.size = chunk.size := by
  rw [readChunk_eq, Action.bind_apply, Action.onPart] at ran
  cases located : locateChunk pid address false chunk before.machine with
  | failed error middle | halted fault =>
      rw [located] at ran
      cases ran
  | done location middle =>
      rw [located] at ran
      dsimp only at ran
      obtain ⟨place, -, position, atPlace, -⟩ := settled_of_locateChunk located
      rw [fetch_eq] at ran
      split at ran
      · cases ran
      case h_2 contents _ =>
        injection ran with _ same
        refine ⟨contents.slice location.offset chunk.size, by rw [← same], ?_⟩
        rw [Block.size_slice, atPlace, position]
        omega

/-- A read adds as many bytes as were asked for. -/
theorem exists_bytes_of_readUser {length : Nat} {before after : UserRead}
    (ran : readUser pid address length before = .done () after) :
    ∃ piece, after.bytes = before.bytes ++ piece ∧ piece.size = length := by
  rw [readUser_eq_forM] at ran
  induction length generalizing after with
  | zero =>
      cases ran
      exact ⟨#[], by simp⟩
  | succ length inductionHypothesis =>
      rw [List.range'_1_concat, Action.forM_append] at ran
      obtain ⟨_, middle, earlier, ran⟩ := Action.bind_eq_done ran
      obtain ⟨piece, bytes, size⟩ := inductionHypothesis earlier
      obtain ⟨_, last, single, finished⟩ := Action.bind_eq_done ran
      cases finished
      have inPage : (address.offset + (0 + length)) % pageSize + 1 ≤ pageSize :=
        Nat.mod_lt _ (by decide)
      obtain ⟨byte, added, one⟩ := exists_bytes_of_readChunk inPage single
      refine ⟨piece ++ byte, ?_, ?_⟩
      · rw [added, bytes, Array.append_assoc]
      · rw [Array.size_append, size, one]

/-- A write that fails has written the bytes up to a boundary between pages, or none, and then
failed to access the byte there. -/
theorem writeUser_eq_failed_iff {data : Array UInt8} {error : Errno} :
    writeUser pid address data before = .failed error after ↔
      ∃ count middle, count < data.size ∧
        (count = 0 ∨ (address.toNat + count) % pageSize = 0) ∧
        writeUser pid address (data.extract 0 count) before = .done () middle ∧
        (do let place ← Action.require .badAddress (address.advance? count)
            locate pid place true) middle = .failed error after := by
  have failsEarly (chunk : Chunk) (middle : Machine)
      (failed : writeChunk pid address data chunk middle = .failed error after) :
      writeChunk pid address data ⟨chunk.done, 1⟩ middle = .failed error after := by
    rw [writeChunk_eq_failed_iff, locateChunk_size]
    exact writeChunk_eq_failed_iff.1 failed
  rw [writeUser, (divisible_writeChunk pid address data).split_eq_failed_iff
    address.offset_lt_pageSize failsEarly]
  simp only [address.offset_add_mod, writeChunk_eq_failed_iff, locateChunk]
  apply exists_congr
  intro count
  apply exists_congr
  intro middle
  apply and_congr_right
  intro below
  rw [writeUser_extract pid address (Nat.le_of_lt below)]

/-- A read that fails has read the bytes up to a boundary between pages, or none, and then failed to
access the byte there. -/
theorem readUser_eq_failed_iff {length : Nat} {error : Errno} {before after : UserRead} :
    readUser pid address length before = .failed error after ↔
      ∃ count middle, count < length ∧
        (count = 0 ∨ (address.toNat + count) % pageSize = 0) ∧
        readUser pid address count before = .done () middle ∧
        (do let place ← Action.require .badAddress (address.advance? count)
            locate pid place false) middle.machine = .failed error after.machine ∧
        after.bytes = middle.bytes := by
  have failsEarly (chunk : Chunk) (middle : UserRead)
      (failed : readChunk pid address chunk middle = .failed error after) :
      readChunk pid address ⟨chunk.done, 1⟩ middle = .failed error after := by
    rw [readChunk_eq_failed_iff, locateChunk_size]
    exact readChunk_eq_failed_iff.1 failed
  rw [readUser, (divisible_readChunk pid address).split_eq_failed_iff
    address.offset_lt_pageSize failsEarly]
  simp only [address.offset_add_mod, readChunk_eq_failed_iff, locateChunk, readUser_eq_forM]

/-- A run of bytes is copied as it would be with one call for each byte: with the same result, bytes
and system, whatever faults, evictions and errors happen on the way. So a run may be divided into
two calls anywhere. A copy that fails has moved the bytes up to a boundary between pages, or none,
and then failed to access the byte there. -/
theorem chunked_access_is_bytewise (pid : Pid) (address : VirtAddr) :
    (∀ data, writeUser pid address data = writeBytewise pid address data) ∧
      (∀ length, readUser pid address length = readBytewise pid address length) ∧
      (∀ left right, writeUser pid address (left ++ right) =
        (do writeUser pid address left
            writeRest pid address left.size right)) ∧
      (∀ first rest, readUser pid address (first + rest) =
        (do readUser pid address first
            readRest pid address first rest)) ∧
      (∀ data before error after, writeUser pid address data before = .failed error after ↔
        ∃ count middle, count < data.size ∧
          (count = 0 ∨ (address.toNat + count) % pageSize = 0) ∧
          writeUser pid address (data.extract 0 count) before = .done () middle ∧
          (do let place ← Action.require .badAddress (address.advance? count)
              locate pid place true) middle = .failed error after) ∧
      ∀ length before error after, readUser pid address length before = .failed error after ↔
        ∃ count middle piece, count < length ∧
          (count = 0 ∨ (address.toNat + count) % pageSize = 0) ∧
          readUser pid address count before = .done () middle ∧
          (do let place ← Action.require .badAddress (address.advance? count)
              locate pid place false) middle.machine = .failed error after.machine ∧
          piece.size = count ∧ middle.bytes = before.bytes ++ piece ∧
          after.bytes = before.bytes ++ piece := by
  refine ⟨writeUser_eq_writeBytewise pid address, readUser_eq_readBytewise pid address,
    writeUser_append pid address, readUser_add pid address,
    fun data before error after => writeUser_eq_failed_iff, ?_⟩
  intro length before error after
  rw [readUser_eq_failed_iff]
  apply exists_congr
  intro count
  apply exists_congr
  intro middle
  constructor
  · intro fails
    obtain ⟨below, boundary, ran, stopped, kept⟩ := fails
    obtain ⟨piece, bytes, size⟩ := exists_bytes_of_readUser ran
    exact ⟨piece, below, boundary, ran, stopped, size, bytes, kept.trans bytes⟩
  · intro fails
    obtain ⟨piece, below, boundary, ran, stopped, -, bytes, all⟩ := fails
    exact ⟨below, boundary, ran, stopped, all.trans bytes.symm⟩

end Machine

end DemandPaging
