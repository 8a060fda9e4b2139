import DemandPaging.Machine.UserAccess
import DemandPaging.Proofs.Registration

/-!
The steps of an access to the memory of a process.

Owns:
- `Machine.Accessible`, when an access of the processor succeeds, and `Machine.Reaches`, where it
  leads;
- the steps of reading and writing the memory of a process, chunk by chunk.

Does not own: the bytes that are read (`Machine.contents?`).

Main statements: `ends_access`, an access succeeds exactly when the page is in memory and allows it,
`ends_fetchChunk` and `ends_writeChunk`.
-/

namespace DemandPaging

/-- Anonymous pages of one process may be registered, bytes of its pages may be accessed, and any
page may move. -/
def Move.Accesses (pid : Pid) (write : Bool) (move : Move) : Prop :=
  move.Registers pid ∨ ∃ address, move = .access pid address write

/-- Pages of one process may also be written. -/
def Move.Writes (pid : Pid) (move : Move) : Prop :=
  move.Accesses pid true ∨ ∃ address kind, move = .overwrite pid address kind

theorem Move.not_accesses_overwrite {pid other : Pid} {write : Bool} (address : VirtAddr)
    (kind : PageKind) : ¬Move.Accesses pid write (.overwrite other address kind) := by
  intro accesses
  rcases accesses with registers | ⟨_, same⟩
  · exact Move.not_registers_overwrite address kind registers
  · cases same

theorem Move.not_accesses_remove {pid other : Pid} {write : Bool} (address : VirtAddr)
    (kind : PageKind) : ¬Move.Accesses pid write (.remove other address kind) := by
  intro accesses
  rcases accesses with registers | ⟨_, same⟩
  · exact Move.not_registers_remove address kind registers
  · cases same

theorem Move.not_writes_remove {pid other : Pid} (address : VirtAddr) (kind : PageKind) :
    ¬Move.Writes pid (.remove other address kind) := by
  intro writes
  rcases writes with accesses | ⟨_, _, same⟩
  · exact Move.not_accesses_remove address kind accesses
  · cases same

namespace Machine

open DemandPaging.Action (Takes)

variable {before after : Machine} {pid : Pid} {address : VirtAddr} {write : Bool}
  {location : Location}

/-- The page that holds an address is in memory and allows the access. -/
def Accessible (machine : Machine) (pid : Pid) (address : VirtAddr) (write : Bool) : Prop :=
  ∃ page, machine.page? pid address.pageDown = some page ∧ page.frame.isSome = true ∧
    (write = true → page.writable = true)

/-- A location is that of the byte at an address of a process. -/
structure Reaches (machine : Machine) (pid : Pid) (address : VirtAddr) (write : Bool)
    (location : Location) : Prop where
  owner : machine.resident.owner? location.frame = some ⟨pid, address.pageDown⟩
  offset : location.offset = address.offset
  accessible : machine.Accessible pid address write

/-- An access changes marks only, and it does so only if the page is in memory and allows it. It is
answered by where it leads then, and by a fault code otherwise. -/
theorem ends_access (sound : before.Sound) (pid : Pid) (address : VirtAddr) (write : Bool) :
    (access pid address write before).Ends
      (fun answer after => after = { before with spaces := after.spaces } ∧
        match answer with
        | .ok location => Step (.access pid address write) before after ∧
            before.Reaches pid address write location
        | .error code => after = before ∧ ¬before.Accessible pid address write ∧
            code.write = write ∧ code.user = true)
      (fun error after => error = .noSuchEntry ∧ before.spaces[pid]? = none ∧ after = before)
      (fun _ => False) := by
  simp only [access, space, setSpace, Action.ends_bind, Action.ends_require, Action.ends_modify,
    Action.ends_pure]
  refine ⟨fun space found => ⟨trivial, ?_⟩, fun missing => ⟨trivial, missing, trivial⟩⟩
  have sound' := (sound.frames.spaces pid space found).1
  have lookup := page?_of_space found address.pageDown
  cases viewed : space.table.view? address.pageDown with
  | none =>
      rw [PageTable.access_of_unmapped write viewed]
      refine ⟨congrArg (fun spaces => { before with spaces }) (insert_space found), ?_, rfl, rfl⟩
      intro accessible
      obtain ⟨page, registered, resident, -⟩ := accessible
      obtain ⟨frame, held⟩ := Option.isSome_iff_exists.1 resident
      rw [lookup] at registered
      have located := (sound'.located _ _ registered).1
      rw [← located] at registered viewed
      obtain ⟨view, found', -⟩ := sound'.view?_of_resident registered held
      rw [viewed] at found'
      cases found'
  | some view =>
      obtain ⟨page, frame, registered, held, leads, permits⟩ := sound'.exists_page_of_view? viewed
      have known := lookup.trans registered
      by_cases allowed : write = true → view.writable = true
      · obtain ⟨marked, accessed, -⟩ := PageTable.access_of_mapped viewed leads allowed
        rw [accessed]
        refine ⟨.access found accessed, sound.frames.owner?_of_held known held, rfl, page, known,
          ?_, ?_⟩
        · rw [held]
          rfl
        · rw [← permits]
          exact allowed
      · obtain ⟨rfl, readOnly⟩ := Classical.not_imp.1 allowed
        rw [PageTable.access_of_protected viewed (by simpa using readOnly)]
        refine ⟨congrArg (fun spaces => { before with spaces }) (insert_space found), ?_, rfl, rfl⟩
        intro accessible
        obtain ⟨other, registered', -, permitted⟩ := accessible
        rw [known] at registered'
        cases registered'
        rw [permits] at readOnly
        exact readOnly (permitted rfl)

/-- An access keeps every page where it was, so it leads where it led before. -/
theorem Reaches.of_access {place : VirtAddr} {mode : Bool}
    (reaches : before.Reaches pid address write location)
    (step : Step (.access pid place mode) before after) :
    after.Reaches pid address write location := by
  obtain ⟨page, registered, permitted⟩ := reaches.accessible
  cases step with
  | access found =>
      refine ⟨reaches.owner, reaches.offset, page, ?_, permitted⟩
      exact (page?_keep found rfl (by rfl) pid address.pageDown).trans registered

/-- An access is answered after its fault was handled, if it faulted. -/
theorem ends_locate (sound : before.Sound) (pid : Pid) (address : VirtAddr) (write : Bool) :
    (locate pid address write before).Ends
      (fun location after => ∃ handled, Path (Move.Registers pid) before handled ∧
        Step (.access pid address write) handled after ∧
        after.Reaches pid address write location)
      (fun _ after => Path (Move.Registers pid) before after)
      (fun fault => fault.isCorruption = false) := by
  simp only [locate, Action.ends_bind, space, Action.ends_require]
  refine ⟨fun target found => ?_, fun _ => .refl before⟩
  refine (ends_access sound pid address write).imp ?_ ?_ (fun _ no => no.elim)
  · intro answer touched result
    obtain ⟨-, result⟩ := result
    cases answer with
    | ok location => exact ⟨before, .refl before, result.1, result.2.of_access result.1⟩
    | error code =>
        rw [result.1]
        simp only [Action.ends_bind]
        refine ((takes_handleFault pid _).ends before sound).imp ?_ (fun _ _ path => path)
          (fun _ stopped => stopped)
        intro _ handled path
        refine (ends_access (path.sound sound) pid address write).imp ?_ ?_ (fun _ no => no.elim)
        · intro answer after result
          obtain ⟨-, result⟩ := result
          cases answer with
          | ok location => exact ⟨handled, path, result.1, result.2.of_access result.1⟩
          | error _ =>
              rw [result.1]
              exact path
        · intro _ after result
          rw [result.2.2]
          exact path
  · intro _ after result
    rw [result.2.2]
    exact .refl before

/-- The bytes of a page that is accessed are those of a frame of the pool. -/
theorem Reaches.exists_contents? (reaches : before.Reaches pid address write location)
    (sound : before.Sound) : ∃ bytes, before.resident.contents? location.frame = some bytes :=
  Option.isSome_iff_exists.1
    (sound.frames.resident.contents?_isSome reaches.owner)

/-! ## Chunks -/

theorem ends_locateChunk (sound : before.Sound) (pid : Pid) (address : VirtAddr) (write : Bool)
    (chunk : Chunk) :
    (locateChunk pid address write chunk before).Ends
      (fun location after => ∃ place handled, address.advance? chunk.done = some place ∧
        Path (Move.Registers pid) before handled ∧
        Step (.access pid place write) handled after ∧
        after.Reaches pid place write location)
      (fun _ after => Path (Move.Registers pid) before after)
      (fun fault => fault.isCorruption = false) := by
  simp only [locateChunk, Action.ends_bind, Action.ends_require]
  refine ⟨fun place advanced => ?_, fun _ => .refl before⟩
  refine (ends_locate sound pid place write).imp ?_ (fun _ _ path => path)
    (fun _ stopped => stopped)
  intro location after result
  obtain ⟨handled, result⟩ := result
  exact ⟨place, handled, advanced, result⟩

/-- What is fetched is part of the frame to which the first byte of the chunk leads. -/
theorem ends_fetchChunk (sound : before.Sound) (pid : Pid) (address : VirtAddr) (chunk : Chunk) :
    (fetchChunk pid address chunk before).Ends
      (fun piece after => Path (Move.Accesses pid false) before after ∧
        ∃ place location bytes, address.advance? chunk.done = some place ∧
          after.Reaches pid place false location ∧
          after.resident.contents? location.frame = some bytes ∧
          piece = bytes.slice location.offset chunk.size)
      (fun _ after => Path (Move.Accesses pid false) before after)
      (fun fault => fault.isCorruption = false) := by
  simp only [fetchChunk, Action.ends_bind, Action.ends_get, Action.ends_orHalt, Action.ends_pure]
  refine (ends_locateChunk sound pid address false chunk).imp ?_
    (fun _ _ path => path.mono fun _ registers => .inl registers) (fun _ stopped => stopped)
  intro location after result
  obtain ⟨place, handled, advanced, path, step, reaches⟩ := result
  have toAfter : Path (Move.Accesses pid false) before after :=
    (path.mono fun _ registers => .inl registers).snoc step (.inr ⟨place, rfl⟩)
  obtain ⟨bytes, contents⟩ := reaches.exists_contents? (toAfter.sound sound)
  have read := ResidentSet.read_eq_ok_iff.2 contents
  refine Action.of_result_eq_ok read ?_
  exact ⟨toAfter, place, location, bytes, advanced, reaches, contents, rfl⟩

/-- A page of a process is in memory and may be written, and part of its bytes is replaced by a
chunk of a run. -/
structure Stored (pid : Pid) (address : VirtAddr) (data : Array UInt8) (chunk : Chunk)
    (place : VirtAddr) (location : Location) (bytes : PageData) (before after : Machine) :
    Prop where
  advanced : address.advance? chunk.done = some place
  reaches : before.Reaches pid place true location
  contents : before.resident.contents? location.frame = some bytes
  written : ∃ resident, before.resident.write location.frame (bytes.overlay location.offset
      (data.extract chunk.done (chunk.done + chunk.size))) = .ok resident ∧
    after = { before with resident }

theorem Stored.page? {data : Array UInt8} {chunk : Chunk} {place : VirtAddr} {bytes : PageData}
    (stored : Stored pid address data chunk place location bytes before after) (other : Pid)
    (target : VirtAddr) : after.page? other target = before.page? other target := by
  obtain ⟨resident, -, rfl⟩ := stored.written
  rfl

/-- The page that is written is known, and writing it is a step. -/
theorem Stored.step {data : Array UInt8} {chunk : Chunk} {place : VirtAddr} {bytes : PageData}
    (stored : Stored pid address data chunk place location bytes before after) :
    ∃ page, before.page? pid place.pageDown = some page ∧
      Step (.overwrite pid place.pageDown page.kind) before after := by
  obtain ⟨resident, written, rfl⟩ := stored.written
  obtain ⟨page, registered, -⟩ := stored.reaches.accessible
  exact ⟨page, registered, .overwrite stored.reaches.owner registered written⟩

/-- What is stored goes to the frame to which the first byte of the chunk leads. -/
theorem ends_writeChunk (sound : before.Sound) (pid : Pid) (address : VirtAddr)
    (data : Array UInt8) (chunk : Chunk) :
    (writeChunk pid address data chunk before).Ends
      (fun _ after => ∃ handled middle place location bytes,
        Path (Move.Registers pid) before handled ∧
        Step (.access pid place true) handled middle ∧
        Stored pid address data chunk place location bytes middle after)
      (fun _ after => Path (Move.Registers pid) before after)
      (fun fault => fault.isCorruption = false) := by
  simp only [writeChunk, Action.ends_bind, Action.ends_get, Action.ends_orHalt, setResident,
    Action.ends_modify]
  refine (ends_locateChunk sound pid address true chunk).imp ?_ (fun _ _ path => path)
    (fun _ stopped => stopped)
  intro location middle result
  obtain ⟨place, handled, advanced, path, step, reaches⟩ := result
  obtain ⟨bytes, contents⟩ := reaches.exists_contents? (step.sound (path.sound sound))
  have read := ResidentSet.read_eq_ok_iff.2 contents
  refine Action.of_result_eq_ok read ?_
  obtain ⟨resident, written⟩ := ResidentSet.exists_write_eq_ok
    (show (middle.resident.contents? location.frame).isSome = true by rw [contents]; rfl)
    (bytes.overlay location.offset (data.extract chunk.done (chunk.done + chunk.size)))
  refine Action.of_result_eq_ok written ?_
  exact ⟨handled, middle, place, location, bytes, path, step, advanced, reaches, contents,
    resident, written, rfl⟩

/-! ## Runs of bytes -/

theorem takes_writeChunk (pid : Pid) (address : VirtAddr) (data : Array UInt8) (chunk : Chunk) :
    (writeChunk pid address data chunk).Takes (Move.Writes pid) := by
  refine ⟨fun before sound => ?_⟩
  refine (ends_writeChunk sound pid address data chunk).imp ?_
    (fun _ _ path => path.mono fun _ registers => .inl (.inl registers)) (fun _ stopped => stopped)
  intro _ after result
  obtain ⟨handled, middle, place, location, bytes, path, step, stored⟩ := result
  obtain ⟨page, -, overwrites⟩ := stored.step
  refine Path.snoc (Path.snoc ?_ step (.inl (.inr ⟨place, rfl⟩))) overwrites (.inr ⟨_, _, rfl⟩)
  exact path.mono fun _ registers => .inl (.inl registers)

theorem takes_writeUser (pid : Pid) (address : VirtAddr) (data : Array UInt8) :
    (writeUser pid address data).Takes (Move.Writes pid) :=
  Takes.forM (takes_writeChunk pid address data) _

theorem ends_readUser (sound : before.Sound) (pid : Pid) (address : VirtAddr) (length : Nat) :
    (readUser pid address length ⟨before, #[]⟩).Ends
      (fun _ after => Path (Move.Accesses pid false) before after.machine)
      (fun _ after => Path (Move.Accesses pid false) before after.machine)
      (fun fault => fault.isCorruption = false) := by
  unfold readUser
  apply Action.ends_forM fun (_ : List Chunk) (state : UserRead) =>
    Path (Move.Accesses pid false) before state.machine
  · intro chunk rest state path
    simp only [readChunk, Action.ends_bind, Action.ends_onPart, Action.ends_modify]
    exact (ends_fetchChunk (path.sound sound) pid address chunk).imp
      (fun _ _ result => path.trans result.1) (fun _ _ more => path.trans more)
      (fun _ stopped => stopped)
  · exact .refl before

end Machine

end DemandPaging
