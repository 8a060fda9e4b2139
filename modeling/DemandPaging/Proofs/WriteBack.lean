import DemandPaging.Proofs.Departures
import DemandPaging.Proofs.FileAccess
import Mathlib.Data.List.Infix

/-!
Mapped files over whole runs.

Owns:
- `Event.overlay` and `Machine.overlay`, the bytes of a file with those laid over them that a run
  stores in its pages, from what was stored alone;
- `Event.written` and `Machine.written`, the pages of files that a run writes;
- `Machine.MappedOnce`, no two mappings of a file are live.

Does not own: what becomes of a file with several mappings at once (`Machine.stores`).

Main statements: `Reachable.represents`, over a whole run the machine represents a file with the
bytes laid over it that were stored, and `Reachable.file_written_back`, a file with one mapping at a
time holds what was stored through it.
-/

namespace DemandPaging

open Machine

/-! ## Events -/

/-- Bytes of a file with those laid over them that an event stores in pages of the file. -/
def Event.overlay (event : Event) (machine : Machine) (file : FileId)
    (contents : Array UInt8) : Array UInt8 :=
  match event with
  | writeUser pid address data =>
    machine.overlaid file pid address data contents
      (copied pid address data (Chunk.split address.offset data.size) machine)
  | _ => contents

/-- The parts of files behind the pages that an event writes. -/
def Event.written (event : Event) (machine : Machine) : List FileRegion :=
  match event with
  | writeUser pid address data =>
    (List.range (copied pid address data (Chunk.split address.offset data.size) machine)).filterMap
      fun index => (address.advance? index).bind fun place => machine.region? pid place.pageDown
  | access pid address true =>
    match Machine.access pid address true machine with
    | .done (.ok _) _ => (machine.region? pid address.pageDown).toList
    | _ => []
  | _ => []

theorem Event.size_overlay (event : Event) (machine : Machine) (file : FileId)
    (contents : Array UInt8) : (event.overlay machine file contents).size = contents.size := by
  cases event with
  | writeUser pid address data => exact size_overlaid ..
  | _ => rfl

namespace Move

variable {move : Move} {pid : Pid}

theorem Concerns.isQuiet (concerns : move.Concerns pid) : move.IsQuiet := by
  cases move with
  | outside => exact concerns
  | access _ _ _ => exact concerns.elim
  | overwrite _ _ _ => exact concerns.2
  | _ => trivial

theorem Exits.isQuiet (exits : move.Exits pid) : move.IsQuiet := exits.concerns.isQuiet

theorem Maps.isQuiet (maps : move.Maps pid) : move.IsQuiet := by
  rcases maps with rfl | ⟨_, rfl⟩
  · trivial
  · trivial

theorem Unmaps.isQuiet (unmaps : move.Unmaps pid) : move.IsQuiet := by
  obtain ⟨_, rfl⟩ := unmaps
  trivial

theorem IsUnseen.isQuiet (unseen : move.IsUnseen) : move.IsQuiet :=
  Registers.isQuiet (unseen.registers ⟨0⟩)

end Move

namespace Machine

variable {before machine : Machine} {file : FileId} {writer : FileRegion → Prop}
  {contents intended : Array UInt8}

theorem Represents.of_bytes?_eq {store : BackingStore}
    (represents : before.Represents file writer intended)
    (same : store.files.bytes? file = before.store.files.bytes? file) :
    ({ before with store } : Machine).Represents file writer intended := by
  obtain ⟨bytes, stored, size, agrees⟩ := represents.stored
  refine ⟨⟨bytes, same.trans stored, size, fun position clean => ?_⟩, ?_, ?_⟩
  · exact agrees position fun pid address region ofFile =>
      clean pid address region (ofFile.of_region?_eq rfl)
  · intro pid address region frame held ofFile
    exact represents.held pid address region frame held (ofFile.of_region?_eq rfl)
  · intro pid address region ofFile
    exact represents.written pid address region (ofFile.of_region?_eq rfl)

end Machine

/-- An event that brings pages of files into memory makes and removes no mapping. -/
theorem Event.keepsMappings_or (event : Event) (next : Nat) :
    (∀ move, event.Allows next move → ∀ pid, move.KeepsMappings pid) ∨
      ∀ pid address frame first, ¬event.Allows next (.pageIn pid address frame .file first) := by
  cases event with
  | createProcess | setStackPointer _ _ | access _ _ _
  | changeDisk _ _ | changeFiles _ | changeWorld _ =>
      exact .inr nofun
  | exit _ => exact .inr fun _ _ _ _ => id
  | fork _ =>
      refine .inr fun pid address frame first concerns => ?_
      cases concerns.1
  | mapFile _ _ _ _ _ _ | mmapCall _ _ _ _ _ _ =>
      refine .inr ?_
      rintro pid address frame first (same | ⟨_, same⟩)
      · cases same
      · cases same
  | unmapFile _ _ | munmapCall _ _ =>
      refine .inr ?_
      rintro pid address frame first ⟨_, same⟩
      cases same
  | registerPage _ _ _ _ _ | handleFault _ _ | loadSegment _ _ _ =>
      exact .inl fun _ => Move.Registers.keepsMappings
  | makeResident _ _ => exact .inl fun _ => Move.IsUnseen.keepsMappings
  | setUpStack _ =>
      refine .inl ?_
      rintro _ (registers | rfl)
      · exact Move.Registers.keepsMappings registers
      · exact fun _ _ => ⟨nofun, nofun⟩
  | readUser _ _ _ => exact .inl fun _ => Move.Accesses.keepsMappings
  | writeUser _ _ _ => exact .inl fun _ => Move.Writes.keepsMappings

/-- Whichever way an event ends, the machine represents the bytes of a file with those laid over
them that the event stored. -/
theorem Event.represents {event : Event} {before after : Machine} {file : FileId}
    {writer : FileRegion → Prop} {contents : Array UInt8} (sound : before.Sound)
    (whole : ∀ pid, before.MappingsWhole pid)
    (leaves : (event.perform before).state? = some after) (apart : before.Apart file writer)
    (spares : event.Spares file) (writes : ∀ region ∈ event.written before, writer region)
    (represents : before.Represents file writer contents) :
    after.Represents file writer (event.overlay before file contents) := by
  have quietly (quiet : ∀ move, event.Allows before.nextPid move → move.IsQuiet) :
      after.Represents file writer contents := by
    have path := (leads_of_perform sound whole leaves).path
    rcases event.keepsMappings_or before.nextPid with keeps | absent
    · exact path.represents sound whole apart represents quiet keeps
    · exact path.represents_of_absent sound represents quiet absent
  cases event with
  | createProcess | setStackPointer _ _ =>
      refine quietly ?_
      rintro _ rfl
      trivial
  | fork _ => exact quietly fun _ => Move.Concerns.isQuiet
  | exit _ => exact quietly fun _ => Move.Exits.isQuiet
  | mapFile _ _ _ _ _ _ | mmapCall _ _ _ _ _ _ => exact quietly fun _ => Move.Maps.isQuiet
  | unmapFile _ _ | munmapCall _ _ => exact quietly fun _ => Move.Unmaps.isQuiet
  | registerPage _ _ _ _ _ | handleFault _ _ | loadSegment _ _ _ =>
      exact quietly fun _ => Move.Registers.isQuiet
  | makeResident _ _ => exact quietly fun _ => Move.IsUnseen.isQuiet
  | setUpStack _ =>
      refine quietly ?_
      rintro _ (registers | rfl)
      · exact Move.Registers.isQuiet registers
      · trivial
  | readUser _ _ _ => exact quietly fun _ => Move.Accesses.isQuiet
  | writeUser pid address data =>
      have ends := ends_writeUser_file sound whole apart represents pid address data
        fun index place region inside advanced ofFile => by
          refine writes region (List.mem_filterMap.2 ⟨index, List.mem_range.2 inside, ?_⟩)
          rw [advanced]
          exact ofFile.region?
      exact ends.leaves (fun _ _ written => written) (fun _ _ written => written) after leaves
  | access pid address write =>
      have ends := ends_access sound pid address write
      replace leaves : ((Machine.access pid address write >>= fun _ => pure ()) before).state? =
        some after := leaves
      rw [Action.bind_apply] at leaves
      cases outcome : Machine.access pid address write before with
      | done answer next =>
          rw [outcome] at ends leaves
          cases leaves
          obtain ⟨-, result⟩ := ends
          cases answer with
          | error code =>
              rw [result.1]
              exact represents
          | ok location =>
              refine result.1.represents sound represents ⟨nofun, nofun, ?_, nofun⟩
              intro other place region same ofFile
              cases same
              refine writes region ?_
              rw [written, outcome]
              exact Option.mem_toList.2 ofFile.region?
      | failed error next =>
          rw [outcome] at ends leaves
          cases leaves
          rw [ends.2.2]
          exact represents
      | halted fault =>
          rw [outcome] at leaves
          cases leaves
  | changeDisk unreadable unwritable =>
      obtain ⟨store, rfl, sameBytes, -⟩ := (changeDisk unreadable unwritable).of_outside trivial
        spares leaves
      exact represents.of_bytes?_eq sameBytes
  | changeFiles change =>
      obtain ⟨store, rfl, sameBytes, -⟩ := (changeFiles change).of_outside trivial spares leaves
      exact represents.of_bytes?_eq sameBytes
  | changeWorld world =>
      obtain ⟨store, rfl, sameBytes, -⟩ := (changeWorld world).of_outside trivial spares leaves
      exact represents.of_bytes?_eq sameBytes

/-! ## Runs -/

namespace Machine

variable {machine last : Machine} {events : List Event} {file : FileId}
  {writer : FileRegion → Prop} {contents : Array UInt8}

/-- Bytes of a file with those laid over them that a run of events stores in pages of the file. -/
def overlay (file : FileId) : List Event → Machine → Array UInt8 → Array UInt8
  | [], _, contents => contents
  | event :: rest, machine, contents =>
    match (event.perform machine).state? with
    | none => contents
    | some next => overlay file rest next (event.overlay machine file contents)

/-- The parts of files behind the pages that a run of events writes. -/
def written : List Event → Machine → List FileRegion
  | [], _ => []
  | event :: rest, machine =>
    event.written machine ++
      match (event.perform machine).state? with
      | none => []
      | some next => written rest next

theorem size_overlay (file : FileId) (events : List Event) (machine : Machine)
    (contents : Array UInt8) : (overlay file events machine contents).size = contents.size := by
  induction events generalizing machine contents with
  | nil => rfl
  | cons event rest inductionHypothesis =>
      rw [overlay]
      split
      · rfl
      · rw [inductionHypothesis, Event.size_overlay]

/-- A run represents the bytes of a file with those laid over them that were stored. -/
theorem Reachable.represents (reachable : machine.Reachable)
    (run : machine.after? events = some last)
    (apart : ∀ past state, past <+: events → machine.after? past = some state →
      state.Apart file writer)
    (spares : ∀ event ∈ events, event.Spares file)
    (writes : ∀ region ∈ written events machine, writer region)
    (represents : machine.Represents file writer contents) :
    last.Represents file writer (overlay file events machine contents) := by
  induction events generalizing machine contents with
  | nil =>
      cases run
      exact represents
  | cons event rest inductionHypothesis =>
      obtain ⟨next, leaves, run⟩ := Option.bind_eq_some_iff.1 run
      rw [written, leaves] at writes
      rw [overlay, leaves]
      apply inductionHypothesis (reachable.next event leaves) run
      · intro past state earlier reached
        refine apart (event :: past) state (List.cons_prefix_cons.2 ⟨rfl, earlier⟩) ?_
        rw [after?, leaves]
        exact reached
      · exact fun other member => spares other (List.mem_cons_of_mem _ member)
      · exact fun region member => writes region (List.mem_append_right _ member)
      · exact Event.represents reachable.sound reachable.mappingsWhole leaves
          (apart [] machine List.nil_prefix rfl) (spares event List.mem_cons_self)
          (fun region member => writes region (List.mem_append_left _ member)) represents

/-! ## Mappings of a file -/

/-- Some page of a file is registered. -/
def Maps (machine : Machine) (file : FileId) : Prop :=
  ∃ pid address region, machine.PageOf file pid address region

/-- No two mappings of a file are live. -/
def MappedOnce (machine : Machine) (file : FileId) : Prop :=
  ∀ pid address region other place found, machine.PageOf file pid address region →
    machine.PageOf file other place found → region.mapping = found.mapping

/-- Different pages of a mapping span different positions of the file. -/
theorem Reachable.eq_of_spans {pid other : Pid} {address place : VirtAddr}
    {region found : FileRegion} {position : Nat} (reachable : machine.Reachable)
    (left : machine.PageOf file pid address region) (right : machine.PageOf file other place found)
    (same : region.mapping = found.mapping) (leftSpans : region.Spans position)
    (rightSpans : found.Spans position) : pid = other ∧ address = place := by
  have samePid := (reachable.sound.apart _ _ _ _ _ _ (mapping?_of_region? left.region?)
    (mapping?_of_region? right.region?) (by rw [same])).1
  subst samePid
  refine ⟨rfl, ?_⟩
  obtain ⟨-, ⟨index, hasPage⟩, offset, length, -, pages⟩ :=
    reachable.mappingsWhole pid address region left.region?
  obtain ⟨-, ⟨index', hasPage'⟩, -⟩ := reachable.mappingsWhole pid place found right.region?
  rw [← same] at hasPage'
  have atAddress := pages index address hasPage
  have atPlace := pages index' place hasPage'
  rw [left.region?, Option.some.injEq] at atAddress
  rw [right.region?, Option.some.injEq] at atPlace
  obtain ⟨byte, -, atPosition⟩ := leftSpans
  obtain ⟨byte', -, atPosition'⟩ := rightSpans
  rw [atAddress] at atPosition
  rw [atPlace] at atPosition'
  have sameIndex : index = index' := by
    have small := byte.isLt
    have small' := byte'.isLt
    simp only [Mapping.regionAt, pageSize] at *
    omega
  subst sameIndex
  apply Address.ext_toNat
  rw [hasPage.2, hasPage'.2]

/-- Pages are apart that are written through one mapping at a time. -/
theorem Reachable.apart_of_mapping_eq (reachable : machine.Reachable)
    (same : ∀ pid address region other place found, machine.PageOf file pid address region →
      machine.PageOf file other place found → writer region → writer found →
      region.mapping = found.mapping) : machine.Apart file writer := by
  intro pid address region other place found position left right leftWrites rightWrites
  exact reachable.eq_of_spans left right
    (same pid address region other place found left right leftWrites rightWrites)

/-- A file that is not mapped is represented by what it stores. -/
theorem represents_of_unmapped (unmapped : ¬machine.Maps file)
    (stored : machine.store.files.bytes? file = some contents) :
    machine.Represents file writer contents := by
  refine ⟨⟨contents, stored, rfl, fun _ _ => rfl⟩, ?_, ?_⟩
  · intro pid address region frame held ofFile
    exact absurd ⟨pid, address, region, ofFile⟩ unmapped
  · intro pid address region ofFile
    exact absurd ⟨pid, address, region, ofFile⟩ unmapped

theorem Represents.bytes?_of_unmapped (represents : machine.Represents file writer contents)
    (unmapped : ¬machine.Maps file) : machine.store.files.bytes? file = some contents := by
  obtain ⟨bytes, stored, -, agrees⟩ := represents.stored
  rw [stored, Option.some.injEq]
  refine Array.ext_getElem? fun position => agrees position fun pid address region ofFile => ?_
  exact absurd ⟨pid, address, region, ofFile⟩ unmapped

/-- Mapped files are written back. As long as a file has one mapping at a time and nobody else
changes it, a run leads to what the file held with the bytes laid over it that were stored through
the mapping. A read of mapped bytes answers these at any time, the file holds them when it is not
mapped any more, and it was written once for every dirty page that left memory. -/
theorem Reachable.file_written_back (reachable : machine.Reachable) (unmapped : ¬machine.Maps file)
    (stored : machine.store.files.bytes? file = some contents)
    (run : machine.after? events = some last)
    (once : ∀ past state, past <+: events → machine.after? past = some state →
      state.MappedOnce file)
    (spares : ∀ event ∈ events, event.Spares file) :
    let intended := overlay file events machine contents
    intended.size = contents.size ∧
    (∀ pid address length bytes after, fetchUser pid address length last = .done bytes after →
      bytes.size = length ∧
      ∀ (place : VirtAddr) position, address.toNat ≤ place.toNat →
        place.toNat < address.toNat + length → last.filePosition? file pid place = some position →
        bytes[place.toNat - address.toNat]? = intended[position]?) ∧
    (¬last.Maps file → last.store.files.bytes? file = some intended) ∧
    (∃ count, Departed file events machine count) ∧
    ∀ count, Departed file events machine count →
      last.store.files.writes file = machine.store.files.writes file + count := by
  have apart : ∀ past state, past <+: events → machine.after? past = some state →
      state.Apart file fun _ => True := by
    intro past state earlier reached
    refine (reachable.of_after? reached).apart_of_mapping_eq ?_
    intro pid address region other place found left right _ _
    exact once past state earlier reached pid address region other place found left right
  have represents := reachable.represents run apart spares (fun _ _ => trivial)
    (represents_of_unmapped unmapped stored)
  have reachableLast := reachable.of_after? run
  refine ⟨size_overlay .., ?_, represents.bytes?_of_unmapped, reachable.exists_departed run file,
    fun count departed => reachable.writes_of_run run spares stored departed⟩
  intro pid address length bytes after fetched
  have ends := ends_readUser_file reachableLast.sound reachableLast.mappingsWhole
    (apart events last (List.prefix_refl _) run) represents pid address length
  unfold fetchUser at fetched
  cases outcome : readUser pid address length { machine := last } with
  | done _ read =>
      rw [outcome] at ends fetched
      cases fetched
      refine ⟨ends.1, fun place position lower upper atPlace => ?_⟩
      obtain ⟨region, ofFile, inside, rfl⟩ := filePosition?_eq_some_iff.1 atPlace
      exact ends.2 place region lower upper ofFile trivial inside
  | failed error read | halted fault =>
      rw [outcome] at fetched
      cases fetched

/-- A machine that made one mapping at most has no second one. -/
theorem Reachable.mappedOnce_of_few (reachable : machine.Reachable)
    (few : machine.store.nextMapping ≤ 1) (file : FileId) : machine.MappedOnce file := by
  intro pid address region other place found left right
  have leftAt := mapping?_of_region? left.region?
  have rightAt := mapping?_of_region? right.region?
  have first {mapping : Mapping} {pid : Pid} {address : VirtAddr}
      (mapped : machine.mapping? pid address = some mapping) : mapping.id = 0 :=
    Nat.lt_one_iff.1 (Nat.lt_of_lt_of_le (reachable.sound.lt_nextMapping mapped) few)
  exact (reachable.sound.apart _ _ _ _ _ _ leftAt rightAt
    ((first leftAt).trans (first rightAt).symm)).2

/-- Without a process no file is mapped. -/
theorem not_maps_of_isEmpty (empty : machine.spaces.isEmpty = true) (file : FileId) :
    ¬machine.Maps file := by
  rintro ⟨pid, address, region, ofFile⟩
  have atAddress := ofFile.region?
  rw [Machine.region?, page?, Std.ExtTreeMap.isEmpty_iff.1 empty] at atAddress
  simp at atAddress

/-- A page of a file is written, driven out, brought in and written again, the last time beyond the
end of the file. -/
def rewriting : List Event :=
  [.createProcess, .mapFile ⟨1⟩ firstPage 3 true 0 0,
    .registerPage ⟨1⟩ secondPage true .normal none, .writeUser ⟨1⟩ firstPage #[1, 2],
    .writeUser ⟨1⟩ secondPage #[4], .readUser ⟨1⟩ firstPage 3,
    .writeUser ⟨1⟩ ⟨0x1002, by decide⟩ #[5, 6], .exit ⟨1⟩]

/-- The file holds what was stored in its three bytes, and a dirty page of it left memory twice. -/
theorem file_written_back_rewriting :
    ∃ last, tinyWithFile.after? rewriting = some last ∧
      last.store.files.bytes? 0 = some #[1, 2, 5] ∧ Departed 0 rewriting tinyWithFile 2 := by
  have runs : ((tinyWithFile.after? rewriting).map fun last =>
      (last.spaces.isEmpty, last.store.files.writes 0)) = some (true, 2) := by decide +kernel
  have few : ∀ past ∈ rewriting.inits, ((tinyWithFile.after? past).all fun state =>
      decide (state.store.nextMapping ≤ 1)) = true := by decide +kernel
  obtain ⟨last, run, ends⟩ := Option.map_eq_some_iff.1 runs
  rw [Prod.mk.injEq] at ends
  obtain ⟨-, -, back, ⟨count, departed⟩, writes⟩ := reachable_tinyWithFile.file_written_back
    (not_maps_of_isEmpty (by decide +kernel) 0) rfl run
    (fun past state earlier reached => by
      have once := few past ((List.mem_inits past rewriting).2 earlier)
      rw [reached, Option.all_some, decide_eq_true_iff] at once
      exact (reachable_tinyWithFile.of_after? reached).mappedOnce_of_few once 0)
    (by simp [rewriting, Event.Spares])
  refine ⟨last, run, ?_, ?_⟩
  · rw [back (not_maps_of_isEmpty ends.1 0)]
    decide +kernel
  · have counted := writes count departed
    rw [ends.2] at counted
    have two : count = 2 := by
      rw [counted]
      exact (Nat.zero_add count).symm
    exact two ▸ departed

end Machine

end DemandPaging
