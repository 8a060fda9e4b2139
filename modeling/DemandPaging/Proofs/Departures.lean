import DemandPaging.Proofs.FilePages
import DemandPaging.Proofs.Reachable

/-!
How often a file is written while its pages are mapped.

Owns:
- `Departures`, steps along which a number of dirty pages of a file leave memory, and
  `Machine.Departed`, a run of events along such steps;
- `Event.Spares`, an event leaves alone what a file holds.

Does not own: which bytes are written (`Machine.Represents`).

Main statement: `Reachable.writes_of_run`, a file that nobody else changes is written once for every
dirty page of it that leaves memory.
-/

namespace DemandPaging

open Machine

/-- Allowed steps along which a number of dirty pages of a file leave memory. -/
inductive Departures (allowed : Move → Prop) (file : FileId) : Nat → Machine → Machine → Prop where
  | refl (machine : Machine) : Departures allowed file 0 machine machine
  /-- A dirty page of the file leaves memory. -/
  | counted {count : Nat} {before middle after : Machine} {move : Move} {pid : Pid} {page : Page}
      {region : FileRegion} {frame : PhysAddr} {contents : PageData}
      (earlier : Departures allowed file count before middle) (allow : allowed move)
      (step : Step move middle after)
      (writesBack : middle.WritesBack move file pid page region frame contents) :
      Departures allowed file (count + 1) before after
  | other {count : Nat} {before middle after : Machine} {move : Move}
      (earlier : Departures allowed file count before middle) (allow : allowed move)
      (step : Step move middle after)
      (none : ∀ pid page region frame contents,
        ¬middle.WritesBack move file pid page region frame contents) :
      Departures allowed file count before after

section

variable {allowed : Move → Prop} {file : FileId} {count : Nat} {before after : Machine}

theorem Path.exists_departures (path : Path allowed before after) (file : FileId) :
    ∃ count, Departures allowed file count before after := by
  induction path with
  | refl => exact ⟨0, .refl before⟩
  | @tail middle _ _ step inductionHypothesis =>
      obtain ⟨count, earlier⟩ := inductionHypothesis
      obtain ⟨move, allow, stepped⟩ := step
      rcases Classical.em (∃ pid page region frame contents,
          middle.WritesBack move file pid page region frame contents) with departing | departing
      · obtain ⟨pid, page, region, frame, contents, writesBack⟩ := departing
        exact ⟨count + 1, earlier.counted allow stepped writesBack⟩
      · refine ⟨count, earlier.other allow stepped fun pid page region frame contents also => ?_⟩
        exact departing ⟨pid, page, region, frame, contents, also⟩

/-- Where files are not changed from outside, every write of a file is a departure. -/
theorem Departures.writes_eq {bytes : Array UInt8}
    (departures : Departures allowed file count before after) (sound : before.Sound)
    (inside : ¬allowed .outside)
    (stored : before.store.files.bytes? file = some bytes) :
    after.Sound ∧ (∃ bytes, after.store.files.bytes? file = some bytes) ∧
      after.store.files.writes file = before.store.files.writes file + count := by
  induction departures with
  | refl => exact ⟨sound, ⟨bytes, stored⟩, rfl⟩
  | counted earlier allow step writesBack inductionHypothesis =>
      obtain ⟨soundMiddle, ⟨bytesMiddle, storedMiddle⟩, writes⟩ := inductionHypothesis sound stored
      have insideHere : _ ≠ Move.outside := fun same => inside (same ▸ allow)
      refine ⟨step.sound soundMiddle, ?_⟩
      rcases step.bytes?_cases soundMiddle.frames insideHere storedMiddle with
        ⟨-, -, none⟩ | ⟨_, _, _, _, _, -, laid, more⟩
      · exact absurd writesBack (none _ _ _ _ _)
      · exact ⟨⟨_, laid⟩, by rw [more, writes, Nat.add_assoc]⟩
  | other earlier allow step none inductionHypothesis =>
      obtain ⟨soundMiddle, ⟨bytesMiddle, storedMiddle⟩, writes⟩ := inductionHypothesis sound stored
      have insideHere : _ ≠ Move.outside := fun same => inside (same ▸ allow)
      refine ⟨step.sound soundMiddle, ?_⟩
      rcases step.bytes?_cases soundMiddle.frames insideHere storedMiddle with
        ⟨same, still, -⟩ | ⟨pid, page, region, frame, contents, writesBack, -⟩
      · exact ⟨⟨_, same⟩, still.trans writes⟩
      · exact absurd writesBack (none pid page region frame contents)

/-- No page leaves memory by a change from outside. -/
theorem Departures.eq_zero (departures : Departures allowed file count before after)
    (outside : ∀ move, allowed move → move = .outside) : count = 0 := by
  induction departures with
  | refl => rfl
  | counted _ allow _ writesBack =>
      rcases writesBack.leaves with rfl | rfl <;> cases outside _ allow
  | other _ _ _ _ inductionHypothesis => exact inductionHypothesis

end

/-! ## Events -/

namespace Event

variable {event : Event} {before after : Machine} {file : FileId} {next : Nat}

/-- Files, the disk or the world are changed from outside. -/
def IsOutside : Event → Prop
  | changeDisk _ _ | changeFiles _ | changeWorld _ => True
  | _ => False

/-- An event leaves alone the bytes of a file and the count of its writes, if it changes files from
outside. Their handles may change, and whether they can be read and written. -/
def Spares (event : Event) (file : FileId) : Prop :=
  match event with
  | changeFiles change => ∀ inode,
    (change file inode).storage = inode.storage ∧ (change file inode).writes = inode.writes
  | _ => True

theorem not_allows_outside (inside : ¬event.IsOutside) : ¬event.Allows next .outside := by
  cases event with
  | changeDisk _ _ | changeFiles _ | changeWorld _ => exact absurd trivial inside
  | createProcess | setStackPointer _ _ | access _ _ _ => exact nofun
  | fork _ | exit _ | makeResident _ _ => exact id
  | registerPage _ _ _ _ _ | handleFault _ _ | loadSegment _ _ _ =>
      rintro (unseen | ⟨_, same⟩)
      · exact unseen
      · cases same
  | setUpStack _ =>
      rintro ((unseen | ⟨_, same⟩) | same)
      · exact unseen
      · cases same
      · cases same
  | readUser _ _ _ =>
      rintro ((unseen | ⟨_, same⟩) | ⟨_, same⟩)
      · exact unseen
      · cases same
      · cases same
  | writeUser _ _ _ =>
      rintro (((unseen | ⟨_, same⟩) | ⟨_, same⟩) | ⟨_, _, same⟩)
      · exact unseen
      · cases same
      · cases same
      · cases same
  | mapFile _ _ _ _ _ _ | mmapCall _ _ _ _ _ _ =>
      rintro (same | ⟨_, same⟩)
      · cases same
      · cases same
  | unmapFile _ _ | munmapCall _ _ =>
      rintro ⟨_, same⟩
      cases same

theorem ne_outside_of_allows {move : Move} (inside : ¬event.IsOutside)
    (allow : event.Allows next move) : move ≠ .outside := by
  rintro rfl
  exact not_allows_outside inside allow

theorem eq_outside_of_allows {move : Move} (outside : event.IsOutside)
    (allow : event.Allows next move) : move = .outside := by
  cases event with
  | changeDisk _ _ | changeFiles _ | changeWorld _ => exact allow
  | _ => exact outside.elim

/-- What changes from outside is in the backing store, and a file that is spared keeps its bytes. -/
theorem of_outside (event : Event) (outside : event.IsOutside) (spares : event.Spares file)
    (leaves : (event.perform before).state? = some after) :
    ∃ store, after = { before with store } ∧
      store.files.bytes? file = before.store.files.bytes? file ∧
      store.files.writes file = before.store.files.writes file := by
  cases event with
  | changeDisk _ _ | changeWorld _ =>
      cases leaves
      exact ⟨_, rfl, rfl, rfl⟩
  | changeFiles change =>
      cases leaves
      refine ⟨_, rfl, ?_, ?_⟩
      · simp only [FileStore.bytes?, Array.getElem?_mapIdx]
        cases before.store.files.inodes[file]? with
        | none => rfl
        | some inode => simp only [Option.map_some, Option.bind_some, (spares inode).1]
      · simp only [FileStore.writes, Array.getElem?_mapIdx]
        cases before.store.files.inodes[file]? with
        | none => rfl
        | some inode => simp only [Option.map_some, Option.getD_some, (spares inode).2]
  | _ => exact outside.elim

end Event

namespace Machine

variable {machine last : Machine} {events : List Event} {file : FileId}

/-- A run of events along steps of which a number take a dirty page of a file out of memory. -/
def Departed (file : FileId) : List Event → Machine → Nat → Prop
  | [], _, count => count = 0
  | event :: rest, machine, count => ∃ next first later,
    (event.perform machine).state? = some next ∧
      Departures (event.Allows machine.nextPid) file first machine next ∧
      Departed file rest next later ∧ count = first + later

theorem Reachable.exists_departed (reachable : machine.Reachable)
    (run : machine.after? events = some last) (file : FileId) :
    ∃ count, Departed file events machine count := by
  induction events generalizing machine with
  | nil => exact ⟨0, rfl⟩
  | cons event rest inductionHypothesis =>
      obtain ⟨next, leaves, run⟩ := Option.bind_eq_some_iff.1 run
      obtain ⟨later, departed⟩ := inductionHypothesis (reachable.next event leaves) run
      have leads := Event.leads_of_perform reachable.sound reachable.mappingsWhole leaves
      obtain ⟨first, departures⟩ := leads.path.exists_departures file
      exact ⟨first + later, next, first, later, leaves, departures, departed, rfl⟩

/-- A file that nobody else changes is written once for every dirty page of it that leaves
memory. -/
theorem Reachable.writes_of_run {bytes : Array UInt8} {count : Nat} (reachable : machine.Reachable)
    (run : machine.after? events = some last) (spares : ∀ event ∈ events, event.Spares file)
    (stored : machine.store.files.bytes? file = some bytes)
    (departed : Departed file events machine count) :
    last.store.files.writes file = machine.store.files.writes file + count := by
  induction events generalizing machine bytes count with
  | nil =>
      cases run
      cases departed
      rfl
  | cons event rest inductionHypothesis =>
      obtain ⟨next, leaves, run⟩ := Option.bind_eq_some_iff.1 run
      obtain ⟨_, first, later, also, departures, departed, rfl⟩ := departed
      rw [leaves, Option.some.injEq] at also
      subst also
      have sparesHere := spares event List.mem_cons_self
      have sparesRest := fun other member => spares other (List.mem_cons_of_mem _ member)
      by_cases outside : event.IsOutside
      · obtain ⟨store, rfl, sameBytes, sameWrites⟩ := event.of_outside outside sparesHere leaves
        rw [departures.eq_zero fun move => Event.eq_outside_of_allows outside,
          inductionHypothesis (reachable.next event leaves) run sparesRest
            (sameBytes.trans stored) departed, sameWrites, Nat.zero_add]
      · obtain ⟨-, ⟨_, storedNext⟩, writes⟩ := departures.writes_eq reachable.sound
          (Event.not_allows_outside outside) stored
        rw [inductionHypothesis (reachable.next event leaves) run sparesRest storedNext departed,
          writes, Nat.add_assoc]

end Machine

end DemandPaging
