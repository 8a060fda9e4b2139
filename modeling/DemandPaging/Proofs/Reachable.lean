import DemandPaging.Machine.Run
import DemandPaging.Proofs.Copying

/-!
What holds in every state that a run leads to.

Owns:
- `Event.Allows`, what an event may do to the pages that processes see;
- `Event.ends_perform`, every event is a path of allowed steps, whichever way it ends.

Main statements: `Reachable.sound`, all records agree in every reachable state, and
`Reachable.mappingsWhole`.
-/

namespace DemandPaging

/-- What an event may do to the pages that processes see, given the number of the next process. -/
def Event.Allows (event : Event) (next : Nat) : Move → Prop :=
  match event with
  | createProcess => (· = .arrive ⟨next⟩)
  | fork _ => Move.Concerns ⟨next⟩
  | exit pid => Move.Exits pid
  | registerPage pid _ _ _ _ | handleFault pid _ | loadSegment pid _ _ => Move.Registers pid
  | setUpStack pid => fun move => move.Registers pid ∨ move = .setStackPointer pid
  | makeResident _ _ => Move.IsUnseen
  | readUser pid _ _ => Move.Accesses pid false
  | writeUser pid _ _ => Move.Writes pid
  | mapFile pid _ _ _ _ _ | mmapCall pid _ _ _ _ _ => Move.Maps pid
  | unmapFile pid _ | munmapCall pid _ => Move.Unmaps pid
  | setStackPointer pid _ => (· = .setStackPointer pid)
  | access pid address write => (· = .access pid address write)
  | changeDisk _ _ | changeFiles _ | changeWorld _ => (· = .outside)

namespace Move

variable {move : Move} {pid other : Pid}

theorem Maps.keepsMappings (maps : move.Maps pid) (different : other ≠ pid) :
    move.KeepsMappings other := by
  rcases maps with rfl | ⟨address, rfl⟩
  · exact fun _ => ⟨nofun, nofun⟩
  · intro place
    refine ⟨fun same => ?_, nofun⟩
    cases same
    exact different rfl

theorem Unmaps.keepsMappings (unmaps : move.Unmaps pid) (different : other ≠ pid) :
    move.KeepsMappings other := by
  obtain ⟨address, rfl⟩ := unmaps
  intro place
  refine ⟨nofun, fun same => ?_⟩
  cases same
  exact different rfl

theorem Registers.keepsMappings (registers : move.Registers pid) (other : Pid) :
    move.KeepsMappings other := by
  rcases registers with unseen | ⟨address, rfl⟩
  · exact unseen.keepsMappings other
  · exact fun _ => ⟨nofun, nofun⟩

theorem Accesses.keepsMappings {write : Bool} (accesses : move.Accesses pid write) (other : Pid) :
    move.KeepsMappings other := by
  rcases accesses with registers | ⟨address, rfl⟩
  · exact registers.keepsMappings other
  · exact fun _ => ⟨nofun, nofun⟩

theorem Writes.keepsMappings (writes : move.Writes pid) (other : Pid) :
    move.KeepsMappings other := by
  rcases writes with accesses | ⟨address, kind, rfl⟩
  · exact accesses.keepsMappings other
  · exact fun _ => ⟨nofun, nofun⟩

end Move

namespace Machine

open DemandPaging.Action (Takes)

variable {before after machine : Machine}

/-! ## The first state -/

/-- A machine that was just started keeps no records that could disagree. -/
theorem sound_create (settings : Settings) (frames : Nat) (disk : Disk) (files : FileStore) :
    (create settings (FramePool.create frames) disk files).Sound := by
  have noPage (pid : Pid) (address : VirtAddr) :
      (create settings (FramePool.create frames) disk files).page? pid address = none := by
    simp [create, page?]
  refine ⟨⟨ResidentSet.sound_create frames, ?_, ?_⟩, ⟨?_, ?_, ?_⟩, ?_, ?_⟩
  · intro pid space found
    simp [create] at found
  · intro frame pid address
    rw [frame?, noPage]
    simp [create, ResidentSet.create, ResidentSet.owner?]
  · intro pid address page registered
    rw [noPage] at registered
    cases registered
  · intro slot
    constructor
    · intro occupied
      simp [create, SwapArea.create, SwapArea.isOccupied] at occupied
    · intro recorded
      obtain ⟨pid, address, atAddress⟩ := recorded
      rw [slot?, noPage] at atAddress
      cases atAddress
  · intro slot pid address other place recorded
    rw [slot?, noPage] at recorded
    cases recorded
  · intro pid address page mapping registered
    rw [noPage] at registered
    cases registered
  · intro pid address other place left right leftAt
    rw [mapping?, noPage] at leftAt
    cases leftAt

theorem mappingsWhole_create (settings : Settings) (frames : Nat) (disk : Disk)
    (files : FileStore) (pid : Pid) :
    (create settings (FramePool.create frames) disk files).MappingsWhole pid := by
  intro address region atAddress
  simp [create, region?, page?] at atAddress

/-! ## Events -/

theorem takes_access (pid : Pid) (address : VirtAddr) (write : Bool) :
    (access pid address write).Takes (· = .access pid address write) := by
  refine ⟨fun before sound => (ends_access sound pid address write).imp ?_ ?_ (fun _ no => no.elim)⟩
  · intro answer after result
    cases answer with
    | ok location => exact Path.single result.2.1 rfl
    | error code =>
        rw [result.2.1]
        exact .refl before
  · intro _ after result
    rw [result.2.2]
    exact .refl before

theorem takes_fetchUser (pid : Pid) (address : VirtAddr) (length : Nat) :
    (fetchUser pid address length).Takes (Move.Accesses pid false) := by
  refine ⟨fun before sound => ?_⟩
  have ends := ends_readUser sound pid address length
  unfold fetchUser
  cases outcome : readUser pid address length { machine := before } with
  | done _ read => rw [outcome] at ends; exact ends
  | failed error read => rw [outcome] at ends; exact ends
  | halted fault => rw [outcome] at ends; exact ends

theorem takes_changeDisk (unreadable unwritable : FailingSectors) :
    (changeDisk unreadable unwritable).Takes (· = .outside) :=
  ⟨fun _ _ => Path.single (.outside rfl rfl rfl) rfl⟩

theorem takes_changeFiles (change : FileId → Inode → Inode) :
    (changeFiles change).Takes (· = .outside) :=
  ⟨fun _ _ => Path.single (.outside rfl rfl (by simp)) rfl⟩

theorem takes_changeWorld (world : World) : (changeWorld world).Takes (· = .outside) :=
  ⟨fun _ _ => Path.single (.outside rfl rfl rfl) rfl⟩

/-- Allowed steps led from one state to another, in which every process has all pages of its
mappings. -/
structure Leads (allowed : Move → Prop) (before after : Machine) : Prop where
  path : Path allowed before after
  whole : ∀ pid, after.MappingsWhole pid

theorem Leads.refl {allowed : Move → Prop} (whole : ∀ pid, before.MappingsWhole pid) :
    Leads allowed before before := ⟨.refl before, whole⟩

/-- Where steps are confined to one process, its mappings are the only ones to look after. -/
theorem Leads.of_path {allowed : Move → Prop} {pid : Pid} (sound : before.Sound)
    (whole : ∀ pid, before.MappingsWhole pid) (path : Path allowed before after)
    (keeps : ∀ move, allowed move → ∀ other, other ≠ pid → move.KeepsMappings other)
    (wholeAfter : after.MappingsWhole pid) : Leads allowed before after := by
  refine ⟨path, fun other => ?_⟩
  by_cases same : other = pid
  · rw [same]
    exact wholeAfter
  · exact (whole other).of_path path sound fun move allow => keeps move allow other same

end Machine

namespace Event

open Machine

variable {before after : Machine}

/-- An operation that touches no file page keeps all mappings. -/
theorem ends_of_takes {Value : Type} {action : Action Machine Value} {allowed : Move → Prop}
    (takes : action.Takes allowed) (sound : before.Sound)
    (whole : ∀ pid, before.MappingsWhole pid)
    (keeps : ∀ move, allowed move → ∀ pid, move.KeepsMappings pid) :
    (action before).Ends
      (fun _ after => Leads allowed before after) (fun _ after => Leads allowed before after)
      (fun fault => fault.isCorruption = false) := by
  have leads {after : Machine} (path : Path allowed before after) : Leads allowed before after :=
    ⟨path, fun pid => (whole pid).of_path path sound fun move allow => keeps move allow pid⟩
  exact (takes.ends before sound).imp (fun _ _ => leads) (fun _ _ => leads)
    (fun _ stopped => stopped)

/-- Every event leads along the steps it allows, unless a file, a loader or an overflow stops the
machine. -/
theorem ends_perform (event : Event) (sound : before.Sound)
    (whole : ∀ pid, before.MappingsWhole pid) :
    (event.perform before).Ends
      (fun _ after => Leads (event.Allows before.nextPid) before after)
      (fun _ after => Leads (event.Allows before.nextPid) before after)
      (fun fault => fault.isCorruption = false) := by
  -- An event that touches file pages touches those of one process only, and it keeps the mappings
  -- of that process whole.
  have registers {pid : Pid} (move : Move) (allow : move.Registers pid) (other : Pid) :
      move.KeepsMappings other := allow.keepsMappings other
  have maps {pid : Pid} {after : Machine}
      (result : Path (Move.Maps pid) before after ∧ after.MappingsWhole pid) :
      Leads (Move.Maps pid) before after :=
    .of_path sound whole result.1 (fun _ maps _ => maps.keepsMappings) result.2
  have unmaps {pid : Pid} {after : Machine}
      (result : Path (Move.Unmaps pid) before after ∧ after.MappingsWhole pid) :
      Leads (Move.Unmaps pid) before after :=
    .of_path sound whole result.1 (fun _ unmaps _ => unmaps.keepsMappings) result.2
  cases event with
  | createProcess =>
      show ((Machine.createProcess >>= fun _ => pure ()) before).Ends _ _ _
      rw [Action.ends_bind]
      refine (ends_createProcess before).imp ?_ (fun _ _ no => no.elim) (fun _ stopped => stopped)
      intro pid after result
      obtain ⟨rfl, step, -⟩ := result
      refine ⟨Path.single step rfl, fun pid => (whole pid).congr ?_⟩
      exact region?_of_step step sound.frames fun _ => ⟨nofun, nofun⟩
  | fork parent =>
      show ((Machine.fork parent >>= fun _ => pure ()) before).Ends _ _ _
      rw [Action.ends_bind]
      refine (ends_fork sound whole parent).imp ?_ ?_ (fun _ stopped => stopped)
      · intro child after result
        obtain ⟨rfl, ⟨copies, copying⟩, -, wholeAfter⟩ := result
        exact ⟨copying.path, wholeAfter⟩
      · intro _ after result
        exact ⟨result.1, result.2.2.2⟩
  | exit pid =>
      refine (ends_exit sound pid).imp ?_ (fun _ _ no => no.elim) (fun _ stopped => stopped)
      intro _ after result
      obtain ⟨path, gone⟩ := result
      exact .of_path sound whole path (fun _ exits _ => exits.keepsMappings) (.of_gone gone)
  | registerPage pid address writable marker loader =>
      exact ends_of_takes (takes_registerPage pid address writable marker loader) sound whole
        registers
  | makeResident pid address =>
      exact ends_of_takes (takes_makeResident pid address) sound whole fun _ unseen =>
        unseen.keepsMappings
  | handleFault pid reason =>
      exact ends_of_takes (takes_handleFault pid reason) sound whole registers
  | mapFile pid address length writable file offset =>
      show ((Machine.mapFile pid address length writable file offset >>= fun _ => pure ())
        before).Ends _ _ _
      rw [Action.ends_bind]
      refine (ends_mapFile sound (whole pid) address length writable file offset).imp
        (fun _ _ => maps) ?_ (fun _ stopped => stopped)
      intro _ after same
      rw [same]
      exact .refl whole
  | unmapFile pid address =>
      refine (ends_unmapFile sound (whole pid) address).imp (fun _ _ => unmaps) ?_
        (fun _ stopped => stopped)
      intro _ after same
      rw [same]
      exact .refl whole
  | mmapCall pid word length writable file? offset =>
      show ((Machine.mmapCall pid word length writable file? offset >>= fun _ => pure ())
        before).Ends _ _ _
      rw [Action.ends_bind]
      exact (ends_mmapCall sound (whole pid) word length writable file? offset).imp
        (fun _ _ => maps) (fun _ _ no => no.elim) (fun _ stopped => stopped)
  | munmapCall pid word =>
      show ((Machine.munmapCall pid word >>= fun _ => pure ()) before).Ends _ _ _
      rw [Action.ends_bind]
      exact (ends_munmapCall sound (whole pid) word).imp (fun _ _ => unmaps)
        (fun _ _ no => no.elim) (fun _ stopped => stopped)
  | loadSegment pid file segment =>
      exact ends_of_takes (takes_loadSegment pid file segment) sound whole registers
  | setUpStack pid =>
      refine ends_of_takes ((takes_setUpStack pid).bind fun _ => .pure ()) sound whole ?_
      rintro move (allow | rfl) other
      · exact registers move allow other
      · exact fun _ => ⟨nofun, nofun⟩
  | readUser pid address length =>
      exact ends_of_takes ((takes_fetchUser pid address length).bind fun _ => .pure ()) sound whole
        fun _ accesses => accesses.keepsMappings
  | writeUser pid address data =>
      exact ends_of_takes (takes_writeUser pid address data) sound whole
        fun _ writes => writes.keepsMappings
  | setStackPointer pid stackPointer =>
      refine ends_of_takes (takes_setStackPointer pid stackPointer) sound whole ?_
      rintro _ rfl _
      exact fun _ => ⟨nofun, nofun⟩
  | access pid address write =>
      refine ends_of_takes ((takes_access pid address write).bind fun _ => .pure ()) sound whole ?_
      rintro _ rfl _
      exact fun _ => ⟨nofun, nofun⟩
  | changeDisk unreadable unwritable =>
      refine ends_of_takes (takes_changeDisk unreadable unwritable) sound whole ?_
      rintro _ rfl _
      exact fun _ => ⟨nofun, nofun⟩
  | changeFiles change =>
      refine ends_of_takes (takes_changeFiles change) sound whole ?_
      rintro _ rfl _
      exact fun _ => ⟨nofun, nofun⟩
  | changeWorld world =>
      refine ends_of_takes (takes_changeWorld world) sound whole ?_
      rintro _ rfl _
      exact fun _ => ⟨nofun, nofun⟩

theorem leads_of_perform {event : Event} (sound : before.Sound)
    (whole : ∀ pid, before.MappingsWhole pid)
    (leaves : (event.perform before).state? = some after) :
    Leads (event.Allows before.nextPid) before after := by
  have ends := event.ends_perform sound whole
  exact ends.leaves (fun _ _ leads => leads) (fun _ _ leads => leads) after leaves

end Event

namespace Machine

variable {machine : Machine}

theorem Reachable.invariant (reachable : machine.Reachable) :
    machine.Sound ∧ ∀ pid, machine.MappingsWhole pid := by
  induction reachable with
  | start settings frames disk files =>
      exact ⟨sound_create .., mappingsWhole_create settings frames disk files⟩
  | next _ event leaves inductionHypothesis =>
      obtain ⟨sound, whole⟩ := inductionHypothesis
      have leads := Event.leads_of_perform sound whole leaves
      exact ⟨leads.path.sound sound, leads.whole⟩

/-- What the events of a run keep holds at its end. -/
theorem Reachable.keeps {last : Machine} {events : List Event} (condition : Machine → Prop)
    (reachable : machine.Reachable) (run : machine.after? events = some last)
    (start : condition machine)
    (keep : ∀ event ∈ events, ∀ before after, before.Reachable →
      (event.perform before).state? = some after → condition before → condition after) :
    last.Reachable ∧ condition last := by
  induction events generalizing machine with
  | nil =>
      cases run
      exact ⟨reachable, start⟩
  | cons event rest inductionHypothesis =>
      obtain ⟨next, leaves, run⟩ := Option.bind_eq_some_iff.1 run
      exact inductionHypothesis (reachable.next event leaves) run
        (keep event List.mem_cons_self machine next reachable leaves start)
        fun other listed => keep other (List.mem_cons_of_mem _ listed)

theorem Reachable.of_after? {last : Machine} {events : List Event}
    (reachable : machine.Reachable) (run : machine.after? events = some last) :
    last.Reachable :=
  (reachable.keeps (fun _ => True) run trivial fun _ _ _ _ _ _ _ => trivial).1

theorem Reachable.sound (reachable : machine.Reachable) : machine.Sound := reachable.invariant.1

theorem Reachable.mappingsWhole (reachable : machine.Reachable) (pid : Pid) :
    machine.MappingsWhole pid := reachable.invariant.2 pid

/-! ## A crowded machine -/

/-- A machine with one frame, two slots and no file. -/
def tiny : Machine := create {} (FramePool.create 1) (Disk.create 16) ⟨#[]⟩

theorem reachable_tiny : tiny.Reachable := .start {} 1 (Disk.create 16) ⟨#[]⟩

def firstPage : VirtAddr := ⟨0x1000, by decide⟩

def secondPage : VirtAddr := ⟨0x2000, by decide⟩

def thirdPage : VirtAddr := ⟨0x3000, by decide⟩

/-- Two pages of a process are written in turn, so that the second drives out the first. -/
def crowding : List Event :=
  [.createProcess, .registerPage ⟨1⟩ firstPage true .normal none,
    .registerPage ⟨1⟩ secondPage true .normal none,
    .writeUser ⟨1⟩ firstPage #[1, 2, 3], .writeUser ⟨1⟩ secondPage #[4, 5]]

/-- A machine with one frame, two slots and a file of three bytes. -/
def tinyWithFile : Machine :=
  create {} (FramePool.create 1) (Disk.create 16) ⟨#[{ storage := .contents #[7, 8, 9] }]⟩

theorem reachable_tinyWithFile : tinyWithFile.Reachable :=
  .start {} 1 (Disk.create 16) ⟨#[{ storage := .contents #[7, 8, 9] }]⟩

/-- A machine with a new process. -/
def inhabited (machine : Machine) : Machine :=
  { machine with
    spaces := machine.spaces.insert ⟨machine.nextPid⟩ AddressSpace.empty
    nextPid := machine.nextPid + 1 }

theorem vacant_inhabited (settings : Settings) (frames : Nat) (disk : Disk) (files : FileStore)
    (address : VirtAddr) :
    (create settings (FramePool.create frames) disk files).inhabited.page? ⟨1⟩ address = none := by
  simp [inhabited, create, page?, AddressSpace.empty, PageRegistry.at?_empty]

end Machine

end DemandPaging
