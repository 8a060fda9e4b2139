import DemandPaging.Proofs.MappingGroups
import Mathlib.Data.List.Perm.Basic

/-!
The open handles on files.

Owns:
- `Session`, a machine next to the handles that its caller holds, and the groups of pages that the
  answers so far tell of;
- that these groups are the mappings of the machine (`Machine.Tracks`);
- that a file has one open handle for each that is held and one for each group on it.

Does not own: the references of pages to mappings (`Machine.Balanced`).

Main statement: `Session.Reachable.handles_accounted`.
-/

namespace DemandPaging

namespace Group

/-- A page of the group holds an address of a process. -/
def Covers (group : Group) (pid : Pid) (address : VirtAddr) : Prop :=
  group.pid = pid ∧ group.start.toNat ≤ address.toNat ∧
    address.toNat < group.start.toNat + group.pageCount * pageSize

instance (group : Group) (pid : Pid) (address : VirtAddr) : Decidable (group.Covers pid address) :=
  inferInstanceAs (Decidable (_ ∧ _ ∧ _))

/-- The same pages in another process. -/
def copyFor (child : Pid) (group : Group) : Group := { group with pid := child }

theorem copyFor_injective {child : Pid} {left right : Group} (samePid : left.pid = right.pid)
    (same : left.copyFor child = right.copyFor child) : left = right := by
  cases left
  cases right
  simp_all [copyFor]

end Group

def GroupChange.apply (groups : List Group) : GroupChange → List Group
  | keep => groups
  | add group => group :: groups
  | remove pid address => groups.filter fun group => ¬group.Covers pid address
  | clear pid => groups.filter fun group => group.pid ≠ pid
  | copy parent child =>
    (groups.filter fun group => group.pid = parent).map (Group.copyFor child) ++ groups

/-- A machine, next to what its caller knows: the handles it holds on files, and the groups of pages
that the answers of the machine tell of. -/
structure Session where
  machine : Machine
  held : List OpenFile := []
  groups : List Group := []

/-- What a caller of the machine may do. Handles are named by their index among those it holds. -/
inductive Call where
  | ask (event : Event)
  | openFile (file : FileId)
  | reopen (index : Nat)
  | close (index : Nat)

namespace Session

variable {Value : Type}

def onMachine (action : Action Machine Value) : Action Session Value :=
  Action.onPart Session.machine (fun machine session => { session with machine }) action

def hold (handle : OpenFile) : Action Session Unit :=
  Action.modify fun session => { session with held := handle :: session.held }

def heldHandle (index : Nat) : Action Session OpenFile := fun session =>
  Action.require .badFileDescriptor session.held[index]? session

/-- The number of handles on a file that the caller holds. -/
def heldOn (session : Session) (file : FileId) : Nat :=
  session.held.countP fun handle => handle.file = file

/-- The number of groups of pages of a file. -/
def groupsOn (session : Session) (file : FileId) : Nat :=
  session.groups.countP fun group => group.file = file

end Session

namespace Call

open Session

/-- What a call does. The groups change as the answer of the machine says, and not at all if it
answers an error. -/
def perform : Call → Action Session Unit
  | ask event => do
    let session ← Action.get
    let reply ← onMachine event.respond
    let change := event.groupChange session.machine.store.files (.done reply)
    Action.modify fun session => { session with groups := change.apply session.groups }
  | openFile file => do
    let handle ← onMachine (Machine.onFiles (OpenFile.create file))
    hold handle
  | reopen index => do
    let handle ← heldHandle index
    let again ← onMachine (Machine.onFiles handle.reopen)
    hold again
  | close index => do
    let handle ← heldHandle index
    onMachine (Machine.onFiles handle.close)
    Action.modify fun session => { session with held := session.held.eraseIdx index }

/-- Only the caller itself opens and closes handles. -/
def KeepsHandles : Call → Prop
  | ask event => event.KeepsHandles
  | _ => True

end Call

namespace Session

/-- The state after some calls, unless one of them stops the machine. -/
def after? (session : Session) : List Call → Option Session
  | [] => some session
  | call :: rest => (call.perform session).state?.bind fun next => next.after? rest

/-- Some calls lead to a state, from a machine without pages whose files have as many open handles
as the caller holds. -/
inductive Reachable : Session → Prop where
  | start {settings : Settings} {frames : Nat} {disk : Disk} {files : FileStore}
      {held : List OpenFile}
      (counted : ∀ file, files.handles file = held.countP fun handle => handle.file = file) :
      Reachable { machine := Machine.create settings (FramePool.create frames) disk files, held }
  | next {before after : Session} (reached : Reachable before) (call : Call)
      (keeps : call.KeepsHandles) (leaves : (call.perform before).state? = some after) :
      Reachable after

end Session

/-! ## Groups and mappings -/

namespace Machine

variable {machine before after : Machine} {groups : List Group} {change : GroupChange}
  {pid : Pid} {address : VirtAddr} {mapping : Mapping} {group : Group}

/-- The groups are those of the mappings of all processes, each once. -/
structure Tracks (machine : Machine) (groups : List Group) : Prop where
  distinct : groups.Nodup
  mem_iff : ∀ group, group ∈ groups ↔ ∃ mapping, machine.mapping? group.pid group.start =
    some mapping ∧ mapping.groupOf group.pid = group

theorem Tracks.groupOf_mem (tracks : machine.Tracks groups) (whole : machine.MappingsWhole pid)
    (mapped : machine.mapping? pid address = some mapping) : mapping.groupOf pid ∈ groups := by
  obtain ⟨-, covers, members⟩ := whole.members mapped
  exact (tracks.mem_iff _).2 ⟨mapping, members _ covers.start, rfl⟩

/-- A group covers an address if its mapping has the page that holds it. -/
theorem covers_groupOf_iff (aligned : mapping.start.offset = 0) :
    (mapping.groupOf pid).Covers pid address ↔ mapping.Covers address.pageDown := by
  constructor
  · rintro ⟨-, above, below⟩
    refine ⟨(address.toNat - mapping.start.toNat) / pageSize, ?_, ?_⟩
    · simp only [Mapping.groupOf, Address.offset, pageSize] at *
      omega
    · simp only [Mapping.groupOf, Address.offset, Address.toNat_pageDown, pageSize] at *
      omega
  · rintro ⟨index, inside, place⟩
    have beyond : (index + 1) * pageSize ≤ mapping.pageCount * pageSize :=
      Nat.mul_le_mul_right _ inside
    refine ⟨rfl, ?_⟩
    simp only [Mapping.groupOf, Address.toNat_pageDown, Address.offset, pageSize] at *
    omega

/-- A page of a process is of the mapping whose group covers it. -/
theorem Tracks.mapping?_of_covers (tracks : machine.Tracks groups)
    (whole : ∀ pid, machine.MappingsWhole pid) (listed : group ∈ groups)
    (covers : group.Covers pid address) :
    ∃ mapping, machine.mapping? pid address.pageDown = some mapping ∧
      mapping.groupOf pid = group := by
  obtain ⟨mapping, mapped, same⟩ := (tracks.mem_iff group).1 listed
  obtain rfl := covers.1
  obtain ⟨aligned, -, members⟩ := (whole _).members mapped
  rw [← same] at covers
  exact ⟨mapping, members _ ((covers_groupOf_iff aligned).1 covers), same⟩

/-- A process that is copied has its groups twice. -/
theorem Tracks.copied {parent : Pid} {copies : MappingCopies} (tracks : before.Tracks groups)
    (copying : before.Copying ⟨before.nextPid⟩ parent [] copies after) (sound : before.Sound)
    (whole : before.MappingsWhole parent) :
    after.Tracks ((GroupChange.copy parent ⟨before.nextPid⟩).apply groups) := by
  have others (group : Group) (listed : group ∈ groups) : group.pid ≠ ⟨before.nextPid⟩ := by
    intro same
    obtain ⟨mapping, mapped, -⟩ := (tracks.mem_iff group).1 listed
    rw [same, mapping?, page?, sound.frames.space_of_next] at mapped
    cases mapped
  have mem_copies (group : Group) :
      group ∈ (groups.filter fun group => group.pid = parent).map (Group.copyFor ⟨before.nextPid⟩) ↔
        ∃ source ∈ groups, source.pid = parent ∧ source.copyFor ⟨before.nextPid⟩ = group := by
    simp [and_assoc]
  refine ⟨List.nodup_append.2 ⟨?_, tracks.distinct, ?_⟩, fun group => ?_⟩
  · refine (tracks.distinct.filter _).map_on fun left leftListed right rightListed => ?_
    simp only [List.mem_filter, decide_eq_true_iff] at leftListed rightListed
    exact Group.copyFor_injective (leftListed.2.trans rightListed.2.symm)
  · rintro copy listed group old rfl
    obtain ⟨source, -, -, rfl⟩ := (mem_copies copy).1 listed
    exact others _ old rfl
  · show group ∈ _ ++ groups ↔ _
    rw [List.mem_append, mem_copies]
    by_cases here : group.pid = ⟨before.nextPid⟩
    · rw [or_iff_left fun old => others group old here, here]
      constructor
      · rintro ⟨source, listed, rfl, rfl⟩
        obtain ⟨mapping, mapped, same⟩ := (tracks.mem_iff source).1 listed
        obtain ⟨copy, copied, isCopy⟩ := copying.exists_mapping? whole mapped
        refine ⟨copy, copied, ?_⟩
        rw [← same, Mapping.groupOf, isCopy.start, isCopy.pageCount, isCopy.file]
        rfl
      · rintro ⟨copy, copied, same⟩
        obtain ⟨source, mapped, isCopy⟩ := copying.exists_source whole copied
        refine ⟨source.groupOf parent, tracks.groupOf_mem whole mapped, rfl, ?_⟩
        rw [← same, Mapping.groupOf, Mapping.groupOf, isCopy.start, isCopy.pageCount, isCopy.file]
        rfl
    · rw [mapping?_of_path copying.path sound fun _ concerns => concerns.keepsMappings here,
        ← tracks.mem_iff]
      refine or_iff_right ?_
      rintro ⟨source, -, -, rfl⟩
      exact here rfl

/-- The groups of a machine are those before, changed as its mappings are. -/
theorem Tracks.regroup (tracks : before.Tracks groups) (regroups : before.Regroups change after)
    (sound : before.Sound) (whole : ∀ pid, before.MappingsWhole pid) :
    after.Tracks (change.apply groups) := by
  cases regroups with
  | kept same =>
      refine ⟨tracks.distinct, fun group => ?_⟩
      rw [same]
      exact tracks.mem_iff group
  | @mapped pid offset length mapping _ maps =>
      have covers : mapping.Covers mapping.start := ⟨0, maps.pageCount_pos, by simp⟩
      have fresh : mapping.groupOf pid ∉ groups := by
        intro listed
        obtain ⟨other, mapped, -⟩ := (tracks.mem_iff _).1 listed
        rw [mapping?_eq_map] at mapped
        rw [Mapping.groupOf, maps.vacant _ covers] at mapped
        cases mapped
      refine ⟨List.nodup_cons.2 ⟨fresh, tracks.distinct⟩, fun group => ?_⟩
      show group ∈ mapping.groupOf pid :: groups ↔ _
      rw [List.mem_cons, tracks.mem_iff]
      by_cases here : group.pid = pid ∧ mapping.Covers group.start
      · have vacant : before.mapping? group.pid group.start = none := by
          rw [mapping?_eq_map, here.1, maps.vacant _ here.2]
          rfl
        rw [vacant, here.1, maps.mapping?_inside here.2]
        simp [eq_comm]
      · rw [maps.mapping?_outside sound here]
        refine or_iff_right ?_
        rintro rfl
        exact here ⟨rfl, covers⟩
  | @unmapped pid address mapping _ atAddress unmaps =>
      obtain ⟨aligned, covers, members⟩ := (whole pid).members atAddress
      refine ⟨tracks.distinct.filter _, fun group => ?_⟩
      show group ∈ groups.filter _ ↔ _
      rw [List.mem_filter, decide_eq_true_iff]
      by_cases here : group.pid = pid ∧ mapping.Covers group.start
      · obtain ⟨rfl, covered⟩ := here
        rw [unmaps.mapping?_inside covered]
        refine iff_of_false (fun remains => remains.2 ?_) (by simp)
        obtain ⟨other, mapped, same⟩ := (tracks.mem_iff group).1 remains.1
        rw [members _ covered, Option.some.injEq] at mapped
        subst mapped
        rw [← same]
        exact (covers_groupOf_iff aligned).2 covers
      · rw [unmaps.mapping?_outside sound here, ← tracks.mem_iff]
        refine and_iff_left_of_imp fun listed covered => ?_
        obtain ⟨other, mapped, same⟩ := tracks.mapping?_of_covers whole listed covered
        rw [atAddress, Option.some.injEq] at mapped
        subst mapped
        rw [← same] at here
        exact here ⟨rfl, covers.start⟩
  | @left pid _ gone others =>
      refine ⟨tracks.distinct.filter _, fun group => ?_⟩
      show group ∈ groups.filter _ ↔ _
      rw [List.mem_filter, decide_eq_true_iff]
      by_cases same : group.pid = pid
      · rw [same, gone]
        simp
      · rw [others _ _ same, ← tracks.mem_iff]
        exact and_iff_left same
  | copied copying => exact tracks.copied copying sound (whole _)

/-- There are as many groups of a file as mappings of it. -/
theorem Tracks.countP_eq (tracks : machine.Tracks groups) (sound : machine.Sound)
    (whole : ∀ pid, machine.MappingsWhole pid) (file : FileId) :
    groups.countP (fun group => group.file = file) =
      Mapping.countOf machine.liveMappings file := by
  let mappingOf (group : Group) : Mapping := (machine.mapping? group.pid group.start).getD default
  have known (group : Group) (listed : group ∈ groups) :
      machine.mapping? group.pid group.start = some (mappingOf group) ∧
        (mappingOf group).groupOf group.pid = group := by
    obtain ⟨mapping, mapped, same⟩ := (tracks.mem_iff group).1 listed
    have isMapping : mappingOf group = mapping := by
      show (machine.mapping? group.pid group.start).getD default = mapping
      rw [mapped]
      rfl
    rw [isMapping]
    exact ⟨mapped, same⟩
  have perm : machine.liveMappings.dedup.Perm (groups.map mappingOf) := by
    refine (List.perm_ext_iff_of_nodup (List.nodup_dedup _) ?_).2 fun mapping => ?_
    · refine tracks.distinct.map_on fun left leftListed right rightListed same => ?_
      have samePid : left.pid = right.pid :=
        (sound.apart _ _ _ _ _ _ (known left leftListed).1 (known right rightListed).1
          (congrArg Mapping.id same)).1
      rw [← (known left leftListed).2, ← (known right rightListed).2, samePid, same]
    · rw [List.mem_dedup, mem_liveMappings_iff sound.frames, List.mem_map]
      constructor
      · rintro ⟨pid, address, mapped⟩
        have listed := tracks.groupOf_mem (whole pid) mapped
        obtain ⟨-, covers, members⟩ := (whole pid).members mapped
        have atStart := (known _ listed).1
        rw [Mapping.groupOf, members _ covers.start, Option.some.injEq] at atStart
        exact ⟨_, listed, atStart.symm⟩
      · rintro ⟨group, listed, rfl⟩
        exact ⟨_, _, (known group listed).1⟩
  rw [Mapping.countOf, perm.countP_eq, List.countP_map]
  refine List.countP_congr fun group listed => ?_
  have sameFile : (mappingOf group).file = group.file := congrArg Group.file (known group listed).2
  simp [sameFile]

end Machine

/-! ## Calls -/

namespace Session

open Machine

variable {session before after : Session} {Value : Type}

/-- The machine is sound and has as many handles as its caller holds and as there are mappings, and
the caller knows these. -/
structure Balanced (session : Session) : Prop where
  sound : session.machine.Sound
  whole : ∀ pid, session.machine.MappingsWhole pid
  balanced : session.machine.Balanced fun file => session.heldOn file
  tracks : session.machine.Tracks session.groups

/-- Handles of the caller are opened or closed. -/
theorem Balanced.withFiles {files : FileStore} {held : List OpenFile} (balanced : session.Balanced)
    (fileCount : files.inodes.size = session.machine.store.files.inodes.size)
    (handles : ∀ file, (files.handles file : Int) - session.machine.store.files.handles file =
      (held.countP fun handle => handle.file = file) - session.heldOn file) :
    Balanced ⟨{ session.machine with store := { session.machine.store with files } }, held,
      session.groups⟩ := by
  have step : Step .outside session.machine
      { session.machine with store := { session.machine.store with files } } :=
    .outside rfl rfl fileCount
  exact
    { sound := step.sound balanced.sound
      whole := balanced.whole
      balanced := balanced.balanced.withFiles balanced.sound fileCount handles
      tracks := ⟨balanced.tracks.distinct, balanced.tracks.mem_iff⟩ }

theorem Balanced.handles_eq (balanced : session.Balanced) (file : FileId) :
    session.machine.store.files.handles file = session.heldOn file + session.groupsOn file := by
  have counted := BackingStore.Balances.handles balanced.balanced file
  rw [← balanced.tracks.countP_eq balanced.sound balanced.whole] at counted
  exact Int.ofNat_inj.1 (counted.trans (Int.natCast_add ..).symm)

/-- An event leaves the handles of the caller alone, and no event closes a handle that is not
open. -/
theorem Balanced.ends_ask (balanced : session.Balanced) {event : Event}
    (keeps : event.KeepsHandles) :
    ((Call.ask event).perform session).Ends (fun _ after => after.Balanced)
      (fun _ after => after.Balanced ∧ after.held = session.held ∧ after.groups = session.groups)
      (· ≠ .handleClosedTwice) := by
  have sound := balanced.sound
  have regroups := event.ends_regroups sound balanced.whole
  have leads := event.ends_perform sound balanced.whole
  have balances := event.ends_balanced keeps sound balanced.whole balanced.balanced
  rw [Event.perform_eq_respond, Action.ends_bind] at leads balances
  simp only [Call.perform, onMachine, Action.ends_bind, Action.ends_get, Action.ends_onPart]
  refine (regroups.and (leads.and balances)).imp ?_ ?_ ?_
  · rintro reply after ⟨regrouped, led, balancedAfter⟩
    exact ⟨led.path.sound sound, led.whole, balancedAfter,
      balanced.tracks.regroup regrouped sound balanced.whole⟩
  · rintro error after ⟨regrouped, led, balancedAfter⟩
    exact ⟨⟨led.path.sound sound, led.whole, balancedAfter,
      balanced.tracks.regroup regrouped sound balanced.whole⟩, trivial, trivial⟩
  · rintro _ ⟨-, -, lacks⟩ rfl
    obtain ⟨-, file, negative⟩ := lacks rfl
    exact absurd negative (Int.not_lt.2 (Int.natCast_nonneg _))

/-- A handle is opened on a file that exists. -/
theorem Balanced.ends_open (balanced : session.Balanced) (file : FileId) :
    ((onMachine (Machine.onFiles (OpenFile.create file)) >>= hold) session).Ends
      (fun _ after => after.Balanced)
      (fun _ after => after.Balanced ∧ after.held = session.held ∧ after.groups = session.groups)
      (· ≠ .handleClosedTwice) := by
  simp only [onMachine, Machine.onFiles, Machine.onStore, BackingStore.onFiles, OpenFile.create,
    hold, Action.ends_bind, Action.ends_onPart, Action.ends_pure, Action.ends_modify]
  refine (FileStore.ends_openHandle.and Outcome.ends_self).imp ?_ ?_ (fun _ no => no.1.elim)
  · rintro _ files ⟨⟨-, fileCount⟩, opened⟩
    refine balanced.withFiles fileCount fun other => ?_
    rw [(FileStore.of_openHandle opened).1 other, List.countP_cons, heldOn]
    push_cast
    simp only [decide_eq_true_eq]
    omega
  · rintro error files ⟨rfl, -⟩
    exact ⟨balanced, trivial, trivial⟩

/-- A handle that is held is open, so it can be closed. -/
theorem Balanced.exists_close (balanced : session.Balanced) {index : Nat} {handle : OpenFile}
    (isHeld : session.held[index]? = some handle) :
    ∃ after, (Call.close index).perform session = .done () after ∧ after.Balanced := by
  obtain ⟨inside, atIndex⟩ := List.getElem?_eq_some_iff.1 isHeld
  have perm : (handle :: session.held.eraseIdx index).Perm session.held :=
    atIndex ▸ List.getElem_cons_eraseIdx_perm inside
  have heldOn (file : FileId) : session.heldOn file =
      (session.held.eraseIdx index).countP (fun handle => handle.file = file) +
        if handle.file = file then 1 else 0 := by
    rw [Session.heldOn, ← perm.countP_eq, List.countP_cons]
    simp only [decide_eq_true_eq]
  have isOpen : 0 < session.machine.store.files.handles handle.file := by
    rw [balanced.handles_eq, heldOn, if_pos rfl]
    omega
  obtain ⟨files, closed, fileCount⟩ := FileStore.exists_closeHandle_eq_done isOpen
  refine ⟨⟨{ session.machine with store := { session.machine.store with files } },
    session.held.eraseIdx index, session.groups⟩, ?_, balanced.withFiles fileCount fun file => ?_⟩
  · simp [Call.perform, heldHandle, onMachine, Machine.onFiles, Machine.onStore,
      BackingStore.onFiles, OpenFile.close, Action.bind_apply, Action.require, Action.onPart,
      isHeld, closed, Action.pure_apply, Action.modify]
  · have change := (FileStore.of_closeHandle closed).1 file
    rw [heldOn]
    by_cases same : handle.file = file
    · rw [if_pos same] at change ⊢
      push_cast
      omega
    · rw [if_neg same] at change ⊢
      push_cast
      omega

/-- The balance is kept by everything the caller may do. -/
theorem Balanced.ends_perform (balanced : session.Balanced) {call : Call}
    (keeps : call.KeepsHandles) :
    (call.perform session).Ends (fun _ after => after.Balanced)
      (fun _ after => after.Balanced ∧ after.held = session.held ∧ after.groups = session.groups)
      (· ≠ .handleClosedTwice) := by
  cases call with
  | ask event => exact balanced.ends_ask keeps
  | openFile file => exact balanced.ends_open file
  | reopen index =>
      simp only [Call.perform, heldHandle, Action.ends_bind]
      refine Action.ends_require.2 ⟨fun handle _ => ?_, fun _ => ⟨balanced, rfl, rfl⟩⟩
      exact Action.ends_bind.1 (balanced.ends_open handle.file)
  | close index =>
      cases isHeld : session.held[index]? with
      | some handle =>
          obtain ⟨after, closed, balancedAfter⟩ := balanced.exists_close isHeld
          rw [closed]
          exact balancedAfter
      | none =>
          simp only [Call.perform, heldHandle, Action.ends_bind]
          refine Action.ends_require.2 ⟨fun handle found => ?_, fun _ => ⟨balanced, rfl, rfl⟩⟩
          rw [isHeld] at found
          cases found

/-! ## Every reachable state -/

theorem Reachable.balanced (reachable : session.Reachable) : session.Balanced := by
  induction reachable with
  | @start settings frames disk files held counted =>
      have created := balanced_create settings frames disk files
      simp only [counted] at created
      have noMapping (pid : Pid) (address : VirtAddr) :
          (create settings (FramePool.create frames) disk files).mapping? pid address = none := by
        simp [create, mapping?, page?]
      refine ⟨sound_create .., mappingsWhole_create settings frames disk files, created,
        List.nodup_nil, fun group => ?_⟩
      simp [noMapping]
  | next reached call keeps leaves inductionHypothesis =>
      exact (inductionHypothesis.ends_perform keeps).leaves (fun _ _ balanced => balanced)
        (fun _ _ result => result.1) _ leaves

/-- To open or close a handle is one of the changes that files may undergo from outside. -/
theorem reachable_of_setInode {machine : Machine} (reachable : machine.Reachable) (file : FileId)
    (inode : Inode) : Machine.Reachable { machine with
      store := { machine.store with
        files := ⟨machine.store.files.inodes.setIfInBounds file inode⟩ } } := by
  refine reachable.next (.changeFiles fun index former => if file = index then inode else former)
    (congrArg some ?_)
  have same : machine.store.files.inodes.mapIdx
      (fun index former => if file = index then inode else former) =
        machine.store.files.inodes.setIfInBounds file inode := by
    apply Array.ext
    · simp
    · intro index inside _
      rw [Array.getElem_mapIdx, Array.getElem_setIfInBounds]
  exact congrArg (fun inodes => ({ machine with
    store := { machine.store with files := ⟨inodes⟩ } } : Machine)) same

/-- The machine of a session was led to by events only. -/
theorem Reachable.machine (reachable : session.Reachable) : session.machine.Reachable := by
  induction reachable with
  | start => exact .start ..
  | @next before after reached call keeps leaves inductionHypothesis =>
      have opens (file : FileId) :
          ((onMachine (Machine.onFiles (OpenFile.create file)) >>= hold) before).Ends
            (fun _ after => after.machine.Reachable) (fun _ after => after.machine.Reachable)
              (fun _ => True) := by
        simp only [onMachine, Machine.onFiles, Machine.onStore, BackingStore.onFiles,
          OpenFile.create, hold, FileStore.openHandle, FileStore.inode, FileStore.setInode,
          Action.ends_bind, Action.ends_onPart, Action.ends_pure, Action.ends_modify,
          Action.ends_require]
        exact ⟨fun inode _ => reachable_of_setInode inductionHypothesis file _,
          fun _ => inductionHypothesis⟩
      have ends : (call.perform before).Ends (fun _ after => after.machine.Reachable)
          (fun _ after => after.machine.Reachable) (fun _ => True) := by
        cases call with
        | ask event =>
            simp only [Call.perform, onMachine, Action.ends_bind, Action.ends_get,
              Action.ends_onPart, Action.ends_modify]
            refine Outcome.ends_self.imp ?_ ?_ (fun _ _ => trivial)
            · intro reply machine ran
              exact inductionHypothesis.next event (by rw [event.state?_perform, ran]; rfl)
            · intro error machine ran
              exact inductionHypothesis.next event (by rw [event.state?_perform, ran]; rfl)
        | openFile file => exact opens file
        | reopen index =>
            simp only [Call.perform, heldHandle, Action.ends_bind]
            refine Action.ends_require.2 ⟨fun handle _ => ?_, fun _ => inductionHypothesis⟩
            exact Action.ends_bind.1 (opens handle.file)
        | close index =>
            simp only [Call.perform, heldHandle, Action.ends_bind]
            refine Action.ends_require.2 ⟨fun handle _ => ?_, fun _ => inductionHypothesis⟩
            simp only [onMachine, Machine.onFiles, Machine.onStore, BackingStore.onFiles,
              OpenFile.close, FileStore.closeHandle, FileStore.inode, FileStore.setInode,
              Action.ends_bind, Action.ends_onPart, Action.ends_modify, Action.ends_require]
            refine ⟨fun inode _ => ?_, fun _ => inductionHypothesis⟩
            split
            · trivial
            · exact reachable_of_setInode inductionHypothesis handle.file _
      exact ends.leaves (fun _ _ reached => reached) (fun _ _ reached => reached) after leaves

theorem Balanced.asked (balanced : session.Balanced) {event : Event} {reply : Reply}
    {machine : Machine} (keeps : event.KeepsHandles)
    (ran : event.respond session.machine = .done reply machine) :
    Balanced ⟨machine, session.held,
      (event.groupChange session.machine.store.files (.done reply)).apply session.groups⟩ := by
  have ends := balanced.ends_ask keeps
  simp only [Call.perform, onMachine, Action.bind_apply, Action.get, Action.onPart, ran] at ends
  exact ends

/-- Of the groups that there are, one covers a page that is unmapped. -/
theorem Balanced.perm_of_removed (balanced : session.Balanced) {pid : Pid} {address : VirtAddr}
    {machine : Machine} (regroups : session.machine.Regroups (.remove pid address) machine) :
    ∃ group ∈ session.groups, group.Covers pid address ∧
      (group :: (GroupChange.remove pid address).apply session.groups).Perm session.groups := by
  cases regroups with
  | @unmapped _ _ mapping _ atAddress _ =>
      obtain ⟨aligned, covers, -⟩ := (balanced.whole pid).members atAddress
      have listed := balanced.tracks.groupOf_mem (balanced.whole pid) atAddress
      have covered : (mapping.groupOf pid).Covers pid address :=
        (covers_groupOf_iff aligned).2 covers
      have single : (session.groups.filter fun group => group.Covers pid address).Perm
          [mapping.groupOf pid] := by
        refine (List.perm_ext_iff_of_nodup (balanced.tracks.distinct.filter _)
          (List.nodup_singleton _)).2 fun group => ?_
        rw [List.mem_filter, List.mem_singleton, decide_eq_true_iff]
        constructor
        · rintro ⟨also, covers⟩
          obtain ⟨other, mapped, rfl⟩ := balanced.tracks.mapping?_of_covers balanced.whole also
            covers
          rw [atAddress, Option.some.injEq] at mapped
          rw [mapped]
        · rintro rfl
          exact ⟨listed, covered⟩
      have parts := List.filter_append_perm (fun group : Group => group.Covers pid address)
        session.groups
      refine ⟨_, listed, covered, ((single.symm.append_right _).trans ?_)⟩
      simpa [GroupChange.apply] using parts

/-- With a process the handles of its groups are closed. -/
theorem Balanced.handles_of_exit (balanced : session.Balanced) {pid : Pid} {after : Machine}
    (ran : Machine.exit pid session.machine = .done () after) (file : FileId) :
    session.machine.store.files.handles file = after.store.files.handles file +
      session.groups.countP fun group => group.pid = pid ∧ group.file = file := by
  have ranEvent : (Event.exit pid).respond session.machine = .done .nothing after := by
    simp only [Event.respond, Action.bind_apply, ran, Action.pure_apply]
  have keeps : (Event.exit pid).KeepsHandles := trivial
  have asked := (balanced.asked keeps ranEvent).handles_eq file
  have parts := List.countP_eq_countP_filter_add session.groups
    (fun group => group.file = file) (fun group => group.pid ≠ pid)
  have own : (session.groups.filter fun group => !decide (group.pid ≠ pid)).countP
      (fun group => group.file = file) =
        session.groups.countP fun group => group.pid = pid ∧ group.file = file := by
    rw [List.countP_filter]
    exact List.countP_congr fun group _ => by simp [and_comm]
  rw [asked, balanced.handles_eq, groupsOn, parts, own, Nat.add_assoc]
  rfl

/-- What the open handles on files are for, and what changes their number. -/
structure HandlesAccounted (session : Session) : Prop where
  /-- Each open handle is one that the caller holds, or belongs to a group of pages of the file. -/
  counted : ∀ file, session.machine.store.files.handles file =
    session.heldOn file + session.groupsOn file
  /-- The groups are the mappings that processes have. -/
  tracks : session.machine.Tracks session.groups
  /-- A call that fails opens and closes no handle. -/
  failed : ∀ call error after, Call.KeepsHandles call →
    call.perform session = .failed error after →
    ∀ file, after.machine.store.files.handles file = session.machine.store.files.handles file
  /-- An event that makes and removes no group opens and closes no handle, whatever pages it moves
  in and out of memory. -/
  kept : ∀ event reply after, Event.KeepsHandles event →
    event.respond session.machine = .done reply after →
    event.groupChange session.machine.store.files (.done reply) = .keep →
    ∀ file, after.store.files.handles file = session.machine.store.files.handles file
  /-- With any page of a group that is unmapped, the handle of this group is closed. -/
  unmapped : ∀ event reply after pid address, Event.KeepsHandles event →
    event.respond session.machine = .done reply after →
    event.groupChange session.machine.store.files (.done reply) = .remove pid address →
    ∃ group ∈ session.groups, group.Covers pid address ∧ ∀ file,
      session.machine.store.files.handles file =
        after.store.files.handles file + if group.file = file then 1 else 0
  /-- With a process the handles of its groups are closed. -/
  exited : ∀ pid after, Machine.exit pid session.machine = .done () after → ∀ file,
    session.machine.store.files.handles file = after.store.files.handles file +
      session.groups.countP fun group => group.pid = pid ∧ group.file = file
  /-- A handle that the caller holds can be closed. -/
  closed : ∀ index handle, session.held[index]? = some handle →
    ∃ after, (Call.close index).perform session = .done () after
  /-- No handle is closed that is not open. -/
  neverTwice : ∀ call, Call.KeepsHandles call →
    call.perform session ≠ .halted .handleClosedTwice

/-- In every reachable state a file has one open handle for each that the caller holds on it and one
for each group of its pages, of whatever process. -/
theorem Reachable.handles_accounted (reachable : session.Reachable) :
    session.HandlesAccounted := by
  have balanced := reachable.balanced
  refine
    { counted := balanced.handles_eq
      tracks := balanced.tracks
      failed := fun call error after keeps ran file => ?_
      kept := fun event reply after keeps ran still file => ?_
      unmapped := fun event reply after pid address keeps ran removes => ?_
      exited := fun pid after ran file => ?_
      closed := fun index handle isHeld => ?_
      neverTwice := fun call keeps stopped => ?_ }
  · have ends := balanced.ends_perform keeps
    rw [ran] at ends
    obtain ⟨balancedAfter, sameHeld, sameGroups⟩ := ends
    rw [balancedAfter.handles_eq, balanced.handles_eq, heldOn, groupsOn, sameHeld, sameGroups]
    rfl
  · have asked := (balanced.asked keeps ran).handles_eq file
    rw [still] at asked
    exact asked.trans (balanced.handles_eq file).symm
  · have regroups := event.ends_regroups balanced.sound balanced.whole
    have asked := (balanced.asked keeps ran).handles_eq
    rw [ran, Outcome.ends_done] at regroups
    rw [removes] at regroups asked
    obtain ⟨group, listed, covers, perm⟩ := balanced.perm_of_removed regroups
    refine ⟨group, listed, covers, fun file => ?_⟩
    have counted := perm.countP_eq fun group => group.file = file
    rw [List.countP_cons] at counted
    simp only [decide_eq_true_eq] at counted
    rw [balanced.handles_eq, asked file]
    show _ + session.groups.countP _ = _ + List.countP _ _ + _
    rw [← counted, Nat.add_assoc]
    rfl
  · exact balanced.handles_of_exit ran file
  · obtain ⟨after, closed, -⟩ := balanced.exists_close isHeld
    exact ⟨after, closed⟩
  · have ends := balanced.ends_perform keeps
    rw [stopped] at ends
    exact ends rfl

theorem Reachable.of_after? {calls : List Call} (reachable : session.Reachable)
    (keeps : ∀ call ∈ calls, call.KeepsHandles) (run : session.after? calls = some after) :
    after.Reachable := by
  induction calls generalizing session with
  | nil =>
      cases run
      exact reachable
  | cons call rest inductionHypothesis =>
      obtain ⟨next, leaves, run⟩ := Option.bind_eq_some_iff.1 run
      exact inductionHypothesis (reachable.next call (keeps call List.mem_cons_self) leaves)
        (fun other listed => keeps other (List.mem_cons_of_mem _ listed)) run

/-- A file is opened, mapped by a process that is copied, and reopened. Then the process unmaps the
file by the second page. A page of the copy is in memory. -/
def openingTwice : List Call :=
  [.openFile 0, .ask .createProcess, .ask (.mapFile ⟨1⟩ firstPage 5000 true 0 0),
    .ask (.readUser ⟨1⟩ firstPage 1), .ask (.fork ⟨1⟩), .ask (.readUser ⟨2⟩ secondPage 1),
    .reopen 0, .ask (.unmapFile ⟨1⟩ secondPage)]

/-- Two of the handles that are open in the end are held, and the third one belongs to the copy. -/
theorem handles_accounted_copied :
    ∃ session, Session.after? { machine := tinyWithBlank } openingTwice = some session ∧
      session.heldOn 0 = 2 ∧ session.groupsOn 0 = 1 ∧
        session.machine.store.files.handles 0 = 3 := by
  have counted : (Session.after? { machine := tinyWithBlank } openingTwice).map
      (fun session => (session.heldOn 0, session.groupsOn 0)) = some (2, 1) := by decide +kernel
  obtain ⟨session, run, counts⟩ := Option.map_eq_some_iff.1 counted
  obtain ⟨held, groups⟩ := Prod.mk.inj counts
  have start : Reachable { machine := tinyWithBlank } :=
    .start fun file => by cases file <;> simp [FileStore.handles]
  have keeps : ∀ call ∈ openingTwice, call.KeepsHandles := by
    simp [openingTwice, Call.KeepsHandles, Event.KeepsHandles]
  have accounted := (start.of_after? keeps run).handles_accounted
  exact ⟨session, run, held, groups, by rw [accounted.counted 0, held, groups]⟩

end Session

end DemandPaging
