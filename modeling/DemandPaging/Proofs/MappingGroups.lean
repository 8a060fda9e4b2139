import DemandPaging.Machine.Replies
import DemandPaging.Proofs.Balance

/-!
The pages of every mapping, as a group.

Owns:
- `GroupChange`, what an event does to the groups of pages that mappings are, read off its answer;
- `Machine.Regroups`, this change in terms of the mappings of the machine;
- what a group looks like in every reachable state: where its pages are, which part of the file is
  behind each of them, and that groups overlap with nothing.

Does not own: the number of references to a mapping (`Machine.Balanced`).

Main statements: `Event.ends_regroups` and `Reachable.mapping_groups`.
-/

namespace DemandPaging

/-- The pages of one mapping of a process, by where they are and which file they are of. -/
structure Group where
  pid : Pid
  start : VirtAddr
  pageCount : Nat
  file : FileId
deriving DecidableEq, Repr, Inhabited

/-- The group of a mapping that a process has. -/
def Mapping.groupOf (mapping : Mapping) (pid : Pid) : Group :=
  ⟨pid, mapping.start, mapping.pageCount, mapping.file⟩

/-- What an event does to the groups that there are. -/
inductive GroupChange where
  | keep
  | add (group : Group)
  /-- The group with a page that holds an address goes. -/
  | remove (pid : Pid) (address : VirtAddr)
  /-- All groups of a process go. -/
  | clear (pid : Pid)
  /-- A process gets the groups that another one has. -/
  | copy (parent child : Pid)
deriving DecidableEq, Repr, Inhabited

/-- The number of pages that a mapping takes for what a file has of a number of bytes. -/
def FileStore.pagesOf (files : FileStore) (file : FileId) (offset length : Nat) : Nat :=
  (min length (files.size file - offset) + (pageSize - 1)) / pageSize

/-- What an event does to the groups that there are, given the files before it and its answer. An
error number names no user address, so a call that fails is told from one that maps. -/
def Event.groupChange (files : FileStore) : Event → Answer → GroupChange
  | fork parent, .done (.process child) => .copy parent child
  | exit pid, .done _ => .clear pid
  | mapFile pid _ length _ file offset, .done (.address start) =>
    .add ⟨pid, start, files.pagesOf file offset length, file⟩
  | mmapCall pid _ length _ (some file) offset, .done (.word word) =>
    match Machine.userAddress? word with
    | some start => .add ⟨pid, start, files.pagesOf file offset length, file⟩
    | none => .keep
  | unmapFile pid address, .done _ => .remove pid address
  | munmapCall pid word, .done (.word 0) =>
    match Machine.userAddress? word with
    | some address => .remove pid address
    | none => .keep
  | _, _ => .keep

namespace Machine

variable {machine before after : Machine} {pid other : Pid} {address place : VirtAddr}
  {mapping : Mapping}

/-- The mappings of the machine change as the groups do. -/
inductive Regroups (before : Machine) : GroupChange → Machine → Prop where
  | kept {after : Machine}
      (same : ∀ pid address, after.mapping? pid address = before.mapping? pid address) :
      Regroups before .keep after
  | mapped {pid : Pid} {offset length : Nat} {mapping : Mapping} {after : Machine}
      (maps : before.MapsFile pid offset length mapping after) :
      Regroups before (.add (mapping.groupOf pid)) after
  | unmapped {pid : Pid} {address : VirtAddr} {mapping : Mapping} {after : Machine}
      (mapped : before.mapping? pid address.pageDown = some mapping)
      (unmaps : before.UnmapsFile pid mapping after) : Regroups before (.remove pid address) after
  | left {pid : Pid} {after : Machine} (gone : ∀ address, after.mapping? pid address = none)
      (others : ∀ other address, other ≠ pid →
        after.mapping? other address = before.mapping? other address) :
      Regroups before (.clear pid) after
  | copied {parent : Pid} {copies : MappingCopies} {after : Machine}
      (copying : before.Copying ⟨before.nextPid⟩ parent [] copies after) :
      Regroups before (.copy parent ⟨before.nextPid⟩) after

theorem Regroups.of_path {allowed : Move → Prop} (path : Path allowed before after)
    (sound : before.Sound) (keeps : ∀ move, allowed move → ∀ pid, move.KeepsMappings pid) :
    before.Regroups .keep after :=
  .kept fun pid => mapping?_of_path path sound fun move allow => keeps move allow pid

theorem MapsFile.regroups {offset length : Nat}
    (maps : before.MapsFile pid offset (min length (before.store.files.size mapping.file - offset))
      mapping after) :
    before.Regroups (.add ⟨pid, mapping.start,
      before.store.files.pagesOf mapping.file offset length, mapping.file⟩) after := by
  have count : before.store.files.pagesOf mapping.file offset length = mapping.pageCount :=
    maps.count.symm
  rw [count]
  exact .mapped maps

end Machine

open Machine

namespace Event

variable {before after : Machine}

theorem userAddress?_word (error : Errno) : userAddress? error.word = none := by
  cases error <;> decide

/-- An operation that touches no file page keeps all groups, whatever it answers. -/
theorem ends_regroups_of_takes {Value : Type} {action : Action Machine Value}
    {allowed : Move → Prop} {event : Event} (reply : Value → Reply)
    (takes : action.Takes allowed) (keeps : ∀ move, allowed move → ∀ pid, move.KeepsMappings pid)
    (quiet : ∀ value, event.groupChange before.store.files (.done (reply value)) = .keep)
    (sound : before.Sound) :
    ((action >>= fun value => pure (reply value)) before).Ends
      (fun reply after =>
        before.Regroups (event.groupChange before.store.files (.done reply)) after)
      (fun _ after => before.Regroups .keep after) (fun _ => True) := by
  rw [Action.ends_bind]
  refine (takes.ends before sound).imp ?_ (fun _ _ path => .of_path path sound keeps)
    (fun _ _ => trivial)
  intro value after path
  rw [Action.ends_pure, quiet]
  exact .of_path path sound keeps

/-- The mappings of the machine change as the answer to an event says. An event that fails keeps all
groups. -/
theorem ends_regroups (event : Event) (sound : before.Sound)
    (whole : ∀ pid, before.MappingsWhole pid) :
    (event.respond before).Ends
      (fun reply after =>
        before.Regroups (event.groupChange before.store.files (.done reply)) after)
      (fun _ after => before.Regroups .keep after) (fun _ => True) := by
  have unchanged : before.Regroups .keep before := .kept fun _ _ => rfl
  cases event with
  | createProcess =>
      show ((Machine.createProcess >>= fun pid => pure (Reply.process pid)) before).Ends _ _ _
      rw [Action.ends_bind]
      refine (ends_createProcess before).imp ?_ (fun _ _ no => no.elim) (fun _ _ => trivial)
      intro pid after result
      have path : Path (· = .arrive pid) before after := .single result.2.1 rfl
      refine .of_path path sound ?_
      rintro _ rfl _
      simp [Move.KeepsMappings]
  | fork parent =>
      show ((Machine.fork parent >>= fun child => pure (Reply.process child)) before).Ends _ _ _
      rw [Action.ends_bind]
      refine (ends_fork sound whole parent).imp ?_ ?_ (fun _ _ => trivial)
      · intro child after result
        obtain ⟨rfl, ⟨copies, copying⟩, -⟩ := result
        exact .copied copying
      · intro _ after result
        obtain ⟨path, gone, -⟩ := result
        refine .kept fun pid address => ?_
        by_cases same : pid = ⟨before.nextPid⟩
        · rw [same, mapping?, page?, gone, mapping?, page?, sound.frames.space_of_next]
        · exact mapping?_of_path path sound (fun _ concerns => concerns.keepsMappings same) address
  | exit pid =>
      show ((Machine.exit pid >>= fun _ => pure Reply.nothing) before).Ends _ _ _
      rw [Action.ends_bind]
      refine (ends_exit sound pid).imp ?_ (fun _ _ no => no.elim) (fun _ _ => trivial)
      intro _ after result
      obtain ⟨path, gone⟩ := result
      refine .left (fun address => ?_) fun other address different =>
        mapping?_of_path path sound (fun _ exits => exits.keepsMappings different) address
      rw [mapping?, page?, gone]
      rfl
  | mapFile pid address length writable file offset =>
      show ((Machine.mapFile pid address length writable file offset >>= fun start =>
        pure (Reply.address start)) before).Ends _ _ _
      rw [Action.ends_bind]
      refine (ends_mapFile_mapsFile sound address length writable file offset).imp ?_ ?_
        (fun _ _ => trivial)
      · rintro _ after ⟨rfl, mapping, rfl, rfl, maps⟩
        exact maps.regroups
      · rintro _ after rfl
        exact unchanged
  | mmapCall pid word length writable file? offset =>
      show ((Machine.mmapCall pid word length writable file? offset >>= fun answer =>
        pure (Reply.word answer)) before).Ends _ _ _
      rw [Action.ends_bind]
      refine (ends_mmapCall_mapsFile sound word length writable file? offset).imp ?_
        (fun _ _ no => no.elim) (fun _ _ => trivial)
      rintro answer after (⟨file, mapping, rfl, given, rfl, rfl, maps⟩ | ⟨⟨error, rfl⟩, rfl⟩)
      · simp only [Action.ends_pure, groupChange, given]
        exact maps.regroups
      · cases file? with
        | none => exact unchanged
        | some file =>
            simp only [Action.ends_pure, groupChange, userAddress?_word]
            exact unchanged
  | unmapFile pid address =>
      show ((Machine.unmapFile pid address >>= fun _ => pure Reply.nothing) before).Ends _ _ _
      rw [Action.ends_bind]
      refine (ends_unmapFile_unmapsFile _ sound (whole pid) address (stops_unmapPage sound)).imp ?_
        ?_ (fun _ _ => trivial)
      · rintro _ after ⟨mapping, mapped, unmaps⟩
        exact .unmapped mapped unmaps
      · rintro _ after rfl
        exact unchanged
  | munmapCall pid word =>
      show ((Machine.munmapCall pid word >>= fun answer => pure (Reply.word answer))
        before).Ends _ _ _
      rw [Action.ends_bind]
      refine (ends_munmapCall_unmapsFile _ sound (whole pid) word (stops_unmapPage sound)).imp ?_
        (fun _ _ no => no.elim) (fun _ _ => trivial)
      rintro answer after (⟨address, mapping, given, rfl, mapped, unmaps⟩ | ⟨⟨error, rfl⟩, rfl⟩)
      · simp only [Action.ends_pure, groupChange, given]
        exact .unmapped mapped unmaps
      · cases error <;> exact unchanged
  | registerPage pid address writable marker loader =>
      exact ends_regroups_of_takes (fun _ => .nothing)
        (takes_registerPage pid address writable marker loader)
        (fun _ registers => registers.keepsMappings) (fun _ => rfl) sound
  | makeResident pid address =>
      exact ends_regroups_of_takes (fun _ => .nothing) (takes_makeResident pid address)
        (fun _ unseen => unseen.keepsMappings) (fun _ => rfl) sound
  | handleFault pid reason =>
      exact ends_regroups_of_takes (fun _ => .nothing) (takes_handleFault pid reason)
        (fun _ registers => registers.keepsMappings) (fun _ => rfl) sound
  | loadSegment pid file segment =>
      exact ends_regroups_of_takes (fun _ => .nothing) (takes_loadSegment pid file segment)
        (fun _ registers => registers.keepsMappings) (fun _ => rfl) sound
  | setUpStack pid =>
      refine ends_regroups_of_takes Reply.address (takes_setUpStack pid) ?_ (fun _ => rfl) sound
      rintro move (registers | rfl) other
      · exact registers.keepsMappings other
      · simp [Move.KeepsMappings]
  | readUser pid address length =>
      exact ends_regroups_of_takes Reply.bytes (takes_fetchUser pid address length)
        (fun _ accesses => accesses.keepsMappings) (fun _ => rfl) sound
  | writeUser pid address data =>
      exact ends_regroups_of_takes (fun _ => .nothing) (takes_writeUser pid address data)
        (fun _ writes => writes.keepsMappings) (fun _ => rfl) sound
  | setStackPointer pid stackPointer =>
      refine ends_regroups_of_takes (fun _ => .nothing) (takes_setStackPointer pid stackPointer) ?_
        (fun _ => rfl) sound
      rintro _ rfl _
      simp [Move.KeepsMappings]
  | access pid address write =>
      refine ends_regroups_of_takes Reply.ofAccess (takes_access pid address write) ?_
        (fun _ => rfl) sound
      rintro _ rfl _
      simp [Move.KeepsMappings]
  | changeDisk unreadable unwritable =>
      refine ends_regroups_of_takes (fun _ => .nothing) (takes_changeDisk unreadable unwritable) ?_
        (fun _ => rfl) sound
      rintro _ rfl _
      simp [Move.KeepsMappings]
  | changeFiles change =>
      refine ends_regroups_of_takes (fun _ => .nothing) (takes_changeFiles change) ?_
        (fun _ => rfl) sound
      rintro _ rfl _
      simp [Move.KeepsMappings]
  | changeWorld world =>
      refine ends_regroups_of_takes (fun _ => .nothing) (takes_changeWorld world) ?_
        (fun _ => rfl) sound
      rintro _ rfl _
      simp [Move.KeepsMappings]

end Event

namespace Machine

variable {machine before after : Machine} {change : GroupChange}

/-! ## Where groups are -/

/-- Every mapping ends below the addresses of the kernel. -/
def BelowKernel (machine : Machine) : Prop :=
  ∀ pid address mapping, machine.mapping? pid address = some mapping →
    mapping.start.toNat + mapping.pageCount * pageSize ≤ kernelBase

theorem Copying.exists_source {parent child : Pid} {copies : MappingCopies} {address : VirtAddr}
    {copy : Mapping} (copying : before.Copying child parent [] copies after)
    (whole : before.MappingsWhole parent) (mapped : after.mapping? child address = some copy) :
    ∃ source, before.mapping? parent address = some source ∧
      copy.CopyOf source before.store.nextMapping := by
  rw [mapping?_eq_map, copying.region?_eq] at mapped
  obtain ⟨region, copied, rfl⟩ := Option.map_eq_some_iff.1 mapped
  obtain ⟨source, atParent, copied⟩ := Option.bind_eq_some_iff.1 copied
  obtain ⟨mapping, known, rfl⟩ := Option.map_eq_some_iff.1 copied
  have ofSource := mapping?_of_region? atParent
  obtain ⟨found, alsoKnown, isCopy⟩ := copying.exists_copy whole ofSource
  rw [known, Option.some.injEq] at alsoKnown
  subst alsoKnown
  exact ⟨source.mapping, ofSource, isCopy⟩

theorem Copying.exists_mapping? {parent child : Pid} {copies : MappingCopies} {address : VirtAddr}
    {source : Mapping} (copying : before.Copying child parent [] copies after)
    (whole : before.MappingsWhole parent) (mapped : before.mapping? parent address = some source) :
    ∃ copy, after.mapping? child address = some copy ∧
      copy.CopyOf source before.store.nextMapping := by
  obtain ⟨copy, known, isCopy⟩ := copying.exists_copy whole mapped
  obtain ⟨region, atAddress, rfl⟩ := exists_region?_of_mapping? mapped
  refine ⟨copy, ?_, isCopy⟩
  rw [mapping?_eq_map, copying.region?_eq, atAddress, Option.bind_some, known]
  rfl

theorem Regroups.belowKernel (regroups : before.Regroups change after) (sound : before.Sound)
    (whole : ∀ pid, before.MappingsWhole pid) (below : before.BelowKernel) :
    after.BelowKernel := by
  intro owner place found mapped
  cases regroups with
  | kept same =>
      rw [same] at mapped
      exact below owner place found mapped
  | @mapped pid offset length mapping _ maps =>
      by_cases here : owner = pid ∧ mapping.Covers place
      · rw [here.1, maps.mapping?_inside here.2] at mapped
        cases mapped
        exact maps.belowKernel
      · rw [maps.mapping?_outside sound here] at mapped
        exact below owner place found mapped
  | @unmapped pid address mapping _ atAddress unmaps =>
      by_cases here : owner = pid ∧ mapping.Covers place
      · rw [here.1, unmaps.mapping?_inside here.2] at mapped
        cases mapped
      · rw [unmaps.mapping?_outside sound here] at mapped
        exact below owner place found mapped
  | @left pid _ gone others =>
      by_cases same : owner = pid
      · rw [same, gone] at mapped
        cases mapped
      · rw [others owner place same] at mapped
        exact below owner place found mapped
  | @copied parent copies _ copying =>
      by_cases same : owner = ⟨before.nextPid⟩
      · rw [same] at mapped
        obtain ⟨source, ofSource, isCopy⟩ := copying.exists_source (whole parent) mapped
        rw [isCopy.start, isCopy.pageCount]
        exact below parent place source ofSource
      · rw [mapping?_of_path copying.path sound fun _ concerns => concerns.keepsMappings same]
          at mapped
        exact below owner place found mapped

theorem Reachable.belowKernel (reachable : machine.Reachable) : machine.BelowKernel := by
  induction reachable with
  | start settings frames disk files =>
      intro pid address mapping mapped
      simp [create, mapping?, page?] at mapped
  | next reached event leaves inductionHypothesis =>
      rw [event.state?_perform] at leaves
      exact (event.ends_regroups reached.sound reached.mappingsWhole).leaves
        (fun _ _ regroups => regroups.belowKernel reached.sound reached.mappingsWhole
          inductionHypothesis)
        (fun _ _ regroups => regroups.belowKernel reached.sound reached.mappingsWhole
          inductionHypothesis) _ leaves

/-! ## Groups in every reachable state -/

/-- The part of a file behind the page of a mapping with an index. The file is mapped from a
position on, one page after the other, and only the last page may have fewer bytes of it than a
page. -/
structure IsMember (mapping : Mapping) (base index : Nat) (region : FileRegion) : Prop where
  belongs : region.mapping = mapping
  offset : region.offset = base + index * pageSize
  isFirst : region.isFirst = true ↔ index = 0
  remaining : region.remaining = mapping.pageCount - 1 - index
  whole : region.readBytes + region.zeroBytes = pageSize
  positive : 1 ≤ region.readBytes
  full : index + 1 < mapping.pageCount → region.readBytes = pageSize

theorem isMember_regionAt {mapping : Mapping} {offset length index : Nat}
    (inside : index < mapping.pageCount)
    (least : mapping.pageCount * pageSize < length + pageSize) :
    IsMember mapping offset index (mapping.regionAt offset length index) := by
  have before : (index + 1) * pageSize ≤ mapping.pageCount * pageSize :=
    Nat.mul_le_mul_right _ inside
  refine ⟨rfl, rfl, decide_eq_true_iff, rfl, ?_, ?_, fun more => ?_⟩
  · exact Nat.add_sub_cancel' (Nat.min_le_right ..)
  · simp only [Mapping.regionAt, pageSize] at *
    omega
  · have further : (index + 2) * pageSize ≤ mapping.pageCount * pageSize :=
      Nat.mul_le_mul_right _ more
    simp only [Mapping.regionAt, pageSize] at *
    omega

/-- A mapping that begins within another one begins at one of its pages. -/
theorem covers_of_start_le {left right : Mapping} (leftAligned : left.start.offset = 0)
    (rightAligned : right.start.offset = 0) (later : left.start.toNat ≤ right.start.toNat)
    (within : right.start.toNat < left.start.toNat + left.pageCount * pageSize) :
    left.Covers right.start := by
  refine ⟨(right.start.toNat - left.start.toNat) / pageSize, ?_, ?_⟩
  · simp only [Address.offset, pageSize] at *
    omega
  · simp only [Address.offset, pageSize] at *
    omega

theorem MappingsWhole.disjoint {pid : Pid} {address place : VirtAddr} {left right : Mapping}
    (whole : machine.MappingsWhole pid) (leftAt : machine.mapping? pid address = some left)
    (rightAt : machine.mapping? pid place = some right) (different : left ≠ right) :
    left.start.toNat + left.pageCount * pageSize ≤ right.start.toNat ∨
      right.start.toNat + right.pageCount * pageSize ≤ left.start.toNat := by
  obtain ⟨leftAligned, leftCovers, leftMembers⟩ := whole.members leftAt
  obtain ⟨rightAligned, rightCovers, rightMembers⟩ := whole.members rightAt
  by_contra overlap
  rw [not_or, Nat.not_le, Nat.not_le] at overlap
  apply different
  -- The later one of the two begins at a page of both.
  rcases Nat.le_total left.start.toNat right.start.toNat with later | later
  · have shared := leftMembers _ (covers_of_start_le leftAligned rightAligned later overlap.1)
    rw [rightMembers _ rightCovers.start, Option.some.injEq] at shared
    exact shared.symm
  · have shared := rightMembers _ (covers_of_start_le rightAligned leftAligned later overlap.2)
    rw [leftMembers _ leftCovers.start, Option.some.injEq] at shared
    exact shared

theorem MappingsWhole.exists_member {pid : Pid} {address : VirtAddr} {mapping : Mapping}
    (whole : machine.MappingsWhole pid) (below : machine.BelowKernel)
    (mapped : machine.mapping? pid address = some mapping) :
    ∃ base, ∀ index < mapping.pageCount, ∃ place member region,
      place.toNat = mapping.start.toNat + index * pageSize ∧
        machine.page? pid place = some member ∧ member.kind = .file ∧
        member.region? = some region ∧ IsMember mapping base index region := by
  obtain ⟨region, atAddress, rfl⟩ := exists_region?_of_mapping? mapped
  obtain ⟨-, -, base, length, least, pages⟩ := whole address region atAddress
  refine ⟨base, fun index inside => ?_⟩
  have beyond : (index + 1) * pageSize ≤ region.mapping.pageCount * pageSize :=
    Nat.mul_le_mul_right _ inside
  have fits : region.mapping.start.toNat + index * pageSize < Word.limit := by
    have ends := below pid address region.mapping mapped
    simp only [pageSize, kernelBase, Word.limit] at *
    omega
  have atPlace := pages index ⟨_, fits⟩ ⟨inside, rfl⟩
  obtain ⟨member, registered, ofFile⟩ := Option.bind_eq_some_iff.1 atPlace
  exact ⟨_, member, _, rfl, registered, Page.kind_of_mapping? (congrArg _ ofFile), ofFile,
    isMember_regionAt inside least⟩

/-- No event stops the machine because a page of a mapping is missing, or because a mapping is
referred to after all its pages were removed. -/
theorem Reachable.spares_mappings (reachable : machine.Reachable) (event : Event) (fault : Fault)
    (stopped : event.perform machine = .halted fault) :
    (∀ page start, fault ≠ .mappedPageMissing page start) ∧
      ∀ start, fault ≠ .mappingReferenced start := by
  have lacks : fault.isMappingFault = true → fault = .handleClosedTwice := by
    by_cases keeps : event.KeepsHandles
    · obtain ⟨base, balanced⟩ := reachable.exists_balanced
      have ends := event.ends_balanced keeps reachable.sound reachable.mappingsWhole balanced
      rw [stopped] at ends
      exact fun overMapping => (ends overMapping).1
    · cases event with
      | changeFiles change => cases stopped
      | _ => exact absurd trivial keeps
  constructor
  · rintro page start rfl
    cases lacks rfl
  · rintro start rfl
    cases lacks rfl

/-- Between two events, a process that has a page of a mapping has all of its pages, at addresses
that follow one another and with parts of the file that do so, and the mapping has no page
elsewhere. Mappings of one process do not overlap, and no two processes share one. So no event finds
a page of a mapping missing, or a mapping that is referred to without a page. -/
theorem Reachable.mapping_groups (reachable : machine.Reachable) :
    (∀ pid address page mapping, machine.page? pid address = some page →
      page.mapping? = some mapping →
      (∃ base, ∀ index < mapping.pageCount, ∃ place member region,
        place.toNat = mapping.start.toNat + index * pageSize ∧
          machine.page? pid place = some member ∧ member.kind = .file ∧
          member.region? = some region ∧ IsMember mapping base index region) ∧
      ∃ index < mapping.pageCount, address.toNat = mapping.start.toNat + index * pageSize) ∧
    (∀ pid address place left right, machine.mapping? pid address = some left →
      machine.mapping? pid place = some right → left ≠ right →
        left.start.toNat + left.pageCount * pageSize ≤ right.start.toNat ∨
          right.start.toNat + right.pageCount * pageSize ≤ left.start.toNat) ∧
    (∀ pid other address place left right, machine.mapping? pid address = some left →
      machine.mapping? other place = some right → left.id = right.id → pid = other ∧ left = right) ∧
    ∀ event fault, Event.perform event machine = .halted fault →
      (∀ page start, fault ≠ .mappedPageMissing page start) ∧
        ∀ start, fault ≠ .mappingReferenced start := by
  have whole := reachable.mappingsWhole
  refine ⟨fun pid address page mapping registered belongs => ?_,
    fun pid _ _ _ _ => (whole pid).disjoint, fun _ _ _ _ _ _ leftAt rightAt sameId =>
      reachable.sound.apart _ _ _ _ _ _ leftAt rightAt sameId, reachable.spares_mappings⟩
  have mapped : machine.mapping? pid address = some mapping := by
    rw [mapping?, registered]
    exact belongs
  exact ⟨(whole pid).exists_member reachable.belowKernel mapped,
    ((whole pid).members mapped).2.1⟩

/-- A machine with one frame, two slots and a blank file that ends within its second page. -/
def tinyWithBlank : Machine :=
  create {} (FramePool.create 1) (Disk.create 16) ⟨#[{ storage := .blank 5000 }]⟩

/-- A process maps both pages of the file and is copied. The copy reads from its second page, which
drives out the first page of the original. -/
def copyingGroups : List Event :=
  [.createProcess, .mapFile ⟨1⟩ firstPage 5000 true 0 0, .readUser ⟨1⟩ firstPage 1, .fork ⟨1⟩,
    .readUser ⟨2⟩ secondPage 1]

/-- The copy has a mapping of two pages, of which the original has none. -/
theorem mapping_groups_copied :
    ∃ machine page mapping, tinyWithBlank.after? copyingGroups = some machine ∧
      machine.page? ⟨2⟩ secondPage = some page ∧ page.mapping? = some mapping ∧
      mapping.pageCount = 2 ∧
      (∃ base, ∀ index < mapping.pageCount, ∃ place member region,
        place.toNat = mapping.start.toNat + index * pageSize ∧
          machine.page? ⟨2⟩ place = some member ∧ member.kind = .file ∧
          member.region? = some region ∧ IsMember mapping base index region) ∧
      ∀ address, machine.mapping? ⟨1⟩ address ≠ some mapping := by
  have counted : ((tinyWithBlank.after? copyingGroups).bind fun machine =>
      (machine.mapping? ⟨2⟩ secondPage).map Mapping.pageCount) = some 2 := by decide +kernel
  obtain ⟨machine, run, counted⟩ := Option.bind_eq_some_iff.1 counted
  obtain ⟨mapping, mapped, count⟩ := Option.map_eq_some_iff.1 counted
  obtain ⟨page, registered, belongs⟩ := Option.bind_eq_some_iff.1 mapped
  have reachable : tinyWithBlank.Reachable := .start {} 1 (Disk.create 16) _
  obtain ⟨groups, -, apart, -⟩ := (reachable.of_after? run).mapping_groups
  refine ⟨machine, page, mapping, run, registered, belongs, count,
    (groups _ _ page mapping registered belongs).1, fun address atOriginal => ?_⟩
  have shared := (apart _ _ _ _ _ _ mapped atOriginal rfl).1
  cases shared

end Machine

end DemandPaging
