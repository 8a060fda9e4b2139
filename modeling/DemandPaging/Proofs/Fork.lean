import DemandPaging.Proofs.FrameOwnership

/-!
The copy of a process, in every state that a run leads to.

Owns:
- `Machine.IsCopy`, what a process has of the one it was copied from;
- `Machine.LeavesAlone`, what a process keeps while another one is copied.

Does not own: the copy page by page (`Machine.Copying`).

Main statements: `Reachable.fork_copies` and `Reachable.failed_fork_leaves_nothing`.
-/

namespace DemandPaging

namespace Machine

variable {machine before after : Machine} {parent child pid : Pid} {address : VirtAddr}
  {frame : PhysAddr}

/-- A process is a copy of another one, as that was. The copies of its mappings are kept by the
first pages of the mappings. -/
structure IsCopy (before after : Machine) (parent child : Pid) (copies : MappingCopies) : Prop where
  new : before.spaces[child]? = none
  process : (after.spaces[child]?).isSome = true
  stackPointer : after.stackPointer? child = before.stackPointer? parent
  absent : ∀ address, before.page? parent address = none → after.page? child address = none
  present : ∀ address page, before.page? parent address = some page →
    ∃ copy, after.page? child address = some copy ∧
      before.Copied parent child copies page copy after
  /-- Every mapping has a copy, of which no other process has a page. -/
  mapping : ∀ mapping ∈ before.mappings parent, ∃ copy : Mapping,
    copies[mapping.start]? = some copy ∧ copy.CopyOf mapping before.store.nextMapping ∧
      ∀ pid address, after.mapping? pid address = some copy → pid = child
  distinct : ∀ left ∈ before.mappings parent, ∀ right ∈ before.mappings parent,
    copies[left.start]? = copies[right.start]? → left = right
  handles : ∀ file, after.store.files.handles file =
    before.store.files.handles file + Mapping.countOf (before.mappings parent) file

/-- A process has the pages that it had, and they hold what they held. Pages of files may have left
memory, but those that did not are in their frames. -/
structure LeavesAlone (before after : Machine) (pid : Pid) : Prop where
  stackPointer : after.stackPointer? pid = before.stackPointer? pid
  page : ∀ address, before.KeepsPage after pid address
  file : ∀ address region frame, before.region? pid address = some region →
    after.frame? pid address = some frame → before.frame? pid address = some frame ∧
      after.resident.contents? frame = before.resident.contents? frame

/-- The copy of a process brings no page of a file in. -/
theorem frame?_of_concerns (path : Path (Move.Concerns child) before after) (sound : before.Sound)
    (different : pid ≠ child) {region : FileRegion}
    (ofFile : before.region? pid address = some region)
    (held : after.frame? pid address = some frame) :
    before.frame? pid address = some frame ∧
      after.resident.contents? frame = before.resident.contents? frame := by
  have kept : after.region? pid address = before.region? pid address ∧
      ∀ frame, after.frame? pid address = some frame → before.frame? pid address = some frame ∧
        after.resident.contents? frame = before.resident.contents? frame := by
    refine path.keeps_of_sound (fun state =>
      state.region? pid address = before.region? pid address ∧
        ∀ frame, state.frame? pid address = some frame → before.frame? pid address = some frame ∧
          state.resident.contents? frame = before.resident.contents? frame) sound
      ⟨rfl, fun _ held => ⟨held, rfl⟩⟩ ?_
    intro move middle next concerns step soundMiddle kept
    obtain ⟨same, frames⟩ := kept
    have sameMiddle :=
      region?_of_step step soundMiddle.frames (concerns.keepsMappings different) address
    refine ⟨sameMiddle.trans same, fun frame held => ?_⟩
    rcases step.frame?_cases soundMiddle held with ⟨earlier, bytes⟩ | ⟨kind, first, rfl⟩
    · obtain ⟨first, contents⟩ := frames frame earlier
      rcases bytes with unchanged | ⟨kind, rfl⟩
      · exact ⟨first, unchanged.trans contents⟩
      · exact absurd concerns.1 different
    · obtain ⟨page, registered, isKind, -⟩ := step.page_of_pageIn
      rw [ofFile, region?, registered, Option.bind_some] at same
      rw [concerns.1, ← Page.region?_eq_none_iff, same] at isKind
      cases isKind
  exact kept.2 frame held

theorem leavesAlone_of_concerns (path : Path (Move.Concerns child) before after)
    (sound : before.Sound) (different : pid ≠ child) : before.LeavesAlone after pid :=
  ⟨stackPointer?_of_concerns path different, path.keepsPage_of_concerns sound different,
    fun _ _ _ => frame?_of_concerns path sound different⟩

theorem Copying.isCopy {copies : MappingCopies}
    (copying : before.Copying child parent [] copies after) (sound : before.Sound)
    (whole : before.MappingsWhole parent)
    (new : before.spaces[child]? = none)
    (stackPointer : after.stackPointer? child = before.stackPointer? parent) :
    before.IsCopy after parent child copies := by
  have soundAfter := copying.path.sound sound
  refine ⟨new, ?_, stackPointer, fun address without => copying.vacant address (.inr without),
    fun address page => copying.copied address page List.not_mem_nil, ?_, ?_, fun file => ?_⟩
  · rw [Option.isSome_iff_ne_none]
    intro missing
    apply copying.process
    rw [Machine.stackPointer?, missing]
    rfl
  · intro mapping member
    obtain ⟨address, mapped⟩ := (mem_mappings_iff sound.frames).1 member
    obtain ⟨copy, known, same⟩ := copying.exists_copy whole mapped
    refine ⟨copy, known, same, fun pid place atPlace => ?_⟩
    obtain ⟨own, atChild⟩ := (mem_mappings_iff soundAfter.frames).1 (copying.live _ copy known)
    exact (soundAfter.apart _ _ _ _ _ _ atPlace atChild rfl).1
  · intro left leftMember right rightMember same
    obtain ⟨address, leftAt⟩ := (mem_mappings_iff sound.frames).1 leftMember
    obtain ⟨place, rightAt⟩ := (mem_mappings_iff sound.frames).1 rightMember
    exact copying.copy_injective whole leftAt rightAt same
  · rw [copying.accounted.handles, copying.countOf_mappings sound whole]

/-- A fork that succeeds answers a new process that is a copy of the parent as it was, down to the
contents of the anonymous pages, with mappings and handles of its own. Every other process is left
alone. -/
theorem Reachable.fork_copies (reachable : machine.Reachable)
    (forked : fork parent machine = .done child after) :
    (∃ copies, machine.IsCopy after parent child copies) ∧
      ∀ pid, pid ≠ child → machine.LeavesAlone after pid := by
  have sound := reachable.sound
  have ends := ends_fork sound reachable.mappingsWhole parent
  rw [forked] at ends
  obtain ⟨rfl, ⟨copies, copying⟩, stackPointer, -⟩ := ends
  constructor
  · exact ⟨copies, copying.isCopy sound (reachable.mappingsWhole parent) sound.frames.space_of_next
      stackPointer⟩
  · intro pid different
    exact leavesAlone_of_concerns copying.path sound different

/-- A process has a page that it wrote, one that it did not touch, and one of a file, which drove
the first out of memory. -/
def mixing : List Event :=
  [.createProcess, .registerPage ⟨1⟩ firstPage true .normal none,
    .registerPage ⟨1⟩ secondPage false .stack none, .mapFile ⟨1⟩ thirdPage 3 true 0 0,
    .writeUser ⟨1⟩ firstPage #[1, 2, 3], .readUser ⟨1⟩ thirdPage 3]

/-- A process with pages of every kind is copied through one frame. -/
theorem fork_copies_mixing :
    ∃ machine after, tinyWithFile.after? mixing = some machine ∧
      fork ⟨1⟩ machine = .done ⟨2⟩ after ∧ (∃ copies, machine.IsCopy after ⟨1⟩ ⟨2⟩ copies) ∧
      machine.LeavesAlone after ⟨1⟩ := by
  have runs : ((tinyWithFile.after? mixing).bind fun machine =>
      (fork ⟨1⟩ machine).answer?) = some ⟨2⟩ := by decide +kernel
  obtain ⟨machine, run, answers⟩ := Option.bind_eq_some_iff.1 runs
  obtain ⟨after, forked⟩ := Outcome.exists_of_answer? answers
  obtain ⟨copied, alone⟩ := (reachable_tinyWithFile.of_after? run).fork_copies forked
  exact ⟨machine, after, run, forked, copied, alone ⟨1⟩ (by decide)⟩

end Machine

end DemandPaging
