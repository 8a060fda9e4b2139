import DemandPaging.Proofs.FrameOwnership
import DemandPaging.Proofs.OpenHandles
import DemandPaging.Proofs.SlotOwnership
import DemandPaging.Proofs.Writability

/-!
What the end of a process releases.

Owns:
- `Machine.unsaved`, what is still to be written to files for a process, page by page;
- `Machine.Clears`, what the removal of one page does to frames, queue and files;
- `Machine.ReleasedBy`, what a machine is like after a process left it;
- that a process whose pages can be written back always leaves.

Does not own: the order in which the pages of a process are removed (`ends_exit_of_pages`).

Main statement: `Session.Reachable.exit_releases`.
-/

namespace DemandPaging

/-! ## What is written -/

namespace FileStore

variable {left right : FileStore}

/-- The files after pages were written back one after the other, each the bytes that its part of the
file has of it. -/
def writtenBack (files : FileStore) (pages : List (FileRegion × PageData)) : FileStore :=
  pages.foldl (fun files page => page.1.departed page.2 true files) files

theorem content?_writtenBack (same : ∀ file, left.content? file = right.content? file)
    (pages : List (FileRegion × PageData)) (file : FileId) :
    (left.writtenBack pages).content? file = (right.writtenBack pages).content? file := by
  unfold writtenBack
  induction pages generalizing left right with
  | nil => exact same file
  | cons page rest inductionHypothesis =>
      refine inductionHypothesis fun other => ?_
      simp only [FileRegion.departed, if_pos, content?_laid, same]

end FileStore

namespace Machine

variable {machine before now next after : Machine} {pid : Pid} {page other : Page}
  {base : FileId → Int}

/-- What is to be written to a file before a page is gone: the page has a part of the file behind it
and was written since it was brought in. -/
def unsaved? (machine : Machine) (pid : Pid) (page : Page) : Option (FileRegion × PageData) :=
  match page.backing with
  | .file region =>
    if machine.isDirty pid page.address then
      (page.frame.bind machine.resident.contents?).map fun bytes => (region, bytes)
    else
      none
  | .untouched _ | .anonymous _ => none

/-- What is to be written to files before a process is gone, in the order of addresses. -/
def unsaved (machine : Machine) (pid : Pid) : List (FileRegion × PageData) :=
  (machine.pagesOf pid).filterMap (machine.unsaved? pid)

/-- What is to be written for a page can be written, as the files are. -/
def CanSave (machine : Machine) (pid : Pid) (page : Page) : Prop :=
  ∀ region bytes, machine.unsaved? pid page = some (region, bytes) →
    ∃ store, region.writeBack page.address bytes true machine.store = .done () store

theorem canSave_iff : machine.CanSave pid page ↔
    ((machine.unsaved? pid page).all fun entry =>
      (entry.1.writeBack page.address entry.2 true machine.store).answer?.isSome) = true := by
  rw [Option.all_eq_true]
  constructor
  · rintro canSave ⟨region, bytes⟩ isUnsaved
    obtain ⟨store, saved⟩ := canSave region bytes isUnsaved
    rw [saved]
    rfl
  · intro answers region bytes isUnsaved
    obtain ⟨answer, answered⟩ := Option.isSome_iff_exists.1 (answers (region, bytes) isUnsaved)
    exact Outcome.exists_of_answer? answered

instance (machine : Machine) (pid : Pid) (page : Page) : Decidable (machine.CanSave pid page) :=
  decidable_of_iff _ canSave_iff.symm

/-! ## One page -/

/-- What the removal of a page of a process does. -/
structure Clears (before : Machine) (pid : Pid) (page : Page) (after : Machine) : Prop where
  frame : ∀ frame, page.frame = some frame →
    after.resident.owner? frame = none ∧ after.resident.contents? frame = some Block.zero
  others : ∀ frame, page.frame ≠ some frame →
    after.resident.owner? frame = before.resident.owner? frame ∧
      after.resident.contents? frame = before.resident.contents? frame
  queue : after.resident.queue =
    before.resident.queue.filter fun frame => page.frame ≠ some frame
  free : after.freeFrames = before.freeFrames + page.isResident.toNat
  files : ∀ file, after.store.files.content? file =
    (before.store.files.writtenBack (before.unsaved? pid page).toList).content? file

theorem clears_of_remove {kind : PageKind}
    (step : Step (.remove pid page.address kind) before after) (sound : before.Sound)
    (registered : before.page? pid page.address = some page) :
    before.Clears pid page after := by
  generalize sameAddress : page.address = address at step registered
  cases step with
  | @removeAbsent _ _ space removed _ _ _ found atAddress absent gaveUp forgot =>
      have registered' := (page?_of_space found removed.address).trans atAddress
      rw [registered, Option.some.injEq] at registered'
      subst registered'
      have nothing : before.unsaved? pid page = none := by
        unfold unsaved?
        rw [absent]
        split
        · simp
        · rfl
        · rfl
      refine ⟨fun frame held => ?_, fun _ _ => ⟨rfl, rfl⟩, ?_, ?_, fun file => ?_⟩
      · rw [absent] at held
        cases held
      · simp [absent]
      · rw [Page.isResident, absent]
        rfl
      · rw [nothing, Page.content?_of_forget forgot, (Backing.files_of_giveUp gaveUp).2]
        rfl
  | @removeResident _ _ space removed frame _ bytes _ _ _ _ _ resident found atAddress held read
      gaveUp _ clear released forgot =>
      have registered' := (page?_of_space found removed.address).trans atAddress
      rw [registered, Option.some.injEq] at registered'
      subst registered'
      have owner := sound.frames.owner?_of_held (sameAddress ▸ registered) held
      have soundResident := sound.frames.resident
      have sameOwner := (ResidentSet.owner?_of_write clear frame).trans owner
      obtain ⟨-, owners, contents⟩ := soundResident.of_write_release owner clear released
      obtain ⟨-, queue, -⟩ := (soundResident.write clear).of_release sameOwner released
      refine ⟨?_, ?_, ?_, ?_, fun file => ?_⟩
      · rintro _ same
        rw [held, Option.some.injEq] at same
        subst same
        exact ⟨by rw [owners, if_pos rfl], by rw [contents, if_pos rfl]⟩
      · intro place different
        rw [held, ne_eq, Option.some.injEq] at different
        exact ⟨by rw [owners, if_neg different], by rw [contents, if_neg different]⟩
      · rw [queue, (ResidentSet.of_write clear).2.2.1]
        simp [held, eq_comm]
      · rw [Page.isResident, held]
        exact ((soundResident.write clear).freeCount_of_release sameOwner released).trans
          (congrArg (· + 1) (ResidentSet.freeCount_of_write clear))
      · rw [Page.content?_of_forget forgot, (Backing.files_of_giveUp gaveUp).2, Option.elim_some]
        unfold unsaved?
        cases backed : page.backing with
        | untouched _ | anonymous _ => rfl
        | file region =>
            rw [ResidentSet.read_eq_ok_iff] at read
            dsimp only [Backing.departed]
            rw [isDirty, found, Option.any_some, held, Option.bind_some, read]
            cases space.table.isDirty page.address with
            | false => rfl
            | true => rfl

/-- What is to be written for the other pages of the process stays what it is. -/
theorem Clears.unsaved?_eq {kind : PageKind} (clears : before.Clears pid page after)
    (step : Step (.remove pid page.address kind) before after) (owned : before.FramesOwned)
    (registered : before.page? pid page.address = some page)
    (also : before.page? pid other.address = some other)
    (different : page.address ≠ other.address) :
    after.unsaved? pid other = before.unsaved? pid other := by
  have dirty : after.isDirty pid other.address = before.isDirty pid other.address := by
    have whole := Address.pageDown_eq_self_iff.2 (owned.located also).2
    rcases step.isDirty_cases owned pid other.address with
      same | ⟨_, accesses, -⟩ | ⟨-, _, _, -, -, leaves | leaves⟩
    · exact same
    · cases accesses
    · cases leaves
    · injection leaves with _ sameAddress
      exact absurd (sameAddress.trans whole) different
  have contents : other.frame.bind after.resident.contents? =
      other.frame.bind before.resident.contents? := by
    refine Option.bind_congr fun frame held => (clears.others frame fun alsoHeld => ?_).2
    have owner := owned.owner?_of_held also held
    rw [owned.owner?_of_held registered alsoHeld, Option.some.injEq, FrameOwner.mk.injEq] at owner
    exact different owner.2
  unfold unsaved?
  rw [dirty, contents]

/-- What is to be written for the other pages of the process can still be written. -/
theorem CanSave.of_remove {kind : PageKind} (canSave : before.CanSave pid other)
    (step : Step (.remove pid page.address kind) before after) (sound : before.Sound)
    (registered : before.page? pid page.address = some page)
    (also : before.page? pid other.address = some other)
    (different : page.address ≠ other.address) : after.CanSave pid other := by
  have clears := clears_of_remove step sound registered
  rw [CanSave, clears.unsaved?_eq step sound.frames registered also different]
  intro region bytes isUnsaved
  obtain ⟨store, saves⟩ := canSave region bytes isUnsaved
  have alike := region.answer?_writeBack (step.manner? (by simp) region.mapping.file)
    other.address bytes true
  rw [saves] at alike
  exact Outcome.exists_of_answer? alike

/-! ## All pages -/

/-- Some pages of a process are left, and the others are cleared. What is to be written after that
makes of the files what all was to make of them at first. -/
structure Clearing (before : Machine) (pid : Pid) (rest : List Page) (now : Machine) : Prop where
  frames : ∀ frame,
    now.resident.owner? frame = before.resident.owner? frame ∧
        now.resident.contents? frame = before.resident.contents? frame ∨
      (∃ address, before.resident.owner? frame = some ⟨pid, address⟩) ∧
        now.resident.owner? frame = none ∧ now.resident.contents? frame = some Block.zero
  queue : now.resident.queue.Sublist before.resident.queue
  free : now.freeFrames + rest.countP Page.isResident =
    before.freeFrames + (before.pagesOf pid).countP Page.isResident
  files : ∀ file,
    (now.store.files.writtenBack (rest.filterMap (now.unsaved? pid))).content? file =
      (before.store.files.writtenBack (before.unsaved pid)).content? file
  canSave : ∀ page ∈ rest, now.CanSave pid page

theorem Clearing.begin (canSave : ∀ page ∈ before.pagesOf pid, before.CanSave pid page) :
    before.Clearing pid (before.pagesOf pid) before :=
  ⟨fun _ => .inl ⟨rfl, rfl⟩, List.Sublist.refl _, rfl, fun _ => rfl, canSave⟩

theorem Clearing.remove {rest : List Page} (clearing : before.Clearing pid (page :: rest) now)
    (sound : now.Sound) (pages : now.HasPages pid (page :: rest))
    (step : Step (.remove pid page.address page.kind) now next) :
    before.Clearing pid rest next := by
  have registered : now.page? pid page.address = some page :=
    (pages.listed _ _).2 ⟨List.mem_cons_self, rfl⟩
  have clears := clears_of_remove step sound registered
  have distinct := pages.distinct
  rw [List.map_cons, List.nodup_cons] at distinct
  have known (other : Page) (left : other ∈ rest) :
      now.page? pid other.address = some other ∧ page.address ≠ other.address := by
    refine ⟨(pages.listed _ _).2 ⟨List.mem_cons_of_mem _ left, rfl⟩, fun same => distinct.1 ?_⟩
    rw [same]
    exact List.mem_map_of_mem left
  have sameUnsaved (other : Page) (left : other ∈ rest) :
      next.unsaved? pid other = now.unsaved? pid other :=
    clears.unsaved?_eq step sound.frames registered (known other left).1 (known other left).2
  refine ⟨fun frame => ?_, ?_, ?_, fun file => ?_, fun other left => ?_⟩
  · by_cases held : page.frame = some frame
    · have owner := sound.frames.owner?_of_held registered held
      rcases clearing.frames frame with ⟨sameOwner, -⟩ | ⟨-, vacant, -⟩
      · exact .inr ⟨⟨_, sameOwner.symm.trans owner⟩, clears.frame frame held⟩
      · rw [owner] at vacant
        cases vacant
    · obtain ⟨sameOwner, sameContents⟩ := clears.others frame held
      rw [sameOwner, sameContents]
      exact clearing.frames frame
  · rw [clears.queue]
    exact List.filter_sublist.trans clearing.queue
  · have counted := clearing.free
    rw [List.countP_cons] at counted
    rw [clears.free, ← counted]
    cases page.isResident with
    | true => simp only [Bool.toNat_true, if_pos]; omega
    | false => simp
  · rw [← clearing.files, List.filterMap_congr sameUnsaved, List.filterMap_cons]
    refine (FileStore.content?_writtenBack clears.files _ file).trans ?_
    cases now.unsaved? pid page with
    | none => rfl
    | some entry => rfl
  · exact (clearing.canSave other (List.mem_cons_of_mem _ left)).of_remove step sound registered
      (known other left).1 (known other left).2

/-- A page whose unsaved bytes can be written gives up what it holds. -/
theorem CanSave.ends_giveUp {spaces : Std.ExtTreeMap Pid AddressSpace} {space : AddressSpace}
    (canSave : ({ now with spaces } : Machine).CanSave pid page)
    (sound : ({ now with spaces } : Machine).Sound) (found : spaces[pid]? = some space)
    (registered : space.pages.at? page.address = some page) :
    (page.backing.giveUp page.address (page.frame.bind now.resident.contents?)
      (space.table.isDirty page.address) now.store).Ends (fun _ _ => True) (fun _ _ => True)
        (fun _ => False) := by
  have known : ({ now with spaces } : Machine).page? pid page.address = some page :=
    (page?_of_space found page.address).trans registered
  cases backed : page.backing with
  | untouched _ => trivial
  | anonymous slot? =>
      cases slot? with
      | none => trivial
      | some slot =>
          have occupied := sound.slots.isOccupied_of_recorded known
            (by rw [Page.slot?, backed]; rfl)
          exact (Backing.ends_giveUp_anonymous occupied).imp (fun _ _ _ => trivial)
            (fun _ _ _ => trivial) (fun _ no => no)
  | file region =>
      cases holds : page.frame.bind now.resident.contents? with
      | none => trivial
      | some bytes =>
          have saves : ∃ store, region.writeBack page.address bytes
              (space.table.isDirty page.address) now.store = .done () store := by
            cases dirty : space.table.isDirty page.address with
            | false => exact ⟨now.store, rfl⟩
            | true =>
                refine canSave region bytes ?_
                simp [unsaved?, backed, isDirty, found, dirty, holds]
          obtain ⟨store, saved⟩ := saves
          simp only [Backing.giveUp, Action.ends_bind, Action.ends_attempt, saved]
          trivial

/-- A page whose unsaved bytes can be written is removed, if no handle of a mapping was closed from
outside. -/
theorem Balanced.stops_destroyPage_of_canSave {spaces : Std.ExtTreeMap Pid AddressSpace}
    {space : AddressSpace} (balanced : ({ now with spaces } : Machine).Balanced base)
    (sound : ({ now with spaces } : Machine).Sound) (handles : ∀ file, 0 ≤ base file)
    (found : spaces[pid]? = some space) (registered : space.pages.at? page.address = some page)
    (canSave : ({ now with spaces } : Machine).CanSave pid page) :
    (destroyPage space.table page now).Ends (fun _ _ => True) (fun _ _ => True)
      (fun _ => False) := by
  have known : ({ now with spaces } : Machine).page? pid page.address = some page :=
    (page?_of_space found page.address).trans registered
  refine (ends_destroyPage_of_parts (fun _ => False) sound found registered
    (canSave.ends_giveUp sound found registered) fun backing store gaveUp => ?_).imp
      (fun _ _ _ => trivial) (fun _ _ _ => trivial) (fun _ no => no)
  refine (balanced.stops_forget sound.frames known (.of_giveUp gaveUp)).imp
    (fun _ _ done => done) (fun _ _ failed => failed) ?_
  rintro _ ⟨-, file, negative⟩
  exact absurd negative (Int.not_lt.2 (handles file))

/-! ## The end of a process -/

/-- What a machine is like after a process left it. -/
structure ReleasedBy (before : Machine) (pid : Pid) (after : Machine) : Prop where
  /-- The process is gone, and every other one has the page table and the pages that it had. -/
  outside : after = { before with
    resident := after.resident, store := after.store, spaces := before.spaces.erase pid }
  /-- Its frames are free and zero-filled. -/
  cleared : ∀ frame address, before.resident.owner? frame = some ⟨pid, address⟩ →
    after.resident.owner? frame = none ∧ after.resident.contents? frame = some Block.zero
  /-- All other frames are as they were. -/
  untouched : ∀ frame, (∀ address, before.resident.owner? frame ≠ some ⟨pid, address⟩) →
    after.resident.owner? frame = before.resident.owner? frame ∧
      after.resident.contents? frame = before.resident.contents? frame
  /-- The frames that may be evicted are the others, in the same order. -/
  queue : after.resident.queue = before.resident.queue.filter fun frame =>
    (before.resident.owner? frame).any fun owner => owner.pid ≠ pid
  free : after.freeFrames = before.freeFrames + (before.pagesOf pid).countP Page.isResident
  slots : before.usedSwapSlots =
    after.usedSwapSlots + (before.pagesOf pid).countP Page.isSwappedOut
  /-- The dirty pages of files that were in memory are written, and nothing else. -/
  files : ∀ file, after.store.files.content? file =
    (before.store.files.writtenBack (before.unsaved pid)).content? file

/-- The pages of a process, and those of the others. -/
theorem perm_pages_of_erase (spaces : after.spaces = before.spaces.erase pid) :
    before.pages.Perm (before.pagesOf pid ++ after.pages) := by
  unfold pages pagesOf
  cases found : before.spaces[pid]? with
  | none => rw [spaces, erase_absent found]; rfl
  | some space =>
      have nodup (spaces : Std.ExtTreeMap Pid AddressSpace) : spaces.toList.Nodup :=
        Std.ExtTreeMap.distinct_keys_toList.imp fun different same =>
          different (by rw [same]; exact Std.ReflCmp.compare_self)
      have perm : before.spaces.toList.Perm ((pid, space) :: after.spaces.toList) := by
        refine (List.perm_ext_iff_of_nodup (nodup _) (List.nodup_cons.2 ⟨?_, nodup _⟩)).2 ?_
        · rw [Std.ExtTreeMap.mem_toList_iff_getElem?_eq_some, spaces_erase spaces, if_pos rfl]
          simp
        · rintro ⟨other, memory⟩
          rw [List.mem_cons, Std.ExtTreeMap.mem_toList_iff_getElem?_eq_some,
            Std.ExtTreeMap.mem_toList_iff_getElem?_eq_some, spaces_erase spaces, Prod.mk.injEq]
          by_cases same : pid = other
          · subst same
            simp [found, eq_comm]
          · simp [same, Ne.symm same]
      exact perm.flatMap_right _

/-- The frames of other processes stay as they are. -/
theorem Clearing.untouched {rest : List Page} (clearing : before.Clearing pid rest after)
    {frame : PhysAddr} (apart : ∀ address, before.resident.owner? frame ≠ some ⟨pid, address⟩) :
    after.resident.owner? frame = before.resident.owner? frame ∧
      after.resident.contents? frame = before.resident.contents? frame := by
  rcases clearing.frames frame with same | ⟨⟨address, owner⟩, -⟩
  · exact same
  · exact absurd owner (apart address)

/-- A frame of the process that it does not have any more is free. -/
theorem Clearing.cleared {rest : List Page} (clearing : before.Clearing pid rest after)
    (gone : ∀ frame address, after.resident.owner? frame ≠ some ⟨pid, address⟩) {frame : PhysAddr}
    {address : VirtAddr} (owner : before.resident.owner? frame = some ⟨pid, address⟩) :
    after.resident.owner? frame = none ∧ after.resident.contents? frame = some Block.zero := by
  rcases clearing.frames frame with ⟨same, -⟩ | ⟨-, freed⟩
  · exact absurd (same.trans owner) (gone frame address)
  · exact freed

/-- The queue lost only frames of the process, and all of them. -/
theorem Clearing.queue_eq {rest : List Page} (clearing : before.Clearing pid rest after)
    (sound : before.Sound) (soundAfter : after.Sound)
    (gone : ∀ frame address, after.resident.owner? frame ≠ some ⟨pid, address⟩) :
    after.resident.queue = before.resident.queue.filter fun frame =>
      (before.resident.owner? frame).any fun owner => owner.pid ≠ pid := by
  let stays (frame : PhysAddr) : Bool :=
    (before.resident.owner? frame).any fun owner => owner.pid ≠ pid
  have queued (frame : PhysAddr) :
      frame ∈ after.resident.queue ↔ frame ∈ before.resident.queue.filter stays := by
    rw [List.mem_filter, soundAfter.frames.resident.queued, sound.frames.resident.queued]
    cases owned : before.resident.owner? frame with
    | none =>
        rw [(clearing.untouched fun address => by rw [owned]; simp).1, owned]
        simp
    | some owner =>
        obtain ⟨other, address⟩ := owner
        by_cases same : other = pid
        · subst same
          rw [(clearing.cleared gone owned).1]
          simp [stays, owned]
        · rw [(clearing.untouched fun place => by rw [owned]; simp [same]).1, owned]
          simp [stays, owned, same]
  have perm : after.resident.queue.Perm (before.resident.queue.filter stays) :=
    (List.perm_ext_iff_of_nodup soundAfter.frames.resident.nodup
      (sound.frames.resident.nodup.filter _)).2 queued
  have kept : after.resident.queue.filter stays = after.resident.queue :=
    List.filter_eq_self.2 fun frame listed => (List.mem_filter.1 ((queued frame).1 listed)).2
  have sublist := clearing.queue.filter stays
  rw [kept] at sublist
  exact sublist.eq_of_length perm.length_eq

/-- A process all of whose pages were cleared has released them. -/
theorem Clearing.released (clearing : before.Clearing pid [] after) (sound : before.Sound)
    (soundAfter : after.Sound)
    (outside : after = { before with
      resident := after.resident, store := after.store, spaces := before.spaces.erase pid }) :
    before.ReleasedBy pid after := by
  have spaces : after.spaces = before.spaces.erase pid := by rw [outside]
  have gone (frame : PhysAddr) (address : VirtAddr) :
      after.resident.owner? frame ≠ some ⟨pid, address⟩ := by
    intro owner
    rw [soundAfter.frames.owner_iff, frame?, page?, spaces_erase spaces, if_pos rfl] at owner
    cases owner
  refine ⟨outside, fun _ _ => clearing.cleared gone, fun _ => clearing.untouched,
    clearing.queue_eq sound soundAfter gone, clearing.free, ?_, clearing.files⟩
  rw [sound.slots.usedSwapSlots_eq, soundAfter.slots.usedSwapSlots_eq, swappedOut, swappedOut,
    ← List.countP_eq_length_filter, ← List.countP_eq_length_filter,
    (perm_pages_of_erase spaces).countP_eq, List.countP_append, Nat.add_comm]

/-- A process whose pages can be written back is removed, and releases what it held, if no handle of
a mapping was closed from outside. -/
theorem Balanced.exists_exit (balanced : before.Balanced base) (sound : before.Sound)
    (handles : ∀ file, 0 ≤ base file) (pid : Pid)
    (canSave : ∀ page ∈ before.pagesOf pid, before.CanSave pid page) :
    ∃ after, exit pid before = .done () after ∧ before.ReleasedBy pid after := by
  have ends := ends_exit_of_pages (fun _ => False) (before.Clearing pid) sound pid
    (.begin canSave)
    (fun page rest now next path pages clearing step =>
      clearing.remove (path.sound sound) pages step)
    fun state space page rest path registered clearing => by
      have found : (before.spaces.insert pid space)[pid]? = some space := by simp
      have soundNow := path.sound sound
      have balancedNow := path.balanced sound (fun _ exits => exits.keepsReferences) balanced
      exact balancedNow.stops_destroyPage_of_canSave soundNow handles found registered
        (clearing.canSave page List.mem_cons_self)
  cases ran : exit pid before with
  | failed _ _ | halted _ =>
      rw [ran] at ends
      exact ends.elim
  | done _ after =>
      rw [ran] at ends
      obtain ⟨path, outside, spaces, clearing⟩ := ends
      refine ⟨after, rfl, ?_⟩
      have cleared : before.Clearing pid [] after :=
        ⟨clearing.frames, clearing.queue, clearing.free, clearing.files, nofun⟩
      exact cleared.released sound (path.sound sound) outside

/-- Without processes every frame is free, and no slot is taken. -/
theorem Sound.of_isEmpty (sound : machine.Sound) (empty : machine.spaces.isEmpty = true) :
    machine.freeFrames = machine.resident.pool.capacity ∧ machine.usedSwapSlots = 0 := by
  have none : machine.spaces = ∅ := Std.ExtTreeMap.isEmpty_iff.1 empty
  have vacant (pid : Pid) (address : VirtAddr) : machine.page? pid address = .none := by
    rw [page?, none]
    rfl
  have queue : machine.resident.queue = [] := by
    refine List.eq_nil_iff_forall_not_mem.2 fun frame queued => ?_
    obtain ⟨⟨pid, address⟩, owner⟩ := Option.isSome_iff_exists.1
      ((sound.frames.resident.queued frame).1 queued)
    rw [sound.frames.owner_iff, frame?, vacant] at owner
    cases owner
  constructor
  · have counted := sound.frames.freeFrames_add_residentPages
    have resident : machine.residentPages = 0 := by
      rw [residentPages, ResidentSet.residentCount, ← Std.ExtTreeMap.length_keys,
        ← sound.frames.perm_queue.length_eq, queue]
      rfl
    rw [resident] at counted
    exact counted
  · rw [sound.slots.usedSwapSlots_eq, swappedOut, pages, none]
    rfl

end Machine

namespace Session

open Machine

variable {session : Session}

/-- In every reachable state a process whose dirty pages of files can be written back is removed.
Its frames are then free and zero-filled, its slots are free, the handles of its groups are closed,
its dirty pages of files are written back, and nothing of any other process and nothing else in any
file changes. When there is no process left, every frame and every slot is free, and only the
handles that the caller holds are open. -/
theorem Reachable.exit_releases (reachable : session.Reachable) :
    (∀ pid, (∀ page ∈ session.machine.pagesOf pid, session.machine.CanSave pid page) →
      ∃ after, exit pid session.machine = .done () after ∧
        session.machine.ReleasedBy pid after ∧
        ∀ file, session.machine.store.files.handles file = after.store.files.handles file +
          session.groups.countP fun group => group.pid = pid ∧ group.file = file) ∧
    (session.machine.spaces.isEmpty = true →
      session.machine.freeFrames = session.machine.resident.pool.capacity ∧
      session.machine.usedSwapSlots = 0 ∧
      ∀ file, session.machine.store.files.handles file = session.heldOn file) := by
  have balanced := reachable.balanced
  constructor
  · intro pid canSave
    obtain ⟨after, ran, released⟩ := balanced.balanced.exists_exit balanced.sound
      (fun _ => Int.natCast_nonneg _) pid canSave
    exact ⟨after, ran, released, balanced.handles_of_exit ran⟩
  · intro empty
    obtain ⟨frames, slots⟩ := balanced.sound.of_isEmpty empty
    refine ⟨frames, slots, fun file => ?_⟩
    have noGroup : session.groups = [] := by
      refine List.eq_nil_iff_forall_not_mem.2 fun group listed => ?_
      obtain ⟨mapping, mapped, -⟩ := (balanced.tracks.mem_iff group).1 listed
      rw [Machine.mapping?, page?, Std.ExtTreeMap.isEmpty_iff.1 empty] at mapped
      cases mapped
    rw [balanced.handles_eq, groupsOn, noGroup]
    rfl

/-- A page is written, and driven out by a page of a file that is written too. -/
def holding : List Call :=
  [.ask .createProcess, .ask (.registerPage ⟨1⟩ firstPage true .normal none),
    .ask (.writeUser ⟨1⟩ firstPage #[1, 2, 3]), .ask (.mapFile ⟨1⟩ secondPage 3 true 0 0),
    .ask (.writeUser ⟨1⟩ secondPage #[4])]

/-- The process leaves with a page in a slot, and a dirty page of the file in the only frame. Then
nothing is left. -/
theorem exit_releases_holding :
    (∃ session after, Session.after? { machine := tinyWithFile } holding = some session ∧
      exit ⟨1⟩ session.machine = .done () after ∧
      session.machine.freeFrames = 0 ∧ after.freeFrames = 1 ∧
      session.machine.usedSwapSlots = 1 ∧ after.usedSwapSlots = 0 ∧
      session.machine.store.files.handles 0 = 1 ∧ after.store.files.handles 0 = 0 ∧
      after.store.files.bytes? 0 = some #[4, 8, 9]) ∧
    ∃ last, Session.after? { machine := tinyWithFile } (holding ++ [.ask (.exit ⟨1⟩)]) =
        some last ∧
      last.machine.freeFrames = last.machine.resident.pool.capacity ∧
      last.machine.usedSwapSlots = 0 ∧
      ∀ file, last.machine.store.files.handles file = last.heldOn file := by
  have holds : (Session.after? { machine := tinyWithFile } holding).any (fun session =>
      (∀ page ∈ session.machine.pagesOf ⟨1⟩, session.machine.CanSave ⟨1⟩ page) ∧
      session.machine.freeFrames = 0 ∧ session.machine.usedSwapSlots = 1 ∧
      session.machine.store.files.handles 0 = 1 ∧
      (session.machine.pagesOf ⟨1⟩).countP Page.isResident = 1 ∧
      (session.machine.pagesOf ⟨1⟩).countP Page.isSwappedOut = 1 ∧
      (session.groups.countP fun group => group.pid = ⟨1⟩ ∧ group.file = 0) = 1 ∧
      (session.machine.store.files.writtenBack (session.machine.unsaved ⟨1⟩)).bytes? 0 =
        some #[4, 8, 9]) = true := by
    decide +kernel
  have empties : (Session.after? { machine := tinyWithFile }
      (holding ++ [.ask (.exit ⟨1⟩)])).any (fun last => last.machine.spaces.isEmpty) = true := by
    decide +kernel
  obtain ⟨session, run, state⟩ := (Option.any_eq_true _ _).1 holds
  obtain ⟨last, runLast, empty⟩ := (Option.any_eq_true _ _).1 empties
  obtain ⟨canSave, free, used, handles, resident, swappedOut, groups, written⟩ :=
    of_decide_eq_true state
  have start : Reachable { machine := tinyWithFile } :=
    .start fun file => by cases file <;> simp [FileStore.handles]
  have keeps : ∀ call ∈ holding, call.KeepsHandles := by
    simp [holding, Call.KeepsHandles, Event.KeepsHandles]
  have keepsLast : ∀ call ∈ holding ++ [.ask (.exit ⟨1⟩)], call.KeepsHandles := by
    simp [holding, Call.KeepsHandles, Event.KeepsHandles]
  refine ⟨?_, last, runLast, (start.of_after? keepsLast runLast).exit_releases.2 empty⟩
  obtain ⟨after, ran, released, closed⟩ :=
    (start.of_after? keeps run).exit_releases.1 ⟨1⟩ canSave
  have freed := released.free
  have slots := released.slots
  have handlesAfter := closed 0
  rw [free, resident] at freed
  rw [used, swappedOut] at slots
  rw [handles, groups] at handlesAfter
  refine ⟨session, after, run, ran, free, freed, used, by omega, handles, by omega, ?_⟩
  rw [← written]
  exact FileStore.bytes?_congr (released.files 0)

end Session

end DemandPaging
