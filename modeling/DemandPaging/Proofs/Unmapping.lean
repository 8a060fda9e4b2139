import DemandPaging.Proofs.SystemCalls

/-!
What the removal of a mapping leaves.

Owns:
- `Machine.groupPages`, the pages of a mapping, in the order of their addresses, in which they are
  removed;
- `Machine.Removed`, what a machine is like after some pages of files were removed, one after the
  other;
- that it does not matter by which of its addresses a mapping is removed.

Does not own: that the pages of a mapping are whole (`Machine.MappingsWhole`), and that nothing
stops their removal (`Machine.Balanced.ends_unmapFile`).

The step from one page to the next is `Removed.snoc`. It holds of pages in every state, whether they
were never touched, are in memory or were evicted.

Main statement: `Session.Reachable.unmaps_group`.
-/

namespace DemandPaging

/-! ## What is written -/

theorem FileStore.writtenBack_append (files : FileStore)
    (first second : List (FileRegion × PageData)) :
    files.writtenBack (first ++ second) = (files.writtenBack first).writtenBack second :=
  List.foldl_append

/-- A file that stores bytes is written once for each page of it that is written back. -/
theorem FileStore.writes_writtenBack {files : FileStore} {file : FileId} {bytes : Array UInt8}
    (stored : files.bytes? file = some bytes) (pages : List (FileRegion × PageData)) :
    (files.writtenBack pages).writes file =
      files.writes file + pages.countP fun page => page.1.mapping.file = file := by
  induction pages generalizing files bytes with
  | nil => rfl
  | cons page rest inductionHypothesis =>
      obtain ⟨region, data⟩ := page
      by_cases here : region.mapping.file = file
      · subst here
        obtain ⟨laid, more⟩ := of_laid stored region.offset (data.slice 0 region.readBytes)
        refine (inductionHypothesis laid).trans ?_
        simp only [more, List.countP_cons, decide_true, if_true]
        omega
      · have same : (region.departed data true files).content? file = files.content? file :=
          region.content?_departed_of_ne here
        refine (inductionHypothesis ((bytes?_congr same).trans stored)).trans ?_
        rw [writes_congr same, List.countP_cons_of_neg (by simpa using here)]

/-! ## One page -/

theorem Page.slot?_of_file {page : Page} (file : page.kind = .file) : page.slot? = none := by
  unfold Page.slot? Backing.slot?
  split
  case h_1 _ slot backed =>
    rw [Page.kind, backed] at file
    cases file
  case h_2 => rfl

section Steps

open Machine

variable {before after : Machine} {pid : Pid} {address : VirtAddr}

/-- A page that is removed is translated no more, and every other translation stays. -/
theorem Step.view?_of_remove {kind : PageKind}
    (step : Step (.remove pid address kind) before after) (owned : before.FramesOwned)
    (other : Pid) (place : VirtAddr) :
    after.view? other place =
      if pid = other ∧ address = place then none else before.view? other place := by
  cases step with
  | @removeAbsent _ _ _ page _ _ _ found registered absent _ _ =>
      refine (view?_keep found rfl (by rfl) other place).trans ?_
      split
      case isTrue here =>
        rw [← here.1, ← here.2]
        refine owned.view?_of_absent ?_
        rw [frame?, page?_of_space found, registered]
        exact absent
      case isFalse => rfl
  | removeResident found registered held _ _ unmapped _ _ _ =>
      exact view?_update found rfl
        ((owned.spaces _ _ found).1.view?_of_unmap registered held unmapped) other place

theorem Step.outside_of_remove {kind : PageKind}
    (step : Step (.remove pid address kind) before after) : after = { before with
      resident := after.resident, store := after.store, spaces := after.spaces } := by
  cases step <;> rfl

/-- The removal of a page of a file leaves the swap area alone. -/
theorem Step.swap_of_remove (step : Step (.remove pid address .file) before after)
    (sound : before.Sound) : after.store.swap = before.store.swap := by
  have keeps {page : Page} {other : Pid} {place : VirtAddr} {dirty : Bool}
      {resident : Option PageData} {backing : Backing} {store rest : BackingStore}
      (file : page.kind = .file) (registered : before.page? other place = some page)
      (gaveUp : page.backing.giveUp page.address resident dirty before.store = .done backing store)
      (forgot : page.forget store = .done () rest) : rest.swap = before.store.swap := by
    have known := fun mapping => sound.mappings other place page mapping registered
    rcases (Page.of_removal known gaveUp forgot).2.2.2 with ⟨slot, recorded, -⟩ | ⟨-, same⟩
    · rw [Page.slot?_of_file file] at recorded
      cases recorded
    · exact same
  generalize isFile : PageKind.file = kind at step
  cases step with
  | removeAbsent found registered _ gaveUp forgot =>
      exact keeps isFile.symm ((page?_of_space found _).trans registered) gaveUp forgot
  | removeResident found registered _ _ gaveUp _ _ _ forgot =>
      exact keeps isFile.symm ((page?_of_space found _).trans registered) gaveUp forgot

end Steps

namespace Machine

variable {before middle after : Machine} {pid : Pid} {address : VirtAddr} {mapping : Mapping}
  {page : Page} {gone : List Page}

/-! ## Some pages -/

/-- What a machine is like after pages of a process were removed, one after the other. -/
structure Removed (before : Machine) (pid : Pid) (gone : List Page) (after : Machine) : Prop where
  outside : after = { before with
    resident := after.resident
    store := { after.store with swap := before.store.swap }
    spaces := after.spaces }
  /-- The pages are registered no more, and every other page stays as it was. -/
  pages : ∀ other place, after.page? other place =
    if pid = other ∧ place ∈ gone.map Page.address then none else before.page? other place
  /-- So it is with what the page tables say. -/
  views : ∀ other place, after.view? other place =
    if pid = other ∧ place ∈ gone.map Page.address then none else before.view? other place
  processes : ∀ other, after.stackPointer? other = before.stackPointer? other
  /-- Their frames are free and zero-filled. -/
  cleared : ∀ page ∈ gone, ∀ frame, page.frame = some frame →
    after.resident.owner? frame = none ∧ after.resident.contents? frame = some Block.zero
  /-- All other frames are as they were. -/
  untouched : ∀ frame, (∀ page ∈ gone, page.frame ≠ some frame) →
    after.resident.owner? frame = before.resident.owner? frame ∧
      after.resident.contents? frame = before.resident.contents? frame
  /-- The frames that may be evicted are the others, in the same order. -/
  queue : after.resident.queue =
    before.resident.queue.filter fun frame => ∀ page ∈ gone, page.frame ≠ some frame
  free : after.freeFrames = before.freeFrames + gone.countP Page.isResident
  /-- The dirty ones that were in memory are written, each once, and nothing else. -/
  files : ∀ file, after.store.files.content? file =
    (before.store.files.writtenBack (gone.filterMap (before.unsaved? pid))).content? file

namespace Removed

theorem nil (before : Machine) (pid : Pid) : before.Removed pid [] before where
  outside := rfl
  pages := by simp
  views := by simp
  processes _ := rfl
  cleared _ listed := absurd listed List.not_mem_nil
  untouched _ _ := ⟨rfl, rfl⟩
  queue := by simp
  free := rfl
  files _ := rfl

variable (removed : before.Removed pid gone middle)

include removed

theorem swap_eq : middle.store.swap = before.store.swap := by rw [removed.outside]

/-- A page that is left was there before, and is none of those that are gone. -/
theorem registered_before (registered : middle.page? pid address = some page) :
    before.page? pid address = some page ∧ address ∉ gone.map Page.address := by
  rw [removed.pages] at registered
  split at registered
  case isTrue => cases registered
  case isFalse left => exact ⟨registered, fun listed => left ⟨rfl, listed⟩⟩

/-- The frame of a page that is left belonged to none of those that are gone. -/
theorem frame_apart (sound : middle.Sound)
    (registered : middle.page? pid page.address = some page) {frame : PhysAddr}
    (held : page.frame = some frame) : ∀ other ∈ gone, other.frame ≠ some frame := by
  intro other listed also
  have vacant := (removed.cleared other listed frame also).1
  rw [sound.frames.owner?_of_held registered held] at vacant
  cases vacant

/-- What is to be written for a page that is left is what it was. -/
theorem unsaved?_eq (sound : middle.Sound)
    (registered : middle.page? pid page.address = some page) :
    middle.unsaved? pid page = before.unsaved? pid page := by
  have whole := Address.pageDown_eq_self_iff.2 (sound.frames.located registered).2
  have dirty : middle.isDirty pid page.address = before.isDirty pid page.address := by
    rw [isDirty_eq, isDirty_eq, whole, removed.views,
      if_neg fun both => (removed.registered_before registered).2 both.2]
  have contents : page.frame.bind middle.resident.contents? =
      page.frame.bind before.resident.contents? :=
    Option.bind_congr fun frame held =>
      (removed.untouched frame (removed.frame_apart sound registered held)).2
  unfold unsaved?
  rw [dirty, contents]

/-- One more page of a file is removed. -/
theorem snoc (sound : middle.Sound) (registered : middle.page? pid page.address = some page)
    (step : Step (.remove pid page.address .file) middle after) :
    before.Removed pid (gone ++ [page]) after := by
  have clears := clears_of_remove step sound registered
  obtain ⟨_, -, -, -, pages⟩ := step.page?_of_remove sound.frames
  have lookup {Value : Type} (other : Pid) (place : VirtAddr) (value : Option Value) :
      (if pid = other ∧ page.address = place then none
        else if pid = other ∧ place ∈ gone.map Page.address then none else value) =
      if pid = other ∧ place ∈ (gone ++ [page]).map Page.address then none else value := by
    by_cases here : page.address = place
    · by_cases same : pid = other <;> simp [here, same]
    · simp [here, Ne.symm here]
  refine
    { outside := ?_, pages := fun other place => ?_, views := fun other place => ?_
      processes := fun other => ?_, cleared := fun other listed frame held => ?_
      untouched := fun frame apart => ?_, queue := ?_, free := ?_, files := fun file => ?_ }
  · have same := step.outside_of_remove
    rw [removed.outside] at same
    rw [← removed.swap_eq, ← step.swap_of_remove sound]
    exact same
  · rw [pages, removed.pages, lookup]
  · rw [step.view?_of_remove sound.frames, removed.views, lookup]
  · exact (step.stackPointer? nofun nofun nofun).trans (removed.processes other)
  · rw [List.mem_append, List.mem_singleton] at listed
    rcases listed with listed | rfl
    · have apart : page.frame ≠ some frame := fun also =>
        removed.frame_apart sound registered also other listed held
      obtain ⟨owner, contents⟩ := clears.others frame apart
      rw [owner, contents]
      exact removed.cleared other listed frame held
    · exact clears.frame frame held
  · have apartHere := apart page (List.mem_append_right _ List.mem_cons_self)
    obtain ⟨owner, contents⟩ := clears.others frame apartHere
    rw [owner, contents]
    exact removed.untouched frame fun other listed => apart other (List.mem_append_left _ listed)
  · rw [clears.queue, removed.queue, List.filter_filter]
    refine List.filter_congr fun frame _ => ?_
    simp [or_imp, forall_and, and_comm]
  · rw [clears.free, removed.free, List.countP_append, Nat.add_assoc]
    cases resident : page.isResident <;> simp [resident]
  · rw [clears.files, FileStore.content?_writtenBack removed.files,
      removed.unsaved?_eq sound registered, List.filterMap_append, FileStore.writtenBack_append,
      List.filterMap_cons]
    cases before.unsaved? pid page <;> rfl

end Removed

/-! ## The pages of a mapping -/

/-- The pages of a mapping, in the order of their addresses. -/
def groupPages (machine : Machine) (pid : Pid) (mapping : Mapping) : List Page :=
  (machine.pagesOf pid).filter fun page => page.mapping? = some mapping

theorem FramesOwned.pairwise_pagesOf (owned : before.FramesOwned) (pid : Pid) :
    (before.pagesOf pid).Pairwise fun left right => left.address.toNat < right.address.toNat := by
  unfold pagesOf
  cases found : before.spaces[pid]? with
  | none => exact List.Pairwise.nil
  | some space =>
      have located (entry : VirtAddr × Page) (listed : entry ∈ space.pages.pages.toList) :
          entry.2.address = entry.1 :=
        ((owned.spaces pid space found).1.located entry.1 entry.2
          (Std.ExtTreeMap.mem_toList_iff_getElem?_eq_some.1 listed)).1
      rw [Option.map_some, Option.getD_some, PageRegistry.toList, List.pairwise_map]
      refine Std.ExtTreeMap.ordered_keys_toList.imp_of_mem fun left right earlier => ?_
      rw [located _ left, located _ right]
      exact Nat.compare_eq_lt.1 earlier

theorem map_toNat_rangeToList (range : PageRange) :
    range.toList.map Address.toNat =
      (List.range range.count).map (range.start.toNat + · * pageSize) := by
  rw [PageRange.toList, List.map_map, ← List.map_coe_finRange_eq_range, List.map_map]
  rfl

theorem pairwise_rangeToList (range : PageRange) :
    range.toList.Pairwise fun left right => left.toNat < right.toNat := by
  rw [PageRange.toList, List.pairwise_map]
  refine (List.pairwise_lt_finRange range.count).imp fun earlier => ?_
  have less := Nat.mul_lt_mul_of_pos_right earlier (by decide : 0 < pageSize)
  exact Nat.add_lt_add_left less _

/-- Pages of a mapping at all its addresses in order are the pages of the mapping. -/
theorem FramesOwned.groupPages_eq (owned : before.FramesOwned) {range : PageRange}
    (addresses : gone.map Page.address = range.toList)
    (members : ∀ page ∈ gone, before.page? pid page.address = some page ∧
      page.mapping? = some mapping)
    (all : ∀ place, before.mapping? pid place = some mapping → place ∈ range.toList) :
    gone = before.groupPages pid mapping := by
  have ordered : gone.Pairwise fun left right => left.address.toNat < right.address.toNat := by
    have places := pairwise_rangeToList range
    rwa [← addresses, List.pairwise_map] at places
  have orderedGroup := (owned.pairwise_pagesOf pid).filter fun page => page.mapping? = some mapping
  have nodup {pages : List Page}
      (ordered : pages.Pairwise fun left right => left.address.toNat < right.address.toNat) :
      pages.Nodup := by
    refine List.Pairwise.imp (fun less => ?_) ordered
    rintro rfl
    exact Nat.lt_irrefl _ less
  refine List.Perm.eq_of_pairwise
    (fun left right _ _ less more => absurd less (Nat.lt_asymm more)) ordered orderedGroup
    ((List.perm_ext_iff_of_nodup (nodup ordered) (nodup orderedGroup)).2 fun page => ?_)
  rw [List.mem_filter, decide_eq_true_iff]
  constructor
  · intro listed
    obtain ⟨registered, mapped⟩ := members page listed
    exact ⟨(((owned.hasPages pid).listed _ _).1 registered).1, mapped⟩
  · rintro ⟨listed, mapped⟩
    have registered := ((owned.hasPages pid).listed page.address page).2 ⟨listed, rfl⟩
    have place := all page.address (by rw [mapping?, registered]; exact mapped)
    rw [← addresses, List.mem_map] at place
    obtain ⟨other, also, same⟩ := place
    have found := (members other also).1
    rw [same, registered, Option.some.injEq] at found
    exact found ▸ also

/-- The pages of a mapping are removed up to some that are left. -/
structure RemovedUpTo (before : Machine) (pid : Pid) (mapping : Mapping) (range : PageRange)
    (gone : List Page) (rest : List VirtAddr) (state : Machine) : Prop where
  path : Path (Move.Unmaps pid) before state
  removed : before.Removed pid gone state
  addresses : gone.map Page.address ++ rest = range.toList
  members : ∀ page ∈ gone, before.page? pid page.address = some page ∧
    page.mapping? = some mapping

theorem RemovedUpTo.ends_unmapPage {range : PageRange} {rest : List VirtAddr} {place : VirtAddr}
    (sound : before.Sound)
    (all : ∀ place ∈ range.toList, before.mapping? pid place = some mapping)
    (reached : RemovedUpTo before pid mapping range gone (place :: rest) middle) :
    (unmapPage pid mapping place middle).Ends
      (fun _ after => ∃ page, RemovedUpTo before pid mapping range (gone ++ [page]) rest after)
      (fun _ _ => False) (fun _ => True) := by
  have soundMiddle := reached.path.sound sound
  have listed : place ∈ range.toList := by
    rw [← reached.addresses]
    exact List.mem_append_right _ List.mem_cons_self
  have left : place ∉ gone.map Page.address := fun earlier => by
    have nodup := nodup_rangeToList range
    rw [← reached.addresses] at nodup
    exact (List.nodup_append.1 nodup).2.2 _ earlier _ List.mem_cons_self rfl
  obtain ⟨page, registered, mapped⟩ := Option.bind_eq_some_iff.1 (all place listed)
  have registeredHere : middle.page? pid place = some page := by
    rw [reached.removed.pages, if_neg fun both => left both.2, registered]
  obtain ⟨rfl, -⟩ := soundMiddle.frames.located registeredHere
  refine (Machine.ends_unmapPage soundMiddle mapping registeredHere).imp ?_ (fun _ _ no => no)
    (fun _ _ => trivial)
  rintro _ after ⟨step, -⟩
  rw [Page.kind_of_mapping? mapped] at step
  refine ⟨page, reached.path.snoc step ⟨_, rfl⟩,
    reached.removed.snoc soundMiddle registeredHere step, ?_, fun other also => ?_⟩
  · rw [List.map_append, List.append_assoc]
    exact reached.addresses
  · rw [List.mem_append, List.mem_singleton] at also
    rcases also with earlier | rfl
    · exact reached.members other earlier
    · exact ⟨registered, mapped⟩

/-- Remove a mapping of a process, once it is found. -/
def removeMapping (pid : Pid) (mapping : Mapping) : Action Machine Unit := do
  let range ← Action.checked mapping.pages
  range.toList.forM (unmapPage pid mapping)
  let machine ← Action.get
  if 0 < machine.store.referenceCount mapping.id then
    Action.halt (.mappingReferenced mapping.start)

/-- By which address a mapping is removed matters only to find the mapping. -/
theorem unmapFile_eq (process : (before.spaces[pid]?).isSome = true) (address : VirtAddr) :
    unmapFile pid address before =
      (Action.require .invalidArgument (before.mapping? pid address.pageDown) >>=
        removeMapping pid) before := by
  obtain ⟨target, found⟩ := Option.isSome_iff_exists.1 process
  have lookup : (target.pages.find? address).bind Page.mapping? =
      before.mapping? pid address.pageDown := by
    rw [PageRegistry.find?_eq_at?, ← page?_of_space found]
    rfl
  have known : space pid before = .done target before := by
    rw [space, found]
    rfl
  rw [unmapFile, Action.bind_apply, known, ← lookup]
  rfl

theorem isSome_of_mapping? (mapped : before.mapping? pid address = some mapping) :
    (before.spaces[pid]?).isSome = true := by
  obtain ⟨page, registered, -⟩ := Option.bind_eq_some_iff.1 mapped
  obtain ⟨space, found, -⟩ := space_of_page? registered
  rw [found]
  rfl

/-- Where a mapping is removed, its pages were removed in the order of their addresses. -/
theorem ends_removeMapping (sound : before.Sound) (whole : before.MappingsWhole pid)
    (mapped : before.mapping? pid address = some mapping) :
    (removeMapping pid mapping before).Ends
      (fun _ after => before.Removed pid (before.groupPages pid mapping) after ∧
        (before.groupPages pid mapping).map (fun page => page.address.toNat) =
          (List.range mapping.pageCount).map (mapping.start.toNat + · * pageSize))
      (fun _ _ => False) (fun _ => True) := by
  obtain ⟨aligned, -, members⟩ := whole.members mapped
  simp only [removeMapping, Action.ends_bind, Action.ends_checked]
  refine ⟨fun range listed => ?_, fun _ _ => trivial⟩
  obtain ⟨start, count⟩ := Mapping.of_pages aligned listed
  have covered (place : VirtAddr) : mapping.Covers place ↔ place ∈ range.toList :=
    covers_iff_mem_toList start count
  have loop : (range.toList.forM (unmapPage pid mapping) before).Ends
      (fun _ after => ∃ gone, RemovedUpTo before pid mapping range gone [] after)
      (fun _ _ => False) (fun _ => True) := by
    apply Action.ends_forM fun rest state =>
      ∃ gone, RemovedUpTo before pid mapping range gone rest state
    · rintro place rest state ⟨gone, reached⟩
      refine (reached.ends_unmapPage sound fun place listed =>
        members place ((covered place).2 listed)).imp ?_ (fun _ _ no => no) (fun _ done => done)
      rintro _ after ⟨page, next⟩
      exact ⟨_, next⟩
    · exact ⟨[], .refl before, .nil before pid, rfl, fun _ listed => absurd listed List.not_mem_nil⟩
  refine loop.imp ?_ (fun _ _ no => no) (fun _ _ => trivial)
  rintro _ after ⟨gone, reached⟩
  have addresses := reached.addresses
  rw [List.append_nil] at addresses
  have group := sound.frames.groupPages_eq addresses reached.members fun place mapped =>
    (covered place).1 (whole.members mapped).2.1
  have places : gone.map (fun page => page.address.toNat) =
      (List.range mapping.pageCount).map (mapping.start.toNat + · * pageSize) := by
    rw [← start, ← count, ← map_toNat_rangeToList, ← addresses, List.map_map]
    rfl
  simp only [Action.ends_get]
  split
  case isTrue => trivial
  case isFalse => exact ⟨group ▸ reached.removed, group ▸ places⟩

theorem mapping?_of_unsaved? {region : FileRegion} {bytes : PageData}
    (isUnsaved : before.unsaved? pid page = some (region, bytes)) :
    page.mapping? = some region.mapping := by
  unfold unsaved? at isUnsaved
  split at isUnsaved
  case h_1 _ backed =>
    split at isUnsaved
    · obtain ⟨held, -, same⟩ := Option.map_eq_some_iff.1 isUnsaved
      cases same
      rw [Page.mapping?, Page.region?, backed]
      rfl
    · cases isUnsaved
  case h_2 | h_3 => cases isUnsaved

/-- A file that stores bytes is written once for each dirty page of a mapping of it that was in
memory. -/
theorem Removed.writes_eq {stored : Array UInt8}
    (removed : before.Removed pid (before.groupPages pid mapping) after)
    (holds : before.store.files.bytes? mapping.file = some stored) :
    after.store.files.writes mapping.file = before.store.files.writes mapping.file +
      ((before.groupPages pid mapping).filterMap (before.unsaved? pid)).length := by
  rw [FileStore.writes_congr (removed.files _), FileStore.writes_writtenBack holds]
  congr 1
  refine List.countP_eq_length.2 ?_
  rintro ⟨region, bytes⟩ listed
  obtain ⟨page, isMember, isUnsaved⟩ := List.mem_filterMap.1 listed
  have mapped := of_decide_eq_true (List.mem_filter.1 isMember).2
  rw [mapping?_of_unsaved? isUnsaved, Option.some.injEq] at mapped
  exact decide_eq_true (congrArg Mapping.file mapped)

end Machine

namespace Session

open Machine

variable {session : Session} {pid : Pid} {address : VirtAddr} {mapping : Mapping} {after : Machine}

/-- With a mapping its handle is closed. -/
theorem Balanced.handles_of_unmap (balanced : session.Balanced)
    (atAddress : session.machine.mapping? pid address.pageDown = some mapping)
    (ran : unmapFile pid address session.machine = .done () after) (file : FileId) :
    session.machine.store.files.handles file =
      after.store.files.handles file + if mapping.file = file then 1 else 0 := by
  have ranEvent : (Event.unmapFile pid address).respond session.machine = .done .nothing after := by
    simp only [Event.respond, Action.bind_apply, ran, Action.pure_apply]
  have keeps : (Event.unmapFile pid address).KeepsHandles := trivial
  have regroups := (Event.unmapFile pid address).ends_regroups balanced.sound balanced.whole
  rw [ranEvent, Outcome.ends_done] at regroups
  obtain ⟨group, listed, covers, perm⟩ := balanced.perm_of_removed regroups
  obtain ⟨found, alsoAt, rfl⟩ := balanced.tracks.mapping?_of_covers balanced.whole listed covers
  rw [atAddress, Option.some.injEq] at alsoAt
  subst alsoAt
  have counted := perm.countP_eq fun group => group.file = file
  rw [List.countP_cons] at counted
  simp only [decide_eq_true_eq] at counted
  have asked := (balanced.asked keeps ranEvent).handles_eq file
  rw [balanced.handles_eq, asked]
  show _ + session.groups.countP _ = _ + List.countP _ _ + _
  rw [← counted, Nat.add_assoc]
  rfl

/-- In every reachable state a mapping whose dirty pages can be written back is removed by any of
its addresses, whether or not a page begins there, and always with the same result. Its pages, one
after the other from its start on, are registered and translated no more, the frames of those that
were in memory are free and zero-filled, the dirty ones of these are written to the file, each once,
and one handle on the file is closed. Everything else is as it was: every other page, translation
and frame, the swap area, and the order in which frames may be evicted. Where a process has no
mapping, an error is reported, and nothing changes. -/
theorem Reachable.unmaps_group (reachable : session.Reachable) (pid : Pid) :
    (∀ place mapping, session.machine.mapping? pid place = some mapping →
      (∀ page ∈ session.machine.groupPages pid mapping, session.machine.CanSave pid page) →
      ∃ after,
        (∀ address, (mapping.groupOf pid).Covers pid address →
          unmapFile pid address session.machine = .done () after) ∧
        (session.machine.groupPages pid mapping).map (fun page => page.address.toNat) =
          (List.range mapping.pageCount).map (mapping.start.toNat + · * pageSize) ∧
        session.machine.Removed pid (session.machine.groupPages pid mapping) after ∧
        (∀ bytes, session.machine.store.files.bytes? mapping.file = some bytes →
          after.store.files.writes mapping.file =
            session.machine.store.files.writes mapping.file +
              ((session.machine.groupPages pid mapping).filterMap
                (session.machine.unsaved? pid)).length) ∧
        ∀ file, session.machine.store.files.handles file =
          after.store.files.handles file + if mapping.file = file then 1 else 0) ∧
    ∀ address, (session.machine.spaces[pid]?).isSome = true →
      (∀ place mapping, session.machine.mapping? pid place = some mapping →
        ¬(mapping.groupOf pid).Covers pid address) →
      unmapFile pid address session.machine = .failed .invalidArgument session.machine := by
  have balanced := reachable.balanced
  have whole := balanced.whole pid
  constructor
  · intro place mapping mapped canSave
    obtain ⟨aligned, covers, members⟩ := whole.members mapped
    have process := isSome_of_mapping? mapped
    have atPage (address : VirtAddr) (covers : (mapping.groupOf pid).Covers pid address) :
        session.machine.mapping? pid address.pageDown = some mapping :=
      members _ ((covers_groupOf_iff aligned).1 covers)
    have same (address : VirtAddr) (covers : (mapping.groupOf pid).Covers pid address) :
        unmapFile pid address session.machine = removeMapping pid mapping session.machine := by
      rw [unmapFile_eq process, atPage address covers]
      rfl
    have wholeStart := Address.pageDown_eq_self_iff.2 aligned
    have coversStart : (mapping.groupOf pid).Covers pid mapping.start :=
      (covers_groupOf_iff aligned).2 (wholeStart.symm ▸ covers.start)
    have ends := balanced.balanced.ends_unmapFile balanced.sound whole
      reachable.machine.belowKernel (fun _ => Int.natCast_nonneg _)
      fun other atStart page listed belongs => canSave page <| by
        rw [atPage _ coversStart, Option.some.injEq] at atStart
        exact List.mem_filter.2 ⟨listed, decide_eq_true (atStart ▸ belongs)⟩
    cases ran : unmapFile pid mapping.start session.machine with
    | failed error after =>
        rw [ran, Outcome.ends_failed, atPage _ coversStart] at ends
        cases ends.2
    | halted fault =>
        rw [ran] at ends
        exact ends.elim
    | done _ after =>
        have removes := ends_removeMapping balanced.sound whole mapped
        rw [← same _ coversStart, ran, Outcome.ends_done] at removes
        obtain ⟨removed, places⟩ := removes
        exact ⟨after, fun address covers => (same address covers).trans
            ((same _ coversStart).symm.trans ran), places, removed,
          fun bytes => removed.writes_eq, balanced.handles_of_unmap (atPage _ coversStart) ran⟩
  · intro address process apart
    rw [unmapFile_eq process]
    cases mapped : session.machine.mapping? pid address.pageDown with
    | none => rfl
    | some mapping =>
        obtain ⟨aligned, covers, -⟩ := whole.members mapped
        exact absurd ((covers_groupOf_iff aligned).2 covers) (apart _ mapping mapped)

/-- A process maps two pages of a file, and writes to the second one. -/
def writingSecond : List Call :=
  [.ask .createProcess, .ask (.mapFile ⟨1⟩ firstPage 4100 true 0 0),
    .ask (.writeUser ⟨1⟩ secondPage #[4])]

/-- The mapping is removed by every address of both pages, of which the first one was never
touched. The frame of the second one is free then, and the only handle is closed. -/
theorem unmaps_group_writingSecond :
    ∃ session after, Session.after? { machine := tinyWithBlank } writingSecond = some session ∧
      (∀ address : VirtAddr, 0x1000 ≤ address.toNat → address.toNat < 0x3000 →
        unmapFile ⟨1⟩ address session.machine = .done () after) ∧
      after.page? ⟨1⟩ firstPage = none ∧ after.page? ⟨1⟩ secondPage = none ∧
      session.machine.freeFrames = 0 ∧ after.freeFrames = 1 ∧
      session.machine.store.files.handles 0 = 1 ∧ after.store.files.handles 0 = 0 := by
  have holds : (Session.after? { machine := tinyWithBlank } writingSecond).any (fun session =>
      (session.machine.mapping? ⟨1⟩ firstPage).any fun mapping => decide (
        mapping.groupOf ⟨1⟩ = ⟨⟨1⟩, firstPage, 2, 0⟩ ∧
        (∀ page ∈ session.machine.groupPages ⟨1⟩ mapping, session.machine.CanSave ⟨1⟩ page) ∧
        (session.machine.groupPages ⟨1⟩ mapping).map Page.address = [firstPage, secondPage] ∧
        (session.machine.groupPages ⟨1⟩ mapping).countP Page.isResident = 1 ∧
        session.machine.freeFrames = 0 ∧ session.machine.store.files.handles 0 = 1)) = true := by
    decide +kernel
  obtain ⟨session, run, state⟩ := (Option.any_eq_true _ _).1 holds
  obtain ⟨mapping, mapped, state⟩ := (Option.any_eq_true _ _).1 state
  obtain ⟨group, canSave, places, resident, full, handle⟩ := of_decide_eq_true state
  have start : Reachable { machine := tinyWithBlank } :=
    .start fun file => by cases file <;> simp [FileStore.handles]
  have keeps : ∀ call ∈ writingSecond, call.KeepsHandles := by
    simp [writingSecond, Call.KeepsHandles, Event.KeepsHandles]
  obtain ⟨after, unmaps, -, removed, -, closed⟩ :=
    ((start.of_after? keeps run).unmaps_group ⟨1⟩).1 firstPage mapping mapped canSave
  have free := removed.free
  have handles := closed 0
  have isFile : mapping.file = 0 := congrArg Group.file group
  rw [full, resident] at free
  rw [handle, if_pos isFile] at handles
  refine ⟨session, after, run, fun address above below => unmaps address ?_, ?_, ?_, full, free,
    handle, by omega⟩
  · rw [group]
    exact ⟨rfl, above, below⟩
  · rw [removed.pages, places, if_pos (by decide)]
  · rw [removed.pages, places, if_pos (by decide)]

end Session

end DemandPaging
