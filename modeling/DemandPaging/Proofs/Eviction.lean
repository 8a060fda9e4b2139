import DemandPaging.Proofs.Contents
import DemandPaging.Proofs.FileBytes
import DemandPaging.Proofs.FrameOwnership
import DemandPaging.Proofs.Marks

/-!
What an eviction changes, and what a failed one leaves alone.

Owns:
- `Machine.victim?`, the frame that the clock chooses, and `Machine.clears`, the accessed marks that
  it clears on the way, both said of the state before the choice;
- `Machine.Evicted` and `Machine.EvictionFails`, the states in which an eviction ends.

Does not own: who gets the frame (`Machine.Holding`), and in which order the clock goes round
(`Machine.Passed`).

The victim may belong to any process. It is off the queue and its slot is reserved before the write
can fail, so a failed eviction has something to put back.

Main statement: `Reachable.evict_harmless`.
-/

namespace DemandPaging

/-! ## The choice, from the state before it -/

/-- An entry after its accessed mark may have been cleared. -/
def EntryView.cleared (view : EntryView) (clear : Bool) : EntryView :=
  { view with accessed := view.accessed && !clear }

theorem EntryView.cleared_congr {view : EntryView} {left right : Bool}
    (same : (view.accessed && !left) = (view.accessed && !right)) :
    view.cleared left = view.cleared right := by
  rw [cleared, cleared, same]

namespace Machine

variable {before asked after machine : Machine} {pid : Pid} {address : VirtAddr}
  {frame : PhysAddr} {owner : FrameOwner} {space : AddressSpace} {page : Page}

/-- The frames that the clock passes, because their pages were accessed. -/
def passedBy (machine : Machine) : List PhysAddr :=
  machine.resident.queue.takeWhile machine.wasAccessed

/-- The frame that the clock chooses. -/
def victim? (machine : Machine) : Option PhysAddr :=
  (machine.resident.queue.find? fun frame => !machine.wasAccessed frame).or
    machine.resident.queue.head?

/-- The clock clears the accessed mark of a page, because it passes its frame. -/
def clears (machine : Machine) (pid : Pid) (address : VirtAddr) : Bool :=
  (machine.frame? pid address).any machine.passedBy.contains

theorem Chosen.victim?_eq {victim : PhysAddr × FrameOwner} (sound : before.Sound)
    (chosen : before.Chosen victim asked) : before.victim? = some victim.1 := by
  unfold victim?
  cases chosen.passed sound with
  | first earlier later queue accessed here =>
      have passed : earlier.find? (fun frame => !before.wasAccessed frame) = none := by
        rw [List.find?_eq_none]
        intro frame listed
        simp [accessed frame listed]
      rw [queue, List.find?_append, passed, Option.none_or, List.find?_cons_of_pos (by simp [here])]
      rfl
  | front later queue accessed =>
      have passed :
          before.resident.queue.find? (fun frame => !before.wasAccessed frame) = none := by
        rw [List.find?_eq_none]
        intro frame listed
        simp [accessed frame listed]
      rw [passed, Option.none_or, queue]
      rfl

/-- After the choice those frames count as accessed that did before and that the clock did not
pass. -/
theorem Chosen.wasAccessed_eq {victim : PhysAddr × FrameOwner} (sound : before.Sound)
    (chosen : before.Chosen victim asked) (frame : PhysAddr) :
    asked.wasAccessed frame =
      (before.wasAccessed frame && decide (frame ∉ before.passedBy)) := by
  unfold passedBy
  cases chosen.passed sound with
  | first earlier later queue accessed here marks =>
      rw [marks, queue, List.takeWhile_append_of_pos accessed,
        List.takeWhile_cons_of_neg (by simp [here]), List.append_nil]
  | front later queue accessed marks =>
      rw [marks, List.takeWhile_eq_self_iff.2 accessed]
      by_cases queued : frame ∈ before.resident.queue
      · simp [queued]
      · -- A frame that is not queued has no owner.
        rw [sound.frames.resident.queued, Option.not_isSome_iff_eq_none] at queued
        simp [wasAccessed, queued]

theorem exists_view?_of_asked {spaces : Std.ExtTreeMap Pid AddressSpace}
    (asks : ResidentSet.Asked testAndClearAccessed before.spaces spaces) (pid : Pid)
    (address : VirtAddr) :
    ∃ clear, ({ before with spaces } : Machine).view? pid address =
      (before.view? pid address).map fun view => view.cleared clear := by
  induction asks with
  | refl =>
      refine ⟨false, ?_⟩
      show before.view? pid address = _
      cases before.view? pid address <;> simp [EntryView.cleared]
  | @tail middle _ _ answered inductionHypothesis =>
      obtain ⟨owner, rfl⟩ := answered
      obtain ⟨clear, earlier⟩ := inductionHypothesis
      have asking := view?_ask { before with spaces := middle } owner pid address
      rw [earlier] at asking
      split at asking
      · refine ⟨true, asking.trans ?_⟩
        cases before.view? pid address <;> simp [EntryView.cleared]
      · exact ⟨clear, asking⟩

theorem Chosen.resident_eq {victim : PhysAddr × FrameOwner} (chosen : before.Chosen victim asked) :
    asked.resident = before.resident := by rw [chosen.same]

theorem Chosen.store_eq {victim : PhysAddr × FrameOwner} (chosen : before.Chosen victim asked) :
    asked.store = before.store := by rw [chosen.same]

/-- The choice leaves every page where it is. -/
theorem Chosen.page?_eq {victim : PhysAddr × FrameOwner} (chosen : before.Chosen victim asked)
    (pid : Pid) (address : VirtAddr) : asked.page? pid address = before.page? pid address := by
  rw [chosen.same]
  have asks := chosen.asks
  generalize asked.spaces = spaces at asks
  induction asks with
  | refl => rfl
  | @tail middle _ _ answered inductionHypothesis =>
      obtain ⟨owner, rfl⟩ := answered
      have upkeep : Upkeep { before with spaces := middle }
          { before with spaces := (testAndClearAccessed owner middle).2 } := .ask owner
      exact (upkeep.page? pid address).trans inductionHypothesis

theorem Chosen.stackPointer?_eq {victim : PhysAddr × FrameOwner}
    (chosen : before.Chosen victim asked) (pid : Pid) :
    asked.stackPointer? pid = before.stackPointer? pid := by
  rw [chosen.same]
  have asks := chosen.asks
  generalize asked.spaces = spaces at asks
  induction asks with
  | refl => rfl
  | @tail middle _ _ answered inductionHypothesis =>
      obtain ⟨owner, rfl⟩ := answered
      have step : Step .upkeep { before with spaces := middle }
          { before with spaces := (testAndClearAccessed owner middle).2 } := .upkeep (.ask owner)
      exact (step.stackPointer? nofun nofun nofun).trans inductionHypothesis

/-- Whether a frame was accessed is told by the entry of its owner. -/
theorem wasAccessed_of_owned (owned : before.resident.owner? frame = some ⟨pid, address⟩)
    (aligned : address.pageDown = address) :
    before.wasAccessed frame = (before.view? pid address).any EntryView.accessed := by
  rw [wasAccessed, owned, Option.any_some, marked, view?]
  simp only [PageTable.isAccessed_eq, aligned]
  cases before.spaces[pid]? <;> rfl

/-- The choice clears the accessed marks of the pages whose frames the clock passed, in the page
tables of their owners, and changes no other entry. -/
theorem Chosen.view?_eq {victim : PhysAddr × FrameOwner} (sound : before.Sound)
    (chosen : before.Chosen victim asked) (pid : Pid) (address : VirtAddr) :
    asked.view? pid address =
      (before.view? pid address).map fun view => view.cleared (before.clears pid address) := by
  obtain ⟨clear, views⟩ := exists_view?_of_asked chosen.asks pid address
  rw [← chosen.same] at views
  rw [views]
  cases viewed : before.view? pid address with
  | none => rfl
  | some view =>
      obtain ⟨frame, held⟩ : ∃ frame, before.frame? pid address = some frame := by
        rw [← Option.ne_none_iff_exists']
        intro absent
        rw [sound.frames.view?_of_absent absent] at viewed
        cases viewed
      obtain ⟨page, registered, -⟩ := Option.bind_eq_some_iff.1 held
      have aligned := Address.pageDown_eq_self_iff.2 (sound.frames.located registered).2
      have owns := (sound.frames.owner_iff frame pid address).2 held
      have ownsAsked : asked.resident.owner? frame = some ⟨pid, address⟩ := by
        rw [chosen.resident_eq, owns]
      have accessed := chosen.wasAccessed_eq sound frame
      rw [wasAccessed_of_owned ownsAsked aligned, wasAccessed_of_owned owns aligned, views, viewed,
        Option.map_some, Option.any_some, Option.any_some] at accessed
      rw [Option.map_some, Option.map_some, Option.some.injEq, clears, held, Option.any_some]
      exact EntryView.cleared_congr (accessed.trans (by rw [decide_not, List.contains_eq_mem]))

theorem contents?_unlink (set : ResidentSet) (frame other : PhysAddr) :
    (set.unlink frame).contents? other = set.contents? other := by
  unfold ResidentSet.contents?
  rfl

theorem contents?_queue (set : ResidentSet) (queue : List PhysAddr) (frame : PhysAddr) :
    ({ set with queue } : ResidentSet).contents? frame = set.contents? frame := by
  unfold ResidentSet.contents?
  rfl

/-- The clock chooses a frame, and a page is in it. -/
structure Chooses (machine : Machine) (victim : PhysAddr) (owner : FrameOwner) (page : Page)
    (bytes : PageData) : Prop where
  choice : machine.victim? = some victim
  owns : machine.resident.owner? victim = some owner
  registered : machine.page? owner.pid owner.address = some page
  held : page.frame = some victim
  contents : machine.resident.contents? victim = some bytes

theorem Chosen.chooses {victim : PhysAddr} (sound : before.Sound)
    (chosen : before.Chosen (victim, owner) asked) (space : asked.Victim victim owner space page) :
    ∃ bytes, before.Chooses victim owner page bytes := by
  have registered := (chosen.page?_eq _ _).symm.trans space.page?
  have inPool := sound.frames.resident.contents?_isSome chosen.owns
  obtain ⟨bytes, contents⟩ := Option.isSome_iff_exists.1 inPool
  exact ⟨bytes, chosen.victim?_eq sound, chosen.owns, registered, space.held, contents⟩

/-- The bytes that are saved are those of the frame before the choice. -/
theorem Chosen.bytes_eq {victim : PhysAddr} {bytes held : PageData} {queue : List PhysAddr}
    (chosen : before.Chosen (victim, owner) asked)
    (chooses : before.Chooses victim owner page bytes)
    (read : ResidentSet.read { asked.resident with queue } victim = .ok held) : bytes = held := by
  have inFrame := ResidentSet.read_eq_ok_iff.1 read
  rw [contents?_queue, chosen.resident_eq, chooses.contents] at inFrame
  exact Option.some.inj inFrame

theorem Chooses.unique {victim other : PhysAddr} {owner answer : FrameOwner} {page found : Page}
    {bytes held : PageData} (left : machine.Chooses victim owner page bytes)
    (right : machine.Chooses other answer found held) :
    victim = other ∧ owner = answer ∧ page = found ∧ bytes = held := by
  obtain rfl := Option.some.inj (left.choice.symm.trans right.choice)
  obtain rfl := Option.some.inj (left.owns.symm.trans right.owns)
  exact ⟨rfl, rfl, Option.some.inj (left.registered.symm.trans right.registered),
    Option.some.inj (left.contents.symm.trans right.contents)⟩

/-- A machine with a page in memory has a victim. -/
theorem Sound.exists_chooses (sound : machine.Sound) (resident : 0 < machine.residentPages) :
    ∃ victim owner page bytes, machine.Chooses victim owner page bytes := by
  have nonempty : machine.resident.queue ≠ [] := by
    intro empty
    have size := sound.frames.perm_queue.length_eq
    rw [empty, Std.ExtTreeMap.length_keys] at size
    exact Nat.ne_of_gt resident size.symm
  obtain ⟨spaces, asks, ⟨empty, -⟩ | ⟨frame, owner, queued, owns, selected⟩⟩ :=
    ResidentSet.exists_selectVictim_eq_ok testAndClearAccessed
      (fun frame queued => (sound.frames.resident.queued frame).1 queued) machine.spaces
  · exact absurd empty nonempty
  · have chosen : machine.Chosen (frame, owner) { machine with spaces } :=
      ⟨selected, asks, rfl, queued, owns⟩
    obtain ⟨space, page, found⟩ := chosen.exists_victim sound
    obtain ⟨bytes, chooses⟩ := chosen.chooses sound found
    exact ⟨frame, owner, page, bytes, chooses⟩

end Machine

/-! ## Saving a page -/

/-- What saving a page with some bytes makes of its backing and of the backing store. -/
inductive Backing.Saved (bytes : PageData) (dirty : Bool) (before : BackingStore) :
    Backing → Backing → BackingStore → Prop where
  /-- An anonymous page goes to a slot that was free. -/
  | toSlot {slot? : Option Nat} {slot : Nat} {swap : SwapArea}
      (free : before.swap.isOccupied slot = false) (image : swap.image slot = bytes)
      (occupied : ∀ other, swap.isOccupied other =
        (decide (slot = other) || before.swap.isOccupied other))
      (keeps : before.swap.Keeps swap) :
      Saved bytes dirty before (.anonymous slot?) (.anonymous (some slot)) { before with swap }
  /-- A page of a file goes to its place in the file if it is dirty, and nowhere otherwise. -/
  | toFile {region : FileRegion} {files : FileStore}
      (clean : dirty = false → files = before.files)
      (others : ∀ file, region.mapping.file ≠ file →
        files.content? file = before.files.content? file)
      (written : dirty = true → ∀ stored, before.files.bytes? region.mapping.file = some stored →
        ∃ now, files.bytes? region.mapping.file = some now ∧
          (∀ index : Fin pageSize, index.val < region.readBytes →
            now[region.offset + index.val]? = some (bytes.get index)) ∧
          ∀ position < stored.size, ¬region.Spans position → now[position]? = stored[position]?) :
      Saved bytes dirty before (.file region) (.file region) { before with files }

theorem FileRegion.bytes?_departed {region : FileRegion} {files : FileStore}
    {stored : Array UInt8} (bytes : PageData)
    (holds : files.bytes? region.mapping.file = some stored) :
    (region.departed bytes true files).bytes? region.mapping.file =
      some (overlayBytes stored region.offset (bytes.slice 0 region.readBytes)) :=
  (FileStore.of_laid holds region.offset (bytes.slice 0 region.readBytes)).1

theorem Backing.saved_of_save {backing answer : Backing} {page : VirtAddr} {bytes : PageData}
    {dirty : Bool} {before after : BackingStore}
    (saved : backing.save page bytes dirty before = .done answer after) :
    Saved bytes dirty before backing answer after := by
  match backing with
  | untouched _ => cases saved
  | anonymous slot? =>
      rcases of_save saved with ⟨old?, slot, -, rfl, store, keeps, image, free, occupied⟩ |
        ⟨region, impossible, -⟩
      · rw [store]
        exact .toSlot free image occupied keeps
      · cases impossible
  | file region =>
      obtain ⟨_, store, wrote, rest⟩ := Action.bind_eq_done saved
      cases rest
      have same : after = { before with files := region.departed bytes dirty before.files } := by
        have ends : (region.writeBack page bytes dirty before).Ends _ _ _ :=
          FileRegion.ends_writeBack
        rwa [wrote, Outcome.ends_done] at ends
      rw [same]
      refine .toFile ?_ (fun file different => FileRegion.content?_departed_of_ne different) ?_
      · rintro rfl
        rfl
      · rintro rfl stored holds
        obtain ⟨spanned, others⟩ := region.getElem?_writtenBack stored bytes
        exact ⟨_, region.bytes?_departed bytes holds, spanned, others⟩

theorem Backing.Saved.keeps {backing answer : Backing} {bytes : PageData} {dirty : Bool}
    {before after : BackingStore} (saved : Saved bytes dirty before backing answer after) :
    before.swap.Keeps after.swap := by
  cases saved with
  | toSlot _ _ _ keeps => exact keeps
  | toFile => exact .refl _

/-- A page that cannot be saved leaves every slot as it was, with its image. -/
theorem Backing.kept_of_save {backing : Backing} {page : VirtAddr} {bytes : PageData} {dirty : Bool}
    {before after : BackingStore} {error : Errno}
    (refused : backing.save page bytes dirty before = .failed error after) :
    after = { before with swap := after.swap } ∧ before.swap.Keeps after.swap ∧
      ∀ slot, after.swap.isOccupied slot = before.swap.isOccupied slot := by
  match backing with
  | untouched _ => cases refused
  | anonymous slot? =>
      obtain ⟨swap, swapFails, rfl⟩ : ∃ swap, SwapArea.swapOut bytes before.swap =
          .failed error swap ∧ after = { before with swap } := by
        have ends : ((anonymous slot?).save page bytes dirty before).Ends _ _ _ :=
          ends_save_anonymous
        rwa [refused, Outcome.ends_failed] at ends
      have kept := SwapArea.ends_swapOut bytes before.swap
      rw [swapFails] at kept
      exact ⟨rfl, kept⟩
  | file region =>
      have same : after = before := by
        have ends : ((file region).save page bytes dirty before).Ends _ _ _ := ends_save_file
        rwa [refused, Outcome.ends_failed] at ends
      rw [same]
      exact ⟨rfl, .refl _, fun _ => rfl⟩

namespace Machine

variable {before asked after machine : Machine} {pid : Pid} {address : VirtAddr}
  {frame victim : PhysAddr} {owner : FrameOwner} {space : AddressSpace} {page : Page}
  {bytes : PageData} {backing : Backing} {table : PageTable}

theorem PagedOut.rest (out : before.PagedOut pid space page frame bytes backing table after) :
    after.resident = before.resident ∧ after.settings = before.settings ∧
      after.nextPid = before.nextPid := by
  rw [out.result]
  exact ⟨rfl, rfl, rfl⟩

theorem PagedOut.spaces_eq (out : before.PagedOut pid space page frame bytes backing table after) :
    after.spaces = before.spaces.insert pid { space with
      table, pages := space.pages.put { page with backing, frame := none } } := by
  rw [out.result]

/-- An anonymous page that was saved holds in its slot what it held in its frame. -/
theorem contentsOf?_of_save {dirty : Bool}
    (saved : Backing.Saved bytes dirty before.store page.backing backing after.store)
    (held : page.frame = some victim) (contents : before.resident.contents? victim = some bytes) :
    after.contentsOf? { page with backing, frame := none } = before.contentsOf? page := by
  unfold contentsOf?
  dsimp only
  rw [held]
  generalize page.backing = old, after.store = store at saved
  cases saved with
  | toSlot _ image =>
      show some _ = before.resident.contents? victim
      rw [image, contents]
  | toFile => rfl

/-! ## The two states -/

/-- A page was evicted. Its frame is off the queue and belongs to no page, and its registration
stays. -/
structure Evicted (before : Machine) (victim : PhysAddr) (owner : FrameOwner) (page : Page)
    (bytes : PageData) (backing : Backing) (after : Machine) : Prop where
  same : after = { before with
    resident := before.resident.unlink victim, store := after.store, spaces := after.spaces }
  saved : Backing.Saved bytes (before.isDirty owner.pid owner.address) before.store page.backing
    backing after.store
  pages : ∀ pid address, after.page? pid address =
    if owner.pid = pid ∧ owner.address = address then some { page with backing, frame := none }
    else before.page? pid address
  views : ∀ pid address, after.view? pid address =
    if owner.pid = pid ∧ owner.address = address then none
    else (before.view? pid address).map fun view => view.cleared (before.clears pid address)
  contents : ∀ pid address, after.contents? pid address = before.contents? pid address
  processes : ∀ pid, after.stackPointer? pid = before.stackPointer? pid

/-- A page could not be evicted. It stays where it is, and its frame goes to the end of the
queue. -/
structure EvictionFails (before : Machine) (victim : PhysAddr) (after : Machine) : Prop where
  same : after = { before with
    resident := { before.resident with queue := before.resident.queue.erase victim ++ [victim] }
    store := { before.store with swap := after.store.swap }
    spaces := after.spaces }
  occupied : ∀ slot, after.store.swap.isOccupied slot = before.store.swap.isOccupied slot
  keeps : before.store.swap.Keeps after.store.swap
  pages : ∀ pid address, after.page? pid address = before.page? pid address
  views : ∀ pid address, after.view? pid address =
    (before.view? pid address).map fun view => view.cleared (before.clears pid address)
  contents : ∀ pid address, after.contents? pid address = before.contents? pid address
  processes : ∀ pid, after.stackPointer? pid = before.stackPointer? pid

/-- The choice leaves the chosen page as dirty as it was. -/
theorem Chosen.dirty_eq (chosen : before.Chosen (victim, owner) asked) (sound : before.Sound)
    (found : asked.Victim victim owner space page) :
    space.table.isDirty page.address = before.isDirty owner.pid owner.address := by
  have sameMark : asked.isDirty owner.pid owner.address =
      before.isDirty owner.pid owner.address := by
    rw [isDirty_eq, isDirty_eq, chosen.view?_eq sound]
    cases before.view? owner.pid owner.address.pageDown <;> rfl
  rw [← sameMark, isDirty, found.found, Option.any_some, found.address]

theorem Chosen.evicted {out : Machine} {resident : ResidentSet}
    (chosen : before.Chosen (victim, owner) asked)
    (sound : before.Sound) (found : asked.Victim victim owner space page)
    (chooses : before.Chooses victim owner page bytes)
    (saves : (asked.withdraw victim).PagedOut owner.pid space page victim bytes backing table out)
    (unlinks : resident = out.resident.unlink victim) :
    before.Evicted victim owner page bytes backing { out with resident } := by
  have soundAsked := chosen.path.sound sound
  have spaces : ({ out with resident } : Machine).spaces = asked.spaces.insert owner.pid _ :=
    saves.spaces_eq
  have saved := Backing.saved_of_save saves.saved
  have store : (asked.withdraw victim).store = before.store := chosen.store_eq
  rw [chosen.dirty_eq sound found, store] at saved
  have sameResident : resident = before.resident.unlink victim := by
    rw [unlinks, saves.rest.1, withdraw, soundAsked.frames.resident.unlink_erase,
      chosen.resident_eq]
  have pages (pid : Pid) (address : VirtAddr) :
      ({ out with resident } : Machine).page? pid address =
        if owner.pid = pid ∧ owner.address = address then some { page with backing, frame := none }
        else before.page? pid address := by
    rw [page?_update found.found spaces rfl, found.address]
    split
    · rfl
    · exact chosen.page?_eq pid address
  have views := (soundAsked.frames.spaces _ _ found.found).1.view?_of_unmap found.registered
    found.held saves.unmapped
  refine ⟨?_, saved, pages, fun pid address => ?_, fun pid address => ?_, fun pid => ?_⟩
  · rw [sameResident, saves.rest.2.1, saves.rest.2.2]
    show { asked with resident := _, store := _, spaces := _ } = _
    rw [chosen.same]
  · rw [view?_update found.found spaces views, found.address]
    split
    · rfl
    · exact chosen.view?_eq sound pid address
  · unfold Machine.contents?
    rw [pages]
    split
    case isTrue here =>
      rw [← here.1, ← here.2, chooses.registered]
      exact contentsOf?_of_save saved found.held chooses.contents
    case isFalse =>
      cases registered : before.page? pid address with
      | none => rw [Option.bind_none, Option.bind_none]
      | some other =>
          rw [Option.bind_some, Option.bind_some]
          refine contentsOf?_congr (fun frame _ => ?_) fun slot recorded => ?_
          · exact (congrArg (ResidentSet.contents? · frame) sameResident).trans
              (contents?_unlink _ _ _)
          · exact saved.keeps.image slot (sound.slots.isOccupied_of_recorded registered recorded)
  · exact (stackPointer?_keep found.found spaces rfl pid).trans (chosen.stackPointer?_eq pid)

theorem Chosen.evictionFails {out : Machine} {error : Errno} {resident : ResidentSet}
    (chosen : before.Chosen (victim, owner) asked) (sound : before.Sound)
    (fails : (asked.withdraw victim).PageOutFails space page victim error out)
    (requeues : resident = out.resident.requeue victim) :
    before.EvictionFails victim { out with resident } := by
  obtain ⟨bytes, -, refused⟩ := fails.refused
  obtain ⟨sameStore, keeps, occupied⟩ := Backing.kept_of_save refused
  have store : (asked.withdraw victim).store = before.store := chosen.store_eq
  rw [store] at sameStore keeps occupied
  obtain ⟨sameSpaces, sameResident, sameRest⟩ : out.spaces = asked.spaces ∧
      resident = { before.resident with queue := before.resident.queue.erase victim ++ [victim] } ∧
      out.settings = asked.settings ∧ out.nextPid = asked.nextPid := by
    rw [requeues, fails.result, ← chosen.resident_eq]
    exact ⟨rfl, rfl, rfl, rfl⟩
  have pages (pid : Pid) (address : VirtAddr) :
      ({ out with resident } : Machine).page? pid address = before.page? pid address := by
    refine Eq.trans ?_ (chosen.page?_eq pid address)
    exact page?_congr sameSpaces pid address
  refine ⟨?_, occupied, keeps, pages, fun pid address => ?_, fun pid address => ?_, fun pid => ?_⟩
  · rw [sameResident, sameRest.1, sameRest.2, sameStore]
    show { asked with resident := _, store := _, spaces := _ } = _
    rw [chosen.same]
  · refine Eq.trans ?_ (chosen.view?_eq sound pid address)
    unfold view?
    rw [show ({ out with resident } : Machine).spaces = asked.spaces from sameSpaces]
  · unfold Machine.contents?
    rw [pages]
    cases registered : before.page? pid address with
    | none => rw [Option.bind_none, Option.bind_none]
    | some page =>
        rw [Option.bind_some, Option.bind_some]
        refine contentsOf?_congr (fun frame _ => ?_) fun slot recorded => ?_
        · exact (congrArg (ResidentSet.contents? · frame) sameResident).trans
            (contents?_queue _ _ _)
        · exact keeps.image slot (sound.slots.isOccupied_of_recorded registered recorded)
  · refine Eq.trans ?_ (chosen.stackPointer?_eq pid)
    unfold stackPointer?
    rw [show ({ out with resident } : Machine).spaces = asked.spaces from sameSpaces]

/-- Whichever way an eviction ends, it concerns the page that the clock chose, and ends as saving
this page ends. -/
theorem Sound.ends_evict_cases (sound : machine.Sound)
    (chooses : machine.Chooses victim owner page bytes) :
    (evict machine).Ends
      (fun frame after =>
        frame = victim ∧ ∃ backing, machine.Evicted victim owner page bytes backing after)
      (fun error after => machine.EvictionFails victim after ∧
        page.backing.save page.address bytes (machine.isDirty owner.pid owner.address)
          machine.store = .failed error after.store)
      (fun fault => fault.isCorruption = false ∧
        page.backing.save page.address bytes (machine.isDirty owner.pid owner.address)
          machine.store = .halted fault) := by
  refine (ends_evict_saving sound).imp ?_ ?_ ?_
  · rintro frame after
      ⟨asked, found, space, other, held, backing, table, out, chosen, atOwner, out', rfl⟩
    obtain ⟨read, chooses'⟩ := chosen.chooses sound atOwner
    obtain ⟨rfl, rfl, rfl, rfl⟩ := chooses.unique chooses'
    have sameBytes := chosen.bytes_eq chooses out'.read
    subst sameBytes
    exact ⟨rfl, backing, chosen.evicted sound atOwner chooses out' rfl⟩
  · rintro error after
      (⟨-, empty, -⟩ | ⟨asked, frame, found, space, other, out, chosen, atOwner, fails, rfl⟩)
    · have queued := (sound.frames.resident.queued victim).2 (by rw [chooses.owns]; rfl)
      rw [empty] at queued
      cases queued
    · obtain ⟨read, chooses'⟩ := chosen.chooses sound atOwner
      obtain ⟨rfl, rfl, rfl, rfl⟩ := chooses.unique chooses'
      obtain ⟨held, inFrame, refused⟩ := fails.refused
      have sameBytes := chosen.bytes_eq chooses inFrame
      subst sameBytes
      have store : (asked.withdraw victim).store = machine.store := chosen.store_eq
      rw [chosen.dirty_eq sound atOwner, store] at refused
      exact ⟨chosen.evictionFails sound fails rfl, refused⟩
  · rintro fault
      ⟨notCorruption, asked, frame, found, space, other, held, chosen, atOwner, inFrame, stopped⟩
    obtain ⟨read, chooses'⟩ := chosen.chooses sound atOwner
    obtain ⟨rfl, rfl, rfl, rfl⟩ := chooses.unique chooses'
    have sameBytes := chosen.bytes_eq chooses inFrame
    subst sameBytes
    rw [chosen.dirty_eq sound atOwner, chosen.store_eq] at stopped
    exact ⟨notCorruption, stopped⟩

/-- A failed eviction is harmless. With a page in memory the clock chooses one of them. If it cannot
be saved, every page stays in its frame with what it holds, no slot is taken or given up, the frame
goes to the end of the queue, and the accessed marks are clear of the pages that the clock passed.
If it can, that page loses its frame and its translation, and keeps its registration and its bytes:
in a slot that was free, or in its file if it was written. -/
theorem Reachable.evict_harmless (reachable : machine.Reachable)
    (resident : 0 < machine.residentPages) :
    ∃ victim owner page bytes, machine.Chooses victim owner page bytes ∧
      (evict machine).Ends
        (fun frame after =>
          frame = victim ∧ ∃ backing, machine.Evicted victim owner page bytes backing after)
        (fun _ after => machine.EvictionFails victim after)
        (fun fault => fault.isCorruption = false) := by
  obtain ⟨victim, owner, page, bytes, chooses⟩ := reachable.sound.exists_chooses resident
  exact ⟨victim, owner, page, bytes, chooses, (reachable.sound.ends_evict_cases chooses).imp
    (fun _ _ evicted => evicted) (fun _ _ fails => fails.1) (fun _ stopped => stopped.1)⟩

/-- The only frame is occupied, one slot is taken, and the sectors of the other one fail. -/
def crowdingBroken : List Event := crowding ++ [.changeDisk .none (.always (List.range' 8 8))]

/-- The page in the only frame cannot be saved, and stays. -/
theorem evict_harmless_crowding :
    ∃ machine victim error after, tiny.after? crowdingBroken = some machine ∧
      evict machine = .failed error after ∧ machine.EvictionFails victim after := by
  have fails : ((tiny.after? crowdingBroken).bind fun machine => (evict machine).error?).isSome =
      true := by decide +kernel
  have occupied : ((tiny.after? crowdingBroken).all fun machine =>
      decide (0 < machine.residentPages)) = true := by decide +kernel
  obtain ⟨error, fails⟩ := Option.isSome_iff_exists.1 fails
  obtain ⟨machine, run, fails⟩ := Option.bind_eq_some_iff.1 fails
  obtain ⟨after, failed⟩ := Outcome.exists_of_error? fails
  rw [run, Option.all_some, decide_eq_true_iff] at occupied
  obtain ⟨victim, _, _, _, -, ends⟩ := (reachable_tiny.of_after? run).evict_harmless occupied
  rw [failed, Outcome.ends_failed] at ends
  exact ⟨machine, victim, error, after, run, failed, ends⟩

end Machine

end DemandPaging
