import DemandPaging.Proofs.Dirty

/-!
What files hold, and what the steps of the machine do to it.

Owns:
- `FileStore.handles`, the number of open handles on a file, and `FileStore.content?`, all of a file
  but its handles;
- `FileStore.bytes?`, the bytes that a file stores, and `FileStore.writes`, how often it was
  written;
- `Machine.Departs`, a page of a file leaves memory.

Does not own: what the pages of a mapping hold while they are in memory.

Main statements: `Step.content?_cases`, apart from changes from outside, the content of a file
changes only when a dirty page of it leaves memory, and then by what is written back, and
`Step.content?_of_departs`.
-/

namespace DemandPaging

/-! ## Files -/

namespace Inode

variable {inode : Inode} {position : Nat} {data : Array UInt8}

theorem handles_laid : (inode.laid position data).handles = inode.handles := by
  unfold laid
  cases inode.storage <;> rfl

theorem laid_withHandles (handles : Nat) :
    ({ inode with handles } : Inode).laid position data =
      { inode.laid position data with handles } := by
  obtain ⟨storage, _, _, _, _⟩ := inode
  cases storage <;> rfl

end Inode

namespace FileStore

variable {store : FileStore} {file other : FileId} {position : Nat} {data : Array UInt8}
  {inode : Inode}

/-- The number of open handles on a file. -/
def handles (store : FileStore) (file : FileId) : Nat :=
  (store.inodes[file]?.map Inode.handles).getD 0

/-- A file, whatever handles there are on it. -/
def content? (store : FileStore) (file : FileId) : Option Inode :=
  store.inodes[file]?.map fun inode => { inode with handles := 0 }

/-- The bytes that a file stores. A blank file stores none. -/
def bytes? (store : FileStore) (file : FileId) : Option (Array UInt8) :=
  store.inodes[file]?.bind fun inode =>
    match inode.storage with
    | .contents bytes => some bytes
    | .blank _ => none

/-- How often bytes were written to a file. -/
def writes (store : FileStore) (file : FileId) : Nat :=
  (store.inodes[file]?.map Inode.writes).getD 0

/-- The bytes of a file are part of its content. -/
theorem bytes?_congr {after : FileStore} (same : after.content? file = store.content? file) :
    after.bytes? file = store.bytes? file := by
  have ofContent (files : FileStore) : files.bytes? file =
      (files.content? file).bind fun inode =>
        match inode.storage with
        | .contents bytes => some bytes
        | .blank _ => none := by
    unfold bytes? content?
    cases files.inodes[file]? <;> rfl
  rw [ofContent, same, ofContent]

theorem writes_congr {after : FileStore} (same : after.content? file = store.content? file) :
    after.writes file = store.writes file := by
  have ofContent (files : FileStore) :
      files.writes file = ((files.content? file).map Inode.writes).getD 0 := by
    unfold writes content?
    cases files.inodes[file]? <;> rfl
  rw [ofContent, same, ofContent]

theorem exists_of_bytes? {bytes : Array UInt8} (stored : store.bytes? file = some bytes) :
    ∃ inode, store.inodes[file]? = some inode ∧ inode.storage = .contents bytes := by
  obtain ⟨inode, found, holds⟩ := Option.bind_eq_some_iff.1 stored
  refine ⟨inode, found, ?_⟩
  cases stored : inode.storage with
  | contents known =>
      rw [stored] at holds
      cases holds
      rfl
  | blank _ =>
      rw [stored] at holds
      cases holds

theorem getElem?_laid :
    (store.laid file position data).inodes[other]? =
      if file = other then store.inodes[other]?.map fun inode => inode.laid position data
      else store.inodes[other]? := by
  rw [laid, Array.getElem?_modify]

theorem handles_laid : (store.laid file position data).handles other = store.handles other := by
  unfold handles
  rw [getElem?_laid]
  split
  · rw [Option.map_map]
    exact congrArg (Option.getD · 0) (Option.map_congr fun inode _ => Inode.handles_laid)
  · rfl

theorem content?_laid :
    (store.laid file position data).content? other =
      if file = other then (store.content? other).map fun inode => inode.laid position data
      else store.content? other := by
  unfold content?
  rw [getElem?_laid]
  split
  · rw [Option.map_map, Option.map_map]
    exact Option.map_congr fun inode _ => (Inode.laid_withHandles 0).symm
  · rfl

/-- Bytes that are written to a file are laid over those it stores, and the write is counted. -/
theorem of_laid {bytes : Array UInt8} (stored : store.bytes? file = some bytes) (position : Nat)
    (data : Array UInt8) :
    (store.laid file position data).bytes? file = some (overlayBytes bytes position data) ∧
      (store.laid file position data).writes file = store.writes file + 1 := by
  obtain ⟨inode, found, holds⟩ := exists_of_bytes? stored
  unfold bytes? writes
  rw [getElem?_laid, if_pos rfl, found, Option.map_some, Option.bind_some, Option.map_some,
    Option.map_some, Inode.laid, holds]
  exact ⟨rfl, rfl⟩

/-- A file that exists is replaced. -/
theorem getElem?_set (found : store.inodes[file]? = some inode) (changed : Inode)
    (other : FileId) :
    (store.inodes.setIfInBounds file changed)[other]? =
      if file = other then some changed else store.inodes[other]? := by
  rw [Array.getElem?_setIfInBounds, if_pos (Array.getElem?_eq_some_iff.1 found).1]

theorem handles_set (found : store.inodes[file]? = some inode) (changed : Inode)
    (other : FileId) :
    (⟨store.inodes.setIfInBounds file changed⟩ : FileStore).handles other =
      if file = other then changed.handles else store.handles other := by
  unfold handles
  rw [getElem?_set found]
  split <;> rfl

theorem content?_set (found : store.inodes[file]? = some inode) (handles : Nat)
    (other : FileId) :
    (⟨store.inodes.setIfInBounds file { inode with handles }⟩ : FileStore).content? other =
      store.content? other := by
  unfold content?
  rw [getElem?_set found]
  split
  case isTrue here => rw [← here, found]; rfl
  case isFalse => rfl

/-- Opening a handle on a file adds one, and changes nothing else. -/
theorem of_openHandle {after : FileStore} (opened : openHandle file store = .done () after) :
    (∀ other, after.handles other = store.handles other + if file = other then 1 else 0) ∧
      ∀ other, after.content? other = store.content? other := by
  cases found : store.inodes[file]? with
  | none =>
      simp [openHandle, FileStore.inode, Action.bind_apply, found, Action.require,
        Action.fail] at opened
  | some inode =>
      simp only [openHandle, FileStore.inode, setInode, Action.bind_apply, found, Action.require,
        Action.pure_apply, Action.modify, Outcome.done.injEq, true_and] at opened
      subst opened
      refine ⟨fun other => ?_, fun other => content?_set found _ other⟩
      rw [handles_set found]
      split
      case isTrue here => rw [← here, handles, found]; rfl
      case isFalse => rfl

/-- Closing a handle on a file takes one away, and changes nothing else. -/
theorem of_closeHandle {after : FileStore} (closed : closeHandle file store = .done () after) :
    (∀ other, store.handles other = after.handles other + if file = other then 1 else 0) ∧
      ∀ other, after.content? other = store.content? other := by
  cases found : store.inodes[file]? with
  | none =>
      simp [closeHandle, FileStore.inode, Action.bind_apply, found, Action.require,
        Action.fail] at closed
  | some inode =>
      simp only [closeHandle, FileStore.inode, setInode, Action.bind_apply, found, Action.require,
        Action.pure_apply] at closed
      split at closed
      · cases closed
      case isFalse open' =>
        simp only [Action.modify, Outcome.done.injEq, true_and] at closed
        subst closed
        refine ⟨fun other => ?_, fun other => content?_set found _ other⟩
        rw [handles_set found]
        split
        case isTrue here =>
          rw [← here, handles, found, Option.map_some, Option.getD_some]
          dsimp only
          omega
        case isFalse => rfl

/-- A handle can be closed if one is open. -/
theorem exists_closeHandle_eq_done (isOpen : 0 < store.handles file) :
    ∃ after, closeHandle file store = .done () after ∧
      after.inodes.size = store.inodes.size := by
  cases found : store.inodes[file]? with
  | none =>
      rw [handles, found] at isOpen
      cases isOpen
  | some inode =>
      rw [handles, found] at isOpen
      have open' : inode.handles ≠ 0 := Nat.ne_of_gt isOpen
      refine ⟨⟨store.inodes.setIfInBounds file { inode with handles := inode.handles - 1 }⟩, ?_,
        Array.size_setIfInBounds ..⟩
      simp [closeHandle, FileStore.inode, setInode, Action.bind_apply, found, Action.require,
        Action.pure_apply, open', Action.modify]

end FileStore

namespace FileRegion

variable {region : FileRegion} {bytes : PageData} {dirty : Bool} {files : FileStore}

theorem handles_departed (file : FileId) :
    (region.departed bytes dirty files).handles file = files.handles file := by
  unfold departed
  split
  · exact FileStore.handles_laid
  · rfl

theorem content?_departed_of_ne {file : FileId} (different : region.mapping.file ≠ file) :
    (region.departed bytes dirty files).content? file = files.content? file := by
  unfold departed
  split
  · rw [FileStore.content?_laid, if_neg different]
  · rfl

theorem departed_of_clean : region.departed bytes false files = files := rfl

end FileRegion

/-! ## The backing store -/

namespace Backing

/-- The files after a page with a backing left memory. -/
def departed (backing : Backing) (bytes : PageData) (dirty : Bool) (files : FileStore) :
    FileStore :=
  match backing with
  | file region => region.departed bytes dirty files
  | untouched _ | anonymous _ => files

theorem handles_departed (backing : Backing) (bytes : PageData) (dirty : Bool)
    (files : FileStore) (file : FileId) :
    (backing.departed bytes dirty files).handles file = files.handles file := by
  match backing with
  | .file _ => exact FileRegion.handles_departed file
  | untouched _ | anonymous _ => rfl

theorem files_of_save {backing answer : Backing} {page : VirtAddr} {bytes : PageData}
    {dirty : Bool} {store after : BackingStore}
    (saved : backing.save page bytes dirty store = .done answer after) :
    after.references = store.references ∧
      after.files = backing.departed bytes dirty store.files := by
  match backing with
  | untouched _ => cases saved
  | anonymous slot? =>
      have ends : ((anonymous slot?).save page bytes dirty store).Ends _ _ _ := ends_save_anonymous
      rw [saved] at ends
      obtain ⟨_, -, same, -⟩ := ends
      rw [same]
      exact ⟨rfl, rfl⟩
  | file region =>
      have ends : ((file region).save page bytes dirty store).Ends
          (fun _ after => after = { store with files := region.departed bytes dirty store.files })
          (fun _ _ => True) (fun _ => True) := by
        simp only [save, Action.ends_bind, Action.ends_pure]
        exact FileRegion.ends_writeBack.imp (fun _ _ same => same) (fun _ _ _ => trivial)
          (fun _ _ => trivial)
      rw [saved, Outcome.ends_done] at ends
      subst ends
      exact ⟨rfl, rfl⟩

/-- A page that is given up while it is in no frame is not written back. -/
theorem files_of_giveUp {backing answer : Backing} {page : VirtAddr} {resident : Option PageData}
    {dirty : Bool} {store after : BackingStore}
    (gaveUp : backing.giveUp page resident dirty store = .done answer after) :
    after.references = store.references ∧
      after.files = resident.elim store.files fun bytes =>
        backing.departed bytes dirty store.files := by
  match backing with
  | untouched _ | anonymous none =>
      cases gaveUp
      cases resident <;> exact ⟨rfl, rfl⟩
  | anonymous (some slot) =>
      rcases of_giveUp gaveUp with ⟨_, -, same, -⟩ | ⟨noSlot, -⟩
      · rw [same]
        cases resident <;> exact ⟨rfl, rfl⟩
      · cases noSlot
  | file region =>
      cases resident with
      | none =>
          cases gaveUp
          exact ⟨rfl, rfl⟩
      | some bytes =>
          have ends : ((file region).giveUp page (some bytes) dirty store).Ends
              (fun _ after => after =
                { store with files := region.departed bytes dirty store.files })
              (fun _ _ => True) (fun _ => True) := by
            simp only [giveUp, Action.ends_bind, Action.ends_attempt]
            exact FileRegion.ends_writeBack.imp (fun _ _ same => same) (fun _ _ _ => trivial)
              (fun _ _ => trivial)
          rw [gaveUp, Outcome.ends_done] at ends
          subst ends
          exact ⟨rfl, rfl⟩

theorem files_of_bringIn {backing answer : Backing} {page : VirtAddr}
    {transfer after : Transfer BackingStore}
    (brought : backing.bringIn page transfer = .done answer after) :
    after.store.references = transfer.store.references ∧
      after.store.files = transfer.store.files := by
  rcases of_bringIn brought with ⟨_, -, -, -, -, same, -⟩ | ⟨-, -, same⟩
  · rw [same]
    exact ⟨rfl, rfl⟩
  · rw [same]
    exact ⟨rfl, rfl⟩

end Backing

/-- Dropping a reference to a mapping changes no file, apart from its handles. -/
theorem Page.content?_of_forget {page : Page} {store after : BackingStore}
    (forgot : page.forget store = .done () after) (file : FileId) :
    after.files.content? file = store.files.content? file := by
  unfold forget at forgot
  cases mapped : page.mapping? with
  | none => rw [mapped] at forgot; cases forgot; rfl
  | some mapping =>
      rw [mapped] at forgot
      simp only [BackingStore.drop, Action.bind_apply, Action.get] at forgot
      cases referred : store.references[mapping.id]? with
      | none => rw [referred] at forgot; cases forgot; rfl
      | some count =>
          rw [referred] at forgot
          dsimp only at forgot
          split at forgot
          · obtain ⟨_, next, erased, closed⟩ := Action.bind_eq_done forgot
            cases erased
            unfold BackingStore.onFiles Action.onPart at closed
            dsimp only at closed
            split at closed
            case h_1 _ files ran =>
              cases closed
              exact (FileStore.of_closeHandle ran).2 file
            · cases closed
            · cases closed
          · cases forgot
            rfl

/-! ## Steps -/

namespace Machine

/-- A page of a file that is in memory leaves it by a move. -/
structure Departs (machine : Machine) (move : Move) (pid : Pid) (page : Page)
    (region : FileRegion) (frame : PhysAddr) (bytes : PageData) : Prop where
  registered : machine.page? pid page.address = some page
  backed : page.backing = .file region
  held : page.frame = some frame
  contents : machine.resident.contents? frame = some bytes
  leaves : move = .pageOut frame ∨ move = .remove pid page.address page.kind

end Machine

open Machine

/-- The content of a file changes only when a page of it leaves memory. -/
theorem Step.content?_cases {before after : Machine} {move : Move} (step : Step move before after)
    (inside : move ≠ .outside) :
    (∀ file, after.store.files.content? file = before.store.files.content? file) ∨
      ∃ pid page region frame bytes, before.Departs move pid page region frame bytes ∧
        ∀ file, after.store.files.content? file =
          (region.departed bytes (before.isDirty pid page.address) before.store.files).content?
            file := by
  cases step with
  | upkeep upkeep =>
      rw [upkeep.store.2.2]
      exact .inl fun _ => rfl
  | @createMapping _ start pageCount references file mapping store made =>
      refine .inl fun other => ?_
      obtain ⟨_, next, opened, rest⟩ := Action.bind_eq_done made
      cases rest
      unfold BackingStore.onFiles Action.onPart at opened
      dsimp only at opened
      split at opened
      case h_1 _ files ran =>
        cases opened
        exact (FileStore.of_openHandle ran).2 other
      · cases opened
      · cases opened
  | retain retained =>
      cases retained
      exact .inl fun _ => rfl
  | outside => exact absurd rfl inside
  | setStackPointer | access | overwrite | register | arrive | leave => exact .inl fun _ => rfl
  | pageIn _ _ _ _ _ _ _ brought =>
      refine .inl fun file => ?_
      rw [(Backing.files_of_bringIn brought).2]
  | @pageOut _ pid space page frame _ bytes _ _ _ _ found registered held read saved =>
      have files := (Backing.files_of_save saved).2
      dsimp only
      rw [files]
      cases backed : page.backing with
      | untouched _ | anonymous _ => exact .inl fun _ => rfl
      | file region =>
          refine .inr ⟨pid, page, region, frame, bytes, ⟨?_, backed, held, ?_, .inl rfl⟩, ?_⟩
          · exact (page?_of_space found page.address).trans registered
          · exact ResidentSet.read_eq_ok_iff.1 read
          · intro file
            rw [isDirty, found]
            rfl
  | removeAbsent found registered _ gaveUp forgot =>
      refine .inl fun file => ?_
      rw [Page.content?_of_forget forgot, (Backing.files_of_giveUp gaveUp).2]
      rfl
  | @removeResident _ pid space page frame _ bytes _ _ _ _ _ _ found registered held read gaveUp
      _ _ _ forgot =>
      have files := (Backing.files_of_giveUp gaveUp).2
      rw [Option.elim_some] at files
      cases backed : page.backing with
      | untouched _ | anonymous _ =>
          refine .inl fun file => ?_
          rw [Page.content?_of_forget forgot, files, backed]
          rfl
      | file region =>
          refine .inr ⟨pid, page, region, frame, bytes, ⟨?_, backed, held, ?_, .inr rfl⟩, ?_⟩
          · exact (page?_of_space found page.address).trans registered
          · exact ResidentSet.read_eq_ok_iff.1 read
          · intro file
            rw [Page.content?_of_forget forgot, files, backed, isDirty, found]
            rfl

/-- When a page of a file leaves memory, it is written back if it is dirty, and no file changes
otherwise. -/
theorem Step.content?_of_departs {before after : Machine} {move : Move} {pid : Pid} {page : Page}
    {region : FileRegion} {frame : PhysAddr} {bytes : PageData} (step : Step move before after)
    (owned : before.FramesOwned) (departs : before.Departs move pid page region frame bytes)
    (file : FileId) :
    after.store.files.content? file =
      (region.departed bytes (before.isDirty pid page.address) before.store.files).content?
        file := by
  obtain ⟨registered, backed, held, contents, leaves⟩ := departs
  rcases leaves with rfl | rfl
  · cases step with
    | @pageOut _ other space saved _ _ known _ _ _ _ found atAddress held' read written =>
        -- The frame has one owner, so the page that is saved is the one that departs.
        have owner := owned.owner?_of_held registered held
        have registered' := (page?_of_space found saved.address).trans atAddress
        rw [owned.owner?_of_held registered' held', Option.some.injEq, FrameOwner.mk.injEq] at owner
        obtain ⟨rfl, sameAddress⟩ := owner
        rw [sameAddress, registered, Option.some.injEq] at registered'
        subst registered'
        rw [ResidentSet.read_eq_ok_iff, contents, Option.some.injEq] at read
        subst read
        dsimp only
        rw [(Backing.files_of_save written).2, backed, isDirty, found]
        rfl
  · generalize sameAddress : page.address = address at *
    generalize page.kind = kind at step
    cases step with
    | @removeAbsent _ _ space removed _ _ _ found atAddress absent =>
        have registered' := (page?_of_space found removed.address).trans atAddress
        rw [registered, Option.some.injEq] at registered'
        subst registered'
        rw [held] at absent
        cases absent
    | @removeResident _ _ space removed _ _ known _ _ _ _ _ _ found atAddress held' read gaveUp
        _ _ _ forgot =>
        have registered' := (page?_of_space found removed.address).trans atAddress
        rw [registered, Option.some.injEq] at registered'
        subst registered'
        rw [held, Option.some.injEq] at held'
        subst held'
        rw [ResidentSet.read_eq_ok_iff, contents, Option.some.injEq] at read
        subst read
        rw [Page.content?_of_forget forgot, (Backing.files_of_giveUp gaveUp).2, Option.elim_some,
          backed, isDirty, found]
        rfl

/-! ## Files without dirty pages -/

/-- No page of a file was written since it was brought in. -/
def Machine.Clean (machine : Machine) (file : FileId) : Prop :=
  ∀ pid address region, machine.region? pid address = some region → region.mapping.file = file →
    machine.isDirty pid address = false

theorem Step.clean {before after : Machine} {move : Move} {file : FileId}
    (step : Step move before after) (owned : before.FramesOwned) (clean : before.Clean file)
    (noWrite : ∀ pid place, move ≠ .access pid place true) : after.Clean file := by
  intro pid address region atAddress ofFile
  rcases step.isDirty_cases owned pid address with same | ⟨place, writes, -⟩ | ⟨cleared, -⟩
  · rw [same]
    rcases step.region?_cases owned atAddress with earlier | ⟨rfl, -⟩
    · exact clean pid address region earlier ofFile
    · -- A page that is registered was not in memory.
      cases dirty : before.isDirty pid address with
      | false => rfl
      | true =>
          obtain ⟨frame, held⟩ := owned.exists_frame?_of_dirty dirty
          obtain ⟨unknown, aligned⟩ := step.page?_of_register
          rw [Address.pageDown_eq_self_iff.2 aligned, frame?, unknown] at held
          cases held
  · exact absurd writes (noWrite pid place)
  · exact cleared

/-- Unless files are changed from outside, a file without dirty pages keeps what it holds. -/
theorem Step.content?_of_clean {before after : Machine} {move : Move} {file : FileId}
    (step : Step move before after) (inside : move ≠ .outside) (clean : before.Clean file) :
    after.store.files.content? file = before.store.files.content? file := by
  rcases step.content?_cases inside with
    unchanged | ⟨pid, page, region, _, _, departs, changed⟩
  · exact unchanged file
  · rw [changed]
    by_cases ofFile : region.mapping.file = file
    · have atAddress : before.region? pid page.address = some region := by
        rw [region?, departs.registered, Option.bind_some, Page.region?, departs.backed]
        rfl
      rw [clean pid page.address region atAddress ofFile, FileRegion.departed_of_clean]
    · exact FileRegion.content?_departed_of_ne ofFile

/-- Where no page is written and no file is changed from outside, a file without dirty pages keeps
what it holds. -/
theorem Path.content?_of_clean {allowed : Move → Prop} {before after : Machine} {file : FileId}
    (path : Path allowed before after) (sound : before.Sound) (clean : before.Clean file)
    (noWrite : ∀ pid place, ¬allowed (.access pid place true)) (inside : ¬allowed .outside) :
    after.store.files.content? file = before.store.files.content? file := by
  have kept : after.Clean file ∧
      after.store.files.content? file = before.store.files.content? file := by
    refine path.keeps_of_sound (fun state => state.Clean file ∧
      state.store.files.content? file = before.store.files.content? file) sound ⟨clean, rfl⟩ ?_
    intro move middle next allow step soundMiddle kept
    obtain ⟨cleanMiddle, same⟩ := kept
    have noWriteHere : ∀ pid place, move ≠ .access pid place true := by
      rintro pid place rfl
      exact noWrite pid place allow
    have insideHere : move ≠ .outside := by
      rintro rfl
      exact inside allow
    exact ⟨step.clean soundMiddle.frames cleanMiddle noWriteHere,
      (step.content?_of_clean insideHere cleanMiddle).trans same⟩
  exact kept.2

end DemandPaging
