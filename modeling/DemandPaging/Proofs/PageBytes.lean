import DemandPaging.Proofs.Claims
import DemandPaging.Proofs.FileChanges
import DemandPaging.Proofs.PageFill

/-!
The bytes that a page stands for, wherever it is.

Owns:
- `FileStore.byteAt` and `FilePart.contents`, what a file holds at a position and for a page,
  whether or not it can be read at present;
- `Machine.bytesOf?`, the bytes of the frame of a page while it is in memory, and those with which
  it comes in while it is not;
- `Machine.FollowsFile`, the only way in which a byte of a page changes that nobody replaces.

Does not own: which operations spare a page (`Reachable.illegal_accesses_change_nothing`).

A page that is read from a file and is not in memory stands for what the file holds. So a byte of it
is another one after a page of the same file took that byte back, and also if the page itself was in
memory since before that, and is dropped.

Main statement: `Path.followsFile`.
-/

namespace DemandPaging

open Machine

/-! ## What files hold -/

/-- The byte that a file holds at a position. Behind its end, and in a blank file, there are zero
bytes. -/
def FileStore.byteAt (files : FileStore) (file : FileId) (position : Nat) : UInt8 :=
  ((files.bytes? file).getD #[]).getD position 0

/-- The byte that a file holds for a page. Behind the part that is read, the page has zero bytes. -/
def FilePart.byteAt (part : FilePart) (files : FileStore) (index : Nat) : UInt8 :=
  if index < part.length then files.byteAt part.file (part.offset + index) else 0

/-- What a file holds for a page. -/
def FilePart.contents (part : FilePart) (files : FileStore) : PageData :=
  Vector.ofFn fun index => part.byteAt files index

namespace FileStore

variable {files after : FileStore} {file : FileId} {position length index : Nat}

theorem byteAt_congr (same : after.content? file = files.content? file) (position : Nat) :
    after.byteAt file position = files.byteAt file position := by
  rw [byteAt, bytes?_congr same, byteAt]

/-- What is found in a file at a position are the bytes that it holds from there on. -/
theorem getD_bytesAt (inside : index < (files.bytesAt file position length).size) :
    (files.bytesAt file position length).getD index 0 = files.byteAt file (position + index) := by
  cases found : files.inodes[file]? with
  | none =>
      simp only [bytesAt, found] at inside
      cases inside
  | some inode =>
      cases read : inode.read position length with
      | error error =>
          simp only [bytesAt, found, read] at inside
          cases inside
      | ok data =>
          simp only [bytesAt, found, read] at inside
          simp only [bytesAt, byteAt, bytes?, found, read, Option.bind_some]
          cases stored : inode.storage with
          | contents bytes =>
              rw [Array.getD_eq_getD_getElem?, Inode.of_read read stored inside,
                ← Array.getD_eq_getD_getElem?, Option.getD_some]
          | blank size =>
              unfold Inode.read at read
              cases granted : inode.readMode.admit position length with
              | error error => rw [granted] at read; cases read
              | ok admitted =>
                  rw [granted, stored] at read
                  cases read
                  simp [Array.getD]

/-- A blank file forgets what is written to it. -/
theorem bytes?_laid_of_blank (blank : files.bytes? file = none) (data : Array UInt8) :
    (files.laid file position data).bytes? file = none := by
  unfold bytes? at blank ⊢
  rw [getElem?_laid, if_pos rfl]
  cases found : files.inodes[file]? with
  | none => rfl
  | some inode =>
      rw [found, Option.bind_some] at blank
      rw [Option.map_some, Option.bind_some, Inode.laid]
      cases stored : inode.storage with
      | contents bytes =>
          rw [stored] at blank
          cases blank
      | blank size => simp only [stored]

end FileStore

namespace FilePart

variable {part : FilePart} {files : FileStore}

theorem get_contents (part : FilePart) (files : FileStore) (index : Fin pageSize) :
    (part.contents files).get index = part.byteAt files index := by
  show (part.contents files)[index] = _
  simp [contents]

/-- A file that has all of a part of it is read as it is. -/
theorem ofBytes_find (whole : (part.find files).size = part.length) :
    Block.ofBytes (part.find files) = part.contents files := by
  refine Vector.ext fun index inPage => ?_
  rw [Block.getElem_ofBytes]
  refine Eq.trans ?_ (part.get_contents files ⟨index, inPage⟩).symm
  rw [byteAt]
  split
  case isTrue inside => exact FileStore.getD_bytesAt (by rwa [← whole] at inside)
  case isFalse behind =>
    dsimp only at behind
    rw [Array.getD_eq_getD_getElem?, Array.getElem?_eq_none (by omega), Option.getD_none]

end FilePart

/-- A page that is read from a file which has all of its part comes in as the file holds it. -/
theorem Backing.incoming_eq_contents {backing : Backing} {part : FilePart} {files : FileStore}
    (reads : backing.part? = some part) (whole : (part.find files).size = part.length)
    (page : VirtAddr) (swap : SwapArea) (world : World) :
    backing.incoming page swap files world = part.contents files := by
  rw [← FilePart.ofBytes_find whole]
  match backing with
  | untouched (.anonymous (some (.segment _ _ _))) | untouched (.file _) | file _ =>
      cases reads
      rfl
  | untouched (.anonymous (some (.routine _))) | untouched (.anonymous none) | anonymous _ =>
      cases reads

/-! ## What changes files -/

/-- A page that is written back takes its bytes back, and leaves the rest of its file alone. -/
theorem FileRegion.byteAt_departed (region : FileRegion) (contents : PageData) (dirty : Bool)
    (files : FileStore) (file : FileId) (position : Nat) :
    (region.departed contents dirty files).byteAt file position = files.byteAt file position ∨
      dirty = true ∧ region.mapping.file = file ∧
        ∃ index : Fin pageSize, index.val < region.readBytes ∧
          position = region.offset + index.val ∧
          contents.get index = (region.departed contents dirty files).byteAt file position := by
  cases dirty with
  | false => exact .inl rfl
  | true =>
      by_cases ofFile : region.mapping.file = file
      · subst ofFile
        rw [departed, if_pos rfl]
        cases stored : files.bytes? region.mapping.file with
        | none =>
            left
            rw [FileStore.byteAt, FileStore.bytes?_laid_of_blank stored, FileStore.byteAt, stored]
        | some bytes =>
            have laid := (FileStore.of_laid stored region.offset
              (contents.slice 0 region.readBytes)).1
            rw [FileStore.byteAt, laid, FileStore.byteAt, stored, Option.getD_some,
              Option.getD_some]
            by_cases spans : region.Spans position
            · obtain ⟨index, within, rfl⟩ := spans
              refine .inr ⟨rfl, rfl, index, within, rfl, ?_⟩
              rw [Array.getD_eq_getD_getElem?,
                (region.getElem?_writtenBack bytes contents).1 index within, Option.getD_some]
              rfl
            · left
              rw [getD_overlayBytes, if_neg]
              rintro ⟨lower, upper⟩
              rw [Block.size_slice] at upper
              exact spans ⟨⟨position - region.offset, by omega⟩, by dsimp only; omega,
                by dsimp only; omega⟩
      · exact .inl (FileStore.byteAt_congr (content?_departed_of_ne ofFile) position)

section Files

variable {allowed : Move → Prop} {before after : Machine} {move : Move}

/-- Unless files are changed from outside, a byte that changes in a file was written back. -/
theorem Step.byteAt_or_writtenBack (step : Step move before after) (inside : move ≠ .outside)
    (allow : allowed move) (writable : before.DirtyWritable) (file : FileId) (position : Nat) :
    after.store.files.byteAt file position = before.store.files.byteAt file position ∨
      before.ByteWrittenBack allowed after file position
        (after.store.files.byteAt file position) := by
  rcases step.content?_cases inside with
    same | ⟨pid, page, region, frame, contents, departs, changed⟩
  · exact .inl (FileStore.byteAt_congr (same file) position)
  · rw [FileStore.byteAt_congr (changed file)]
    rcases region.byteAt_departed contents (before.isDirty pid page.address) before.store.files file
      position with same | ⟨dirty, ofFile, index, within, atPosition, holds⟩
    · exact .inl same
    · exact .inr ⟨index, .refl before, allow, step, .refl after, ⟨departs, ofFile, dirty⟩,
        writable pid page.address page departs.registered dirty, within, atPosition, holds⟩

theorem Path.byteAt_or_writtenBack (path : Path allowed before after) (sound : before.Sound)
    (inside : ¬allowed .outside) (writable : before.DirtyWritable) (file : FileId)
    (position : Nat) :
    after.store.files.byteAt file position = before.store.files.byteAt file position ∨
      before.ByteWrittenBack allowed after file position
        (after.store.files.byteAt file position) := by
  refine (path.keeps_of_sound (fun state =>
    (state.DirtyWritable ∧ Path allowed before state) ∧
    (state.store.files.byteAt file position = before.store.files.byteAt file position ∨
      before.ByteWrittenBack allowed state file position
        (state.store.files.byteAt file position))) sound
    ⟨⟨writable, .refl before⟩, .inl rfl⟩ ?_).2
  rintro move middle next allow step soundMiddle ⟨⟨protects, earlier⟩, reached⟩
  refine ⟨⟨step.dirtyWritable soundMiddle.frames protects, earlier.snoc step allow⟩, ?_⟩
  have insideHere : move ≠ .outside := fun same => inside (same ▸ allow)
  -- The last page that was written back over a position decides what the file has there.
  rcases step.byteAt_or_writtenBack insideHere allow protects file position with same | back
  · rw [same]
    exact reached.imp_right fun back => back.extend (.refl before) (.single step allow)
  · exact .inr (back.extend earlier (.refl next))

/-- So it is with what a file holds for a page. -/
theorem Path.part_byteAt_or_writtenBack (path : Path allowed before after) (sound : before.Sound)
    (inside : ¬allowed .outside) (writable : before.DirtyWritable) (part : FilePart)
    (index : Nat) :
    part.byteAt after.store.files index = part.byteAt before.store.files index ∨
      index < part.length ∧ before.ByteWrittenBack allowed after part.file (part.offset + index)
        (part.byteAt after.store.files index) := by
  unfold FilePart.byteAt
  split
  case isTrue within =>
    exact (path.byteAt_or_writtenBack sound inside writable part.file
      (part.offset + index)).imp_right fun back => ⟨within, back⟩
  case isFalse => exact .inl rfl

end Files

/-! ## The bytes that a page stands for -/

namespace Backing

variable {backing : Backing} {part : FilePart} {region : FileRegion}

theorem part?_of_region? (ofFile : backing.region? = some region) :
    backing.part? = some region.part := by
  match backing with
  | untouched (.anonymous _) | anonymous _ => cases ofFile
  | untouched (.file _) | file _ =>
      cases ofFile
      rfl

/-- A page that was touched is read from a file only if the file is behind it. -/
theorem exists_region?_of_part? (reads : backing.part? = some part)
    (touched : backing.isUntouched = false) :
    ∃ region, backing.region? = some region ∧ region.part = part := by
  match backing with
  | untouched _ => cases touched
  | anonymous _ => cases reads
  | file region => exact ⟨region, rfl, Option.some.inj reads⟩

/-- What a page stands for that is not read from a file is in its image, or with its loader. -/
theorem incoming_congr_of_part? (noFile : backing.part? = none) {swap other : SwapArea}
    (images : ∀ slot, backing.slot? = some slot → other.image slot = swap.image slot)
    (page : VirtAddr) (files now : FileStore) (world : World) :
    backing.incoming page other now world = backing.incoming page swap files world := by
  match backing with
  | untouched (.anonymous none) | untouched (.anonymous (some (.routine _))) | anonymous none => rfl
  | anonymous (some slot) => exact images slot rfl
  | untouched (.anonymous (some (.segment _ _ _))) | untouched (.file _) | file _ => cases noFile

end Backing

namespace Machine

variable {machine : Machine} {pid : Pid} {place : VirtAddr} {page : Page} {part : FilePart}
  {frame : PhysAddr} {bytes : PageData}

/-- The bytes that a page stands for: those in its frame while it is in memory, and those with which
it comes in while it is not. -/
def bytesOf? (machine : Machine) (page : Page) : Option PageData :=
  match page.frame, page.backing.part? with
  | some frame, _ => machine.resident.contents? frame
  | none, some part => some (part.contents machine.store.files)
  | none, none =>
    some (page.backing.incoming page.address machine.store.swap machine.store.files
      machine.store.world)

theorem bytesOf?_of_held (held : page.frame = some frame) :
    machine.bytesOf? page = machine.resident.contents? frame := by
  rw [bytesOf?, held]

theorem bytesOf?_of_part? (absent : page.frame = none) (reads : page.backing.part? = some part) :
    machine.bytesOf? page = some (part.contents machine.store.files) := by
  rw [bytesOf?, absent, reads]

theorem bytesOf?_of_incoming (absent : page.frame = none) (noFile : page.backing.part? = none) :
    machine.bytesOf? page = some (page.backing.incoming page.address machine.store.swap
      machine.store.files machine.store.world) := by
  rw [bytesOf?, absent, noFile]

/-- A page that holds something of its own is not read from a file. -/
theorem part?_of_contentsOf? (holds : machine.contentsOf? page = some bytes) :
    page.backing.part? = none := by
  unfold contentsOf? at holds
  match backed : page.backing with
  | .untouched (.anonymous none) | .anonymous _ => rfl
  | .untouched (.anonymous (some _)) | .untouched (.file _) | .file _ =>
      rw [backed] at holds
      cases holds

/-- An anonymous page stands for what it holds. -/
theorem bytesOf?_of_contentsOf? (placed : page.Placed)
    (holds : machine.contentsOf? page = some bytes) : machine.bytesOf? page = some bytes := by
  have noFile := part?_of_contentsOf? holds
  unfold contentsOf? at holds
  unfold Page.Placed at placed
  match backed : page.backing, held : page.frame with
  | .untouched (.anonymous none), some _ =>
      rw [backed, held] at placed
      cases placed
  | .anonymous _, some _ =>
      rw [backed, held] at holds
      exact (bytesOf?_of_held held).trans holds
  | .untouched (.anonymous none), none | .anonymous (some _), none =>
      rw [backed, held] at holds
      rw [bytesOf?_of_incoming held noFile, backed]
      exact holds
  | .untouched (.anonymous (some _)), _ | .untouched (.file _), _ | .file _, _ =>
      rw [backed] at holds
      cases holds
  | .anonymous none, none =>
      rw [backed, held] at holds
      cases holds

theorem Sound.exists_bytesOf? (sound : machine.Sound)
    (registered : machine.page? pid place = some page) :
    ∃ bytes, machine.bytesOf? page = some bytes := by
  cases held : page.frame with
  | some frame =>
      rw [bytesOf?_of_held held]
      exact Option.isSome_iff_exists.1 (sound.frames.resident.contents?_isSome
        (sound.frames.owner?_of_held registered held))
  | none =>
      unfold bytesOf?
      rw [held]
      cases page.backing.part? <;> exact ⟨_, rfl⟩

/-- A page in memory that holds nothing of its own is one of a file. -/
theorem Sound.exists_region? (sound : machine.Sound)
    (registered : machine.page? pid place = some page) (held : page.frame = some frame)
    (holds : machine.contents? pid place = none) : ∃ region, page.region? = some region := by
  have placed := sound.slots.placed pid place page registered
  rw [contents?_of_page registered] at holds
  unfold Page.Placed at placed
  unfold Page.region?
  match backed : page.backing with
  | .file region => exact ⟨region, rfl⟩
  | .untouched _ =>
      rw [backed, held] at placed
      cases placed
  | .anonymous _ =>
      have filled := sound.frames.resident.contents?_isSome
        (sound.frames.owner?_of_held registered held)
      rw [contentsOf?, backed, held] at holds
      dsimp only at holds
      rw [holds] at filled
      cases filled

end Machine

/-! ## Moves that spare a page -/

/-- A move neither changes anything from outside, nor removes a page, nor replaces its bytes. -/
def Move.Spares (pid : Pid) (place : VirtAddr) : Move → Prop
  | outside => False
  | overwrite other address _ | remove other address _ => ¬(other = pid ∧ address = place)
  | upkeep | refer | setStackPointer _ | access _ _ _ | pageOut _ | pageIn _ _ _ _ _
  | register _ _ _ | arrive _ | leave _ => True

/-- A page stands for the same bytes as before, or it is not in memory and stands for what a file
holds. -/
inductive Machine.Carries (before : Machine) (page : Page) (after : Machine) (kept : Page) :
    Prop where
  | same (bytes : after.bytesOf? kept = before.bytesOf? page)
      (part : ∀ part, kept.backing.part? = some part → page.backing.part? = some part)
  | reads {part : FilePart} (behind : page.backing.part? = some part)
      (still : kept.backing.part? = some part) (absent : kept.frame = none)

section Steps

variable {before after : Machine} {move : Move} {pid : Pid} {place : VirtAddr} {page kept : Page}
  {frame : PhysAddr} {kind : PageKind} {first : Bool}

/-- A page that leaves memory takes its bytes along, or stands for those of its file. -/
theorem Step.carries_of_pageOut (step : Step (.pageOut frame) before after) (sound : before.Sound)
    (registered : before.page? pid place = some page) (held : page.frame = some frame)
    (found : after.page? pid place = some kept) (continues : page.Continues kept) :
    before.Carries page after kept := by
  have atFrame : before.frame? pid place = some frame := by
    rw [frame?, registered]
    exact held
  have absent := step.frame?_of_pageOut sound.frames atFrame
  rw [frame?, found, Option.bind_some] at absent
  cases holds : before.contents? pid place with
  | some bytes =>
      have still := step.contents?_of_pageOut sound atFrame holds
      rw [contents?_of_page registered] at holds
      rw [contents?_of_page found] at still
      refine .same ?_ fun part reads => ?_
      · rw [bytesOf?_of_contentsOf? (sound.slots.placed _ _ _ registered) holds,
          bytesOf?_of_contentsOf? ((step.sound sound).slots.placed _ _ _ found) still]
      · rw [part?_of_contentsOf? still] at reads
        cases reads
  | none =>
      obtain ⟨region, ofFile⟩ := sound.exists_region? registered held holds
      exact .reads (Backing.part?_of_region? ofFile)
        (Backing.part?_of_region? (continues.region?.trans ofFile)) absent

/-- A page that is brought in has the bytes that it stood for. -/
theorem Step.carries_of_pageIn (step : Step (.pageIn pid place frame kind first) before after)
    (registered : before.page? pid place = some page)
    (found : after.page? pid place = some kept) (continues : page.Continues kept) :
    before.Carries page after kept := by
  have absent := step.frame?_before_pageIn
  have held := step.frame?_of_pageIn
  rw [frame?, registered, Option.bind_some] at absent
  rw [frame?, found, Option.bind_some] at held
  obtain ⟨contents, -, whole⟩ := step.incoming_of_pageIn registered
  refine .same ?_ fun part reads => ?_
  · rw [bytesOf?_of_held held, contents]
    cases reads : page.backing.part? with
    | some part =>
        rw [bytesOf?_of_part? absent reads, Backing.incoming_eq_contents reads (whole part reads)]
    | none => rw [bytesOf?_of_incoming absent reads]
  · obtain ⟨-, changed, same, claimed⟩ := step.claimedTo_of_pageIn registered
    rw [found, Option.some.injEq] at same
    subst same
    have touched : kept.backing.isUntouched = false := by
      have now := claimed.touched
      rwa [decide_eq_false Nat.one_ne_zero, Bool.and_false] at now
    obtain ⟨region, ofFile, rfl⟩ := Backing.exists_region?_of_part? reads touched
    exact Backing.part?_of_region? (continues.region?.symm.trans ofFile)

theorem Step.carries (step : Step move before after) (sound : before.Sound)
    (spares : move.Spares pid place) (registered : before.page? pid place = some page) :
    ∃ kept, after.page? pid place = some kept ∧ page.Continues kept ∧
      before.Carries page after kept := by
  have inside : move ≠ .outside := by
    rintro rfl
    exact spares
  have notRemoved : ∀ kind, move ≠ .remove pid place kind := by
    rintro kind rfl
    exact spares ⟨rfl, rfl⟩
  have notOverwritten : ∀ kind, move ≠ .overwrite pid place kind := by
    rintro kind rfl
    exact spares ⟨rfl, rfl⟩
  obtain ⟨kept, found, continues⟩ :=
    step.exists_page? sound.frames registered (notRemoved page.kind)
  refine ⟨kept, found, continues, ?_⟩
  by_cases same : after.page? pid place = before.page? pid place
  · rw [found, registered, Option.some.injEq] at same
    subst same
    cases held : kept.frame with
    | some frame =>
        refine .same ?_ fun part reads => reads
        rw [bytesOf?_of_held held, bytesOf?_of_held held]
        exact step.contents?_of_owned sound (sound.frames.owner?_of_held registered held)
          notOverwritten notRemoved
    | none =>
        cases reads : kept.backing.part? with
        | some part => exact .reads reads reads held
        | none =>
            refine .same ?_ fun part reads => reads
            rw [bytesOf?_of_incoming held reads, bytesOf?_of_incoming held reads,
              step.world_eq sound.mappings inside]
            refine congrArg some
              (Backing.incoming_congr_of_part? reads (fun slot recorded => ?_) ..)
            exact (step.keepsImages sound).image slot
              (sound.slots.isOccupied_of_recorded registered recorded)
  · rcases step.move_of_page? sound registered notRemoved same with
      ⟨frame, rfl, atFrame⟩ | ⟨frame, kind, first, rfl⟩
    · rw [frame?, registered, Option.bind_some] at atFrame
      exact step.carries_of_pageOut sound registered atFrame found continues
    · exact step.carries_of_pageIn registered found continues

end Steps

/-! ## Paths that spare a page -/

/-- A byte of a page that is read from a file became another one. Either the page was in memory with
another byte than its file had for it, and has been dropped since, or a dirty page of the file took
that byte back. -/
inductive Machine.FollowsFile (allowed : Move → Prop) (before : Machine) (page : Page)
    (after : Machine) (index : Fin pageSize) (old now : UInt8) : Prop where
  | dropped {part : FilePart} (reads : page.backing.part? = some part)
      (resident : page.frame.isSome = true)
      (stale : part.byteAt before.store.files index ≠ old)
      (follows : now = part.byteAt before.store.files index)
  | writtenBack {part : FilePart} (reads : page.backing.part? = some part)
      (within : index.val < part.length)
      (back : before.ByteWrittenBack allowed after part.file (part.offset + index.val) now)

section Paths

variable {allowed : Move → Prop} {before after last : Machine} {pid : Pid} {place : VirtAddr}
  {page : Page} {index : Fin pageSize} {old now : UInt8}

theorem Machine.FollowsFile.extend (follows : before.FollowsFile allowed page after index old now)
    (rest : Path allowed after last) : before.FollowsFile allowed page last index old now := by
  cases follows with
  | dropped reads resident stale follows => exact .dropped reads resident stale follows
  | writtenBack reads within back =>
      exact .writtenBack reads within (back.extend (.refl before) rest)

/-- No byte of a page changes that is as its file has it, if no page of the file may be written. -/
theorem Machine.ReadOnly.not_followsFile {part : FilePart} (readOnly : before.ReadOnly part.file)
    (sound : before.Sound) (noRegister : ∀ pid address, ¬allowed (.register pid address .file))
    (reads : page.backing.part? = some part)
    (fresh : part.byteAt before.store.files index = old) :
    ¬before.FollowsFile allowed page after index old now := by
  rintro (⟨behind, -, stale, -⟩ | ⟨behind, -, back⟩)
  · rw [reads, Option.some.injEq] at behind
    exact stale (behind ▸ fresh)
  · rw [reads, Option.some.injEq] at behind
    subst behind
    exact readOnly.not_byteWrittenBack sound noRegister back

/-- Along steps that spare a page, all its bytes stay the same but those that follow a file. -/
theorem Path.followsFile (path : Path allowed before after) (sound : before.Sound)
    (writable : before.DirtyWritable) (spares : ∀ move, allowed move → move.Spares pid place)
    (registered : before.page? pid place = some page) :
    ∃ kept old now, after.page? pid place = some kept ∧ page.Continues kept ∧
      before.bytesOf? page = some old ∧ after.bytesOf? kept = some now ∧
      ∀ index : Fin pageSize, now.get index = old.get index ∨
        before.FollowsFile allowed page after index (old.get index) (now.get index) := by
  obtain ⟨old, stands⟩ := sound.exists_bytesOf? registered
  have inside : ¬allowed .outside := spares .outside
  have reached := path.keeps_of_sound (fun state => Path allowed before state ∧
    ∃ kept now, state.page? pid place = some kept ∧ page.Continues kept ∧
      (∀ part, kept.backing.part? = some part → page.backing.part? = some part) ∧
      state.bytesOf? kept = some now ∧ ∀ index : Fin pageSize, now.get index = old.get index ∨
        before.FollowsFile allowed page state index (old.get index) (now.get index)) sound
    ⟨.refl before, page, old, registered, .refl page, fun _ reads => reads, stands,
      fun _ => .inl rfl⟩ ?_
  · obtain ⟨-, kept, now, found, continues, -, standsNow, bytes⟩ := reached
    exact ⟨kept, old, now, found, continues, stands, standsNow, bytes⟩
  · rintro move middle next allow step soundMiddle
      ⟨earlier, kept, now, found, continues, ofPage, standsMiddle, bytes⟩
    have path := earlier.snoc step allow
    obtain ⟨keptNext, foundNext, continuesNext, carries⟩ :=
      step.carries soundMiddle (spares move allow) found
    refine ⟨path, keptNext, ?_⟩
    cases carries with
    | same sameBytes still =>
        exact ⟨now, foundNext, continues.trans continuesNext,
          fun part reads => ofPage part (still part reads), sameBytes.trans standsMiddle,
          fun index => (bytes index).imp_right fun follows => follows.extend (.single step allow)⟩
    | @reads part behind still absent =>
        have reads := ofPage part behind
        refine ⟨_, foundNext, continues.trans continuesNext, fun other ofKept => ?_,
          bytesOf?_of_part? absent still, fun index => ?_⟩
        · rw [still] at ofKept
          cases ofKept
          exact reads
        · rw [FilePart.get_contents]
          rcases path.part_byteAt_or_writtenBack sound inside writable part index with
            same | ⟨within, back⟩
          · by_cases stale : part.byteAt before.store.files index = old.get index
            · exact .inl (same.trans stale)
            · refine .inr (.dropped reads ?_ stale same)
              -- A page that was not in memory stood for what the file held.
              by_contra resident
              have absentBefore : page.frame = none := by simpa using resident
              rw [bytesOf?_of_part? absentBefore reads, Option.some.injEq] at stands
              exact stale (stands ▸ (part.get_contents before.store.files index).symm)
          · exact .inr (.writtenBack reads within back)

/-- A page that is in memory afterwards, and was not brought in on the way, stands for the same
bytes. -/
theorem Path.bytesOf?_of_resident {kept : Page} (path : Path allowed before after)
    (sound : before.Sound) (spares : ∀ move, allowed move → move.Spares pid place)
    (notIn : ∀ frame kind first, ¬allowed (.pageIn pid place frame kind first))
    (registered : before.page? pid place = some page) (found : after.page? pid place = some kept)
    (resident : kept.frame ≠ none) : after.bytesOf? kept = before.bytesOf? page := by
  refine path.keeps_of_sound (fun state => Path allowed before state ∧ ∀ kept,
    state.page? pid place = some kept → kept.frame ≠ none →
      state.bytesOf? kept = before.bytesOf? page) sound ⟨.refl before, fun kept found _ => ?_⟩ ?_
    |>.2 kept found resident
  · rw [registered, Option.some.injEq] at found
    rw [found]
  · rintro move middle next allow step soundMiddle ⟨earlier, same⟩
    refine ⟨earlier.snoc step allow, fun last foundNext resident => ?_⟩
    obtain ⟨frame, held⟩ := Option.ne_none_iff_exists'.1 resident
    have atFrame : next.frame? pid place = some frame := by
      rw [frame?, foundNext]
      exact held
    rcases step.frame?_cases soundMiddle atFrame with
      ⟨before', bytes | ⟨kind, rfl⟩⟩ | ⟨kind, first, rfl⟩
    · obtain ⟨now, known, heldNow⟩ := Option.bind_eq_some_iff.1 before'
      rw [bytesOf?_of_held held, bytes, ← bytesOf?_of_held heldNow]
      exact same now known (heldNow ▸ Option.some_ne_none frame)
    · exact absurd ⟨rfl, rfl⟩ (spares _ allow)
    · exact absurd allow (notIn frame kind first)

end Paths

end DemandPaging
