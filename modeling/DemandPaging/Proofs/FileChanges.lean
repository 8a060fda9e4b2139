import DemandPaging.Proofs.FileSizes
import DemandPaging.Proofs.WritablePages

/-!
What changes the bytes of files.

Owns:
- `Machine.ByteWrittenBack`, on the way from one state to another a page takes a byte back to its
  file;
- that every byte of a file that changes in an event was written back, and that files which no page
  may write keep what they hold.

Does not own: which bytes are stored in the pages (`Machine.overlay`).

Main statement: `Machine.files_changed_only`, over every run.
-/

namespace DemandPaging

open Machine

/-- On the way from one state to another a page of a file leaves memory that may be written and was,
and it has a byte for a position in the file. -/
inductive Machine.ByteWrittenBack (allowed : Move → Prop) (before after : Machine) (file : FileId)
    (position : Nat) (byte : UInt8) : Prop where
  | intro {middle next : Machine} {move : Move} {pid : Pid} {page : Page} {region : FileRegion}
      {frame : PhysAddr} {contents : PageData} (index : Fin pageSize)
      (earlier : Path allowed before middle) (allow : allowed move) (step : Step move middle next)
      (later : Path allowed next after)
      (writesBack : middle.WritesBack move file pid page region frame contents)
      (writable : page.writable = true) (inside : index.val < region.readBytes)
      (atPosition : position = region.offset + index.val) (holds : contents[index] = byte)

/-! ## Steps -/

section Steps

variable {allowed : Move → Prop} {first before after last : Machine} {move : Move} {file : FileId}
  {position : Nat} {byte : UInt8} {bytes : Array UInt8}

theorem Machine.ByteWrittenBack.extend
    (back : before.ByteWrittenBack allowed after file position byte)
    (start : Path allowed first before) (rest : Path allowed after last) :
    first.ByteWrittenBack allowed last file position byte := by
  obtain ⟨index, earlier, allow, step, later, writesBack, writable, inside, atPosition, holds⟩ :=
    back
  exact ⟨index, start.trans earlier, allow, step, later.trans rest, writesBack, writable, inside,
    atPosition, holds⟩

/-- No byte is taken back to a file of which no page may be written. -/
theorem Machine.ReadOnly.not_byteWrittenBack {byte : UInt8} (readOnly : before.ReadOnly file)
    (sound : before.Sound) (noRegister : ∀ pid address, ¬allowed (.register pid address .file)) :
    ¬before.ByteWrittenBack allowed after file position byte := by
  rintro ⟨index, earlier, -, -, -, writesBack, writable, -, -, -⟩
  have protects := readOnly.of_path earlier sound noRegister _ _ _ _ writesBack.registered
    (by rw [Page.region?, writesBack.backed]; rfl) writesBack.file
  rw [writable] at protects
  cases protects

/-- Unless files are changed from outside, what changes in a file was written back. -/
theorem Step.byteWrittenBack (step : Step move before after) (sound : before.Sound)
    (inside : move ≠ .outside) (allow : allowed move) (fit : before.RegionsFit)
    (writable : before.DirtyWritable) (stored : before.store.files.bytes? file = some bytes) :
    ∃ changed, after.store.files.bytes? file = some changed ∧
      ∀ position, changed[position]? = bytes[position]? ∨ ∃ byte, changed[position]? = some byte ∧
        before.ByteWrittenBack allowed after file position byte := by
  rcases step.bytes?_cases sound.frames inside stored with
    ⟨same, -⟩ | ⟨pid, page, region, frame, contents, writesBack, laid, -⟩
  · exact ⟨bytes, same, fun _ => .inl rfl⟩
  · have reaches := writesBack.le_size fit
    rw [writesBack.file, FileStore.size_of_bytes? stored] at reaches
    have fits : region.offset + min region.readBytes pageSize ≤ bytes.size := by omega
    obtain ⟨-, spanned, others⟩ := region.writtenBack contents fits
    refine ⟨_, laid, fun position => ?_⟩
    by_cases spans : region.Spans position
    · obtain ⟨index, within, rfl⟩ := spans
      exact .inr ⟨contents[index], spanned index within, index, .refl before, allow, step,
        .refl after, writesBack, writable pid page.address page writesBack.registered
          writesBack.dirty, within, rfl, rfl⟩
    · exact .inl (others position spans)

end Steps

/-! ## Events -/

namespace Event

variable {event : Event} {before after : Machine} {file : FileId} {bytes : Array UInt8}

/-- What an event changes in a file was written back. -/
theorem byteWrittenBack (sound : before.Sound) (whole : ∀ pid, before.MappingsWhole pid)
    (fit : before.RegionsFit) (writable : before.DirtyWritable) (inside : ¬event.IsOutside)
    (leaves : (event.perform before).state? = some after)
    (stored : before.store.files.bytes? file = some bytes) :
    ∃ changed, after.store.files.bytes? file = some changed ∧
      ∀ position, changed[position]? = bytes[position]? ∨ ∃ byte, changed[position]? = some byte ∧
        before.ByteWrittenBack (event.Allows before.nextPid) after file position byte := by
  refine ((leads_of_perform sound whole leaves).path.keeps_of_brings (fun state =>
    (state.RegionsFit ∧ state.DirtyWritable ∧
      Path (event.Allows before.nextPid) before state) ∧
    ∃ changed, state.store.files.bytes? file = some changed ∧
      ∀ position, changed[position]? = bytes[position]? ∨ ∃ byte, changed[position]? = some byte ∧
        before.ByteWrittenBack (event.Allows before.nextPid) state file position byte)
    sound whole (event.keepsMappings_or _)
    ⟨⟨fit, writable, .refl before⟩, bytes, stored, fun _ => .inl rfl⟩ ?_).2
  rintro move middle next allow step soundMiddle brings
    ⟨⟨fits, protects, path⟩, changed, storedMiddle, earlier⟩
  have insideHere := ne_outside_of_allows inside allow
  refine ⟨⟨step.regionsFit soundMiddle insideHere brings fits,
    step.dirtyWritable soundMiddle.frames protects, path.snoc step allow⟩, ?_⟩
  obtain ⟨latest, storedNext, now⟩ :=
    step.byteWrittenBack soundMiddle insideHere allow fits protects storedMiddle
  refine ⟨latest, storedNext, fun position => ?_⟩
  -- The last page that was written back over a position decides what the file has there.
  rcases now position with same | ⟨byte, atPosition, back⟩
  · rw [same]
    rcases earlier position with unchanged | ⟨byte, atPosition, back⟩
    · exact .inl unchanged
    · exact .inr ⟨byte, atPosition, back.extend (.refl before) (.single step allow)⟩
  · exact .inr ⟨byte, atPosition, back.extend path (.refl next)⟩

/-- An event writes no file of which no page may be written, not even if it maps the file to be
written. -/
theorem content?_of_readOnly (sound : before.Sound) (whole : ∀ pid, before.MappingsWhole pid)
    (writable : before.DirtyWritable) (readOnly : before.ReadOnly file)
    (inside : ¬event.IsOutside) (leaves : (event.perform before).state? = some after) :
    after.store.files.content? file = before.store.files.content? file := by
  have path := (leads_of_perform sound whole leaves).path
  by_cases makes : event.MakesMappings
  · -- Pages that may be written can come, but in this event none of them is written.
    exact path.content?_of_clean sound (readOnly.clean writable)
      (fun _ _ => makes.not_allows_access) (not_allows_outside inside)
  · refine (path.keeps_of_sound (fun state => (state.DirtyWritable ∧ state.ReadOnly file) ∧
      state.store.files.content? file = before.store.files.content? file) sound
      ⟨⟨writable, readOnly⟩, rfl⟩ ?_).2
    rintro move middle next allow step soundMiddle ⟨⟨protects, readOnlyMiddle⟩, same⟩
    have insideHere := ne_outside_of_allows inside allow
    refine ⟨⟨step.dirtyWritable soundMiddle.frames protects, ?_⟩,
      (step.content?_of_clean insideHere (readOnlyMiddle.clean protects)).trans same⟩
    exact readOnlyMiddle.of_path (.single step allow) soundMiddle fun _ _ =>
      not_allows_register makes

end Event

/-! ## Runs -/

namespace Machine

variable {machine before after : Machine} {past : List Event} {file : FileId}

theorem Reachable.readOnly_of_run (reachable : machine.Reachable) (readOnly : machine.ReadOnly file)
    (mapsReadOnly : ∀ event ∈ past, event.MapsReadOnly file)
    (run : machine.after? past = some before) : before.ReadOnly file :=
  (reachable.keeps (fun state => state.ReadOnly file) run readOnly
    fun event listed _ _ reached leaves stays =>
      Event.readOnly reached.sound reached.mappingsWhole (mapsReadOnly event listed) stays
        leaves).2

/-- Files change only where pages that may be written, and were, are written back. No event of a run
changes the size of a file, unless it changes files from outside, and a byte of a file that is
another one after the event is that of a dirty page that left memory. A file of which no page may be
written is not written at all, and so it is with every file that was mapped to be read only. Between
two events files may be changed from outside, but not made shorter. -/
theorem files_changed_only {settings : Settings} {frames : Nat} {disk : Disk} {files : FileStore}
    {event : Event}
    (run : (create settings (FramePool.create frames) disk files).after? past = some before)
    (shrinksNone : ∀ other ∈ past, other.ShrinksNone) (inside : ¬event.IsOutside)
    (leaves : (event.perform before).state? = some after) :
    (∀ file, after.store.files.size file = before.store.files.size file) ∧
    (∀ file bytes, before.store.files.bytes? file = some bytes →
      ∃ changed, after.store.files.bytes? file = some changed ∧
        ∀ position, changed[position]? ≠ bytes[position]? →
          ∃ byte, changed[position]? = some byte ∧
            before.ByteWrittenBack (event.Allows before.nextPid) after file position byte) ∧
    (∀ file, before.ReadOnly file →
      after.store.files.content? file = before.store.files.content? file) ∧
    ∀ file, (∀ other ∈ past, other.MapsReadOnly file) → before.ReadOnly file := by
  have start := Reachable.start settings frames disk files
  have empty (pid : Pid) (address : VirtAddr) :
      (create settings (FramePool.create frames) disk files).page? pid address = none := by
    simp [create, page?]
  have reachable := start.of_after? run
  have fit : before.RegionsFit := by
    refine start.regionsFit ?_ shrinksNone run
    intro pid address region frame atAddress
    rw [region?, empty] at atAddress
    cases atAddress
  refine ⟨?_, ?_, ?_, ?_⟩
  · exact (Event.size_eq reachable.sound reachable.mappingsWhole fit inside leaves).2
  · intro file bytes stored
    obtain ⟨changed, storedAfter, positions⟩ := Event.byteWrittenBack reachable.sound
      reachable.mappingsWhole fit reachable.dirtyWritable inside leaves stored
    exact ⟨changed, storedAfter, fun position different =>
      (positions position).resolve_left different⟩
  · intro file readOnly
    exact Event.content?_of_readOnly reachable.sound reachable.mappingsWhole
      reachable.dirtyWritable readOnly inside leaves
  · intro file mapsReadOnly
    refine start.readOnly_of_run ?_ mapsReadOnly run
    intro pid address page region registered
    rw [empty] at registered
    cases registered

/-- A machine with one frame, two slots and two files. -/
def tinyWithFiles : Machine :=
  create {} (FramePool.create 1) (Disk.create 16)
    ⟨#[{ storage := .contents #[7, 8, 9] }, { storage := .contents #[1, 2] }]⟩

/-- One file is mapped to be written and another one to be read, and the first byte of the first one
is written. -/
def mappingBoth : List Event :=
  [.createProcess, .mapFile ⟨1⟩ firstPage 3 true 0 0, .mapFile ⟨1⟩ secondPage 2 false 1 0,
    .writeUser ⟨1⟩ firstPage #[5]]

/-- When the second file is read, the page of the first one is driven out. Its byte reaches the
file, and the second file stays as it is. -/
theorem files_changed_only_reading :
    ∃ before after, tinyWithFiles.after? mappingBoth = some before ∧
      ((Event.readUser ⟨1⟩ secondPage 2).perform before).state? = some after ∧
      after.store.files.bytes? 0 = some #[5, 8, 9] ∧
      before.ByteWrittenBack ((Event.readUser ⟨1⟩ secondPage 2).Allows before.nextPid) after 0 0
        5 ∧
      after.store.files.content? 1 = before.store.files.content? 1 := by
  have runs : ((tinyWithFiles.after? mappingBoth).bind fun before =>
      ((Event.readUser ⟨1⟩ secondPage 2).perform before).state?.map fun after =>
        (before.store.files.bytes? 0, after.store.files.bytes? 0)) =
      some (some #[7, 8, 9], some #[5, 8, 9]) := by decide +kernel
  obtain ⟨before, run, ends⟩ := Option.bind_eq_some_iff.1 runs
  obtain ⟨after, leaves, stored⟩ := Option.map_eq_some_iff.1 ends
  rw [Prod.mk.injEq] at stored
  obtain ⟨-, written, unwritten, readOnly⟩ := files_changed_only run
    (by simp [mappingBoth, Event.ShrinksNone]) (by simp [Event.IsOutside]) leaves
  refine ⟨before, after, run, leaves, stored.2, ?_, unwritten 1 (readOnly 1 ?_)⟩
  · obtain ⟨changed, now, positions⟩ := written 0 #[7, 8, 9] stored.1
    rw [stored.2, Option.some.injEq] at now
    subst now
    obtain ⟨byte, known, back⟩ := positions 0 (by decide)
    cases known
    exact back
  · simp [mappingBoth, Event.MapsReadOnly]

end Machine

end DemandPaging
