import DemandPaging.Proofs.FileBytes
import DemandPaging.Proofs.Mappings

/-!
What a machine holds of a file while pages of it are in memory.

Owns:
- `Machine.PageOf`, a page of a process has a part of a file behind it;
- `Machine.WritesBack`, a dirty page of a file leaves memory;
- `Machine.Represents`, the bytes of a file as the machine holds them, in its dirty pages and in the
  file itself.

Does not own: what a run intends the bytes of a file to be.

Main statements: `Step.bytes?_cases`, a file is written only when a dirty page of it leaves memory,
`Step.represents` and `Path.represents`, pages that move in and out of memory change none of the
bytes that are represented, and `Machine.Represents.overwritten`.
-/

namespace DemandPaging

/-- A page of a file that is in memory was touched. -/
theorem Page.backing_of_held {page : Page} {region : FileRegion} {frame : PhysAddr}
    (placed : page.Placed) (held : page.frame = some frame) (ofFile : page.region? = some region) :
    page.backing = .file region := by
  unfold Page.Placed at placed
  unfold Page.region? at ofFile
  match backed : page.backing with
  | .untouched _ =>
      rw [backed, held] at placed
      cases placed
  | .anonymous _ =>
      rw [backed] at ofFile
      cases ofFile
  | .file _ =>
      rw [backed] at ofFile
      cases ofFile
      rfl

namespace Machine

/-- A page of a process has a part of a file behind it. -/
structure PageOf (machine : Machine) (file : FileId) (pid : Pid) (address : VirtAddr)
    (region : FileRegion) : Prop where
  region? : machine.region? pid address = some region
  file : region.mapping.file = file

/-- A dirty page of a file leaves memory by a move. -/
structure WritesBack (machine : Machine) (move : Move) (file : FileId) (pid : Pid) (page : Page)
    (region : FileRegion) (frame : PhysAddr) (contents : PageData) : Prop
    extends Departs machine move pid page region frame contents where
  file : region.mapping.file = file
  dirty : machine.isDirty pid page.address = true

/-- Of the pages of a file, no two different ones that may be written span the same position. -/
def Apart (machine : Machine) (file : FileId) (writer : FileRegion → Prop) : Prop :=
  ∀ pid address region other place found position, machine.PageOf file pid address region →
    machine.PageOf file other place found → writer region → writer found →
    region.Spans position → found.Spans position → pid = other ∧ address = place

/-- A machine represents the bytes of a file, of whose pages only some may be written. The file
holds them, except those in dirty pages, and the pages that may be written hold them while they are
in memory. -/
structure Represents (machine : Machine) (file : FileId) (writer : FileRegion → Prop)
    (intended : Array UInt8) : Prop where
  stored : ∃ bytes, machine.store.files.bytes? file = some bytes ∧ bytes.size = intended.size ∧
    ∀ position, (∀ pid address region, machine.PageOf file pid address region →
      region.Spans position → machine.isDirty pid address = false) →
      bytes[position]? = intended[position]?
  held : ∀ pid address region frame contents, machine.PageOf file pid address region →
    writer region → machine.frame? pid address = some frame →
    machine.resident.contents? frame = some contents → region.Matches contents intended
  written : ∀ pid address region, machine.PageOf file pid address region →
    machine.isDirty pid address = true → writer region

variable {machine before after : Machine} {move : Move} {file : FileId} {pid : Pid}
  {address : VirtAddr} {page : Page} {region : FileRegion} {frame : PhysAddr}
  {contents : PageData}

/-- A move takes at most one page of a file out of memory. -/
theorem Departs.unique {other : Pid} {found : Page} {part : FileRegion} {slot : PhysAddr}
    {bytes : PageData} (owned : machine.FramesOwned)
    (left : machine.Departs move pid page region frame contents)
    (right : machine.Departs move other found part slot bytes) :
    pid = other ∧ page = found ∧ region = part := by
  have same : pid = other ∧ page.address = found.address := by
    rcases left.leaves with rfl | rfl <;> rcases right.leaves with leaves | leaves
    · injection leaves with sameFrame
      have owner := owned.owner?_of_held left.registered left.held
      rw [sameFrame, owned.owner?_of_held right.registered right.held, Option.some.injEq,
        FrameOwner.mk.injEq] at owner
      exact ⟨owner.1.symm, owner.2.symm⟩
    · cases leaves
    · cases leaves
    · injection leaves with samePid sameAddress
      exact ⟨samePid, sameAddress⟩
  obtain ⟨rfl, sameAddress⟩ := same
  have registered := right.registered
  rw [← sameAddress, left.registered, Option.some.injEq] at registered
  subst registered
  have backed := right.backed
  rw [left.backed, Backing.file.injEq] at backed
  exact ⟨rfl, rfl, backed⟩

theorem Departs.pageOf (departs : machine.Departs move pid page region frame contents) :
    machine.PageOf region.mapping.file pid page.address region := by
  refine ⟨?_, rfl⟩
  rw [Machine.region?, departs.registered, Option.bind_some, Page.region?, departs.backed]
  rfl

theorem PageOf.of_region?_eq (ofFile : before.PageOf file pid address region)
    (same : after.region? pid address = before.region? pid address) :
    after.PageOf file pid address region := ⟨same.trans ofFile.region?, ofFile.file⟩

theorem Apart.of_region?_eq {writer : FileRegion → Prop} (apart : before.Apart file writer)
    (same : ∀ pid address, after.region? pid address = before.region? pid address) :
    after.Apart file writer := by
  intro pid address region other place found position left right
  exact apart pid address region other place found position
    (left.of_region?_eq (same pid address).symm) (right.of_region?_eq (same other place).symm)

theorem PageOf.exists_page? (ofFile : machine.PageOf file pid address region) :
    ∃ page, machine.page? pid address = some page ∧ page.region? = some region :=
  Option.bind_eq_some_iff.1 ofFile.region?

end Machine

open Machine

section Steps

variable {before after : Machine} {move : Move} {file : FileId} {pid : Pid} {address : VirtAddr}
  {region : FileRegion} {writer : FileRegion → Prop} {bytes intended : Array UInt8}

/-- Apart from changes from outside, a file is written exactly when a dirty page of it leaves
memory. -/
theorem Step.bytes?_cases (step : Step move before after) (owned : before.FramesOwned)
    (inside : move ≠ .outside) (stored : before.store.files.bytes? file = some bytes) :
    (after.store.files.bytes? file = some bytes ∧
        after.store.files.writes file = before.store.files.writes file ∧
        ∀ pid page region frame contents,
          ¬before.WritesBack move file pid page region frame contents) ∨
      ∃ pid page region frame contents,
        before.WritesBack move file pid page region frame contents ∧
        after.store.files.bytes? file =
          some (overlayBytes bytes region.offset (contents.slice 0 region.readBytes)) ∧
        after.store.files.writes file = before.store.files.writes file + 1 := by
  have unchanged (same : after.store.files.content? file = before.store.files.content? file) :
      after.store.files.bytes? file = some bytes ∧
        after.store.files.writes file = before.store.files.writes file :=
    ⟨(FileStore.bytes?_congr same).trans stored, FileStore.writes_congr same⟩
  rcases Classical.em (∃ pid page region frame contents,
      before.Departs move pid page region frame contents) with departing | departing
  · obtain ⟨pid, page, region, frame, contents, departs⟩ := departing
    have changed := step.content?_of_departs owned departs file
    by_cases back : region.mapping.file = file ∧ before.isDirty pid page.address = true
    · obtain ⟨ofFile, dirty⟩ := back
      rw [dirty, FileRegion.departed, if_pos rfl, ofFile] at changed
      obtain ⟨laid, counted⟩ := FileStore.of_laid stored region.offset
        (contents.slice 0 region.readBytes)
      refine .inr ⟨pid, page, region, frame, contents, ⟨departs, ofFile, dirty⟩, ?_, ?_⟩
      · exact (FileStore.bytes?_congr changed).trans laid
      · exact (FileStore.writes_congr changed).trans counted
    · have same : after.store.files.content? file = before.store.files.content? file := by
        rw [changed]
        by_cases ofFile : region.mapping.file = file
        · have clean : before.isDirty pid page.address = false := by
            simpa using fun dirty => back ⟨ofFile, dirty⟩
          rw [clean, FileRegion.departed_of_clean]
        · exact FileRegion.content?_departed_of_ne ofFile
      obtain ⟨sameBytes, sameWrites⟩ := unchanged same
      refine .inl ⟨sameBytes, sameWrites, fun other found part slot held writesBack => back ?_⟩
      obtain ⟨rfl, rfl, rfl⟩ := departs.unique owned writesBack.toDeparts
      exact ⟨writesBack.file, writesBack.dirty⟩
  · rcases step.content?_cases inside with same | ⟨pid, page, region, frame, contents, departs, -⟩
    · obtain ⟨sameBytes, sameWrites⟩ := unchanged (same file)
      refine .inl ⟨sameBytes, sameWrites, fun pid page region frame contents writesBack => ?_⟩
      exact departing ⟨pid, page, region, frame, contents, writesBack.toDeparts⟩
    · exact absurd ⟨pid, page, region, frame, contents, departs⟩ departing

/-- A dirty page of a file stays dirty until it is written back. -/
theorem Step.dirty_or_writesBack (step : Step move before after) (sound : before.Sound)
    (ofFile : before.PageOf file pid address region) (dirty : before.isDirty pid address = true) :
    after.PageOf file pid address region ∧ after.isDirty pid address = true ∨
      ∃ page frame contents, before.WritesBack move file pid page region frame contents := by
  obtain ⟨page, registered, atPage⟩ := ofFile.exists_page?
  obtain ⟨atAddress, aligned⟩ := sound.frames.located registered
  have whole := Address.pageDown_eq_self_iff.2 aligned
  cases dirtyAfter : after.isDirty pid address with
  | true =>
      -- A page that was removed is not in memory, so it is not dirty.
      obtain ⟨frame, held⟩ := (step.framesOwned sound.frames).exists_frame?_of_dirty dirtyAfter
      have stays : move ≠ .remove pid address page.kind := by
        rintro rfl
        obtain ⟨_, -, -, -, pages⟩ := step.page?_of_remove sound.frames
        rw [whole, frame?, pages, if_pos ⟨rfl, rfl⟩] at held
        cases held
      obtain ⟨changed, found, continues⟩ := step.exists_page? sound.frames registered stays
      refine .inl ⟨⟨?_, ofFile.file⟩, rfl⟩
      rw [Machine.region?, found, Option.bind_some, continues.region?, atPage]
  | false =>
      rcases step.isDirty_cases sound.frames pid address with
        same | ⟨_, -, -, marked⟩ | ⟨-, known, frame, registered', held, leaves⟩
      · rw [same, dirty] at dirtyAfter
        cases dirtyAfter
      · rw [marked] at dirtyAfter
        cases dirtyAfter
      · rw [whole, registered, Option.some.injEq] at registered'
        subst registered'
        rw [whole, ← atAddress] at leaves
        rw [← atAddress] at registered dirty
        obtain ⟨contents, holds⟩ := Option.isSome_iff_exists.1
          (sound.frames.resident.contents?_isSome (sound.frames.owner?_of_held registered held))
        have backed := Page.backing_of_held (sound.slots.placed _ _ _ registered) held atPage
        exact .inr ⟨page, frame, contents, ⟨registered, backed, held, holds, leaves⟩, ofFile.file,
          dirty⟩

/-- A page of a file that is brought in has the bytes that the file has for it. -/
theorem Step.matches_of_pageIn {frame : PhysAddr} {kind : PageKind} {first : Bool}
    {contents : PageData} (step : Step (.pageIn pid address frame kind first) before after)
    (ofFile : before.PageOf file pid address region) (nonempty : 0 < region.readBytes)
    (stored : before.store.files.bytes? file = some bytes)
    (agrees : ∀ position, region.Spans position → bytes[position]? = intended[position]?)
    (holds : after.resident.contents? frame = some contents) :
    region.Matches contents intended := by
  cases step with
  | @pageIn _ _ _ page _ _ _ transfer _ _ _ _ found registered _ _ _ _ _ brought written =>
      obtain ⟨-, -, -, frames⟩ := ResidentSet.of_write written
      have placed := (frames frame).trans (if_pos rfl)
      dsimp only at holds
      rw [placed, Option.some.injEq] at holds
      subst holds
      have atPage := ofFile.region?
      rw [Machine.region?, page?_of_space found, registered, Option.bind_some,
        Page.region?] at atPage
      have brings := Backing.bringIn_of_region atPage brought
      exact FileRegion.matches_of_bringIn brings nonempty (by rw [ofFile.file]; exact stored) agrees

theorem Step.frame?_before_pageIn {frame : PhysAddr} {kind : PageKind} {first : Bool}
    (step : Step (.pageIn pid address frame kind first) before after) :
    before.frame? pid address = none := by
  cases step with
  | pageIn found registered absent =>
      rw [frame?, page?_of_space found, registered]
      exact absent

/-- A page that is in memory after a step was registered before it. -/
theorem Step.pageOf_of_held {frame : PhysAddr} (step : Step move before after)
    (sound : before.Sound) (ofFile : after.PageOf file pid address region)
    (held : after.frame? pid address = some frame) : before.PageOf file pid address region := by
  refine ⟨?_, ofFile.file⟩
  rcases step.region?_cases sound.frames ofFile.region? with earlier | ⟨rfl, -⟩
  · exact earlier
  · obtain ⟨unknown, -⟩ := step.page?_of_register
    rcases step.frame?_cases sound held with ⟨earlier, -⟩ | ⟨_, _, other⟩
    · rw [frame?, unknown] at earlier
      cases earlier
    · cases other

/-- What a move may do to the pages of a file: it brings one in only where those that may be written
are apart, it marks only these, and it replaces none of their bytes. -/
structure Move.Respects (move : Move) (machine : Machine) (file : FileId)
    (writer : FileRegion → Prop) : Prop where
  inside : move ≠ .outside
  brings : ∀ pid address frame kind first region, move = .pageIn pid address frame kind first →
    machine.PageOf file pid address region → 0 < region.readBytes ∧ machine.Apart file writer
  marks : ∀ pid place region, move = .access pid place true →
    machine.PageOf file pid place.pageDown region → writer region
  keeps : ∀ pid address kind region, move = .overwrite pid address kind →
    ¬machine.PageOf file pid address region

/-- Pages of a file may come and go, and may be written back, and still the machine represents the
same bytes of the file. -/
theorem Step.represents (step : Step move before after) (sound : before.Sound)
    (represents : before.Represents file writer intended)
    (respects : move.Respects before file writer) : after.Represents file writer intended := by
  obtain ⟨bytes, stored, size, agrees⟩ := represents.stored
  -- What no dirty page spans now was spanned by none before, unless that page was written back.
  have settled {position : Nat}
      (clean : ∀ pid address region, after.PageOf file pid address region →
        region.Spans position → after.isDirty pid address = false)
      (stays : ∀ pid page region frame contents,
        before.WritesBack move file pid page region frame contents → ¬region.Spans position) :
      bytes[position]? = intended[position]? := by
    refine agrees position fun pid address region ofFile spans => ?_
    cases dirty : before.isDirty pid address with
    | false => rfl
    | true =>
        rcases step.dirty_or_writesBack sound ofFile dirty with
          ⟨ofFileAfter, dirtyAfter⟩ | ⟨page, frame, contents, writesBack⟩
        · rw [clean pid address region ofFileAfter spans] at dirtyAfter
          cases dirtyAfter
        · exact absurd spans (stays pid page region frame contents writesBack)
  refine ⟨?_, ?_, ?_⟩
  · rcases step.bytes?_cases sound.frames respects.inside stored with
      ⟨same, -, none⟩ | ⟨pid, page, region, frame, contents, writesBack, laid, -⟩
    · refine ⟨bytes, same, size, fun position clean => settled clean ?_⟩
      intro pid page region frame contents writesBack
      exact absurd writesBack (none pid page region frame contents)
    · have ofFile : before.PageOf file pid page.address region :=
        ⟨writesBack.pageOf.region?, writesBack.file⟩
      have held : before.frame? pid page.address = some frame := by
        rw [frame?, writesBack.registered]
        exact writesBack.held
      have shows := represents.held pid page.address region frame contents ofFile
        (represents.written pid page.address region ofFile writesBack.dirty) held
        writesBack.contents
      obtain ⟨sameSize, inside, outside⟩ := shows.writtenBack size
      refine ⟨_, laid, sameSize, fun position clean => ?_⟩
      by_cases spans : region.Spans position
      · exact inside position spans
      · refine (outside position spans).trans (settled clean ?_)
        intro other found part slot held also
        obtain ⟨-, -, rfl⟩ := writesBack.toDeparts.unique sound.frames also.toDeparts
        exact spans
  · intro pid address region frame contents ofFile writes held holds
    have ofFileBefore := step.pageOf_of_held sound ofFile held
    rcases step.frame?_cases sound held with ⟨earlier, same | ⟨kind, rfl⟩⟩ | ⟨kind, first, rfl⟩
    · exact represents.held pid address region frame contents ofFileBefore writes earlier
        (same ▸ holds)
    · exact absurd ofFileBefore (respects.keeps pid address kind region rfl)
    · obtain ⟨nonempty, apart⟩ := respects.brings pid address frame kind first region rfl
        ofFileBefore
      refine step.matches_of_pageIn ofFileBefore nonempty stored (fun position spans => ?_) holds
      -- A dirty page here would be the one that is brought in, which was not in memory.
      refine agrees position fun other place found ofFileOther spansOther => ?_
      cases dirty : before.isDirty other place with
      | false => rfl
      | true =>
          obtain ⟨rfl, rfl⟩ := apart _ _ _ _ _ _ position ofFileBefore ofFileOther writes
            (represents.written other place found ofFileOther dirty) spans spansOther
          obtain ⟨slot, held⟩ := sound.frames.exists_frame?_of_dirty dirty
          obtain ⟨page, registered, -⟩ := ofFileBefore.exists_page?
          rw [Address.pageDown_eq_self_iff.2 (sound.frames.located registered).2,
            step.frame?_before_pageIn] at held
          cases held
  · intro pid address region ofFile dirty
    obtain ⟨page, registered, -⟩ := ofFile.exists_page?
    have soundAfter := step.framesOwned sound.frames
    have whole := Address.pageDown_eq_self_iff.2 (soundAfter.located registered).2
    obtain ⟨frame, held⟩ := soundAfter.exists_frame?_of_dirty dirty
    rw [whole] at held
    have ofFileBefore := step.pageOf_of_held sound ofFile held
    rcases step.isDirty_cases sound.frames pid address with
      same | ⟨place, rfl, samePage, -⟩ | ⟨cleared, -⟩
    · exact represents.written pid address region ofFileBefore (same ▸ dirty)
    · refine respects.marks pid place region rfl ?_
      rw [samePage, whole]
      exact ofFileBefore
    · rw [cleared] at dirty
      cases dirty

/-- A page of a file is of that kind. -/
theorem Machine.PageOf.kind {page : Page} (ofFile : before.PageOf file pid address region)
    (registered : before.page? pid address = some page) : page.kind = .file := by
  obtain ⟨found, registered', atPage⟩ := ofFile.exists_page?
  rw [registered, Option.some.injEq] at registered'
  subst registered'
  cases kind : page.kind with
  | file => rfl
  | anonymous =>
      rw [Page.region?_eq_none_iff.2 kind] at atPage
      cases atPage

/-- The bytes of a dirty page of a file are replaced, and with them what is represented. -/
theorem Machine.Represents.overwritten {frame : PhysAddr} {contents : PageData}
    {resident : ResidentSet} {changed : Array UInt8}
    (represents : before.Represents file writer intended) (sound : before.Sound)
    (apart : before.Apart file writer) (ofFile : before.PageOf file pid address region)
    (dirty : before.isDirty pid address = true) (held : before.frame? pid address = some frame)
    (written : before.resident.write frame contents = .ok resident)
    (size : changed.size = intended.size) (inside : region.Matches contents changed)
    (outside : ∀ position, ¬region.Spans position → changed[position]? = intended[position]?) :
    ({ before with resident } : Machine).Represents file writer changed := by
  obtain ⟨bytes, stored, sameSize, agrees⟩ := represents.stored
  have writes := represents.written pid address region ofFile dirty
  obtain ⟨-, -, -, frames⟩ := ResidentSet.of_write written
  have here {other : Pid} {place : VirtAddr} {found : FileRegion}
      (ofFile : ({ before with resident } : Machine).PageOf file other place found) :
      before.PageOf file other place found := ofFile.of_region?_eq rfl
  refine ⟨⟨bytes, stored, sameSize.trans size.symm, fun position settled => ?_⟩, ?_,
    fun other place found ofFile => represents.written other place found (here ofFile)⟩
  · have settled : ∀ other place found, before.PageOf file other place found →
        found.Spans position → before.isDirty other place = false :=
      fun other place found ofFile => settled other place found (ofFile.of_region?_eq rfl)
    have elsewhere : ¬region.Spans position := by
      intro spans
      have clean := settled pid address region ofFile spans
      rw [dirty] at clean
      cases clean
    exact (agrees position settled).trans (outside position elsewhere).symm
  · intro other place found slot bytesThere ofFileOther writesOther heldOther holds
    have ofFileOther := here ofFileOther
    have heldOther : before.frame? other place = some slot := heldOther
    dsimp only at holds
    rw [frames] at holds
    split at holds
    case isTrue sameFrame =>
      subst sameFrame
      cases holds
      have owner := (sound.frames.owner_iff frame pid address).2 held
      rw [(sound.frames.owner_iff frame other place).2 heldOther, Option.some.injEq,
        FrameOwner.mk.injEq] at owner
      obtain ⟨rfl, rfl⟩ := owner
      have sameRegion := ofFileOther.region?
      rw [ofFile.region?, Option.some.injEq] at sameRegion
      exact sameRegion ▸ inside
    case isFalse otherFrame =>
      have shows := represents.held other place found slot bytesThere ofFileOther writesOther
        heldOther holds
      refine ⟨shows.nonempty, fun index within => ?_⟩
      rw [outside, shows.bytes index within]
      intro spans
      obtain ⟨rfl, rfl⟩ := apart _ _ _ _ _ _ _ ofFile ofFileOther writes writesOther spans
        ⟨index, within, rfl⟩
      rw [held, Option.some.injEq] at heldOther
      exact otherFrame heldOther

/-- Nothing changes from outside, no page is marked as written, and no page of a file is
overwritten. -/
def Move.IsQuiet : Move → Prop
  | outside => False
  | access _ _ write => write = false
  | overwrite _ _ kind => kind = .anonymous
  | upkeep | refer | setStackPointer _ | pageOut _ | pageIn _ _ _ _ _ | register _ _ _
  | remove _ _ _ | arrive _ | leave _ => True

theorem Step.respects_of_quiet (step : Step move before after) (quiet : move.IsQuiet)
    (brings : ∀ pid address frame kind first region, move = .pageIn pid address frame kind first →
      before.PageOf file pid address region →
      0 < region.readBytes ∧ before.Apart file writer) :
    move.Respects before file writer := by
  refine ⟨?_, brings, ?_, ?_⟩
  · rintro rfl
    exact quiet
  · rintro pid place region rfl
    cases quiet
  · rintro pid address kind region rfl ofFile
    cases quiet
    generalize same : PageKind.anonymous = kind at step
    cases step with
    | overwrite _ registered =>
        rw [ofFile.kind registered] at same
        cases same

end Steps

/-! ## Paths -/

section Paths

variable {allowed : Move → Prop} {before after : Machine} {file : FileId} {pid : Pid}
  {writer : FileRegion → Prop} {intended : Array UInt8}

/-- Every page of a mapping has some bytes of the file. -/
theorem Machine.MappingsWhole.nonempty {address : VirtAddr} {region : FileRegion}
    (whole : before.MappingsWhole pid) (atAddress : before.region? pid address = some region) :
    0 < region.readBytes := by
  obtain ⟨-, ⟨index, hasPage⟩, offset, length, least, pages⟩ := whole address region atAddress
  have member := pages index address hasPage
  rw [atAddress, Option.some.injEq] at member
  rw [member]
  have inside := hasPage.1
  simp only [Mapping.regionAt, pageSize] at *
  omega

theorem Machine.MappingsWhole.readBytes_le {address : VirtAddr} {region : FileRegion}
    (whole : before.MappingsWhole pid) (atAddress : before.region? pid address = some region) :
    region.readBytes ≤ pageSize := by
  obtain ⟨-, ⟨index, hasPage⟩, offset, length, -, pages⟩ := whole address region atAddress
  have member := pages index address hasPage
  rw [atAddress, Option.some.injEq] at member
  rw [member]
  exact Nat.min_le_right ..

/-- Pages leave memory, come and go, and none of a file is brought in. -/
theorem Path.represents_of_absent (path : Path allowed before after) (sound : before.Sound)
    (represents : before.Represents file writer intended)
    (quiet : ∀ move, allowed move → move.IsQuiet)
    (absent : ∀ pid address frame first, ¬allowed (.pageIn pid address frame .file first)) :
    after.Represents file writer intended := by
  refine path.keeps_of_sound (fun state => state.Represents file writer intended) sound
    represents ?_
  intro move middle next allow step soundMiddle kept
  refine step.represents soundMiddle kept (step.respects_of_quiet (quiet move allow) ?_)
  rintro pid address frame kind first region rfl ofFile
  obtain ⟨page, registered, rfl, -⟩ := step.page_of_pageIn
  rw [ofFile.kind registered] at allow
  exact absurd allow (absent pid address frame first)

/-- Pages move in and out of memory, and none of a file comes or goes. -/
theorem Path.represents (path : Path allowed before after) (sound : before.Sound)
    (whole : ∀ pid, before.MappingsWhole pid) (apart : before.Apart file writer)
    (represents : before.Represents file writer intended)
    (quiet : ∀ move, allowed move → move.IsQuiet)
    (keeps : ∀ move, allowed move → ∀ pid, move.KeepsMappings pid) :
    after.Represents file writer intended := by
  have kept : after.Represents file writer intended ∧
      ∀ pid address, after.region? pid address = before.region? pid address := by
    refine path.keeps_of_sound (fun state => state.Represents file writer intended ∧
      ∀ pid address, state.region? pid address = before.region? pid address) sound
      ⟨represents, fun _ _ => rfl⟩ ?_
    intro move middle next allow step soundMiddle kept
    obtain ⟨representsMiddle, same⟩ := kept
    constructor
    · refine step.represents soundMiddle representsMiddle
        (step.respects_of_quiet (quiet move allow) ?_)
      intro pid address frame kind first region _ ofFile
      have earlier := ofFile.of_region?_eq (same pid address).symm
      exact ⟨(whole pid).nonempty earlier.region?, apart.of_region?_eq same⟩
    · intro pid address
      exact (region?_of_step step soundMiddle.frames (keeps move allow pid) address).trans
        (same pid address)
  exact kept.1

end Paths

end DemandPaging
