import DemandPaging.Proofs.MappingGroups
import DemandPaging.Proofs.WriteBack

/-!
Which pages may be written.

Owns:
- `Machine.DirtyWritable`, only a page that user code may write is dirty, and that every step keeps
  it so;
- `Machine.ReadOnly`, no page of a file may be written, and that it stays so unless the file is
  mapped to be written;
- `Event.MakesMappings`, the events that register pages of files.

Does not own: when a page is dirty (`Step.isDirty_cases`).

Main statements: `Reachable.dirtyWritable` and `Event.readOnly`.
-/

namespace DemandPaging

open Machine

/-- Only pages that user code may write were written. -/
def Machine.DirtyWritable (machine : Machine) : Prop :=
  ∀ pid address page, machine.page? pid address = some page →
    machine.isDirty pid address = true → page.writable = true

section Steps

variable {before after : Machine} {move : Move} {pid : Pid} {address : VirtAddr}

/-- What is written through a page table may be written. -/
theorem Step.writable_of_access (step : Step (.access pid address true) before after)
    (owned : before.FramesOwned) :
    ∃ page, before.page? pid address.pageDown = some page ∧ page.writable = true := by
  cases step with
  | @access _ _ space _ _ location table found reached =>
      cases viewed : space.table.view? address.pageDown with
      | none =>
          rw [PageTable.access_of_unmapped true viewed] at reached
          cases reached
      | some view =>
          obtain ⟨page, _, registered, -, -, permits⟩ :=
            (owned.spaces pid space found).1.exists_page_of_view? viewed
          refine ⟨page, (page?_of_space found _).trans registered, ?_⟩
          cases writable : view.writable with
          | true => rw [← permits, writable]
          | false =>
              rw [PageTable.access_of_protected viewed writable] at reached
              cases reached

theorem Step.dirtyWritable (step : Step move before after) (owned : before.FramesOwned)
    (writable : before.DirtyWritable) : after.DirtyWritable := by
  intro pid address page found dirty
  have whole := Address.pageDown_eq_self_iff.2 ((step.framesOwned owned).located found).2
  -- The page was there before, and what it allows is settled when it is registered.
  have stays {former : Page} (registered : before.page? pid address = some former)
      (allowed : former.writable = true) : page.writable = true := by
    obtain ⟨changed, alsoFound, continues⟩ := step.exists_page? owned registered
      (step.ne_remove owned found former.kind)
    rw [found, Option.some.injEq] at alsoFound
    rw [alsoFound, continues.writable, allowed]
  rcases step.isDirty_cases owned pid address with same | ⟨place, rfl, samePage, -⟩ | ⟨clean, -⟩
  · rw [same] at dirty
    obtain ⟨frame, held⟩ := owned.exists_frame?_of_dirty dirty
    rw [whole] at held
    obtain ⟨former, registered, -⟩ := Option.bind_eq_some_iff.1 held
    exact stays registered (writable pid address former registered dirty)
  · obtain ⟨former, registered, allowed⟩ := step.writable_of_access owned
    rw [samePage, whole] at registered
    exact stays registered allowed
  · rw [clean] at dirty
    cases dirty

theorem Path.dirtyWritable {allowed : Move → Prop} (path : Path allowed before after)
    (sound : before.Sound) (writable : before.DirtyWritable) : after.DirtyWritable :=
  path.keeps_of_sound DirtyWritable sound writable
    fun _ _ _ _ step soundMiddle => step.dirtyWritable soundMiddle.frames

end Steps

theorem Machine.Reachable.dirtyWritable {machine : Machine} (reachable : machine.Reachable) :
    machine.DirtyWritable := by
  induction reachable with
  | start settings frames disk files =>
      intro pid address page registered
      simp [create, page?] at registered
  | next reached event leaves inductionHypothesis =>
      exact (Event.leads_of_perform reached.sound reached.mappingsWhole leaves).path.dirtyWritable
        reached.sound inductionHypothesis

/-! ## Files that are only read -/

/-- No page of a file may be written by user code. -/
def Machine.ReadOnly (machine : Machine) (file : FileId) : Prop :=
  ∀ pid address page region, machine.page? pid address = some page →
    page.region? = some region → region.mapping.file = file → page.writable = false

/-- If an event maps a file, user code may not write the mapping. -/
def Event.MapsReadOnly (event : Event) (file : FileId) : Prop :=
  match event with
  | mapFile _ _ _ writable mapped _ => mapped = file → writable = false
  | mmapCall _ _ _ writable mapped? _ => mapped? = some file → writable = false
  | _ => True

namespace Machine

variable {before after : Machine} {pid : Pid} {file mapped : FileId} {writable : Bool}
  {allowed : Move → Prop}

/-- No page is dirty of a file of which no page may be written. -/
theorem ReadOnly.clean (readOnly : before.ReadOnly file) (writable : before.DirtyWritable) :
    before.Clean file := by
  intro pid address region atAddress ofFile
  obtain ⟨page, registered, atPage⟩ := Option.bind_eq_some_iff.1 atAddress
  have protects := readOnly pid address page region registered atPage ofFile
  cases dirty : before.isDirty pid address with
  | false => rfl
  | true =>
      rw [writable pid address page registered dirty] at protects
      cases protects

/-- A page that was there before may not be written if it is one of the file. -/
theorem ReadOnly.writable_of_path {address : VirtAddr} {page : Page} {region : FileRegion}
    (readOnly : before.ReadOnly file) (path : Path allowed before after) (sound : before.Sound)
    (registered : after.page? pid address = some page) (atPage : page.region? = some region)
    (ofFile : region.mapping.file = file) (known : ¬allowed (.register pid address page.kind)) :
    page.writable = false := by
  obtain ⟨former, earlier, continues⟩ := path.exists_page?_of_after sound registered known
  rw [continues.writable]
  exact readOnly pid address former region earlier (continues.region?.symm.trans atPage) ofFile

/-- Where no page of a file is registered, none comes that may be written. -/
theorem ReadOnly.of_path (readOnly : before.ReadOnly file) (path : Path allowed before after)
    (sound : before.Sound) (noRegister : ∀ pid address, ¬allowed (.register pid address .file)) :
    after.ReadOnly file := by
  intro pid address page region registered atPage ofFile
  have belongs : page.mapping? = some region.mapping := by
    rw [Page.mapping?, atPage]
    rfl
  exact readOnly.writable_of_path path sound registered atPage ofFile
    (Page.kind_of_mapping? belongs ▸ noRegister pid address)

/-- The copy of a process may write what the process may write. -/
theorem Copying.readOnly {parent child : Pid} {copies : MappingCopies}
    (copying : before.Copying child parent [] copies after) (sound : before.Sound)
    (whole : before.MappingsWhole parent) (readOnly : before.ReadOnly file) :
    after.ReadOnly file := by
  intro pid address page region registered atPage ofFile
  by_cases same : pid = child
  · subst same
    cases known : before.page? parent address with
    | none =>
        rw [copying.vacant address (.inr known)] at registered
        cases registered
    | some source =>
        obtain ⟨copy, alsoRegistered, copied⟩ :=
          copying.copied address source List.not_mem_nil known
        rw [registered, Option.some.injEq] at alsoRegistered
        subst alsoRegistered
        rw [copied.writable]
        cases atSource : source.region? with
        | none =>
            have noFile := copied.kind.trans (Page.region?_eq_none_iff.1 atSource)
            rw [Page.region?_eq_none_iff.2 noFile] at atPage
            cases atPage
        | some part =>
            obtain ⟨mapping, copyOf, backed⟩ := copied.file part atSource
            have atParent : before.region? parent address = some part := by
              rw [region?, known, Option.bind_some, atSource]
            obtain ⟨found, alsoCopyOf, isCopy⟩ :=
              copying.exists_copy whole (mapping?_of_region? atParent)
            rw [copyOf, Option.some.injEq] at alsoCopyOf
            subst alsoCopyOf
            rw [Page.region?, backed] at atPage
            cases atPage
            exact readOnly parent address source part known atSource (isCopy.file.symm.trans ofFile)
  · exact readOnly.writable_of_path copying.path sound registered atPage ofFile same

theorem ReadOnly.ends_fork (readOnly : before.ReadOnly file) (sound : before.Sound)
    (whole : ∀ pid, before.MappingsWhole pid) (parent : Pid) :
    (fork parent before).Ends (fun _ after => after.ReadOnly file)
      (fun _ after => after.ReadOnly file) (fun _ => True) := by
  refine (Machine.ends_fork sound whole parent).imp ?_ ?_ (fun _ _ => trivial)
  · rintro _ after ⟨-, ⟨copies, copying⟩, -⟩
    exact copying.readOnly sound (whole parent) readOnly
  · rintro _ after ⟨path, gone, -⟩ pid address page region registered atPage ofFile
    refine readOnly.writable_of_path path sound registered atPage ofFile ?_
    rintro (rfl : pid = ⟨before.nextPid⟩)
    rw [page?, gone] at registered
    cases registered

/-- The pages of a new mapping may be written if that was asked for. -/
theorem ReadOnly.ends_mapFile (readOnly : before.ReadOnly file)
    (protects : mapped = file → writable = false) (address : VirtAddr) (length offset : Nat) :
    (mapFile pid address length writable mapped offset before).Ends
      (fun _ after => after.ReadOnly file) (fun _ after => after.ReadOnly file)
      (fun _ => True) := by
  simp only [mapFile, Action.ends_bind, Action.ends_get]
  split
  · exact readOnly
  · simp only [Action.ends_bind, Action.ends_checked, Action.ends_require]
    refine ⟨fun byteCount _ => ⟨fun last _ => ?_, fun _ => readOnly⟩, fun _ _ => trivial⟩
    split
    · exact readOnly
    · simp only [Action.ends_bind, space, Action.ends_require]
      refine ⟨fun target found => ?_, fun _ => readOnly⟩
      simp only [Action.ends_checked]
      refine ⟨fun range _ => ?_, fun _ _ => trivial⟩
      split
      · exact readOnly
      case isFalse free =>
        simp only [Action.ends_bind, Action.ends_checked]
        refine ⟨fun _ _ => ?_, fun _ _ => trivial⟩
        simp only [onStore, Action.ends_onPart,
          registerMapping_of_vacant (find?_eq_none_of_not_any free), setSpace,
          Action.ends_modify, Action.ends_pure]
        refine BackingStore.ends_createMapping.imp ?_ (fun _ _ same => same ▸ readOnly)
          (fun _ no => no.elim)
        rintro mapping store ⟨made, -⟩ other place page region registered atPage ofFile
        rw [page?, spaces_insert rfl] at registered
        split at registered
        case isTrue here =>
          rw [Option.bind_some] at registered
          rcases mem_or_at?_of_foldl_put registered with new | old
          · obtain ⟨index, -, rfl⟩ := List.mem_map.1 new
            cases atPage
            rw [made] at ofFile
            exact protects ofFile
          · refine readOnly pid place page region ?_ atPage ofFile
            rw [page?_of_space found]
            exact old
        case isFalse => exact readOnly other place page region registered atPage ofFile

theorem ReadOnly.ends_mmapCall {mapped? : Option FileId} (readOnly : before.ReadOnly file)
    (protects : mapped? = some file → writable = false) (word length offset : Nat) :
    (mmapCall pid word length writable mapped? offset before).Ends
      (fun _ after => after.ReadOnly file) (fun _ _ => False) (fun _ => True) := by
  have ends : (mapForUser pid word length writable mapped? offset before).Ends
      (fun _ after => after.ReadOnly file) (fun _ after => after.ReadOnly file)
      (fun _ => True) := by
    simp only [mapForUser, Action.ends_bind, Action.ends_require, Action.ends_get,
      Action.ends_checked]
    refine ⟨fun mapped found => ⟨fun address _ => ⟨fun valid _ => ?_, fun _ _ => trivial⟩,
      fun _ => readOnly⟩, fun _ => readOnly⟩
    split
    · exact readOnly
    · exact readOnly.ends_mapFile (fun same => protects (same ▸ found)) ..
  simp only [mmapCall, Action.ends_bind, Action.ends_attempt]
  exact ends.imp (fun _ _ stays => stays) (fun _ _ stays => stays) (fun _ _ => trivial)

end Machine

namespace Event

variable {event : Event} {before after : Machine} {file : FileId} {next : Nat} {pid : Pid}
  {address : VirtAddr}

/-- Pages of files are registered: files are mapped, or the mappings of a process are copied. -/
def MakesMappings : Event → Prop
  | fork _ | mapFile _ _ _ _ _ _ | mmapCall _ _ _ _ _ _ => True
  | _ => False

theorem not_allows_register (makes : ¬event.MakesMappings) :
    ¬event.Allows next (.register pid address .file) := by
  cases event with
  | fork _ | mapFile _ _ _ _ _ _ | mmapCall _ _ _ _ _ _ => exact absurd trivial makes
  | createProcess | setStackPointer _ _ | access _ _ _
  | changeDisk _ _ | changeFiles _ | changeWorld _ =>
      intro same
      cases same
  | exit _ | makeResident _ _ => exact id
  | unmapFile _ _ | munmapCall _ _ =>
      rintro ⟨_, same⟩
      cases same
  | registerPage _ _ _ _ _ | handleFault _ _ | loadSegment _ _ _ =>
      exact fun registers => (registers.keepsMappings pid address).1 rfl
  | setUpStack _ =>
      rintro (registers | same)
      · exact (registers.keepsMappings pid address).1 rfl
      · cases same
  | readUser _ _ _ => exact fun accesses => (accesses.keepsMappings pid address).1 rfl
  | writeUser _ _ _ => exact fun writes => (writes.keepsMappings pid address).1 rfl

/-- What makes mappings writes nothing through a page table. -/
theorem MakesMappings.not_allows_access {write : Bool} (makes : event.MakesMappings) :
    ¬event.Allows next (.access pid address write) := by
  cases event with
  | fork _ => exact id
  | mapFile _ _ _ _ _ _ | mmapCall _ _ _ _ _ _ =>
      rintro (same | ⟨_, same⟩)
      · cases same
      · cases same
  | _ => exact makes.elim

/-- A file whose pages may not be written stays so, unless it is mapped to be written. -/
theorem readOnly (sound : before.Sound) (whole : ∀ pid, before.MappingsWhole pid)
    (mapsReadOnly : event.MapsReadOnly file) (readOnly : before.ReadOnly file)
    (leaves : (event.perform before).state? = some after) : after.ReadOnly file := by
  by_cases makes : event.MakesMappings
  · cases event with
    | mapFile pid address length writable mapped offset =>
        have ends : ((Machine.mapFile pid address length writable mapped offset >>= fun _ =>
            pure ()) before).Ends (fun _ after => after.ReadOnly file)
              (fun _ after => after.ReadOnly file) (fun _ => True) :=
          Action.ends_bind.2 (readOnly.ends_mapFile mapsReadOnly ..)
        exact ends.leaves (fun _ _ stays => stays) (fun _ _ stays => stays) _ leaves
    | mmapCall pid word length writable mapped? offset =>
        have ends : ((Machine.mmapCall pid word length writable mapped? offset >>= fun _ =>
            pure ()) before).Ends (fun _ after => after.ReadOnly file) (fun _ _ => False)
              (fun _ => True) :=
          Action.ends_bind.2 (readOnly.ends_mmapCall mapsReadOnly ..)
        exact ends.leaves (fun _ _ stays => stays) (fun _ _ no => no.elim) _ leaves
    | fork parent =>
        have ends : ((Machine.fork parent >>= fun _ => pure ()) before).Ends
            (fun _ after => after.ReadOnly file) (fun _ after => after.ReadOnly file)
              (fun _ => True) := Action.ends_bind.2 (readOnly.ends_fork sound whole parent)
        exact ends.leaves (fun _ _ stays => stays) (fun _ _ stays => stays) _ leaves
    | _ => exact makes.elim
  · exact readOnly.of_path (leads_of_perform sound whole leaves).path sound fun _ _ =>
      not_allows_register makes

end Event

end DemandPaging
