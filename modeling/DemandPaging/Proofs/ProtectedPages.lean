import DemandPaging.Proofs.GrownPages
import DemandPaging.Proofs.PageBytes
import DemandPaging.Proofs.PrivateMemory
import DemandPaging.Proofs.SharedFiles
import DemandPaging.Proofs.StackHoles

/-!
Pages that may not be written.

Owns:
- `Move.PassesBy`, a move that spares a page and does not bring it in;
- that an access that writes passes by every page that may not be written, and that whole runs spare
  it.

Does not own: how a fault is decided (`Machine.handleFault_eq`), which pages are dirty
(`Reachable.dirtyWritable`), and what becomes of the bytes of a page that is spared
(`Path.followsFile`).

Main statement: `Reachable.illegal_accesses_change_nothing`.
-/

namespace DemandPaging

open Machine

/-- A move spares a page, and does not bring it in. -/
def Move.PassesBy (pid : Pid) (place : VirtAddr) : Move → Prop
  | outside => False
  | pageIn other address _ _ _ | overwrite other address _ | remove other address _ =>
    ¬(other = pid ∧ address = place)
  | upkeep | refer | setStackPointer _ | access _ _ _ | pageOut _ | register _ _ _ | arrive _
  | leave _ => True

theorem Move.PassesBy.spares {move : Move} {pid : Pid} {place : VirtAddr}
    (passes : move.PassesBy pid place) : move.Spares pid place := by
  cases move with
  | outside | overwrite _ _ _ | remove _ _ _ => exact passes
  | _ => trivial

namespace Machine

open DemandPaging.Action (Follows)

variable {before after : Machine} {writer pid : Pid} {address place : VirtAddr} {page : Page}

/-! ## Writing around a page -/

/-- There is a page that may not be written. -/
def Protects (machine : Machine) (pid : Pid) (place : VirtAddr) : Prop :=
  ∃ page, machine.page? pid place = some page ∧ page.writable = false

/-- A process writes, and it passes by a page. -/
def WritesAround (writer pid : Pid) (place : VirtAddr) (move : Move) : Prop :=
  move.Writes writer ∧ move.PassesBy pid place

/-- A page that may be written is not the one that may not. -/
theorem Protects.apart (protects : before.Protects pid place)
    (registered : before.page? writer address = some page) (writable : page.writable = true) :
    ¬(writer = pid ∧ address = place) := by
  rintro ⟨rfl, rfl⟩
  obtain ⟨other, found, readOnly⟩ := protects
  rw [registered, Option.some.injEq] at found
  rw [← found, writable] at readOnly
  cases readOnly

theorem Protects.of_path (protects : before.Protects pid place)
    (path : Path (WritesAround writer pid place) before after) (sound : before.Sound) :
    after.Protects pid place := by
  obtain ⟨page, registered, readOnly⟩ := protects
  obtain ⟨kept, found, continues⟩ := path.exists_page? sound registered fun kind allow =>
    Move.not_writes_remove place kind allow.1
  exact ⟨kept, found, continues.writable.trans readOnly⟩

theorem writesAround_of_makesRoom {move : Move} (room : move.MakesRoom) :
    WritesAround writer pid place move := by
  refine ⟨.inl (.inl (.inl room.unseen)), ?_⟩
  cases move with
  | upkeep | pageOut _ => trivial
  | _ => exact room.elim

/-- Another page is brought into memory. -/
theorem follows_makeResident (apart : ¬(writer = pid ∧ address.pageDown = place)) :
    (makeResident writer address).Follows (fun machine => machine.Protects pid place)
      (WritesAround writer pid place) := by
  constructor
  intro before sound protects
  have room {after : Machine} (path : Path Move.MakesRoom before after) :
      Path (WritesAround writer pid place) before after :=
    path.mono fun _ => writesAround_of_makesRoom
  have reached {after : Machine} (path : Path (WritesAround writer pid place) before after) :
      Path (WritesAround writer pid place) before after ∧ after.Protects pid place :=
    ⟨path, protects.of_path path sound⟩
  apply (ends_makeResident sound writer address).imp
  · intro _ after result
    cases result with
    | inl resident =>
        rw [resident.1]
        exact reached (.refl before)
    | inr comes =>
        obtain ⟨-, frame, kind, first, settled, held, holding, step, -⟩ := comes
        exact reached ((room holding.path).snoc step ⟨.inl (.inl (.inl trivial)), apart⟩)
  · intro _ after path
    exact reached (room path)
  · intro _ _
    trivial

/-- The pages by which a stack grows are new, so none of them is the one that may not be written. -/
theorem follows_growFrom (pagesToTop : Nat) :
    (growFrom writer pagesToTop).Follows (fun machine => machine.Protects pid place)
      (WritesAround writer pid place) := by
  induction pagesToTop with
  | zero => exact .of_still (.pure ())
  | succ pagesAbove inductionHypothesis =>
      constructor
      intro before sound protects
      cases found : before.spaces[writer]? with
      | none =>
          simp only [growFrom, Action.bind_apply, space, found]
          exact ⟨.refl before, protects⟩
      | some target =>
          rw [growFrom_succ found]
          split
          case isTrue => exact ⟨.refl before, protects⟩
          case isFalse missing =>
            have vacant : before.page? writer (VirtAddr.stackPage (pagesAbove + 1)) = none := by
              simpa [hasStackPage] using missing
            have down := Address.pageDown_eq_self_iff.2 (offset_stackPage (pagesAbove + 1))
            have apart : ¬(writer = pid ∧
                (VirtAddr.stackPage (pagesAbove + 1)).pageDown = place) := by
              rw [down]
              rintro ⟨rfl, rfl⟩
              obtain ⟨page, registered, -⟩ := protects
              rw [vacant] at registered
              cases registered
            have rest : (do
                makeResident writer (VirtAddr.stackPage (pagesAbove + 1))
                growFrom writer pagesAbove : Action Machine Unit).Follows
                  (fun machine => machine.Protects pid place) (WritesAround writer pid place) :=
              (follows_makeResident apart).bind fun _ => inductionHypothesis
            rw [Action.ends_bind]
            apply (ends_registerStackPage before writer (pagesAbove + 1)).imp
            · intro _ middle registered
              have path : Path (WritesAround writer pid place) before middle :=
                .single registered.1 ⟨.inl (.inl (.inr ⟨_, rfl⟩)), trivial⟩
              exact (rest.ends middle (path.sound sound) (protects.of_path path sound)).imp
                (fun _ _ further => ⟨path.trans further.1, further.2⟩)
                (fun _ _ further => ⟨path.trans further.1, further.2⟩) (fun _ _ => trivial)
            · intro _ after refused
              rw [refused.1]
              exact ⟨.refl before, protects⟩
            · intro _ _
              trivial

/-- A fault by which a process writes is handled around the page. A fault at the page itself is
refused. -/
theorem follows_handleFault_of_write {reason : FaultReason} (writes : reason.code.write = true) :
    (handleFault writer reason).Follows (fun machine => machine.Protects pid place)
      (WritesAround writer pid place) := by
  apply follows_handleFault_of_parts
  · intro before page protects registered mayWrite
    exact follows_makeResident (protects.apart registered (mayWrite writes))
  · intro _ _ _
    exact follows_growFrom _

theorem writer_around (writer pid : Pid) (place : VirtAddr) :
    Writer (fun machine => machine.Protects pid place) (WritesAround writer pid place) writer where
  handles _ writes := follows_handleFault_of_write writes
  accesses before after address step protects := by
    refine ⟨⟨.inl (.inr ⟨address, rfl⟩), trivial⟩, ?_⟩
    obtain ⟨page, registered, readOnly⟩ := protects
    cases step with
    | access found reached =>
        exact ⟨page, (page?_keep found rfl (by rfl) pid place).trans registered, readOnly⟩
  overwrites before after address kind location reaches step protects := by
    obtain ⟨page, registered, -, permits⟩ := reaches.accessible
    refine ⟨⟨.inr ⟨_, _, rfl⟩, protects.apart registered (permits rfl)⟩, ?_⟩
    cases step with
    | overwrite => exact protects

/-- Whatever a process writes, it passes by a page that may not be written. -/
theorem path_of_writeUser (sound : before.Sound) (data : Array UInt8)
    (leaves : ((Event.writeUser writer address data).perform before).state? = some after)
    (registered : before.page? pid place = some page) (readOnly : page.writable = false) :
    Path (WritesAround writer pid place) before after := by
  have ends := ((writer_around writer pid place).follows_writeUser address data).ends before sound
    ⟨page, registered, readOnly⟩
  exact ends.leaves (fun _ _ reached => reached.1) (fun _ _ reached => reached.1) after leaves

/-- Whatever a process writes, the bytes of a page that may not be written stay the same, but where
the page is not in memory and follows a file. -/
theorem Reachable.bytesOf?_of_writeUser (reachable : before.Reachable) (data : Array UInt8)
    (leaves : ((Event.writeUser writer address data).perform before).state? = some after)
    (registered : before.page? pid place = some page) (readOnly : page.writable = false) :
    ∃ kept old now, after.page? pid place = some kept ∧ page.Continues kept ∧
      before.bytesOf? page = some old ∧ after.bytesOf? kept = some now ∧
      ∀ index : Fin pageSize, now.get index = old.get index ∨ kept.frame = none ∧
        before.FollowsFile (WritesAround writer pid place) page after index (old.get index)
          (now.get index) := by
  have path := path_of_writeUser reachable.sound data leaves registered readOnly
  have spares : ∀ move, WritesAround writer pid place move → move.Spares pid place :=
    fun _ around => around.2.spares
  obtain ⟨kept, old, now, found, continues, stands, standsNow, bytes⟩ :=
    path.followsFile reachable.sound reachable.dirtyWritable spares registered
  refine ⟨kept, old, now, found, continues, stands, standsNow, fun index => ?_⟩
  by_cases absent : kept.frame = none
  · exact (bytes index).imp_right fun follows => ⟨absent, follows⟩
  · have same := path.bytesOf?_of_resident reachable.sound spares
      (fun _ _ _ around => around.2 ⟨rfl, rfl⟩) registered found absent
    rw [stands, standsNow, Option.some.injEq] at same
    exact .inl (by rw [same])

/-! ## Runs that spare a page -/

/-- What some events may do while they spare a page. -/
def SparesDuring (events : List Event) (pid : Pid) (place : VirtAddr) (move : Move) : Prop :=
  move.Spares pid place ∧ ∃ event ∈ events, ∃ next, event.Allows next move

/-- As long as nothing is changed from outside, an event spares a page that may not be written, and
that is there afterwards. -/
theorem Reachable.path_sparing {event : Event} (reachable : before.Reachable)
    (inside : ¬event.IsOutside) (leaves : (event.perform before).state? = some after)
    (registered : before.page? pid place = some page) (readOnly : page.writable = false)
    (stays : (after.page? pid place).isSome = true) :
    Path (SparesDuring [event] pid place) before after := by
  have during {move : Move} (spares : move.Spares pid place)
      (allow : event.Allows before.nextPid move) : SparesDuring [event] pid place move :=
    ⟨spares, event, List.mem_singleton_self event, before.nextPid, allow⟩
  by_cases writes : ∃ writer address data, event = .writeUser writer address data
  · obtain ⟨writer, address, data, rfl⟩ := writes
    exact (path_of_writeUser reachable.sound data leaves registered readOnly).mono
      fun _ around => during around.2.spares around.1
  · obtain ⟨last, found⟩ := Option.isSome_iff_exists.1 stays
    have earlier := Event.lt_nextPid_of_page? reachable.sound registered
    have alone : ¬event.Allows before.nextPid (.remove pid place page.kind) ∨
        ∀ kind, ¬event.Allows before.nextPid (.register pid place kind) := by
      by_cases removes : event.Removes pid page.kind
      · exact .inr (removes.not_allows_register pid)
      · exact .inl fun allow => removes (Event.removes_of_allows earlier allow)
    have path := (Event.leads_of_perform reachable.sound reachable.mappingsWhole leaves).path
    refine (path.not_removing reachable.sound registered alone found).mono ?_
    rintro move ⟨allow, notRemoved⟩
    refine during ?_ allow
    cases move with
    | outside => exact Event.not_allows_outside inside allow
    | overwrite other address kind =>
        rintro ⟨rfl, rfl⟩
        exact Event.not_allows_overwrite earlier
          (fun writer target data same => writes ⟨writer, target, data, same⟩) address kind allow
    | remove other address kind =>
        rintro ⟨rfl, rfl⟩
        exact notRemoved kind rfl
    | _ => trivial

/-- And so does a run all along which the page is there. -/
theorem Reachable.path_sparing_run {events : List Event} (reachable : before.Reachable)
    (run : before.after? events = some after) (inside : ∀ event ∈ events, ¬event.IsOutside)
    (registered : before.page? pid place = some page) (readOnly : page.writable = false)
    (stays : ∀ past state, past <+: events → before.after? past = some state →
      (state.page? pid place).isSome = true) :
    Path (SparesDuring events pid place) before after := by
  induction events generalizing before page with
  | nil =>
      cases run
      exact .refl _
  | cons event rest inductionHypothesis =>
      obtain ⟨next, leaves, run⟩ := Option.bind_eq_some_iff.1 run
      rw [forall_states_cons leaves] at stays
      have path := reachable.path_sparing (inside event List.mem_cons_self) leaves registered
        readOnly (stays.2 [] next List.nil_prefix rfl)
      obtain ⟨kept, found, continues⟩ := path.exists_page? reachable.sound registered
        fun _ during => during.1 ⟨rfl, rfl⟩
      have later := inductionHypothesis (reachable.next event leaves) run
        (fun other listed => inside other (List.mem_cons_of_mem event listed)) found
        (continues.writable.trans readOnly) stays.2
      refine (path.mono ?_).trans (later.mono ?_)
      · rintro move ⟨spares, other, listed, next, allow⟩
        rw [List.mem_singleton] at listed
        exact ⟨spares, event, List.mem_cons_self, next, listed ▸ allow⟩
      · rintro move ⟨spares, other, listed, allow⟩
        exact ⟨spares, other, List.mem_cons_of_mem event listed, allow⟩

/-! ## Faults that are refused -/

/-- A fault is refused, and nothing happens by it, if a user accesses the kernel, if the process
does not exist, if a page is written that may not be, and if there is no page and the stack does not
grow. -/
theorem handleFault_of_illegal (machine : Machine) (pid : Pid) (reason : FaultReason) :
    (reason.code.user = true → reason.address.isKernel = true →
      handleFault pid reason machine = .failed .invalidAccess machine) ∧
    (¬(reason.code.user = true ∧ reason.address.isKernel = true) →
      (machine.spaces[pid]? = none →
        handleFault pid reason machine = .failed .noSuchEntry machine) ∧
      (∀ page, machine.page? pid reason.address.pageDown = some page →
        reason.code.write = true → page.writable = false →
        handleFault pid reason machine = .failed .invalidAccess machine) ∧
      (machine.spaces[pid]?.isSome = true →
        machine.page? pid reason.address.pageDown = none →
        ¬(reason.code.user = true ∧ reason.code.write = true ∧
          stackTop - machine.settings.stackLimit < reason.address.toNat ∧
          reason.address.toNat < stackTop ∧
          reason.stackPointer.toNat - machine.settings.stackSlack ≤ reason.address.toNat) →
        handleFault pid reason machine = .failed .badAddress machine)) := by
  rw [handleFault_eq]
  constructor
  · intro user kernel
    rw [user, kernel]
    rfl
  · intro legal
    rw [if_neg (by simpa using legal)]
    refine ⟨fun missing => ?_, fun page registered writes readOnly => ?_,
      fun process vacant still => ?_⟩
    · rw [missing]
    · obtain ⟨space, found, -⟩ := space_of_page? registered
      rw [found, registered]
      refine if_pos ?_
      rw [writes, readOnly]
      rfl
    · obtain ⟨space, found⟩ := Option.isSome_iff_exists.1 process
      rw [found, vacant]
      refine if_neg ?_
      simpa [growsStack, and_assoc] using still

/-! ## Runs -/

/-- What a process may not access stays as it was. In every state that a run leads to, an illegal
fault is refused and changes nothing at all. A write of any process marks no page as written that
may not be written, and changes no byte that such a page stands for, unless the page is not in
memory afterwards and follows a file in that byte. All along a run on which nothing is changed from
outside such a page keeps its bytes, except those that a dirty page of the same file took back, and
except those that were others than the bytes of the file to begin with. -/
theorem Reachable.illegal_accesses_change_nothing (reachable : before.Reachable) :
    (∀ pid (reason : FaultReason),
      (reason.code.user = true → reason.address.isKernel = true →
        handleFault pid reason before = .failed .invalidAccess before) ∧
      (¬(reason.code.user = true ∧ reason.address.isKernel = true) →
        (before.spaces[pid]? = none →
          handleFault pid reason before = .failed .noSuchEntry before) ∧
        (∀ page, before.page? pid reason.address.pageDown = some page →
          reason.code.write = true → page.writable = false →
          handleFault pid reason before = .failed .invalidAccess before) ∧
        (before.spaces[pid]?.isSome = true →
          before.page? pid reason.address.pageDown = none →
          ¬(reason.code.user = true ∧ reason.code.write = true ∧
            stackTop - before.settings.stackLimit < reason.address.toNat ∧
            reason.address.toNat < stackTop ∧
            reason.stackPointer.toNat - before.settings.stackSlack ≤ reason.address.toNat) →
          handleFault pid reason before = .failed .badAddress before))) ∧
    (∀ writer address data after,
      ((Event.writeUser writer address data).perform before).state? = some after →
      ∀ pid place page, before.page? pid place = some page → page.writable = false →
        before.isDirty pid place = false ∧ after.isDirty pid place = false ∧
        ∃ kept old now, after.page? pid place = some kept ∧ page.Continues kept ∧
          before.bytesOf? page = some old ∧ after.bytesOf? kept = some now ∧
          ∀ index : Fin pageSize, now.get index = old.get index ∨ kept.frame = none ∧
            before.FollowsFile (WritesAround writer pid place) page after index (old.get index)
              (now.get index)) ∧
    ∀ events last, before.after? events = some last → (∀ event ∈ events, ¬event.IsOutside) →
      ∀ pid place page, before.page? pid place = some page → page.writable = false →
        (∀ past state, past <+: events → before.after? past = some state →
          (state.page? pid place).isSome = true) →
        ∃ kept old now, last.page? pid place = some kept ∧ page.Continues kept ∧
          before.bytesOf? page = some old ∧ last.bytesOf? kept = some now ∧
          ∀ index : Fin pageSize, now.get index = old.get index ∨
            before.FollowsFile (SparesDuring events pid place) page last index (old.get index)
              (now.get index) := by
  refine ⟨fun pid reason => handleFault_of_illegal before pid reason, ?_, ?_⟩
  · intro writer address data after leaves pid place page registered readOnly
    have clean {state : Machine} (reached : state.Reachable) {found : Page}
        (here : state.page? pid place = some found) (unwritable : found.writable = false) :
        state.isDirty pid place = false := by
      by_contra dirty
      have writable := reached.dirtyWritable pid place found here (by simpa using dirty)
      rw [unwritable] at writable
      cases writable
    obtain ⟨kept, old, now, found, continues, bytes⟩ :=
      reachable.bytesOf?_of_writeUser data leaves registered readOnly
    have unwritable := continues.writable.trans readOnly
    exact ⟨clean reachable registered readOnly, clean (reachable.next _ leaves) found unwritable,
      kept, old, now, found, continues, bytes⟩
  · intro events last run inside pid place page registered readOnly stays
    exact (reachable.path_sparing_run run inside registered readOnly stays).followsFile
      reachable.sound reachable.dirtyWritable (fun _ during => during.1) registered

/-- A fault of a user process that accesses an address, where its stack pointer points. -/
def userFault (address : VirtAddr) (write : Bool) : FaultReason where
  address := address
  code := { present := false, write := write, user := true }
  stackPointer := address

/-- One file is mapped to be written, and another one to be read. -/
def mappingBothClean : List Event :=
  [.createProcess, .mapFile ⟨1⟩ firstPage 3 true 0 0, .mapFile ⟨1⟩ secondPage 2 false 1 0]

/-- Every kind of illegal fault is refused. A page of the second file is read, and then dropped from
the only frame when the page of the first file is written. It always stands for the bytes of its
file, because nobody writes that. -/
theorem illegal_accesses_change_nothing_dropping :
    ∃ mapped before after page held kept, tinyWithFiles.after? mappingBothClean = some mapped ∧
      ((Event.readUser ⟨1⟩ secondPage 2).perform mapped).state? = some before ∧
      ((Event.writeUser ⟨1⟩ firstPage #[6]).perform before).state? = some after ∧
      handleFault ⟨1⟩ (userFault ⟨kernelBase, by decide⟩ false) before =
        .failed .invalidAccess before ∧
      handleFault ⟨9⟩ (userFault firstPage true) before = .failed .noSuchEntry before ∧
      handleFault ⟨1⟩ (userFault secondPage true) before = .failed .invalidAccess before ∧
      handleFault ⟨1⟩ (userFault thirdPage true) before = .failed .badAddress before ∧
      mapped.page? ⟨1⟩ secondPage = some page ∧ page.writable = false ∧
      page.isResident = false ∧ mapped.bytesOf? page = some (Block.ofBytes #[1, 2]) ∧
      before.page? ⟨1⟩ secondPage = some held ∧ held.isResident = true ∧
      before.bytesOf? held = some (Block.ofBytes #[1, 2]) ∧
      after.page? ⟨1⟩ secondPage = some kept ∧ kept.isResident = false ∧
      after.isDirty ⟨1⟩ secondPage = false ∧
      after.bytesOf? kept = some (Block.ofBytes #[1, 2]) := by
  let part : FilePart := ⟨1, 0, 2⟩
  have maps : ((tinyWithFiles.after? mappingBothClean).bind fun mapped =>
      (mapped.page? ⟨1⟩ secondPage).map fun page =>
        (page.writable, page.isResident, page.backing.part?, part.find mapped.store.files)) =
      some (false, false, some part, #[1, 2]) := by decide +kernel
  have brings : ((tinyWithFiles.after? mappingBothClean).bind fun mapped =>
      ((Event.readUser ⟨1⟩ secondPage 2).perform mapped).state?.bind fun before =>
        (before.page? ⟨1⟩ secondPage).map fun held =>
          (held.writable, held.isResident, held.backing.part?, part.find before.store.files)) =
      some (false, true, some part, #[1, 2]) := by decide +kernel
  have others : ((tinyWithFiles.after? mappingBothClean).bind fun mapped =>
      ((Event.readUser ⟨1⟩ secondPage 2).perform mapped).state?.map fun before =>
        (before.spaces[(⟨1⟩ : Pid)]?.isSome, before.spaces[(⟨9⟩ : Pid)]?.isNone,
          (before.page? ⟨1⟩ thirdPage).isNone, before.settings.stackLimit)) =
      some (true, true, true, ({} : Settings).stackLimit) := by decide +kernel
  have drops : ((tinyWithFiles.after? mappingBothClean).bind fun mapped =>
      ((Event.readUser ⟨1⟩ secondPage 2).perform mapped).state?.bind fun before =>
        ((Event.writeUser ⟨1⟩ firstPage #[6]).perform before).state?.bind fun after =>
          (after.page? ⟨1⟩ secondPage).map Page.isResident) = some false := by decide +kernel
  obtain ⟨mapped, run, rest⟩ := Option.bind_eq_some_iff.1 maps
  obtain ⟨page, registered, facts⟩ := Option.map_eq_some_iff.1 rest
  rw [run, Option.bind_some] at brings others drops
  obtain ⟨before, reading, rest⟩ := Option.bind_eq_some_iff.1 brings
  obtain ⟨held, atBefore, heldFacts⟩ := Option.map_eq_some_iff.1 rest
  rw [reading, Option.map_some, Option.some.injEq] at others
  rw [reading, Option.bind_some] at drops
  obtain ⟨after, writing, rest⟩ := Option.bind_eq_some_iff.1 drops
  obtain ⟨last, atAfter, dropped⟩ := Option.map_eq_some_iff.1 rest
  simp only [Prod.mk.injEq] at facts heldFacts others
  obtain ⟨readOnly, absent, behind, finds⟩ := facts
  obtain ⟨readOnlyBefore, resident, behindHeld, findsHeld⟩ := heldFacts
  obtain ⟨process, missing, vacant, limit⟩ := others
  have start := Reachable.start {} 1 (Disk.create 16) tinyWithFiles.store.files
  have reachable : mapped.Reachable := start.of_after? run
  have reachableBefore := reachable.next _ reading
  -- Nobody may write the second file, so nobody takes bytes back to it.
  have onlyRead : mapped.ReadOnly 1 := by
    refine start.readOnly_of_run ?_ (by simp [mappingBothClean, Event.MapsReadOnly]) run
    intro pid address page region registered
    simp [create, page?] at registered
  have onlyReadBefore : before.ReadOnly 1 := by
    have maps : (Event.readUser ⟨1⟩ secondPage 2).MapsReadOnly 1 := trivial
    exact Event.readOnly reachable.sound reachable.mappingsWhole maps onlyRead reading
  have filed : part.contents mapped.store.files = Block.ofBytes #[1, 2] := by
    rw [← FilePart.ofBytes_find (by rw [finds]; rfl), finds]
  have filedBefore : part.contents before.store.files = Block.ofBytes #[1, 2] := by
    rw [← FilePart.ofBytes_find (by rw [findsHeld]; rfl), findsHeld]
  have absentFrame : page.frame = none := by simpa [Page.isResident] using absent
  have stands : mapped.bytesOf? page = some (Block.ofBytes #[1, 2]) := by
    rw [bytesOf?_of_part? absentFrame behind, filed]
  obtain ⟨-, -, runs⟩ := reachable.illegal_accesses_change_nothing
  obtain ⟨faults, writes, -⟩ := reachableBefore.illegal_accesses_change_nothing
  have comesIn : before.bytesOf? held = some (Block.ofBytes #[1, 2]) := by
    have present : ∀ past state, past <+: [Event.readUser ⟨1⟩ secondPage 2] →
        mapped.after? past = some state → (state.page? ⟨1⟩ secondPage).isSome = true := by
      rw [forall_states_cons reading]
      refine ⟨Option.isSome_of_eq_some registered, fun past state nothing reached => ?_⟩
      rw [List.prefix_nil.1 nothing] at reached
      cases reached
      exact Option.isSome_of_eq_some atBefore
    obtain ⟨_, old, now, found, -, standsOld, standsNow, bytes⟩ := runs
      [.readUser ⟨1⟩ secondPage 2] before (by rw [after?, reading]; rfl)
      (by simp [Event.IsOutside]) ⟨1⟩ secondPage page registered readOnly present
    obtain rfl := Option.some.inj (atBefore.symm.trans found)
    obtain rfl := Option.some.inj (standsOld.symm.trans stands)
    rw [standsNow]
    refine congrArg some (Vector.ext fun index inPage => (bytes ⟨index, inPage⟩).resolve_right ?_)
    refine onlyRead.not_followsFile reachable.sound ?_ behind ?_
    · rintro pid address ⟨-, event, listed, next, allow⟩
      rw [List.mem_singleton.1 listed] at allow
      exact (Move.Accesses.keepsMappings allow pid address).1 rfl
    · rw [← FilePart.get_contents, filed]
  obtain ⟨-, clean, _, old, now, found, -, standsOld, standsNow, bytes⟩ :=
    writes ⟨1⟩ firstPage #[6] after writing ⟨1⟩ secondPage held atBefore readOnlyBefore
  obtain rfl := Option.some.inj (atAfter.symm.trans found)
  obtain rfl := Option.some.inj (standsOld.symm.trans comesIn)
  have same : now = Block.ofBytes #[1, 2] := by
    refine Vector.ext fun index inPage => (bytes ⟨index, inPage⟩).resolve_right ?_
    rintro ⟨-, follows⟩
    refine onlyReadBefore.not_followsFile reachableBefore.sound
      (fun pid address around => (around.1.keepsMappings pid address).1 rfl) behindHeld ?_ follows
    rw [← FilePart.get_contents, filedBefore]
  have user {address : VirtAddr} (low : address.isKernel = false) (write : Bool) :
      ¬((userFault address write).code.user = true ∧
        (userFault address write).address.isKernel = true) := by
    rintro ⟨-, kernel⟩
    rw [userFault, low] at kernel
    cases kernel
  refine ⟨mapped, before, after, page, held, last, run, reading, writing, ?_, ?_, ?_, ?_,
    registered, readOnly, absent, stands, atBefore, resident, comesIn, atAfter, dropped, clean,
    standsNow.trans (congrArg some same)⟩
  · exact (faults ⟨1⟩ _).1 rfl (by decide)
  · exact ((faults ⟨9⟩ _).2 (user (by decide) true)).1 (Option.isNone_iff_eq_none.1 missing)
  · exact ((faults ⟨1⟩ _).2 (user (by decide) true)).2.1 held atBefore rfl readOnlyBefore
  · refine ((faults ⟨1⟩ _).2 (user (by decide) true)).2.2 process
      (Option.isNone_iff_eq_none.1 vacant) ?_
    rintro ⟨-, -, inWindow, -⟩
    rw [limit] at inWindow
    exact absurd inWindow (by decide)

/-- A page of a file that may be written and another one of the same file that may not are in
memory, and the first one was written. -/
def sharingReadOnly : List Event :=
  [.createProcess, .mapFile ⟨1⟩ firstPage 2 true 0 0, .mapFile ⟨1⟩ secondPage 2 false 0 0,
    .registerPage ⟨1⟩ thirdPage true .normal none,
    .registerPage ⟨1⟩ ⟨0x4000, by decide⟩ true .normal none,
    .writeUser ⟨1⟩ firstPage #[1], .readUser ⟨1⟩ secondPage 1]

/-- Writing two other pages changes the first byte of the page that may not be written. -/
def ChangesProtected (state : Machine) : Prop :=
  ∃ after page, writeUser ⟨1⟩ ⟨0x3fff, by decide⟩ #[2, 2] state = .done () after ∧
    state.page? ⟨1⟩ secondPage = some page ∧ page.writable = false ∧
    (fetchUser ⟨1⟩ secondPage 1 state).answer? = some #[7] ∧
    (fetchUser ⟨1⟩ secondPage 1 after).answer? = some #[1]

/-- Whether the page may be written, and what is read of it before and after the other pages are
written. -/
def protectedAnswers (state : Machine) : Option (Bool × Array UInt8 × Array UInt8) := do
  let page ← state.page? ⟨1⟩ secondPage
  let old ← (fetchUser ⟨1⟩ secondPage 1 state).answer?
  let outcome := writeUser ⟨1⟩ ⟨0x3fff, by decide⟩ #[2, 2] state
  let _ ← outcome.answer?
  let after ← outcome.state?
  let now ← (fetchUser ⟨1⟩ secondPage 1 after).answer?
  pure (page.writable, old, now)

theorem changesProtected_of_answers {state : Machine}
    (answers : state.protectedAnswers = some (false, #[7], #[1])) : state.ChangesProtected := by
  obtain ⟨page, registered, answers⟩ := Option.bind_eq_some_iff.1 answers
  obtain ⟨old, reads, answers⟩ := Option.bind_eq_some_iff.1 answers
  obtain ⟨_, writes, answers⟩ := Option.bind_eq_some_iff.1 answers
  obtain ⟨after, wrote⟩ := Outcome.exists_of_answer? writes
  rw [wrote] at answers
  obtain ⟨_, reached, answers⟩ := Option.bind_eq_some_iff.1 answers
  cases reached
  obtain ⟨now, readsAgain, answers⟩ := Option.bind_eq_some_iff.1 answers
  simp only [Option.pure_def, Option.some.injEq, Prod.mk.injEq] at answers
  obtain ⟨readOnly, rfl, rfl⟩ := answers
  exact ⟨after, page, wrote, registered, readOnly, reads, readsAgain⟩

/-- The two other pages drive both pages of the file out, and the protected one comes back with the
byte that was written to the file. That byte is taken back during this write, or already before it,
if the first page is unmapped. -/
theorem protected_byte_changed_sharing :
    ∃ before unmapped, twoFrames.after? sharingReadOnly = some before ∧
      unmapFile ⟨1⟩ firstPage before = .done () unmapped ∧
      before.ChangesProtected ∧ unmapped.ChangesProtected := by
  have reads : ((twoFrames.after? sharingReadOnly).bind protectedAnswers) =
      some (false, #[7], #[1]) := by decide +kernel
  have unmaps : ((twoFrames.after? sharingReadOnly).bind fun before =>
      (unmapFile ⟨1⟩ firstPage before).answer?) = some () := by decide +kernel
  have readsUnmapped : ((twoFrames.after? sharingReadOnly).bind fun before =>
      (unmapFile ⟨1⟩ firstPage before).state?.bind protectedAnswers) =
        some (false, #[7], #[1]) := by decide +kernel
  obtain ⟨before, run, answers⟩ := Option.bind_eq_some_iff.1 reads
  rw [run, Option.bind_some] at unmaps readsUnmapped
  obtain ⟨unmapped, done⟩ := Outcome.exists_of_answer? unmaps
  rw [done] at readsUnmapped
  exact ⟨before, unmapped, run, done, changesProtected_of_answers answers,
    changesProtected_of_answers readsUnmapped⟩

end Machine

end DemandPaging
