import DemandPaging.Proofs.ByteAccess
import DemandPaging.Proofs.ClaimOutcome
import DemandPaging.Proofs.SegmentContents

/-!
The check of a range of addresses, and the access that follows it.

Owns:
- `Machine.Permits`, a page is registered and may be accessed, in memory or not;
- what the check of a range decides (`Machine.exists_accessOk`);
- `Move.KeepsPages`, the moves of an access that registers nothing, and that what all pages need
  stays available by them;
- that an access to bytes that are permitted fails only for want of a frame, of a slot, or of a
  device, a file or a loader that works.

Does not own: how bringing in one page ends (`Served.ends_makeResident`).

The check looks at the registered pages and the access at the page table, and the access itself may
drive out pages that it needs later. It agrees with the check because a page stays registered and
keeps what it allows, wherever it goes.

Main statement: `access_check_agrees`.
-/

namespace DemandPaging

open Machine

/-- The page of a process at an address is registered, and it may be written if that is asked
for. -/
def Machine.Permits (machine : Machine) (pid : Pid) (write : Bool) (place : VirtAddr) : Prop :=
  ∃ page, machine.page? pid place = some page ∧ (write = true → page.writable = true)

/-! ## The check -/

namespace AddressSpace

variable {space : AddressSpace} {first last : VirtAddr} {write : Bool}

theorem accessOk_of_refused (refused : ¬(first ≤ last ∧ first.isUser = true)) :
    space.accessOk first last write = .ok false := by
  have stops : (decide (last < first) || !first.isUser) = true := by
    rw [Bool.or_eq_true, decide_eq_true_eq, Bool.not_eq_true', Address.lt_iff_toNat_lt]
    rw [Address.le_iff_toNat_le, not_and_or, Nat.not_le, Bool.not_eq_true] at refused
    exact refused
  unfold accessOk
  rw [stops]
  rfl

/-- A range that is not refused at once is refused if it reaches into the kernel, and otherwise all
of its pages are looked up. -/
theorem accessOk_eq (ordered : first ≤ last) (user : first.isUser = true) :
    space.accessOk first last write =
      if first.toNat < last.toNat ∧ kernelBase < last.toNat then .ok false
      else (first.pages (last.toNat - first.toNat)).map fun range =>
        range.all fun place =>
          (space.pages.find? place).any fun page => !write || page.writable := by
  have goesOn : (decide (last < first) || !first.isUser) = false := by
    rw [user, Bool.not_true, Bool.or_false, decide_eq_false_iff_not, Address.lt_iff_toNat_lt]
    exact Nat.not_lt.2 ordered
  have distance : last.distance first = .ok (last.toNat - first.toNat) :=
    Word.sub_eq_ok_iff.2 ⟨ordered, rfl⟩
  unfold accessOk
  rw [goesOn, distance]
  simp only [Bool.false_eq_true, if_false, bind, Except.bind, pure]
  by_cases nonempty : first.toNat < last.toNat
  · have positive : 1 ≤ last.toNat := Nat.lt_of_le_of_lt (Nat.zero_le _) nonempty
    have reaches : ∀ bound, (⟨last.toNat - 1, bound⟩ : VirtAddr).isKernel =
        decide (kernelBase < last.toNat) := by
      intro bound
      rw [Address.isKernel, decide_eq_decide]
      dsimp only
      omega
    rw [if_pos (Nat.sub_pos_of_lt nonempty), Address.sub, if_pos positive]
    dsimp only
    rw [reaches]
    by_cases kernel : kernelBase < last.toNat
    · rw [if_pos (decide_eq_true kernel), if_pos ⟨nonempty, kernel⟩]
      rfl
    · rw [if_neg (by simpa using kernel), if_neg fun both => kernel both.2]
      rfl
  · rw [if_neg (Nat.not_lt.2 (Nat.sub_eq_zero_of_le (Nat.not_lt.1 nonempty)).le),
      if_neg fun both => nonempty both.1]
    rfl

end AddressSpace

/-- The pages of a run of user addresses are within the machine words. -/
theorem Address.exists_pages_of_user {address : VirtAddr} {length : Nat}
    (below : length = 0 ∨ address.toNat + length ≤ kernelBase) :
    ∃ range, address.pages length = .ok range := by
  refine exists_pages (below.imp_right fun inUser => ?_)
  simp only [pageSize, Word.limit, kernelBase] at *
  omega

namespace Machine

variable {machine : Machine} {pid : Pid} {first last : VirtAddr} {write : Bool}

/-- The registry of a process shows whether a page is permitted. -/
theorem permits_iff {space : AddressSpace} (found : machine.spaces[pid]? = some space)
    (place : VirtAddr) :
    ((space.pages.find? place).any fun page => !write || page.writable) = true ↔
      machine.Permits pid write place.pageDown := by
  rw [PageRegistry.find?_eq_at?, ← page?_of_space found, Option.any_eq_true, Permits]
  refine exists_congr fun page => and_congr_right fun _ => ?_
  cases write with
  | false => simp
  | true => simp

/-- Every page of a run of bytes is permitted if and only if that of every byte is. -/
theorem forall_pages_permits_iff {length : Nat} {range : PageRange}
    (touched : first.pages length = .ok range) (run : first.toNat + length = last.toNat) :
    (∀ place ∈ range.toList, machine.Permits pid write place.pageDown) ↔
      ∀ byte : VirtAddr, first ≤ byte → byte < last →
        machine.Permits pid write byte.pageDown := by
  constructor
  · intro pages byte from' below
    have down := byte.pageDown_add_offset
    have inPage := byte.offset_lt_pageSize
    have listed : byte.pageDown ∈ range.toList := by
      rw [Address.mem_pages_iff touched]
      refine ⟨byte.offset_pageDown, byte.toNat, from', ?_, ?_, ?_⟩
      · rw [run]
        exact below
      · omega
      · omega
    have permitted := pages byte.pageDown listed
    rwa [Address.pageDown_pageDown] at permitted
  · intro bytes place listed
    obtain ⟨aligned, position, from', below, lower, upper⟩ :=
      (Address.mem_pages_iff touched).1 listed
    have bound := last.lt_limit
    let byte : VirtAddr := ⟨position, by omega⟩
    have inPage : byte.pageDown = place.pageDown := by
      apply Address.ext_toNat
      rw [Address.toNat_pageDown, Address.toNat_pageDown]
      simp only [Address.offset, pageSize, byte] at *
      omega
    rw [← inPage]
    exact bytes byte from' (by rw [run] at below; exact below)

/-- The check of a range never leaves the machine words, and it decides whether the process exists,
the range is one of user addresses, and every page of it is permitted. -/
theorem exists_accessOk (machine : Machine) (pid : Pid) (first last : VirtAddr) (write : Bool) :
    ∃ answer, machine.accessOk pid first last write = .ok answer ∧
      (answer = true ↔ machine.spaces[pid]?.isSome = true ∧ first ≤ last ∧ first.isUser = true ∧
        ∀ byte : VirtAddr, first ≤ byte → byte < last →
          byte.isKernel = false ∧ machine.Permits pid write byte.pageDown) := by
  unfold accessOk
  cases found : machine.spaces[pid]? with
  | none => exact ⟨false, rfl, by simp⟩
  | some space =>
      dsimp only
      by_cases accepted : first ≤ last ∧ first.isUser = true
      · obtain ⟨ordered, user⟩ := accepted
        rw [AddressSpace.accessOk_eq ordered user]
        split
        case isTrue kernel =>
          -- The last byte of the range is one of the kernel.
          refine ⟨false, rfl, ?_⟩
          rw [eq_false Bool.false_ne_true, false_iff]
          rintro ⟨-, -, -, bytes⟩
          have bound := last.lt_limit
          let final : VirtAddr := ⟨last.toNat - 1, by omega⟩
          have lower : first ≤ final := Nat.le_sub_one_of_lt kernel.1
          have upper : final < last := Nat.sub_lt (Nat.zero_lt_of_lt kernel.1) Nat.one_pos
          have inKernel := (bytes final lower upper).1
          rw [Address.isKernel, decide_eq_false_iff_not] at inKernel
          exact inKernel (Nat.le_sub_one_of_lt kernel.2)
        case isFalse below =>
          have run : first.toNat + (last.toNat - first.toNat) = last.toNat :=
            Nat.add_sub_cancel' ordered
          have inUser : last.toNat - first.toNat = 0 ∨
              first.toNat + (last.toNat - first.toNat) ≤ kernelBase := by
            rw [run]
            omega
          obtain ⟨range, touched⟩ := Address.exists_pages_of_user inUser
          rw [touched]
          refine ⟨_, rfl, ?_⟩
          rw [PageRange.all_eq_true_iff]
          simp only [permits_iff found]
          rw [forall_pages_permits_iff touched run]
          constructor
          · intro bytes
            refine ⟨rfl, ordered, user, fun byte from' until' => ⟨?_, bytes byte from' until'⟩⟩
            rw [Address.isKernel, decide_eq_false_iff_not]
            rw [Address.le_iff_toNat_le] at from'
            rw [Address.lt_iff_toNat_lt] at until'
            omega
          · intro all byte from' until'
            exact (all.2.2.2 byte from' until').2
      · rw [AddressSpace.accessOk_of_refused accepted]
        refine ⟨false, rfl, ?_⟩
        rw [eq_false Bool.false_ne_true, false_iff]
        rintro ⟨-, ordered, user, -⟩
        exact accepted ⟨ordered, user⟩

end Machine

/-! ## What stays available -/

/-- Pages may move, and bytes of them may be accessed and replaced. No page comes or goes. -/
def Move.KeepsPages : Move → Prop
  | upkeep | access _ _ _ | pageOut _ | pageIn _ _ _ _ _ | overwrite _ _ _ => True
  | refer | outside | setStackPointer _ | register _ _ _ | remove _ _ _ | arrive _ | leave _ =>
    False

theorem Move.IsUnseen.keepsPages {move : Move} (unseen : move.IsUnseen) : move.KeepsPages := by
  cases move with
  | upkeep | pageOut _ | pageIn _ _ _ _ _ => trivial
  | _ => exact unseen.elim

theorem Move.KeepsPages.keepsMappings {move : Move} (keeps : move.KeepsPages) (pid : Pid) :
    move.KeepsMappings pid := by
  refine fun address => ⟨?_, ?_⟩
  · rintro rfl
    exact keeps
  · rintro rfl
    exact keeps

theorem Move.KeepsPages.ne_outside {move : Move} (keeps : move.KeepsPages) : move ≠ .outside := by
  rintro rfl
  exact keeps

/-- A page that was touched needs the file behind it, if there is one, and nothing else. -/
theorem Page.Served.of_touched {page : Page} {store : BackingStore}
    (touched : page.isUntouched = false)
    (regions : ∀ region, page.region? = some region → region.Served store.files) :
    page.Served store := by
  unfold Page.isUntouched at touched
  unfold Page.Served
  match backed : page.backing with
  | .untouched _ =>
      rw [backed] at touched
      cases touched
  | .anonymous _ => trivial
  | .file region => exact regions region (by rw [Page.region?, backed]; rfl)

section Steps

variable {before after : Machine} {move : Move} {pid : Pid} {place : VirtAddr} {page : Page}
  {write : Bool} {bound : Nat}

/-- The parts of files behind pages stay available while pages are written back. -/
theorem Step.served_region (step : Step move before after) (keeps : move.KeepsPages)
    (whole : ∀ pid, before.MappingsWhole pid) (served : before.Served) {region : FileRegion}
    (ofFile : before.region? pid place = some region) : region.Served after.store.files := by
  have available {other : Pid} {address : VirtAddr} {part : FileRegion}
      (behind : before.region? other address = some part) : part.Served before.store.files := by
    obtain ⟨owner, registered, ofPage⟩ := Option.bind_eq_some_iff.1 behind
    exact (served.page registered).region ofPage
  rcases step.content?_cases keeps.ne_outside with
    same | ⟨other, saved, written, _, _, departs, changed⟩
  · exact (available ofFile).congr (same _)
  · have behind := departs.pageOf.region?
    have inPage := (whole other).readBytes_le behind
    exact ((available ofFile).departed (available behind) inPage).congr (changed _)

/-- What the pages of all processes need stays available. -/
theorem Step.served (step : Step move before after) (keeps : move.KeepsPages)
    (sound : before.Sound) (whole : ∀ pid, before.MappingsWhole pid) (served : before.Served) :
    after.Served := by
  intro kept listed
  obtain ⟨pid, place, found⟩ := mem_pages_iff.1 listed
  have regions (region : FileRegion) (ofPage : kept.region? = some region) :
      region.Served after.store.files := by
    have same := region?_of_step step sound.frames (keeps.keepsMappings pid) place
    rw [Machine.region?, found, Option.bind_some, ofPage] at same
    exact step.served_region keeps whole served same.symm
  by_cases same : after.page? pid place = before.page? pid place
  · rw [found] at same
    exact (served.page same.symm).congr (step.fileCount sound.mappings).1
      (step.world_eq sound.mappings keeps.ne_outside) regions
  · -- A page that moved was touched, so no loader is asked for it again.
    refine .of_touched ?_ regions
    have placed := (step.sound sound).slots.placed pid place kept found
    cases registered : before.page? pid place with
    | none =>
        have comes := step.eq_register sound.frames registered found
        rw [comes] at keeps
        exact keeps.elim
    | some page =>
        have stays : ∀ kind, move ≠ .remove pid place kind := by
          rintro kind rfl
          exact keeps
        rw [← Bool.not_eq_true]
        intro untouched
        rcases step.move_of_page? sound registered stays same with
          ⟨frame, -, held⟩ | ⟨frame, kind, isFirst, rfl⟩
        · obtain ⟨changed, also, continues⟩ :=
            step.exists_page? sound.frames registered (stays page.kind)
          rw [found, Option.some.injEq] at also
          subst also
          rw [frame?, registered, Option.bind_some] at held
          have fresh : page.isUntouched = true := by
            by_contra touched
            rw [continues.touched (by simpa using touched)] at untouched
            cases untouched
          rw [(sound.slots.placed pid place page registered).frame_eq_none fresh] at held
          cases held
        · have held := step.frame?_of_pageIn
          rw [frame?, found, Option.bind_some, placed.frame_eq_none untouched] at held
          cases held

/-- All records agree, and what the pages of all processes need is available. -/
structure Machine.Ready (machine : Machine) (bound : Nat) : Prop where
  sound : machine.Sound
  user : machine.UserPages
  whole : ∀ pid, machine.MappingsWhole pid
  served : machine.Served
  fits : machine.store.swap.Fits bound

theorem Machine.Ready.step (ready : before.Ready bound) (step : Step move before after)
    (keeps : move.KeepsPages) : after.Ready bound := by
  have path : Path Move.KeepsPages before after := .single step keeps
  refine ⟨step.sound ready.sound, ?_, fun pid => ?_, ?_, ?_⟩
  · intro pid place page found
    obtain ⟨former, known, -⟩ := path.exists_page?_of_after ready.sound found id
    exact ready.user pid place former known
  · exact (ready.whole pid).of_path path ready.sound fun _ keeps => keeps.keepsMappings pid
  · exact step.served keeps ready.sound ready.whole ready.served
  · exact fits_of_path path ready.sound ready.fits

theorem Machine.Ready.of_path (ready : before.Ready bound)
    (path : Path Move.KeepsPages before after) : after.Ready bound := by
  apply path.keeps ready
  intro move middle next keeps step readyHere
  exact readyHere.step step keeps

theorem Machine.Permits.of_path (permits : before.Permits pid write place)
    (path : Path Move.KeepsPages before after) (sound : before.Sound) :
    after.Permits pid write place := by
  obtain ⟨page, registered, mayWrite⟩ := permits
  obtain ⟨kept, found, continues⟩ := path.exists_page? sound registered fun _ => id
  exact ⟨kept, found, fun writes => continues.writable.trans (mayWrite writes)⟩

end Steps

/-! ## The access -/

namespace Machine

variable {before machine : Machine} {pid : Pid} {address first last : VirtAddr} {write : Bool}
  {length bound : Nat}

/-- An access fails although it is permitted: there is no frame, or no slot, or a device, a file or
a loader failed. -/
def LacksMeans (error : Errno) : Prop :=
  error = .noMemory ∨ error = .noSpace ∨ error = .ioError

/-- Every byte of a run lies in a page that is permitted. -/
def PermitsRun (machine : Machine) (pid : Pid) (write : Bool) (address : VirtAddr)
    (length : Nat) : Prop :=
  ∀ index < length, ∃ place, address.advance? index = some place ∧
    machine.Permits pid write place.pageDown

theorem PermitsRun.of_path {after : Machine} (permits : before.PermitsRun pid write address length)
    (path : Path Move.KeepsPages before after) (sound : before.Sound) :
    after.PermitsRun pid write address length := by
  intro index inside
  obtain ⟨place, advanced, permitted⟩ := permits index inside
  exact ⟨place, advanced, permitted.of_path path sound⟩

/-- What may be written may be read. -/
theorem PermitsRun.read (permits : machine.PermitsRun pid write address length) :
    machine.PermitsRun pid false address length := by
  intro index inside
  obtain ⟨place, advanced, page, registered, -⟩ := permits index inside
  exact ⟨place, advanced, page, registered, nofun⟩

/-- The bytes of a range that passes the check have canonical addresses. -/
theorem permitsRun_of_bytes
    (bytes : ∀ byte : VirtAddr, first ≤ byte → byte < last →
      byte.isKernel = false ∧ machine.Permits pid write byte.pageDown) :
    machine.PermitsRun pid write first (last.toNat - first.toNat) := by
  intro index inside
  have below : first.toNat + index < last.toNat := by omega
  let byte : VirtAddr := ⟨first.toNat + index, Nat.lt_trans below last.lt_limit⟩
  obtain ⟨user, permitted⟩ := bytes byte (Nat.le_add_right ..) below
  refine ⟨byte, VirtAddr.ofNat?_eq_some_iff.2 ⟨.inl ?_, rfl⟩, permitted⟩
  rw [Address.isKernel, decide_eq_false_iff_not] at user
  simp only [byte, kernelBase] at user
  omega

/-- A byte whose page is in memory is accessed without a fault. -/
theorem Accessible.ends_access (accessible : before.Accessible pid address write)
    (sound : before.Sound) :
    (access pid address write before).Ends
      (fun answer after => ∃ location, answer = .ok location ∧
        Step (.access pid address write) before after ∧ after.Reaches pid address write location)
      (fun _ _ => False) (fun _ => False) := by
  apply (Machine.ends_access sound pid address write).imp
  · intro answer after result
    cases answer with
    | ok location => exact ⟨location, rfl, result.2.1, result.2.2.of_access result.2.1⟩
    | error _ => exact absurd accessible result.2.2.1
  · intro _ _ missing
    obtain ⟨page, registered, -⟩ := accessible
    obtain ⟨space, found, -⟩ := space_of_page? registered
    rw [missing.2.1] at found
    cases found
  · intro _ never
    exact never

/-- A byte that is permitted is located: its page is in memory, or it is brought in. -/
theorem Ready.ends_locate (ready : before.Ready bound)
    (permits : before.Permits pid write address.pageDown) :
    (locate pid address write before).Ends
      (fun location after => Path Move.KeepsPages before after ∧
        after.Reaches pid address write location)
      (fun error _ => LacksMeans error) (fun _ => False) := by
  obtain ⟨page, registered, mayWrite⟩ := permits
  obtain ⟨space, found, -⟩ := space_of_page? registered
  simp only [locate, Action.bind_apply, space_eq_done found]
  rw [← Action.bind_apply, Action.ends_bind]
  apply (ends_access ready.sound pid address write).imp
  · intro answer touched result
    obtain ⟨-, result⟩ := result
    cases answer with
    | ok location => exact ⟨.single result.1 trivial, result.2.of_access result.1⟩
    | error code =>
        obtain ⟨same, refused, mode, -⟩ := result
        have absent : page.frame = none := by
          by_contra held
          exact refused ⟨page, registered, Option.isSome_iff_ne_none.2 held, mayWrite⟩
        have handles := handleFault_eq_makeResident ready.user registered
          (fun writes => mayWrite (mode.symm.trans writes)) space.stackPointer
        rw [same, Action.ends_bind, handles]
        have brings := ready.served.ends_makeResident ready.sound ready.user ready.whole ready.fits
          registered absent
        have steps := (takes_makeResident pid address).ends before ready.sound
        have shows := ends_makeResident_accessible ready.sound registered mayWrite
        apply ((brings.and steps).and shows).imp
        · intro _ handled reached
          obtain ⟨⟨-, path⟩, accessible⟩ := reached
          have keeps : Path Move.KeepsPages before handled :=
            path.mono fun _ unseen => unseen.keepsPages
          rw [Action.ends_bind]
          apply (accessible.ends_access (path.sound ready.sound)).imp
          · rintro _ after ⟨location, rfl, step, reaches⟩
            exact ⟨keeps.snoc step trivial, reaches⟩
          · intro _ _ never
            exact never.elim
          · intro _ never
            exact never
        · intro _ _ failed
          exact failed.1.1.cause
        · intro _ never
          exact never.1.1
  · intro _ _ missing
    rw [found] at missing
    cases missing.2.1
  · intro _ never
    exact never

theorem Ready.ends_locateChunk {chunk : Chunk} (ready : before.Ready bound)
    (permits : before.PermitsRun pid write address length) (inside : chunk.done < length) :
    (locateChunk pid address write chunk before).Ends
      (fun location after => Path Move.KeepsPages before after ∧
        ∃ place, after.Reaches pid place write location)
      (fun error _ => LacksMeans error) (fun _ => False) := by
  obtain ⟨place, advanced, permitted⟩ := permits chunk.done inside
  simp only [locateChunk, Action.ends_bind, Action.ends_require]
  refine ⟨fun other also => ?_, fun missing => ?_⟩
  · rw [advanced, Option.some.injEq] at also
    subst also
    exact (ready.ends_locate permitted).imp_done fun _ _ located => ⟨located.1, place, located.2⟩
  · rw [advanced] at missing
    cases missing

theorem Ready.ends_fetchChunk {chunk : Chunk} (ready : before.Ready bound)
    (permits : before.PermitsRun pid false address length) (inside : chunk.done < length) :
    (fetchChunk pid address chunk before).Ends
      (fun _ after => Path Move.KeepsPages before after)
      (fun error _ => LacksMeans error) (fun _ => False) := by
  simp only [fetchChunk, Action.ends_bind, Action.ends_get, Action.ends_orHalt, Action.ends_pure]
  apply (ready.ends_locateChunk permits inside).imp_done
  intro location after located
  obtain ⟨path, place, reaches⟩ := located
  obtain ⟨bytes, contents⟩ := reaches.exists_contents? (path.sound ready.sound)
  exact Action.of_result_eq_ok (ResidentSet.read_eq_ok_iff.2 contents) path

theorem Ready.ends_writeChunk {chunk : Chunk} (data : Array UInt8) (ready : before.Ready bound)
    (permits : before.PermitsRun pid true address length) (inside : chunk.done < length) :
    (writeChunk pid address data chunk before).Ends
      (fun _ after => Path Move.KeepsPages before after)
      (fun error _ => LacksMeans error) (fun _ => False) := by
  simp only [writeChunk, Action.ends_bind, Action.ends_get, Action.ends_orHalt, setResident,
    Action.ends_modify]
  apply (ready.ends_locateChunk permits inside).imp_done
  intro location middle located
  obtain ⟨path, place, reaches⟩ := located
  obtain ⟨bytes, contents⟩ := reaches.exists_contents? (path.sound ready.sound)
  refine Action.of_result_eq_ok (ResidentSet.read_eq_ok_iff.2 contents) ?_
  have filled : (middle.resident.contents? location.frame).isSome = true :=
    Option.isSome_of_eq_some contents
  obtain ⟨resident, written⟩ := ResidentSet.exists_write_eq_ok filled
    (bytes.overlay location.offset (data.extract chunk.done (chunk.done + chunk.size)))
  refine Action.of_result_eq_ok written ?_
  obtain ⟨page, registered, -⟩ := reaches.accessible
  exact path.snoc (.overwrite reaches.owner registered written) trivial

/-- A run that may be read is read, or there are no means to do so. -/
theorem Ready.ends_fetchUser (ready : before.Ready bound)
    (permits : before.PermitsRun pid false address length) :
    (fetchUser pid address length before).Ends (fun _ _ => True) (fun error _ => LacksMeans error)
      (fun _ => False) := by
  have ends : (readUser pid address length { machine := before }).Ends (fun _ _ => True)
      (fun error _ => LacksMeans error) (fun _ => False) := by
    refine (Action.ends_forM (fun rest (read : UserRead) =>
      (read.machine.Ready bound ∧ read.machine.PermitsRun pid false address length) ∧
        ∀ chunk ∈ rest, chunk.done < length) ?_ ?_).imp_done fun _ _ _ => trivial
    · intro chunk rest read between
      obtain ⟨⟨readyHere, permitsHere⟩, inside⟩ := between
      simp only [readChunk, Action.ends_bind, Action.ends_onPart, Action.ends_modify]
      apply (readyHere.ends_fetchChunk permitsHere (inside chunk List.mem_cons_self)).imp_done
      intro _ after path
      exact ⟨⟨readyHere.of_path path, permitsHere.of_path path readyHere.sound⟩,
        fun other listed => inside other (List.mem_cons_of_mem _ listed)⟩
    · exact ⟨⟨ready, permits⟩, fun _ => Chunk.done_lt_of_mem_split address.offset_lt_pageSize⟩
  unfold fetchUser
  cases outcome : readUser pid address length { machine := before } with
  | done _ read => trivial
  | failed error read =>
      rw [outcome] at ends
      exact ends
  | halted fault =>
      rw [outcome] at ends
      exact ends

/-- A run that may be written is written, or there are no means to do so. -/
theorem Ready.ends_writeUser {data : Array UInt8} (ready : before.Ready bound)
    (permits : before.PermitsRun pid true address data.size) :
    (writeUser pid address data before).Ends (fun _ _ => True) (fun error _ => LacksMeans error)
      (fun _ => False) := by
  refine (Action.ends_forM (fun rest (state : Machine) =>
    (state.Ready bound ∧ state.PermitsRun pid true address data.size) ∧
      ∀ chunk ∈ rest, chunk.done < data.size) ?_ ?_).imp_done fun _ _ _ => trivial
  · intro chunk rest state between
    obtain ⟨⟨readyHere, permitsHere⟩, inside⟩ := between
    apply (readyHere.ends_writeChunk data permitsHere (inside chunk List.mem_cons_self)).imp_done
    intro _ after path
    exact ⟨⟨readyHere.of_path path, permitsHere.of_path path readyHere.sound⟩,
      fun other listed => inside other (List.mem_cons_of_mem _ listed)⟩
  · exact ⟨⟨ready, permits⟩, fun _ => Chunk.done_lt_of_mem_split address.offset_lt_pageSize⟩

/-! ## Runs -/

/-- No event changes the layout of the swap area. -/
theorem Reachable.fits_of_run {last : Machine} {events : List Event} (reachable : machine.Reachable)
    (run : machine.after? events = some last) (fits : machine.store.swap.Fits bound) :
    last.store.swap.Fits bound := by
  apply (reachable.keeps (fun state => state.store.swap.Fits bound) run fits ?_).2
  intro event _ before after reached leaves fitsHere
  have leads := Event.leads_of_perform reached.sound reached.mappingsWhole leaves
  exact fits_of_path leads.path reached.sound fitsHere

/-- The check of a range agrees with the access, in every state that a run leads to. It never leaves
the machine words, and passes exactly the ranges of user addresses of which every byte lies in a
page that is registered and may be accessed, for every process that exists. After it has passed a
range, to read it, and to write it too if that was asked for, succeeds, or fails for want of memory,
of space or of a device, if devices, files and loaders fail with I/O errors only and no transfer of
a file is short. -/
theorem access_check_agrees {settings : Settings} {frames : Nat} {disk : Disk} {files : FileStore}
    {past : List Event}
    (run : (create settings (FramePool.create frames) disk files).after? past = some machine)
    (word : disk.sectorCount < Word.limit) :
    ∀ pid first last write, ∃ answer, machine.accessOk pid first last write = .ok answer ∧
      (answer = true ↔ machine.spaces[pid]?.isSome = true ∧ first ≤ last ∧ first.isUser = true ∧
        ∀ byte : VirtAddr, first ≤ byte → byte < last →
          byte.isKernel = false ∧ machine.Permits pid write byte.pageDown) ∧
      (answer = true → machine.Served →
        (fetchUser pid first (last.toNat - first.toNat) machine).Ends
          (fun _ _ => True) (fun error _ => LacksMeans error) (fun _ => False) ∧
        (write = true → ∀ data : Array UInt8, data.size = last.toNat - first.toNat →
          (writeUser pid first data machine).Ends
            (fun _ _ => True) (fun error _ => LacksMeans error) (fun _ => False))) := by
  intro pid first last write
  obtain ⟨answer, checked, passes⟩ := exists_accessOk machine pid first last write
  refine ⟨answer, checked, passes, fun passed served => ?_⟩
  obtain ⟨-, -, -, bytes⟩ := passes.1 passed
  have permits := permitsRun_of_bytes bytes
  have start : (create settings (FramePool.create frames) disk files).Reachable := .start ..
  have reachable := start.of_after? run
  have fits := start.fits_of_run run (SwapArea.fits_create word)
  have ready : machine.Ready disk.sectorCount :=
    ⟨reachable.sound, reachable.userPages, reachable.mappingsWhole, served, fits⟩
  refine ⟨ready.ends_fetchUser permits.read, ?_⟩
  rintro rfl data size
  rw [← size] at permits
  exact ready.ends_writeUser permits

/-- After two pages were written in turn, of which the second is in the only frame, a range across
both passes the check, and writing it brings in the first one again. -/
theorem access_check_agrees_crowding :
    ∃ machine, tiny.after? crowding = some machine ∧
      machine.accessOk ⟨1⟩ ⟨0x1fff, by decide⟩ ⟨0x2001, by decide⟩ true = .ok true ∧
      (writeUser ⟨1⟩ ⟨0x1fff, by decide⟩ #[9, 9] machine).Ends (fun _ _ => True)
        (fun error _ => LacksMeans error) (fun _ => False) := by
  have runs : ((tiny.after? crowding).map fun machine =>
      (decide machine.Served,
        (machine.accessOk ⟨1⟩ ⟨0x1fff, by decide⟩ ⟨0x2001, by decide⟩ true).toOption)) =
      some (true, some true) := by decide +kernel
  obtain ⟨machine, run, facts⟩ := Option.map_eq_some_iff.1 runs
  obtain ⟨served, passed⟩ := Prod.mk.inj facts
  obtain ⟨answer, checked, -, ends⟩ := access_check_agrees run (by decide) ⟨1⟩
    ⟨0x1fff, by decide⟩ ⟨0x2001, by decide⟩ true
  rw [checked] at passed
  cases passed
  exact ⟨machine, run, checked, (ends rfl (of_decide_eq_true served)).2 rfl #[9, 9] (by decide)⟩

/-- No byte of an empty range lies anywhere, and still the check does not pass it for a process that
does not exist. -/
theorem access_check_refuses_unknown :
    tiny.Reachable ∧ firstPage ≤ firstPage ∧ firstPage.isUser = true ∧
      (∀ byte : VirtAddr, firstPage ≤ byte → byte < firstPage →
        byte.isKernel = false ∧ tiny.Permits ⟨1⟩ false byte.pageDown) ∧
      tiny.accessOk ⟨1⟩ firstPage firstPage false = .ok false := by
  refine ⟨reachable_tiny, Nat.le_refl _, by decide, fun byte lower upper => ?_, ?_⟩
  · exact absurd upper (Nat.not_lt.2 lower)
  · simp [accessOk, tiny, create]

end Machine

end DemandPaging
