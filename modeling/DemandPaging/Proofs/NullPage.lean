import DemandPaging.Proofs.GrownPages
import DemandPaging.Proofs.Lifetime
import DemandPaging.Proofs.StackHoles
import DemandPaging.Proofs.UserBytes
import DemandPaging.Proofs.UserPages

/-!
The page at address zero.

Owns:
- `Machine.NullFree`, no process has a page at address zero, and the one event that may change this;
- that every access to such a page fails then, and that nothing happens by it.

Does not own: that no page lies in the kernel (`Reachable.userPages`).

Every operation that registers pages refuses the address zero. Mapping a file and loading a segment
want a page aligned address and the growth of a stack computes one, so this keeps them off the page
at address zero. A page that is registered by itself may be named by any of its addresses, of which
only the first one is refused there.

Main statement: `only_user_pages_iff`.
-/

namespace DemandPaging

open Machine

/-- The address zero. -/
def VirtAddr.null : VirtAddr := ⟨0, Word.limit_pos⟩

theorem Address.pageDown_eq_null_iff {address : VirtAddr} :
    address.pageDown = VirtAddr.null ↔ address.toNat < pageSize := by
  have down := Address.toNat_pageDown address
  constructor
  · intro same
    rw [same] at down
    simp only [VirtAddr.null, pageSize] at *
    omega
  · intro low
    apply Address.ext_toNat
    simp only [VirtAddr.null, pageSize] at *
    omega

/-- A page is registered by itself, at an address of the page at address zero that is not
refused. -/
def Event.RegistersNull (event : Event) (machine : Machine) : Prop :=
  match event with
  | registerPage pid address _ _ _ =>
    machine.spaces[pid]?.isSome = true ∧ 0 < address.toNat ∧ address.toNat < pageSize
  | _ => False

namespace Machine

open DemandPaging.Action (Takes)

/-- No process has a page at address zero. -/
def NullFree (machine : Machine) : Prop := ∀ pid, machine.page? pid VirtAddr.null = none

/-- Every registered page is at a page aligned user address, under which it is found. -/
def OnlyUserPages (machine : Machine) : Prop :=
  ∀ pid address page, machine.page? pid address = some page →
    page.address = address ∧ address.offset = 0 ∧ address.isUser = true

variable {before after machine next last : Machine} {pid : Pid} {address : VirtAddr} {write : Bool}

/-- Apart from address zero, pages can only be where they should be. -/
theorem Reachable.onlyUserPages_iff (reachable : machine.Reachable) :
    machine.OnlyUserPages ↔ machine.NullFree := by
  constructor
  · intro user pid
    cases found : machine.page? pid VirtAddr.null with
    | none => rfl
    | some page =>
        have isUser := (user pid VirtAddr.null page found).2.2
        exact absurd isUser (by decide)
  · intro free pid address page registered
    obtain ⟨located, aligned⟩ := reachable.sound.frames.located registered
    have below := reachable.userPages pid address page registered
    refine ⟨located, aligned, ?_⟩
    rw [Address.isUser, decide_eq_true_eq]
    refine ⟨fun zero => ?_, below⟩
    have here : address = VirtAddr.null := Address.ext_toNat zero
    rw [here, free] at registered
    cases registered

/-! ## Operations that register pages -/

/-- Page aligned user addresses. -/
def WholeUser (place : VirtAddr) : Prop := place.offset = 0 ∧ place.isUser = true

theorem WholeUser.ne_null {place : VirtAddr} (user : WholeUser place) : place ≠ VirtAddr.null := by
  rintro rfl
  exact absurd user.2 (by decide)

theorem takes_registerPage_aligned (pid : Pid) (aligned : address.offset = 0) (writable : Bool)
    (marker : PageMarker) (loader : Option Loader) :
    (registerPage pid address writable marker (.anonymous loader)).Takes
      (Move.RegistersIn WholeUser) := by
  apply takes_registerPage_in
  intro user
  rw [Address.pageDown_eq_self_iff.2 aligned]
  exact ⟨aligned, user⟩

theorem takes_loadPages_aligned (pid : Pid) (file : FileId) (pagesLeft : Nat) (segment : Segment)
    (aligned : segment.address.offset = 0) :
    (loadPages pid file pagesLeft segment).Takes (Move.RegistersIn WholeUser) := by
  induction pagesLeft generalizing segment with
  | zero => exact Takes.pure ()
  | succ pagesAfter inductionHypothesis =>
      apply (takes_registerPage_aligned pid aligned segment.writable .normal _).bind
      intro _
      apply (Takes.checked _).bind
      intro offset
      apply (Takes.checked _).bind
      intro zeroBytes
      -- The next page is a whole page further up.
      cases sum : segment.address.add pageSize with
      | error operation => exact ⟨fun _ _ => rfl⟩
      | ok next =>
          apply inductionHypothesis
          unfold Address.add at sum
          split at sum
          · cases sum
            simp only [Address.offset, pageSize] at *
            omega
          · cases sum

theorem takes_loadSegment_aligned (pid : Pid) (file : FileId) (segment : Segment) :
    (loadSegment pid file segment).Takes (Move.RegistersIn WholeUser) := by
  apply (Takes.checked _).bind
  intro size
  apply Takes.ite
  · intro _
    exact ⟨fun before _ => .refl before⟩
  · intro accepted
    apply takes_loadPages_aligned
    simp only [Bool.or_eq_true, Bool.not_eq_true', not_or, Bool.not_eq_false] at accepted
    simpa [Address.isPageAligned] using accepted.1.2

theorem takes_setUpStack_aligned (pid : Pid) :
    (setUpStack pid).Takes (Move.RegistersIn WholeUser) := by
  apply (takes_registerPage_aligned pid (by decide) true .stack none).bind
  intro _
  apply (takes_makeResident_in pid _).bind
  intro _
  have pointer : (setStackPointer pid VirtAddr.stackTop).Takes (Move.RegistersIn WholeUser) :=
    (takes_setStackPointer pid VirtAddr.stackTop).mono fun _ same => by
      rw [same]
      exact nofun
  apply pointer.bind
  intro _
  exact Takes.pure _

/-- A file is mapped at a user address. -/
theorem ends_mapFile_isUser (before : Machine) (pid : Pid) (address : VirtAddr) (length : Nat)
    (writable : Bool) (file : FileId) (offset : Nat) :
    (mapFile pid address length writable file offset before).Ends
      (fun _ _ => address.isUser = true) (fun _ _ => True) (fun _ => True) := by
  simp only [mapFile, Action.ends_bind, Action.ends_get]
  split
  case isTrue => trivial
  case isFalse accepted =>
    have user : address.isUser = true := by
      simp only [Bool.or_eq_true, Bool.not_eq_true', not_or, Bool.not_eq_false] at accepted
      exact accepted.2
    -- It does not matter how the rest ends.
    exact Outcome.ends_self.imp (fun _ _ _ => user) (fun _ _ _ => trivial) (fun _ _ => trivial)

/-- Where no page is registered at address zero, none comes to be there. -/
theorem NullFree.of_path {allowed : Move → Prop} (free : before.NullFree)
    (path : Path allowed before after) (sound : before.Sound)
    (elsewhere : ∀ pid kind, ¬allowed (.register pid VirtAddr.null kind)) : after.NullFree := by
  intro pid
  by_contra present
  obtain ⟨page, found⟩ := Option.ne_none_iff_exists'.1 present
  exact elsewhere pid page.kind (path.allows_register sound (free pid) found)

theorem NullFree.leaves_of_takes {Value : Type} {action : Action Machine Value}
    (free : before.NullFree) (sound : before.Sound)
    (takes : action.Takes (Move.RegistersIn WholeUser)) : (action before).Leaves NullFree := by
  have stays {after : Machine} (path : Path (Move.RegistersIn WholeUser) before after) :
      after.NullFree := by
    apply free.of_path path sound
    intro pid kind registers
    exact (registers pid VirtAddr.null kind rfl).2.ne_null rfl
  exact (takes.ends before sound).leaves (fun _ _ => stays) (fun _ _ => stays)

/-- The pages of a mapping begin at its start, which is no part of the page at address zero. -/
theorem MapsFile.nullFree {mapping : Mapping} {offset length : Nat}
    (maps : before.MapsFile pid offset length mapping after) (sound : before.Sound)
    (user : mapping.start.isUser = true) (free : before.NullFree) : after.NullFree := by
  intro other
  by_contra present
  obtain ⟨page, found⟩ := Option.ne_none_iff_exists'.1 present
  cases ofFile : page.mapping? with
  | none =>
      have anonymous := Page.mapping?_eq_none_iff.1 ofFile
      have registers := maps.path.allows_register sound (free other) found
      rw [anonymous] at registers
      rcases registers with same | ⟨_, same⟩
      · cases same
      · cases same
  | some belongs =>
      have mapped : after.mapping? other VirtAddr.null = some belongs := by
        rw [mapping?, found]
        exact ofFile
      have uncovered : ¬(other = pid ∧ mapping.Covers VirtAddr.null) := by
        rintro ⟨-, index, -, here⟩
        rw [Address.isUser, decide_eq_true_eq] at user
        simp only [VirtAddr.null] at here
        omega
      rw [maps.mapping?_outside sound uncovered, mapping?, free] at mapped
      cases mapped

theorem NullFree.leaves_mapFile (free : before.NullFree) (sound : before.Sound) (pid : Pid)
    (address : VirtAddr) (length : Nat) (writable : Bool) (file : FileId) (offset : Nat) :
    (mapFile pid address length writable file offset before).Leaves NullFree := by
  have maps : (mapFile pid address length writable file offset before).Ends _ _ _ :=
    ends_mapFile_mapsFile sound address length writable file offset
  have user := ends_mapFile_isUser before pid address length writable file offset
  refine (maps.and user).leaves ?_ ?_
  · intro _ after mapped
    obtain ⟨⟨-, mapping, start, -, maps⟩, user⟩ := mapped
    exact maps.nullFree sound (start ▸ user) free
  · intro _ after refused
    rw [refused.1]
    exact free

theorem NullFree.leaves_mmapCall (free : before.NullFree) (sound : before.Sound) (pid : Pid)
    (word length : Nat) (writable : Bool) (file? : Option FileId) (offset : Nat) :
    (mmapCall pid word length writable file? offset before).Leaves NullFree := by
  refine (ends_mmapCall_mapsFile sound word length writable file? offset).leaves ?_ ?_
  · intro _ after result
    rcases result with ⟨file, mapping, -, given, -, -, maps⟩ | ⟨-, same⟩
    · exact maps.nullFree sound (Option.filter_eq_some_iff.1 given).2 free
    · rw [same]
      exact free
  · intro _ _ never
    exact never.elim

/-- A copy has pages at the addresses at which the original has some. -/
theorem NullFree.leaves_fork (free : before.NullFree) (sound : before.Sound)
    (whole : ∀ pid, before.MappingsWhole pid) (parent : Pid) :
    (fork parent before).Leaves NullFree := by
  have others {pid : Pid} {after : Machine} (different : pid ≠ ⟨before.nextPid⟩)
      (path : Path (Move.Concerns ⟨before.nextPid⟩) before after) :
      after.page? pid VirtAddr.null = none := by
    by_contra present
    obtain ⟨page, found⟩ := Option.ne_none_iff_exists'.1 present
    exact different (path.allows_register sound (free pid) found)
  refine (ends_fork sound whole parent).leaves ?_ ?_
  · intro child after forked pid
    obtain ⟨rfl, ⟨copies, copying⟩, -⟩ := forked
    by_cases same : pid = ⟨before.nextPid⟩
    · rw [same]
      exact copying.vacant VirtAddr.null (.inr (free parent))
    · exact others same copying.path
  · intro _ after refused pid
    obtain ⟨path, gone, -⟩ := refused
    by_cases same : pid = ⟨before.nextPid⟩
    · rw [same, page?, gone]
      rfl
    · exact others same path

/-- A page that is registered by itself at an address of the page at address zero is the only one
that comes to be there. -/
theorem NullFree.leaves_registerPage (free : before.NullFree) (writable : Bool)
    (marker : PageMarker) (loader : Option Loader) :
    (registerPage pid address writable marker (.anonymous loader) before).Leaves fun after =>
      after.NullFree ↔
        ¬(before.spaces[pid]?.isSome = true ∧ 0 < address.toNat ∧ address.toNat < pageSize) := by
  unfold registerPage
  split
  case isTrue user =>
    rw [Address.isUser, decide_eq_true_eq] at user
    have noMapping : ∀ mapping,
        (Page.create address writable marker (.untouched (.anonymous loader))).mapping? =
          some mapping → before.Admits pid mapping := by
      intro mapping mapped
      cases mapped
    refine (ends_insertPage rfl rfl (Address.offset_pageDown address) noMapping).leaves ?_ ?_
    · intro _ after inserted
      obtain ⟨step, pages⟩ := inserted
      obtain ⟨space, process⟩ := space_of_register step
      constructor
      · rintro freeAfter ⟨-, -, low⟩
        have found := pages pid VirtAddr.null
        rw [if_pos ⟨rfl, Address.pageDown_eq_null_iff.2 low⟩, freeAfter] at found
        cases found
      · intro elsewhere other
        rw [pages, if_neg]
        · exact free other
        · rintro ⟨rfl, here⟩
          exact elsewhere ⟨Option.isSome_of_eq_some process, Nat.pos_of_ne_zero user.1,
            Address.pageDown_eq_null_iff.1 here⟩
    · intro _ after refused
      obtain ⟨same, missing⟩ := refused
      rw [same]
      refine iff_of_true free ?_
      rintro ⟨process, -, low⟩
      have here : address.pageDown = VirtAddr.null := Address.pageDown_eq_null_iff.2 low
      have gone := missing ((congrArg (before.page? pid) here).trans (free pid))
      rw [stackPointer?, Option.map_eq_none_iff] at gone
      rw [gone] at process
      cases process
  case isFalse kernel =>
    rintro after ⟨⟩
    refine iff_of_true free ?_
    rintro ⟨-, positive, low⟩
    apply kernel
    rw [Address.isUser, decide_eq_true_eq]
    simp only [pageSize, kernelBase] at *
    omega

end Machine

/-- To forget the answer of an operation changes nothing about the state that it leaves behind. -/
theorem Action.state?_forget {Value : Type} (action : Action Machine Value) (machine : Machine) :
    ((action >>= fun _ => pure ()) machine).state? = (action machine).state? := by
  rw [Action.bind_apply]
  cases action machine <;> rfl

/-! ## Events -/

namespace Event

variable {event : Event} {before after : Machine}

/-- An event keeps clear of the page at address zero exactly if it does not register a page by
itself there. -/
theorem nullFree_iff (reachable : before.Reachable) (free : before.NullFree)
    (leaves : (event.perform before).state? = some after) :
    after.NullFree ↔ ¬event.RegistersNull before := by
  have sound := reachable.sound
  have whole := reachable.mappingsWhole
  have path := (leads_of_perform sound whole leaves).path
  have faults (handles : event.MayFault = true) : after.NullFree := by
    intro pid
    by_contra present
    obtain ⟨page, found⟩ := Option.ne_none_iff_exists'.1 present
    have grows := (event.growsTo sound handles leaves (free pid) found).2
    exact absurd grows.user (by decide)
  cases event with
  | registerPage pid address writable marker loader =>
      exact free.leaves_registerPage writable marker loader after leaves
  | handleFault _ _ | readUser _ _ _ | writeUser _ _ _ => exact iff_of_true (faults rfl) id
  | loadSegment pid file segment =>
      have stays := free.leaves_of_takes sound (takes_loadSegment_aligned pid file segment)
      exact iff_of_true (stays after leaves) id
  | setUpStack pid =>
      rw [perform, Action.state?_forget] at leaves
      have stays := free.leaves_of_takes sound (takes_setUpStack_aligned pid)
      exact iff_of_true (stays after leaves) id
  | fork parent =>
      rw [perform, Action.state?_forget] at leaves
      exact iff_of_true (free.leaves_fork sound whole parent after leaves) id
  | mapFile pid address length writable file offset =>
      rw [perform, Action.state?_forget] at leaves
      have stays := free.leaves_mapFile sound pid address length writable file offset
      exact iff_of_true (stays after leaves) id
  | mmapCall pid word length writable file? offset =>
      rw [perform, Action.state?_forget] at leaves
      have stays := free.leaves_mmapCall sound pid word length writable file? offset
      exact iff_of_true (stays after leaves) id
  | createProcess | setStackPointer _ _ | access _ _ _
  | changeDisk _ _ | changeFiles _ | changeWorld _ =>
      refine iff_of_true (free.of_path path sound fun other kind same => ?_) id
      cases same
  | exit _ | makeResident _ _ => exact iff_of_true (free.of_path path sound fun _ _ => id) id
  | unmapFile _ _ | munmapCall _ _ =>
      refine iff_of_true (free.of_path path sound fun other kind allow => ?_) id
      obtain ⟨_, same⟩ := allow
      cases same

end Event

namespace Machine

variable {before after machine next last : Machine} {pid : Pid} {address : VirtAddr} {write : Bool}
  {events : List Event}

/-- A run keeps clear of the page at address zero as long as no page is registered there by
itself. -/
theorem Reachable.nullFree_iff (reachable : machine.Reachable) (free : machine.NullFree)
    (run : machine.after? events = some last) :
    (∀ past state, past <+: events → machine.after? past = some state → state.NullFree) ↔
      ∀ past event before, past ++ [event] <+: events → machine.after? past = some before →
        ¬event.RegistersNull before := by
  induction events generalizing machine with
  | nil =>
      constructor
      · intro _ past event before earlier
        simp at earlier
      · intro _ past state earlier reached
        rw [List.prefix_nil] at earlier
        subst earlier
        cases reached
        exact free
  | cons event rest inductionHypothesis =>
      obtain ⟨next, leaves, run⟩ := Option.bind_eq_some_iff.1 run
      have here := event.nullFree_iff reachable free leaves
      have later (freeNext : next.NullFree) :=
        inductionHypothesis (reachable.next event leaves) freeNext run
      rw [forall_states_cons leaves, forall_events_cons leaves]
      constructor
      · intro states
        have freeNext := states.2 [] next List.nil_prefix rfl
        exact ⟨here.1 freeNext, (later freeNext).1 states.2⟩
      · intro quiet
        exact ⟨free, (later (here.2 quiet.1)).2 quiet.2⟩

/-! ## Accesses to the page at address zero -/

/-- The errors that end an access to the page at address zero. -/
def RefusesNull (error : Errno) : Prop :=
  error = .noSuchEntry ∨ error = .badAddress ∨ error = .invalidAccess

/-- A fault at the page at address zero is refused, and nothing happens by it. A stack may not grow
down to that page. -/
theorem handleFault_null (free : machine.NullFree) (pid : Pid) (reason : FaultReason)
    (low : reason.address.toNat < pageSize) :
    ∃ error, RefusesNull error ∧ handleFault pid reason machine = .failed error machine := by
  have here := Address.pageDown_eq_null_iff.2 low
  have notKernel : reason.address.isKernel = false := by
    rw [Address.isKernel, decide_eq_false_iff_not]
    simp only [pageSize, kernelBase] at *
    omega
  rw [handleFault_eq, notKernel, Bool.and_false, if_neg Bool.false_ne_true]
  cases found : machine.spaces[pid]? with
  | none => exact ⟨.noSuchEntry, .inl rfl, rfl⟩
  | some space =>
      rw [here, free]
      dsimp only
      split
      case isFalse => exact ⟨.badAddress, .inr (.inl rfl), rfl⟩
      case isTrue =>
        refine ⟨.invalidAccess, .inr (.inr rfl), ?_⟩
        have lowest : VirtAddr.stackPage (stackTop / pageSize - 1 + 1) = VirtAddr.null := by decide
        have unregistered : machine.hasStackPage pid (stackTop / pageSize - 1 + 1) = false := by
          rw [hasStackPage, lowest, free]
          rfl
        have count : (stackTop - reason.address.pageDown.toNat) / pageSize =
            stackTop / pageSize - 1 + 1 := by
          rw [here]
          rfl
        rw [growStack, count, growFrom_succ found, unregistered, if_neg Bool.false_ne_true, lowest]
        rfl

theorem locate_null (sound : machine.Sound) (free : machine.NullFree)
    (low : address.toNat < pageSize) :
    ∃ error, RefusesNull error ∧ locate pid address write machine = .failed error machine := by
  have here := Address.pageDown_eq_null_iff.2 low
  have accesses := ends_access sound pid address write
  simp only [locate, Action.bind_apply, space]
  cases found : machine.spaces[pid]? with
  | none => exact ⟨.noSuchEntry, .inl rfl, rfl⟩
  | some target =>
      simp only [Action.require, Action.pure_apply]
      cases accessed : access pid address write machine with
      | halted fault =>
          rw [accessed] at accesses
          exact accesses.elim
      | failed error after =>
          rw [accessed] at accesses
          rw [accesses.2.1] at found
          cases found
      | done answer after =>
          rw [accessed] at accesses
          cases answer with
          | ok location =>
              obtain ⟨page, registered, -⟩ := accesses.2.2.accessible
              rw [here, free] at registered
              cases registered
          | error code =>
              obtain ⟨-, same, -⟩ := accesses
              rw [same]
              obtain ⟨error, refuses, handled⟩ :=
                handleFault_null free pid ⟨address, code, target.stackPointer⟩ low
              refine ⟨error, refuses, ?_⟩
              simp only [Action.bind_apply, handled]

/-- The first chunk of a run begins at the address of the run. -/
theorem locateChunk_null {chunk : Chunk} (sound : machine.Sound) (free : machine.NullFree)
    (pid : Pid) (write : Bool) (low : address.toNat < pageSize) (first : chunk.done = 0) :
    ∃ error, RefusesNull error ∧
      locateChunk pid address write chunk machine = .failed error machine := by
  have canonical : address.advance? chunk.done = some address := by
    rw [Address.advance?, first, VirtAddr.ofNat?_eq_some_iff]
    refine ⟨.inl ?_, rfl⟩
    simp only [pageSize] at low
    omega
  rw [locateChunk, canonical]
  exact locate_null sound free low

/-- A run that is not empty begins with a chunk at its start, and the others come after it. -/
theorem exists_first_chunk {length : Nat} (address : VirtAddr) (positive : 0 < length) :
    ∃ chunk rest, Chunk.split address.offset length = chunk :: rest ∧ chunk.done = 0 := by
  have tile := Chunk.tile_split address.offset_lt_pageSize length
  cases chunks : Chunk.split address.offset length with
  | nil =>
      rw [chunks] at tile
      exact absurd tile (Nat.ne_of_lt positive)
  | cons chunk rest =>
      rw [chunks] at tile
      exact ⟨chunk, rest, rfl, tile.1⟩

/-- Reading from the page at address zero fails, and nothing is copied, unless nothing is to be
read. -/
theorem readUser_null_iff (sound : machine.Sound) (free : machine.NullFree)
    (low : address.toNat < pageSize) (length : Nat) :
    0 < length ↔ ∃ error, RefusesNull error ∧
      readUser pid address length { machine } = .failed error { machine } := by
  constructor
  · intro positive
    obtain ⟨chunk, rest, chunks, first⟩ := exists_first_chunk address positive
    obtain ⟨error, refuses, located⟩ :=
      locateChunk_null sound free pid false low first
    refine ⟨error, refuses, ?_⟩
    have fails : readChunk pid address chunk { machine } = .failed error { machine } := by
      simp only [readChunk, fetchChunk, Action.bind_apply, Action.onPart, located]
    rw [readUser, chunks]
    show (readChunk pid address chunk >>= fun _ => rest.forM _) _ = _
    rw [Action.bind_apply, fails]
  · rintro ⟨error, -, failed⟩
    by_contra none
    rw [Nat.eq_zero_of_not_pos none] at failed
    cases failed

/-- Writing to the page at address zero fails, and nothing changes, unless nothing is to be
written. -/
theorem writeUser_null_iff (sound : machine.Sound) (free : machine.NullFree)
    (low : address.toNat < pageSize) (data : Array UInt8) :
    0 < data.size ↔ ∃ error, RefusesNull error ∧
      writeUser pid address data machine = .failed error machine := by
  constructor
  · intro positive
    obtain ⟨chunk, rest, chunks, first⟩ := exists_first_chunk address positive
    obtain ⟨error, refuses, located⟩ :=
      locateChunk_null sound free pid true low first
    refine ⟨error, refuses, ?_⟩
    have fails : writeChunk pid address data chunk machine = .failed error machine := by
      simp only [writeChunk, Action.bind_apply, located]
    rw [writeUser, chunks]
    show (writeChunk pid address data chunk >>= fun _ => rest.forM _) _ = _
    rw [Action.bind_apply, fails]
  · rintro ⟨error, -, failed⟩
    by_contra none
    rw [writeUser, Nat.eq_zero_of_not_pos none] at failed
    cases failed

/-! ## Runs -/

/-- In every state of a run, pages are at page aligned addresses below the kernel. None is at
address zero exactly as long as no page is registered by itself at another address of that page. In
a state without such a page, any access to the addresses below the first whole page fails and
changes nothing, apart from an access to no bytes. -/
theorem only_user_pages_iff {settings : Settings} {frames : Nat} {disk : Disk} {files : FileStore}
    (run : (create settings (FramePool.create frames) disk files).after? events = some last) :
    ((∀ past state, past <+: events →
        (create settings (FramePool.create frames) disk files).after? past = some state →
          state.OnlyUserPages) ↔
      ∀ past pid address writable marker loader before,
        past ++ [.registerPage pid address writable marker loader] <+: events →
        (create settings (FramePool.create frames) disk files).after? past = some before →
          before.spaces[pid]?.isSome = true → 0 < address.toNat → pageSize ≤ address.toNat) ∧
    ∀ past state, past <+: events →
      (create settings (FramePool.create frames) disk files).after? past = some state →
      (∀ pid address page, state.page? pid address = some page →
        page.address = address ∧ address.offset = 0 ∧ address.toNat < kernelBase) ∧
      (state.OnlyUserPages → ∀ pid address, address.toNat < pageSize →
        (∀ length, 0 < length ↔ ∃ error, RefusesNull error ∧
          readUser pid address length { machine := state } = .failed error { machine := state }) ∧
        ∀ data : Array UInt8, 0 < data.size ↔ ∃ error, RefusesNull error ∧
          writeUser pid address data state = .failed error state) := by
  have start : (create settings (FramePool.create frames) disk files).Reachable := .start ..
  have free : (create settings (FramePool.create frames) disk files).NullFree := by
    intro pid
    simp [create, page?]
  constructor
  · have users : (∀ past state, past <+: events →
        (create settings (FramePool.create frames) disk files).after? past = some state →
          state.OnlyUserPages) ↔ ∀ past state, past <+: events →
        (create settings (FramePool.create frames) disk files).after? past = some state →
          state.NullFree :=
      forall₄_congr fun past state _ reached => (start.of_after? reached).onlyUserPages_iff
    rw [users, start.nullFree_iff free run]
    constructor
    · intro quiet past pid address writable marker loader before earlier reached process positive
      by_contra low
      exact quiet past _ before earlier reached ⟨process, positive, Nat.lt_of_not_le low⟩
    · intro high past event before earlier reached registers
      cases event with
      | registerPage pid address writable marker loader =>
          obtain ⟨process, positive, low⟩ := registers
          have whole := high past pid address writable marker loader before earlier reached process
            positive
          exact absurd low (Nat.not_lt.2 whole)
      | _ => exact registers.elim
  · intro past state _ reached
    have reachable := start.of_after? reached
    constructor
    · intro pid address page registered
      obtain ⟨located, aligned⟩ := reachable.sound.frames.located registered
      exact ⟨located, aligned, reachable.userPages pid address page registered⟩
    · intro user pid address low
      have freeHere := reachable.onlyUserPages_iff.1 user
      exact ⟨fun length => readUser_null_iff reachable.sound freeHere low length,
        fun data => writeUser_null_iff reachable.sound freeHere low data⟩

/-- After some pages were written in turn, a read from the page at address zero fails. -/
theorem only_user_pages_crowding :
    ∃ last, tiny.after? crowding = some last ∧ last.OnlyUserPages ∧
      ∃ error, RefusesNull error ∧
        readUser ⟨1⟩ VirtAddr.null 1 { machine := last } = .failed error { machine := last } := by
  have runs : (tiny.after? crowding).isSome = true := by decide +kernel
  obtain ⟨last, run⟩ := Option.isSome_iff_exists.1 runs
  obtain ⟨registered, fails⟩ := only_user_pages_iff run
  have user : last.OnlyUserPages := by
    refine registered.2 ?_ crowding last (List.prefix_refl crowding) run
    intro past pid address writable marker loader before earlier _ _ _
    have member : Event.registerPage pid address writable marker loader ∈ crowding :=
      earlier.subset (by simp)
    simp only [crowding, List.mem_cons, List.not_mem_nil, or_false, reduceCtorEq, false_or,
      Event.registerPage.injEq] at member
    rcases member with ⟨-, rfl, -⟩ | ⟨-, rfl, -⟩
    · decide
    · decide
  refine ⟨last, run, user, ?_⟩
  exact (((fails crowding last (List.prefix_refl crowding) run).2 user ⟨1⟩ VirtAddr.null
    (by decide)).1 1).1 Nat.one_pos

/-- A process registers a page by its second address. -/
def registeringNull : List Event :=
  [.createProcess, .registerPage ⟨1⟩ ⟨1, by decide⟩ true .normal none]

/-- The page at address zero is there then, and it can be read. -/
theorem null_page_registered :
    ∃ last page, tiny.after? registeringNull = some last ∧
      last.page? ⟨1⟩ VirtAddr.null = some page ∧ ¬last.OnlyUserPages ∧
      (fetchUser ⟨1⟩ VirtAddr.null 1 last).answer? = some #[0] := by
  have runs : ((tiny.after? registeringNull).map fun last =>
      ((last.page? ⟨1⟩ VirtAddr.null).isSome,
        (fetchUser ⟨1⟩ VirtAddr.null 1 last).answer?)) = some (true, some #[0]) := by decide +kernel
  obtain ⟨last, run, found⟩ := Option.map_eq_some_iff.1 runs
  obtain ⟨present, answers⟩ := Prod.mk.inj found
  obtain ⟨page, registered⟩ := Option.isSome_iff_exists.1 present
  refine ⟨last, page, run, registered, fun user => ?_, answers⟩
  exact absurd (user ⟨1⟩ VirtAddr.null page registered).2.2 (by decide)

end Machine

end DemandPaging
