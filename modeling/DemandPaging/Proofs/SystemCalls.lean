import DemandPaging.Proofs.Exit
import DemandPaging.Proofs.MappingLayout

/-!
What the system calls that map and unmap files answer.

Owns:
- `Machine.Mappable`, the arguments with which a file can be mapped, said of the numbers that a user
  program passes and not in terms of the checks;
- `Machine.MapAnswer` and `Machine.UnmapAnswer`, what the calls answer and what becomes of the
  state;
- that they always answer: no sum or product leaves the range of machine words, and a mapping is
  always removed as a whole, as long as its pages can be written back.

Does not own: when a file is mapped and where its pages lie (`Machine.LaysOut`), and what their
removal does to frames and files (`Machine.Clears`).

The arguments are checked twice, first the numbers as they are passed, and then what is left of them
when the file ends early and the mapping is rounded up to whole pages. The second check refuses
nothing that passed the first one, unless a page is in the way.

Main statement: `Session.Reachable.calls_answer`.
-/

namespace DemandPaging

namespace Machine

/-- A part of a file can be mapped at an address of a process. -/
structure Mappable (machine : Machine) (pid : Pid) (word length : Nat) (file : FileId)
    (offset : Nat) : Prop where
  canonical : VirtAddr.Canonical word
  aligned : word % pageSize = 0
  notNull : word ≠ 0
  user : word < kernelBase
  positive : 0 < length
  lengthBelowKernel : length < kernelBase
  endBelowKernel : word + length ≤ kernelBase
  offsetAligned : offset % pageSize = 0
  offsetInFile : offset < machine.store.files.size file
  process : (machine.spaces[pid]?).isSome = true
  /-- None of the pages that the mapping takes is registered. -/
  vacant : ∀ place : VirtAddr, word ≤ place.toNat →
    place.toNat < word + machine.store.files.pagesOf file offset length * pageSize →
    machine.page? pid place = none

/-- What the call that maps a file answers. An address that the call answers is the one that was
passed, and a user address. -/
structure MapAnswer (before : Machine) (pid : Pid) (word length : Nat) (file? : Option FileId)
    (offset answer : Nat) (after : Machine) : Prop where
  succeeds : (answer = word ∧
      ∃ address, userAddress? answer = some address ∧ address.isPageAligned = true) ↔
    ∃ file, file? = some file ∧ before.Mappable pid word length file offset
  /-- In every other case an error is answered, and the state is what it was. -/
  fails : (¬∃ file, file? = some file ∧ before.Mappable pid word length file offset) →
    (∃ error : Errno, answer = error.word) ∧ after = before
  /-- The answer is read as an error if and only if there is one. -/
  decodes : (Errno.ofWord? answer).isSome = true ↔
    ¬∃ file, file? = some file ∧ before.Mappable pid word length file offset
  maps : ∀ file, file? = some file → before.Mappable pid word length file offset →
    ∃ mapping : Mapping, mapping.start.toNat = word ∧ mapping.file = file ∧
      before.MapsFile pid offset (min length (before.store.files.size file - offset)) mapping after

/-- A word names a user address inside a mapping of a file. -/
def NamesMapping (machine : Machine) (pid : Pid) (word : Nat) : Prop :=
  ∃ address mapping, userAddress? word = some address ∧
    machine.mapping? pid address.pageDown = some mapping

/-- What the call that removes a mapping answers. -/
structure UnmapAnswer (before : Machine) (pid : Pid) (word answer : Nat) (after : Machine) :
    Prop where
  succeeds : answer = 0 ↔ before.NamesMapping pid word
  /-- In every other case an error is answered, and the state is what it was. -/
  fails : ¬before.NamesMapping pid word → (∃ error : Errno, answer = error.word) ∧ after = before
  /-- The answer is read as an error if and only if there is one. -/
  decodes : (Errno.ofWord? answer).isSome = true ↔ ¬before.NamesMapping pid word
  unmaps : ∀ address mapping, userAddress? word = some address →
    before.mapping? pid address.pageDown = some mapping → before.UnmapsFile pid mapping after

variable {before after machine : Machine} {pid : Pid} {address : VirtAddr} {mapping : Mapping}
  {page : Page} {word length offset : Nat} {file : FileId} {file? : Option FileId}
  {base : FileId → Int}

/-! ## Arguments -/

theorem userAddress?_eq_some_iff : userAddress? word = some address ↔
    VirtAddr.Canonical word ∧ address.toNat = word ∧ word ≠ 0 ∧ word < kernelBase := by
  rw [userAddress?, Option.filter_eq_some_iff, VirtAddr.ofNat?_eq_some_iff, Address.isUser,
    decide_eq_true_eq]
  constructor
  · rintro ⟨⟨canonical, rfl⟩, user⟩
    exact ⟨canonical, rfl, user⟩
  · rintro ⟨canonical, rfl, user⟩
    exact ⟨⟨canonical, rfl⟩, user⟩

/-- A user address is not read as an error. -/
theorem ofWord?_of_user (user : word < kernelBase) : Errno.ofWord? word = none :=
  Errno.ofWord?_eq_none (Nat.lt_trans user (by decide))

/-- The sum that the check of the arguments computes is that of a user address and a length below
the kernel, so it is always a machine word. -/
theorem validMapping_eq_ok (files : FileStore) (user : address.toNat < kernelBase) (length : Nat)
    (file : FileId) (offset : Nat) :
    validMapping files address length file offset = .ok (decide (0 < length ∧ length < kernelBase ∧
      address.toNat + length ≤ kernelBase ∧ offset % pageSize = 0 ∧ offset < files.size file)) := by
  unfold validMapping
  split
  case isTrue refused =>
    simp only [Bool.or_eq_true, decide_eq_true_eq] at refused
    rw [decide_eq_false (by omega)]
    rfl
  case isFalse accepted =>
    simp only [Bool.or_eq_true, decide_eq_true_eq] at accepted
    have sum : Word.add address.toNat length = .ok (address.toNat + length) := by
      refine Word.add_eq_ok_iff.2 ⟨?_, rfl⟩
      simp only [kernelBase, Word.limit] at *
      omega
    have positive : 0 < length := by omega
    have short : length < kernelBase := by omega
    rw [sum]
    simp [pure, Except.pure, bind, Except.bind, positive, short, Bool.and_assoc]

/-- The pages of a mapping that ends below the kernel can be listed. -/
theorem exists_pages_of_mapping
    (below : mapping.start.toNat + mapping.pageCount * pageSize ≤ kernelBase) :
    ∃ range, mapping.pages = .ok range := by
  have product : Word.mul mapping.pageCount pageSize = .ok (mapping.pageCount * pageSize) := by
    refine Word.mul_eq_ok_iff.2 ⟨?_, rfl⟩
    simp only [kernelBase, Word.limit] at *
    omega
  rw [Mapping.pages, product]
  refine Address.exists_pages (.inr ?_)
  simp only [kernelBase, pageSize, Word.limit] at *
  omega

/-! ## Mapping a file -/

/-- Where the numbers are acceptable, only a missing process or a page that is in the way refuse a
mapping, and nothing stops the machine. -/
theorem ends_mapFile_mappable (sound : before.Sound) (aligned : address.offset = 0)
    (user : address.isUser = true) (positive : 0 < length)
    (below : address.toNat + length ≤ kernelBase)
    (inFile : offset < before.store.files.size file)
    (sized : before.store.files.size file < Word.limit) (writable : Bool) :
    (mapFile pid address length writable file offset before).Ends
      (fun _ _ => (before.spaces[pid]?).isSome = true ∧
        ∀ place : VirtAddr, address.toNat ≤ place.toNat →
          place.toNat < address.toNat + before.store.files.pagesOf file offset length * pageSize →
          before.page? pid place = none)
      (fun _ _ => ¬((before.spaces[pid]?).isSome = true ∧
        ∀ place : VirtAddr, address.toNat ≤ place.toNat →
          place.toNat < address.toNat + before.store.files.pagesOf file offset length * pageSize →
          before.page? pid place = none))
      (fun _ => False) := by
  have fits : before.Fits address file offset length := by
    have covers : 0 < before.covered file offset length := by
      unfold covered
      omega
    refine ⟨covers, isPageAligned_iff.2 aligned, user, ?_⟩
    unfold FileStore.pagesOf
    simp only [Address.offset, kernelBase, pageSize] at *
    omega
  have rounded : before.store.files.pagesOf file offset length * pageSize < Word.limit := by
    have inside := fits.below
    simp only [kernelBase, Word.limit] at *
    omega
  refine (ends_mapFile_laysOut sound pid address length writable file offset sized rounded).imp
    ?_ ?_ (fun _ no => no)
  · rintro answer after ⟨-, -, process, vacant, -⟩
    exact ⟨process, vacant⟩
  · rintro error after ⟨-, refused⟩ mappable
    exact refused.not_mappable ⟨fits, mappable⟩

/-- A user program is refused exactly what cannot be mapped, and nothing stops the machine. -/
theorem ends_mapForUser (sound : before.Sound)
    (sized : ∀ file, file? = some file → before.store.files.size file < Word.limit)
    (writable : Bool) :
    (mapForUser pid word length writable file? offset before).Ends
      (fun address after => address.toNat = word ∧
        ∃ (file : FileId) (mapping : Mapping), file? = some file ∧
          before.Mappable pid word length file offset ∧ mapping.start = address ∧
          mapping.file = file ∧ before.MapsFile pid offset
            (min length (before.store.files.size file - offset)) mapping after)
      (fun _ after => after = before ∧
        ¬∃ file, file? = some file ∧ before.Mappable pid word length file offset)
      (fun _ => False) := by
  simp only [mapForUser, Action.ends_bind, Action.ends_require, Action.ends_get]
  refine ⟨fun file given => ⟨fun address named => ?_, fun unnamed => ⟨trivial, ?_⟩⟩,
    fun none => ⟨trivial, ?_⟩⟩
  · obtain ⟨isUser, isAligned⟩ := Option.filter_eq_some_iff.1 named
    obtain ⟨canonical, rfl, notNull, user⟩ := userAddress?_eq_some_iff.1 isUser
    have aligned := isPageAligned_iff.1 isAligned
    rw [validMapping_eq_ok _ user]
    simp only [Action.ends_checked]
    refine Action.of_result_eq_ok rfl ?_
    split
    case isTrue refused =>
      rw [Bool.not_eq_true', decide_eq_false_iff_not] at refused
      refine ⟨rfl, ?_⟩
      rintro ⟨other, also, mappable⟩
      rw [given, Option.some.injEq] at also
      subst also
      exact refused ⟨mappable.positive, mappable.lengthBelowKernel, mappable.endBelowKernel,
        mappable.offsetAligned, mappable.offsetInFile⟩
    case isFalse accepted =>
      rw [Bool.not_eq_true', Bool.not_eq_false, decide_eq_true_eq] at accepted
      obtain ⟨positive, short, below, offsetAligned, inFile⟩ := accepted
      have isUserAddress : address.isUser = true := decide_eq_true ⟨notNull, user⟩
      refine ((ends_mapFile_mapsFile sound address length writable file offset).and
        (ends_mapFile_mappable sound aligned isUserAddress positive below inFile (sized file given)
          writable)).imp ?_ ?_ (fun _ no => no.2)
      · rintro answer after ⟨⟨rfl, mapping, start, sameFile, maps⟩, process, vacant⟩
        refine ⟨rfl, file, mapping, given, ?_, start, sameFile, maps⟩
        exact ⟨canonical, aligned, notNull, user, positive, short, below, offsetAligned, inFile,
          process, vacant⟩
      · rintro error after ⟨same, refused⟩
        refine ⟨same, ?_⟩
        rintro ⟨other, also, mappable⟩
        rw [given, Option.some.injEq] at also
        subst also
        exact refused ⟨mappable.process, mappable.vacant⟩
  · rintro ⟨other, -, mappable⟩
    obtain ⟨address, same⟩ : ∃ address : VirtAddr, address.toNat = word :=
      ⟨⟨word, Nat.lt_trans mappable.user (by decide)⟩, rfl⟩
    have isUser : userAddress? word = some address :=
      userAddress?_eq_some_iff.2 ⟨mappable.canonical, same, mappable.notNull, mappable.user⟩
    have isAligned : address.isPageAligned = true :=
      isPageAligned_iff.2 (same ▸ mappable.aligned)
    rw [Option.filter_eq_some_iff.2 ⟨isUser, isAligned⟩] at unnamed
    cases unnamed
  · rintro ⟨file, given, -⟩
    rw [none] at given
    cases given

/-- The call that maps a file always answers. -/
theorem exists_mmapCall (sound : before.Sound)
    (sized : ∀ file, file? = some file → before.store.files.size file < Word.limit)
    (writable : Bool) :
    ∃ answer after, mmapCall pid word length writable file? offset before = .done answer after ∧
      before.MapAnswer pid word length file? offset answer after := by
  have ends : (mmapCall pid word length writable file? offset before).Ends
      (fun answer after => before.MapAnswer pid word length file? offset answer after)
      (fun _ _ => False) (fun _ => False) := by
    simp only [mmapCall, Action.ends_bind, Action.ends_attempt]
    refine (ends_mapForUser sound sized writable).imp ?_ ?_ (fun _ no => no)
    · rintro address after ⟨same, file, mapping, given, mappable, start, sameFile, maps⟩
      have isMappable : ∃ file, file? = some file ∧
          before.Mappable pid word length file offset := ⟨file, given, mappable⟩
      have isUser : userAddress? word = some address :=
        userAddress?_eq_some_iff.2 ⟨mappable.canonical, same, mappable.notNull, mappable.user⟩
      simp only [Action.ends_pure]
      rw [same]
      refine ⟨iff_of_true ⟨rfl, address, isUser, isPageAligned_iff.2 (same ▸ mappable.aligned)⟩
        isMappable, fun refused => absurd isMappable refused, ?_, ?_⟩
      · rw [ofWord?_of_user mappable.user]
        exact iff_of_false Bool.false_ne_true (not_not_intro isMappable)
      · intro other also _
        rw [given, Option.some.injEq] at also
        subst also
        exact ⟨mapping, start ▸ same, sameFile, maps⟩
    · rintro error after ⟨same, refused⟩
      simp only [Action.ends_pure]
      refine ⟨iff_of_false ?_ refused, fun _ => ⟨⟨error, rfl⟩, same⟩, ?_,
        fun file given mappable => absurd ⟨file, given, mappable⟩ refused⟩
      · rintro ⟨-, address, named, -⟩
        rw [Event.userAddress?_word] at named
        cases named
      · rw [Errno.ofWord?_word]
        exact iff_of_true rfl refused
  cases ran : mmapCall pid word length writable file? offset before with
  | done answer after =>
      rw [ran] at ends
      exact ⟨answer, after, rfl, ends⟩
  | failed _ _ | halted _ =>
      rw [ran] at ends
      exact ends.elim

/-! ## Removing a mapping -/

/-- While pages of a process are removed, those that are left are what they were, and what is to be
written for them can still be written. -/
theorem canSave_of_unmaps (path : Path (Move.Unmaps pid) before after) (sound : before.Sound)
    (registered : after.page? pid address = some page) :
    before.page? pid address = some page ∧
      (before.CanSave pid page → after.CanSave pid page) := by
  induction path with
  | refl => exact ⟨registered, id⟩
  | @tail middle after earlier stepped inductionHypothesis =>
      obtain ⟨move, ⟨removed, rfl⟩, step⟩ := stepped
      have soundMiddle := Path.sound earlier sound
      obtain ⟨gone, atGone, rfl, -, pages⟩ := step.page?_of_remove soundMiddle.frames
      rw [pages] at registered
      split at registered
      case isTrue => cases registered
      case isFalse elsewhere =>
        obtain ⟨known, canSave⟩ := inductionHypothesis registered
        obtain ⟨rfl, -⟩ := soundMiddle.frames.located registered
        refine ⟨known, fun canSaveBefore => ?_⟩
        exact (canSave canSaveBefore).of_remove step soundMiddle atGone registered
          fun same => elsewhere ⟨rfl, same⟩

/-- A mapping whose pages can be written back is removed, and nothing stops the machine. -/
theorem Balanced.ends_unmapFile (balanced : before.Balanced base) (sound : before.Sound)
    (whole : before.MappingsWhole pid) (below : before.BelowKernel)
    (handles : ∀ file, 0 ≤ base file)
    (canSave : ∀ mapping, before.mapping? pid address.pageDown = some mapping →
      ∀ page ∈ before.pagesOf pid, page.mapping? = some mapping → before.CanSave pid page) :
    (unmapFile pid address before).Ends
      (fun _ after => ∃ mapping, before.mapping? pid address.pageDown = some mapping ∧
        before.UnmapsFile pid mapping after)
      (fun _ after => after = before ∧ before.mapping? pid address.pageDown = none)
      (fun _ => False) := by
  refine (ends_unmapFile_cases (fun _ => False) sound whole address ?_).imp
    (fun _ _ unmaps => unmaps) (fun _ _ none => none) ?_
  · intro state place page mapping atAddress path registered mapped
    have soundState := path.sound sound
    have balancedState := path.balanced sound (fun _ unmaps => unmaps.keepsReferences) balanced
    obtain ⟨known, stillCanSave⟩ := canSave_of_unmaps path sound registered
    have listed := ((sound.frames.hasPages pid).listed _ _).1 known
    exact stops_unmapPage_of_destroyPage soundState registered mapping fun space found atPage =>
      balancedState.stops_destroyPage_of_canSave soundState handles found atPage
        (stillCanSave (canSave mapping atAddress page listed.1 mapped))
  · intro fault stopped
    cases stopped with
    | overflow known overflows =>
        obtain ⟨range, listed⟩ := exists_pages_of_mapping (below pid _ _ known)
        rw [listed] at overflows
        cases overflows
    | page no => exact no
    | referenced unmaps left =>
        exact Nat.not_lt.2 (Nat.le_of_eq (unmaps.referenceCount_eq_zero sound whole balanced)) left

/-- The call that removes a mapping always answers, if the pages of the mapping can be written
back. -/
theorem Balanced.exists_munmapCall (balanced : before.Balanced base) (sound : before.Sound)
    (whole : before.MappingsWhole pid) (below : before.BelowKernel)
    (handles : ∀ file, 0 ≤ base file)
    (canSave : ∀ address mapping, userAddress? word = some address →
      before.mapping? pid address.pageDown = some mapping →
      ∀ page ∈ before.pagesOf pid, page.mapping? = some mapping → before.CanSave pid page) :
    ∃ answer after, munmapCall pid word before = .done answer after ∧
      before.UnmapAnswer pid word answer after := by
  have refuses (error : Errno) (refused : ¬before.NamesMapping pid word) :
      before.UnmapAnswer pid word error.word before := by
    refine ⟨iff_of_false (fun same => ?_) refused, fun _ => ⟨⟨error, rfl⟩, rfl⟩, ?_,
      fun address mapping named atAddress => absurd ⟨address, mapping, named, atAddress⟩ refused⟩
    · cases error <;> cases same
    · rw [Errno.ofWord?_word]
      exact iff_of_true rfl refused
  have ends : (munmapCall pid word before).Ends
      (fun answer after => before.UnmapAnswer pid word answer after)
      (fun _ _ => False) (fun _ => False) := by
    simp only [munmapCall, unmapForUser, Action.ends_bind, Action.ends_attempt,
      Action.ends_require]
    refine ⟨fun address named => ?_, fun unnamed => refuses .invalidArgument ?_⟩
    · refine (balanced.ends_unmapFile sound whole below handles
        fun mapping => canSave address mapping named).imp ?_ ?_ (fun _ no => no)
      · rintro _ after ⟨mapping, atAddress, unmaps⟩
        have names : before.NamesMapping pid word := ⟨address, mapping, named, atAddress⟩
        refine ⟨iff_of_true rfl names, fun refused => absurd names refused,
          iff_of_false (by decide) (not_not_intro names), fun other found also atOther => ?_⟩
        rw [named, Option.some.injEq] at also
        subst also
        rw [atAddress, Option.some.injEq] at atOther
        exact atOther ▸ unmaps
      · rintro error after ⟨rfl, none⟩
        refine refuses error ?_
        rintro ⟨other, mapping, also, atAddress⟩
        rw [named, Option.some.injEq] at also
        subst also
        rw [none] at atAddress
        cases atAddress
    · rintro ⟨other, mapping, also, -⟩
      rw [unnamed] at also
      cases also
  cases ran : munmapCall pid word before with
  | done answer after =>
      rw [ran] at ends
      exact ⟨answer, after, rfl, ends⟩
  | failed _ _ | halted _ =>
      rw [ran] at ends
      exact ends.elim

end Machine

namespace Session

open Machine

variable {session : Session}

/-- In every reachable state the calls that map and unmap files answer, whatever numbers are passed
to them. The first one, for a file whose size is a machine word, answers the address that was passed
if and only if the file can be mapped there. The second one answers 0 if and only if the address is
one of a mapping, provided that the pages of the mapping can be written back. In every other case
they answer an error and change nothing, and no other answer is read as an error. -/
theorem Reachable.calls_answer (reachable : session.Reachable) (pid : Pid) (word : Nat) :
    (∀ length writable file? offset,
      (∀ file, file? = some file → session.machine.store.files.size file < Word.limit) →
      ∃ answer after,
        mmapCall pid word length writable file? offset session.machine = .done answer after ∧
          session.machine.MapAnswer pid word length file? offset answer after) ∧
    ((∀ address mapping, userAddress? word = some address →
        session.machine.mapping? pid address.pageDown = some mapping →
        ∀ page ∈ session.machine.pagesOf pid, page.mapping? = some mapping →
          session.machine.CanSave pid page) →
      ∃ answer after, munmapCall pid word session.machine = .done answer after ∧
        session.machine.UnmapAnswer pid word answer after) := by
  have balanced := reachable.balanced
  constructor
  · intro length writable file? offset sized
    exact exists_mmapCall balanced.sound sized writable
  · intro canSave
    exact balanced.balanced.exists_munmapCall balanced.sound (balanced.whole pid)
      reachable.machine.belowKernel (fun _ => Int.natCast_nonneg _) canSave

/-- A file is mapped once more, behind its dirty page, and its first mapping is removed by a byte of
that page. -/
theorem calls_answer_holding :
    ∃ session mapped unmapped, Session.after? { machine := tinyWithFile } holding = some session ∧
      mmapCall ⟨1⟩ 0x3000 4097 true (some 0) 0 session.machine = .done 0x3000 mapped ∧
      session.machine.MapAnswer ⟨1⟩ 0x3000 4097 (some 0) 0 0x3000 mapped ∧
      munmapCall ⟨1⟩ 0x2001 session.machine = .done 0 unmapped ∧
      session.machine.UnmapAnswer ⟨1⟩ 0x2001 0 unmapped := by
  have holds : (Session.after? { machine := tinyWithFile } holding).any (fun session =>
      (∀ page ∈ session.machine.pagesOf ⟨1⟩, session.machine.CanSave ⟨1⟩ page) ∧
      session.machine.store.files.size 0 = 3 ∧
      (mmapCall ⟨1⟩ 0x3000 4097 true (some 0) 0 session.machine).answer? = some 0x3000 ∧
      (munmapCall ⟨1⟩ 0x2001 session.machine).answer? = some 0) = true := by
    decide +kernel
  obtain ⟨session, run, state⟩ := (Option.any_eq_true _ _).1 holds
  obtain ⟨canSave, size, maps, unmaps⟩ := of_decide_eq_true state
  have start : Reachable { machine := tinyWithFile } :=
    .start fun file => by cases file <;> simp [FileStore.handles]
  have keeps : ∀ call ∈ holding, call.KeepsHandles := by
    simp [holding, Call.KeepsHandles, Event.KeepsHandles]
  have reachable := start.of_after? keeps run
  obtain ⟨answer, mapped, mapRan, mapAnswer⟩ :=
    (reachable.calls_answer ⟨1⟩ 0x3000).1 4097 true (some 0) 0 fun file given => by
      cases given
      rw [size]
      decide
  obtain ⟨reply, unmapped, unmapRan, unmapAnswer⟩ :=
    (reachable.calls_answer ⟨1⟩ 0x2001).2 fun _ _ _ _ page listed _ => canSave page listed
  rw [mapRan] at maps
  rw [unmapRan] at unmaps
  cases maps
  cases unmaps
  exact ⟨session, mapped, unmapped, run, mapRan, mapAnswer, unmapRan, unmapAnswer⟩

end Session

end DemandPaging
