import DemandPaging.Machine.Replies
import DemandPaging.Proofs.PageMoves
import DemandPaging.Proofs.Reachable

/-!
No event shows what an earlier owner left in a frame.

Owns:
- that the operations on many pages and on the memory of a process ignore what is in free frames;
- the same of every event (`Event.endSame_respond`), and of a run of events (`SameButFree.run`);
- `Machine.LooksLike`, two machines of which nobody can tell which is which.

Does not own: operations on one page (`ignoresFree_makeResident`, `endSame_destroyPage`), and which
bytes a page comes in with (`Sound.incoming_of_makeResident`).

Main statement: `Reachable.no_residue`.
-/

namespace DemandPaging

open Machine Outcome DemandPaging.Action

namespace Machine

variable {left right : Machine} {pid : Pid} {address : VirtAddr}

theorem SameButFree.settings (same : left.SameButFree right) : right.settings = left.settings := by
  obtain ⟨pool, -, rfl⟩ := same
  rfl

/-- A process is the same in both machines. -/
theorem SameButFree.endAlike_space_bind {Value : Type} {done : Value → Machine → Machine → Prop}
    {next nextTwin : AddressSpace → Action Machine Value} (same : left.SameButFree right)
    (goOn : ∀ target, left.spaces[pid]? = some target →
      EndAlike done (fun _ => SameButFree) (next target left) (nextTwin target right)) :
    EndAlike done (fun _ => SameButFree) ((space pid >>= next) left)
      ((space pid >>= nextTwin) right) := by
  have sameSpace : space pid right = Action.require .noSuchEntry left.spaces[pid]? right := by
    rw [space, same.spaces]
  rw [bind_apply, bind_apply, sameSpace]
  exact endAlike_require_bind goOn fun _ => same

/-- Looking up a process takes no steps. -/
theorem ignoresFree_space_bind {Value : Type} {next : AddressSpace → Action Machine Value}
    (ignores : ∀ space, (next space).IgnoresFree) : (space pid >>= next).IgnoresFree :=
  (avoidsFrames_space pid).ignoresFree.bind
    (Takes.space pid : (space pid).Takes Move.IsUnseen) ignores

/-! ## Faults -/

theorem ignoresFree_growFrom (pid : Pid) (pagesAbove : Nat) :
    (growFrom pid pagesAbove).IgnoresFree := by
  induction pagesAbove with
  | zero => exact (AvoidsFrames.pure ()).ignoresFree
  | succ pagesAbove inductionHypothesis =>
      refine ignoresFree_space_bind fun target => ?_
      refine .ite (AvoidsFrames.pure ()).ignoresFree ?_
      refine (avoidsFrames_registerPage ..).ignoresFree.bind (takes_registerPage ..) fun _ => ?_
      exact (ignoresFree_makeResident ..).bind (takes_makeResident ..) fun _ => inductionHypothesis

theorem ignoresFree_handleFault (pid : Pid) (reason : FaultReason) :
    (handleFault pid reason).IgnoresFree := by
  refine .refuse _ (ignoresFree_space_bind fun target => ?_)
  cases target.pages.find? reason.address with
  | some page =>
      exact .ite (AvoidsFrames.fail _).ignoresFree (ignoresFree_makeResident ..)
  | none =>
      refine ⟨fun {left right} sound same => ?_⟩
      dsimp only
      rw [get_bind_apply, get_bind_apply, same.settings]
      exact (IgnoresFree.ite (ignoresFree_growFrom ..) (AvoidsFrames.fail _).ignoresFree).endSame
        sound same

theorem ignoresFree_setUpStack (pid : Pid) : (setUpStack pid).IgnoresFree := by
  refine (avoidsFrames_registerPage ..).ignoresFree.bind (takes_registerPage ..) fun _ => ?_
  refine (ignoresFree_makeResident ..).bind (takes_makeResident ..) fun _ => ?_
  exact ((avoidsFrames_setStackPointer ..).bind fun _ => .pure _).ignoresFree

/-! ## The memory of a process -/

theorem ignoresFree_locate (pid : Pid) (address : VirtAddr) (write : Bool) :
    (locate pid address write).IgnoresFree := by
  refine ignoresFree_space_bind fun target => ?_
  refine (avoidsFrames_access ..).ignoresFree.bind (takes_access ..) fun answer => ?_
  cases answer with
  | ok location => exact (AvoidsFrames.pure location).ignoresFree
  | error code =>
      refine (ignoresFree_handleFault ..).bind (takes_handleFault ..) fun _ => ?_
      refine ((avoidsFrames_access ..).bind fun repeated => ?_).ignoresFree
      cases repeated with
      | ok location => exact .pure location
      | error _ => exact .fail _

/-- A byte of a process leads to the same frame, which is on loan. -/
theorem endAlike_locateChunk (sound : left.Sound) (same : left.SameButFree right) (pid : Pid)
    (address : VirtAddr) (write : Bool) (chunk : Chunk) :
    EndAlike
      (fun location state twin => state.SameButFree twin ∧ state.Sound ∧
        state.resident.pool.isLoaned location.frame = true)
      (fun _ => SameButFree) (locateChunk pid address write chunk left)
      (locateChunk pid address write chunk right) := by
  have ignores : (locateChunk pid address write chunk).IgnoresFree :=
    .require_bind _ _ fun place _ => ignoresFree_locate pid place write
  refine ((ignores.endSame sound same).and_ends
    (ends_locateChunk sound pid address write chunk)).imp ?_ (fun _ _ _ both => both.1)
  rintro location state twin ⟨now, place, handled, -, path, step, reaches⟩
  have soundNow := step.sound (path.sound sound)
  exact ⟨now, soundNow, soundNow.frames.resident.isLoaned_of_owned reaches.owner⟩

/-- A chunk of the memory of a process holds the same bytes. -/
theorem ignoresFree_fetchChunk (pid : Pid) (address : VirtAddr) (chunk : Chunk) :
    (fetchChunk pid address chunk).IgnoresFree := by
  refine ⟨fun {left right} sound same => ?_⟩
  refine endAlike_bind _ (endAlike_locateChunk sound same pid address false chunk) ?_
  rintro location state twin ⟨now, -, loaned⟩
  rw [get_bind_apply, get_bind_apply]
  refine (now.read location.frame).endAlike_bind fun bytes _ sameBytes => ?_
  obtain rfl := sameBytes loaned (by simp)
  exact .done now

theorem ignoresFree_writeChunk (pid : Pid) (address : VirtAddr) (data : Array UInt8)
    (chunk : Chunk) : (writeChunk pid address data chunk).IgnoresFree := by
  refine ⟨fun {left right} sound same => ?_⟩
  refine endAlike_bind _ (endAlike_locateChunk sound same pid address true chunk) ?_
  rintro location state twin ⟨now, -, loaned⟩
  rw [get_bind_apply, get_bind_apply]
  refine (now.read location.frame).endAlike_bind fun bytes _ sameBytes => ?_
  obtain rfl := sameBytes loaned (by simp)
  exact endAlike_write (now.inHand location.frame) _

theorem ignoresFree_writeUser (pid : Pid) (address : VirtAddr) (data : Array UInt8) :
    (writeUser pid address data).IgnoresFree :=
  .forM (ignoresFree_writeChunk pid address data) (takes_writeChunk pid address data) _

/-- A process reads the same bytes, also where the reading ends half way. -/
theorem endAlike_readUser (sound : left.Sound) (same : left.SameButFree right) (pid : Pid)
    (address : VirtAddr) (length : Nat) :
    EndAlike (fun _ read twin => read.machine.SameButFree twin.machine ∧ twin.bytes = read.bytes)
      (fun _ read twin => read.machine.SameButFree twin.machine ∧ twin.bytes = read.bytes)
      (readUser pid address length ⟨left, #[]⟩) (readUser pid address length ⟨right, #[]⟩) := by
  have loop : EndAlike
      (fun _ (read twin : UserRead) => read.machine.Sound ∧
        read.machine.SameButFree twin.machine ∧ twin.bytes = read.bytes)
      (fun _ read twin => read.machine.SameButFree twin.machine ∧ twin.bytes = read.bytes)
      (readUser pid address length ⟨left, #[]⟩) (readUser pid address length ⟨right, #[]⟩) := by
    apply endAlike_forM fun (_ : List Chunk) (read twin : UserRead) => read.machine.Sound ∧
      read.machine.SameButFree twin.machine ∧ twin.bytes = read.bytes
    · rintro chunk rest ⟨left, bytes⟩ ⟨right, _⟩ ⟨sound, same, rfl⟩
      have fetched := ((ignoresFree_fetchChunk pid address chunk).endSame sound same).and_ends
        (ends_fetchChunk sound pid address chunk)
      refine endAlike_bind (fun piece read twin => read.machine.Sound ∧
        read.machine.SameButFree twin.machine ∧ twin.bytes = read.bytes) ?_ ?_
      · refine endAlike_onPart (fetched.imp ?_ ?_)
        · rintro piece state twin ⟨now, path, -⟩
          exact ⟨path.sound sound, now, rfl⟩
        · rintro error state twin ⟨now, -⟩
          exact ⟨now, rfl⟩
      · rintro piece read twin ⟨soundNow, now, sameBytes⟩
        exact .done ⟨soundNow, now, congrArg (· ++ piece) sameBytes⟩
    · exact ⟨sound, same, rfl⟩
  exact loop.imp (fun _ _ _ reached => reached.2) fun _ _ _ stopped => stopped

theorem ignoresFree_fetchUser (pid : Pid) (address : VirtAddr) (length : Nat) :
    (fetchUser pid address length).IgnoresFree := by
  refine ⟨fun {left right} sound same => ?_⟩
  have alike := endAlike_readUser sound same pid address length
  unfold fetchUser
  generalize readUser pid address length ⟨left, #[]⟩ = outcome at alike ⊢
  generalize readUser pid address length ⟨right, #[]⟩ = twin at alike ⊢
  cases alike with
  | done related =>
      dsimp only
      rw [related.2]
      exact .done related.1
  | failed related => exact .failed related.1
  | halted fault => exact .halted fault

/-! ## The end of a process -/

theorem ignoresFree_exit (pid : Pid) : (exit pid).IgnoresFree := by
  refine ⟨fun {left right} sound same => ?_⟩
  unfold exit
  rw [get_bind_apply, get_bind_apply, same.spaces]
  cases found : left.spaces[pid]? with
  | none => exact .done same
  | some space =>
      -- While the pages are removed one by one, the frame of the next one is on loan.
      let between (rest : List Page) (table : PageTable) (state twin : Machine) : Prop :=
        state.SameButFree twin ∧ ∃ memory, Leaving left pid rest table state memory
      refine endAlike_bind (fun _ => between space.pages.toList space.table) ?_ ?_
      · obtain ⟨pool, pools, rfl⟩ := same
        exact .done ⟨⟨pool, pools, rfl⟩, space, .begin sound found⟩
      intro _ state twin start
      have loop : EndAlike (between []) (fun _ => SameButFree)
          (space.pages.toList.foldlM destroyPage space.table state)
          (space.pages.toList.foldlM destroyPage space.table twin) := by
        refine endAlike_foldlM between ?_ start
        rintro page rest table state twin ⟨now, memory, leaving⟩
        have soundNow := leaving.path.sound sound
        have there : (left.spaces.insert pid memory)[pid]? = some memory := by simp
        have registered : memory.pages.at? page.address = some page :=
          (leaving.left page.address page).2 ⟨List.mem_cons_self, rfl⟩
        have removes := leaving.ends_destroyPage sound (leaving.table ▸
          (ends_destroyPage soundNow there registered).imp (fun _ _ _ => trivial)
            (fun _ _ no => no.elim) (fun _ stopped => stopped))
        have loaned (frame : PhysAddr) (held : page.frame = some frame) :=
          soundNow.isLoaned_of_page? ((page?_of_space there _).trans registered) held
        refine (endSame_destroyPage now table page loaned).and_done (removes.imp ?_
          (fun _ _ no => no) (fun _ stopped => stopped))
        rintro _ after ⟨next, leavingNext, -⟩
        exact ⟨next, leavingNext⟩
      refine endAlike_bind _ loop fun table _ _ reached => ?_
      cases table.isEmpty with
      | true => exact .done reached.1
      | false => exact .halted _

/-! ## Mappings -/

/-- One page of a mapping is removed, if it is there. -/
theorem endAlike_unmapPage (sound : left.Sound) (same : left.SameButFree right) (pid : Pid)
    (mapping : Mapping) (address : VirtAddr) :
    EndAlike (fun _ state twin => state.Sound ∧ state.SameButFree twin) (fun _ => SameButFree)
      (unmapPage pid mapping address left) (unmapPage pid mapping address right) := by
  refine same.endAlike_space_bind fun target found => ?_
  rw [PageRegistry.find?_eq_at?]
  cases registered : target.pages.at? address.pageDown with
  | none => exact .halted _
  | some page =>
      have located := ((sound.frames.spaces pid target found).1.located _ _ registered).1
      rw [← located] at registered
      have loaned (frame : PhysAddr) (held : page.frame = some frame) :=
        sound.isLoaned_of_page? ((page?_of_space found _).trans registered) held
      refine endAlike_bind _ ((endSame_destroyPage same target.table page loaned).and_done
        (ends_destroyPage sound found registered)) ?_
      rintro table state twin ⟨now, stands, step⟩
      have spaces : state.spaces = left.spaces := by rw [stands]
      have erased : target.pages.erase page.address = target.pages.erase address := by
        rw [PageRegistry.erase, located, Address.pageDown_pageDown]
        rfl
      have soundNow := step.sound sound
      rw [erased, ← spaces] at soundNow
      obtain ⟨pool, pools, rfl⟩ := now
      exact .done ⟨soundNow, pool, pools, rfl⟩

theorem ignoresFree_unmapFile (pid : Pid) (address : VirtAddr) :
    (unmapFile pid address).IgnoresFree := by
  refine ignoresFree_space_bind fun target => ?_
  refine .require_bind _ _ fun mapping _ => ?_
  refine .checked_bind _ fun range _ => ?_
  refine ⟨fun {left right} sound same => ?_⟩
  have loop : EndAlike (fun _ state twin => state.Sound ∧ state.SameButFree twin)
      (fun _ => SameButFree) (range.toList.forM (unmapPage pid mapping) left)
      (range.toList.forM (unmapPage pid mapping) right) :=
    endAlike_forM (fun _ (state twin : Machine) => state.Sound ∧ state.SameButFree twin)
      (fun place _ _ _ reached => endAlike_unmapPage reached.1 reached.2 pid mapping place)
      ⟨sound, same⟩
  refine endAlike_bind _ loop ?_
  rintro _ state twin ⟨-, now⟩
  rw [get_bind_apply, get_bind_apply, now.store]
  split
  · exact .halted _
  · exact .done now

theorem ignoresFree_munmapCall (pid : Pid) (word : Nat) : (munmapCall pid word).IgnoresFree := by
  have ignores : (unmapForUser pid word).IgnoresFree :=
    .require_bind _ _ fun address _ => ignoresFree_unmapFile pid address
  refine ⟨fun sound same => ?_⟩
  refine endAlike_bind (fun _ => SameButFree) (ignores.attempt.endSame sound same) ?_
  rintro (error | _) _ _ now
  · exact .done now
  · exact .done now

/-! ## The copy of a process -/

/-- The bytes of a page are copied from a frame that holds the same in both machines. -/
theorem ignoresFree_copyAnonymousPage (child parent : Pid) (address : VirtAddr) :
    (copyAnonymousPage child parent address).IgnoresFree := by
  refine (ignoresFree_makeResident parent address).bind (takes_makeResident parent address)
    fun _ => ⟨fun {left right} sound same => ?_⟩
  rw [get_bind_apply, get_bind_apply, same.findPage?, findPage?_eq_page?]
  refine endAlike_require_bind (fun page registered => ?_) fun _ => same
  refine endAlike_require_bind (fun frame held => ?_) fun _ => same
  refine (same.read frame).endAlike_bind fun _ contents sameBytes => ?_
  obtain rfl := sameBytes (sound.isLoaned_of_page? registered held) (by simp)
  refine IgnoresFree.endSame (?_ : IgnoresFree _) sound same
  refine (avoidsFrames_registerPage ..).ignoresFree.bind (takes_registerPage ..) fun _ => ?_
  refine (ignoresFree_makeResident ..).bind (takes_makeResident ..) fun _ =>
    ⟨fun {left right} _ same => ?_⟩
  rw [get_bind_apply, get_bind_apply, same.findPage?]
  refine endAlike_require_bind (fun copy _ => ?_) fun _ => same
  refine endAlike_require_bind (fun frame _ => ?_) fun _ => same
  exact endAlike_write (same.inHand frame) contents

theorem ignoresFree_copyPage (child parent : Pid) (copies : MappingCopies) (address : VirtAddr) :
    (copyPage child parent copies address).IgnoresFree := by
  refine ⟨fun {left right} sound same => ?_⟩
  unfold copyPage
  rw [get_bind_apply, get_bind_apply, same.findPage?]
  refine IgnoresFree.endSame (.require_bind _ _ fun page _ => ?_) sound same
  dsimp only
  rcases page.backing with (loader | region) | image? | region
  case untouched.anonymous => exact ((avoidsFrames_insertPage ..).bind fun _ => .pure _).ignoresFree
  case anonymous => exact (ignoresFree_copyAnonymousPage ..).map fun _ => copies
  case untouched.file | file =>
    exact ((AvoidsFrames.onStore _).bind fun _ => (avoidsFrames_insertPage ..).bind fun _ =>
      .pure _).ignoresFree

/-- All pages of a process are copied alike. What is copied page by page keeps the records in
agreement. -/
theorem endAlike_copyPages {origin : Machine} {child parent : Pid} {space : AddressSpace}
    (sound : origin.Sound) (whole : origin.MappingsWhole parent) (different : parent ≠ child)
    (found : origin.spaces[parent]? = some space) (arrive : Step (.arrive child) origin left)
    (same : left.SameButFree right) :
    EndAlike (fun _ state twin => state.SameButFree twin ∧ state.Sound)
      (fun _ state twin => state.SameButFree twin ∧ state.Sound) (copyPages child parent left)
      (copyPages child parent right) := by
  have stays : left.spaces[parent]? = some space := by
    cases arrive with
    | arrive => rw [spaces_insert rfl, if_neg (Ne.symm different), found]
  have copied : (copyPages child parent left).EndSame (copyPages child parent right) := by
    refine same.endAlike_space_bind fun target atParent => ?_
    rw [stays, Option.some.injEq] at atParent
    subst atParent
    let between (rest : List VirtAddr) (copies : MappingCopies) (state twin : Machine) : Prop :=
      state.SameButFree twin ∧ origin.Copying child parent rest copies state
    have loop : EndAlike (between []) (fun _ => SameButFree)
        ((space.pages.toList.map Page.address).foldlM (copyPage child parent) ∅ left)
        ((space.pages.toList.map Page.address).foldlM (copyPage child parent) ∅ right) := by
      refine endAlike_foldlM between ?_ ⟨same, .begin sound found arrive⟩
      rintro address rest copies state twin ⟨now, copying⟩
      exact ((ignoresFree_copyPage ..).endSame (copying.path.sound sound) now).and_done
        (ends_copyPage sound whole different copying)
    exact endAlike_bind _ loop fun _ _ _ reached => .done reached.1
  refine (copied.and_ends (ends_copyPages sound whole different found arrive)).imp ?_ ?_
  · rintro _ state twin ⟨now, copies, copying⟩
    exact ⟨now, copying.path.sound sound⟩
  · rintro error state twin ⟨now, failed⟩
    exact ⟨now, failed.path.sound sound⟩

/-- A process is copied alike, or in both machines the copy is removed again. -/
theorem endSame_fork (sound : left.Sound) (whole : ∀ pid, left.MappingsWhole pid)
    (same : left.SameButFree right) (parent : Pid) :
    (fork parent left).EndSame (fork parent right) := by
  refine same.endAlike_space_bind fun space found => ?_
  refine endAlike_bind _
    ((avoidsFrames_createProcess.alike same).and_done (ends_createProcess left)) ?_
  rintro child begun twin ⟨sameBegun, rfl, arrive, -⟩
  have different : parent ≠ ⟨left.nextPid⟩ := by
    rintro rfl
    exact Nat.lt_irrefl _ (sound.frames.spaces _ space found).2
  have copied := endAlike_copyPages sound (whole parent) different found arrive sameBegun
  refine endAlike_bind (fun _ state twin => state.SameButFree twin ∧ state.Sound)
    (endAlike_attempt copied) ?_
  rintro (error | _) state twin ⟨now, soundNow⟩
  · exact endAlike_bind _ ((ignoresFree_exit _).endSame soundNow now) fun _ _ _ gone =>
      .failed gone
  · exact ((avoidsFrames_space parent).bind fun _ =>
      (avoidsFrames_setStackPointer ..).bind fun _ => .pure _).alike now

end Machine

/-! ## Events -/

/-- Every event ends the same way in both machines, with the same answer, and leaves machines that
differ in free frames only. -/
theorem Event.endSame_respond (event : Event) {left right : Machine} (sound : left.Sound)
    (whole : ∀ pid, left.MappingsWhole pid) (same : left.SameButFree right) :
    (event.respond left).EndSame (event.respond right) := by
  -- The answer of an event is made of the answer of its operation.
  have answers {Value : Type} {action : Action Machine Value} (ignores : action.IgnoresFree)
      (reply : Value → Reply) :
      EndSame ((do let value ← action; pure (reply value) : Action Machine Reply) left)
        ((do let value ← action; pure (reply value) : Action Machine Reply) right) :=
    (ignores.map reply).endSame sound same
  cases event with
  | createProcess => exact answers avoidsFrames_createProcess.ignoresFree _
  | fork parent =>
      exact endAlike_bind _ (endSame_fork sound whole same parent) fun _ _ _ now => .done now
  | exit pid => exact answers (ignoresFree_exit pid) _
  | registerPage => exact answers (avoidsFrames_registerPage ..).ignoresFree _
  | makeResident pid address => exact answers (ignoresFree_makeResident pid address) _
  | handleFault pid reason => exact answers (ignoresFree_handleFault pid reason) _
  | mapFile => exact answers (avoidsFrames_mapFile ..).ignoresFree _
  | unmapFile pid address => exact answers (ignoresFree_unmapFile pid address) _
  | mmapCall => exact answers (avoidsFrames_mmapCall ..).ignoresFree _
  | munmapCall pid word => exact answers (ignoresFree_munmapCall pid word) _
  | loadSegment => exact answers (avoidsFrames_loadSegment ..).ignoresFree _
  | setUpStack pid => exact answers (ignoresFree_setUpStack pid) _
  | readUser pid address length => exact answers (ignoresFree_fetchUser pid address length) _
  | writeUser pid address data => exact answers (ignoresFree_writeUser pid address data) _
  | setStackPointer => exact answers (avoidsFrames_setStackPointer ..).ignoresFree _
  | access => exact answers (avoidsFrames_access ..).ignoresFree _
  | changeDisk => exact answers (avoidsFrames_changeDisk ..).ignoresFree _
  | changeFiles change => exact answers (avoidsFrames_changeFiles change).ignoresFree _
  | changeWorld world => exact answers (avoidsFrames_changeWorld world).ignoresFree _

namespace Machine

variable {left right : Machine}

/-- A run of events is answered alike, and its last states differ in free frames only. -/
theorem SameButFree.run (same : left.SameButFree right) (reachable : left.Reachable)
    (events : List Event) :
    right.transcript events = left.transcript events ∧
      Option.Rel SameButFree (left.after? events) (right.after? events) := by
  induction events generalizing left right with
  | nil => exact ⟨rfl, .some same⟩
  | cons event rest inductionHypothesis =>
      have alike := event.endSame_respond reachable.sound reachable.mappingsWhole same
      have leaves (after : Machine) (leads : (event.respond left).state? = some after) :
          after.Reachable := .next reachable event ((event.state?_perform _).trans leads)
      simp only [transcript, after?, Event.state?_perform]
      generalize event.respond left = outcome at alike leaves ⊢
      generalize event.respond right = other at alike ⊢
      cases alike with
      | @done reply state twin now =>
          obtain ⟨answers, last⟩ := inductionHypothesis now (leaves state rfl)
          exact ⟨congrArg (Answer.done reply :: ·) answers, last⟩
      | @failed error state twin now =>
          obtain ⟨answers, last⟩ := inductionHypothesis now (leaves state rfl)
          exact ⟨congrArg (Answer.failed error :: ·) answers, last⟩
      | halted fault => exact ⟨rfl, .none⟩

/-- Whatever is asked of the second machine is answered as by the first, and processes read the same
bytes, also where the reading ends half way. -/
structure LooksLike (left right : Machine) : Prop where
  accessOk : ∀ pid first last write,
    right.accessOk pid first last write = left.accessOk pid first last write
  findPage? : ∀ pid address, right.findPage? pid address = left.findPage? pid address
  pageType? : ∀ pid address, right.pageType? pid address = left.pageType? pid address
  freeFrames : right.freeFrames = left.freeFrames
  residentPages : right.residentPages = left.residentPages
  usedSwapSlots : right.usedSwapSlots = left.usedSwapSlots
  readUser : ∀ pid address length, EndAlike (fun _ read twin => twin.bytes = read.bytes)
    (fun _ read twin => twin.bytes = read.bytes) (readUser pid address length ⟨left, #[]⟩)
    (readUser pid address length ⟨right, #[]⟩)

theorem SameButFree.looksLike (same : left.SameButFree right) (sound : left.Sound) :
    left.LooksLike right := by
  have reads (pid : Pid) (address : VirtAddr) (length : Nat) :
      EndAlike (fun _ read twin => twin.bytes = read.bytes)
        (fun _ read twin => twin.bytes = read.bytes) (readUser pid address length ⟨left, #[]⟩)
        (readUser pid address length ⟨right, #[]⟩) :=
    (endAlike_readUser sound same pid address length).imp (fun _ _ _ both => both.2)
      fun _ _ _ both => both.2
  obtain ⟨pool, pools, rfl⟩ := same
  exact ⟨fun _ _ _ _ => rfl, fun _ _ => rfl, fun _ _ => rfl, congrArg List.length pools.free, rfl,
    rfl, reads⟩

/-- What an earlier owner left in a frame is never seen. Two machines that differ in what their free
frames hold, one of them reachable, answer every run of events alike, and look alike and differ in
free frames only after it. At any moment of a run, a page that is brought in has the bytes that its
loader, its image in the swap area or its part of a file has, and they fill all of its frame, though
another page may just have left it. -/
theorem Reachable.no_residue (reachable : left.Reachable) (same : left.SameButFree right) :
    (∀ events, right.transcript events = left.transcript events ∧
      Option.Rel (fun state twin => state.SameButFree twin ∧ state.LooksLike twin)
        (left.after? events) (right.after? events)) ∧
    ∀ events state middle, left.after? events = some state → Path (fun _ => True) state middle →
      ∀ pid address page after, middle.page? pid address.pageDown = some page →
        page.frame = none → makeResident pid address middle = .done () after →
        ∃ frame, after.frame? pid address.pageDown = some frame ∧
          after.resident.contents? frame = some
            (page.backing.incoming page.address middle.store.swap after.store.files
              middle.store.world) := by
  refine ⟨fun events => ?_, ?_⟩
  · obtain ⟨answers, last⟩ := same.run reachable events
    refine ⟨answers, ?_⟩
    have reached (state : Machine) (run : left.after? events = some state) :=
      (reachable.of_after? run).sound
    generalize left.after? events = states at last reached ⊢
    generalize right.after? events = twins at last ⊢
    cases last with
    | some now => exact .some ⟨now, now.looksLike (reached _ rfl)⟩
    | none => exact .none
  · intro events state middle run path pid address page after registered absent came
    exact (path.sound (reachable.of_after? run).sound).incoming_of_makeResident registered absent
      came

/-- The first frame of every pool. -/
def firstFrame : PhysAddr := ⟨FramePool.base, by decide⟩

/-- The tiny machine, after its frame was filled by nobody knows whom. -/
def soiled : Machine :=
  match tiny.resident.pool.write firstFrame (Block.filled 0xAA) with
  | .ok pool => tiny.withPool pool
  | .error _ => tiny

/-- A process writes a page, and a second one reads a page of its own through the same frame. -/
def takingOver : List Event :=
  [.createProcess, .createProcess, .registerPage ⟨1⟩ firstPage true .normal none,
    .registerPage ⟨2⟩ secondPage true .normal none, .writeUser ⟨1⟩ firstPage #[1, 2, 3]]

/-- What was in the only frame before makes no difference to the two processes, and the second one
finds zero bytes where the first wrote. -/
theorem no_residue_soiled :
    soiled.resident.contents? firstFrame ≠ tiny.resident.contents? firstFrame ∧
      soiled.transcript takingOver = tiny.transcript takingOver ∧
      ∃ state after, tiny.after? takingOver = some state ∧
        state.frame? ⟨1⟩ firstPage = some firstFrame ∧
        makeResident ⟨2⟩ secondPage state = .done () after ∧
        after.frame? ⟨2⟩ secondPage = some firstFrame ∧
        after.resident.contents? firstFrame = some Block.zero := by
  obtain ⟨pool, wrote⟩ : ∃ pool, tiny.resident.pool.write firstFrame (Block.filled 0xAA) =
      .ok pool := ⟨_, rfl⟩
  have soiledPool : soiled = tiny.withPool pool := by
    rw [soiled, wrote]
  have same : tiny.SameButFree soiled := by
    rw [soiledPool]
    exact ⟨pool, .of_write rfl wrote, rfl⟩
  obtain ⟨run, brought⟩ := reachable_tiny.no_residue same
  have occupied : ((tiny.after? takingOver).bind fun state => state.frame? ⟨1⟩ firstPage) =
      some firstFrame := by decide +kernel
  have comes : ((tiny.after? takingOver).bind fun state =>
      (makeResident ⟨2⟩ secondPage state).answer?) = some () := by decide +kernel
  have leads : ((tiny.after? takingOver).bind fun state =>
      (makeResident ⟨2⟩ secondPage state).state?.bind fun after => after.frame? ⟨2⟩ secondPage) =
        some firstFrame := by decide +kernel
  have blank : ((tiny.after? takingOver).bind fun state =>
      (state.page? ⟨2⟩ secondPage).map fun page => (page.frame, page.backing.isBlank)) =
        some (none, true) := by decide +kernel
  obtain ⟨state, reaches, answers⟩ := Option.bind_eq_some_iff.1 comes
  obtain ⟨after, came⟩ := exists_of_answer? answers
  rw [reaches, Option.bind_some] at occupied leads blank
  rw [came] at leads
  obtain ⟨page, registered, found⟩ := Option.map_eq_some_iff.1 blank
  obtain ⟨absent, isBlank⟩ := Prod.ext_iff.1 found
  obtain ⟨frame, atFrame, contents⟩ := brought takingOver state state reaches (.refl state) ⟨2⟩
    secondPage page after registered absent came
  obtain rfl := Option.some.inj (atFrame.symm.trans leads)
  exact ⟨by decide +kernel, (run takingOver).1, state, after, reaches, occupied, came, leads,
    contents.trans (congrArg some (Backing.incoming_of_isBlank isBlank ..))⟩

end Machine

end DemandPaging
