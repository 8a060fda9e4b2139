import DemandPaging.Machine.Run
import DemandPaging.Proofs.FramePool
import DemandPaging.Proofs.Lockstep

/-!
Machines that differ in what their free frames hold.

Owns:
- `FramePool.AgreeBut`, two pools that differ in the bytes of free frames only, and of a frame that
  is in hand, and what every operation of a pool does to two of them;
- `Machine.AgreeBut`, two machines that have nothing else different;
- `Action.AvoidsFrames`, an operation that reads and writes no frame, so that it does the same to
  both machines.

Does not own: operations that move pages (`Action.IgnoresFree`).

Main statements: `FramePool.AgreeBut.write` and `FramePool.AgreeBut.release`, by which a frame in
hand comes to hold the same bytes or becomes free, and `AvoidsFrames.bind`.
-/

namespace DemandPaging

/-- Two results are the same error, or values that are related. -/
inductive ResultsAlike {Problem Value : Type} (related : Value → Value → Prop) :
    Except Problem Value → Except Problem Value → Prop where
  | ok {value twin : Value} (relates : related value twin) :
      ResultsAlike related (.ok value) (.ok twin)
  | error (problem : Problem) : ResultsAlike related (.error problem) (.error problem)

namespace FramePool

variable {left right : FramePool} {hand : Option PhysAddr} {frame : PhysAddr}

/-- Two pools with the same frames on loan and the same order of the free ones. Frames on loan have
the same bytes, but for one that may be in hand. -/
structure AgreeBut (hand : Option PhysAddr) (left right : FramePool) : Prop where
  free : right.free = left.free
  size : right.frames.size = left.frames.size
  onLoan : ∀ frame, (right.frame? frame).map PoolFrame.onLoan =
    (left.frame? frame).map PoolFrame.onLoan
  contents : ∀ frame, left.isLoaned frame = true → hand ≠ some frame →
    (right.frame? frame).map PoolFrame.contents = (left.frame? frame).map PoolFrame.contents

namespace AgreeBut

/-- What is written to a frame that is free changes nothing else. -/
theorem of_write {after : FramePool} {bytes : PageData} (free : left.isLoaned frame = false)
    (wrote : left.write frame bytes = .ok after) : left.AgreeBut none after := by
  obtain ⟨found, atFrame, sameFree, size, frames⟩ := FramePool.of_write wrote
  refine ⟨sameFree, size, fun place => ?_, fun place loaned _ => ?_⟩
  · rw [frames]
    split
    case isTrue here =>
      rw [← here, atFrame]
      rfl
    case isFalse => rfl
  · rw [frames, if_neg]
    rintro rfl
    rw [free] at loaned
    cases loaned

/-- Of a frame that is taken in hand nothing is asked any more. -/
theorem inHand (agree : left.AgreeBut none right) (frame : PhysAddr) :
    left.AgreeBut (some frame) right :=
  { agree with contents := fun other loaned _ => agree.contents other loaned (by simp) }

/-- A frame of the one pool is a frame of the other, and it is on loan in both or in none. -/
theorem lookup (agree : left.AgreeBut hand right) (frame : PhysAddr) :
    left.frame? frame = none ∧ right.frame? frame = none ∨
      ∃ found twin, left.frame? frame = some found ∧ right.frame? frame = some twin ∧
        twin.onLoan = found.onLoan := by
  have same := agree.onLoan frame
  cases atLeft : left.frame? frame with
  | none =>
      rw [atLeft, Option.map_none, Option.map_eq_none_iff] at same
      exact .inl ⟨rfl, same⟩
  | some found =>
      rw [atLeft, Option.map_some, Option.map_eq_some_iff] at same
      obtain ⟨twin, atRight, sameLoan⟩ := same
      exact .inr ⟨found, twin, rfl, atRight, sameLoan⟩

/-- Both pools are read, or none. A frame on loan reads the same in both, unless it is in hand. -/
theorem read (agree : left.AgreeBut hand right) (frame : PhysAddr) :
    ResultsAlike (fun bytes twin => left.isLoaned frame = true → hand ≠ some frame → twin = bytes)
      (left.read frame) (right.read frame) := by
  rw [read_eq, read_eq]
  rcases agree.lookup frame with ⟨atLeft, atRight⟩ | ⟨found, twin, atLeft, atRight, -⟩
  · rw [atLeft, atRight]
    exact .error _
  · rw [atLeft, atRight]
    refine .ok fun loaned other => ?_
    have same := agree.contents frame loaned other
    rw [atLeft, atRight, Option.map_some, Option.map_some, Option.some.injEq] at same
    exact same

/-- After one frame changed in both pools, it and the others are looked at apart. -/
theorem of_changed {after twin : FramePool} {changed changedTwin : PoolFrame}
    {other : Option PhysAddr} (agree : left.AgreeBut (some frame) right)
    (free : twin.free = after.free) (size : twin.frames.size = after.frames.size)
    (atLeft : ∀ place, after.frame? place =
      if frame = place then some changed else left.frame? place)
    (atRight : ∀ place, twin.frame? place =
      if frame = place then some changedTwin else right.frame? place)
    (sameLoan : changedTwin.onLoan = changed.onLoan)
    (sameContents : changed.onLoan = true → other ≠ some frame →
      changedTwin.contents = changed.contents) : after.AgreeBut other twin := by
  refine ⟨free, size, fun place => ?_, fun place loaned apart => ?_⟩
  · rw [atLeft, atRight]
    split
    · exact congrArg some sameLoan
    · exact agree.onLoan place
  · rw [isLoaned, atLeft] at loaned
    rw [atLeft, atRight]
    split at loaned
    case isTrue here =>
      subst here
      rw [if_pos rfl, if_pos rfl]
      exact congrArg some (sameContents loaned apart)
    case isFalse elsewhere =>
      rw [if_neg elsewhere, if_neg elsewhere]
      exact agree.contents place loaned fun same => elsewhere (Option.some.inj same)

/-- The same bytes are written to a frame, so it is no longer in hand. -/
theorem write (agree : left.AgreeBut (some frame) right) (bytes : PageData) :
    ResultsAlike (AgreeBut none) (left.write frame bytes) (right.write frame bytes) := by
  rcases agree.lookup frame with ⟨atLeft, atRight⟩ | ⟨found, twin, atLeft, atRight, sameLoan⟩
  · rw [write_eq_error atLeft, write_eq_error atRight]
    exact .error _
  · obtain ⟨written, wrote, free, size, frames⟩ := write_eq_ok atLeft bytes
    obtain ⟨writtenTwin, wroteTwin, freeTwin, sizeTwin, framesTwin⟩ := write_eq_ok atRight bytes
    rw [wrote, wroteTwin]
    exact .ok (agree.of_changed (by rw [freeTwin, free, agree.free])
      (by rw [sizeTwin, size, agree.size]) frames framesTwin sameLoan fun _ _ => rfl)

/-- Whatever is written to a frame in hand, it stays in hand. -/
theorem spoil (agree : left.AgreeBut (some frame) right) (bytes other : PageData) :
    ResultsAlike (AgreeBut (some frame)) (left.write frame bytes) (right.write frame other) := by
  rcases agree.lookup frame with ⟨atLeft, atRight⟩ | ⟨found, twin, atLeft, atRight, sameLoan⟩
  · rw [write_eq_error atLeft, write_eq_error atRight]
    exact .error _
  · obtain ⟨written, wrote, free, size, frames⟩ := write_eq_ok atLeft bytes
    obtain ⟨writtenTwin, wroteTwin, freeTwin, sizeTwin, framesTwin⟩ := write_eq_ok atRight other
    rw [wrote, wroteTwin]
    exact .ok (agree.of_changed (by rw [freeTwin, free, agree.free])
      (by rw [sizeTwin, size, agree.size]) frames framesTwin sameLoan fun _ apart =>
        absurd rfl apart)

/-- A frame in hand is given back, and what it holds does not matter any more. -/
theorem release (agree : left.AgreeBut (some frame) right) :
    ResultsAlike (AgreeBut none) (left.release frame) (right.release frame) := by
  rcases agree.lookup frame with ⟨atLeft, atRight⟩ | ⟨found, twin, atLeft, atRight, sameLoan⟩
  · rw [release_eq_error_of_missing atLeft, release_eq_error_of_missing atRight]
    exact .error _
  · cases loaned : found.onLoan with
    | false =>
        rw [release_eq_error atLeft loaned, release_eq_error atRight (sameLoan.trans loaned)]
        exact .error _
    | true =>
        obtain ⟨rest, released, free, size, frames⟩ := release_eq_ok atLeft loaned
        obtain ⟨restTwin, releasedTwin, freeTwin, sizeTwin, framesTwin⟩ :=
          release_eq_ok atRight (sameLoan.trans loaned)
        rw [released, releasedTwin]
        exact .ok (agree.of_changed (by rw [freeTwin, free, agree.free])
          (by rw [sizeTwin, size, agree.size]) frames framesTwin rfl (by simp))

/-- Both pools loan the same frame, which is in hand then, or none. -/
theorem acquire (agree : left.AgreeBut none right) :
    left.acquire = none ∧ right.acquire = none ∨
      ∃ frame rest twin, left.acquire = some (frame, rest) ∧ right.acquire = some (frame, twin) ∧
        rest.AgreeBut (some frame) twin := by
  cases free : left.free with
  | nil =>
      refine .inl ⟨by simp [FramePool.acquire, free], ?_⟩
      simp [FramePool.acquire, agree.free, free]
  | cons index others =>
      have freeTwin : right.free = index :: others := agree.free.trans free
      rcases Nat.lt_or_ge index left.frames.size with inPool | beyond
      · have inTwin : index < right.frames.size := agree.size ▸ inPool
        obtain ⟨rest, acquired, restFree, size, frames⟩ := acquire_eq_some free inPool
        obtain ⟨twin, acquiredTwin, twinFree, sizeTwin, framesTwin⟩ :=
          acquire_eq_some freeTwin inTwin
        have sameAddress : right.addressOf ⟨index, inTwin⟩ = left.addressOf ⟨index, inPool⟩ := rfl
        rw [sameAddress] at acquiredTwin framesTwin
        refine .inr ⟨_, rest, twin, acquired, acquiredTwin, ?_⟩
        exact (agree.inHand _).of_changed (by rw [twinFree, restFree])
          (by rw [sizeTwin, size, agree.size]) frames framesTwin rfl fun _ apart =>
            absurd rfl apart
      · refine .inl ⟨acquire_eq_none free beyond, acquire_eq_none freeTwin ?_⟩
        rw [agree.size]
        exact beyond

end AgreeBut

end FramePool

/-- The clock looks at owners and the queue only. -/
theorem ResidentSet.selectVictim_withPool {State : Type} (set : ResidentSet) (pool : FramePool)
    (ask : Question State) (state : State) :
    selectVictim { set with pool } ask state = (set.selectVictim ask state).map
      fun (victim, rest, after) => (victim, { rest with pool }, after) := by
  unfold selectVictim
  show (firstUnaccessed set.owner? ask (set.queue ++ set.queue) state >>= _) = _
  cases firstUnaccessed set.owner? ask (set.queue ++ set.queue) state with
  | error fault => rfl
  | ok found =>
      obtain ⟨unaccessed, after⟩ := found
      simp only [bind, Except.bind]
      cases unaccessed.or set.queue.head? with
      | none => rfl
      | some frame =>
          have sameOwner : ResidentSet.owner? { set with pool } frame = set.owner? frame := rfl
          dsimp only
          rw [sameOwner]
          cases set.owner? frame with
          | none => rfl
          | some owner => rfl

theorem ResidentSet.pool_of_selectVictim {State : Type} {set rest : ResidentSet}
    {ask : Question State} {state after : State} {victim : Option (PhysAddr × FrameOwner)}
    (selected : set.selectVictim ask state = .ok (victim, rest, after)) :
    rest.pool = set.pool := by
  unfold selectVictim at selected
  cases searched : firstUnaccessed set.owner? ask (set.queue ++ set.queue) state with
  | error fault => simp [searched, bind, Except.bind] at selected
  | ok found =>
      simp only [searched, bind, Except.bind] at selected
      split at selected
      · cases selected
        rfl
      · split at selected
        · cases selected
        · cases selected
          rfl

/-! ## Machines -/

namespace Machine

variable {left right : Machine} {hand : Option PhysAddr}

def withPool (machine : Machine) (pool : FramePool) : Machine :=
  { machine with resident := { machine.resident with pool } }

/-- Two machines that are the same but for what free frames hold, and a frame that may be in
hand. -/
def AgreeBut (hand : Option PhysAddr) (left right : Machine) : Prop :=
  ∃ pool, left.resident.pool.AgreeBut hand pool ∧ right = left.withPool pool

/-- Two machines that are the same but for what free frames hold. -/
abbrev SameButFree (left right : Machine) : Prop := left.AgreeBut none right

theorem AgreeBut.inHand (agree : left.SameButFree right) (frame : PhysAddr) :
    left.AgreeBut (some frame) right := by
  obtain ⟨pool, pools, rfl⟩ := agree
  exact ⟨pool, pools.inHand frame, rfl⟩

end Machine

open Machine Outcome

/-! ## Operations that avoid frames -/

namespace Action

variable {Value Result Item : Type} {left right : Machine} {hand : Option PhysAddr}

/-- An operation does the same to two machines that differ in what frames hold, and leaves what
they hold alone. -/
structure AvoidsFrames (action : Action Machine Value) : Prop where
  alike : ∀ {hand : Option PhysAddr} {left right : Machine}, left.AgreeBut hand right →
    EndAlike (fun _ => AgreeBut hand) (fun _ => AgreeBut hand) (action left) (action right)

namespace AvoidsFrames

variable {action : Action Machine Value}

theorem pure (value : Value) : (Pure.pure value : Action Machine Value).AvoidsFrames :=
  ⟨fun agree => .done agree⟩

theorem fail (error : Errno) : (Action.fail error : Action Machine Value).AvoidsFrames :=
  ⟨fun agree => .failed agree⟩

theorem halt (fault : Fault) : (Action.halt fault : Action Machine Value).AvoidsFrames :=
  ⟨fun _ => .halted fault⟩

theorem require (error : Errno) (value? : Option Value) :
    (Action.require error value? : Action Machine Value).AvoidsFrames :=
  ⟨fun agree => endAlike_require (fun _ _ => agree) fun _ => agree⟩

theorem orFail (result : Except Errno Value) :
    (Action.orFail result : Action Machine Value).AvoidsFrames :=
  ⟨fun agree => endAlike_orFail (fun _ _ => agree) fun _ _ => agree⟩

theorem checked (result : Except Overflow Value) :
    (Action.checked result : Action Machine Value).AvoidsFrames :=
  ⟨fun agree => endAlike_checked fun _ _ => agree⟩

theorem bind {first : Action Machine Result} {next : Result → Action Machine Value}
    (avoids : first.AvoidsFrames) (avoidsNext : ∀ value, (next value).AvoidsFrames) :
    (first >>= next).AvoidsFrames :=
  ⟨fun agree => endAlike_bind _ (avoids.alike agree) fun value _ _ agreeNow =>
    (avoidsNext value).alike agreeNow⟩

/-- What an operation does with the state at hand does not depend on the pool. -/
theorem get_bind {next : Machine → Action Machine Value}
    (same : ∀ machine pool, next (machine.withPool pool) = next machine)
    (avoids : ∀ machine, (next machine).AvoidsFrames) : (Action.get >>= next).AvoidsFrames := by
  refine ⟨fun {hand left right} agree => ?_⟩
  rw [get_bind_apply, get_bind_apply]
  obtain ⟨pool, pools, rfl⟩ := agree
  rw [same]
  exact (avoids left).alike ⟨pool, pools, rfl⟩

theorem modify {change : Machine → Machine}
    (same : ∀ machine pool, change (machine.withPool pool) = (change machine).withPool pool)
    (keeps : ∀ machine, (change machine).resident.pool = machine.resident.pool) :
    (Action.modify change).AvoidsFrames := by
  refine ⟨fun {hand left right} agree => ?_⟩
  obtain ⟨pool, pools, rfl⟩ := agree
  refine .done ⟨pool, ?_, same left pool⟩
  rw [keeps]
  exact pools

theorem ite {condition : Prop} [Decidable condition] {other : Action Machine Value}
    (yes : action.AvoidsFrames) (no : other.AvoidsFrames) :
    (if condition then action else other).AvoidsFrames := by
  split
  · exact yes
  · exact no

/-- Refusing to go on under a condition. -/
theorem refuse {condition : Prop} [Decidable condition] (error : Errno)
    (avoids : action.AvoidsFrames) :
    (if condition then
      (do let _ : Result ← Action.fail error
          action)
    else action).AvoidsFrames :=
  ite ((fail error).bind fun _ => avoids) avoids

theorem attempt (avoids : action.AvoidsFrames) : action.attempt.AvoidsFrames :=
  ⟨fun agree => endAlike_attempt (avoids.alike agree)⟩

theorem onStore (action : Action BackingStore Value) : (Machine.onStore action).AvoidsFrames := by
  refine ⟨fun {hand left right} agree => ?_⟩
  obtain ⟨pool, pools, rfl⟩ := agree
  exact endAlike_onPart (.of_same (action left.store) (fun _ _ => ⟨pool, pools, rfl⟩)
    fun _ _ => ⟨pool, pools, rfl⟩)

end AvoidsFrames

end Action

namespace Machine

open DemandPaging.Action

theorem avoidsFrames_space (pid : Pid) : (space pid).AvoidsFrames := by
  refine ⟨fun {hand left right} agree => ?_⟩
  have sameSpaces : right.spaces = left.spaces := by
    obtain ⟨pool, -, rfl⟩ := agree
    rfl
  unfold space
  rw [sameSpaces]
  exact endAlike_require (fun _ _ => agree) fun _ => agree

theorem avoidsFrames_setSpace (pid : Pid) (space : AddressSpace) :
    (setSpace pid space).AvoidsFrames :=
  .modify (fun _ _ => rfl) fun _ => rfl

theorem avoidsFrames_createProcess : createProcess.AvoidsFrames := by
  refine ⟨fun {hand left right} agree => ?_⟩
  obtain ⟨pool, pools, rfl⟩ := agree
  unfold createProcess
  simp only [get_bind_apply]
  refine endAlike_bind (fun _ state twin => state = left ∧ twin = left.withPool pool)
    (endAlike_checked fun _ _ => ⟨rfl, rfl⟩) ?_
  rintro next _ _ ⟨rfl, rfl⟩
  exact .done ⟨pool, pools, rfl⟩

theorem avoidsFrames_setStackPointer (pid : Pid) (stackPointer : VirtAddr) :
    (setStackPointer pid stackPointer).AvoidsFrames :=
  (avoidsFrames_space pid).bind fun _ => avoidsFrames_setSpace ..

theorem avoidsFrames_insertPage (pid : Pid) (page : Page) : (insertPage pid page).AvoidsFrames :=
  (avoidsFrames_space pid).bind fun _ => (AvoidsFrames.orFail _).bind fun _ =>
    avoidsFrames_setSpace ..

theorem avoidsFrames_registerPage (pid : Pid) (address : VirtAddr) (writable : Bool)
    (marker : PageMarker) (initializer : Initializer) :
    (registerPage pid address writable marker initializer).AvoidsFrames :=
  .ite (avoidsFrames_insertPage ..) (.fail _)

theorem avoidsFrames_loadPages (pid : Pid) (file : FileId) (pagesLeft : Nat) (segment : Segment) :
    (loadPages pid file pagesLeft segment).AvoidsFrames := by
  induction pagesLeft generalizing segment with
  | zero => exact .pure ()
  | succ pagesAfter inductionHypothesis =>
      refine (avoidsFrames_registerPage ..).bind fun _ => ?_
      refine (AvoidsFrames.checked _).bind fun offset => ?_
      refine (AvoidsFrames.checked _).bind fun zeroBytes => ?_
      refine (AvoidsFrames.checked _).bind fun address => ?_
      exact inductionHypothesis _

theorem avoidsFrames_loadSegment (pid : Pid) (file : FileId) (segment : Segment) :
    (loadSegment pid file segment).AvoidsFrames :=
  (AvoidsFrames.checked _).bind fun _ => .refuse _ (avoidsFrames_loadPages ..)

theorem avoidsFrames_registerMapping (pid : Pid) (target : AddressSpace) (range : PageRange)
    (mapping : Mapping) (writable : Bool) (offset length : Nat) :
    (registerMapping pid target range mapping writable offset length).AvoidsFrames := by
  unfold registerMapping
  obtain ⟨outcome, pages⟩ := target.pages.insertMapping range mapping writable offset
    (List.finRange range.count) length
  refine (avoidsFrames_setSpace ..).bind fun _ => ?_
  cases outcome with
  | ok => exact .pure ()
  | error error => exact (AvoidsFrames.onStore _).bind fun _ => .fail error

theorem avoidsFrames_mapFile (pid : Pid) (address : VirtAddr) (length : Nat) (writable : Bool)
    (file : FileId) (offset : Nat) :
    (mapFile pid address length writable file offset).AvoidsFrames := by
  refine .get_bind (fun _ _ => rfl) fun machine => ?_
  refine .refuse _ ?_
  refine (AvoidsFrames.checked _).bind fun byteCount => ?_
  refine (AvoidsFrames.require _ _).bind fun last => ?_
  refine .refuse _ ?_
  refine (avoidsFrames_space pid).bind fun target => ?_
  refine (AvoidsFrames.checked _).bind fun range => ?_
  refine .refuse _ ?_
  refine (AvoidsFrames.checked _).bind fun _ => ?_
  refine (AvoidsFrames.onStore _).bind fun mapping => ?_
  exact (avoidsFrames_registerMapping ..).bind fun _ => .pure address

theorem avoidsFrames_mmapCall (pid : Pid) (word length : Nat) (writable : Bool)
    (file? : Option FileId) (offset : Nat) :
    (mmapCall pid word length writable file? offset).AvoidsFrames := by
  have avoids : (mapForUser pid word length writable file? offset).AvoidsFrames := by
    refine (AvoidsFrames.require _ _).bind fun file => ?_
    refine (AvoidsFrames.require _ _).bind fun address => ?_
    refine .get_bind (fun _ _ => rfl) fun machine => ?_
    refine (AvoidsFrames.checked _).bind fun valid => ?_
    exact .refuse _ (avoidsFrames_mapFile ..)
  refine avoids.attempt.bind fun answer => ?_
  cases answer with
  | ok address => exact .pure _
  | error error => exact .pure _

theorem avoidsFrames_access (pid : Pid) (address : VirtAddr) (write : Bool) :
    (access pid address write).AvoidsFrames :=
  (avoidsFrames_space pid).bind fun _ => (avoidsFrames_setSpace ..).bind fun _ => .pure _

theorem avoidsFrames_changeDisk (unreadable unwritable : FailingSectors) :
    (changeDisk unreadable unwritable).AvoidsFrames := by
  unfold changeDisk onSwap
  exact .onStore _

theorem avoidsFrames_changeFiles (change : FileId → Inode → Inode) :
    (changeFiles change).AvoidsFrames := by
  unfold changeFiles onFiles
  exact .onStore _

theorem avoidsFrames_changeWorld (world : World) : (changeWorld world).AvoidsFrames :=
  .onStore _

/-- Which page is to leave memory does not depend on what frames hold. -/
theorem avoidsFrames_chooseVictim : chooseVictim.AvoidsFrames := by
  refine ⟨fun {hand left right} agree => ?_⟩
  obtain ⟨pool, pools, rfl⟩ := agree
  unfold chooseVictim
  simp only [get_bind_apply]
  have same := left.resident.selectVictim_withPool pool testAndClearAccessed left.spaces
  cases selected : left.resident.selectVictim testAndClearAccessed left.spaces with
  | error fault =>
      rw [selected] at same
      rw [show ResidentSet.selectVictim (left.withPool pool).resident testAndClearAccessed
        (left.withPool pool).spaces = _ from same]
      exact .halted fault
  | ok choice =>
      obtain ⟨victim, rest, spaces⟩ := choice
      rw [selected] at same
      rw [show ResidentSet.selectVictim (left.withPool pool).resident testAndClearAccessed
        (left.withPool pool).spaces = _ from same]
      have keeps : (rest.pool : FramePool).AgreeBut hand pool :=
        ResidentSet.pool_of_selectVictim selected ▸ pools
      exact endAlike_require (fun _ _ => ⟨pool, keeps, rfl⟩) fun _ => ⟨pool, keeps, rfl⟩

end Machine

end DemandPaging
