import DemandPaging.Proofs.FreeFrames
import DemandPaging.Proofs.PageFill

/-!
Pages move alike in machines that differ in free frames only.

Owns:
- `Outcome.EndSame`, two operations ended alike and left two such machines;
- `Action.IgnoresFree`, an operation that ends so wherever its records agree;
- every operation on one page, with the frame that it has in hand for a while.

Does not own: operations on many pages (`endSame_fork` and the like).

Main statements: `endAlike_takeFrame`, a frame that was taken may hold anything,
`ignoresFree_makeResident`, which gives such a frame the bytes of a page or back to the pool, and
`endSame_destroyPage`.
-/

namespace DemandPaging

open Machine Outcome

/-- Two results that are alike are handed on, or both stop the machine. -/
theorem ResultsAlike.endAlike_bind {Result State Value : Type} {related : Result → Result → Prop}
    {result twin : Except Fault Result} {next nextTwin : Result → Action State Value}
    {left right : State} {done : Value → State → State → Prop}
    {failed : Errno → State → State → Prop} (alike : ResultsAlike related result twin)
    (goOn : ∀ value other, related value other →
      EndAlike done failed (next value left) (nextTwin other right)) :
    EndAlike done failed ((Action.orHalt result >>= next) left)
      ((Action.orHalt twin >>= nextTwin) right) := by
  cases alike with
  | ok relates => exact goOn _ _ relates
  | error fault => exact .halted fault

/-- Two operations ended alike, and the machines that they left differ in free frames only. -/
abbrev Outcome.EndSame {Value : Type} (outcome twin : Outcome Machine Value) : Prop :=
  EndAlike (fun _ => SameButFree) (fun _ => SameButFree) outcome twin

namespace Action

variable {Value Result Item : Type} {left right : Machine} {allowed : Move → Prop}

/-- Whenever its records agree, a machine does the same as one that differs in what free frames
hold. -/
structure IgnoresFree (action : Action Machine Value) : Prop where
  endSame : ∀ {left right : Machine}, left.Sound → left.SameButFree right →
    (action left).EndSame (action right)

theorem AvoidsFrames.ignoresFree {action : Action Machine Value} (avoids : action.AvoidsFrames) :
    action.IgnoresFree :=
  ⟨fun _ same => avoids.alike same⟩

namespace IgnoresFree

variable {action : Action Machine Value}

/-- The second operation starts where the records agree, since the first took steps only. -/
theorem bind {first : Action Machine Result} {next : Result → Action Machine Value}
    (ignores : first.IgnoresFree) (takes : first.Takes allowed)
    (ignoresNext : ∀ value, (next value).IgnoresFree) : (first >>= next).IgnoresFree := by
  refine ⟨fun {left right} sound same => ?_⟩
  exact endAlike_bind _ ((ignores.endSame sound same).and_done (takes.ends left sound))
    fun value state twin reached =>
      (ignoresNext value).endSame (reached.2.sound sound) reached.1

theorem ite {condition : Prop} [Decidable condition] {other : Action Machine Value}
    (yes : action.IgnoresFree) (no : other.IgnoresFree) :
    (if condition then action else other).IgnoresFree := by
  split
  · exact yes
  · exact no

/-- Refusing to go on under a condition. -/
theorem refuse {condition : Prop} [Decidable condition] (error : Errno)
    (ignores : action.IgnoresFree) :
    (if condition then
      (do let _ : Result ← Action.fail error
          action)
    else action).IgnoresFree :=
  ite ⟨fun _ same => .failed same⟩ ignores

theorem require_bind {next : Result → Action Machine Value} (error : Errno)
    (value? : Option Result) (ignores : ∀ value, value? = some value → (next value).IgnoresFree) :
    (Action.require error value? >>= next).IgnoresFree :=
  ⟨fun sound same => endAlike_require_bind
    (fun value found => (ignores value found).endSame sound same) fun _ => same⟩

theorem checked_bind {next : Result → Action Machine Value} (result : Except Overflow Result)
    (ignores : ∀ value, result = .ok value → (next value).IgnoresFree) :
    (Action.checked result >>= next).IgnoresFree := by
  cases result with
  | error operation => exact ⟨fun _ _ => .halted _⟩
  | ok value => exact ignores value rfl

/-- Nothing else happens after the operation than that its answer is changed. -/
theorem map (ignores : action.IgnoresFree) (change : Value → Result) :
    (do let value ← action
        pure (change value) : Action Machine Result).IgnoresFree :=
  ⟨fun sound same => endAlike_bind _ (ignores.endSame sound same) fun _ _ _ now => .done now⟩

theorem attempt (ignores : action.IgnoresFree) : action.attempt.IgnoresFree :=
  ⟨fun sound same => endAlike_attempt (ignores.endSame sound same)⟩

theorem forM {round : Item → Action Machine Unit} (ignores : ∀ item, (round item).IgnoresFree)
    (takes : ∀ item, (round item).Takes allowed) (rounds : List Item) :
    (rounds.forM round).IgnoresFree := by
  induction rounds with
  | nil => exact (AvoidsFrames.pure ()).ignoresFree
  | cons item rest inductionHypothesis =>
      exact (ignores item).bind (takes item) fun _ => inductionHypothesis

end IgnoresFree

end Action

namespace Machine

open DemandPaging.Action

variable {left right : Machine} {hand : Option PhysAddr} {frame : PhysAddr} {pid : Pid}
  {address : VirtAddr} {page : Page} {failed : Errno → Machine → Machine → Prop}

theorem AgreeBut.spaces (agree : left.AgreeBut hand right) : right.spaces = left.spaces := by
  obtain ⟨pool, -, rfl⟩ := agree
  rfl

theorem AgreeBut.store (agree : left.AgreeBut hand right) : right.store = left.store := by
  obtain ⟨pool, -, rfl⟩ := agree
  rfl

theorem AgreeBut.findPage? (agree : left.AgreeBut hand right) (pid : Pid) (address : VirtAddr) :
    right.findPage? pid address = left.findPage? pid address := by
  unfold Machine.findPage?
  rw [agree.spaces]

/-- The frame of a registered page is on loan. -/
theorem Sound.isLoaned_of_page? (sound : left.Sound)
    (registered : left.page? pid address = some page) {frame : PhysAddr}
    (held : page.frame = some frame) : left.resident.pool.isLoaned frame = true :=
  sound.frames.resident.isLoaned_of_owned (sound.frames.owner?_of_held registered held)

/-! ## Frames -/

/-- Both machines read a frame, or neither. If it is on loan and not in hand, they read the same
bytes. -/
theorem AgreeBut.read (agree : left.AgreeBut hand right) (frame : PhysAddr) :
    ResultsAlike (fun bytes twin => left.resident.pool.isLoaned frame = true →
        hand ≠ some frame → twin = bytes)
      (left.resident.read frame) (right.resident.read frame) := by
  obtain ⟨pool, pools, rfl⟩ := agree
  exact pools.read frame

/-- Two pools that agree are put in place of the ones that were there. -/
theorem endAlike_setPool {result twin : Except Fault FramePool} {other : Option PhysAddr}
    (agree : left.AgreeBut hand right) (alike : ResultsAlike (FramePool.AgreeBut other) result twin)
    (set : ResidentSet) :
    EndAlike (fun _ => AgreeBut other) failed
      (setResident (do let pool ← result; .ok { set with pool }) left)
      (setResident (do let pool ← twin; .ok { set with pool }) right) := by
  obtain ⟨pool, -, rfl⟩ := agree
  cases alike with
  | ok pools => exact .done ⟨_, pools, rfl⟩
  | error fault => exact .halted fault

/-- A frame in hand gets the same bytes in both machines. -/
theorem endAlike_write (agree : left.AgreeBut (some frame) right) (bytes : PageData) :
    EndAlike (fun _ => SameButFree) failed (setResident (left.resident.write frame bytes) left)
      (setResident (right.resident.write frame bytes) right) := by
  obtain ⟨pool, pools, rfl⟩ := agree
  exact endAlike_setPool ⟨pool, pools, rfl⟩ (pools.write bytes) left.resident

/-- A frame in hand gets some bytes in each of the machines. -/
theorem endAlike_spoil (agree : left.AgreeBut (some frame) right) (bytes other : PageData) :
    EndAlike (fun _ => AgreeBut (some frame)) failed
      (setResident (left.resident.write frame bytes) left)
      (setResident (right.resident.write frame other) right) := by
  obtain ⟨pool, pools, rfl⟩ := agree
  exact endAlike_setPool ⟨pool, pools, rfl⟩ (pools.spoil bytes other) left.resident

/-- A frame in hand goes back, whatever is in it. -/
theorem endAlike_releaseFrame (agree : left.AgreeBut (some frame) right) :
    EndAlike (fun _ => SameButFree) failed (releaseFrame frame left)
      (releaseFrame frame right) := by
  obtain ⟨pool, pools, rfl⟩ := agree
  exact endAlike_setPool ⟨pool, pools, rfl⟩ pools.release (left.resident.unlink frame)

/-- Which page occupies a frame has nothing to do with what is in it. -/
theorem endAlike_link (agree : left.AgreeBut hand right) (frame : PhysAddr) (owner : FrameOwner) :
    EndAlike (fun _ => AgreeBut hand) failed (setResident (left.resident.link frame owner) left)
      (setResident (right.resident.link frame owner) right) := by
  obtain ⟨pool, pools, rfl⟩ := agree
  unfold ResidentSet.link
  rw [show (left.withPool pool).resident.owner? frame = left.resident.owner? frame from rfl]
  cases left.resident.owner? frame with
  | some previous => exact .halted _
  | none =>
      dsimp only
      by_cases queued : frame ∈ left.resident.queue
      · rw [if_pos queued, if_pos (show frame ∈ (left.withPool pool).resident.queue from queued)]
        exact .halted _
      · rw [if_neg queued, if_neg (show frame ∉ (left.withPool pool).resident.queue from queued)]
        exact .done ⟨pool, pools, rfl⟩

/-! ## Taking a frame -/

/-- A page of which the frame is on loan is saved alike. -/
theorem endSame_pageOut (same : left.SameButFree right) (pid : Pid) (space : AddressSpace)
    (page : Page)
    (loaned : ∀ frame, page.frame = some frame → left.resident.pool.isLoaned frame = true) :
    (pageOut pid space page left).EndSame (pageOut pid space page right) := by
  unfold pageOut
  cases held : page.frame with
  | none => exact .halted _
  | some frame =>
      dsimp only
      rw [get_bind_apply, get_bind_apply]
      refine (same.read frame).endAlike_bind fun bytes _ sameBytes => ?_
      obtain rfl := sameBytes (loaned frame held) (by simp)
      refine AvoidsFrames.alike ((AvoidsFrames.onStore _).bind fun backing => ?_) same
      split
      · exact .halt _
      · exact (avoidsFrames_setSpace ..).bind fun _ => .pure _

/-- The same page leaves memory, and nothing else is read of the frames than what is saved. -/
theorem endSame_evict (sound : left.Sound) (same : left.SameButFree right) :
    (evict left).EndSame (evict right) := by
  unfold evict
  refine endAlike_bind _
    ((avoidsFrames_chooseVictim.alike same).and_done (ends_chooseVictim sound)) ?_
  rintro ⟨chosen, owner⟩ state twin ⟨sameNow, asked, choice, stands⟩
  have soundAsked := choice.path.sound sound
  dsimp only
  rw [get_bind_apply, get_bind_apply, sameNow.spaces]
  cases found : state.spaces[owner.pid]? with
  | none => exact .halted _
  | some space =>
      dsimp only
      cases atOwner : space.pages.find? owner.address with
      | none => exact .halted _
      | some page =>
          have loaned (frame : PhysAddr) (held : page.frame = some frame) :
              state.resident.pool.isLoaned frame = true := by
            subst stands
            rw [PageRegistry.find?_eq_at?] at atOwner
            exact soundAsked.isLoaned_of_page? ((page?_of_space found _).trans atOwner) held
          refine endAlike_bind (fun _ => SameButFree)
            (endAlike_attempt (endSame_pageOut sameNow owner.pid space page loaned)) ?_
          rintro (error | frame) _ _ ⟨pool, pools, rfl⟩
          · exact .failed ⟨pool, pools, rfl⟩
          · dsimp only
            split
            · exact .done ⟨pool, pools, rfl⟩
            · exact .halted _

/-- The same frame is taken, and it is in hand then. -/
theorem endAlike_takeFrame (sound : left.Sound) (same : left.SameButFree right) :
    EndAlike (fun frame => AgreeBut (some frame)) (fun _ => SameButFree) (takeFrame left)
      (takeFrame right) := by
  have evicts : EndAlike (fun frame => AgreeBut (some frame)) (fun _ => SameButFree) (evict left)
      (evict right) :=
    (endSame_evict sound same).imp (fun frame _ _ now => now.inHand frame) fun _ _ _ now => now
  obtain ⟨pool, pools, rfl⟩ := same
  unfold takeFrame
  rw [get_bind_apply, get_bind_apply]
  unfold ResidentSet.acquire
  rcases pools.acquire with ⟨empty, emptyTwin⟩ | ⟨frame, rest, twin, loaned, loanedTwin, agree⟩
  · rw [empty, show (left.withPool pool).resident.pool.acquire = none from emptyTwin]
    exact evicts
  · rw [loaned, show (left.withPool pool).resident.pool.acquire = some (frame, twin) from
      loanedTwin]
    exact .done ⟨twin, agree, rfl⟩

/-! ## Bringing a page in -/

/-- A page that comes in takes the place of whatever was in its frame. If it cannot, the frame may
hold anything. -/
theorem endAlike_bringIn (agree : left.AgreeBut (some frame) right) (page : Page) :
    EndAlike (fun _ => SameButFree) (fun _ => AgreeBut (some frame)) (bringIn page frame left)
      (bringIn page frame right) := by
  unfold bringIn
  rw [get_bind_apply, get_bind_apply]
  refine (agree.read frame).endAlike_bind fun bytes other _ => ?_
  have alike := page.backing.endAlike_bringIn page.address left.store bytes other
  rw [agree.store]
  generalize page.backing.bringIn page.address ⟨left.store, bytes⟩ = outcome at alike ⊢
  generalize page.backing.bringIn page.address ⟨left.store, other⟩ = twin at alike ⊢
  have replaces {hand : Option PhysAddr} {state twin : Machine} (store : BackingStore)
      (now : state.AgreeBut hand twin) :
      AgreeBut hand { state with store } { twin with store } := by
    obtain ⟨pool, pools, rfl⟩ := now
    exact ⟨pool, pools, rfl⟩
  cases alike with
  | @done backing transfer _ sameTransfer =>
      subst sameTransfer
      exact endAlike_bind _ (endAlike_write agree _) fun _ _ _ filled =>
        .done (replaces _ filled)
  | @failed error transfer twin sameStore =>
      dsimp only
      rw [sameStore]
      exact endAlike_bind _ (endAlike_spoil agree transfer.bytes twin.bytes) fun _ _ _ spoiled =>
        .failed (replaces _ spoiled)
  | halted fault => exact .halted fault

/-- After a frame in hand was given back, an error is reported. -/
theorem endSame_releaseFrame_fail (agree : left.AgreeBut (some frame) right) (error : Errno) :
    ((do releaseFrame frame; Action.fail error : Action Machine Unit) left).EndSame
      ((do releaseFrame frame; Action.fail error : Action Machine Unit) right) :=
  endAlike_bind _ (endAlike_releaseFrame agree) fun _ _ _ now => .failed now

/-- After it was tried to bring a page in, its frame is still in hand only if that failed. -/
def AgreeAfterBringIn (frame : PhysAddr) : Except Errno Backing → Machine → Machine → Prop
  | .ok _ => SameButFree
  | .error _ => AgreeBut (some frame)

/-- With a frame in hand, a page comes into it, or the frame goes back. -/
theorem endSame_pageIn (agree : left.AgreeBut (some frame) right) (pid : Pid)
    (space : AddressSpace) (page : Page) :
    (pageIn pid space page frame left).EndSame (pageIn pid space page frame right) := by
  unfold pageIn
  cases space.table.map page.address frame page.permission with
  | error cause => exact endSame_releaseFrame_fail agree _
  | ok table =>
      dsimp only
      rw [get_bind_apply, get_bind_apply]
      refine endAlike_bind _ (endAlike_link agree frame ⟨pid, page.address⟩) fun _ _ _ linked => ?_
      have attempted : EndAlike (AgreeAfterBringIn frame) (fun _ => SameButFree) _ _ :=
        endAlike_attempt (endAlike_bringIn linked page)
      refine endAlike_bind _ attempted ?_
      rintro (error | backing) _ _ now
      · exact endSame_releaseFrame_fail now error
      · exact (avoidsFrames_setSpace ..).alike now

/-- A page is brought in alike, whatever was in the frame that is taken for it. -/
theorem ignoresFree_makeResident (pid : Pid) (address : VirtAddr) :
    (makeResident pid address).IgnoresFree := by
  refine ⟨fun {left right} sound same => ?_⟩
  unfold makeResident
  rw [get_bind_apply, get_bind_apply, same.findPage?]
  cases left.findPage? pid address with
  | none => exact .failed same
  | some page =>
      dsimp only
      split
      · exact .done same
      · refine endAlike_bind _ (endAlike_takeFrame sound same) fun frame state twin agree => ?_
        rw [get_bind_apply, get_bind_apply, agree.spaces]
        cases state.spaces[pid]? with
        | none => exact endSame_releaseFrame_fail agree _
        | some space =>
            dsimp only
            cases space.pages.find? address with
            | none => exact endSame_releaseFrame_fail agree _
            | some page => exact endSame_pageIn agree pid space page

/-! ## Removing a page -/

/-- A page of which the frame is on loan is removed alike. -/
theorem endSame_destroyPage (same : left.SameButFree right) (table : PageTable) (page : Page)
    (loaned : ∀ frame, page.frame = some frame → left.resident.pool.isLoaned frame = true) :
    (destroyPage table page left).EndSame (destroyPage table page right) := by
  unfold destroyPage
  cases held : page.frame with
  | none =>
      exact AvoidsFrames.alike ((AvoidsFrames.onStore _).bind fun _ =>
        (AvoidsFrames.onStore _).bind fun _ => .pure table) same
  | some frame =>
      dsimp only
      rw [get_bind_apply, get_bind_apply]
      refine (same.read frame).endAlike_bind fun bytes _ sameBytes => ?_
      obtain rfl := sameBytes (loaned frame held) (by simp)
      refine endAlike_bind _ ((AvoidsFrames.onStore _).alike same) fun _ _ _ sameNow => ?_
      rcases table.unmap page.address with ⟨cause | old, rest⟩
      · exact .halted _
      · dsimp only
        rw [get_bind_apply, get_bind_apply]
        refine endAlike_bind _ (endAlike_write (sameNow.inHand frame) Block.zero)
          fun _ _ _ cleared => ?_
        refine endAlike_bind _ (endAlike_releaseFrame (cleared.inHand frame)) fun _ _ _ gone => ?_
        exact AvoidsFrames.alike ((AvoidsFrames.onStore _).bind fun _ => .pure rest) gone

end Machine

end DemandPaging
