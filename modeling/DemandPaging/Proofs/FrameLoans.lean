import DemandPaging.Proofs.ResidentSet
import DemandPaging.Proofs.SecondChance

/-!
Frames in the hands of a caller, whatever it does with them.

Owns:
- `ResidentSet.Call`, one call by a caller that holds some frames, and `ResidentSet.Used`, any
  number of them;
- `ResidentSet.Orderly`, how pool, owners, queue and the frames that are held agree in between.

Does not own: sets whose queue holds exactly the frames with an owner (`ResidentSet.Sound`), as the
machine keeps them between two of its steps.

A victim that was chosen keeps its owner but is off the queue, and a frame that was unlinked stays
in the hands of the caller without an owner. So less agrees here than in a sound set.

Main statement: `Used.orderly_and_answers`.
-/

namespace DemandPaging

namespace ResidentSet

/-! ## Calls -/

/-- One call by a caller that holds some frames: what it leaves, and which frames are held then. A
frame is linked, unlinked and released by who holds it. -/
inductive Call (set : ResidentSet) (held : List PhysAddr) : ResidentSet → List PhysAddr → Prop where
  | acquire {frame : PhysAddr} {taken : ResidentSet}
      (acquired : set.acquire = some (frame, taken)) : Call set held taken (frame :: held)
  | exhausted (exhausted : set.acquire = none) : Call set held set held
  | link {frame : PhysAddr} {owner : FrameOwner} {linked : ResidentSet} (holds : frame ∈ held)
      (link : set.link frame owner = .ok linked) : Call set held linked held
  | unlink {frame : PhysAddr} (holds : frame ∈ held) : Call set held (set.unlink frame) held
  | release {frame : PhysAddr} {released : ResidentSet} (holds : frame ∈ held)
      (release : set.release frame = .ok released) : Call set held released (held.erase frame)
  | selectVictim {State : Type} {ask : Question State} {before later : State} {rest : ResidentSet}
      {victim? : Option (PhysAddr × FrameOwner)}
      (selected : set.selectVictim ask before = .ok (victim?, rest, later)) :
      Call set held rest held

/-- A set after any calls, and the frames that the caller holds. The pool that it starts with may be
fresh, or have frames on loan elsewhere. -/
inductive Used : ResidentSet → List PhysAddr → Prop where
  | start {pool : FramePool} (sound : pool.Sound) : Used (create pool) []
  | call {set after : ResidentSet} {held left : List PhysAddr} (used : Used set held)
      (call : Call set held after left) : Used after left

variable {set after rest linked released taken : ResidentSet} {held left : List PhysAddr}
  {frame other : PhysAddr} {owner : FrameOwner} {pool : FramePool}

/-! ## What every call keeps -/

/-- The frames of the queue have owners, those with an owner are held, and those that are held are
on loan, each of them once. -/
structure Orderly (set : ResidentSet) (held : List PhysAddr) : Prop where
  pool : set.pool.Sound
  nodup_queue : set.queue.Nodup
  owned_of_queued : ∀ frame ∈ set.queue, (set.owner? frame).isSome = true
  held_of_owned : ∀ frame, (set.owner? frame).isSome = true → frame ∈ held
  loaned_of_held : ∀ frame ∈ held, set.pool.isLoaned frame = true
  nodup_held : held.Nodup

namespace Orderly

theorem create (sound : pool.Sound) : (create pool).Orderly [] where
  pool := sound
  nodup_queue := List.nodup_nil
  owned_of_queued := nofun
  held_of_owned frame owned := by simp [ResidentSet.create, owner?] at owned
  loaned_of_held := nofun
  nodup_held := List.nodup_nil

theorem acquire (orderly : set.Orderly held) (acquired : set.acquire = some (frame, taken)) :
    taken.Orderly (frame :: held) := by
  obtain ⟨⟨address, rest⟩, acquiredPool, same⟩ := Option.map_eq_some_iff.1 acquired
  obtain ⟨rfl, rfl⟩ := Prod.mk.inj same
  obtain ⟨soundRest, -, -, found, atFrame, notLoaned, frames⟩ := orderly.pool.acquire acquiredPool
  have fresh : address ∉ held := by
    intro holds
    have loaned := orderly.loaned_of_held address holds
    rw [FramePool.isLoaned_of_frame? atFrame, notLoaned] at loaned
    cases loaned
  refine ⟨soundRest, orderly.nodup_queue, orderly.owned_of_queued, fun other owned => ?_,
    fun other holds => ?_, List.nodup_cons.2 ⟨fresh, orderly.nodup_held⟩⟩
  · exact List.mem_cons_of_mem _ (orderly.held_of_owned other owned)
  · show rest.isLoaned other = true
    rw [FramePool.isLoaned_of_loan frames]
    split
    case isTrue => rfl
    case isFalse elsewhere =>
      exact orderly.loaned_of_held other (List.mem_of_ne_of_mem (Ne.symm elsewhere) holds)

theorem link (orderly : set.Orderly held) (holds : frame ∈ held)
    (link : set.link frame owner = .ok linked) : linked.Orderly held := by
  have owners := owner?_of_link link
  obtain ⟨-, unqueued, rfl⟩ := link_eq_ok_iff.1 link
  refine ⟨orderly.pool, ?_, fun other queued => ?_, fun other owned => ?_,
    orderly.loaned_of_held, orderly.nodup_held⟩
  · exact List.nodup_append.2 ⟨orderly.nodup_queue, List.nodup_singleton _, by
      rintro queued listed last atLast rfl
      exact unqueued (List.mem_singleton.1 atLast ▸ listed)⟩
  · rw [owners]
    split
    case isTrue => rfl
    case isFalse elsewhere =>
      have listed : other ∈ set.queue := by
        simpa [Ne.symm elsewhere] using queued
      exact orderly.owned_of_queued other listed
  · rw [owners] at owned
    split at owned
    case isTrue here => exact here ▸ holds
    case isFalse => exact orderly.held_of_owned other owned

theorem unlink (orderly : set.Orderly held) (frame : PhysAddr) :
    (set.unlink frame).Orderly held where
  pool := orderly.pool
  nodup_queue := orderly.nodup_queue.filter _
  owned_of_queued other queued := by
    obtain ⟨listed, elsewhere⟩ := mem_queue_unlink.1 queued
    rw [owner?_unlink, if_neg (Ne.symm elsewhere)]
    exact orderly.owned_of_queued other listed
  held_of_owned other owned := by
    rw [owner?_unlink] at owned
    split at owned
    case isTrue => cases owned
    case isFalse => exact orderly.held_of_owned other owned
  loaned_of_held := orderly.loaned_of_held
  nodup_held := orderly.nodup_held

/-- A frame that is held can be released. It is off the queue then, has no owner, and is the next
one to be acquired. -/
theorem exists_release_eq_ok (orderly : set.Orderly held) (holds : frame ∈ held) :
    ∃ released, set.release frame = .ok released ∧ released.Orderly (held.erase frame) ∧
      frame ∉ released.queue ∧ released.owner? frame = none ∧
      released.acquire = some (frame, set.unlink frame) := by
  obtain ⟨pool, found, releasedPool, soundPool, -, -, acquired, -, -, frames⟩ :=
    orderly.pool.release (orderly.loaned_of_held frame holds)
  have unlinked := orderly.unlink frame
  have vacant : (set.unlink frame).owner? frame = none := by rw [owner?_unlink, if_pos rfl]
  refine ⟨{ set.unlink frame with pool }, release_eq_ok_iff.2 ⟨pool, releasedPool, rfl⟩,
    ⟨soundPool, unlinked.nodup_queue, unlinked.owned_of_queued, fun other owned => ?_,
      fun other remains => ?_, orderly.nodup_held.erase frame⟩, ?_, vacant, ?_⟩
  · have elsewhere : other ≠ frame := by
      rintro rfl
      rw [show ({ set.unlink other with pool } : ResidentSet).owner? other = none from vacant]
        at owned
      cases owned
    exact (List.mem_erase_of_ne elsewhere).2 (unlinked.held_of_owned other owned)
  · obtain ⟨elsewhere, holdsOther⟩ := (orderly.nodup_held.mem_erase_iff).1 remains
    show pool.isLoaned other = true
    rw [FramePool.isLoaned_of_loan frames, if_neg (Ne.symm elsewhere)]
    exact orderly.loaned_of_held other holdsOther
  · exact fun queued => (mem_queue_unlink.1 queued).2 rfl
  · rw [ResidentSet.acquire, acquired]
    rfl

theorem release (orderly : set.Orderly held) (holds : frame ∈ held)
    (release : set.release frame = .ok released) : released.Orderly (held.erase frame) := by
  obtain ⟨result, released', orderlyResult, -⟩ := orderly.exists_release_eq_ok holds
  rw [release] at released'
  cases released'
  exact orderlyResult

theorem selectVictim {State : Type} {ask : Question State} {before later : State}
    {victim? : Option (PhysAddr × FrameOwner)} (orderly : set.Orderly held)
    (selected : set.selectVictim ask before = .ok (victim?, rest, later)) : rest.Orderly held := by
  obtain ⟨_, -, ⟨-, unchanged⟩ | ⟨frame, _, -, -, chosen⟩⟩ :=
    exists_selectVictim_eq_ok ask orderly.owned_of_queued before
  · rw [selected] at unchanged
    cases unchanged
    exact orderly
  · rw [selected] at chosen
    cases chosen
    exact ⟨orderly.pool, orderly.nodup_queue.erase frame,
      fun other queued => orderly.owned_of_queued other (List.mem_of_mem_erase queued),
      orderly.held_of_owned, orderly.loaned_of_held, orderly.nodup_held⟩

end Orderly

/-- Every call keeps the frames in order. -/
theorem Call.orderly (call : Call set held after left) (orderly : set.Orderly held) :
    after.Orderly left := by
  cases call with
  | acquire acquired => exact orderly.acquire acquired
  | exhausted => exact orderly
  | link holds link => exact orderly.link holds link
  | @unlink frame _ => exact orderly.unlink frame
  | release holds release => exact orderly.release holds release
  | selectVictim selected => exact orderly.selectVictim selected

theorem Used.orderly (used : Used set held) : set.Orderly held := by
  induction used with
  | start sound => exact .create sound
  | call _ call inductionHypothesis => exact call.orderly inductionHypothesis

/-! ## What no call meets -/

/-- No lookup of an owner fails, linking stops the machine for a frame with an owner only, and a
frame that is held can be given back. -/
structure Answers (set : ResidentSet) (held : List PhysAddr) : Prop where
  /-- No frame of the queue is without an owner. -/
  victims : set.victims.map Prod.fst = set.queue
  /-- A frame that is acquired was not held, and has no owner yet. -/
  acquire : ∀ frame taken, set.acquire = some (frame, taken) →
    frame ∉ held ∧ taken.owner? frame = none
  selectVictim : ∀ {State : Type} (ask : Question State) (before : State),
    ∃ victim? rest later, set.selectVictim ask before = .ok (victim?, rest, later)
  /-- A frame without an owner is not queued. -/
  link : ∀ frame owner, set.owner? frame = none → ∃ linked, set.link frame owner = .ok linked
  link_owned : ∀ frame owner previous, set.owner? frame = some previous →
    set.link frame owner = .error (.frameOccupied frame owner previous)
  /-- A frame that is released is off the queue, has no owner, and is the next to be acquired. -/
  release : ∀ frame ∈ held, ∃ released, set.release frame = .ok released ∧
    frame ∉ released.queue ∧ released.owner? frame = none ∧
    ∃ again, released.acquire = some (frame, again)

theorem Orderly.answers (orderly : set.Orderly held) : set.Answers held where
  victims := map_fst_victims orderly.owned_of_queued
  acquire frame taken acquired := by
    obtain ⟨fresh, -⟩ := List.nodup_cons.1 (orderly.acquire acquired).nodup_held
    have sameOwners : taken.owner? frame = set.owner? frame := by
      obtain ⟨_, -, same⟩ := Option.map_eq_some_iff.1 acquired
      cases same
      rfl
    refine ⟨fresh, ?_⟩
    by_contra owned
    rw [sameOwners, ← ne_eq, Option.ne_none_iff_isSome] at owned
    exact fresh (orderly.held_of_owned frame owned)
  selectVictim ask before := by
    obtain ⟨_, -, ⟨-, selected⟩ | ⟨_, _, -, -, selected⟩⟩ :=
      exists_selectVictim_eq_ok ask orderly.owned_of_queued before
    · exact ⟨_, _, _, selected⟩
    · exact ⟨_, _, _, selected⟩
  link frame owner vacant := by
    have unqueued : frame ∉ set.queue := by
      intro queued
      have owned := orderly.owned_of_queued frame queued
      rw [vacant] at owned
      cases owned
    exact ⟨_, link_eq_ok_iff.2 ⟨vacant, unqueued, rfl⟩⟩
  link_owned frame owner previous owned := by rw [ResidentSet.link, owned]
  release frame holds := by
    obtain ⟨released, release, -, unqueued, vacant, acquired⟩ := orderly.exists_release_eq_ok holds
    exact ⟨released, release, unqueued, vacant, _, acquired⟩

/-- A free frame is one of the pool and not in the hands of the caller. -/
theorem Orderly.not_held_of_free (orderly : set.Orderly held) {index : Nat}
    (free : index ∈ set.pool.free) :
    ∃ inPool : index < set.pool.frames.size, set.pool.addressOf ⟨index, inPool⟩ ∉ held := by
  obtain ⟨inPool, notLoaned⟩ := (orderly.pool.mem_free_iff index).1 free
  refine ⟨inPool, fun holds => ?_⟩
  have loaned := orderly.loaned_of_held _ holds
  rw [FramePool.isLoaned_addressOf, notLoaned] at loaned
  cases loaned

/-- Whatever calls a caller makes with the frames that it holds, the queue has no duplicates, every
frame on it has an owner, every frame with an owner is on loan, and the frames that are held are on
loan and differ from each other and from every free one. So none of its calls stops the machine but
linking a frame that has an owner. -/
theorem Used.orderly_and_answers (used : Used set held) :
    set.Orderly held ∧ set.Answers held ∧
      (∀ frame, (set.owner? frame).isSome = true → set.pool.isLoaned frame = true) ∧
      ∀ index ∈ set.pool.free, ∃ inPool : index < set.pool.frames.size,
        set.pool.addressOf ⟨index, inPool⟩ ∉ held := by
  have orderly := used.orderly
  exact ⟨orderly, orderly.answers,
    fun frame owned => orderly.loaned_of_held frame (orderly.held_of_owned frame owned),
    fun _ free => orderly.not_held_of_free free⟩

/-- The only frame of a pool is acquired, linked and chosen as the victim: it has its owner still,
but is off the queue. -/
theorem Used.orderly_and_answers_chosen :
    ∃ set held frame owner, Used set held ∧ set.owner? frame = some owner ∧ frame ∉ set.queue ∧
      set.Orderly held ∧ set.Answers held := by
  have unused : Used (create (FramePool.create 1)) [] := .start (FramePool.sound_create 1)
  obtain ⟨⟨frame, taken⟩, acquired⟩ :
      ∃ result, (create (FramePool.create 1)).acquire = some result := ⟨_, rfl⟩
  have emptyQueue : taken.queue = [] := by
    obtain ⟨_, -, same⟩ := Option.map_eq_some_iff.1 acquired
    cases same
    rfl
  have held : Used taken [frame] := unused.call (.acquire acquired)
  have vacant := (unused.orderly.answers.acquire frame taken acquired).2
  obtain ⟨linked, link⟩ := held.orderly.answers.link frame firstOwner vacant
  have occupied : Used linked [frame] := held.call (.link List.mem_cons_self link)
  obtain ⟨-, -, isLinked⟩ := link_eq_ok_iff.1 link
  have queue : linked.queue = [frame] := by
    rw [← isLinked, emptyQueue]
    rfl
  have owner : linked.owner? frame = some firstOwner := by
    rw [← isLinked, owner?, Std.ExtTreeMap.getElem?_insert_self]
  have selected : linked.selectVictim (fun _ _ => (false, ())) () =
      .ok (some (frame, firstOwner), { linked with queue := [] }, ()) := by
    simp [selectVictim, queue, firstUnaccessed, owner, bind, Except.bind]
  have chosen := occupied.call (.selectVictim selected)
  obtain ⟨orderly, answers, -⟩ := chosen.orderly_and_answers
  exact ⟨_, _, frame, firstOwner, chosen, owner, List.not_mem_nil, orderly, answers⟩

end ResidentSet

end DemandPaging
