import DemandPaging.ResidentSet
import DemandPaging.Proofs.FramePool

/-!
The agreement between the frame pool, the owners of frames and the queue.

Owns:
- `ResidentSet.Sound`, the frames on loan are those that have an owner, and those are the frames of
  the queue, each queued once;
- what loaning a frame to a page, writing a frame and taking a frame back do to owners, queue and
  contents.

Does not own: whether the owner of a frame knows about it (`Machine.FramesOwned`).

Main statements: `Sound.occupy` and `Sound.release`, a frame that a page gets is taken from the pool
and one that a page loses goes back to it; `Sound.abandon`, a page that gets a frame and loses it
leaves nothing behind but bytes.
-/

namespace DemandPaging

namespace ResidentSet

def contents? (set : ResidentSet) (frame : PhysAddr) : Option PageData :=
  (set.pool.frame? frame).map PoolFrame.contents

/-- The pool, the owners and the queue agree on which frames are occupied. -/
structure Sound (set : ResidentSet) : Prop where
  pool : set.pool.Sound
  loaned : ∀ frame, set.pool.isLoaned frame = (set.owner? frame).isSome
  nodup : set.queue.Nodup
  queued : ∀ frame, frame ∈ set.queue ↔ (set.owner? frame).isSome = true

theorem sound_create (count : Nat) : (create (FramePool.create count)).Sound where
  pool := FramePool.sound_create count
  loaned frame := by simp [create, owner?, FramePool.isLoaned_create]
  nodup := List.nodup_nil
  queued frame := by simp [create, owner?]

theorem read_eq_ok_iff {set : ResidentSet} {frame : PhysAddr} {bytes : PageData} :
    set.read frame = .ok bytes ↔ set.contents? frame = some bytes := by
  unfold read contents?
  rw [FramePool.read_eq_ok_iff]
  simp

variable {set result : ResidentSet} {frame : PhysAddr}

theorem Sound.isLoaned_of_owned {owner : FrameOwner} (sound : set.Sound)
    (owned : set.owner? frame = some owner) : set.pool.isLoaned frame = true := by
  rw [sound.loaned, owned]
  rfl

theorem Sound.contents?_isSome {owner : FrameOwner} (sound : set.Sound)
    (owned : set.owner? frame = some owner) : (set.contents? frame).isSome = true := by
  obtain ⟨found, atFrame, -⟩ :=
    FramePool.isLoaned_eq_true_iff.1 (sound.isLoaned_of_owned owned)
  simp [contents?, atFrame]

/-! ## Writing a frame -/

theorem exists_write_eq_ok (inPool : (set.contents? frame).isSome = true) (contents : PageData) :
    ∃ result, set.write frame contents = .ok result := by
  obtain ⟨bytes, atFrame⟩ := Option.isSome_iff_exists.1 inPool
  obtain ⟨found, atFrame', -⟩ := Option.map_eq_some_iff.1 atFrame
  obtain ⟨pool, wrote, -⟩ := FramePool.write_eq_ok atFrame' contents
  exact ⟨{ set with pool }, by simp [write, wrote, bind, Except.bind]⟩

theorem of_write {contents : PageData} (wrote : set.write frame contents = .ok result) :
    set.pool.write frame contents = .ok result.pool ∧ result.owners = set.owners ∧
      result.queue = set.queue ∧
      ∀ other, result.contents? other =
        if frame = other then some contents else set.contents? other := by
  unfold write at wrote
  cases wrotePool : set.pool.write frame contents with
  | error fault => simp [wrotePool, bind, Except.bind] at wrote
  | ok pool =>
      simp only [wrotePool, bind, Except.bind, Except.ok.injEq] at wrote
      subst wrote
      refine ⟨rfl, rfl, rfl, fun other => ?_⟩
      obtain ⟨found, -, -, -, frames⟩ := FramePool.of_write wrotePool
      simp only [contents?, frames]
      split <;> simp

theorem owner?_of_write {contents : PageData} (wrote : set.write frame contents = .ok result)
    (other : PhysAddr) : result.owner? other = set.owner? other := by
  rw [owner?, (of_write wrote).2.1, owner?]

theorem Sound.write {contents : PageData} (sound : set.Sound)
    (wrote : set.write frame contents = .ok result) : result.Sound := by
  obtain ⟨wrotePool, -, queue, -⟩ := of_write wrote
  refine ⟨sound.pool.write wrotePool, fun other => ?_, queue ▸ sound.nodup, fun other => ?_⟩
  · rw [owner?_of_write wrote, ← sound.loaned]
    obtain ⟨found, atFrame, -, -, frames⟩ := FramePool.of_write wrotePool
    unfold FramePool.isLoaned
    rw [frames]
    split
    case isTrue here => subst here; simp [atFrame]
    case isFalse => rfl
  · rw [queue, owner?_of_write wrote, sound.queued]

/-! ## Owners and queue -/

/-- A frame is linked if it has no owner and is not queued. -/
theorem link_eq_ok_iff {linked : ResidentSet} {owner : FrameOwner} :
    set.link frame owner = .ok linked ↔ set.owner? frame = none ∧ frame ∉ set.queue ∧
      { set with owners := set.owners.insert frame owner, queue := set.queue ++ [frame] } =
        linked := by
  unfold link
  cases set.owner? frame with
  | some previous => simp
  | none =>
      by_cases queued : frame ∈ set.queue
      · simp [queued]
      · simp [queued]

theorem owner?_of_link {linked : ResidentSet} {owner : FrameOwner}
    (link : set.link frame owner = .ok linked) (other : PhysAddr) :
    linked.owner? other = if frame = other then some owner else set.owner? other := by
  obtain ⟨-, -, rfl⟩ := link_eq_ok_iff.1 link
  rw [owner?, Std.ExtTreeMap.getElem?_insert]
  simp [owner?]

theorem owner?_unlink (other : PhysAddr) :
    (set.unlink frame).owner? other = if frame = other then none else set.owner? other := by
  rw [owner?, unlink, Std.ExtTreeMap.getElem?_erase]
  simp [owner?]

theorem mem_queue_unlink {other : PhysAddr} :
    other ∈ (set.unlink frame).queue ↔ other ∈ set.queue ∧ other ≠ frame := by
  simp [unlink]

/-- A frame is released if the pool takes it back. -/
theorem release_eq_ok_iff :
    set.release frame = .ok result ↔
      ∃ pool, set.pool.release frame = .ok pool ∧ { set.unlink frame with pool } = result := by
  have atPool : (set.unlink frame).pool.release frame = set.pool.release frame := rfl
  unfold release
  cases released : set.pool.release frame with
  | error fault => simp [atPool, released, bind, Except.bind]
  | ok pool => simp [atPool, released, bind, Except.bind]

/-! ## Taking a frame from the pool -/

/-- What a set looks like while a free frame of it is in hand. -/
structure Taken (set : ResidentSet) (frame : PhysAddr) (taken : ResidentSet) : Prop where
  owners : taken.owners = set.owners
  queue : taken.queue = set.queue
  vacant : set.owner? frame = none
  unqueued : frame ∉ set.queue
  contents : ∀ other, taken.contents? other = set.contents? other
  inPool : (set.contents? frame).isSome = true
  aligned : frame.offset = 0
  physical : frame.toNat < PhysAddr.bound
  back : taken.release frame = .ok set

private theorem erase_of_vacant {owners : Std.ExtTreeMap PhysAddr FrameOwner}
    (vacant : owners[frame]? = none) : owners.erase frame = owners := by
  apply Std.ExtTreeMap.ext_getElem?
  intro other
  rw [Std.ExtTreeMap.getElem?_erase]
  by_cases same : frame = other
  · subst same; simp [vacant]
  · simp [same]

private theorem erase_insert_of_vacant {owners : Std.ExtTreeMap PhysAddr FrameOwner}
    {owner : FrameOwner} (vacant : owners[frame]? = none) :
    (owners.insert frame owner).erase frame = owners := by
  apply Std.ExtTreeMap.ext_getElem?
  intro other
  rw [Std.ExtTreeMap.getElem?_erase, Std.ExtTreeMap.getElem?_insert]
  by_cases same : frame = other
  · subst same; simp [vacant]
  · simp [same]

private theorem filter_of_not_mem {queue : List PhysAddr} (unqueued : frame ∉ queue) :
    queue.filter (fun queued => queued ≠ frame) = queue := by
  rw [List.filter_eq_self]
  intro queued member
  have different : queued ≠ frame := by
    intro same
    exact unqueued (same ▸ member)
  simpa using different

theorem Sound.taken {taken : ResidentSet} (sound : set.Sound)
    (acquired : set.acquire = some (frame, taken)) : set.Taken frame taken := by
  obtain ⟨⟨address, pool⟩, acquiredPool, same⟩ := Option.map_eq_some_iff.1 acquired
  obtain ⟨rfl, rfl⟩ := Prod.mk.inj same
  obtain ⟨-, -, -, found, atFrame, notLoaned, frames⟩ := sound.pool.acquire acquiredPool
  have vacant : set.owner? address = none := by
    have loaned := sound.loaned address
    rw [FramePool.isLoaned_of_frame? atFrame, notLoaned] at loaned
    simpa using loaned.symm
  have unqueued : address ∉ set.queue := by simp [sound.queued, vacant]
  refine ⟨rfl, rfl, vacant, unqueued, fun other => ?_, by simp [contents?, atFrame],
    FramePool.offset_of_frame? atFrame, FramePool.lt_bound_of_frame? atFrame, ?_⟩
  · simp only [contents?, frames]
    split
    case isTrue here => subst here; simp [atFrame]
    case isFalse => rfl
  · have released := sound.pool.release_of_acquire acquiredPool
    simp only [release, unlink, released, bind, Except.bind]
    rw [erase_of_vacant vacant, filter_of_not_mem unqueued]

/-- A frame in hand can be given to a page. -/
theorem Taken.exists_link_eq_ok {taken : ResidentSet} (inHand : set.Taken frame taken)
    (owner : FrameOwner) : ∃ linked, taken.link frame owner = .ok linked := by
  have vacant : taken.owner? frame = none := by
    rw [owner?, inHand.owners]
    exact inHand.vacant
  have unqueued : frame ∉ taken.queue := inHand.queue ▸ inHand.unqueued
  exact ⟨_, link_eq_ok_iff.2 ⟨vacant, unqueued, rfl⟩⟩

theorem Taken.of_link {taken linked : ResidentSet} {owner : FrameOwner}
    (inHand : set.Taken frame taken) (link : taken.link frame owner = .ok linked) :
    linked.owners = set.owners.insert frame owner ∧ linked.queue = set.queue ++ [frame] ∧
      linked.pool = taken.pool := by
  obtain ⟨-, -, rfl⟩ := link_eq_ok_iff.1 link
  exact ⟨by rw [inHand.owners], by rw [inHand.queue], rfl⟩

/-- A page that gets a free frame owns it, and the frame is last in the queue. -/
theorem Sound.occupy {taken linked : ResidentSet} {owner : FrameOwner} (sound : set.Sound)
    (acquired : set.acquire = some (frame, taken)) (link : taken.link frame owner = .ok linked) :
    linked.Sound ∧ linked.queue = set.queue ++ [frame] ∧
      (∀ other, linked.owner? other = if frame = other then some owner else set.owner? other) ∧
      ∀ other, linked.contents? other = set.contents? other := by
  have inHand := sound.taken acquired
  obtain ⟨owners, queue, pool⟩ := inHand.of_link link
  have owner' (other : PhysAddr) :
      linked.owner? other = if frame = other then some owner else set.owner? other := by
    rw [owner?_of_link link, owner?, inHand.owners, owner?]
  obtain ⟨⟨address, rest⟩, acquiredPool, same⟩ := Option.map_eq_some_iff.1 acquired
  obtain ⟨rfl, rfl⟩ := Prod.mk.inj same
  obtain ⟨soundRest, -, -, found, atFrame, -, frames⟩ := sound.pool.acquire acquiredPool
  refine ⟨⟨pool ▸ soundRest, fun other => ?_, ?_, fun other => ?_⟩, queue, owner', ?_⟩
  · rw [pool, owner']
    show rest.isLoaned other = _
    unfold FramePool.isLoaned
    rw [frames]
    split
    · rfl
    · exact sound.loaned other
  · rw [queue, List.nodup_append]
    refine ⟨sound.nodup, List.nodup_singleton _, ?_⟩
    intro queued member last atLast same
    rw [List.mem_singleton] at atLast
    exact inHand.unqueued (atLast ▸ same ▸ member)
  · rw [queue, owner', List.mem_append, List.mem_singleton, sound.queued]
    by_cases same : address = other
    · simp [same]
    · simp [same, Ne.symm same]
  · intro other
    rw [← inHand.contents other, contents?, pool, contents?]

/-- A page that gets a frame and loses it again leaves nothing behind but the bytes of the frame. -/
theorem Sound.abandon {taken linked dirty : ResidentSet} {owner : FrameOwner}
    {contents : PageData} (sound : set.Sound) (acquired : set.acquire = some (frame, taken))
    (link : taken.link frame owner = .ok linked)
    (wrote : linked.write frame contents = .ok dirty) :
    ∃ result, dirty.release frame = .ok result ∧ set.write frame contents = .ok result := by
  have inHand := sound.taken acquired
  obtain ⟨owners, queue, pool⟩ := inHand.of_link link
  obtain ⟨⟨address, rest⟩, acquiredPool, same⟩ := Option.map_eq_some_iff.1 acquired
  obtain ⟨rfl, rfl⟩ := Prod.mk.inj same
  obtain ⟨wrotePool, dirtyOwners, dirtyQueue, -⟩ := of_write wrote
  rw [pool] at wrotePool
  obtain ⟨pool', released, written⟩ :=
    sound.pool.release_of_acquire_write acquiredPool wrotePool
  refine ⟨{ set with pool := pool' }, ?_, ?_⟩
  · simp only [release, unlink, released, bind, Except.bind]
    -- The frame was put last in the queue, so taking it off restores the queue.
    rw [dirtyOwners, dirtyQueue, owners, queue, erase_insert_of_vacant inHand.vacant,
      List.filter_append, filter_of_not_mem inHand.unqueued]
    simp
  · simp [ResidentSet.write, written, bind, Except.bind]

/-! ## Taking a frame back -/

/-- A page that loses its frame gives it back to the pool, and it is the next to be taken. -/
theorem Sound.release {owner : FrameOwner} (sound : set.Sound)
    (owned : set.owner? frame = some owner) :
    ∃ result, set.release frame = .ok result ∧ result.Sound ∧
      result.acquire = some (frame, set.unlink frame) ∧
      result.queue = set.queue.filter (fun queued => queued ≠ frame) ∧
      (∀ other, result.owner? other = if frame = other then none else set.owner? other) ∧
      ∀ other, result.contents? other = set.contents? other := by
  obtain ⟨pool, found, released, soundPool, -, -, acquired, atFrame, -, frames⟩ :=
    sound.pool.release (sound.isLoaned_of_owned owned)
  refine ⟨{ set.unlink frame with pool }, release_eq_ok_iff.2 ⟨pool, released, rfl⟩,
    ⟨soundPool, fun other => ?_, sound.nodup.filter _, fun other => ?_⟩, ?_, rfl, owner?_unlink,
    fun other => ?_⟩
  · show pool.isLoaned other = ((set.unlink frame).owner? other).isSome
    rw [owner?_unlink, FramePool.isLoaned_of_loan frames]
    split
    · rfl
    · exact sound.loaned other
  · show other ∈ set.queue.filter _ ↔ ((set.unlink frame).owner? other).isSome = true
    rw [List.mem_filter, sound.queued, owner?_unlink]
    by_cases same : frame = other
    · simp [same]
    · simp [same, Ne.symm same]
  · simp only [acquire, acquired, Option.map_some]
    rfl
  · simp only [contents?, frames]
    split
    case isTrue here => subst here; simp [atFrame]
    case isFalse => rfl

theorem Sound.of_release {owner : FrameOwner} (sound : set.Sound)
    (owned : set.owner? frame = some owner) (released : set.release frame = .ok result) :
    result.Sound ∧ result.queue = set.queue.filter (fun queued => queued ≠ frame) ∧
      (∀ other, result.owner? other = if frame = other then none else set.owner? other) ∧
      ∀ other, result.contents? other = set.contents? other := by
  obtain ⟨found, released', soundFound, -, rest⟩ := sound.release owned
  rw [released] at released'
  cases released'
  exact ⟨soundFound, rest⟩

/-- A frame that is written and given back keeps what was written, but belongs to no page. -/
theorem Sound.of_write_release {written : ResidentSet} {contents : PageData}
    {owner : FrameOwner} (sound : set.Sound) (owned : set.owner? frame = some owner)
    (wrote : set.write frame contents = .ok written)
    (released : written.release frame = .ok result) :
    result.Sound ∧
      (∀ other, result.owner? other = if frame = other then none else set.owner? other) ∧
      ∀ other, result.contents? other =
        if frame = other then some contents else set.contents? other := by
  have ownedHere := (owner?_of_write wrote frame).trans owned
  obtain ⟨soundResult, -, owners, bytes⟩ := (sound.write wrote).of_release ownedHere released
  refine ⟨soundResult, fun other => ?_, fun other => ?_⟩
  · rw [owners, owner?_of_write wrote]
  · rw [bytes, (of_write wrote).2.2.2]

/-! ## The number of free frames -/

theorem Sound.freeCount_of_release {owner : FrameOwner} (sound : set.Sound)
    (owned : set.owner? frame = some owner) (released : set.release frame = .ok result) :
    result.pool.freeCount = set.pool.freeCount + 1 := by
  obtain ⟨pool, _, releasedPool, -, -, freeCount, -⟩ :=
    sound.pool.release (sound.isLoaned_of_owned owned)
  obtain ⟨found, atPool, rfl⟩ := release_eq_ok_iff.1 released
  rw [releasedPool] at atPool
  cases atPool
  exact freeCount

theorem Sound.freeCount_of_acquire {taken : ResidentSet} (sound : set.Sound)
    (acquired : set.acquire = some (frame, taken)) :
    taken.pool.freeCount + 1 = set.pool.freeCount := by
  obtain ⟨⟨address, pool⟩, acquiredPool, same⟩ := Option.map_eq_some_iff.1 acquired
  cases same
  exact (sound.pool.acquire acquiredPool).2.2.1

theorem Sound.freeCount_of_exhausted (sound : set.Sound) (exhausted : set.acquire = none) :
    set.pool.freeCount = 0 := by
  rw [acquire, Option.map_eq_none_iff, sound.pool.acquire_eq_none_iff] at exhausted
  rw [FramePool.freeCount, exhausted]
  rfl

theorem freeCount_of_write {contents : PageData} (wrote : set.write frame contents = .ok result) :
    result.pool.freeCount = set.pool.freeCount := by
  obtain ⟨_, -, free, -⟩ := FramePool.of_write (of_write wrote).1
  rw [FramePool.freeCount, free, FramePool.freeCount]

/-! ## The number of all frames -/

theorem capacity_of_write {contents : PageData} (wrote : set.write frame contents = .ok result) :
    result.pool.capacity = set.pool.capacity := by
  obtain ⟨_, -, -, size, -⟩ := FramePool.of_write (of_write wrote).1
  exact size

theorem Sound.capacity_of_acquire {taken : ResidentSet} (sound : set.Sound)
    (acquired : set.acquire = some (frame, taken)) :
    taken.pool.capacity = set.pool.capacity := by
  obtain ⟨⟨address, pool⟩, acquiredPool, same⟩ := Option.map_eq_some_iff.1 acquired
  cases same
  exact (sound.pool.acquire acquiredPool).2.1

theorem Sound.capacity_of_release {owner : FrameOwner} (sound : set.Sound)
    (owned : set.owner? frame = some owner) (released : set.release frame = .ok result) :
    result.pool.capacity = set.pool.capacity := by
  obtain ⟨pool, _, releasedPool, -, size, -⟩ :=
    sound.pool.release (sound.isLoaned_of_owned owned)
  obtain ⟨found, atPool, rfl⟩ := release_eq_ok_iff.1 released
  rw [releasedPool] at atPool
  cases atPool
  exact size

/-! ## The queue -/

/-- A frame that is off the queue already is unlinked with the same result. -/
theorem Sound.unlink_erase (sound : set.Sound) :
    ({ set with queue := set.queue.erase frame } : ResidentSet).unlink frame =
      set.unlink frame := by
  unfold unlink
  rw [sound.nodup.erase_eq_filter, List.filter_filter]
  congr 2
  funext queued
  by_cases same : queued = frame
  · simp [same]
  · simp [same]

theorem Sound.requeue (sound : set.Sound) (queued : frame ∈ set.queue) :
    ({ set with queue := set.queue.erase frame ++ [frame] } : ResidentSet).Sound ∧
      (set.queue.erase frame ++ [frame]).Perm set.queue := by
  have perm : (set.queue.erase frame ++ [frame]).Perm set.queue :=
    List.perm_append_singleton frame (set.queue.erase frame) |>.trans
      (List.perm_cons_erase queued).symm
  exact ⟨⟨sound.pool, sound.loaned, perm.nodup_iff.2 sound.nodup,
    fun other => perm.mem_iff.trans (sound.queued other)⟩, perm⟩

end ResidentSet

end DemandPaging
