import DemandPaging.Proofs.Reachable

/-!
Frames between two events.

Owns:
- the count of free and occupied frames, and that no step changes their total;
- the agreement, in every reachable state, of the pool, the owners, the queue, the page tables and
  the registries.

Does not own: why single steps keep these records in agreement (`Step.framesOwned`).

Main statement: `Reachable.frames_owned`.
-/

namespace DemandPaging

namespace Machine

variable {machine : Machine} {pid other : Pid} {address place : VirtAddr} {frame : PhysAddr}

theorem FramesOwned.perm_queue (owned : machine.FramesOwned) :
    machine.resident.queue.Perm machine.resident.owners.keys := by
  rw [List.perm_ext_iff_of_nodup owned.resident.nodup Std.ExtTreeMap.nodup_keys]
  intro frame
  rw [owned.resident.queued, Std.ExtTreeMap.mem_keys, Std.ExtTreeMap.mem_iff_isSome_getElem?]
  rfl

theorem FramesOwned.freeFrames_add_residentPages (owned : machine.FramesOwned) :
    machine.freeFrames + machine.residentPages = machine.resident.pool.capacity := by
  have occupied : ∀ frame, frame ∈ machine.resident.owners.keys ↔
      machine.resident.pool.isLoaned frame = true := by
    intro frame
    rw [owned.resident.loaned, Std.ExtTreeMap.mem_keys,
      Std.ExtTreeMap.mem_iff_isSome_getElem?]
    rfl
  have counted := owned.resident.pool.freeCount_add_length Std.ExtTreeMap.nodup_keys occupied
  rw [Std.ExtTreeMap.length_keys] at counted
  exact counted

/-- No step adds or removes a frame. -/
theorem capacity_of_step {before after : Machine} {move : Move} (step : Step move before after)
    (owned : before.FramesOwned) :
    after.resident.pool.capacity = before.resident.pool.capacity := by
  cases step with
  | upkeep upkeep =>
      cases upkeep with
      | spoil _ written => exact ResidentSet.capacity_of_write written
      | ask | requeue | strain => rfl
  | createMapping | retain | outside | setStackPointer | access | register | removeAbsent | arrive
  | leave => rfl
  | overwrite _ _ written => exact ResidentSet.capacity_of_write written
  | pageOut found registered held _ _ _ released =>
      exact owned.resident.capacity_of_release
        (owned.owner?_of_held ((page?_of_space found _).trans registered) held) released
  | pageIn _ _ _ acquired _ link _ _ written =>
      rw [ResidentSet.capacity_of_write written,
        ((owned.resident.taken acquired).of_link link).2.2,
        owned.resident.capacity_of_acquire acquired]
  | removeResident found registered held _ _ _ clear released =>
      have owner := owned.owner?_of_held ((page?_of_space found _).trans registered) held
      have ownerHere := (ResidentSet.owner?_of_write clear _).trans owner
      rw [(owned.resident.write clear).capacity_of_release ownerHere released,
        ResidentSet.capacity_of_write clear]

theorem capacity_of_path {before after : Machine} {allowed : Move → Prop}
    (path : Path allowed before after) (sound : before.Sound) :
    after.resident.pool.capacity = before.resident.pool.capacity := by
  refine path.keeps_of_sound (fun state =>
    state.resident.pool.capacity = before.resident.pool.capacity) sound rfl ?_
  intro _ middle next _ step soundMiddle same
  exact (capacity_of_step step soundMiddle.frames).trans same

/-- A page table says of every page where it is and whether it may be written. -/
theorem FramesOwned.translation?_eq (owned : machine.FramesOwned) (pid : Pid)
    (address : VirtAddr) :
    machine.translation? pid address =
      (machine.page? pid address).bind Page.translation? := by
  unfold translation? page?
  cases found : machine.spaces[pid]? with
  | none => rfl
  | some space => exact (owned.spaces pid space found).1.translated address

/-- A page is in a frame exactly when its page table leads it there, with its permission. -/
theorem FramesOwned.frame?_iff_translation? (owned : machine.FramesOwned) :
    machine.frame? pid address = some frame ↔
      ∃ page, machine.page? pid address = some page ∧
        machine.translation? pid address = some ⟨some frame, page.writable⟩ := by
  rw [owned.translation?_eq, frame?]
  cases registered : machine.page? pid address with
  | none => simp
  | some page =>
      cases held : page.frame with
      | none => simp [held, Page.translation?]
      | some place => simp [held, Page.translation?]

/-- An entry of a page table belongs to a page that is in the frame to which it leads. -/
theorem FramesOwned.frame?_of_translation? (owned : machine.FramesOwned)
    {translation : Translation}
    (mapped : machine.translation? pid address = some translation) :
    ∃ frame, machine.frame? pid address = some frame ∧ translation.frame? = some frame := by
  rw [owned.translation?_eq] at mapped
  obtain ⟨page, registered, translated⟩ := Option.bind_eq_some_iff.1 mapped
  obtain ⟨frame, held, rfl⟩ := Option.map_eq_some_iff.1 translated
  refine ⟨frame, ?_, rfl⟩
  rw [frame?, registered]
  exact held

theorem FramesOwned.isLoaned_of_frame? (owned : machine.FramesOwned)
    (held : machine.frame? pid address = some frame) :
    machine.resident.pool.isLoaned frame = true := by
  rw [owned.resident.loaned, (owned.owner_iff frame pid address).2 held]
  rfl

theorem FramesOwned.eq_of_frame? (owned : machine.FramesOwned)
    (held : machine.frame? pid address = some frame)
    (also : machine.frame? other place = some frame) : pid = other ∧ address = place := by
  have owner := (owned.owner_iff frame pid address).2 held
  rw [(owned.owner_iff frame other place).2 also, Option.some.injEq, FrameOwner.mk.injEq] at owner
  exact ⟨owner.1.symm, owner.2.symm⟩

/-- Between two events every frame is free or belongs to one page: the page that says so, whose
page table leads there with the page's permission, and for which the frame is on loan. The queue
lists each of these frames once. -/
theorem Reachable.frames_owned (reachable : machine.Reachable) :
    machine.freeFrames + machine.residentPages = machine.resident.pool.capacity ∧
    (∀ pid address frame,
      (machine.frame? pid address = some frame ↔
        machine.resident.owner? frame = some ⟨pid, address⟩) ∧
      (machine.frame? pid address = some frame ↔
        ∃ page, machine.page? pid address = some page ∧
          machine.translation? pid address = some ⟨some frame, page.writable⟩) ∧
      (machine.frame? pid address = some frame →
        machine.resident.pool.isLoaned frame = true)) ∧
    (∀ pid address translation, machine.translation? pid address = some translation →
      ∃ frame, machine.frame? pid address = some frame ∧ translation.frame? = some frame) ∧
    (∀ pid address other place frame, machine.frame? pid address = some frame →
      machine.frame? other place = some frame → pid = other ∧ address = place) ∧
    machine.resident.queue.Perm machine.resident.owners.keys ∧ machine.resident.queue.Nodup := by
  have owned := reachable.sound.frames
  refine ⟨owned.freeFrames_add_residentPages, fun pid address frame => ⟨?_, ?_, ?_⟩, ?_, ?_, ?_, ?_⟩
  · exact (owned.owner_iff frame pid address).symm
  · exact owned.frame?_iff_translation?
  · exact owned.isLoaned_of_frame?
  · intro pid address translation mapped
    exact owned.frame?_of_translation? mapped
  · intro pid address other place frame held also
    exact owned.eq_of_frame? held also
  · exact owned.perm_queue
  · exact owned.resident.nodup

/-- The page that was written last has the only frame of the crowded machine. -/
theorem frames_owned_crowded :
    ∃ machine frame, tiny.after? crowding = some machine ∧
      machine.frame? ⟨1⟩ secondPage = some frame ∧
      machine.resident.owner? frame = some ⟨⟨1⟩, secondPage⟩ ∧
      machine.freeFrames + machine.residentPages = machine.resident.pool.capacity := by
  have resident : ((tiny.after? crowding).bind fun machine =>
      machine.frame? ⟨1⟩ secondPage).isSome = true := by decide +kernel
  obtain ⟨frame, held⟩ := Option.isSome_iff_exists.1 resident
  obtain ⟨machine, run, held⟩ := Option.bind_eq_some_iff.1 held
  have ownership := (reachable_tiny.of_after? run).frames_owned
  exact ⟨machine, frame, run, held, (ownership.2.1 _ _ _).1.1 held, ownership.1⟩

end Machine

end DemandPaging
