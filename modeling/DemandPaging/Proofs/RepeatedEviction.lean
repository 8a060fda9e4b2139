import DemandPaging.Proofs.Eviction

/-!
How often an eviction has to be tried.

Owns:
- `Machine.evictAgain`, trying to evict a page until it works, while devices and files may change
  between two attempts;
- `Machine.patience`, how many attempts may fail before the clock takes a certain frame.

Does not own: what a single attempt does (`Machine.Evicted`, `Machine.EvictionFails`).

A frame whose page cannot be saved goes to the end of the queue, and the frames that the clock
passed stay where they are and lose their marks. So a frame whose page can be saved moves to the
front with every attempt that fails, but for one attempt that only clears its mark.

Main statement: `Reachable.eviction_found`.
-/

namespace DemandPaging

theorem Step.of_outside {before after : Machine} (step : Step .outside before after) :
    after.resident = before.resident ∧ after.spaces = before.spaces := by
  cases step
  exact ⟨rfl, rfl⟩

namespace Machine

variable {machine before after : Machine} {victim frame : PhysAddr} {owner : FrameOwner}
  {changes : List (Machine → Machine)}

/-! ## Attempts -/

/-- Try to evict a page, and again after every change from outside until it works or the changes are
used up. -/
def evictAgain : List (Machine → Machine) → Action Machine PhysAddr
  | [], machine => evict machine
  | change :: changes, machine =>
    match evict machine with
    | .failed _ after => evictAgain changes (change after)
    | outcome => outcome

/-- The states in which the attempts begin. -/
def attempts (machine : Machine) : List (Machine → Machine) → List Machine
  | [] => [machine]
  | change :: changes =>
    machine ::
      match evict machine with
      | .failed _ after => (change after).attempts changes
      | .done _ _ | .halted _ => []

/-- How saving the page of an owner ends, if the page is in memory. -/
def saving? (machine : Machine) (owner : FrameOwner) : Option (Outcome BackingStore Backing) := do
  let page ← machine.page? owner.pid owner.address
  let frame ← page.frame
  let bytes ← machine.resident.contents? frame
  some (page.backing.save page.address bytes (machine.isDirty owner.pid owner.address)
    machine.store)

/-- The page of an owner is in memory and can be saved. -/
def Evictable (machine : Machine) (owner : FrameOwner) : Prop :=
  ((machine.saving? owner).bind Outcome.answer?).isSome = true

instance (machine : Machine) (owner : FrameOwner) : Decidable (machine.Evictable owner) :=
  inferInstanceAs (Decidable (_ = true))

/-- Saving a page in memory may fail, but it does not stop the machine. -/
def SavesOrFails (machine : Machine) : Prop :=
  ∀ victim ∈ machine.resident.victims,
    (machine.saving? victim.2).all fun outcome => outcome.state?.isSome

instance (machine : Machine) : Decidable machine.SavesOrFails :=
  inferInstanceAs (Decidable (∀ victim ∈ machine.resident.victims, _ = true))

/-! ## What is left of the queue -/

/-- How many attempts may fail before the clock takes a frame: one for every frame before it, and
one more while its page counts as accessed. -/
def patience (machine : Machine) (frame : PhysAddr) : Nat :=
  machine.resident.queue.idxOf frame + (machine.wasAccessed frame).toNat

theorem patience_le_length (queued : frame ∈ machine.resident.queue) :
    machine.patience frame ≤ machine.resident.queue.length := by
  have before := List.idxOf_lt_length_iff.2 queued
  have mark := Bool.toNat_le (machine.wasAccessed frame)
  unfold patience
  omega

theorem patience_congr (resident : after.resident = before.resident)
    (spaces : after.spaces = before.spaces) (frame : PhysAddr) :
    after.patience frame = before.patience frame := by
  unfold patience wasAccessed
  rw [resident, spaces]

theorem EvictionFails.queue_eq (fails : before.EvictionFails victim after) :
    after.resident.queue = before.resident.queue.erase victim ++ [victim] := by
  rw [fails.same]

theorem EvictionFails.owner?_eq (fails : before.EvictionFails victim after) (frame : PhysAddr) :
    after.resident.owner? frame = before.resident.owner? frame := by
  rw [fails.same]
  rfl

/-- A failed attempt clears the marks of the frames that the clock passed, and no other mark. -/
theorem EvictionFails.wasAccessed_eq (fails : before.EvictionFails victim after)
    (sound : before.Sound) (frame : PhysAddr) :
    after.wasAccessed frame = (before.wasAccessed frame && decide (frame ∉ before.passedBy)) := by
  cases owns : before.resident.owner? frame with
  | none =>
      rw [wasAccessed, fails.owner?_eq, wasAccessed, owns]
      rfl
  | some owner =>
      obtain ⟨pid, address⟩ := owner
      have held := (sound.frames.owner_iff frame pid address).1 owns
      obtain ⟨page, registered, -⟩ := Option.bind_eq_some_iff.1 held
      have aligned := Address.pageDown_eq_self_iff.2 (sound.frames.located registered).2
      rw [wasAccessed_of_owned ((fails.owner?_eq frame).trans owns) aligned,
        wasAccessed_of_owned owns aligned, fails.views, clears, held, Option.any_some]
      cases before.view? pid address with
      | none => rfl
      | some view => simp [EntryView.cleared]

/-- The clock takes the first frame whose page was not accessed and passes those before it, or it
passes all and takes the frame at the front. -/
theorem victim?_cases (choice : machine.victim? = some victim) :
    (∃ later, machine.resident.queue = machine.passedBy ++ victim :: later) ∨
      (∃ later, machine.resident.queue = victim :: later) ∧
        machine.passedBy = machine.resident.queue := by
  unfold victim? at choice
  unfold passedBy
  cases found : machine.resident.queue.find? fun frame => !machine.wasAccessed frame with
  | some first =>
      rw [found, Option.some_or, Option.some.injEq] at choice
      subst choice
      obtain ⟨here, earlier, later, queue, passed⟩ := List.find?_eq_some_iff_append.1 found
      refine .inl ⟨later, ?_⟩
      have accessed : ∀ other ∈ earlier, machine.wasAccessed other = true := by
        intro other listed
        simpa using passed other listed
      rw [queue, List.takeWhile_append_of_pos accessed,
        List.takeWhile_cons_of_neg (by simpa using here), List.append_nil]
  | none =>
      rw [found, Option.none_or] at choice
      refine .inr ⟨List.head?_eq_some_iff.1 choice, List.takeWhile_eq_self_iff.2 ?_⟩
      intro other listed
      simpa using List.find?_eq_none.1 found other listed

/-- The clock passes a frame only if its page was accessed. -/
theorem wasAccessed_of_passedBy (passed : frame ∈ machine.passedBy) :
    machine.wasAccessed frame = true := List.mem_takeWhile_imp passed

/-- A failed attempt at another frame brings a frame closer to being taken. -/
theorem EvictionFails.patience_lt (fails : before.EvictionFails victim after)
    (sound : before.Sound) (choice : before.victim? = some victim)
    (queued : frame ∈ before.resident.queue) (different : frame ≠ victim) :
    after.patience frame < before.patience frame := by
  have nodup := sound.frames.resident.nodup
  have marks := fails.wasAccessed_eq sound frame
  unfold patience
  rw [fails.queue_eq, marks]
  rcases victim?_cases choice with ⟨later, queue⟩ | ⟨⟨later, queue⟩, all⟩
  · rw [queue] at queued nodup ⊢
    have fresh : victim ∉ before.passedBy := fun passed =>
      (List.nodup_append.1 nodup).2.2 _ passed _ List.mem_cons_self rfl
    rw [List.erase_append_right _ fresh, List.erase_cons_head, List.append_assoc]
    by_cases passed : frame ∈ before.passedBy
    · -- The clock passed the frame, which keeps its place and loses its mark.
      rw [List.idxOf_append_of_mem passed, List.idxOf_append_of_mem passed,
        wasAccessed_of_passedBy passed]
      simp [passed]
    · -- The victim was before the frame, which moves up by one place.
      rw [List.mem_append, or_iff_right passed, List.mem_cons, or_iff_right different] at queued
      rw [List.idxOf_append_of_notMem passed, List.idxOf_append_of_notMem passed,
        List.idxOf_append_of_mem queued, List.idxOf_cons_ne _ (Ne.symm different)]
      simp [passed]
  · -- Every mark is cleared, and the victim was at the front.
    rw [queue, List.mem_cons, or_iff_right different] at queued
    rw [all, queue, List.erase_cons_head, List.idxOf_append_of_mem queued,
      List.idxOf_cons_ne _ (Ne.symm different)]
    simp only [List.mem_cons, queued, or_true, not_true_eq_false, decide_false, Bool.and_false,
      Bool.toNat_false]
    omega

/-! ## The attempts -/

theorem mem_attempts_self (machine : Machine) (changes : List (Machine → Machine)) :
    machine ∈ machine.attempts changes := by
  cases changes <;> exact List.mem_cons_self

/-- With a page in memory, an attempt works or fails, if saving that page does. -/
theorem Sound.ends_evict_saves (sound : machine.Sound) (resident : 0 < machine.residentPages)
    (saves : machine.SavesOrFails) :
    (evict machine).Ends (fun _ _ => True)
      (fun _ after => ∃ victim owner, machine.victim? = some victim ∧
        machine.resident.owner? victim = some owner ∧ machine.EvictionFails victim after ∧
        ¬machine.Evictable owner)
      (fun _ => False) := by
  obtain ⟨victim, owner, page, bytes, chooses⟩ := sound.exists_chooses resident
  have saving : machine.saving? owner = some (page.backing.save page.address bytes
      (machine.isDirty owner.pid owner.address) machine.store) := by
    simp [saving?, chooses.registered, chooses.held, chooses.contents]
  refine (sound.ends_evict_cases chooses).imp (fun _ _ _ => trivial) ?_ ?_
  · rintro error after ⟨fails, refused⟩
    refine ⟨victim, owner, chooses.choice, chooses.owns, fails, fun evictable => ?_⟩
    rw [Evictable, saving, Option.bind_some, refused] at evictable
    cases evictable
  · rintro fault ⟨-, stopped⟩
    have listed : (victim, owner) ∈ machine.resident.victims := by
      refine List.mem_filterMap.2 ⟨victim, ?_, by rw [chooses.owns]; rfl⟩
      exact (sound.frames.resident.queued victim).2 (by rw [chooses.owns]; rfl)
    have ends := saves _ listed
    rw [saving, Option.all_some, stopped] at ends
    cases ends

/-- An attempt of a series: no frame is free, and a certain frame is occupied. -/
structure Attempt (machine : Machine) (frame : PhysAddr) (owner : FrameOwner) : Prop where
  sound : machine.Sound
  full : machine.freeFrames = 0
  owns : machine.resident.owner? frame = some owner

namespace Attempt

variable (attempt : machine.Attempt frame owner)

include attempt

theorem queued : frame ∈ machine.resident.queue :=
  (attempt.sound.frames.resident.queued frame).2 (by rw [attempt.owns]; rfl)

theorem residentPages_pos : 0 < machine.residentPages := by
  have size := attempt.sound.frames.perm_queue.length_eq
  rw [Std.ExtTreeMap.length_keys] at size
  exact Nat.lt_of_lt_of_eq (List.length_pos_of_mem attempt.queued) size

theorem acquire_eq_none : machine.resident.acquire = none := by
  rw [ResidentSet.acquire, Option.map_eq_none_iff,
    attempt.sound.frames.resident.pool.acquire_eq_none_iff]
  exact List.eq_nil_of_length_eq_zero attempt.full

/-- If it fails, the next attempt begins with less patience for the frame, whatever happens to
devices and files before. -/
theorem ends_evict {change : Machine → Machine} (evictable : machine.Evictable owner)
    (saves : machine.SavesOrFails) (outside : ∀ state, Step .outside state (change state)) :
    (evict machine).Ends (fun _ _ => True)
      (fun _ after => (change after).Attempt frame owner ∧
        (change after).patience frame < machine.patience frame)
      (fun _ => False) := by
  have sound := attempt.sound
  have ends := (sound.ends_evict_saves attempt.residentPages_pos saves).and
    (Machine.ends_evict sound attempt.acquire_eq_none)
  refine ends.imp (fun _ _ _ => trivial) ?_ (fun _ stopped => stopped.1)
  rintro error after ⟨⟨victim, other, choice, ownsVictim, fails, stuck⟩, path⟩
  have different : frame ≠ victim := by
    rintro rfl
    rw [attempt.owns, Option.some.injEq] at ownsVictim
    exact stuck (ownsVictim ▸ evictable)
  obtain ⟨resident, spaces⟩ := (outside after).of_outside
  refine ⟨⟨(outside after).sound (path.sound sound), ?_, ?_⟩, ?_⟩
  · rw [freeFrames, resident, fails.same]
    exact attempt.full
  · rw [resident, fails.owner?_eq]
    exact attempt.owns
  · rw [patience_congr resident spaces]
    exact fails.patience_lt sound choice attempt.queued different

/-- While the page in the frame can be saved and no page stops the machine, an attempt works before
the patience for the frame is used up. -/
theorem exists_evictAgain
    (outside : ∀ change ∈ changes, ∀ state, Step .outside state (change state))
    (enough : machine.patience frame ≤ changes.length)
    (evictable : ∀ state ∈ machine.attempts changes, state.Evictable owner)
    (saves : ∀ state ∈ machine.attempts changes, state.SavesOrFails) :
    ∃ taken after, evictAgain changes machine = .done taken after := by
  -- Every failed attempt lowers the patience, and without patience no attempt fails.
  induction changes generalizing machine with
  | nil =>
      have here := mem_attempts_self machine []
      have ends := attempt.ends_evict (evictable _ here) (saves _ here)
        fun state => @Step.outside state _ _ state.store.world rfl rfl rfl
      rw [evictAgain]
      cases ran : evict machine with
      | done taken after => exact ⟨taken, after, rfl⟩
      | failed error after =>
          rw [ran, Outcome.ends_failed] at ends
          exact absurd (Nat.lt_of_lt_of_le ends.2 enough) (Nat.not_lt_zero _)
      | halted fault =>
          rw [ran] at ends
          exact ends.elim
  | cons change rest inductionHypothesis =>
      have here := mem_attempts_self machine (change :: rest)
      have ends := attempt.ends_evict (evictable _ here) (saves _ here)
        (outside change List.mem_cons_self)
      have later (error : Errno) (after : Machine) (ran : evict machine = .failed error after) :
          ∀ state ∈ (change after).attempts rest, state ∈ machine.attempts (change :: rest) := by
        intro state listed
        rw [attempts, ran]
        exact List.mem_cons_of_mem machine listed
      rw [evictAgain]
      cases ran : evict machine with
      | done taken after => exact ⟨taken, after, rfl⟩
      | failed error after =>
          rw [ran, Outcome.ends_failed] at ends
          refine inductionHypothesis ends.1
            (fun other listed => outside other (List.mem_cons_of_mem change listed))
            (Nat.le_of_lt_succ (Nat.lt_of_lt_of_le ends.2 enough))
            (fun state listed => evictable state (later error after ran state listed))
            (fun state listed => saves state (later error after ran state listed))
      | halted fault =>
          rw [ran] at ends
          exact ends.elim

end Attempt

/-- An eviction works in the end, even if the swap area takes no page. With no frame free and `m`
frames in the queue, it works at the latest at attempt `m + 1`, if nothing else happens in between
than that sectors and files begin or cease to fail, if one page in memory can be saved at every
attempt, and if saving the other ones at worst fails. The order of the queue and the accessed marks
do not matter. -/
theorem Reachable.eviction_found (reachable : machine.Reachable) (full : machine.freeFrames = 0)
    (owns : machine.resident.owner? frame = some owner)
    (count : changes.length = machine.resident.queue.length)
    (outside : ∀ change ∈ changes, ∀ state, Step .outside state (change state))
    (evictable : ∀ state ∈ machine.attempts changes, state.Evictable owner)
    (saves : ∀ state ∈ machine.attempts changes, state.SavesOrFails) :
    ∃ taken after, evictAgain changes machine = .done taken after := by
  have attempt : machine.Attempt frame owner := ⟨reachable.sound, full, owns⟩
  exact attempt.exists_evictAgain outside (count ▸ patience_le_length attempt.queued) evictable
    saves

/-- A machine with two frames, no swap area and a file of three bytes. -/
def tinyWithoutSwap : Machine :=
  create {} (FramePool.create 2) (Disk.create 0) ⟨#[{ storage := .contents #[7, 8, 9] }]⟩

theorem reachable_tinyWithoutSwap : tinyWithoutSwap.Reachable :=
  .start {} 2 (Disk.create 0) ⟨#[{ storage := .contents #[7, 8, 9] }]⟩

/-- A page that nothing can save is brought in, and behind it a page of a file is read. -/
def stranding : List Event :=
  [.createProcess, .registerPage ⟨1⟩ firstPage true .normal none, .makeResident ⟨1⟩ firstPage,
    .mapFile ⟨1⟩ secondPage 3 true 0 0, .readUser ⟨1⟩ secondPage 3]

/-- The first attempt fails at the page that was not read. So does the second one, which clears the
mark of the other page. The third one works, and no attempt less would do. -/
theorem eviction_found_stranding :
    ∃ machine taken after, tinyWithoutSwap.after? stranding = some machine ∧
      evictAgain [id] machine = .failed .noSpace after ∧
      ∃ last, evictAgain [id, id] machine = .done taken last := by
  have runs : (tinyWithoutSwap.after? stranding).any (fun machine =>
      machine.freeFrames = 0 ∧ machine.resident.queue.length = 2 ∧
      machine.resident.owner? ⟨0x201000, by decide⟩ = some ⟨⟨1⟩, secondPage⟩ ∧
      (∀ state ∈ machine.attempts [id, id], state.Evictable ⟨⟨1⟩, secondPage⟩) ∧
      (∀ state ∈ machine.attempts [id, id], state.SavesOrFails) ∧
      (evictAgain [id] machine).error? = some .noSpace) = true := by
    decide +kernel
  obtain ⟨machine, run, state⟩ := (Option.any_eq_true _ _).1 runs
  obtain ⟨full, length, owns, evictable, saves, fails⟩ := of_decide_eq_true state
  obtain ⟨after, failed⟩ := Outcome.exists_of_error? fails
  have count : ([id, id] : List (Machine → Machine)).length = machine.resident.queue.length :=
    length.symm
  have outside : ∀ change ∈ [id, id], ∀ state : Machine, Step .outside state (change state) := by
    intro change listed state
    simp only [List.mem_cons, List.not_mem_nil, or_false, or_self] at listed
    rw [listed]
    exact Step.outside rfl rfl rfl
  obtain ⟨taken, last, done⟩ := (reachable_tinyWithoutSwap.of_after? run).eviction_found full owns
    count outside evictable saves
  exact ⟨machine, taken, after, run, failed, last, done⟩

end Machine

end DemandPaging
