import DemandPaging.Proofs.Residency
import Mathlib.Data.List.TakeWhile

/-!
Accessed marks, and the victim that they make the clock choose.

Owns:
- `marked`, whether the page of an owner was accessed, and `Machine.wasAccessed`, whether the page
  in a frame was;
- `Machine.Passed`, which victim the clock chooses and which marks it clears on the way.

Does not own: what becomes of the victim (`Machine.Holding`).

The clock goes round the queue twice, and the first round clears every mark that it passes. So it
chooses the first frame whose page was not accessed, or the frame at the front.

Main statement: `Chosen.passed`.
-/

namespace DemandPaging

/-- Whether the page of an owner was accessed since its mark was last cleared. -/
def marked (spaces : Std.ExtTreeMap Pid AddressSpace) (owner : FrameOwner) : Bool :=
  spaces[owner.pid]?.any fun space => space.table.isAccessed owner.address

section Marks

variable {spaces : Std.ExtTreeMap Pid AddressSpace} {pid : Pid} {changed : AddressSpace}

theorem marked_insert (owner : FrameOwner) :
    marked (spaces.insert pid changed) owner =
      if pid = owner.pid then changed.table.isAccessed owner.address
      else marked spaces owner := by
  unfold marked
  rw [Std.ExtTreeMap.getElem?_insert]
  by_cases same : pid = owner.pid
  · simp [same]
  · simp [same]

/-- A process whose page table changes at one address changes the mark of one page. -/
theorem marked_update {space : AddressSpace} {address : VirtAddr} {now? : Option EntryView}
    (found : spaces[pid]? = some space)
    (views : ∀ place, changed.table.view? place =
      if address = place then now? else space.table.view? place)
    (owner : FrameOwner) :
    marked (spaces.insert pid changed) owner =
      if pid = owner.pid ∧ address = owner.address.pageDown then now?.any EntryView.accessed
      else marked spaces owner := by
  rw [marked_insert]
  by_cases process : pid = owner.pid
  · subst process
    rw [if_pos rfl, PageTable.isAccessed_eq, views]
    by_cases same : address = owner.address.pageDown
    · rw [if_pos same, if_pos ⟨rfl, same⟩]
    · rw [if_neg same, if_neg fun both => same both.2, marked, found, Option.any_some,
        PageTable.isAccessed_eq]
  · rw [if_neg process, if_neg fun both => process both.1]

theorem marked_keep {space : AddressSpace} (found : spaces[pid]? = some space)
    (table : changed.table = space.table) (owner : FrameOwner) :
    marked (spaces.insert pid changed) owner = marked spaces owner := by
  rw [marked_insert]
  split
  case isTrue same =>
    subst same
    rw [marked, found, Option.any_some, table]
  case isFalse => rfl

open Machine in
/-- The owner answers whether its page was accessed. -/
theorem testAndClearAccessed_fst (owner : FrameOwner) :
    (testAndClearAccessed owner spaces).1 = marked spaces owner := by
  unfold testAndClearAccessed marked
  cases spaces[owner.pid]? with
  | none => rfl
  | some space =>
      dsimp only [Option.any_some]
      split
      case isTrue accessed => exact accessed.symm
      case isFalse notAccessed => exact (Bool.eq_false_iff.2 notAccessed).symm

open Machine in
/-- An owner whose page was not accessed changes nothing when it is asked. -/
theorem testAndClearAccessed_of_not_marked {owner : FrameOwner}
    (unmarked : marked spaces owner = false) :
    testAndClearAccessed owner spaces = (false, spaces) := by
  unfold testAndClearAccessed
  unfold marked at unmarked
  cases found : spaces[owner.pid]? with
  | none => rfl
  | some space =>
      rw [found, Option.any_some] at unmarked
      simp [unmarked]

open Machine in
/-- Asking clears the mark of the page in question, and no other mark. -/
theorem marked_testAndClearAccessed (owner other : FrameOwner) :
    marked (testAndClearAccessed owner spaces).2 other =
      if owner.pid = other.pid ∧ owner.address.pageDown = other.address.pageDown then false
      else marked spaces other := by
  cases answer : marked spaces owner with
  | false =>
      rw [testAndClearAccessed_of_not_marked answer]
      split
      case isTrue same =>
        rw [← answer, marked, marked, same.1]
        simp only [PageTable.isAccessed_eq, same.2]
      case isFalse => rfl
  | true =>
      unfold marked at answer
      unfold testAndClearAccessed
      cases found : spaces[owner.pid]? with
      | none =>
          rw [found] at answer
          cases answer
      | some space =>
          rw [found, Option.any_some] at answer
          simp only [answer, if_true]
          have views (place : VirtAddr) :
              (space.table.setAccessed owner.address false).view? place =
                if owner.address.pageDown = place then
                  (space.table.view? owner.address.pageDown).map fun view =>
                    { view with accessed := false }
                else space.table.view? place := by
            rw [PageTable.view?_setAccessed]
            split
            case isTrue same => rw [same]
            case isFalse => rfl
          rw [marked_update found views]
          cases space.table.view? owner.address.pageDown <;> rfl

end Marks

namespace Machine

variable {before asked : Machine}

/-- Whether the page in a frame was accessed since its mark was last cleared. -/
def wasAccessed (machine : Machine) (frame : PhysAddr) : Bool :=
  (machine.resident.owner? frame).any (marked machine.spaces)

/-! ## The round of the clock -/

section Round

variable {owner? : PhysAddr → Option FrameOwner} {spaces : Std.ExtTreeMap Pid AddressSpace}

/-- Every frame has an owner of its own, which is a page. -/
structure OwnersDiffer (owner? : PhysAddr → Option FrameOwner) : Prop where
  aligned : ∀ frame owner, owner? frame = some owner → owner.address.offset = 0
  injective : ∀ frame other owner, owner? frame = some owner → owner? other = some owner →
    frame = other

/-- Asking the owner of a frame clears the mark of that frame only. -/
theorem OwnersDiffer.marked_ask (differ : OwnersDiffer owner?) {frame : PhysAddr}
    {owner : FrameOwner} (owns : owner? frame = some owner) (other : PhysAddr) :
    (owner? other).any (marked (testAndClearAccessed owner spaces).2) =
      if frame = other then false else (owner? other).any (marked spaces) := by
  cases owned : owner? other with
  | none => simp
  | some another =>
      rw [Option.any_some, Option.any_some, marked_testAndClearAccessed]
      by_cases same : frame = other
      · rw [same, owned] at owns
        cases owns
        rw [if_pos ⟨rfl, rfl⟩, if_pos same]
      · rw [if_neg same, if_neg]
        intro both
        have sameOwner : owner = another := by
          have down := both.2
          rw [Address.pageDown_eq_self_iff.2 (differ.aligned _ _ owns),
            Address.pageDown_eq_self_iff.2 (differ.aligned _ _ owned)] at down
          cases owner
          cases another
          exact FrameOwner.mk.injEq _ _ _ _ ▸ ⟨both.1, down⟩
        exact same (differ.injective _ _ _ owns (sameOwner ▸ owned))

/-- The search finds the first frame whose page was not accessed, and clears the marks of the frames
before it. -/
theorem OwnersDiffer.exists_firstUnaccessed_eq_ok (differ : OwnersDiffer owner?)
    (spaces : Std.ExtTreeMap Pid AddressSpace) (accessed : PhysAddr → Bool)
    {frames : List PhysAddr} (nodup : frames.Nodup)
    (owned : ∀ frame ∈ frames, (owner? frame).isSome = true)
    (marks : ∀ frame ∈ frames, (owner? frame).any (marked spaces) = accessed frame) :
    ∃ after,
      ResidentSet.firstUnaccessed owner? testAndClearAccessed frames spaces =
        .ok (frames.find? fun frame => !accessed frame, after) ∧
      ∀ other, (owner? other).any (marked after) =
        ((owner? other).any (marked spaces) && decide (other ∉ frames.takeWhile accessed)) := by
  induction frames generalizing spaces with
  | nil => exact ⟨spaces, rfl, by simp⟩
  | cons frame rest inductionHypothesis =>
      obtain ⟨owner, owns⟩ := Option.isSome_iff_exists.1 (owned frame List.mem_cons_self)
      have answer : (testAndClearAccessed owner spaces).1 = accessed frame := by
        rw [testAndClearAccessed_fst, ← marks frame List.mem_cons_self, owns, Option.any_some]
      cases here : accessed frame with
      | false =>
          rw [here, testAndClearAccessed_fst] at answer
          refine ⟨spaces, ?_, ?_⟩
          · simp [ResidentSet.firstUnaccessed, owns, here,
              testAndClearAccessed_of_not_marked answer]
          · simp [here]
      | true =>
          -- Asking clears the mark of this frame only, and no frame is listed twice.
          obtain ⟨fresh, nodupRest⟩ := List.nodup_cons.1 nodup
          have marksRest : ∀ other ∈ rest,
              (owner? other).any (marked (testAndClearAccessed owner spaces).2) =
                accessed other := by
            intro other listed
            have different : frame ≠ other := by
              intro same
              exact fresh (same ▸ listed)
            rw [differ.marked_ask owns, if_neg different]
            exact marks other (List.mem_cons_of_mem _ listed)
          obtain ⟨after, searched, cleared⟩ := inductionHypothesis _ nodupRest
            (fun other listed => owned other (List.mem_cons_of_mem _ listed)) marksRest
          refine ⟨after, ?_, ?_⟩
          · rw [here] at answer
            have answered : testAndClearAccessed owner spaces =
                (true, (testAndClearAccessed owner spaces).2) := Prod.ext answer rfl
            simp only [ResidentSet.firstUnaccessed, owns]
            rw [answered]
            simpa [here] using searched
          · intro other
            rw [cleared, differ.marked_ask owns]
            by_cases same : frame = other
            · subst same
              simp [here]
            · simp [same, here, Ne.symm same]

end Round

/-- The clock passed the frames before its victim, and cleared their marks. -/
inductive Passed (before : Machine) (victim : PhysAddr) (asked : Machine) : Prop where
  /-- The victim is the first frame whose page was not accessed. -/
  | first (earlier later : List PhysAddr)
      (queue : before.resident.queue = earlier ++ victim :: later)
      (accessed : ∀ frame ∈ earlier, before.wasAccessed frame = true)
      (here : before.wasAccessed victim = false)
      (marks : ∀ frame, asked.wasAccessed frame =
        (before.wasAccessed frame && decide (frame ∉ earlier)))
  /-- Every page was accessed, and the victim is at the front. -/
  | front (later : List PhysAddr)
      (queue : before.resident.queue = victim :: later)
      (accessed : ∀ frame ∈ before.resident.queue, before.wasAccessed frame = true)
      (marks : ∀ frame, asked.wasAccessed frame = false)

theorem FramesOwned.ownersDiffer (owned : before.FramesOwned) :
    OwnersDiffer before.resident.owner? where
  aligned frame owner owns := by
    have atOwner := (owned.owner_iff frame owner.pid owner.address).1 owns
    obtain ⟨page, registered, -⟩ := Option.bind_eq_some_iff.1 atOwner
    exact (owned.located registered).2
  injective frame other owner owns owns' := by
    have atOwner := (owned.owner_iff frame owner.pid owner.address).1 owns
    rw [(owned.owner_iff other owner.pid owner.address).1 owns'] at atOwner
    exact (Option.some.inj atOwner).symm

/-- The clock chooses the first frame whose page was not accessed. If there is none, the first round
clears all marks, and the second finds the frame at the front. -/
theorem Chosen.passed {victim : PhysAddr × FrameOwner} (sound : before.Sound)
    (chosen : before.Chosen victim asked) : before.Passed victim.1 asked := by
  have differ := sound.frames.ownersDiffer
  have queued := sound.frames.resident.queued
  have sameResident : asked.resident = before.resident := by rw [chosen.same]
  have owned : ∀ frame ∈ before.resident.queue,
      (before.resident.owner? frame).isSome = true := fun frame => (queued frame).1
  have atAsked (frame : PhysAddr) : asked.wasAccessed frame =
      (before.resident.owner? frame).any (marked asked.spaces) := by
    rw [wasAccessed, sameResident]
  obtain ⟨middle, searched, cleared⟩ := differ.exists_firstUnaccessed_eq_ok before.spaces
    before.wasAccessed sound.frames.resident.nodup owned fun _ _ => rfl
  have whole := ResidentSet.firstUnaccessed_append searched before.resident.queue
  have selected := chosen.selected
  unfold ResidentSet.selectVictim at selected
  cases found : before.resident.queue.find? fun frame => !before.wasAccessed frame with
  | some frame =>
      rw [found, Option.elim_some] at whole
      obtain ⟨here, earlier, later, queue, passed⟩ := List.find?_eq_some_iff_append.1 found
      have accessed : ∀ other ∈ earlier, before.wasAccessed other = true := by
        intro other listed
        simpa using passed other listed
      have took : before.resident.queue.takeWhile before.wasAccessed = earlier := by
        rw [queue, List.takeWhile_append_of_pos accessed,
          List.takeWhile_cons_of_neg (by simpa using here), List.append_nil]
      obtain ⟨owner, owns⟩ := Option.isSome_iff_exists.1
        (owned frame (List.mem_of_find?_eq_some found))
      rw [whole] at selected
      simp only [bind, Except.bind, Option.some_or, owns, Except.ok.injEq, Prod.mk.injEq,
        Option.some.injEq] at selected
      obtain ⟨rfl, -, sameSpaces⟩ := selected
      refine .first earlier later queue accessed (by simpa using here) fun other => ?_
      rw [atAsked, ← sameSpaces, cleared, took]
      rfl
  | none =>
      -- The first round cleared every mark, so the second one stops at its first question.
      have accessed : ∀ other ∈ before.resident.queue, before.wasAccessed other = true := by
        intro other listed
        simpa using List.find?_eq_none.1 found other listed
      have clear (other : PhysAddr) :
          (before.resident.owner? other).any (marked middle) = false := by
        rw [cleared, List.takeWhile_eq_self_iff.2 accessed]
        cases owns : before.resident.owner? other with
        | none => rfl
        | some owner =>
            have listed := (queued other).2 (by rw [owns]; rfl)
            simp [listed]
      obtain ⟨last, again, kept⟩ := differ.exists_firstUnaccessed_eq_ok middle (fun _ => false)
        sound.frames.resident.nodup owned fun other _ => clear other
      rw [found, Option.elim_none, again] at whole
      cases queue : before.resident.queue with
      | nil =>
          have listed := chosen.queued
          rw [queue] at listed
          cases listed
      | cons frame later =>
          obtain ⟨owner, owns⟩ := Option.isSome_iff_exists.1
            (owned frame (by rw [queue]; exact List.mem_cons_self))
          rw [whole, queue] at selected
          simp only [bind, Except.bind, List.find?_cons, Bool.not_false, Option.some_or, owns,
            Except.ok.injEq, Prod.mk.injEq, Option.some.injEq] at selected
          obtain ⟨rfl, -, sameSpaces⟩ := selected
          refine .front later queue accessed fun other => ?_
          rw [atAsked, ← sameSpaces, kept, clear]
          rfl

end Machine

end DemandPaging
