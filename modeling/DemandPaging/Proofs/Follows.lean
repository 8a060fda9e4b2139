import DemandPaging.Proofs.Reachable

/-!
Which steps an operation takes where something holds that the operation itself keeps.

Owns:
- `Action.Follows`, an operation that takes allowed steps only, and keeps a condition, wherever the
  condition holds;
- the composition of such operations;
- accesses to the memory of a process, which follow what the handling of their faults follows.

Does not own: which steps an operation takes in every state (`Action.Takes`).

Main statements: `Follower.follows_fetchUser` and `Writer.follows_writeUser`.
-/

namespace DemandPaging

open Machine

/-- Wherever its records agree and a condition holds, the machine takes allowed steps only, and the
condition holds afterwards, whichever way the operation ends. -/
structure Action.Follows {Value : Type} (condition : Machine → Prop) (allowed : Move → Prop)
    (action : Action Machine Value) : Prop where
  ends : ∀ before : Machine, before.Sound → condition before →
    (action before).Ends (fun _ after => Path allowed before after ∧ condition after)
      (fun _ after => Path allowed before after ∧ condition after) (fun _ => True)

namespace Action.Follows

variable {Value Result : Type} {condition : Machine → Prop} {allowed narrower : Move → Prop}
  {action : Action Machine Value}

/-- Steps that are taken in every state are enough, if they keep the condition. -/
theorem of_takes (takes : action.Takes narrower)
    (permits : ∀ move, narrower move → allowed move)
    (keeps : ∀ before after, before.Sound → Path narrower before after → condition before →
      condition after) : action.Follows condition allowed := by
  constructor
  intro before sound holds
  have follows {after : Machine} (path : Path narrower before after) :
      Path allowed before after ∧ condition after :=
    ⟨path.mono permits, keeps before after sound path holds⟩
  exact (takes.ends before sound).imp (fun _ _ => follows) (fun _ _ => follows)
    (fun _ _ => trivial)

/-- An operation that takes no steps. -/
theorem of_still (takes : action.Takes fun _ => False) : action.Follows condition allowed := by
  apply of_takes takes
  · intro move never
    exact never.elim
  · intro before after _ path holds
    exact path.keeps holds fun _ _ _ never _ _ => never.elim

theorem bind {first : Action Machine Result} {next : Result → Action Machine Value}
    (follows : first.Follows condition allowed)
    (followsNext : ∀ result, (next result).Follows condition allowed) :
    (first >>= next).Follows condition allowed := by
  constructor
  intro before sound holds
  rw [ends_bind]
  apply (follows.ends before sound holds).imp_done
  intro result middle reached
  obtain ⟨path, holdsMiddle⟩ := reached
  exact ((followsNext result).ends middle (path.sound sound) holdsMiddle).imp
    (fun _ _ rest => ⟨path.trans rest.1, rest.2⟩) (fun _ _ rest => ⟨path.trans rest.1, rest.2⟩)
    (fun _ _ => trivial)

theorem forM {Item : Type} {round : Item → Action Machine Unit}
    (follows : ∀ item, (round item).Follows condition allowed) (rounds : List Item) :
    (rounds.forM round).Follows condition allowed := by
  induction rounds with
  | nil => exact of_still (.pure ())
  | cons item rest inductionHypothesis => exact (follows item).bind fun _ => inductionHypothesis

end Action.Follows

namespace Machine

open DemandPaging.Action (Takes Follows)

variable {condition : Machine → Prop} {allowed : Move → Prop} {pid : Pid} {write : Bool}
  {before : Machine}

/-! ## Accesses -/

/-- What an access needs in order to follow allowed moves: its fault is handled along allowed moves,
and a byte that is reached may be accessed. -/
structure Follower (condition : Machine → Prop) (allowed : Move → Prop) (pid : Pid) (write : Bool) :
    Prop where
  handles : ∀ reason : FaultReason, reason.code.write = write →
    (handleFault pid reason).Follows condition allowed
  accesses : ∀ before after address, Step (.access pid address write) before after →
    condition before → allowed (.access pid address write) ∧ condition after

/-- An access follows allowed moves to where it leads, or it faults and changes nothing. -/
theorem Follower.ends_access (follower : Follower condition allowed pid write)
    (sound : before.Sound) (holds : condition before) (address : VirtAddr) :
    (access pid address write before).Ends
      (fun answer after => (Path allowed before after ∧ condition after) ∧
        match answer with
        | .ok location => after.Reaches pid address write location
        | .error code => after = before ∧ code.write = write)
      (fun _ after => Path allowed before after ∧ condition after) (fun _ => True) := by
  apply (Machine.ends_access sound pid address write).imp
  · intro answer after result
    cases answer with
    | ok location =>
        obtain ⟨-, step, reaches⟩ := result
        obtain ⟨allow, holdsAfter⟩ := follower.accesses before after address step holds
        exact ⟨⟨Path.single step allow, holdsAfter⟩, reaches.of_access step⟩
    | error code =>
        obtain ⟨-, same, -, mode, -⟩ := result
        rw [same]
        exact ⟨⟨.refl before, holds⟩, rfl, mode⟩
  · intro _ after result
    rw [result.2.2]
    exact ⟨.refl before, holds⟩
  · intro _ never
    exact never.elim

/-- A byte is located along allowed moves. -/
theorem Follower.ends_locate (follower : Follower condition allowed pid write)
    (sound : before.Sound) (holds : condition before) (address : VirtAddr) :
    (locate pid address write before).Ends
      (fun location after => (Path allowed before after ∧ condition after) ∧
        after.Reaches pid address write location)
      (fun _ after => Path allowed before after ∧ condition after) (fun _ => True) := by
  simp only [locate, Action.ends_bind, space, Action.ends_require]
  refine ⟨fun target found => ?_, fun _ => ⟨.refl before, holds⟩⟩
  apply (follower.ends_access sound holds address).imp_done
  intro answer touched result
  obtain ⟨reached, result⟩ := result
  cases answer with
  | ok location => exact ⟨reached, result⟩
  | error code =>
      -- The access that faulted is the one that is repeated, so its kind is known.
      obtain ⟨same, mode⟩ := result
      rw [same]
      simp only [Action.ends_bind]
      apply ((follower.handles _ mode).ends before sound holds).imp_done
      intro _ handled first
      obtain ⟨path, holdsHandled⟩ := first
      apply (follower.ends_access (path.sound sound) holdsHandled address).imp
      · intro again after second
        have whole : Path allowed before after ∧ condition after :=
          ⟨path.trans second.1.1, second.1.2⟩
        cases again with
        | ok location => exact ⟨whole, second.2⟩
        | error _ => exact whole
      · intro _ after rest
        exact ⟨path.trans rest.1, rest.2⟩
      · intro _ _
        trivial

theorem Follower.ends_locateChunk (follower : Follower condition allowed pid write)
    (sound : before.Sound) (holds : condition before) (address : VirtAddr) (chunk : Chunk) :
    (locateChunk pid address write chunk before).Ends
      (fun location after => (Path allowed before after ∧ condition after) ∧
        ∃ place, after.Reaches pid place write location)
      (fun _ after => Path allowed before after ∧ condition after) (fun _ => True) := by
  simp only [locateChunk, Action.ends_bind, Action.ends_require]
  refine ⟨fun place _ => ?_, fun _ => ⟨.refl before, holds⟩⟩
  exact (follower.ends_locate sound holds place).imp_done fun _ _ located =>
    ⟨located.1, place, located.2⟩

/-! ## Reading -/

theorem Follower.follows_fetchChunk (follower : Follower condition allowed pid false)
    (address : VirtAddr) (chunk : Chunk) :
    (fetchChunk pid address chunk).Follows condition allowed := by
  constructor
  intro before sound holds
  simp only [fetchChunk, Action.ends_bind, Action.ends_get, Action.ends_orHalt, Action.ends_pure]
  exact (follower.ends_locateChunk sound holds address chunk).imp_done fun _ _ located =>
    ⟨fun _ _ => located.1, fun _ _ => trivial⟩

theorem Follower.follows_fetchUser (follower : Follower condition allowed pid false)
    (address : VirtAddr) (length : Nat) :
    (fetchUser pid address length).Follows condition allowed := by
  constructor
  intro before sound holds
  have ends : (readUser pid address length ⟨before, #[]⟩).Ends
      (fun _ read => Path allowed before read.machine ∧ condition read.machine)
      (fun _ read => Path allowed before read.machine ∧ condition read.machine)
      (fun _ => True) := by
    apply Action.ends_forM fun (_ : List Chunk) (read : UserRead) =>
      Path allowed before read.machine ∧ condition read.machine
    · intro chunk rest read reached
      obtain ⟨path, holdsRead⟩ := reached
      simp only [readChunk, Action.ends_bind, Action.ends_onPart, Action.ends_modify]
      have fetches := (follower.follows_fetchChunk address chunk).ends read.machine
        (path.sound sound) holdsRead
      exact fetches.imp (fun _ _ next => ⟨path.trans next.1, next.2⟩)
        (fun _ _ next => ⟨path.trans next.1, next.2⟩) (fun _ _ => trivial)
    · exact ⟨.refl before, holds⟩
  unfold fetchUser
  cases outcome : readUser pid address length { machine := before } with
  | done _ read =>
      rw [outcome] at ends
      exact ends
  | failed error read =>
      rw [outcome] at ends
      exact ends
  | halted fault => trivial

/-! ## Writing -/

/-- What writing needs beside an access: a byte that is reached may be replaced. -/
structure Writer (condition : Machine → Prop) (allowed : Move → Prop) (pid : Pid) : Prop
    extends Follower condition allowed pid true where
  overwrites : ∀ before after address kind location, before.Reaches pid address true location →
    Step (.overwrite pid address.pageDown kind) before after → condition before →
    allowed (.overwrite pid address.pageDown kind) ∧ condition after

theorem Writer.follows_writeChunk (writer : Writer condition allowed pid) (address : VirtAddr)
    (data : Array UInt8) (chunk : Chunk) :
    (writeChunk pid address data chunk).Follows condition allowed := by
  constructor
  intro before sound holds
  simp only [writeChunk, Action.ends_bind, Action.ends_get, Action.ends_orHalt, setResident,
    Action.ends_modify]
  apply (writer.ends_locateChunk sound holds address chunk).imp_done
  intro location middle located
  obtain ⟨⟨path, holdsMiddle⟩, place, reaches⟩ := located
  obtain ⟨page, registered, -⟩ := reaches.accessible
  refine ⟨fun contents _ => ⟨fun resident written => ?_, fun _ _ => trivial⟩,
    fun _ _ => trivial⟩
  have step : Step (.overwrite pid place.pageDown page.kind) middle { middle with resident } :=
    .overwrite reaches.owner registered written
  obtain ⟨allow, holdsAfter⟩ := writer.overwrites _ _ _ _ _ reaches step holdsMiddle
  exact ⟨path.snoc step allow, holdsAfter⟩

theorem Writer.follows_writeUser (writer : Writer condition allowed pid) (address : VirtAddr)
    (data : Array UInt8) : (writeUser pid address data).Follows condition allowed :=
  Follows.forM (writer.follows_writeChunk address data) _

end Machine

end DemandPaging
