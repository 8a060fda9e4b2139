import DemandPaging.Machine.FaultHandling
import DemandPaging.Proofs.SlotsOwned

/-!
Which steps an operation takes.

Owns:
- `Action.Takes`, an operation that leads along allowed steps, whichever way it ends, and that never
  stops the machine because its records disagree;
- the composition of such operations.

Main statements: `Takes.bind` and `Takes.forM`.
-/

namespace DemandPaging

namespace Action

variable {Value Result Item : Type} {allowed wider : Move → Prop}

/-- Whenever its records agree, the machine takes allowed steps only, and it is not stopped by
corruption. -/
structure Takes (allowed : Move → Prop) (action : Action Machine Value) : Prop where
  ends : ∀ before : Machine, before.Sound →
    (action before).Ends (fun _ after => Path allowed before after)
      (fun _ after => Path allowed before after) (fun fault => fault.isCorruption = false)

namespace Takes

variable {action : Action Machine Value}

theorem mono (takes : action.Takes allowed) (more : ∀ move, allowed move → wider move) :
    action.Takes wider := by
  refine ⟨fun before sound => ?_⟩
  exact (takes.ends before sound).imp (fun _ _ path => path.mono more)
    (fun _ _ path => path.mono more) (fun _ stopped => stopped)

theorem pure (value : Value) : (Pure.pure value : Action Machine Value).Takes allowed :=
  ⟨fun before _ => Path.refl before⟩

theorem fail (error : Errno) : (Action.fail error : Action Machine Value).Takes allowed :=
  ⟨fun before _ => Path.refl before⟩

theorem get : (Action.get : Action Machine Machine).Takes allowed :=
  ⟨fun before _ => Path.refl before⟩

theorem halt {fault : Fault} (notCorruption : fault.isCorruption = false) :
    (Action.halt fault : Action Machine Value).Takes allowed := ⟨fun _ _ => notCorruption⟩

theorem require (error : Errno) (value? : Option Value) :
    (Action.require error value? : Action Machine Value).Takes allowed := by
  cases value? with
  | none => exact fail error
  | some value => exact pure value

theorem checked (result : Except Overflow Value) :
    (Action.checked result : Action Machine Value).Takes allowed := by
  cases result with
  | error operation => exact halt rfl
  | ok value => exact pure value

/-- The second operation starts where the first ended. -/
theorem bind {first : Action Machine Result} {next : Result → Action Machine Value}
    (takes : first.Takes allowed) (takesNext : ∀ value, (next value).Takes allowed) :
    (first >>= next).Takes allowed := by
  refine ⟨fun before sound => ?_⟩
  rw [ends_bind]
  refine (takes.ends before sound).imp ?_ (fun _ _ path => path) (fun _ stopped => stopped)
  intro value middle path
  exact ((takesNext value).ends middle (path.sound sound)).imp (fun _ _ => path.trans)
    (fun _ _ => path.trans) (fun _ stopped => stopped)

theorem ite {condition : Prop} [Decidable condition] {other : Action Machine Value}
    (yes : condition → action.Takes allowed) (no : ¬condition → other.Takes allowed) :
    (if condition then action else other).Takes allowed := by
  split
  case isTrue holds => exact yes holds
  case isFalse fails => exact no fails

/-- Refusing to go on under a condition takes no steps. -/
theorem refuse {condition : Prop} [Decidable condition] (error : Errno)
    (takes : action.Takes allowed) :
    (if condition then
      (do let _ : Result ← Action.fail error
          action)
    else action).Takes allowed :=
  ite (fun _ => (fail error).bind fun _ => takes) (fun _ => takes)

theorem forM {round : Item → Action Machine Unit} (takes : ∀ item, (round item).Takes allowed)
    (rounds : List Item) : (rounds.forM round).Takes allowed := by
  induction rounds with
  | nil => exact pure ()
  | cons item rest inductionHypothesis => exact (takes item).bind fun _ => inductionHypothesis

theorem space (pid : Pid) : (Machine.space pid).Takes allowed := by
  refine ⟨fun before sound => ?_⟩
  exact (require .noSuchEntry before.spaces[pid]?).ends before sound

end Takes

end Action

end DemandPaging
