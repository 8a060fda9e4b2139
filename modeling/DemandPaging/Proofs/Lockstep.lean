import DemandPaging.Proofs.Outcome

/-!
Two runs of an operation side by side.

Owns:
- `Outcome.EndAlike`, two operations ended the same way, with the same answer, error or fault, and
  what they left behind is related;
- the law of every way to build an operation, so that two programs with the same text are compared
  part by part.

Does not own: the relations between states (`SwapArea.AgreeOn`, `Machine.SameButFree`).

Main statements: `endAlike_bind`, what follows is compared only where the first parts ended alike,
and `endAlike_foldlM`, a loop keeps the relation that every round keeps.
-/

namespace DemandPaging

namespace Outcome

variable {State Value : Type}

/-- Two operations ended the same way, and the states that they left are related. -/
inductive EndAlike (whenDone : Value → State → State → Prop)
    (whenFailed : Errno → State → State → Prop) :
    Outcome State Value → Outcome State Value → Prop where
  | done {value : Value} {state twin : State} (related : whenDone value state twin) :
      EndAlike whenDone whenFailed (.done value state) (.done value twin)
  | failed {error : Errno} {state twin : State} (related : whenFailed error state twin) :
      EndAlike whenDone whenFailed (.failed error state) (.failed error twin)
  | halted (fault : Fault) : EndAlike whenDone whenFailed (.halted fault) (.halted fault)

namespace EndAlike

variable {left right : Outcome State Value} {done done' : Value → State → State → Prop}
  {failed failed' : Errno → State → State → Prop}

/-- An operation ends as it does itself. -/
theorem of_same (outcome : Outcome State Value) (onDone : ∀ value state, done value state state)
    (onFailed : ∀ error state, failed error state state) :
    EndAlike done failed outcome outcome := by
  cases outcome with
  | done value state => exact .done (onDone value state)
  | failed error state => exact .failed (onFailed error state)
  | halted fault => exact .halted fault

theorem imp (alike : EndAlike done failed left right)
    (onDone : ∀ value state twin, done value state twin → done' value state twin)
    (onFailed : ∀ error state twin, failed error state twin → failed' error state twin) :
    EndAlike done' failed' left right := by
  cases alike with
  | done related => exact .done (onDone _ _ _ related)
  | failed related => exact .failed (onFailed _ _ _ related)
  | halted fault => exact .halted fault

/-- What is known of the end of the first operation is known where both are compared. -/
theorem and_ends {onDone : Value → State → Prop} {onFailed : Errno → State → Prop}
    {onHalted : Fault → Prop} (alike : EndAlike done failed left right)
    (ends : left.Ends onDone onFailed onHalted) :
    EndAlike (fun value state twin => done value state twin ∧ onDone value state)
      (fun error state twin => failed error state twin ∧ onFailed error state) left right := by
  cases alike with
  | done related => exact .done ⟨related, ends⟩
  | failed related => exact .failed ⟨related, ends⟩
  | halted fault => exact .halted fault

/-- Of an error nothing more than the relation may be asked. -/
theorem and_done {onDone : Value → State → Prop} {onFailed : Errno → State → Prop}
    {onHalted : Fault → Prop} (alike : EndAlike done failed left right)
    (ends : left.Ends onDone onFailed onHalted) :
    EndAlike (fun value state twin => done value state twin ∧ onDone value state) failed left
      right :=
  (alike.and_ends ends).imp (fun _ _ _ both => both) fun _ _ _ both => both.1

/-- Where two operations ended alike, each of them ended so. -/
theorem and_self (alike : EndAlike done failed left right) :
    EndAlike (fun value state twin => done value state twin ∧ left = .done value state ∧
        right = .done value twin)
      (fun error state twin => failed error state twin ∧ left = .failed error state ∧
        right = .failed error twin) left right := by
  cases alike with
  | done related => exact .done ⟨related, rfl, rfl⟩
  | failed related => exact .failed ⟨related, rfl, rfl⟩
  | halted fault => exact .halted fault

end EndAlike

end Outcome

namespace Action

open Outcome (EndAlike)

variable {State Part Whole Value Result Item : Type} {left right : State}
  {done : Value → State → State → Prop} {failed : Errno → State → State → Prop}

/-- What is done with the state is done with the state at hand. -/
theorem get_bind_apply (next : State → Action State Value) (state : State) :
    (get >>= next) state = next state state := rfl

theorem endAlike_bind {first twin : Action State Result}
    {next nextTwin : Result → Action State Value} (middle : Result → State → State → Prop)
    (start : EndAlike middle failed (first left) (twin right))
    (goOn : ∀ result state other, middle result state other →
      EndAlike done failed (next result state) (nextTwin result other)) :
    EndAlike done failed ((first >>= next) left) ((twin >>= nextTwin) right) := by
  rw [bind_apply, bind_apply]
  generalize first left = outcome at start ⊢
  generalize twin right = other at start ⊢
  cases start with
  | done related => exact goOn _ _ _ related
  | failed related => exact .failed related
  | halted fault => exact .halted fault

theorem endAlike_require {error : Errno} {value? : Option Value}
    (present : ∀ value, value? = some value → done value left right)
    (absent : value? = none → failed error left right) :
    EndAlike done failed ((require error value? : Action State Value) left)
      (require error value? right) := by
  cases value? with
  | none => exact .failed (absent rfl)
  | some value => exact .done (present value rfl)

/-- If a value is there, both operations go on with it from where they are. -/
theorem endAlike_require_bind {error : Errno} {value? : Option Result}
    {next nextTwin : Result → Action State Value}
    (present : ∀ value, value? = some value →
      EndAlike done failed (next value left) (nextTwin value right))
    (absent : value? = none → failed error left right) :
    EndAlike done failed ((require error value? >>= next) left)
      ((require error value? >>= nextTwin) right) := by
  cases value? with
  | none => exact .failed (absent rfl)
  | some value => exact present value rfl

theorem endAlike_orFail {result : Except Errno Value}
    (ok : ∀ value, result = .ok value → done value left right)
    (bad : ∀ error, result = .error error → failed error left right) :
    EndAlike done failed ((orFail result : Action State Value) left) (orFail result right) := by
  cases result with
  | error error => exact .failed (bad error rfl)
  | ok value => exact .done (ok value rfl)

theorem endAlike_checked {result : Except Overflow Value}
    (ok : ∀ value, result = .ok value → done value left right) :
    EndAlike done failed ((checked result : Action State Value) left) (checked result right) := by
  cases result with
  | error operation => exact .halted (.overflow operation)
  | ok value => exact .done (ok value rfl)

theorem endAlike_attempt {action twin : Action State Value}
    {done : Except Errno Value → State → State → Prop}
    (alike : EndAlike (fun value => done (.ok value)) (fun error => done (.error error))
      (action left) (twin right)) :
    EndAlike done failed (attempt action left) (attempt twin right) := by
  unfold attempt
  generalize action left = outcome at alike ⊢
  generalize twin right = other at alike ⊢
  cases alike with
  | done related | failed related => exact .done related
  | halted fault => exact .halted fault

theorem endAlike_onPart {part : Whole → Part} {replace : Part → Whole → Whole}
    {action twin : Action Part Value} {left right : Whole}
    {done : Value → Whole → Whole → Prop} {failed : Errno → Whole → Whole → Prop}
    (alike : EndAlike
      (fun value inner other => done value (replace inner left) (replace other right))
      (fun error inner other => failed error (replace inner left) (replace other right))
      (action (part left)) (twin (part right))) :
    EndAlike done failed (onPart part replace action left) (onPart part replace twin right) := by
  unfold onPart
  generalize action (part left) = outcome at alike ⊢
  generalize twin (part right) = other at alike ⊢
  cases alike with
  | done related => exact .done related
  | failed related => exact .failed related
  | halted fault => exact .halted fault

/-! ## Loops -/

theorem endAlike_forM {round twin : Item → Action State Unit} {rounds : List Item}
    (between : List Item → State → State → Prop)
    (keeps : ∀ item rest left right, between (item :: rest) left right →
      EndAlike (fun _ => between rest) failed (round item left) (twin item right))
    {left right : State} (start : between rounds left right) :
    EndAlike (fun _ => between []) failed (rounds.forM round left) (rounds.forM twin right) := by
  induction rounds generalizing left right with
  | nil => exact .done start
  | cons item rest inductionHypothesis =>
      exact endAlike_bind _ (keeps item rest left right start)
        fun _ _ _ reached => inductionHypothesis reached

theorem endAlike_foldlM {round twin : Result → Item → Action State Result} {rounds : List Item}
    (between : List Item → Result → State → State → Prop)
    (keeps : ∀ item rest result left right, between (item :: rest) result left right →
      EndAlike (between rest) failed (round result item left) (twin result item right))
    {result : Result} {left right : State} (start : between rounds result left right) :
    EndAlike (between []) failed (rounds.foldlM round result left)
      (rounds.foldlM twin result right) := by
  induction rounds generalizing result left right with
  | nil => exact .done start
  | cons item rest inductionHypothesis =>
      rw [List.foldlM_cons, List.foldlM_cons]
      exact endAlike_bind _ (keeps item rest result left right start)
        fun _ _ _ reached => inductionHypothesis reached

end Action

end DemandPaging
