import DemandPaging.Action

/-!
How the end of an operation follows from the ends of its parts.

Owns:
- `Outcome.Ends`, one condition for each of the three ways in which an operation ends,
  `Outcome.answer?`, the value it answered, and `Outcome.error?`, the error it answered instead;
- the law of every way to build an operation, so that the end of a program is read off its text;
- loops over a list, by what holds between two rounds.

Main statements: `Outcome.Ends.bind`, an operation is judged by what its first part promises, and
`Action.ends_forM`, a loop keeps what every round keeps.
-/

namespace DemandPaging

namespace Outcome

variable {State Value : Type}

/-- Whichever way an operation ended, the condition for that way holds. -/
def Ends (outcome : Outcome State Value) (done : Value → State → Prop)
    (failed : Errno → State → Prop) (halted : Fault → Prop) : Prop :=
  match outcome with
  | .done value state => done value state
  | .failed error state => failed error state
  | .halted fault => halted fault

variable {outcome : Outcome State Value} {done done' : Value → State → Prop}
  {failed failed' : Errno → State → Prop} {halted halted' : Fault → Prop}

@[simp]
theorem ends_done {value : Value} {state : State} :
    (Outcome.done value state).Ends done failed halted ↔ done value state := Iff.rfl

@[simp]
theorem ends_failed {error : Errno} {state : State} :
    (Outcome.failed error state : Outcome State Value).Ends done failed halted ↔
      failed error state := Iff.rfl

@[simp]
theorem ends_halted {fault : Fault} :
    (Outcome.halted fault : Outcome State Value).Ends done failed halted ↔ halted fault := Iff.rfl

theorem Ends.imp (ends : outcome.Ends done failed halted)
    (onDone : ∀ value state, done value state → done' value state)
    (onFailed : ∀ error state, failed error state → failed' error state)
    (onHalted : ∀ fault, halted fault → halted' fault) :
    outcome.Ends done' failed' halted' := by
  cases outcome with
  | done value state => exact onDone value state ends
  | failed error state => exact onFailed error state ends
  | halted fault => exact onHalted fault ends

/-- More is known of an answer, and the same of every other end. -/
theorem Ends.imp_done (ends : outcome.Ends done failed halted)
    (onDone : ∀ value state, done value state → done' value state) :
    outcome.Ends done' failed halted :=
  ends.imp onDone (fun _ _ holds => holds) (fun _ holds => holds)

theorem Ends.and (left : outcome.Ends done failed halted)
    (right : outcome.Ends done' failed' halted') :
    outcome.Ends (fun value state => done value state ∧ done' value state)
      (fun error state => failed error state ∧ failed' error state)
      (fun fault => halted fault ∧ halted' fault) := by
  cases outcome <;> exact ⟨left, right⟩

theorem ends_self :
    outcome.Ends (fun value state => outcome = .done value state)
      (fun error state => outcome = .failed error state)
      (fun fault => outcome = .halted fault) := by
  cases outcome <;> rfl

/-- The value that was answered, if one was. -/
def answer? : Outcome State Value → Option Value
  | .done value _ => some value
  | .failed _ _ => none
  | .halted _ => none

theorem exists_of_answer? {value : Value} (answers : outcome.answer? = some value) :
    ∃ state, outcome = .done value state := by
  cases outcome with
  | done found state =>
      cases answers
      exact ⟨state, rfl⟩
  | failed error state | halted fault => cases answers

/-- The error with which an operation failed, if it did. -/
def error? : Outcome State Value → Option Errno
  | .done _ _ => none
  | .failed error _ => some error
  | .halted _ => none

theorem exists_of_error? {error : Errno} (fails : outcome.error? = some error) :
    ∃ state, outcome = .failed error state := by
  cases outcome with
  | failed found state =>
      cases fails
      exact ⟨state, rfl⟩
  | done value state | halted fault => cases fails

/-- What holds after an answer and after an error holds of any state that is left behind. -/
theorem Ends.leaves {condition : State → Prop} (ends : outcome.Ends done failed halted)
    (onDone : ∀ value state, done value state → condition state)
    (onFailed : ∀ error state, failed error state → condition state) :
    outcome.Leaves condition := by
  intro state left
  cases outcome with
  | done value after =>
      cases left
      exact onDone value state ends
  | failed error after =>
      cases left
      exact onFailed error state ends
  | halted fault => cases left

end Outcome

namespace Action

variable {State Part Value Result Item : Type} {state : State}
  {done : Value → State → Prop} {failed : Errno → State → Prop} {halted : Fault → Prop}

@[simp]
theorem ends_pure {value : Value} :
    ((pure value : Action State Value) state).Ends done failed halted ↔ done value state := Iff.rfl

@[simp]
theorem ends_bind {first : Action State Result} {next : Result → Action State Value} :
    ((first >>= next) state).Ends done failed halted ↔
      (first state).Ends (fun value state => (next value state).Ends done failed halted)
        failed halted := by
  rw [bind_apply]
  cases first state <;> rfl

/-- An operation after one that answered starts from the state that the first one left. -/
theorem bind_of_done {first : Action State Result} {next : Result → Action State Value}
    {before middle : State} {result : Result} (ran : first before = .done result middle) :
    (first >>= next) before = next result middle := by
  rw [bind_apply, ran]

/-- Two operations in a row answer only if each of them does. -/
theorem bind_eq_done {first : Action State Result} {next : Result → Action State Value}
    {before after : State} {value : Value} (ran : (first >>= next) before = .done value after) :
    ∃ result middle, first before = .done result middle ∧
      next result middle = .done value after := by
  rw [bind_apply] at ran
  cases outcome : first before with
  | done result middle =>
      rw [outcome] at ran
      exact ⟨result, middle, rfl, ran⟩
  | failed error middle | halted fault =>
      rw [outcome] at ran
      cases ran

/-- Two operations in a row answer alike in two states if the first one does and the answer of the
second one does not depend on the state. -/
theorem answer?_bind {first twin : Action State Result} {next : Result → Action State Value}
    {other : State} (same : (first state).answer? = (twin other).answer?)
    (independent : ∀ result left right, (next result left).answer? = (next result right).answer?) :
    ((first >>= next) state).answer? = ((twin >>= next) other).answer? := by
  rw [bind_apply, bind_apply]
  cases ran : first state with
  | done result middle =>
      rw [ran] at same
      obtain ⟨reached, ranTwin⟩ := Outcome.exists_of_answer? same.symm
      rw [ranTwin]
      exact independent result middle reached
  | failed _ _ | halted _ =>
      rw [ran] at same
      cases ranTwin : twin other with
      | done _ _ =>
          rw [ranTwin] at same
          cases same
      | failed _ _ | halted _ => rfl

@[simp]
theorem ends_get {done : State → State → Prop} :
    ((get : Action State State) state).Ends done failed halted ↔ done state state := Iff.rfl

@[simp]
theorem ends_set {new : State} {done : Unit → State → Prop} :
    (set new state).Ends done failed halted ↔ done () new := Iff.rfl

@[simp]
theorem ends_modify {change : State → State} {done : Unit → State → Prop} :
    (modify change state).Ends done failed halted ↔ done () (change state) := Iff.rfl

@[simp]
theorem ends_fail {error : Errno} :
    ((fail error : Action State Value) state).Ends done failed halted ↔ failed error state :=
  Iff.rfl

@[simp]
theorem ends_halt {fault : Fault} :
    ((halt fault : Action State Value) state).Ends done failed halted ↔ halted fault := Iff.rfl

/-- What is asked of a result that is known to be a value is asked of that value only. -/
theorem of_result_eq_ok {Problem : Type} {result : Except Problem Value} {value : Value}
    {ok : Value → Prop} {bad : Problem → Prop} (same : result = .ok value) (holds : ok value) :
    (∀ found, result = .ok found → ok found) ∧
      ∀ problem, result = .error problem → bad problem := by
  subst same
  constructor
  · intro found same
    cases same
    exact holds
  · intro problem same
    cases same

theorem ends_require {error : Errno} {value? : Option Value} :
    ((require error value? : Action State Value) state).Ends done failed halted ↔
      (∀ value, value? = some value → done value state) ∧ (value? = none → failed error state) := by
  cases value? <;> simp [require]

theorem ends_orFail {result : Except Errno Value} :
    ((orFail result : Action State Value) state).Ends done failed halted ↔
      (∀ value, result = .ok value → done value state) ∧
        (∀ error, result = .error error → failed error state) := by
  cases result <;> simp [orFail]

theorem ends_orHalt {result : Except Fault Value} :
    ((orHalt result : Action State Value) state).Ends done failed halted ↔
      (∀ value, result = .ok value → done value state) ∧
        (∀ fault, result = .error fault → halted fault) := by
  cases result <;> simp [orHalt]

theorem ends_checked {result : Except Overflow Value} :
    ((checked result : Action State Value) state).Ends done failed halted ↔
      (∀ value, result = .ok value → done value state) ∧
        (∀ operation, result = .error operation → halted (.overflow operation)) := by
  cases result <;> simp [checked]

@[simp]
theorem ends_attempt {action : Action State Value} {done : Except Errno Value → State → Prop} :
    (attempt action state).Ends done failed halted ↔
      (action state).Ends (fun value => done (.ok value)) (fun error => done (.error error))
        halted := by
  unfold attempt
  cases action state <;> rfl

@[simp]
theorem ends_onPart {part : State → Part} {replace : Part → State → State}
    {action : Action Part Value} :
    (onPart part replace action state).Ends done failed halted ↔
      (action (part state)).Ends (fun value inner => done value (replace inner state))
        (fun error inner => failed error (replace inner state)) halted := by
  unfold onPart
  cases action (part state) <;> rfl

theorem answer?_onPart {part : State → Part} {replace : Part → State → State}
    {action : Action Part Value} :
    (onPart part replace action state).answer? = (action (part state)).answer? := by
  unfold onPart
  cases action (part state) <;> rfl

/-! ## Loops -/

/-- A loop whose rounds keep a condition on what is left to do and the state so far. -/
theorem ends_forM {round : Item → Action State Unit} {rounds : List Item}
    {failed : Errno → State → Prop} {halted : Fault → Prop} (between : List Item → State → Prop)
    (keeps : ∀ item rest state, between (item :: rest) state →
      (round item state).Ends (fun _ => between rest) failed halted)
    {state : State} (start : between rounds state) :
    (rounds.forM round state).Ends (fun _ => between []) failed halted := by
  induction rounds generalizing state with
  | nil => exact start
  | cons item rest inductionHypothesis =>
      show ((round item >>= fun _ => rest.forM round) state).Ends _ _ _
      rw [ends_bind]
      exact (keeps item rest state start).imp
        (fun _ _ reached => inductionHypothesis reached)
        (fun _ _ stopped => stopped) (fun _ stopped => stopped)

/-- A loop that carries a value along. -/
theorem ends_foldlM {round : Result → Item → Action State Result} {rounds : List Item}
    {failed : Errno → State → Prop} {halted : Fault → Prop}
    (between : List Item → Result → State → Prop)
    (keeps : ∀ item rest result state, between (item :: rest) result state →
      (round result item state).Ends (between rest) failed halted)
    {result : Result} {state : State} (start : between rounds result state) :
    (rounds.foldlM round result state).Ends (between []) failed halted := by
  induction rounds generalizing result state with
  | nil => exact start
  | cons item rest inductionHypothesis =>
      rw [List.foldlM_cons, ends_bind]
      exact (keeps item rest result state start).imp
        (fun _ _ reached => inductionHypothesis reached)
        (fun _ _ stopped => stopped) (fun _ stopped => stopped)

end Action

end DemandPaging
