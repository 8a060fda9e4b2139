import DemandPaging.Fault

/-!
Operations on a state, and the three ways in which they end.

Owns:
- an outcome: a value, an error that leaves a state behind, or a fault that leaves none;
- operations as functions from a state to an outcome, and their sequencing;
- running an operation on a part of a larger state.

Main statement: `Action` is a lawful monad, so operations may be read as programs.
-/

namespace DemandPaging

/-- How an operation on a state ends. -/
inductive Outcome (State Value : Type) where
  /-- It answered a value. -/
  | done (value : Value) (state : State)
  /-- It reported an error; what it did before stays done. -/
  | failed (error : Errno) (state : State)
  /-- It stopped the machine. -/
  | halted (fault : Fault)
deriving Inhabited

namespace Outcome

variable {State Value : Type}

/-- The state left behind, unless the machine stopped. -/
def state? : Outcome State Value → Option State
  | done _ state => some state
  | failed _ state => some state
  | halted _ => none

/-- Whatever state is left behind satisfies a condition. -/
def Leaves (condition : State → Prop) (outcome : Outcome State Value) : Prop :=
  ∀ state, outcome.state? = some state → condition state

end Outcome

/-- An operation on a state. -/
def Action (State Value : Type) : Type := State → Outcome State Value

namespace Action

variable {State Part Value Result : Type}

protected def pure (value : Value) : Action State Value := fun state => .done value state

/-- Run an operation, and if it answers, the one that its answer selects. -/
protected def bind (first : Action State Value) (next : Value → Action State Result) :
    Action State Result := fun state =>
  match first state with
  | .done value state => next value state
  | .failed error state => .failed error state
  | .halted fault => .halted fault

instance : Monad (Action State) where
  pure := Action.pure
  bind := Action.bind

theorem pure_apply (value : Value) (state : State) :
    (pure value : Action State Value) state = .done value state := rfl

theorem bind_apply (first : Action State Value) (next : Value → Action State Result)
    (state : State) :
    (first >>= next) state =
      match first state with
      | .done value state => next value state
      | .failed error state => .failed error state
      | .halted fault => .halted fault := rfl

theorem map_apply (change : Value → Result) (action : Action State Value) (state : State) :
    (change <$> action) state =
      match action state with
      | .done value state => .done (change value) state
      | .failed error state => .failed error state
      | .halted fault => .halted fault := rfl

instance : LawfulMonad (Action State) := LawfulMonad.mk' _
  (fun action => by
    funext state
    rw [map_apply]
    cases action state <;> rfl)
  (fun _ _ => rfl)
  (fun first next last => by
    funext state
    simp only [bind_apply]
    cases first state <;> rfl)

def get : Action State State := fun state => .done state state

def set (state : State) : Action State Unit := fun _ => .done () state

def modify (change : State → State) : Action State Unit := fun state => .done () (change state)

def fail (error : Errno) : Action State Value := fun state => .failed error state

def halt (fault : Fault) : Action State Value := fun _ => .halted fault

/-- Answer a value, if there is one, or report an error. -/
def require (error : Errno) : Option Value → Action State Value
  | some value => pure value
  | none => fail error

/-- Answer a value or report the error found in its place. -/
def orFail : Except Errno Value → Action State Value
  | .ok value => pure value
  | .error error => fail error

/-- Answer a value or stop the machine by the fault found in its place. -/
def orHalt : Except Fault Value → Action State Value
  | .ok value => pure value
  | .error fault => halt fault

/-- Answer the result of a computation on machine words, or stop the machine if it left their
range. -/
def checked : Except Overflow Value → Action State Value
  | .ok value => pure value
  | .error operation => halt (.overflow operation)

/-- Run an operation and answer how it ended, instead of ending with its error. -/
def attempt (action : Action State Value) : Action State (Except Errno Value) := fun state =>
  match action state with
  | .done value state => .done (.ok value) state
  | .failed error state => .done (.error error) state
  | .halted fault => .halted fault

/-- Run an operation on a part of the state. -/
def onPart (part : State → Part) (replace : Part → State → State)
    (action : Action Part Value) : Action State Value := fun state =>
  match action (part state) with
  | .done value inner => .done value (replace inner state)
  | .failed error inner => .failed error (replace inner state)
  | .halted fault => .halted fault

end Action

end DemandPaging
