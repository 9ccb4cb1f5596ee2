import DurableWorkflow.Future
import DurableWorkflow.History.Event

/-!
# The life of a child

A child starts, may be acknowledged as running, and ends in one of four ways. Its parent follows
it through events; one that does not fit the state the child is in means that the history belongs
to other code. A child that is neither detached nor ended is pending: cancelling the parent asks it
to cancel too, once.

## Main definitions

* `ChildState` — where a child is in its life.
* `Child.apply` — the effect of an event on a child, with the outcome of one that ends it.
* `Children` — the children of one workflow in the order of their start.
-/

namespace DurableWorkflow

/-- Where a child is in its life. -/
inductive ChildState where
  /-- Its start was ordered. -/
  | starting
  /-- Its start was acknowledged. -/
  | running
  /-- It returned a value. -/
  | completed
  /-- It failed, or could not be started. -/
  | failed
  /-- It was cancelled. -/
  | cancelled
  /-- It ran out of time. -/
  | timedOut
  deriving DecidableEq, Inhabited

namespace ChildState

/-- Whether a child has ended. -/
def isTerminal : ChildState → Bool
  | .starting | .running => false
  | .completed | .failed | .cancelled | .timedOut => true

/-- The name of a state. -/
def name : ChildState → String
  | .starting => "Starting"
  | .running => "Running"
  | .completed => "Completed"
  | .failed => "Failed"
  | .cancelled => "Cancelled"
  | .timedOut => "TimedOut"

end ChildState

/-- News of a child. -/
inductive ChildTransition where
  /-- It was started as the given run. -/
  | started (runId : String)
  /-- It could not be started. -/
  | startFailed (cause : Failure)
  /-- It returned a value. -/
  | completed (result : String)
  /-- It failed. -/
  | failed (cause : Failure)
  /-- It was cancelled. -/
  | cancelled (reason : String)
  /-- It ran out of time. -/
  | timedOut
  deriving DecidableEq, Inhabited

/-- The name of a transition. -/
def ChildTransition.name : ChildTransition → String
  | .started _ => "started"
  | .startFailed _ => "start failed"
  | .completed _ => "completed"
  | .failed _ => "failed"
  | .cancelled _ => "cancelled"
  | .timedOut => "timed out"

/-- News that do not fit. -/
inductive LifecycleError where
  /-- No child has the sequence number. -/
  | unknownChild (seq : Nat)
  /-- The child is in a state that the transition does not leave. -/
  | invalidTransition (seq : Nat) (state : ChildState) (transition : String)
  deriving DecidableEq, Inhabited

/-- The wording of news that do not fit. -/
def LifecycleError.message : LifecycleError → String
  | .unknownChild seq => "no child workflow with seq " ++ toString seq
  | .invalidTransition seq state transition =>
    "child workflow seq " ++ toString seq ++ " cannot go from " ++ state.name ++ " to "
      ++ transition

/-- A child as its parent sees it. -/
structure Child where
  /-- Its sequence number. -/
  seq : Nat
  /-- Its interface. -/
  workflowType : String
  /-- The method it was started through. -/
  method : String
  /-- Its name. -/
  workflowId : String
  /-- Its run, once acknowledged. -/
  runId : Option String
  /-- Where it is in its life. -/
  state : ChildState
  /-- How it ended. -/
  result : Option Outcome
  /-- Whether cancelling the parent leaves it alone. -/
  detached : Bool
  /-- Whether it was asked to cancel. -/
  cancelRequested : Bool
  /-- The future of its result. -/
  future : FutureId
  deriving DecidableEq, Inhabited

namespace Child

/-- A child whose start was just ordered. -/
def ofStart (start : ChildStart) (future : FutureId) : Child where
  seq := start.seq
  workflowType := start.workflowType
  method := start.method
  workflowId := start.workflowId
  runId := none
  state := .starting
  result := none
  detached := start.detached
  cancelRequested := false
  future := future

/-- The end of a child: its last state and what whoever awaits it observes. The failures name the
child, and one that has a cause wraps it. -/
def ending (child : Child) : ChildTransition → Option (ChildState × Outcome)
  | .started _ => none
  | .completed result => some (.completed, .ok result)
  | .startFailed cause | .failed cause =>
    some (.failed, .error (.childFailure child.workflowType child.workflowId cause))
  | .cancelled reason =>
    some (.cancelled, .error (.childCancelled child.workflowType child.workflowId reason))
  | .timedOut => some (.timedOut, .error (.childTimeout child.workflowType child.workflowId))

/-- Whether a transition leaves the state a child is in: a start is acknowledged or refused once
and only at first, and an end comes while there was none. -/
def accepts (child : Child) : ChildTransition → Bool
  | .started _ | .startFailed _ => child.state == .starting
  | _ => !child.state.isTerminal

/-- The child after a transition, with the outcome to resolve its future with if this ended it. -/
def apply (child : Child) (transition : ChildTransition) :
    Except LifecycleError (Child × Option Outcome) :=
  if child.accepts transition then
    match transition with
    | .started runId => .ok ({ child with runId := some runId, state := .running }, none)
    | transition =>
      match child.ending transition with
      | some (state, outcome) => .ok ({ child with state, result := some outcome }, some outcome)
      | none => .ok (child, none)
  else .error (.invalidTransition child.seq child.state transition.name)

/-- A child that the cancellation of its parent still has to wait for. -/
def isPending (child : Child) : Bool :=
  !child.detached && !child.state.isTerminal

end Child

/-- The children of one workflow, in the order of their start. -/
structure Children where
  /-- The children; their sequence numbers ascend. -/
  entries : List Child
  deriving DecidableEq, Inhabited

namespace Children

/-- No children. -/
def empty : Children :=
  ⟨[]⟩

/-- Add a child whose start was just ordered. -/
def register (children : Children) (child : Child) : Children :=
  ⟨children.entries ++ [child]⟩

/-- The child with a sequence number. -/
def get? (children : Children) (seq : Nat) : Option Child :=
  children.entries.find? fun child => child.seq = seq

/-- Put another child in the place of the one with its sequence number. -/
def put (children : Children) (child : Child) : Children :=
  ⟨children.entries.map fun old => if old.seq = child.seq then child else old⟩

/-- From now on cancelling the parent leaves the child alone. -/
def detach (children : Children) (seq : Nat) : Children :=
  ⟨children.entries.map fun child =>
    if child.seq = seq then { child with detached := true } else child⟩

/-- The children after a transition of one of them. If it ended, this gives its future and the
outcome to resolve it with. -/
def apply (children : Children) (seq : Nat) (transition : ChildTransition) :
    Except LifecycleError (Children × Option (FutureId × Outcome)) :=
  match children.get? seq with
  | none => .error (.unknownChild seq)
  | some child =>
    match child.apply transition with
    | .error e => .error e
    | .ok (child, outcome) => .ok (children.put child, outcome.map fun o => (child.future, o))

/-- The children that a cancellation has to wait for. -/
def pending (children : Children) : List Child :=
  children.entries.filter Child.isPending

/-- Ask every pending child to cancel that was not asked yet. This gives those children in the
order of their start. -/
def requestCancel (children : Children) : List (Nat × String) × Children :=
  let asked (child : Child) : Bool := child.isPending && !child.cancelRequested
  ((children.entries.filter asked).map fun child => (child.seq, child.workflowId),
    ⟨children.entries.map fun child =>
      if asked child then { child with cancelRequested := true } else child⟩)

end Children

end DurableWorkflow
