import DurableWorkflow.Program.Variables

/-!
# Suspended threads

What is left of a thread between two polls: its variables, the statements still to come and, once
it has started, what it waits for. Nothing else survives a suspension, so a thread is plain data.
-/

namespace DurableWorkflow

/-- What a thread waits for. -/
inductive Wait where
  /-- The payload of a future, at a type if one is given. -/
  | future (ref : FutureRef) (type : Option PayloadType)
  /-- A timer, whose payload does not matter. -/
  | timer (ref : FutureRef)
  /-- The payloads of several futures, those that are there already kept beside them. -/
  | all (futures : List (FutureRef × Option String))
  /-- The payload of the first of several futures; its index goes to a variable. -/
  | any (futures : List FutureRef) (which : Option String)
  /-- The other threads. -/
  | turn
  /-- Nothing. -/
  | never
  deriving DecidableEq, Inhabited

/-- What becomes of the end of a thread. -/
inductive Role where
  /-- It is the result of the workflow; a typed one is encoded first. -/
  | main (typed : Bool)
  /-- It is the outcome of a future. -/
  | spawned (future : FutureId)
  deriving DecidableEq, Inhabited

/-- A thread between two polls. -/
structure Thread where
  /-- What becomes of its end. -/
  role : Role
  /-- Its variables. -/
  bindings : Variables
  /-- What it waits for, and where the result goes. -/
  waiting : Option (Wait × Binding)
  /-- The statements to go on with. -/
  rest : List Statement
  deriving Inhabited

/-- A bound on the statements that a thread can still execute, counting the thread itself. -/
def Thread.weight (thread : Thread) : Nat :=
  1 + Statement.listWeight thread.rest

end DurableWorkflow
