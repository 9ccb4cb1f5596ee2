import DurableWorkflow.Backend.Operations

/-!
# Settling a task

How a worker brings a finished task home. It asks the backend to take the result; while the backend
is busy it waits longer and longer and asks again, and at last gives the task back. The answers of
the backend come from outside, so a settlement is a tree: it branches at every request over the
answer that comes. Its depth is bounded by the number of retries.

## Main definitions

* `Settlement.Request` — what a worker asks for.
* `Settlement` — requests and waits, up to the end.
* `Settlement.acknowledge` — hand in a result, with retries.
-/

namespace DurableWorkflow

/-- What a worker asks of the backend about an outstanding task. -/
inductive Settlement.Request where
  /-- Take a piece of history and commands. -/
  | complete (token : String) (delta : List Event) (commands : List Command)
  /-- Fail the workflow. -/
  | fail (token : String) (error : Failure)
  /-- Take the task back. -/
  | abandon (token : String)
  deriving DecidableEq, Inhabited

/-- How a worker settles a task, whatever the answers of the backend are. -/
inductive Settlement where
  /-- It is over, with the answer that counts. -/
  | finished (answer : Except BackendError Unit)
  /-- Ask for something and go on according to the answer. -/
  | ask (request : Settlement.Request) (next : Except BackendError Unit → Settlement)
  /-- Wait for so many milliseconds and go on. -/
  | wait (ms : Nat) (next : Settlement)

namespace Settlement

instance : Inhabited Settlement :=
  ⟨.finished (.ok ())⟩

/-- Ask once, and let the answer count. -/
def once (request : Request) : Settlement :=
  .ask request .finished

/-- How long to wait after a number of failed attempts: ten milliseconds, doubled for each attempt
up to the sixteenth. -/
def backoff (attempts : Nat) : Nat :=
  10 <<< min attempts 16

/-- Hand in a result after a number of failed attempts, with so many retries left. Only a refusal
that may pass is retried. If none is left the task is given back, which is tried once, and the
refusal counts. -/
def retrying (token : String) (delta : List Event) (commands : List Command) :
    (attempts left : Nat) → Settlement
  | _, 0 => .ask (.complete token delta commands) fun
    | .ok () => .finished (.ok ())
    | .error e =>
      if e.retryable then .ask (.abandon token) fun _ => .finished (.error e)
      else .finished (.error e)
  | attempts, left + 1 => .ask (.complete token delta commands) fun
    | .ok () => .finished (.ok ())
    | .error e =>
      if e.retryable then
        .wait (backoff attempts) (retrying token delta commands (attempts + 1) left)
      else .finished (.error e)

/-- Hand in a result with at most so many retries. -/
def acknowledge (token : String) (delta : List Event) (commands : List Command) (retries : Nat) :
    Settlement :=
  retrying token delta commands 0 retries

end Settlement

end DurableWorkflow
