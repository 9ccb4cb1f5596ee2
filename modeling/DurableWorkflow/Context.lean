import DurableWorkflow.Child
import DurableWorkflow.History.Command
import DurableWorkflow.Payload.Converter
import DurableWorkflow.Program.Thread
import DurableWorkflow.RunInfo
import DurableWorkflow.Scheduler

/-!
# The execution context

What the threads of one execution share: its identity, its children, timers and futures, the
commands issued since the last step, and whether history is being applied again. Everything that
workflow code can ask of its surroundings is an operation on the context.

## Main definitions

* `Context` — the shared state.
* `Context.startChild`, `Context.startTimer`, `Context.spawn` — the operations that yield futures.
* `Context.call`, `Context.invoke` — the direct and the asynchronous way to start a child.
* `Context.pollFuture`, `Context.resolve` — waiting and waking.
-/

namespace DurableWorkflow

/-- Whom to wake when a future is resolved. -/
inductive Waker where
  /-- A thread. -/
  | thread (id : ThreadId)
  /-- Nobody: the host looked at a future from outside. -/
  | inert
  deriving DecidableEq, Inhabited

/-- What is known about a future. -/
structure FutureView where
  /-- The future. -/
  future : FutureRef
  /-- Whether it has an outcome. -/
  ready : Bool
  /-- The child behind it, if any. -/
  child : Option Child
  deriving DecidableEq, Inhabited

/-- Something that workflow code noted for an observer; notes have no effect on the workflow. -/
inductive Note where
  /-- A text. -/
  | text (s : String)
  /-- What is known about a future. -/
  | future (view : FutureView)
  /-- What is known about the execution. -/
  | execution (info : RunInfo) (replaying : Bool) (cancelReason : Option String)
  /-- A log line. -/
  | log (level : LogLevel) (workflowId message : String)
  deriving DecidableEq, Inhabited

/-- The state that the threads of one execution share. -/
structure Context where
  /-- Whose execution this is. -/
  info : RunInfo
  /-- The converter for payloads. -/
  converter : Converter
  /-- Whether recorded history is being applied again. -/
  replaying : Bool
  /-- Why the workflow was asked to cancel, if it was. -/
  cancelReason : Option String
  /-- The last sequence number given out. -/
  lastSeq : Nat
  /-- The children. -/
  children : Children
  /-- The timers that have not fired, with their futures. -/
  timers : List (Nat × FutureId)
  /-- The futures. -/
  futures : FutureTable Waker
  /-- The commands issued since they were last taken. -/
  commands : List Command
  /-- The threads spawned since they were last adopted. -/
  spawned : List Thread
  /-- The wakes since they were last collected. -/
  woken : List ThreadId
  /-- The result of the main thread, or of a panic. -/
  mainResult : Option Outcome
  /-- The notes since they were last taken. -/
  notes : List Note

namespace Context

/-- The context of an execution that has not started. -/
def new (info : RunInfo) (converter : Converter) : Context where
  info := info
  converter := converter
  replaying := false
  cancelReason := none
  lastSeq := 0
  children := .empty
  timers := []
  futures := .empty
  commands := []
  spawned := []
  woken := []
  mainResult := none
  notes := []

/-- Issue a command. -/
def issue (ctx : Context) (command : Command) : Context :=
  { ctx with commands := ctx.commands ++ [command] }

/-- Leave a note. -/
def note (ctx : Context) (note : Note) : Context :=
  { ctx with notes := ctx.notes ++ [note] }

/-- Wake a thread. -/
def wake (ctx : Context) : Waker → Context
  | .thread id => { ctx with woken := ctx.woken ++ [id] }
  | .inert => ctx

/-- Resolve a future, unless it is resolved already, and wake whoever waits for it. -/
def resolve (ctx : Context) (id : FutureId) (outcome : Outcome) : Context :=
  let (wakers, futures) := ctx.futures.resolve id outcome
  (wakers.getD []).foldl wake { ctx with futures }

/-- Ask for the outcome of a future and, without one, wait for it. -/
def pollFuture (ctx : Context) (id : FutureId) (waker : Waker) : Option Outcome × Context :=
  let (outcome, futures) := ctx.futures.poll id waker
  (outcome, { ctx with futures })

/-- A future that failed before anything was started. -/
def failedFuture (ctx : Context) (failure : Failure) : FutureRef × Context :=
  let (id, futures) := ctx.futures.create
  (⟨id, .immediate⟩, { ctx with futures }.resolve id (.error failure))

/-! ### Timers and threads -/

/-- Start a timer; its future is resolved when it fires. -/
def startTimer (ctx : Context) (delay : Duration) : FutureRef × Context :=
  let seq := ctx.lastSeq + 1
  let (id, futures) := ctx.futures.create
  let ctx := { ctx with lastSeq := seq, futures, timers := ctx.timers ++ [(seq, id)] }
  (⟨id, .timer seq⟩, ctx.issue (.startTimer seq delay.millis))

/-- Let statements run as a thread of their own; its future is resolved when they end. -/
def spawn (ctx : Context) (bindings : Variables) (steps : List Statement) :
    FutureRef × Context :=
  let (id, futures) := ctx.futures.create
  let thread : Thread := ⟨.spawned id, bindings, none, steps⟩
  (⟨id, .thread⟩, { ctx with futures, spawned := ctx.spawned ++ [thread] })

/-! ### Children -/

/-- Start a child with encoded arguments. Open choices are made here: the name is that of the
parent and the sequence number, and the queue is that of the parent. -/
def startChild (ctx : Context) (stub : Stub) (method input : String) : FutureRef × Context :=
  let seq := ctx.lastSeq + 1
  let (id, futures) := ctx.futures.create
  let start : ChildStart :=
    { seq
      workflowType := stub.interface.name
      method
      workflowId := stub.options.workflowId.getD (ctx.info.workflowId ++ "::" ++ toString seq)
      taskQueue := stub.options.taskQueue.getD ctx.info.taskQueue
      input
      timeoutMs := stub.options.timeout.map Duration.millis
      detached := stub.options.detached }
  let ctx := { ctx with
    lastSeq := seq, futures, children := ctx.children.register (.ofStart start id) }
  (⟨id, .child seq⟩, ctx.issue (.startChild start))

/-- Call a method of a stub. A method that is not declared, or arguments that have no payload, give
a future that has failed, and nothing is started. -/
def call (ctx : Context) (stub : Stub) (method : String) (args : Json) : FutureRef × Context :=
  if stub.interface.declares method then
    match ctx.converter.encode args with
    | .ok input => ctx.startChild stub method input
    | .error e => ctx.failedFuture e.toFailure
  else ctx.failedFuture (.unknownMethod stub.interface.name method)

/-- Start the child behind a method reference, unless the reference is not eligible. -/
def invoke (ctx : Context) (ref : MethodRef) (args : Json) : Except Failure FutureRef × Context :=
  match ref.eligibility, ref.stub with
  | .eligible, some stub =>
    let (future, ctx) := ctx.call stub ref.name args
    (.ok future, ctx)
  | .ineligible reason, _ => (.error (.ineligibleReference ref.name reason), ctx)
  | .eligible, none =>
    (.error (.ineligibleReference ref.name "reference is not bound to a stub"), ctx)

/-- Detach the child behind a future. Other futures are left alone. -/
def abandon (ctx : Context) (future : FutureRef) : Context :=
  match future.kind with
  | .child seq => { ctx with children := ctx.children.detach seq }
  | _ => ctx

/-- What is known about a future. -/
def view (ctx : Context) (future : FutureRef) : FutureView where
  future := future
  ready := ctx.futures.isResolved future.id
  child :=
    match future.kind with
    | .child seq => ctx.children.get? seq
    | _ => none

end Context

end DurableWorkflow
