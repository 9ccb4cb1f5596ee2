import DurableWorkflow.Divergence
import DurableWorkflow.Program.Interpreter

/-!
# Executions

One workflow instance, driven event by event. A step applies one event, lets the threads run until
none can, and gives the commands they issued. While recorded history is applied again every issued
command is held back as unconfirmed until its record comes; anything else is a divergence.

## Main definitions

* `Execution` — an instance: its context, its threads and the commands that await their records.
* `Execution.step` — one event.
* `Execution.settle` — when and how an instance closes.
* `Execution.replay` — an instance rebuilt from its history.
-/

namespace DurableWorkflow

/-- One workflow instance. -/
structure Execution where
  /-- The code of the workflow. -/
  program : Program
  /-- What its threads share. -/
  context : Context
  /-- Its threads. -/
  scheduler : Scheduler Thread
  /-- The commands issued during replay whose records have not come yet, oldest first. -/
  unconfirmed : List Command
  /-- Every command issued so far. -/
  issued : List Command
  /-- How many events were applied. -/
  eventsApplied : Nat
  /-- Whether the execution has started. -/
  started : Bool
  /-- Whether the instance has closed. -/
  complete : Bool

/-- What a step gives. -/
structure StepOutcome where
  /-- The commands issued in the step. -/
  commands : List Command
  /-- Whether the instance has closed. -/
  isComplete : Bool
  deriving DecidableEq, Inhabited

namespace Execution

/-- An instance to which no event was applied. -/
def new (info : RunInfo) (program : Program) (converter : Converter) : Execution where
  program := program
  context := .new info converter
  scheduler := .empty
  unconfirmed := []
  issued := []
  eventsApplied := 0
  started := false
  complete := false

/-- Say whether recorded history is being applied. -/
def setReplaying (x : Execution) (replaying : Bool) : Execution :=
  { x with context := { x.context with replaying } }

/-- The children as the instance sees them. -/
def children (x : Execution) : List Child :=
  x.context.children.entries

/-- A divergence at the event that was applied last. -/
def diverge (x : Execution) (divergence : Divergence) : Nondeterminism :=
  ⟨x.context.info.workflowId, x.eventsApplied - 1, divergence⟩

/-! ### Inputs -/

/-- What an event tells about a child, if it is about one. -/
def childNews? : Event → Option (Nat × ChildTransition)
  | .childStarted seq runId => some (seq, .started runId)
  | .childStartFailed seq cause => some (seq, .startFailed cause)
  | .childCompleted seq result => some (seq, .completed result)
  | .childFailed seq cause => some (seq, .failed cause)
  | .childCancelled seq reason => some (seq, .cancelled reason)
  | .childTimedOut seq => some (seq, .timedOut)
  | _ => none

/-- Apply an input to the context of a started execution: news of a child, the end of a timer, or
a request to cancel, of which the first counts. -/
def applyInput (ctx : Context) (event : Event) : Except Divergence Context :=
  match childNews? event with
  | some (seq, transition) =>
    match ctx.children.apply seq transition with
    | .error e => .error (.lifecycle e)
    | .ok (children, ended) =>
      let ctx := { ctx with children }
      match ended with
      | some (future, outcome) => .ok (ctx.resolve future outcome)
      | none => .ok ctx
  | none =>
    match event with
    | .timerFired seq =>
      match ctx.timers.lookup seq with
      | some future =>
        let ctx := { ctx with timers := ctx.timers.filter fun timer => timer.1 ≠ seq }
        .ok (ctx.resolve future (.ok ""))
      | none => .error (.unknownTimer seq)
    | .cancelRequested reason =>
      .ok { ctx with cancelReason := ctx.cancelReason.or (some reason) }
    | event => .error (.unexpected event)

/-! ### Threads -/

/-- How often threads can be polled before none can run. Every poll uses an entry of the run queue;
an entry comes from a thread that is already waiting there, from a spawned one, from a wake that is
due, from a statement that lets the other threads run, or from the end of a thread, which wakes each
of the others once at most. All of these are bounded by the weight of what is left to execute. -/
def pollBound (scheduler : Scheduler Thread) (ctx : Context) : Nat :=
  let live := scheduler.threads.foldr (fun thread total => thread.body.weight + total) 0
  let weight := ctx.spawned.foldr (fun thread total => thread.weight + total) live
  (weight + 3) * (weight + 3) + scheduler.runQueue.length + ctx.woken.length

/-- Let the threads run until none can. A panic of any thread becomes the result of the workflow. -/
def runThreads (x : Execution) : Execution :=
  match Scheduler.run Thread.workload (pollBound x.scheduler x.context) x.scheduler x.context with
  | (.panicked thread message, scheduler, context) =>
    let failure : Failure :=
      .application ("workflow thread " ++ toString thread ++ " panicked: " ++ message)
    { x with scheduler, context := { context with mainResult := some (.error failure) } }
  | (_, scheduler, context) => { x with scheduler, context }

/-! ### Closing -/

/-- Issue the commands that close the instance, once it can close. A returned value completes it.
After a request to cancel, the pending children are asked to cancel first and the instance closes
as cancelled when none is pending. Otherwise a failure fails it. -/
def settle (x : Execution) : Execution :=
  match x.context.mainResult with
  | some (.ok result) => { x with context := x.context.issue (.complete result), complete := true }
  | result =>
    match x.context.cancelReason with
    | some reason =>
      let (requests, children) := x.context.children.requestCancel
      let ctx := requests.foldl
        (fun ctx (seq, workflowId) => ctx.issue (.cancelChild seq workflowId))
        { x.context with children }
      if children.pending.isEmpty then
        { x with context := ctx.issue (.cancel reason), complete := true }
      else { x with context := ctx }
    | none =>
      match result with
      | some (.error failure) =>
        { x with context := x.context.issue (.fail failure), complete := true }
      | _ => x

/-- Take the commands issued since the last step; during replay they await their records. -/
def takeCommands (x : Execution) : List Command × Execution :=
  let commands := x.context.commands
  (commands,
    { x with
      context := { x.context with commands := [] }
      issued := x.issued ++ commands
      unconfirmed := if x.context.replaying then x.unconfirmed ++ commands else x.unconfirmed })

/-! ### Steps -/

/-- Hold a record against the oldest command that awaits one. That command is no longer awaited,
whether it matches or not. -/
def confirm (x : Execution) (record : Event) : Except Nondeterminism Unit × Execution :=
  match x.unconfirmed with
  | [] => (.error (x.diverge (.unmatchedRecord record)), x)
  | command :: unconfirmed =>
    let x := { x with unconfirmed }
    if command.matchesRecord record then (.ok (), x)
    else (.error (x.diverge (.differentRecord record command)), x)

/-- Apply an input that is no record to an open instance, without running threads yet. -/
def accept (x : Execution) (event : Event) : Except Nondeterminism Execution :=
  if x.started then
    match applyInput x.context event with
    | .ok context => .ok { x with context }
    | .error divergence => .error (x.diverge divergence)
  else
    match event with
    | .executionStarted _ _ input _ =>
      .ok { x with
        started := true
        scheduler := x.scheduler.spawn (x.program.mainThread x.context.converter input) }
    | event => .error (x.diverge (.beforeStart event))

/-- Apply one event. A record is held against the command that awaits it. An input must not come
while a command awaits its record; it does nothing to a closed instance, and a timeout closes it. -/
def step (x : Execution) (event : Event) : Except Nondeterminism StepOutcome × Execution :=
  let x := { x with eventsApplied := x.eventsApplied + 1 }
  if event.isRecord then
    match x.confirm event with
    | (.ok (), x) => (.ok ⟨[], x.complete⟩, x)
    | (.error e, x) => (.error e, x)
  else
    match x.unconfirmed with
    | command :: _ => (.error (x.diverge (.missingRecord command event)), x)
    | [] =>
      if event = .timedOut then (.ok ⟨[], true⟩, { x with complete := true })
      else if x.complete then (.ok ⟨[], true⟩, x)
      else
        match x.accept event with
        | .error e => (.error e, x)
        | .ok x =>
          let (commands, x) := x.runThreads.settle.takeCommands
          (.ok ⟨commands, x.complete⟩, x)

/-! ### Replay -/

/-- Leave replay. Every issued command has to have its record. -/
def finishReplay (x : Execution) : Except Nondeterminism Execution :=
  match x.unconfirmed with
  | command :: _ => .error (x.diverge (.neverRecorded command))
  | [] => .ok (x.setReplaying false)

/-- Apply events in order up to the first divergence. -/
def applyAll (x : Execution) : List Event → Option Nondeterminism × Execution
  | [] => (none, x)
  | event :: events =>
    match x.step event with
    | (.ok _, x) => applyAll x events
    | (.error e, x) => (some e, x)

/-- Apply a recorded history to a new instance and leave replay. The instance is given back even if
the history diverges, as far as it got. -/
def replayTraced (info : RunInfo) (program : Program) (converter : Converter)
    (history : List Event) : Option Nondeterminism × Execution :=
  let x := (Execution.new info program converter).setReplaying !history.isEmpty
  match x.applyAll history with
  | (some e, x) => (some e, x)
  | (none, x) =>
    match x.finishReplay with
    | .error e => (some e, x)
    | .ok x => (none, x)

/-- Rebuild an instance from its recorded history, ready to go on live. -/
def replay (info : RunInfo) (program : Program) (converter : Converter) (history : List Event) :
    Except Nondeterminism Execution :=
  match replayTraced info program converter history with
  | (some e, _) => .error e
  | (none, x) => .ok x

end Execution

end DurableWorkflow
