import DurableWorkflow.Simulation.Traffic
import DurableWorkflow.Worker

/-!
# Simulations

Workers and a backend on one clock. Time passes only when nothing is left to do: workflow code takes
no time, and workers wait only between tasks and between attempts to hand a result in. Whatever
workers have to do at one moment is done before the clock moves on and before anyone who waits for a
workflow hears of it.

## Main definitions

* `Runner` — a worker that is running.
* `Simulation` — the running workers, the backend with its observer, and what workflows noted.
* `Simulation.turn` — one worker goes on.
* `Simulation.runUntil` — workers go on until the clock has reached a time or the backend a state.
* `Simulation.startWorker`, `Simulation.stopWorker`.
-/

namespace DurableWorkflow

/-- A worker that is running. -/
structure Runner where
  /-- The worker. -/
  worker : Worker
  /-- When it goes on. -/
  wakeAt : Nat
  /-- What it has to do first: the settlement of its task as far as that is not carried out. -/
  unsettled : Settlement

/-- Workers and a backend on one clock. -/
structure Simulation where
  /-- The running workers, in the order of their start. -/
  runners : List Runner
  /-- The backend with its clock and its observer. -/
  traffic : Traffic
  /-- What workflow code noted, on all workers. -/
  notes : List Note

namespace Simulation

/-- A simulation without workers, with disturbances planned for the calls of those to come. -/
def new (plan : Disturbances) : Simulation :=
  ⟨[], ⟨.empty, plan, []⟩, []⟩

/-- The backend with its clock. -/
def clock (s : Simulation) : ClockedBackend :=
  s.traffic.clock

/-- Put another state of the backend and its clock in place of the present one. -/
def withClock (s : Simulation) (clock : ClockedBackend) : Simulation :=
  { s with traffic := { s.traffic with clock } }

/-- The time. -/
def now (s : Simulation) : Nat :=
  s.clock.now

/-! ### Workers -/

/-- A worker starts, and goes on at once. -/
def startWorker (s : Simulation) (worker : Worker) : Simulation :=
  { s with runners := s.runners ++ [⟨worker, s.now, .finished (.ok ())⟩] }

/-- The worker of a queue that started first stops, wherever it is; its task stays outstanding.
There may be no such worker. -/
def stopWorker (s : Simulation) (taskQueue : String) : Option Simulation :=
  match s.runners.findIdx? fun runner => runner.worker.taskQueue = taskQueue with
  | some i => some { s with runners := s.runners.eraseIdx i }
  | none => none

/-- A worker goes on: it settles its task, and once that is done it takes another one and works on
it. If it gets none it sleeps. -/
def turn (s : Simulation) (i : Nat) (runner : Runner) : Simulation :=
  match s.traffic.carryOut runner.unsettled with
  | (some (ms, unsettled), traffic) =>
    let runner := { runner with wakeAt := s.now + ms, unsettled }
    { s with traffic, runners := s.runners.set i runner }
  | (none, traffic) =>
    match traffic.dispatch runner.worker.taskQueue with
    | (.ok (some task), traffic) =>
      let (unsettled, notes) := runner.worker.process task
      { runners := s.runners.set i { runner with unsettled }, traffic, notes := s.notes ++ notes }
    | (_, traffic) =>
      let wakeAt := s.now + runner.worker.options.idleMs
      let runner := { runner with wakeAt, unsettled := .finished (.ok ()) }
      { s with traffic, runners := s.runners.set i runner }

/-- The first worker that has something to do now. -/
def due? (s : Simulation) : Option (Nat × Runner) :=
  let i := s.runners.findIdx fun runner => runner.wakeAt ≤ s.now
  s.runners[i]?.map fun runner => (i, runner)

/-- When the next worker goes on, or a given time if that is earlier. -/
def nextWake (s : Simulation) (time : Nat) : Nat :=
  s.runners.foldl (fun earliest runner => min earliest runner.wakeAt) time

/-! ### The clock -/

/-- Let time pass until the backend has what is waited for, at most to a time, and let workers take
so many turns at most. Workflows can start new ones without end, so no number of turns is enough for
all of them. -/
def runUntil (reached : Backend → Bool) (time : Nat) : Nat → Simulation → Simulation
  | 0, s => s
  | turns + 1, s =>
    match s.due? with
    | some (i, runner) => runUntil reached time turns (s.turn i runner)
    | none =>
      let c := s.clock
      if reached c.backend then s
      else
        let s := s.withClock (c.ringUntil reached (s.nextWake time))
        if s.now < time ∨ s.due?.isSome then runUntil reached time turns s else s

/-- Let time pass up to a time. -/
def advanceTo (s : Simulation) (time turns : Nat) : Simulation :=
  runUntil (fun _ => false) time turns s

/-- Finish what is to be done now. -/
def settle (s : Simulation) (turns : Nat) : Simulation :=
  s.advanceTo s.now turns

/-- Let time pass until a workflow has closed, at most to a deadline. -/
def waitFor (s : Simulation) (workflowId : String) (deadline turns : Nat) : Simulation :=
  runUntil (ClockedBackend.hasClosed workflowId) deadline turns s

/-! ### What was seen -/

/-- The calls and notes since this was last asked. -/
def takeRecords (s : Simulation) : List (Nat × Call) × List Note × Simulation :=
  (s.traffic.calls, s.notes, { s with notes := [], traffic := { s.traffic with calls := [] } })

end Simulation

end DurableWorkflow
