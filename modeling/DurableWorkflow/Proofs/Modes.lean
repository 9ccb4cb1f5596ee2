import DurableWorkflow.Proofs.ReplayBlind

/-!
# Replay and live execution

A replay-blind program behaves the same whether it is replayed or not, so an execution in replay
and a live one that got the same inputs differ in their notes, their count of events and the
commands that still await their records only.

## Main definitions

* `Execution.recast` — an execution in another mode.
* `Execution.Live`, `Execution.IsBlind` — what live executions of replay-blind programs keep.

## Main results

* `Execution.step_recast` — an event does the same in both modes.
* `Execution.step_record` — replay holds a record against the oldest command that awaits one.
-/

namespace DurableWorkflow

/-- Two states of a context that differ in mode and notes are related by all that replay-blind
threads do. -/
theorem Thread.workload_relates (replaying : Bool) :
    Thread.workload.Relates (fun thread => thread.isReplayBlind = true)
      fun a b => (∀ thread ∈ a.spawned, thread.isReplayBlind)
        ∧ ∃ notes, b = a.under replaying notes where
  adopt := by
    rintro a _ ⟨hspawned, notes, rfl⟩
    exact ⟨rfl, hspawned, by simp [workload], notes, rfl⟩
  wakes := by
    rintro a _ ⟨hspawned, notes, rfl⟩
    exact ⟨rfl, hspawned, notes, rfl⟩
  poll := by
    rintro a _ id thread blind ⟨hspawned, notes, rfl⟩
    obtain ⟨notes', h⟩ := thread.poll_under id a blind replaying notes
    obtain ⟨hspawned', hrest⟩ := thread.poll_blind id a blind hspawned
    refine ⟨?_, hrest, hspawned', notes', ?_⟩
    · exact (congrArg Prod.fst h).symm
    · exact congrArg Prod.snd h

/-- The thread that a replay-blind program starts with is replay-blind. -/
theorem Program.mainThread_blind {program : Program} (blind : program.isReplayBlind)
    (converter : Converter) (input : String) :
    (program.mainThread converter input).isReplayBlind := by
  rw [mainThread]
  split
  · exact blind
  · split
    · exact blind
    · rfl

namespace Execution

/-- An execution in a given mode, with given notes, count of events and unconfirmed commands,
otherwise unchanged. -/
def recast (x : Execution) (replaying : Bool) (notes : List Note) (eventsApplied : Nat)
    (unconfirmed : List Command) : Execution :=
  { x with context := x.context.under replaying notes, eventsApplied, unconfirmed }

/-- Whether an execution is live: it is not being replayed and no command awaits its record. -/
structure Live (x : Execution) : Prop where
  /-- It is not being replayed. -/
  replaying : x.context.replaying = false
  /-- No command awaits its record. -/
  unconfirmed : x.unconfirmed = []

/-- Whether all code of an execution is replay-blind. -/
structure IsBlind (x : Execution) : Prop where
  /-- Its program is. -/
  program : x.program.isReplayBlind
  /-- Its threads are. -/
  threads : x.scheduler.AllBodies fun thread => thread.isReplayBlind = true
  /-- The threads that will be adopted are. -/
  spawned : ∀ thread ∈ x.context.spawned, thread.isReplayBlind

variable {x : Execution} {replaying : Bool} {notes : List Note} {count : Nat}
  {unconfirmed : List Command}

/-! ### The parts of a step -/

/-- An input changes the context in the same way in both modes. -/
theorem applyInput_under (ctx : Context) (event : Event) (replaying : Bool) (notes : List Note) :
    applyInput (ctx.under replaying notes) event
      = (applyInput ctx event).map fun ctx => ctx.under replaying notes :=
  applyInput_overlay ctx ⟨fun _ => replaying, fun _ => notes, id⟩ event

/-- An input is accepted in both modes or in neither; a divergence is found at its own place. -/
theorem accept_recast (x : Execution) (event : Event) (replaying : Bool) (notes : List Note)
    (count : Nat) (unconfirmed : List Command) :
    (x.recast replaying notes count unconfirmed).accept event
      = match x.accept event with
        | .ok x' => .ok (x'.recast replaying notes count unconfirmed)
        | .error e => .error { e with eventIndex := count - 1 } := by
  have hstarted : (x.recast replaying notes count unconfirmed).started = x.started := rfl
  have hctx : (x.recast replaying notes count unconfirmed).context
      = x.context.under replaying notes := rfl
  simp only [accept, hstarted, hctx, applyInput_under]
  split
  · cases applyInput x.context event <;> rfl
  · cases event <;> rfl

/-- The threads run in the same way in both modes. -/
theorem runThreads_recast (blind : x.IsBlind) (replaying : Bool) (notes : List Note) (count : Nat)
    (unconfirmed : List Command) :
    x.runThreads.IsBlind ∧ ∃ notes', (x.recast replaying notes count unconfirmed).runThreads
      = x.runThreads.recast replaying notes' count unconfirmed := by
  have hrun := Scheduler.run_related (Thread.workload_relates replaying)
    (pollBound x.scheduler x.context) blind.threads
    ⟨blind.spawned, notes, (rfl : x.context.under replaying notes = _)⟩
  obtain ⟨hpass, hscheduler, hthreads, hspawned, notes', hctx⟩ := hrun
  have hbound : pollBound (x.recast replaying notes count unconfirmed).scheduler
      (x.recast replaying notes count unconfirmed).context = pollBound x.scheduler x.context := rfl
  simp only [runThreads, hbound]
  simp only [recast]
  rcases hlive : Scheduler.run Thread.workload (pollBound x.scheduler x.context) x.scheduler
    x.context with ⟨pass, scheduler, ctx⟩
  rcases hreplay : Scheduler.run Thread.workload (pollBound x.scheduler x.context) x.scheduler
    (x.context.under replaying notes) with ⟨pass', scheduler', ctx'⟩
  rw [hlive, hreplay] at hpass hscheduler hctx
  rw [hlive] at hthreads hspawned
  dsimp only at hpass hscheduler hctx hthreads hspawned
  subst hpass hscheduler hctx
  cases pass <;> exact ⟨⟨blind.program, hthreads, hspawned⟩, notes', rfl⟩

/-- An execution closes in the same way in both modes. -/
theorem settle_recast (x : Execution) (replaying : Bool) (notes : List Note) (count : Nat)
    (unconfirmed : List Command) :
    (x.recast replaying notes count unconfirmed).settle
      = x.settle.recast replaying notes count unconfirmed := by
  simp only [settle, foldl_issue_cancel, recast, Context.under]
  split
  · rfl
  · split
    · cases x.context.children.requestCancel.2.pending.isEmpty <;> rfl
    · split <;> rfl

/-! ### Steps -/

/-- An execution that has counted one more event. -/
def counted (x : Execution) : Execution :=
  { x with eventsApplied := x.eventsApplied + 1 }

/-- What an input does while no command awaits its record. -/
theorem step_input {event : Event} (h : x.unconfirmed = []) (input : event.isRecord = false) :
    x.step event
      = if event = .timedOut then (.ok ⟨[], true⟩, { x.counted with complete := true })
        else if x.complete then (.ok ⟨[], true⟩, x.counted)
        else
          match x.counted.accept event with
          | .error e => (.error e, x.counted)
          | .ok x =>
            (.ok ⟨x.runThreads.settle.context.commands, x.runThreads.settle.complete⟩,
              x.runThreads.settle.takeCommands.2) := by
  obtain ⟨program, context, scheduler, unconfirmed, issued, eventsApplied, started, complete⟩ := x
  subst h
  simp only [step, input, Bool.false_eq_true, ite_false]
  rfl

/-- A record that no command awaits is a divergence. -/
theorem step_unmatched {event : Event} (h : x.unconfirmed = []) (record : event.isRecord = true) :
    x.step event = (.error (x.counted.diverge (.unmatchedRecord event)), x.counted) := by
  obtain ⟨program, context, scheduler, unconfirmed, issued, eventsApplied, started, complete⟩ := x
  subst h
  simp only [step, record, ite_true, confirm]
  rfl

/-- An input must not come while a command awaits its record. -/
theorem step_missing {event : Event} {command : Command} {unconfirmed : List Command}
    (h : x.unconfirmed = command :: unconfirmed) (input : event.isRecord = false) :
    x.step event = (.error (x.counted.diverge (.missingRecord command event)), x.counted) := by
  simp only [step, input, Bool.false_eq_true, ite_false, h]
  rw [← h]
  rfl

/-- A record is held against the oldest command that awaits one, which then no longer does. -/
theorem step_held {event : Event} {command : Command} {unconfirmed : List Command}
    (h : x.unconfirmed = command :: unconfirmed) (record : event.isRecord = true) :
    x.step event
      = (if command.matchesRecord event then .ok ⟨[], x.complete⟩
          else .error (x.counted.diverge (.differentRecord event command)),
        { x.counted with unconfirmed }) := by
  simp only [step, record, ite_true, confirm, h]
  cases command.matchesRecord event <;> rfl

/-- Counting an event keeps an execution live. -/
theorem Live.counted (live : x.Live) : x.counted.Live :=
  ⟨live.replaying, live.unconfirmed⟩

/-- Counting an event brings no code into an execution. -/
theorem IsBlind.counted (blind : x.IsBlind) : x.counted.IsBlind :=
  ⟨blind.program, blind.threads, blind.spawned⟩

/-- Both modes take the same commands; in replay these await their records. -/
theorem takeCommands_recast (x : Execution) (replaying : Bool) (notes : List Note) (count : Nat) :
    (x.recast replaying notes count []).takeCommands.2
      = x.takeCommands.2.recast replaying notes count
          (if replaying then x.context.commands else []) := by
  cases replaying <;> rfl

/-- Letting the threads run and settling keep an execution live. -/
theorem Live.runThreads (live : x.Live) : x.runThreads.Live := by
  obtain ⟨scheduler, context, h⟩ := x.runThreads_eq
  refine ⟨x.runThreads_moves.fixed.2.2.1.trans live.replaying, ?_⟩
  rw [h]
  exact live.unconfirmed

/-- Settling keeps an execution live. -/
theorem Live.settle (live : x.Live) : x.settle.Live := by
  obtain ⟨commands, children, complete, h⟩ := x.settle_eq
  rw [h]
  exact ⟨live.replaying, live.unconfirmed⟩

/-- Taking the commands keeps an execution live. -/
theorem Live.takeCommands (live : x.Live) : x.takeCommands.2.Live := by
  refine ⟨live.replaying, ?_⟩
  simp only [Execution.takeCommands, live.replaying, Bool.false_eq_true, ite_false]
  exact live.unconfirmed

/-- An accepted input keeps an execution live. -/
theorem Live.accept (live : x.Live) {x' : Execution} {event : Event}
    (h : x.accept event = .ok x') : x'.Live := by
  rcases accept_inv h with ⟨-, context, happly, rfl⟩ | ⟨-, _, _, _, _, -, rfl⟩
  · obtain ⟨_, _, _, _, _, rfl⟩ := applyInput_eq happly
    exact ⟨live.replaying, live.unconfirmed⟩
  · exact ⟨live.replaying, live.unconfirmed⟩

/-- An accepted input brings no code into an execution that is not replay-blind. -/
theorem IsBlind.accept (blind : x.IsBlind) {x' : Execution} {event : Event}
    (h : x.accept event = .ok x') : x'.IsBlind := by
  rcases accept_inv h with ⟨-, context, happly, rfl⟩ | ⟨-, _, _, _, _, -, rfl⟩
  · obtain ⟨_, _, _, _, _, rfl⟩ := applyInput_eq happly
    exact ⟨blind.program, blind.threads, blind.spawned⟩
  · exact ⟨blind.program,
      blind.threads.spawn (Program.mainThread_blind blind.program _ _), blind.spawned⟩

/-- Letting the threads run brings no code into an execution that is not replay-blind. -/
theorem IsBlind.runThreads (blind : x.IsBlind) : x.runThreads.IsBlind :=
  (runThreads_recast blind false [] 0 []).1

/-- Settling brings no code into an execution. -/
theorem IsBlind.settle (blind : x.IsBlind) : x.settle.IsBlind := by
  obtain ⟨commands, children, complete, h⟩ := x.settle_eq
  rw [h]
  exact ⟨blind.program, blind.threads, blind.spawned⟩

/-- An event keeps an execution live. -/
theorem Live.step (live : x.Live) (event : Event) : (x.step event).2.Live := by
  have counted := live.counted
  by_cases hrecord : event.isRecord = true
  · rw [step_unmatched live.unconfirmed hrecord]
    exact counted
  · rw [step_input live.unconfirmed (by simpa using hrecord)]
    split
    · exact ⟨counted.replaying, counted.unconfirmed⟩
    · split
      · exact counted
      · split
        · exact counted
        · rename_i haccept
          exact (counted.accept haccept).runThreads.settle.takeCommands

/-- An event brings no code into an execution that is not replay-blind. -/
theorem IsBlind.step (blind : x.IsBlind) (live : x.Live) (event : Event) :
    (x.step event).2.IsBlind := by
  have counted := blind.counted
  by_cases hrecord : event.isRecord = true
  · rw [step_unmatched live.unconfirmed hrecord]
    exact counted
  · rw [step_input live.unconfirmed (by simpa using hrecord)]
    split
    · exact ⟨counted.program, counted.threads, counted.spawned⟩
    · split
      · exact counted
      · split
        · exact counted
        · rename_i haccept
          have h := (counted.accept haccept).runThreads.settle
          exact ⟨h.program, h.threads, h.spawned⟩

/-- **An event does the same in both modes** as long as no command awaits its record, except that
replay holds the commands back; a divergence is found at its own place. -/
theorem step_recast (live : x.Live) (blind : x.IsBlind) (event : Event) (replaying : Bool)
    (notes : List Note) (count : Nat) :
    ∃ notes', (x.recast replaying notes count []).step event
      = match x.step event with
        | (.ok outcome, x') => (.ok outcome, x'.recast replaying notes' (count + 1)
            (if replaying then outcome.commands else []))
        | (.error e, x') => (.error { e with eventIndex := count },
            x'.recast replaying notes' (count + 1) []) := by
  have hcounted : (x.recast replaying notes count []).counted
      = x.counted.recast replaying notes (count + 1) [] := rfl
  have hcomplete : (x.recast replaying notes count []).complete = x.complete := rfl
  have hnone : (x.recast replaying notes count []).unconfirmed = [] := rfl
  by_cases hrecord : event.isRecord = true
  · rw [step_unmatched hnone hrecord, step_unmatched live.unconfirmed hrecord]
    exact ⟨notes, rfl⟩
  · have input : event.isRecord = false := by simpa using hrecord
    rw [step_input hnone input, step_input live.unconfirmed input, hcounted, hcomplete,
      accept_recast]
    by_cases htime : event = .timedOut
    · simp only [htime, ite_true]
      exact ⟨notes, by cases replaying <;> rfl⟩
    · simp only [htime, ite_false]
      by_cases hclosed : x.complete = true
      · simp only [hclosed, ite_true]
        exact ⟨notes, by cases replaying <;> rfl⟩
      · simp only [hclosed]
        rcases haccept : x.counted.accept event with e | y
        · exact ⟨notes, rfl⟩
        · obtain ⟨-, notes', hrun⟩ := runThreads_recast (blind.counted.accept haccept) replaying
            notes (count + 1) []
          refine ⟨notes', ?_⟩
          simp only [hrun, settle_recast, takeCommands_recast]
          rfl

/-- A record that matches the oldest command awaiting one confirms it. -/
theorem step_record (x : Execution) (replaying : Bool) (notes : List Note) (count : Nat)
    (command : Command) (unconfirmed : List Command) (event : Event)
    (hrecord : event.isRecord = true) :
    (x.recast replaying notes count (command :: unconfirmed)).step event
      = (if command.record = event then .ok ⟨[], x.complete⟩
          else .error ⟨x.context.info.workflowId, count, .differentRecord event command⟩,
        x.recast replaying notes (count + 1) unconfirmed) := by
  simp only [step, hrecord, ite_true, confirm, recast, Command.matchesRecord, beq_iff_eq]
  by_cases h : command.record = event
  · simp only [h, ite_true]
  · simp only [h, ite_false]
    rfl

/-- A new execution is live. -/
theorem live_new (info : RunInfo) (program : Program) (converter : Converter) :
    (new info program converter).Live :=
  ⟨rfl, rfl⟩

/-- A new execution of a replay-blind program has replay-blind code only. -/
theorem isBlind_new {program : Program} (blind : program.isReplayBlind) (info : RunInfo)
    (converter : Converter) : (new info program converter).IsBlind :=
  ⟨blind, Scheduler.allBodies_empty, by simp [new, Context.new]⟩

end Execution

end DurableWorkflow
