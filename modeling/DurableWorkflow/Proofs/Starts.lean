import DurableWorkflow.Proofs.Sources
import DurableWorkflow.Proofs.TaskRuns

/-!
# Where starts of children come from

Every start of a child that an execution issues was made through a stub that one of its threads
used: interface, queue, limit and detachment are those of the stub, and so is the name, if the stub
has one. A name that is left open is that of the parent with the number of the start.

## Main definitions

* `ChildStart.MadeThrough` — a start is that of a run through a stub.
* `Turn.stubs` — the stubs that a turn starts children through.
* `StartsMade` — the starts among commands were made through some stubs.

## Main results

* `Turn.starts_made` — a turn starts children through its stubs.
* `Course.starts_made` — so does an execution, whatever happens to it.
-/

namespace DurableWorkflow

/-- Whether a start is one that a run makes through a stub. -/
structure ChildStart.MadeThrough (start : ChildStart) (info : RunInfo) (stub : Stub) : Prop where
  /-- The child has the interface of the stub. -/
  workflowType : start.workflowType = stub.interface.name
  /-- It has the name that the stub gives, and else that of the run with its number. -/
  workflowId : start.workflowId
    = stub.options.workflowId.getD (info.workflowId ++ "::" ++ toString start.seq)
  /-- It has the queue that the stub gives, and else that of the run. -/
  taskQueue : start.taskQueue = stub.options.taskQueue.getD info.taskQueue
  /-- It may run as long as the stub says. -/
  timeoutMs : start.timeoutMs = stub.options.timeout.map Duration.millis
  /-- It is detached if the stub says so. -/
  detached : start.detached = stub.options.detached

/-- The stub that an operation starts a child through, if it does. -/
def Op.stub? : Op → Option Stub
  | .startChild stub _ _ => some stub
  | _ => none

/-- The stubs that a turn starts children through. -/
def Turn.stubs (turn : Turn Context Thread) : List Stub :=
  turn.ops.filterMap Op.stub?

/-- Whether the starts among some commands were made by a run through some stubs. -/
def StartsMade (info : RunInfo) (stubs : List Stub) (commands : List Command) : Prop :=
  ∀ start, .startChild start ∈ commands → ∃ stub ∈ stubs, start.MadeThrough info stub

namespace StartsMade

variable {info : RunInfo} {stubs more : List Stub} {commands later : List Command}

/-- Where nothing is started nothing is needed. -/
theorem of_none (h : ∀ command ∈ commands, command.introduces? = none) :
    StartsMade info stubs commands :=
  fun _ hstart => absurd (h _ hstart) nofun

/-- More may be started through more stubs. -/
theorem append (h : StartsMade info stubs commands) (h' : StartsMade info more later) :
    StartsMade info (stubs ++ more) (commands ++ later) := by
  intro start hstart
  rcases List.mem_append.mp hstart with hstart | hstart
  · obtain ⟨stub, hstub, hmade⟩ := h start hstart
    exact ⟨stub, List.mem_append_left _ hstub, hmade⟩
  · obtain ⟨stub, hstub, hmade⟩ := h' start hstart
    exact ⟨stub, List.mem_append_right _ hstub, hmade⟩

end StartsMade

/-! ### Turns -/

/-- An operation starts a child through its stub, if it does. -/
theorem Op.starts_made (op : Op) (ctx : Context) :
    (op.run ctx).info = ctx.info ∧ ∃ issued, (op.run ctx).commands = ctx.commands ++ issued
      ∧ StartsMade ctx.info op.stub?.toList issued := by
  have quiet {ctx' : Context} (hinfo : ctx'.info = ctx.info)
      (hcommands : ctx'.commands = ctx.commands) : ctx'.info = ctx.info
      ∧ ∃ issued, ctx'.commands = ctx.commands ++ issued
      ∧ StartsMade ctx.info op.stub?.toList issued :=
    ⟨hinfo, [], hcommands.trans (List.append_nil _).symm, nofun⟩
  cases op with
  | startTimer delay => exact ⟨rfl, [_], rfl, fun start hstart => by simp at hstart⟩
  | startChild stub method input =>
      refine ⟨rfl, [_], rfl, fun start hstart => ⟨stub, List.mem_singleton_self _, ?_⟩⟩
      cases List.mem_singleton.mp hstart
      exact ⟨rfl, rfl, rfl, rfl, rfl⟩
  | failedFuture failure =>
      obtain ⟨_, _, heq⟩ := ctx.failedFuture_eq failure
      rw [run, heq]
      exact quiet rfl rfl
  | wake waker =>
      obtain ⟨_, heq⟩ := ctx.wake_eq waker
      rw [run, heq]
      exact quiet rfl rfl
  | abandon future =>
      rw [run, Context.abandon]
      split <;> exact quiet rfl rfl
  | poll | note | spawn => exact quiet rfl rfl

/-- So do several. -/
theorem Op.starts_made_foldl (ops : List Op) (ctx : Context) :
    (ops.foldl run ctx).info = ctx.info
      ∧ ∃ issued, (ops.foldl run ctx).commands = ctx.commands ++ issued
        ∧ StartsMade ctx.info (ops.filterMap stub?) issued := by
  induction ops generalizing ctx with
  | nil => exact ⟨rfl, [], (List.append_nil _).symm, nofun⟩
  | cons op ops ih =>
      obtain ⟨hinfo, first, hfirst, hmade⟩ := op.starts_made ctx
      obtain ⟨hinfo', rest, hrest, hmade'⟩ := ih (op.run ctx)
      have hstubs : (op :: ops).filterMap stub? = op.stub?.toList ++ ops.filterMap stub? := by
        rw [List.filterMap_cons]
        cases op.stub? <;> rfl
      refine ⟨hinfo'.trans hinfo, first ++ rest, ?_, ?_⟩
      · rw [List.foldl_cons, hrest, hfirst, List.append_assoc]
      · rw [hstubs]
        exact hmade.append (hinfo ▸ hmade')

/-- **A turn starts children through its stubs.** -/
theorem Turn.starts_made (turn : Turn Context Thread) :
    (turn.result Thread.workload).2.info = turn.state.info
      ∧ ∃ issued, (turn.result Thread.workload).2.commands = turn.state.commands ++ issued
        ∧ StartsMade turn.state.info turn.stubs issued := by
  have hops := Op.starts_made_foldl turn.ops turn.state
  rcases turn.result_eq with heq | ⟨outcome, heq⟩ <;> rw [heq]
  · exact hops
  · obtain ⟨_, _, _, hend⟩ :=
      (turn.ops.foldl Op.run turn.state).conclude_eq turn.body.role outcome
    rw [hend]
    exact hops

/-! ### Executions -/

/-- A scheduling pass starts children through the stubs of its turns. -/
theorem Scheduler.starts_preserves (info : RunInfo) (issued : List Command) :
    Thread.workload.Preserves fun log _ ctx => ctx.info = info
      ∧ StartsMade info (log.flatMap Turn.stubs) (issued ++ ctx.commands) := by
  have hturn {log : List (Turn Context Thread)} (turn : Turn Context Thread)
      (h : turn.state.info = info
        ∧ StartsMade info (log.flatMap Turn.stubs) (issued ++ turn.state.commands)) :
      (turn.result Thread.workload).2.info = info
        ∧ StartsMade info ((log ++ [turn]).flatMap Turn.stubs)
          (issued ++ (turn.result Thread.workload).2.commands) := by
    obtain ⟨hinfo, hmade⟩ := h
    obtain ⟨hinfo', new, hnew, hmade'⟩ := turn.starts_made
    refine ⟨hinfo'.trans hinfo, ?_⟩
    rw [hnew, ← List.append_assoc, List.flatMap_append, List.flatMap_singleton]
    exact hmade.append (hinfo ▸ hmade')
  exact {
    gather := fun h => h
    skip := fun h _ _ => h
    ended := fun {log s ctx id queue thread} h _ _ _ => hturn ⟨id, thread.body, ctx⟩ h
    pending := fun {log s ctx id queue thread body} h _ _ _ => hturn ⟨id, thread.body, ctx⟩ h }

namespace Execution

variable {x : Execution} {info : RunInfo} {turns : List (Turn Context Thread)}

/-- Letting the threads run starts children through the stubs of their turns. -/
theorem starts_made_runThreads (hinfo : x.context.info = info)
    (h : StartsMade info (turns.flatMap Turn.stubs) (x.issued ++ x.context.commands)) :
    StartsMade info ((turns ++ x.passTurns).flatMap Turn.stubs)
      (x.issued ++ x.runThreads.context.commands) := by
  obtain ⟨-, hpass⟩ := (Scheduler.starts_preserves info x.issued).run
    (pollBound x.scheduler x.context) (s := x.scheduler) ⟨hinfo, h⟩
  rcases x.runThreads_inv with ⟨-, failure, hrun⟩ | ⟨-, hrun⟩ <;> rw [hrun] <;> exact hpass

/-- **Every event starts children through the stubs of its turns.** -/
theorem starts_made_step (taken : x.context.commands = []) (hinfo : x.context.info = info)
    (h : StartsMade info (turns.flatMap Turn.stubs) x.issued) (event : Event) :
    (x.step event).2.context.info = info
      ∧ StartsMade info ((turns ++ x.turns event).flatMap Turn.stubs) (x.step event).2.issued := by
  rcases x.admitted?_inv event with ⟨hadmitted, _, _, hstep, -, -⟩
    | ⟨x', hadmitted, haccept, -, hstep⟩ <;> rw [hstep, Execution.turns, hadmitted]
  · rw [List.append_nil]
    exact ⟨hinfo, h⟩
  · obtain ⟨hissued, -, hcommands, -⟩ := accept_issued haccept
    have hnothing : x'.context.commands = [] := hcommands.trans taken
    have hinfo' : x'.context.info = info := by
      rcases accept_inv haccept with ⟨-, context, happly, rfl⟩ | ⟨-, _, _, _, _, -, rfl⟩
      · obtain ⟨_, _, _, _, _, rfl⟩ := applyInput_eq happly
        exact hinfo
      · exact hinfo
    have hsame : x'.issued ++ x'.context.commands = x.issued := by
      rw [hnothing, List.append_nil, hissued]
      rfl
    have hrun := starts_made_runThreads hinfo' (hsame.symm ▸ h)
    obtain ⟨extra, hextra, hnone, -⟩ := x'.runThreads.settle_commands
    refine ⟨?_, ?_⟩
    · obtain ⟨_, _, _, hsettle⟩ := x'.runThreads.settle_eq
      rw [hsettle]
      exact x'.runThreads_moves.fixed.1.trans hinfo'
    · rw [issued_takeCommands, hextra, ← List.append_assoc]
      have hextra' : StartsMade info [] extra := .of_none hnone
      have hall := hrun.append hextra'
      rwa [List.append_nil] at hall

end Execution

/-- **After every course all starts were made through stubs that turns used.** -/
theorem Course.starts_made {info : RunInfo} {program : Program} {converter : Converter}
    {x : Execution} {events : List Event} {turns : List (Turn Context Thread)}
    (course : Course info program converter x events turns) :
    x.context.info = info ∧ StartsMade info (turns.flatMap Turn.stubs) x.issued := by
  induction course with
  | new => exact ⟨rfl, nofun⟩
  | mode replaying _ ih => exact ih
  | step event course ih => exact Execution.starts_made_step course.booked.taken ih.1 ih.2 event

end DurableWorkflow
