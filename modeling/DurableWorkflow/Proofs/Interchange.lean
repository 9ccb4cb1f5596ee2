import DurableWorkflow.Proofs.PollBounds
import DurableWorkflow.Proofs.Replay
import DurableWorkflow.Proofs.UnfoldedCalls

/-!
# Direct and asynchronous calls

Whether a program calls methods directly or unfolds some of the calls makes no difference to its
host. Two executions, one of the program with the direct calls and one of the other, answer every
event alike, whatever events came before and whether they were accepted or not.

So each of the two replays the histories that the other does. A history that one of them recorded
can be replayed by both, unless the program asks whether it is being replayed: then it may do in
replay what it did not do before, with direct calls or without.

## Main definitions

* `Program.Unfolds` — a program with some of its direct calls unfolded.
* `Execution.Unfolds` — executions that belong together.

## Main results

* `Execution.Unfolds.step` — an event is answered alike and leaves executions that belong together.
* `Program.Unfolds.interchangeable` — direct and unfolded calls cannot be told apart.
-/

namespace DurableWorkflow

/-- A program with some of its direct calls unfolded, at any depth. The variable for its input is
not among those that hold the futures of unfolded calls. -/
structure Program.Unfolds (hidden : List String) (program program' : Program) : Prop where
  /-- Both take input of the same type. -/
  input : program'.input = program.input
  /-- The input is not hidden. -/
  visible : "input" ∉ hidden
  /-- They differ in unfolded calls. -/
  steps : Statement.Unfolds hidden program.steps program'.steps

variable {hidden : List String}

/-- The threads that two programs start with belong together if the programs do. -/
theorem Program.Unfolds.mainThread {program program' : Program}
    (h : program.Unfolds hidden program') (converter : Converter) (input : String) :
    (program.mainThread converter input).Unfolds hidden (program'.mainThread converter input) := by
  have hstart (typed : Bool) (text : String) :
      Thread.Unfolds hidden ⟨.main typed, [("input", .text text)], none, program.steps⟩
        ⟨.main typed, [("input", .text text)], none, program'.steps⟩ := by
    refine ⟨rfl, ?_, ?_, rfl, by rintro _ _ ⟨⟩, h.steps⟩
    · simp [Variables.shown, h.visible]
    · intro entry hentry hhidden
      cases List.mem_singleton.mp hentry
      exact absurd hhidden h.visible
  rw [Program.mainThread, Program.mainThread, h.input]
  split
  · exact hstart false input
  · split
    · exact hstart true _
    · refine ⟨rfl, rfl, ?_, rfl, by rintro _ _ ⟨⟩, ?_⟩
      · exact List.forall_mem_nil _
      · exact .perform (List.disjoint_nil_left hidden) (List.disjoint_nil_left hidden) .nil

namespace Execution

/-- Executions of a program with direct calls and of the same with some of them unfolded. -/
structure Unfolds (hidden : List String) (x x' : Execution) : Prop where
  /-- Their programs belong together. -/
  program : x.program.Unfolds hidden x'.program
  /-- Their contexts differ in the spawned threads only. -/
  context : x.context.Unfolds hidden x'.context
  /-- Their live threads belong together one by one. -/
  threads : ∃ s : Scheduler (Thread × Thread),
    s.AllBodies (fun pair => pair.1.Unfolds hidden pair.2)
    ∧ x.scheduler = s.map Prod.fst ∧ x'.scheduler = s.map Prod.snd
  /-- All threads that can run wait in the run queues. -/
  orderly : x.scheduler.Orderly ∧ x'.scheduler.Orderly
  /-- All else is the same. -/
  rest : x' = { x with program := x'.program, context := x'.context, scheduler := x'.scheduler }

/-- New executions of programs that belong together. -/
theorem unfolds_new {program program' : Program} (h : program.Unfolds hidden program')
    (info : RunInfo) (converter : Converter) :
    (new info program converter).Unfolds hidden (new info program' converter) where
  program := h
  context := ⟨[], List.forall_mem_nil _, rfl, rfl⟩
  threads := ⟨.empty, Scheduler.allBodies_empty, rfl, rfl⟩
  orderly := ⟨Scheduler.orderly_empty, Scheduler.orderly_empty⟩
  rest := rfl

namespace Unfolds

variable {x x' : Execution}

/-- Executions stay together when programs, contexts and threads are left as they are and all else
changes alike. -/
theorem of_rest (h : x.Unfolds hidden x') {y y' : Execution}
    (hsame : y.program = x.program ∧ y.context = x.context ∧ y.scheduler = x.scheduler)
    (hrest : y' = { y with
      program := x'.program
      context := x'.context
      scheduler := x'.scheduler }) :
    y.Unfolds hidden y' := by
  obtain ⟨hprogram, hcontext, hscheduler⟩ := hsame
  subst hrest
  refine ⟨?_, ?_, ?_, ⟨?_, h.orderly.2⟩, rfl⟩
  · rw [hprogram]
    exact h.program
  · rw [hcontext]
    exact h.context
  · rw [hscheduler]
    exact h.threads
  · rw [hscheduler]
    exact h.orderly.1

/-- They stay together when both modes are set alike. -/
theorem setReplaying (h : x.Unfolds hidden x') (replaying : Bool) :
    (x.setReplaying replaying).Unfolds hidden (x'.setReplaying replaying) where
  program := h.program
  context := by
    obtain ⟨pairs, hpairs, hspawned, hctx⟩ := h.context
    refine ⟨pairs, hpairs, hspawned, ?_⟩
    rw [Execution.setReplaying, hctx]
    rfl
  threads := h.threads
  orderly := h.orderly
  rest := by
    rw [h.rest]
    rfl

/-- Both find the same divergence at the same place. -/
theorem diverge (h : x.Unfolds hidden x') (divergence : Divergence) :
    x'.diverge divergence = x.diverge divergence := by
  have hinfo : x'.context.info = x.context.info := by
    rw [h.context.eq_overlay]
    rfl
  have hcount : x'.eventsApplied = x.eventsApplied := by rw [h.rest]
  rw [Execution.diverge, Execution.diverge, hinfo, hcount]

/-! ### The parts of a step -/

/-- An input is accepted by both or by neither. -/
theorem accept (h : x.Unfolds hidden x') (event : Event) :
    (∃ e, x.accept event = .error e ∧ x'.accept event = .error e)
      ∨ ∃ y y', x.accept event = .ok y ∧ x'.accept event = .ok y' ∧ y.Unfolds hidden y' := by
  have hstarted : x'.started = x.started := by rw [h.rest]
  simp only [Execution.accept, hstarted]
  cases x.started with
  | true =>
      have happly := applyInput_overlay x.context (.spawning x'.context.spawned) event
      rw [← h.context.eq_overlay] at happly
      simp only [if_true, happly]
      cases hinput : applyInput x.context event with
      | error divergence =>
          refine .inl ⟨_, rfl, ?_⟩
          simp only [Except.map, h.diverge]
      | ok context =>
          obtain ⟨_, _, _, _, _, hcontext⟩ := applyInput_eq hinput
          have hspawned : context.spawned = x.context.spawned := by rw [hcontext]
          refine .inr ⟨_, _, rfl, rfl, h.program, h.context.of_spawned hspawned, h.threads,
            h.orderly, ?_⟩
          rw [h.rest]
  | false =>
      cases event with
      | executionStarted workflowType method input parent =>
          obtain ⟨s, hs, hx, hx'⟩ := h.threads
          have hconverter : x'.context.converter = x.context.converter := by
            rw [h.context.eq_overlay]
            rfl
          have hmain := h.program.mainThread x.context.converter input
          refine .inr ⟨_, _, rfl, rfl, h.program, h.context,
            ⟨s.spawn (x.program.mainThread _ input, x'.program.mainThread _ input),
              hs.spawn hmain, ?_, ?_⟩,
            ⟨h.orderly.1.spawn _, h.orderly.2.spawn _⟩, ?_⟩
          · rw [hx, ← Scheduler.spawn_map]
          · rw [hx', ← Scheduler.spawn_map, hconverter]
          · rw [h.rest]
      | _ => exact .inl ⟨_, rfl, by simp only [Bool.false_eq_true, if_false, h.diverge]⟩

/-- The threads of both run in the same way. -/
theorem runThreads (h : x.Unfolds hidden x') : x.runThreads.Unfolds hidden x'.runThreads := by
  obtain ⟨s, hs, hx, hx'⟩ := h.threads
  -- The polls allowed differ, but neither pass uses them up.
  obtain ⟨pass, s₁, ctx₁, ctx₁', hrun, hrun', hs₁, hctx₁⟩ :=
    Scheduler.run_lockstep (Thread.workload_lockstep hidden)
      (max (pollBound x.scheduler x.context) (pollBound x'.scheduler x'.context)) hs h.context
  rw [← hx, Scheduler.run_of_le (le_max_left _ _) (run_ne_exhausted h.orderly.1)] at hrun
  rw [← hx', Scheduler.run_of_le (le_max_right _ _) (run_ne_exhausted h.orderly.2)] at hrun'
  have horderly := h.orderly.1.run (pollBound x.scheduler x.context) x.context
  have horderly' := h.orderly.2.run (pollBound x'.scheduler x'.context) x'.context
  rw [hrun] at horderly
  rw [hrun'] at horderly'
  simp only [Execution.runThreads, hrun, hrun']
  cases pass with
  | idle | exhausted =>
      exact ⟨h.program, hctx₁, ⟨s₁, hs₁, rfl, rfl⟩, ⟨horderly, horderly'⟩, by rw [h.rest]⟩
  | panicked thread message =>
      refine ⟨h.program, ?_, ⟨s₁, hs₁, rfl, rfl⟩, ⟨horderly, horderly'⟩, by rw [h.rest]⟩
      exact hctx₁.conclude (.main false) _

/-- Both settle in the same way. -/
theorem settle (h : x.Unfolds hidden x') : x.settle.Unfolds hidden x'.settle := by
  obtain ⟨pairs, hpairs, hspawned, hctx⟩ := h.context
  have hsettle : x'.settle = { x.settle with
      program := x'.program
      context := x.settle.context.overlay (.spawning (pairs.map Prod.snd))
      scheduler := x'.scheduler } := by
    rw [h.rest, hctx]
    simp only [Execution.settle, foldl_issue_cancel, Context.overlay]
    split
    · rfl
    · split
      · cases x.context.children.requestCancel.2.pending.isEmpty <;> rfl
      · split <;> rfl
  obtain ⟨commands, children, complete, heq⟩ := x.settle_eq
  rw [hsettle, heq]
  exact ⟨h.program, ⟨pairs, hpairs, hspawned, rfl⟩, h.threads, h.orderly, rfl⟩

/-- The same commands are taken from both. -/
theorem takeCommands (h : x.Unfolds hidden x') :
    x'.context.commands = x.context.commands
      ∧ x.takeCommands.2.Unfolds hidden x'.takeCommands.2 := by
  obtain ⟨pairs, hpairs, hspawned, hctx⟩ := h.context
  have hrest := h.rest
  rw [hctx] at hrest
  refine ⟨by rw [hctx]; rfl, h.program, ⟨pairs, hpairs, hspawned, ?_⟩, h.threads, h.orderly, ?_⟩
  · rw [hrest]
    rfl
  · rw [hrest]
    rfl

/-! ### Steps -/

/-- **An event is answered alike** and leaves executions that belong together. -/
theorem step (h : x.Unfolds hidden x') (event : Event) :
    (x'.step event).1 = (x.step event).1
      ∧ (x.step event).2.Unfolds hidden (x'.step event).2 := by
  have hcounted : x.counted.Unfolds hidden x'.counted :=
    h.of_rest ⟨rfl, rfl, rfl⟩ (by rw [h.rest]; rfl)
  have hsame : x'.unconfirmed = x.unconfirmed := by rw [h.rest]
  have hcomplete : x'.complete = x.complete := by rw [h.rest]
  cases hrecord : event.isRecord with
  | true =>
      cases hunconfirmed : x.unconfirmed with
      | nil =>
          rw [step_unmatched hunconfirmed hrecord,
            step_unmatched (hsame.trans hunconfirmed) hrecord, hcounted.diverge]
          exact ⟨rfl, hcounted⟩
      | cons command unconfirmed =>
          rw [step_held hunconfirmed hrecord, step_held (hsame.trans hunconfirmed) hrecord,
            hcounted.diverge, hcomplete]
          exact ⟨rfl, hcounted.of_rest ⟨rfl, rfl, rfl⟩ (by rw [hcounted.rest])⟩
  | false =>
      cases hunconfirmed : x.unconfirmed with
      | cons command unconfirmed =>
          rw [step_missing hunconfirmed hrecord, step_missing (hsame.trans hunconfirmed) hrecord,
            hcounted.diverge]
          exact ⟨rfl, hcounted⟩
      | nil =>
          rw [step_input hunconfirmed hrecord, step_input (hsame.trans hunconfirmed) hrecord,
            hcomplete]
          split
          · exact ⟨rfl, hcounted.of_rest ⟨rfl, rfl, rfl⟩ (by rw [hcounted.rest])⟩
          · split
            · exact ⟨rfl, hcounted⟩
            · rcases hcounted.accept event with ⟨e, haccept, haccept'⟩
                | ⟨y, y', haccept, haccept', hy⟩
              · rw [haccept, haccept']
                exact ⟨rfl, hcounted⟩
              · have hsettled := hy.runThreads.settle
                obtain ⟨hcommands, htaken⟩ := hsettled.takeCommands
                have hclosed : y'.runThreads.settle.complete = y.runThreads.settle.complete := by
                  rw [hsettled.rest]
                rw [haccept, haccept']
                exact ⟨by simp only [hcommands, hclosed], htaken⟩

/-! ### Runs -/

/-- **Both answer all events alike**, also after a divergence. -/
theorem answers (h : x.Unfolds hidden x') (first : Nat) (events : List Event) :
    x'.answers first events = x.answers first events := by
  induction events generalizing x x' with
  | nil => rfl
  | cons event events ih =>
      obtain ⟨hanswer, hafter⟩ := h.step event
      rw [Execution.answers, Execution.answers]
      rcases hstep : x.step event with ⟨_ | _, y⟩ <;> rcases hstep' : x'.step event with ⟨_, y'⟩ <;>
        rw [hstep, hstep'] at hanswer hafter <;> cases hanswer <;> simp only [ih hafter]

/-- Both apply as many events, up to the same divergence. -/
theorem applyAll (h : x.Unfolds hidden x') (events : List Event) :
    (x'.applyAll events).1 = (x.applyAll events).1
      ∧ (x.applyAll events).2.Unfolds hidden (x'.applyAll events).2 := by
  induction events generalizing x x' with
  | nil => exact ⟨rfl, h⟩
  | cons event events ih =>
      obtain ⟨hanswer, hafter⟩ := h.step event
      rw [Execution.applyAll, Execution.applyAll]
      rcases hstep : x.step event with ⟨e | _, y⟩ <;> rcases hstep' : x'.step event with ⟨_, y'⟩ <;>
        rw [hstep, hstep'] at hanswer hafter <;> cases hanswer
      · exact ⟨rfl, hafter⟩
      · exact ih hafter

/-- Both record the same. -/
theorem record (h : x.Unfolds hidden x') (events : List Event) :
    (x'.record events).1 = (x.record events).1 := by
  induction events generalizing x x' with
  | nil => rfl
  | cons event events ih =>
      obtain ⟨hanswer, hafter⟩ := h.step event
      rw [Execution.record, Execution.record]
      rcases hstep : x.step event with ⟨e | outcome, y⟩ <;>
        rcases hstep' : x'.step event with ⟨_, y'⟩ <;>
        rw [hstep, hstep'] at hanswer hafter <;> cases hanswer
      · rfl
      · have hrest := ih hafter
        dsimp only at hrest ⊢
        rcases hrecord : y.record events with ⟨_ | _, z⟩ <;>
          rcases hrecord' : y'.record events with ⟨_, z'⟩ <;> rw [hrecord, hrecord'] at hrest <;>
          cases hrest <;> rfl

/-- Both leave replay or neither does. -/
theorem finishReplay (h : x.Unfolds hidden x') :
    (∃ e, x.finishReplay = .error e ∧ x'.finishReplay = .error e)
      ∨ ∃ y y', x.finishReplay = .ok y ∧ x'.finishReplay = .ok y' ∧ y.Unfolds hidden y' := by
  have hsame : x'.unconfirmed = x.unconfirmed := by rw [h.rest]
  rw [Execution.finishReplay, Execution.finishReplay, hsame]
  cases x.unconfirmed with
  | nil => exact .inr ⟨_, _, rfl, rfl, h.setReplaying false⟩
  | cons command unconfirmed => exact .inl ⟨_, rfl, by simp only [h.diverge]⟩

end Unfolds

/-- **Both programs replay a history, or both find the same divergence in it.** -/
theorem replay_unfolds {program program' : Program} (h : program.Unfolds hidden program')
    (info : RunInfo) (converter : Converter) (history : List Event) :
    (∃ e, replay info program converter history = .error e
        ∧ replay info program' converter history = .error e)
      ∨ ∃ x x', replay info program converter history = .ok x
        ∧ replay info program' converter history = .ok x' ∧ x.Unfolds hidden x' := by
  have hnew := (unfolds_new h info converter).setReplaying !history.isEmpty
  obtain ⟨herror, hafter⟩ := hnew.applyAll history
  simp only [replay, replayTraced]
  rcases happly : ((new info program converter).setReplaying !history.isEmpty).applyAll history
    with ⟨_ | e, y⟩ <;>
    rcases happly' : ((new info program' converter).setReplaying !history.isEmpty).applyAll history
      with ⟨_, y'⟩ <;> rw [happly, happly'] at herror hafter <;> cases herror
  · rcases hafter.finishReplay with ⟨e, hfinish, hfinish'⟩ | ⟨z, z', hfinish, hfinish', hz⟩
    · exact .inl ⟨e, by simp only [hfinish], by simp only [hfinish']⟩
    · exact .inr ⟨z, z', by simp only [hfinish], by simp only [hfinish'], hz⟩
  · exact .inl ⟨e, rfl, rfl⟩

end Execution

namespace Program

variable {program program' : Program}

/-- **Direct and unfolded calls cannot be told apart by the host.** Whatever events come, live or in
replay, and also after a divergence, both programs answer each with the same commands, completion
flag or divergence. Both replay the same histories, find the same divergence in any other, and
answer alike to what comes after a replay. So both replay what either of them recorded, unless they
ask whether they are being replayed. -/
theorem Unfolds.interchangeable (h : program.Unfolds hidden program') (info : RunInfo)
    (converter : Converter) :
    (∀ replaying events,
        ((Execution.new info program' converter).setReplaying replaying).answers 0 events
          = ((Execution.new info program converter).setReplaying replaying).answers 0 events)
      ∧ (∀ history,
        (∃ e, Execution.replay info program converter history = .error e
            ∧ Execution.replay info program' converter history = .error e)
          ∨ ∃ x x', Execution.replay info program converter history = .ok x
            ∧ Execution.replay info program' converter history = .ok x'
            ∧ ∀ events, x'.answers 0 events = x.answers 0 events)
      ∧ (program.isReplayBlind = true → ∀ events recording,
        (((Execution.new info program converter).record events).1 = .ok recording
            ∨ ((Execution.new info program' converter).record events).1 = .ok recording) →
          ∃ x x', Execution.replay info program converter recording.delta = .ok x
            ∧ Execution.replay info program' converter recording.delta = .ok x') := by
  have hnew := Execution.unfolds_new h info converter
  refine ⟨fun replaying events => (hnew.setReplaying replaying).answers 0 events, ?_, ?_⟩
  · intro history
    refine (Execution.replay_unfolds h info converter history).imp_right ?_
    rintro ⟨x, x', hreplay, hreplay', hunfolds⟩
    exact ⟨x, x', hreplay, hreplay', hunfolds.answers 0⟩
  · intro blind events recording hrecorded
    have hrecord : ((Execution.new info program converter).record events).1 = .ok recording := by
      rcases hrecorded with hrecord | hrecord
      · exact hrecord
      · exact (hnew.record events).symm.trans hrecord
    obtain ⟨notes, htraced⟩ := Execution.replayTraced_record blind (Prod.ext hrecord rfl)
    rcases Execution.replay_unfolds h info converter recording.delta
      with ⟨e, hreplay, -⟩ | ⟨x, x', hreplay, hreplay', -⟩
    · rw [Execution.replay, htraced] at hreplay
      cases hreplay
    · exact ⟨x, x', hreplay, hreplay'⟩

/-! ### A call and its unfolding -/

/-- Where the calls below go. -/
def guest : Stub :=
  ⟨⟨"Guest", ["stay"]⟩, ⟨some "guest", none, none, false⟩⟩

/-- A direct call for a number, with the failure caught. -/
def directCall : List Statement :=
  [.perform (.call guest "stay" (.document .null) .u32) ⟨some "nights", some "fault"⟩]

/-- The same call, unfolded. -/
def unfoldedCall : List Statement :=
  [.perform (.start guest "stay" (.document .null) false) ⟨some "stay", none⟩,
    .perform (.await "stay" (some .u32)) ⟨some "nights", some "fault"⟩]

/-- One call is the other, unfolded. -/
theorem directCall_unfolds : Statement.Unfolds ["stay"] directCall unfoldedCall :=
  .call (by decide) (List.mem_singleton_self _) (by simp [Binding.names]) .nil

/-- A program that calls in a thread of its own and reports what it caught. -/
def reporting (call : List Statement) : Program :=
  ⟨none, [.spawn (call ++ [.perform (.finish "{fault}") ⟨none, none⟩]) (some "report"),
    .perform (.await "report" none) ⟨some "report", none⟩,
    .perform (.finish "{report}") ⟨none, none⟩]⟩

/-- A program that sleeps before it calls, but in replay only. -/
def wavering (call : List Statement) : Program :=
  ⟨none, .branch .replaying [.perform (.sleep ⟨5000000⟩) ⟨none, none⟩] [] :: call⟩

/-- The first event of a run of either. -/
def calledUpon : Event :=
  .executionStarted "Host" "take" "" none

/-- The child is asked to stay. -/
def invitation : Command :=
  .startChild ⟨1, "Guest", "stay", "guest", "main", "null", none, false⟩

/-- A report of an answer that is no number is replayed with the call as it is and unfolded. -/
theorem reporting_interchangeable :
    (reporting directCall).Unfolds ["stay"] (reporting unfoldedCall)
      ∧ ∃ recording,
        ((Execution.new Execution.nap (reporting directCall) .json).record
          [calledUpon, .childCompleted 1 "no"]).1 = .ok recording
        ∧ ∃ x x',
          Execution.replay Execution.nap (reporting directCall) .json recording.delta = .ok x
          ∧ Execution.replay Execution.nap (reporting unfoldedCall) .json recording.delta
            = .ok x' := by
  have hunfolds : (reporting directCall).Unfolds ["stay"] (reporting unfoldedCall) := by
    refine ⟨rfl, by decide, .spawn (by simp) (directCall_unfolds.append ?_) ?_⟩
    · exact .perform (by simp [Action.names]) (by simp [Binding.names]) .nil
    · exact .perform (by simp [Action.names]) (by simp [Binding.names])
        (.perform (by simp [Action.names]) (by simp [Binding.names]) .nil)
  have hrecorded : ((Execution.new Execution.nap (reporting directCall) .json).record
      [calledUpon, .childCompleted 1 "no"]).1
      = .ok ((Recording.ofStep calledUpon [invitation]).append
        (Recording.ofStep (.childCompleted 1 "no") [.complete
          "data conversion failed: decode: expected ident at line 1 column 2"])) :=
    Execution.eq_ok_of_toOption (by decide +kernel)
  exact ⟨hunfolds, _, hrecorded,
    (hunfolds.interchangeable Execution.nap .json).2.2 (by decide) _ _ (.inl hrecorded)⟩

/-- What a program recorded that asks whether it is being replayed need not be replayed, with the
call unfolded or not. -/
theorem wavering_not_replayed :
    (wavering directCall).Unfolds ["stay"] (wavering unfoldedCall)
      ∧ ∃ recording,
        ((Execution.new Execution.nap (wavering directCall) .json).record [calledUpon]).1
          = .ok recording
        ∧ ∀ x, Execution.replay Execution.nap (wavering unfoldedCall) .json recording.delta
          ≠ .ok x := by
  have hrecorded : ((Execution.new Execution.nap (wavering directCall) .json).record
      [calledUpon]).1 = .ok (Recording.ofStep calledUpon [invitation]) :=
    Execution.eq_ok_of_toOption (by decide +kernel)
  have hdiverges : (Execution.replay Execution.nap (wavering unfoldedCall) .json
      (Recording.ofStep calledUpon [invitation]).delta).toOption.isNone = true := by
    decide +kernel
  refine ⟨⟨rfl, by decide, .branch ?_ ?_ .nil directCall_unfolds⟩, _, hrecorded, ?_⟩
  · simp [Condition.names]
  · exact .perform (by simp [Action.names]) (by simp [Binding.names]) .nil
  · intro x hreplay
    rw [hreplay] at hdiverges
    cases hdiverges

end Program

end DurableWorkflow
