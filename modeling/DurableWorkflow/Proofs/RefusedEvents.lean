import DurableWorkflow.Proofs.Courses
import DurableWorkflow.Proofs.InPlace

/-!
# Refused events

An execution refuses an event that does not fit: a record that no command awaits or that is not the
one awaited, an input that comes while a command awaits its record, one that comes before the start,
and one that is about a timer or a child it does not have or that does not fit the child. The same
execution may be asked for its state afterwards and given further events, so a refusal must not
leave it half changed.

An execution is kept in place. Its counter, its queue of unconfirmed commands, its timers and its
children are changed one after the other and before it is known that the event fits. Here the
changes are followed in the order in which they are made.

## Main definitions

* `Execution.stepInPlace` — an event applied in place, change by change.

## Main results

* `Children.applyInPlace_run`, `Execution.applyInputInPlace_run` — news of a child and other inputs
  are applied as a whole or not at all.
* `Execution.stepInPlace_run` — a step in place is a step.
* `Execution.step_refused` — what a refused event leaves, for every reason to refuse one.
* `Execution.refusal_leaves` — nothing runs and nothing changes but the count of events and, if the
  awaited record is another one, the command that awaited it.
-/

namespace DurableWorkflow

open InPlace (wholly part part_wholly)

namespace Children

/-! ### Children -/

/-- Apply a transition to one of the children in place. -/
def applyInPlace (seq : Nat) (transition : ChildTransition) :
    EStateM LifecycleError Children (Option (FutureId × Outcome)) := do
  match (← get).get? seq with
  | none => throw (.unknownChild seq)
  | some child =>
    if child.accepts transition then
      match transition with
      | .started runId =>
        modify fun children => children.put { child with runId := some runId }
        modify fun children => children.put { child with runId := some runId, state := .running }
        return none
      | transition =>
        match child.ending transition with
        | none => return none
        | some (state, outcome) =>
          modify fun children => children.put { child with state }
          modify fun children => children.put { child with state, result := some outcome }
          return some (child.future, outcome)
    else throw (.invalidTransition child.seq child.state transition.name)

/-- Of two children that are put in one place the last one stays. -/
theorem put_put (children : Children) {child other : Child} (h : child.seq = other.seq) :
    (children.put child).put other = children.put other := by
  simp only [put, List.map_map, mk.injEq]
  refine List.map_congr_left fun old _ => ?_
  simp only [Function.comp]
  split <;> simp_all

/-- **A transition is applied as a whole or not at all.** -/
theorem applyInPlace_run (seq : Nat) (transition : ChildTransition) (children : Children) :
    (applyInPlace seq transition).run children
      = wholly children ((children.apply seq transition).map Prod.swap) := by
  unfold applyInPlace Children.apply
  simp only [EStateM.run_bind, EStateM.run_get]
  cases children.get? seq with
  | none => rfl
  | some child =>
      dsimp only
      unfold Child.apply
      cases child.accepts transition with
      | false => rfl
      | true =>
          have hput (first last : Child) (h : first.seq = last.seq)
              (ended : Option (FutureId × Outcome)) :
              EStateM.Result.ok (ε := LifecycleError) ended ((children.put first).put last)
                = .ok ended (children.put last) :=
            congrArg (EStateM.Result.ok ended) (children.put_put h)
          cases transition <;> exact hput _ _ (by rfl) _

end Children

namespace Execution

/-! ### Inputs -/

/-- Apply an input to a context in place. A timer is taken from those that are armed, if it is
there; only then it turns out whether it was. -/
def applyInputInPlace (event : Event) : EStateM Divergence Context Unit := do
  match childNews? event with
  | some (seq, transition) =>
    let ended ← part Context.children (fun ctx children => { ctx with children })
      (fun _ => Divergence.lifecycle) (Children.applyInPlace seq transition)
    match ended with
    | some (future, outcome) => modify fun ctx => ctx.resolve future outcome
    | none => return ()
  | none =>
    match event with
    | .timerFired seq =>
      let armed := (← get).timers.lookup seq
      modify fun ctx => { ctx with timers := ctx.timers.filter fun timer => timer.1 ≠ seq }
      match armed with
      | some future => modify fun ctx => ctx.resolve future (.ok "")
      | none => throw (.unknownTimer seq)
    | .cancelRequested reason =>
      if (← get).cancelReason.isNone then
        modify fun ctx => { ctx with cancelReason := some reason }
    | event => throw (.unexpected event)

/-- **An input is applied as a whole or not at all.** -/
theorem applyInputInPlace_run (event : Event) (ctx : Context) :
    (applyInputInPlace event).run ctx
      = wholly ctx ((applyInput ctx event).map fun ctx => ((), ctx)) := by
  unfold applyInputInPlace applyInput
  cases hnews : childNews? event with
  | some news =>
      obtain ⟨seq, transition⟩ := news
      dsimp only
      rw [EStateM.run_bind, part_wholly rfl (Children.applyInPlace_run seq transition ctx.children)]
      rcases ctx.children.apply seq transition with e | ⟨children, _ | ⟨future, outcome⟩⟩ <;> rfl
  | none =>
      dsimp only
      cases event with
      | timerFired seq =>
          simp only [EStateM.run_bind, EStateM.run_get]
          cases hlookup : ctx.timers.lookup seq with
          | some future => rfl
          | none =>
              have hsame := InPlace.filter_of_lookup_none hlookup
              exact congrArg (fun timers => EStateM.Result.error _ { ctx with timers }) hsame
      | cancelRequested reason =>
          simp only [EStateM.run_bind, EStateM.run_get]
          cases hreason : ctx.cancelReason with
          | none => rfl
          | some other =>
              exact congrArg (fun cancelReason => EStateM.Result.ok () { ctx with cancelReason })
                hreason
      | _ => rfl

/-! ### Steps -/

/-- Hold a record against the oldest command that awaits one, in place. -/
def confirmInPlace (record : Event) : EStateM Nondeterminism Execution Unit := do
  match (← get).unconfirmed with
  | [] => throw ((← get).diverge (.unmatchedRecord record))
  | command :: unconfirmed =>
    modify fun x => { x with unconfirmed }
    unless command.matchesRecord record do
      throw ((← get).diverge (.differentRecord record command))

/-- Apply an input that is no record in place, without running threads yet. -/
def acceptInPlace (event : Event) : EStateM Nondeterminism Execution Unit := do
  if (← get).started then
    part Execution.context (fun x context => { x with context }) diverge (applyInputInPlace event)
  else
    match event with
    | .executionStarted _ _ input _ =>
      modify fun x => { x with started := true }
      modify fun x => { x with
        scheduler := x.scheduler.spawn (x.program.mainThread x.context.converter input) }
    | event => throw ((← get).diverge (.beforeStart event))

/-- Apply one event in place. -/
def stepInPlace (event : Event) : EStateM Nondeterminism Execution StepOutcome := do
  modify fun x => { x with eventsApplied := x.eventsApplied + 1 }
  if event.isRecord then
    confirmInPlace event
    return ⟨[], (← get).complete⟩
  else
    match (← get).unconfirmed with
    | command :: _ => throw ((← get).diverge (.missingRecord command event))
    | [] =>
      if event = .timedOut then
        modify fun x => { x with complete := true }
        return ⟨[], true⟩
      else if (← get).complete then return ⟨[], true⟩
      else
        acceptInPlace event
        modify runThreads
        modify settle
        let commands ← modifyGet takeCommands
        return ⟨commands, (← get).complete⟩

/-- An input is accepted as a whole or not at all. -/
theorem acceptInPlace_run (event : Event) (x : Execution) :
    (acceptInPlace event).run x = wholly x ((x.accept event).map fun x => ((), x)) := by
  unfold acceptInPlace accept
  simp only [EStateM.run_bind, EStateM.run_get]
  cases hstarted : x.started with
  | true =>
      rw [if_pos rfl, if_pos rfl, part_wholly rfl (applyInputInPlace_run event x.context)]
      cases applyInput x.context event with
      | ok context => simp only [Except.map, Except.mapError, wholly, hstarted]
      | error divergence => rfl
  | false => cases event <;> rfl

/-- What is left in place of a step. -/
def leftBy : Except Nondeterminism StepOutcome × Execution →
    EStateM.Result Nondeterminism Execution StepOutcome
  | (.ok outcome, x) => .ok outcome x
  | (.error e, x) => .error e x

/-- Confirming a record in place. -/
theorem confirmInPlace_run (record : Event) (x : Execution) :
    (confirmInPlace record).run x
      = match x.confirm record with
        | (.ok (), x) => .ok () x
        | (.error e, x) => .error e x := by
  obtain ⟨program, context, scheduler, unconfirmed, issued, eventsApplied, started, complete⟩ := x
  cases unconfirmed with
  | nil => rfl
  | cons command unconfirmed =>
      simp only [confirmInPlace, confirm, EStateM.run_bind, EStateM.run_get, EStateM.run_modify]
      cases command.matchesRecord record <;> rfl

/-- **A step in place is a step.** -/
theorem stepInPlace_run (event : Event) (x : Execution) :
    (stepInPlace event).run x = leftBy (x.step event) := by
  obtain ⟨program, context, scheduler, unconfirmed, issued, eventsApplied, started, complete⟩ := x
  unfold stepInPlace step
  simp only [EStateM.run_bind, EStateM.run_modify]
  cases event.isRecord with
  | true =>
      simp only [if_true, EStateM.run_bind, confirmInPlace_run]
      rcases confirm _ event with ⟨_ | _, x⟩ <;> rfl
  | false =>
      simp only [Bool.false_eq_true, if_false, EStateM.run_bind, EStateM.run_get]
      cases unconfirmed with
      | cons command unconfirmed => rfl
      | nil =>
          by_cases htime : event = .timedOut
          · simp only [htime, if_true]
            rfl
          · cases complete with
            | true => simp only [htime, if_false, EStateM.run_bind]; rfl
            | false =>
                simp only [htime, Bool.false_eq_true, if_false, EStateM.run_bind, EStateM.run_get,
                  acceptInPlace_run]
                cases accept _ event <;> rfl

/-! ### Refusals -/

variable {x x' : Execution} {event : Event} {e : Nondeterminism}

/-- An input is refused with a divergence at the event that was applied last. -/
theorem accept_refused (h : x.accept event = .error e) :
    ∃ divergence, e = x.diverge divergence := by
  unfold accept at h
  cases hstarted : x.started with
  | true =>
      rw [hstarted, if_pos rfl] at h
      cases happly : applyInput x.context event with
      | ok context =>
          rw [happly] at h
          cases h
      | error divergence =>
          rw [happly] at h
          cases h
          exact ⟨divergence, rfl⟩
  | false =>
      rw [hstarted] at h
      cases event <;> cases h <;> exact ⟨_, rfl⟩

/-- **What a refused event leaves.** The refusal names the workflow and the event. The event is
counted; and if a command awaited another record, it does not any more. -/
theorem step_refused (h : x.step event = (.error e, x')) :
    (∃ divergence, e = ⟨x.context.info.workflowId, x.eventsApplied, divergence⟩)
      ∧ (x' = x.counted ∧ (event.isRecord = true → x.unconfirmed = [])
        ∨ ∃ command unconfirmed, event.isRecord = true ∧ x.unconfirmed = command :: unconfirmed
          ∧ command.record ≠ event ∧ x' = { x.counted with unconfirmed }) := by
  cases hrecord : event.isRecord with
  | true =>
      cases hunconfirmed : x.unconfirmed with
      | nil =>
          rw [step_unmatched hunconfirmed hrecord] at h
          cases h
          exact ⟨⟨_, rfl⟩, .inl ⟨rfl, fun _ => rfl⟩⟩
      | cons command unconfirmed =>
          rw [step_held hunconfirmed hrecord] at h
          split at h
          · cases h
          · rename_i hother
            cases h
            refine ⟨⟨_, rfl⟩, .inr ⟨command, unconfirmed, rfl, rfl, ?_, rfl⟩⟩
            simpa [Command.matchesRecord] using hother
  | false =>
      have hinput : (false = true → x.unconfirmed = []) := fun h => Bool.noConfusion h
      cases hunconfirmed : x.unconfirmed with
      | cons command unconfirmed =>
          rw [step_missing hunconfirmed hrecord] at h
          cases h
          exact ⟨⟨_, rfl⟩, .inl ⟨rfl, hunconfirmed ▸ hinput⟩⟩
      | nil =>
          rw [step_input hunconfirmed hrecord] at h
          split at h
          · cases h
          · split at h
            · cases h
            · cases haccept : x.counted.accept event with
              | ok y =>
                  rw [haccept] at h
                  cases h
              | error e =>
                  rw [haccept] at h
                  cases h
                  obtain ⟨divergence, rfl⟩ := accept_refused haccept
                  exact ⟨⟨divergence, rfl⟩, .inl ⟨rfl, fun _ => rfl⟩⟩

/-- A refused event lets no thread run. -/
theorem turns_of_refused (h : x.step event = (.error e, x')) : x.turns event = [] := by
  rcases x.admitted?_inv event with ⟨hnone, -⟩ | ⟨y, -, -, -, hstep⟩
  · rw [turns, hnone]
  · rw [hstep] at h
    cases h

/-- **A refused event has no effect on the workflow.** It was applied in place, nothing was put back
afterwards, and no thread was polled. The execution that is left, with its children, timers, futures
and threads, its run queue, its request to cancel, the commands it issued and whether it has started
or closed, is the one before it, but for the count of events and, if the oldest command that awaits
a record was held against one that is not its own, for that command. -/
theorem refusal_leaves (h : x.step event = (.error e, x')) :
    (stepInPlace event).run x = .error e x'
      ∧ x.turns event = []
      ∧ (x' = { x with eventsApplied := x.eventsApplied + 1 }
          ∧ (event.isRecord = true → x.unconfirmed = [])
        ∨ ∃ command unconfirmed, event.isRecord = true ∧ x.unconfirmed = command :: unconfirmed
          ∧ command.record ≠ event
          ∧ x' = { x with eventsApplied := x.eventsApplied + 1, unconfirmed }) := by
  refine ⟨?_, turns_of_refused h, (step_refused h).2⟩
  rw [stepInPlace_run, h]
  rfl

/-- The start of a nap. -/
def napStart : Event :=
  .executionStarted "Nap" "take" "" none

/-- A nap that is being replayed and has just lain down, for five milliseconds. -/
def lyingDown : Execution :=
  (((new nap napping .json).setReplaying true).step napStart).2

/-- A record of seven milliseconds is refused. The command that awaited its record is gone, and the
nap still waits for its timer. -/
theorem lyingDown_refuses :
    ∃ x', lyingDown.step (.timerStarted 1 7)
        = (.error ⟨"nap", 1, .differentRecord (.timerStarted 1 7) (.startTimer 1 5)⟩, x')
      ∧ (stepInPlace (.timerStarted 1 7)).run lyingDown
        = .error ⟨"nap", 1, .differentRecord (.timerStarted 1 7) (.startTimer 1 5)⟩ x'
      ∧ x'.unconfirmed = [] ∧ x'.context = lyingDown.context
      ∧ x'.scheduler = lyingDown.scheduler := by
  have herror : (lyingDown.step (.timerStarted 1 7)).1
      = .error ⟨"nap", 1, .differentRecord (.timerStarted 1 7) (.startTimer 1 5)⟩ := by
    decide +kernel
  have hawaited : lyingDown.unconfirmed = [.startTimer 1 5] := by decide +kernel
  have hstep : lyingDown.step (.timerStarted 1 7) = (.error _, _) := Prod.ext herror rfl
  obtain ⟨hrun, -, ⟨-, hnone⟩ | ⟨command, unconfirmed, -, hcons, -, hleft⟩⟩ := refusal_leaves hstep
  · rw [hawaited] at hnone
    cases hnone rfl
  · rw [hawaited] at hcons
    cases hcons
    exact ⟨_, hstep, hrun, by rw [hleft], by rw [hleft], by rw [hleft]⟩

end Execution

end DurableWorkflow
