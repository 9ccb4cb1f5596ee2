import DurableWorkflow.Proofs.Bookkeeping
import DurableWorkflow.Proofs.PollBounds

/-!
# Courses of an execution

Everything that can happen to one execution: its host applies events to it, in any number and order
and whether they fit or not, and says at any time whether recorded history is being applied. A
course keeps the events that were accepted and the turns that threads had.

## Main definitions

* `Execution.admitted?` — the execution that is about to let its threads run, if an event does that.
* `Execution.pass`, `Execution.passTurns` — the scheduling pass that its threads run in.
* `Execution.accepted`, `Execution.turns` — what an event adds to a course.
* `Course` — how an execution came to be.

## Main results

* `Execution.admitted?_inv` — what an event does that lets no threads run, and one that does.
* `Execution.runThreads_of_calm` — how threads run of which none panics.
* `Course.of_calm` — an invariant of steps in which no thread panics.
* `Course.booked` — the commands of an execution are in order whatever happened to it.
-/

namespace DurableWorkflow

namespace Execution

variable {x x' : Execution} {event : Event}

/-- The execution to which an input was applied and whose threads are about to run. There is none if
the event is a record, comes while a command awaits its record, closes the execution, finds it
closed or is refused. -/
def admitted? (x : Execution) (event : Event) : Option Execution :=
  if event.isRecord || !x.unconfirmed.isEmpty || event = .timedOut || x.complete then none
  else (x.counted.accept event).toOption

/-- The scheduling pass that the threads of an execution would run in. -/
def pass (x : Execution) : Pass × Scheduler Thread × Context :=
  x.scheduler.run Thread.workload (pollBound x.scheduler x.context) x.context

/-- The turns of that pass. -/
def passTurns (x : Execution) : List (Turn Context Thread) :=
  x.scheduler.turns Thread.workload (pollBound x.scheduler x.context) x.context

/-- The turns that threads have in a step. -/
def turns (x : Execution) (event : Event) : List (Turn Context Thread) :=
  match x.admitted? event with
  | some x => x.passTurns
  | none => []

/-- The event itself, if it is accepted. -/
def accepted (x : Execution) (event : Event) : List Event :=
  match (x.step event).1 with
  | .ok _ => [event]
  | .error _ => []

/-- An event that fits is accepted. -/
theorem accepted_of_ok {outcome : StepOutcome} (h : x.step event = (.ok outcome, x')) :
    x.accepted event = [event] := by
  simp only [accepted, h]

/-- A timeout is none of the inputs that are applied to the context. -/
theorem ne_timedOut_of_accept (h : x.accept event = .ok x') : event ≠ .timedOut := by
  rintro rfl
  rcases accept_inv h with ⟨-, context, happly, -⟩ | ⟨-, _, _, _, _, hevent, -⟩
  · cases happly
  · cases hevent

/-- An input that lets the threads run is accepted, and after them the execution settles. -/
theorem step_of_admitted? (h : x.admitted? event = some x') :
    x.counted.accept event = .ok x' ∧ x.complete = false
      ∧ x.step event = (.ok ⟨x'.runThreads.settle.context.commands,
        x'.runThreads.settle.complete⟩, x'.runThreads.settle.takeCommands.2) := by
  rw [admitted?] at h
  split at h
  · cases h
  · rename_i hnone
    simp only [Bool.or_eq_true, Bool.not_eq_true', decide_eq_true_eq, not_or, Bool.not_eq_true,
      Bool.not_eq_false, List.isEmpty_iff] at hnone
    obtain ⟨⟨⟨hrecord, hunconfirmed⟩, htime⟩, hopen⟩ := hnone
    cases haccept : x.counted.accept event with
    | error e =>
        rw [haccept] at h
        cases h
    | ok y =>
        rw [haccept] at h
        cases h
        refine ⟨rfl, hopen, ?_⟩
        rw [step_input hunconfirmed hrecord, if_neg htime, if_neg (by simp [hopen]), haccept]

/-- An input that lets no thread run is refused, or finds the execution closed or closes it. -/
theorem complete_of_admitted?_none (h : x.admitted? event = none) (hinput : event.isRecord = false)
    {outcome : StepOutcome} (hstep : x.step event = (.ok outcome, x')) : x'.complete = true := by
  cases hunconfirmed : x.unconfirmed with
  | cons command unconfirmed =>
      rw [step_missing hunconfirmed hinput] at hstep
      cases hstep
  | nil =>
      rw [step_input hunconfirmed hinput] at hstep
      split at hstep
      · cases hstep
        rfl
      · rename_i htime
        split at hstep
        · rename_i hclosed
          cases hstep
          exact hclosed
        · rename_i hopen
          cases haccept : x.counted.accept event with
          | error e =>
              rw [haccept] at hstep
              cases hstep
          | ok y =>
              simp [admitted?, hinput, hunconfirmed, htime, hopen, haccept, Except.toOption] at h

/-- **What an event does.** It lets no threads run, and only the unconfirmed commands may change and
whether the execution has closed; or it is an input that lets them run. -/
theorem admitted?_inv (x : Execution) (event : Event) :
    (x.admitted? event = none ∧ ∃ unconfirmed complete,
        (x.step event).2 = { x.counted with unconfirmed, complete }
        ∧ (complete = x.complete ∨ complete = true)
        ∧ ∀ outcome, (x.step event).1 = .ok outcome → outcome.commands = []
          ∧ (event.isRecord = true ∨ complete = true))
      ∨ ∃ x', x.admitted? event = some x' ∧ x.counted.accept event = .ok x' ∧ x.complete = false
        ∧ x.step event = (.ok ⟨x'.runThreads.settle.context.commands,
          x'.runThreads.settle.complete⟩, x'.runThreads.settle.takeCommands.2) := by
  cases hadmitted : x.admitted? event with
  | some x' => exact .inr ⟨x', rfl, step_of_admitted? hadmitted⟩
  | none =>
      refine .inl ⟨rfl, ?_⟩
      rcases x.step_inv event with ⟨unconfirmed, complete, hstep, hcomplete, hnothing⟩
        | ⟨x', haccept, hinput, hunconfirmed, hopen, -⟩
      · refine ⟨unconfirmed, complete, hstep, hcomplete, ?_⟩
        intro outcome houtcome
        refine ⟨(hnothing outcome houtcome).1, ?_⟩
        cases hrecord : event.isRecord with
        | true => exact .inl rfl
        | false =>
            have hclosed := complete_of_admitted?_none hadmitted hrecord (Prod.ext houtcome hstep)
            exact .inr hclosed
      · have htime := ne_timedOut_of_accept haccept
        simp [admitted?, hinput, hunconfirmed, htime, hopen, haccept, Except.toOption] at hadmitted

/-- Only a timeout closes an execution without letting its threads run. -/
theorem timedOut_of_closes {outcome : StepOutcome} (h : x.admitted? event = none)
    (hstep : x.step event = (.ok outcome, x')) (hopen : x.complete = false)
    (hclosed : x'.complete = true) : event = .timedOut := by
  by_contra htime
  cases hrecord : event.isRecord with
  | true =>
      obtain ⟨_, hsame, -⟩ := x.step_record_inv hrecord
      rw [hstep] at hsame
      rw [show x' = _ from hsame] at hclosed
      exact absurd hclosed (by simp [counted, hopen])
  | false =>
      cases hunconfirmed : x.unconfirmed with
      | cons command unconfirmed =>
          rw [step_missing hunconfirmed hrecord] at hstep
          cases hstep
      | nil =>
          rw [step_input hunconfirmed hrecord, if_neg htime, if_neg (by simp [hopen])] at hstep
          cases haccept : x.counted.accept event with
          | error e =>
              rw [haccept] at hstep
              cases hstep
          | ok y =>
              simp [admitted?, hrecord, hunconfirmed, htime, hopen, haccept, Except.toOption] at h

/-- Without a panic, letting the threads run is a pass that ends because none can. -/
theorem runThreads_of_calm (h : x.scheduler.Orderly)
    (calm : ∀ turn ∈ x.passTurns, ¬ turn.Panics Thread.workload) :
    x.pass.1 = .idle
      ∧ x.runThreads = { x with scheduler := x.pass.2.1, context := x.pass.2.2 } := by
  have hnever := run_ne_exhausted h
  rw [runThreads, pass]
  rcases hrun : x.scheduler.run Thread.workload (pollBound x.scheduler x.context) x.context
    with ⟨_ | ⟨id, message⟩ | _, scheduler, context⟩
  · exact ⟨rfl, rfl⟩
  · obtain ⟨turn, hturn, hpanics⟩ := Scheduler.exists_panics_of_run (congrArg Prod.fst hrun)
    exact absurd hpanics (calm turn hturn)
  · exact absurd (congrArg Prod.fst hrun) hnever

end Execution

/-- How an execution came to be from a new one, with the events that it accepted and the turns that
its threads had. -/
inductive Course (info : RunInfo) (program : Program) (converter : Converter) :
    Execution → List Event → List (Turn Context Thread) → Prop where
  | new : Course info program converter (.new info program converter) [] []
  | mode {x : Execution} {events : List Event} {turns : List (Turn Context Thread)}
      (replaying : Bool) : Course info program converter x events turns →
      Course info program converter (x.setReplaying replaying) events turns
  | step {x : Execution} {events : List Event} {turns : List (Turn Context Thread)}
      (event : Event) : Course info program converter x events turns →
      Course info program converter (x.step event).2 (events ++ x.accepted event)
        (turns ++ x.turns event)

namespace Course

variable {info : RunInfo} {program : Program} {converter : Converter} {x x' : Execution}
  {events : List Event} {turns : List (Turn Context Thread)}

/-- An event that fits continues a course. -/
theorem step_ok (course : Course info program converter x events turns) {event : Event}
    {outcome : StepOutcome} (hstep : x.step event = (.ok outcome, x')) :
    Course info program converter x' (events ++ [event]) (turns ++ x.turns event) := by
  have hcourse := course.step event
  rwa [hstep, Execution.accepted_of_ok hstep] at hcourse

/-- **Whatever happened to an execution, its commands are in order.** -/
theorem booked (course : Course info program converter x events turns) : x.Booked := by
  induction course with
  | new => exact Execution.booked_new info program converter
  | mode replaying _ ih => exact ⟨ih.taken, ih.numbers, ih.last, ih.isOpen⟩
  | step event _ ih => exact ih.step event

/-- **What steps keep in which no thread panics** holds after every course in which none did. -/
theorem of_calm {P : Execution → List (Turn Context Thread) → Prop}
    (new : P (.new info program converter) [])
    (mode : ∀ {x turns} replaying, P x turns → P (x.setReplaying replaying) turns)
    (step : ∀ {x turns} event, P x turns →
      (∀ turn ∈ x.turns event, ¬ turn.Panics Thread.workload) →
      P (x.step event).2 (turns ++ x.turns event))
    (course : Course info program converter x events turns)
    (calm : ∀ turn ∈ turns, ¬ turn.Panics Thread.workload) : P x turns := by
  induction course with
  | new => exact new
  | mode replaying _ ih => exact mode replaying (ih calm)
  | step event _ ih =>
      obtain ⟨hbefore, hnow⟩ := List.forall_mem_append.mp calm
      exact step event (ih hbefore) hnow

end Course

end DurableWorkflow
