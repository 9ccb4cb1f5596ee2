import DurableWorkflow.Proofs.Replay

/-!
# Suspension and resumption

A worker sees a workflow in tasks: each brings some new events and the history recorded before, from
which the execution is rebuilt. Tasks may also be given back, and their events come again with a
later task. None of this shows in what is recorded: whatever way the events are delivered in, the
recordings of the tasks that were kept make up the recording of one uninterrupted live execution.

## Main definitions

* `Task.Attempt`, `Task.performAll` — tasks of one workflow worked on one after the other.
* `Task.Delivers` — tasks that bring given events in order.

## Main results

* `Task.perform_record` — a task goes on where the recording of its history ended.
* `Task.performAll_eq_record` — delivery in tasks records what one live execution records.
-/

namespace DurableWorkflow

open Execution

namespace Task

/-- A task of a workflow as it is worked on once. -/
structure Attempt where
  /-- Its token. -/
  token : String
  /-- The events that are new in it. -/
  events : List Event
  /-- Whether its recording is kept; otherwise the task is given back. -/
  kept : Bool
  deriving DecidableEq, Inhabited

variable {info : RunInfo} {program : Program} {converter : Converter} {history events : List Event}
  {first rest recording : Recording} {x y : Execution}

/-- Work on tasks of one workflow one after the other, each with the history recorded so far. This
gives the recordings that are kept, one after another, unless a task diverges, kept or not. -/
def performAll (info : RunInfo) (program : Program) (converter : Converter) :
    List Event → List Attempt → Except Nondeterminism Recording
  | _, [] => .ok .empty
  | history, attempt :: attempts =>
    match (Task.perform ⟨attempt.token, info, history, attempt.events⟩ program converter).1 with
    | .error e => .error e
    | .ok recording =>
      if attempt.kept then
        (performAll info program converter (history ++ recording.delta) attempts).map
          recording.append
      else performAll info program converter history attempts

/-- Whether tasks bring given events in order. A task that is kept brings the next ones. One that
is given back brings some that come again, alone or together with later ones. -/
inductive Delivers : List Attempt → List Event → Prop
  | done : Delivers [] []
  | kept {attempts : List Attempt} {events : List Event} (token : String) (batch : List Event) :
      Delivers attempts events → Delivers (⟨token, batch, true⟩ :: attempts) (batch ++ events)
  | abandoned {attempts : List Attempt} (token : String) (batch later : List Event) :
      Delivers attempts (batch ++ later) →
        Delivers (⟨token, batch, false⟩ :: attempts) (batch ++ later)

/-- A task goes on where the recording of its history ended. -/
theorem perform_record (blind : program.isReplayBlind) (token : String)
    (hfirst : (new info program converter).record history = (.ok first, x))
    (hrest : x.record events = (.ok rest, y)) :
    ∃ notes count, Task.perform ⟨token, info, first.delta, events⟩ program converter
      = (.ok rest, y.recast false notes count []) := by
  have live := (live_new info program converter).record history
  have hblind := (isBlind_new blind info converter).record (live_new info program converter) history
  rw [hfirst] at live hblind
  obtain ⟨notes, hreplay⟩ := replayTraced_record blind hfirst
  obtain ⟨notes', hrecord⟩ := record_recast live hblind notes first.delta.length hrest
  refine ⟨notes', first.delta.length + events.length, ?_⟩
  simp only [perform, hreplay]
  exact hrecord

/-- Tasks that bring the events after some recorded history record the rest of what one live
execution records. -/
theorem performAll_of_delivers (blind : program.isReplayBlind) {attempts : List Attempt}
    (delivers : Delivers attempts events)
    (hfirst : (new info program converter).record history = (.ok first, x))
    (hrest : x.record events = (.ok rest, y)) :
    performAll info program converter first.delta attempts = .ok rest := by
  induction delivers generalizing history first rest x with
  | done =>
      cases hrest
      rfl
  | kept token batch _ ih =>
      obtain ⟨now, x', later, hnow, hlater, rfl⟩ := record_append_ok hrest
      obtain ⟨notes, count, hperform⟩ := perform_record blind token hfirst hnow
      have hnext := ih (record_append hfirst hnow) hlater
      rw [Recording.delta_append] at hnext
      simp only [performAll, hperform, ite_true, hnext]
      rfl
  | abandoned token batch later _ ih =>
      obtain ⟨now, x', _, hnow, -, -⟩ := record_append_ok hrest
      obtain ⟨notes, count, hperform⟩ := perform_record blind token hfirst hnow
      simp only [performAll, hperform, Bool.false_eq_true, ite_false]
      exact ih hfirst hrest

/-- **Suspension and resumption are invisible.** If a live execution of a replay-blind program
accepts some events, then in whatever way these are split into tasks, and however often tasks are
given back and come again, every task is performed without divergence, and the history and the
commands recorded are those of the one live execution. -/
theorem performAll_eq_record (blind : program.isReplayBlind) {attempts : List Attempt}
    (accepted : (new info program converter).record events = (.ok recording, y))
    (delivers : Delivers attempts events) :
    performAll info program converter [] attempts = .ok recording :=
  performAll_of_delivers blind delivers (record_nil _) accepted

/-- A nap in three tasks, the first of which is given back. -/
theorem performAll_nap :
    performAll nap napping .json []
        [⟨"task:1", [.executionStarted "Nap" "take" "" none], false⟩,
          ⟨"task:2", [.executionStarted "Nap" "take" "" none], true⟩,
          ⟨"task:3", [.timerFired 1], true⟩]
      = .ok ⟨napHistory, [.startTimer 1 5, .complete "rested"]⟩ := by
  have hrecord : ((new nap napping .json).record (inputs napHistory)).1
      = .ok ⟨napHistory, [.startTimer 1 5, .complete "rested"]⟩ :=
    eq_ok_of_toOption (by decide +kernel)
  refine performAll_eq_record (by decide) (Prod.ext hrecord rfl) ?_
  exact .abandoned _ [.executionStarted "Nap" "take" "" none] [.timerFired 1]
    (.kept _ _ (.kept _ [.timerFired 1] .done))

end Task

end DurableWorkflow
