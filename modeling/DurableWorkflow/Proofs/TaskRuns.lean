import DurableWorkflow.Proofs.AwaitedChildren

/-!
# The run behind a task

Performing a task is a course: the recorded history is applied again and the new events after it.
The turns of that course are those of the run so far, so they say which children it abandoned. A run
that closes as cancelled has heard of the end of every child that it started, but for those that
were started detached or that it abandoned.

## Main definitions

* `Execution.turnsOf` — the turns that threads have in several steps.
* `Task.turns` — those of the run behind a task.

## Main results

* `Task.perform_course` — performing a task is a course.
* `Course.children_of_cancel` — what a run that closes as cancelled knows of its children.
-/

namespace DurableWorkflow

namespace Execution

/-- The turns that threads have when events are applied one after the other. -/
def turnsOf (x : Execution) : List Event → List (Turn Context Thread)
  | [] => []
  | event :: events => x.turns event ++ (x.step event).2.turnsOf events

end Execution

/-- The turns of the run behind a task: those of its history, which is applied again, and those of
its new events. -/
def Task.turns (task : Task) (program : Program) (converter : Converter) :
    List (Turn Context Thread) :=
  ((Execution.new task.info program converter).setReplaying !task.history.isEmpty).turnsOf
      task.history
    ++ (Execution.replayTraced task.info program converter task.history).2.turnsOf task.newEvents

namespace Course

variable {info : RunInfo} {program : Program} {converter : Converter} {x y : Execution}
  {events : List Event} {turns : List (Turn Context Thread)}

/-- Applying events that all fit continues a course. -/
theorem applyAll {history : List Event} (course : Course info program converter x events turns)
    (h : x.applyAll history = (none, y)) :
    Course info program converter y (events ++ history) (turns ++ x.turnsOf history) := by
  induction history generalizing x events turns with
  | nil =>
      cases h
      rw [Execution.turnsOf, List.append_nil, List.append_nil]
      exact course
  | cons event history ih =>
      rw [Execution.applyAll] at h
      rcases hstep : x.step event with ⟨e | outcome, x'⟩ <;> rw [hstep] at h
      · cases h
      · have hrest := ih (course.step_ok hstep) h
        rw [Execution.turnsOf, hstep, ← List.append_assoc]
        rwa [List.append_assoc, List.singleton_append] at hrest

/-- So does recording them. -/
theorem record {more : List Event} {recording : Recording}
    (course : Course info program converter x events turns)
    (h : x.record more = (.ok recording, y)) :
    Course info program converter y (events ++ more) (turns ++ x.turnsOf more) := by
  induction more generalizing x events turns recording with
  | nil =>
      cases h
      rw [Execution.turnsOf, List.append_nil, List.append_nil]
      exact course
  | cons event more ih =>
      obtain ⟨outcome, x', rest, hstep, hrest, -⟩ := Execution.record_cons_ok h
      have hmore := ih (course.step_ok hstep) hrest
      rw [Execution.turnsOf, hstep, ← List.append_assoc]
      rwa [List.append_assoc, List.singleton_append] at hmore

/-- A run that closes as cancelled waits for no child. -/
theorem ended_of_cancel (course : Course info program converter x events turns) {reason : String}
    (hcancel : .cancel reason ∈ x.issued) :
    ∀ child ∈ x.children, child.isPending = false := by
  induction course with
  | new => cases hcancel
  | mode replaying _ ih => exact ih hcancel
  | @step x events turns event course ih =>
      rcases x.admitted?_inv event with ⟨-, _, _, hstep, -, -⟩ | ⟨_, -, -, hopen, hstep⟩
      · rw [hstep] at hcancel ⊢
        exact ih hcancel
      · rw [congrArg Prod.snd hstep] at hcancel ⊢
        rw [Execution.issued_step hstep] at hcancel
        rcases List.mem_append.mp hcancel with hbefore | hnow
        · cases course.booked.isOpen hopen _ hbefore
        · exact ((course.petitions_step hstep).2 reason hnow).2

/-- **What a run that closes as cancelled knows of a child that it started**: the child was started
detached, or abandoned, or the run has heard of its end. -/
theorem children_of_cancel (course : Course info program converter x events turns) {reason : String}
    (hcancel : .cancel reason ∈ x.issued) {start : ChildStart}
    (hstart : .startChild start ∈ x.issued) :
    start.detached = true ∨ start.seq ∈ turns.flatMap Turn.abandons
      ∨ ∃ event ∈ events, ∃ transition, Execution.childNews? event = some (start.seq, transition)
        ∧ transition.state.isTerminal = true := by
  obtain ⟨applied, hprefix, -, follows⟩ := course.follows
  by_contra hnone
  obtain ⟨hattached, hkept, hunheard⟩ := by simpa only [not_or] using hnone
  have awaited : Awaited x.issued applied turns start := by
    refine ⟨hstart, Bool.eq_false_of_not_eq_true hattached, hkept, fun transition hmem => ?_⟩
    obtain ⟨event, hevent, hnews⟩ := mem_told hmem
    exact Bool.eq_false_of_not_eq_true fun hterminal =>
      hunheard ⟨event, hprefix.subset hevent, transition, hnews, hterminal⟩
  obtain ⟨child, hchild, -, hpending⟩ := course.exists_pending follows awaited
  rw [course.ended_of_cancel hcancel child hchild] at hpending
  cases hpending

end Course

namespace Task

variable {task : Task} {program : Program} {converter : Converter} {recording : Recording}

/-- Replaying a history is applying its events. -/
theorem replayTraced_inv {info : RunInfo} {history : List Event} {x : Execution}
    (h : Execution.replayTraced info program converter history = (none, x)) :
    ∃ y, ((Execution.new info program converter).setReplaying !history.isEmpty).applyAll history
        = (none, y) ∧ x = y.setReplaying false := by
  rw [Execution.replayTraced] at h
  rcases happly : ((Execution.new info program converter).setReplaying !history.isEmpty).applyAll
    history with ⟨_ | e, y⟩ <;> simp only [happly] at h
  · refine ⟨y, rfl, ?_⟩
    rw [Execution.finishReplay] at h
    cases hunconfirmed : y.unconfirmed with
    | nil =>
        simp only [hunconfirmed] at h
        cases h
        rfl
    | cons command rest =>
        simp only [hunconfirmed] at h
        cases h
  · cases h

/-- **Performing a task is a course** of all its events. The commands of the run are those that are
recorded in the history and those that it issues now. -/
theorem perform_course (h : (task.perform program converter).1 = .ok recording) :
    ∃ x, Course task.info program converter x (task.history ++ task.newEvents)
        (task.turns program converter)
      ∧ ∃ earlier, earlier.map Command.record = records task.history
        ∧ x.issued = earlier ++ recording.commands := by
  rw [perform] at h
  rcases hreplay : Execution.replayTraced task.info program converter task.history
    with ⟨_ | e, x⟩ <;> rw [hreplay] at h
  · have hrecord : x.record task.newEvents = (.ok recording, (x.record task.newEvents).2) :=
      Prod.ext h rfl
    obtain ⟨booked, -, hissued⟩ := Execution.issued_replayTraced hreplay
    refine ⟨(x.record task.newEvents).2, ?_, x.issued, hissued,
      (Execution.issued_record booked hrecord).2⟩
    obtain ⟨y, happly, rfl⟩ := replayTraced_inv hreplay
    have hreplayed := ((Course.new.mode !task.history.isEmpty).applyAll happly).mode false
    rw [turns, hreplay]
    exact hreplayed.record hrecord
  · cases h

end Task

end DurableWorkflow
