import DurableWorkflow.Proofs.Panics

/-!
# Closing

An execution closes once. The command that closes it is the last that it issues, and a timeout
closes it without any. A closed execution goes on to accept events, even ones that an open execution
would refuse, and none of them does anything to it.

As long as nobody asks an execution to cancel, there is nothing to wait for: it closes in the step
in which its main thread returns or any thread panics, and it is open before that.

## Main definitions

* `Turn.Returned`, `Turn.Decides` — the turns after which a workflow has a result.
* `Execution.Later` — what an execution may become.
* `Execution.Closes` — when and why an execution has closed.

## Main results

* `Scheduler.result_preserves` — a calm pass leaves a result iff the main thread returned in it.
* `Execution.complete_later` — a closed execution stays as it is.
* `Execution.Closes.step` — every event keeps the invariant.
* `Course.closes_once` — how an execution closes, and that it is silent afterwards.
-/

namespace DurableWorkflow

/-- Whether the main thread returned in a turn, with a value or a failure. -/
def Turn.Returned (turn : Turn Context Thread) : Prop :=
  turn.body.isMain = true ∧ (turn.result Thread.workload).1 = .done

/-- Whether a turn gives the workflow a result: the main thread returned, or some thread panicked. -/
def Turn.Decides (turn : Turn Context Thread) : Prop :=
  turn.Returned ∨ turn.Panics Thread.workload

/-- The end of the main thread is a result of the workflow. -/
theorem Thread.conclude_isMain {thread : Thread} (h : thread.isMain = true) (outcome : Outcome)
    (ctx : Context) : (conclude thread.role outcome ctx).mainResult ≠ none := by
  rw [isMain] at h
  split at h
  · rename_i typed hrole
    rw [hrole]
    cases typed <;> exact Option.some_ne_none _
  · cases h

/-- **A workflow has a result iff the main thread returned**, as long as no thread panics. -/
theorem Scheduler.result_preserves : Thread.workload.Preserves fun log _ ctx =>
    ctx.mainResult = none ↔ ∀ turn ∈ log, ¬ turn.Returned where
  gather h := h
  skip h _ _ := h
  ended := by
    intro log s ctx id queue thread h _ _ _
    rw [List.forall_mem_append, List.forall_mem_singleton, ← h]
    by_cases hreturned : (⟨id, thread.body, ctx⟩ : Turn Context Thread).Returned
    · obtain ⟨hmain, hdone⟩ := hreturned
      obtain ⟨ctx', -, ⟨outcome, hpoll⟩ | ⟨message, hpoll⟩ | ⟨body, hpoll, -⟩⟩ :=
        thread.body.poll_inv id ctx
      · have hresult : (thread.body.poll id ctx).2.mainResult ≠ none := by
          rw [hpoll]
          exact Thread.conclude_isMain hmain outcome ctx'
        exact iff_of_false hresult fun hnone => hnone.2 ⟨hmain, hdone⟩
      · cases (congrArg Prod.fst hpoll).symm.trans hdone
      · cases (congrArg Prod.fst hpoll).symm.trans hdone
    · have hother : thread.body.isMain = false ∨ (thread.body.poll id ctx).1 ≠ .done := by
        rcases Bool.eq_false_or_eq_true thread.body.isMain with hmain | hmain
        · exact .inr fun hdone => hreturned ⟨hmain, hdone⟩
        · exact .inl hmain
      rw [and_iff_left hreturned]
      exact Eq.congr_left ((thread.body.poll_main id ctx).1 hother)
  pending := by
    intro log s ctx id queue thread body h _ _ hbody
    have hnot : (thread.body.poll id ctx).1 ≠ .done := by
      rw [show (thread.body.poll id ctx).1 = .pending body from hbody]
      nofun
    have hreturned : ¬ (⟨id, thread.body, ctx⟩ : Turn Context Thread).Returned :=
      fun hreturned => hnot hreturned.2
    rw [List.forall_mem_append, List.forall_mem_singleton, and_iff_left hreturned, ← h]
    exact Eq.congr_left ((thread.body.poll_main id ctx).1 (.inr hnot))

/-- If only the last command may close the instance, at most one does, after all the others. -/
theorem Command.closing_last {commands : List Command}
    (last : commands.Pairwise fun command _ => command.isTerminal = false) :
    ∃ before closing, commands = before ++ closing ∧ closing.length ≤ 1
      ∧ (∀ command ∈ before, command.isTerminal = false)
      ∧ ∀ command ∈ closing, command.isTerminal = true := by
  rcases commands.eq_nil_or_concat with rfl | ⟨before, command, rfl⟩
  · exact ⟨[], [], rfl, Nat.zero_le 1, List.forall_mem_nil _, List.forall_mem_nil _⟩
  · rw [List.concat_eq_append] at last ⊢
    obtain ⟨-, -, hlast⟩ := List.pairwise_append.mp last
    have hbefore : ∀ other ∈ before, other.isTerminal = false := fun other hother =>
      hlast other hother command (List.mem_singleton_self _)
    cases hterminal : command.isTerminal with
    | true =>
        exact ⟨before, [command], rfl, le_rfl, hbefore, List.forall_mem_singleton.mpr hterminal⟩
    | false =>
        exact ⟨before ++ [command], [], (List.append_nil _).symm, Nat.zero_le 1,
          List.forall_mem_append.mpr ⟨hbefore, List.forall_mem_singleton.mpr hterminal⟩,
          List.forall_mem_nil _⟩

namespace Execution

variable {x x' y : Execution} {events : List Event} {turns : List (Turn Context Thread)}
  {event : Event}

/-! ### A closed execution -/

/-- What the answer to an event tells about the execution: an accepted event says whether it has
closed, and one that is refused does not close it. -/
theorem complete_step (x : Execution) (event : Event) :
    (∀ outcome, (x.step event).1 = .ok outcome →
        outcome.isComplete = (x.step event).2.complete)
      ∧ ∀ e, (x.step event).1 = .error e → (x.step event).2.complete = x.complete := by
  have refused {e : Nondeterminism} :
      (∀ outcome : StepOutcome, (.error e : Except Nondeterminism _) = .ok outcome →
        outcome.isComplete = x.counted.complete)
      ∧ ∀ e', (.error e : Except Nondeterminism StepOutcome) = .error e' →
        x.counted.complete = x.complete :=
    ⟨nofun, fun _ _ => rfl⟩
  have accepted {outcome : StepOutcome} {closed : Bool} (h : outcome.isComplete = closed) :
      (∀ outcome', (.ok outcome : Except Nondeterminism _) = .ok outcome' →
        outcome'.isComplete = closed)
      ∧ ∀ e, (.ok outcome : Except Nondeterminism StepOutcome) = .error e → closed = x.complete :=
    ⟨fun _ h' => Except.ok.inj h' ▸ h, fun _ h' => by cases h'⟩
  cases hrecord : event.isRecord <;> cases hunconfirmed : x.unconfirmed with
  | nil => ?_
  | cons command unconfirmed => ?_
  · rw [step_input hunconfirmed hrecord]
    split
    · exact accepted rfl
    · split
      · rename_i hclosed
        exact accepted hclosed.symm
      · split
        · exact refused
        · exact accepted rfl
  · rw [step_missing hunconfirmed hrecord]
    exact refused
  · rw [step_unmatched hunconfirmed hrecord]
    exact refused
  · rw [step_held hunconfirmed hrecord]
    split
    · exact accepted rfl
    · exact refused

/-- An event at a closed execution. It may be held against an unconfirmed command, and nothing else
happens, whether it is accepted or not. -/
theorem step_of_complete (hclosed : x.complete = true) (event : Event) :
    (∃ unconfirmed, (x.step event).2 = { x.counted with unconfirmed })
      ∧ ∀ outcome, (x.step event).1 = .ok outcome → outcome = ⟨[], true⟩ := by
  rcases x.admitted?_inv event with ⟨-, unconfirmed, complete, hstep, hcomplete, hnone⟩
    | ⟨_, -, -, hopen, -⟩
  · obtain rfl : complete = true := by
      rcases hcomplete with rfl | rfl
      · exact hclosed
      · rfl
    refine ⟨⟨unconfirmed, by rw [hstep, counted, hclosed]⟩, fun outcome houtcome => ?_⟩
    have hcomplete := (x.complete_step event).1 outcome houtcome
    rw [hstep] at hcomplete
    have hcommands := (hnone outcome houtcome).1
    obtain ⟨commands, isComplete⟩ := outcome
    cases hcommands
    cases hcomplete
    rfl
  · rw [hclosed] at hopen
    cases hopen

/-- What an execution may become: its host applies events to it and says whether they are recorded
history. -/
inductive Later (x : Execution) : Execution → Prop where
  | refl : Later x x
  | mode {y : Execution} (replaying : Bool) : Later x y → Later x (y.setReplaying replaying)
  | step {y : Execution} (event : Event) : Later x y → Later x (y.step event).2

/-- What stays of a closed execution: all but the count of its events, the commands that await their
records and whether events are recorded history. -/
structure Stays (x y : Execution) : Prop where
  /-- It is closed. -/
  complete : y.complete = true
  /-- Its children, futures and timers are what they were, and why it was asked to cancel. -/
  context : y.context = { x.context with replaying := y.context.replaying }
  /-- Its threads are what they were. -/
  scheduler : y.scheduler = x.scheduler
  /-- It has issued nothing. -/
  issued : y.issued = x.issued

/-- **A closed execution stays as it is**, whatever comes. -/
theorem Stays.of_later (hclosed : x.complete = true) (h : x.Later y) : x.Stays y := by
  induction h with
  | refl => exact ⟨hclosed, rfl, rfl, rfl⟩
  | mode replaying _ ih =>
      refine ⟨ih.complete, ?_, ih.scheduler, ih.issued⟩
      rw [setReplaying, ih.context]
  | @step y event _ ih =>
      obtain ⟨unconfirmed, hstep⟩ := (step_of_complete ih.complete event).1
      rw [hstep]
      exact ⟨ih.complete, ih.context, ih.scheduler, ih.issued⟩

/-! ### When an execution closes -/

/-- **An event that lets no threads run closes an execution iff it is an accepted timeout.** -/
theorem complete_of_not_admitted (h : x.admitted? event = none) :
    (x.step event).2.complete = true ↔ x.complete = true ∨ .timedOut ∈ x.accepted event := by
  cases hanswer : (x.step event).1 with
  | error e =>
      rw [(x.complete_step event).2 e hanswer, accepted, hanswer]
      simp
  | ok outcome =>
      have hstep : x.step event = (.ok outcome, (x.step event).2) := Prod.ext hanswer rfl
      rw [accepted_of_ok hstep, List.mem_singleton]
      refine ⟨fun hclosed => ?_, ?_⟩
      · cases hopen : x.complete with
        | true => exact .inl rfl
        | false => exact .inr (timedOut_of_closes h hstep hopen hclosed).symm
      · rintro (hclosed | rfl)
        · exact (Stays.of_later hclosed (.step event .refl)).complete
        · exact complete_of_admitted?_none h rfl hstep

/-- Without a request to cancel, an execution closes when it has a result. -/
theorem settle_complete (hcalm : x.context.cancelReason = none) (hopen : x.complete = false) :
    x.settle.complete = true ↔ x.context.mainResult ≠ none := by
  cases hresult : x.context.mainResult with
  | none => simp [settle, hresult, hcalm, hopen]
  | some outcome => cases outcome <;> simp [settle, hresult, hcalm]

/-- An input leaves the result of the workflow alone, and a request to cancel is not forgotten. -/
theorem calm_of_accept (haccept : x.accept event = .ok x') :
    x'.context.mainResult = x.context.mainResult
      ∧ (x'.context.cancelReason = none → x.context.cancelReason = none) := by
  rcases accept_inv haccept with ⟨-, context, happly, rfl⟩ | ⟨-, _, _, _, _, -, rfl⟩
  · refine ⟨?_, fun hcalm => ?_⟩
    · obtain ⟨_, _, _, _, _, rfl⟩ := applyInput_eq happly
      rfl
    · rw [cancelReason_applyInput happly] at hcalm
      exact (Option.or_eq_none_iff.mp hcalm).1
  · exact ⟨rfl, id⟩

/-- When and why an execution has closed, after the events that it accepted and the turns that its
threads had. -/
structure Closes (x : Execution) (events : List Event) (turns : List (Turn Context Thread)) :
    Prop where
  /-- A timeout closes it. -/
  timed : .timedOut ∈ events → x.complete = true
  /-- If none did, it issued a command that did. -/
  issued : x.complete = true →
    (∃ command ∈ x.issued, command.isTerminal = true) ∨ .timedOut ∈ events
  /-- Open and not asked to cancel, it has no result, and no turn decided on one. -/
  undecided : x.complete = false → x.context.cancelReason = none →
    x.context.mainResult = none ∧ ∀ turn ∈ turns, ¬ turn.Decides
  /-- Closed and not asked to cancel, it has a result or was timed out. -/
  decided : x.complete = true → x.context.cancelReason = none →
    (∃ turn ∈ turns, turn.Decides) ∨ .timedOut ∈ events

/-- A new execution is open. -/
theorem closes_new (info : RunInfo) (program : Program) (converter : Converter) :
    (new info program converter).Closes [] [] := by
  refine ⟨?_, ?_, ?_, ?_⟩
  · intro htimed
    cases htimed
  · intro hclosed
    cases hclosed
  · exact fun _ _ => ⟨rfl, List.forall_mem_nil _⟩
  · intro hclosed
    cases hclosed

/-- Letting the threads run gives an open execution that was not asked to cancel a result iff a turn
decides on one. -/
theorem runThreads_decides (hnone : x.context.mainResult = none) :
    x.runThreads.context.mainResult ≠ none ↔ ∃ turn ∈ x.passTurns, turn.Decides := by
  have hbefore : x.context.mainResult = none ↔
      ∀ turn ∈ ([] : List (Turn Context Thread)), ¬ turn.Returned :=
    iff_of_true hnone (List.forall_mem_nil _)
  have hpass := Scheduler.result_preserves.run (pollBound x.scheduler x.context)
    (s := x.scheduler) hbefore
  rcases x.runThreads_inv with ⟨⟨turn, hturn, hpanics⟩, failure, hrun⟩ | ⟨hcalm, hrun⟩ <;> rw [hrun]
  · exact iff_of_true (Option.some_ne_none _) ⟨turn, hturn, .inr hpanics⟩
  · refine (not_congr hpass).trans ?_
    push Not
    refine exists_congr fun turn => and_congr_right fun hturn => ?_
    exact ⟨.inl, fun hdecides => hdecides.resolve_right (hcalm turn hturn)⟩

/-- An event that lets no threads run keeps the invariant. -/
theorem Closes.step_of_not_admitted (h : x.Closes events turns) (hadmitted : x.admitted? event = none)
    {unconfirmed : List Command} {complete : Bool}
    (hstep : (x.step event).2 = { x.counted with unconfirmed, complete }) :
    (x.step event).2.Closes (events ++ x.accepted event) turns := by
  have hcloses := complete_of_not_admitted hadmitted
  rw [hstep] at hcloses ⊢
  refine ⟨?_, ?_, ?_, ?_⟩
  · intro htimed
    rcases List.mem_append.mp htimed with hbefore | hnow
    · exact hcloses.mpr (.inl (h.timed hbefore))
    · exact hcloses.mpr (.inr hnow)
  · intro hclosed
    rcases hcloses.mp hclosed with hbefore | hnow
    · exact (h.issued hbefore).imp_right (List.mem_append_left _)
    · exact .inr (List.mem_append_right _ hnow)
  · intro hstill
    refine h.undecided ?_
    by_contra hclosed
    rw [hcloses.mpr (.inl (by simpa using hclosed))] at hstill
    cases hstill
  · intro hclosed hcalm
    rcases hcloses.mp hclosed with hbefore | hnow
    · exact (h.decided hbefore hcalm).imp_right (List.mem_append_left _)
    · exact .inr (List.mem_append_right _ hnow)

/-- An event that lets the threads run keeps the invariant. -/
theorem Closes.step_of_admitted (h : x.Closes events turns) (hopen : x.complete = false)
    (haccept : x.counted.accept event = .ok y) :
    y.runThreads.settle.takeCommands.2.Closes (events ++ [event]) (turns ++ y.passTurns) := by
  obtain ⟨hissued, hcomplete, -, -⟩ := accept_issued haccept
  obtain ⟨hresult, hforgotten⟩ := calm_of_accept haccept
  obtain ⟨_, _, hrun⟩ := y.runThreads_eq
  obtain ⟨_, _, _, hsettle⟩ := y.runThreads.settle_eq
  have hopen' : y.runThreads.complete = false := by
    rw [hrun]
    exact hcomplete.trans hopen
  have hreason : y.runThreads.settle.context.cancelReason = y.runThreads.context.cancelReason := by
    rw [hsettle]
  -- Unless it was asked to cancel, it had no result before, and it has closed iff it has one now.
  have hcloses (hcalm : y.runThreads.settle.context.cancelReason = none) :
      (y.runThreads.settle.complete = true ↔ ∃ turn ∈ y.passTurns, turn.Decides)
        ∧ y.runThreads.settle.context.mainResult = y.runThreads.context.mainResult
        ∧ ∀ turn ∈ turns, ¬ turn.Decides := by
    have hcalm' := hreason.symm.trans hcalm
    obtain ⟨hnone, hturns⟩ :=
      h.undecided hopen (hforgotten (y.runThreads_moves.fixed.2.2.2.symm.trans hcalm'))
    refine ⟨(settle_complete hcalm' hopen').trans (runThreads_decides ?_), ?_, hturns⟩
    · exact hresult.trans hnone
    · rw [hsettle]
  refine ⟨?_, ?_, ?_, ?_⟩
  · intro htimed
    rcases List.mem_append.mp htimed with hbefore | hnow
    · rw [h.timed hbefore] at hopen
      cases hopen
    · exact absurd (List.mem_singleton.mp hnow).symm (ne_timedOut_of_accept haccept)
  · intro hclosed
    obtain ⟨command, hmem, hterminal⟩ := exists_terminal_of_settle hopen' hclosed
    rw [issued_takeCommands]
    exact .inl ⟨command, List.mem_append_right _ hmem, hterminal⟩
  · intro hstill hcalm
    obtain ⟨hiff, hsame, hturns⟩ := hcloses hcalm
    have hnow : ¬ ∃ turn ∈ y.passTurns, turn.Decides := by
      rw [← hiff]
      exact ne_true_of_eq_false hstill
    refine ⟨?_, List.forall_mem_append.mpr ⟨hturns, fun turn hturn hdecides => ?_⟩⟩
    · by_contra hsome
      have hclosed := (settle_complete (hreason.symm.trans hcalm) hopen').mpr (hsame ▸ hsome)
      exact ne_true_of_eq_false hstill hclosed
    · exact hnow ⟨turn, hturn, hdecides⟩
  · intro hclosed hcalm
    obtain ⟨turn, hturn, hdecides⟩ := (hcloses hcalm).1.mp hclosed
    exact .inl ⟨turn, List.mem_append_right _ hturn, hdecides⟩

/-- **Every event keeps the invariant.** -/
theorem Closes.step (h : x.Closes events turns) (event : Event) :
    (x.step event).2.Closes (events ++ x.accepted event) (turns ++ x.turns event) := by
  rcases x.admitted?_inv event with ⟨hadmitted, _, _, hstep, -⟩
    | ⟨y, hadmitted, haccept, hopen, hstep⟩
  · rw [Execution.turns, hadmitted, List.append_nil]
    exact h.step_of_not_admitted hadmitted hstep
  · rw [Execution.turns, hadmitted, accepted_of_ok hstep, hstep]
    exact h.step_of_admitted hopen haccept

end Execution

namespace Course

variable {info : RunInfo} {program : Program} {converter : Converter} {x x' : Execution}
  {events : List Event} {turns : List (Turn Context Thread)}

/-- After every course it is known when and why the execution has closed. -/
theorem closes (course : Course info program converter x events turns) : x.Closes events turns := by
  induction course with
  | new => exact Execution.closes_new info program converter
  | mode replaying _ ih => exact ⟨ih.timed, ih.issued, ih.undecided, ih.decided⟩
  | step event _ ih => exact ih.step event

/-- **An execution closes at most once and is silent afterwards.** Of what it issued only the last
command may close it, and it has closed iff one did or it was timed out. Whatever comes then is
answered with nothing and leaves the execution as it is. After an event that was accepted, an
execution that was not asked to cancel has closed iff its main thread returned, a thread panicked or
it was timed out. -/
theorem closes_once (course : Course info program converter x events turns) :
    (∃ before closing, x.issued = before ++ closing ∧ closing.length ≤ 1
        ∧ (∀ command ∈ before, command.isTerminal = false)
        ∧ ∀ command ∈ closing, command.isTerminal = true)
      ∧ (x.complete = true ↔
        (∃ command ∈ x.issued, command.isTerminal = true) ∨ .timedOut ∈ events)
      ∧ (x.complete = true → ∀ y, x.Later y → x.Stays y
        ∧ ∀ event outcome, (y.step event).1 = .ok outcome → outcome = ⟨[], true⟩)
      ∧ ∀ event outcome x', x.step event = (.ok outcome, x') →
        outcome.isComplete = x'.complete ∧ (x'.context.cancelReason = none →
          (x'.complete = true ↔ (∃ turn ∈ turns ++ x.turns event, turn.Returned)
            ∨ (∃ turn ∈ turns ++ x.turns event, turn.Panics Thread.workload)
            ∨ .timedOut ∈ events ++ [event])) := by
  have hcloses := course.closes
  refine ⟨Command.closing_last course.booked.last, ⟨hcloses.issued, ?_⟩, ?_, ?_⟩
  · rintro (⟨command, hmem, hterminal⟩ | htimed)
    · by_contra hopen
      have hnone := course.booked.isOpen (by simpa using hopen) command hmem
      exact ne_true_of_eq_false hnone hterminal
    · exact hcloses.timed htimed
  · intro hclosed y hlater
    have hstays := Execution.Stays.of_later hclosed hlater
    exact ⟨hstays, fun event => (Execution.step_of_complete hstays.complete event).2⟩
  · intro event outcome x' hstep
    refine ⟨?_, fun hcalm => ?_⟩
    · have hcomplete := (x.complete_step event).1 outcome (congrArg Prod.fst hstep)
      rwa [hstep] at hcomplete
    have hafter := (course.step_ok hstep).closes
    rw [← or_assoc, ← exists_or]
    refine ⟨fun hclosed => ?_, ?_⟩
    · refine (hafter.decided hclosed hcalm).imp_left ?_
      rintro ⟨turn, hturn, hdecides⟩
      exact ⟨turn, hdecides.imp (⟨hturn, ·⟩) (⟨hturn, ·⟩)⟩
    · rintro (⟨turn, hdecides⟩ | htimed)
      · by_contra hopen
        refine (hafter.undecided (by simpa using hopen) hcalm).2 turn ?_ ?_
        · exact hdecides.elim And.left And.left
        · exact hdecides.imp And.right And.right
      · exact hafter.timed htimed

/-- A program that returns at once. -/
def returning : Program :=
  ⟨none, [.perform (.finish "done") ⟨none, none⟩]⟩

/-- Its run closes at the start, because its main thread returned, and the end of a timer that was
never started does nothing to it any more. -/
theorem returning_closes :
    ∃ x, (Execution.new Execution.nap returning .json).step postingStart
          = (.ok ⟨[.complete "done"], true⟩, x)
      ∧ x.issued = [.complete "done"] ∧ x.complete = true ∧ x.Stays (x.step (.timerFired 7)).2
      ∧ (x.step (.timerFired 7)).1 = .ok ⟨[], true⟩
      ∧ ∃ turn ∈ (Execution.new Execution.nap returning .json).turns postingStart,
        turn.Returned ∨ turn.Panics Thread.workload := by
  have hok : ((Execution.new Execution.nap returning .json).step postingStart).1
      = .ok ⟨[.complete "done"], true⟩ :=
    Execution.eq_ok_of_toOption (by decide +kernel)
  have course : Course Execution.nap returning .json
      ((Execution.new Execution.nap returning .json).step postingStart).2 _ _ :=
    .step postingStart .new
  obtain ⟨-, -, hsilent, -⟩ := course.closes_once
  obtain ⟨-, -, -, hcloses⟩ :=
    (Course.new : Course Execution.nap returning .json _ _ _).closes_once
  obtain ⟨hcomplete, hiff⟩ := hcloses _ _ _ (Prod.ext hok rfl)
  obtain ⟨hstays, -⟩ := hsilent hcomplete.symm _ (.step (.timerFired 7) .refl)
  refine ⟨_, Prod.ext hok rfl, by decide +kernel, hcomplete.symm, hstays, ?_, ?_⟩
  · exact Execution.eq_ok_of_toOption (by decide +kernel)
  · rcases (hiff (by decide +kernel)).mp hcomplete.symm with ⟨turn, hturn, hreturned⟩
      | ⟨turn, hturn, hpanics⟩ | htimed
    · exact ⟨turn, hturn, .inl hreturned⟩
    · exact ⟨turn, hturn, .inr hpanics⟩
    · cases List.mem_singleton.mp htimed

end Course

end DurableWorkflow
