import DurableWorkflow.Proofs.Courses
import DurableWorkflow.Proofs.Misses

/-!
# No wakeup is lost

Between two events an execution whose threads did not panic rests: nothing is left to be run, woken
or adopted, every live thread is blocked, and each future that its last turn polled in vain is still
unresolved and holds its waker. So no thread is left waiting for a future that was resolved,
although the scheduler drops the wakes of threads that are not blocked.

The invariant that carries this over the polls of a pass says of blocked threads only that what
their last turn arranged stands, or that they were woken. It is at the end of the pass, when all
wakes have been collected, that nobody is woken.

## Main definitions

* `Execution.Rests` — nothing is left to be run.

## Main results

* `Execution.Rests.step` — an event after which no thread panics lets an execution rest again.
* `Course.no_wakeup_lost` — no wakeup is lost.
-/

namespace DurableWorkflow

namespace Execution

variable {x x' : Execution} {log : List (Turn Context Thread)} {event : Event}

/-- Applying an input forgets nobody. -/
theorem heeds_applyInput {ctx ctx' : Context} (h : applyInput ctx event = .ok ctx') :
    ctx.Heeds ctx' := by
  simp only [applyInput] at h
  split at h
  · split at h
    · cases h
    · rename_i children ended _
      have hchildren : ctx.Heeds { ctx with children } := Context.heeds_of_eq rfl rfl
      cases ended <;> cases h
      · exact hchildren
      · exact hchildren.trans (Context.heeds_resolve _ _ _)
  · split at h
    · split at h
      · cases h
        have htimers (timers : List (Nat × FutureId)) : ctx.Heeds { ctx with timers } :=
          Context.heeds_of_eq rfl rfl
        exact (htimers _).trans (Context.heeds_resolve _ _ _)
      · cases h
    · cases h
      exact Context.heeds_of_eq rfl rfl
    · cases h

/-- Whether an execution attends to its threads: those that can run wait for it, and what the turns
of a blocked thread arranged stands, or it was woken. -/
structure Attentive (x : Execution) (log : List (Turn Context Thread)) : Prop where
  /-- Threads that can run wait in the run queue. -/
  orderly : x.scheduler.Orderly
  /-- Blocked threads are what their last turns left, and will be woken or were. -/
  attended : x.scheduler.Attended Thread.workload Thread.Arranged log x.context

/-- Whether nothing is left to be run, woken or adopted. -/
structure Rests (x : Execution) (log : List (Turn Context Thread)) : Prop
    extends x.Attentive log where
  /-- No thread can run. -/
  idle : x.scheduler.runQueue = []
  /-- No thread is woken. -/
  asleep : x.context.woken = []
  /-- No thread is spawned. -/
  adopted : x.context.spawned = []

/-- Nobody is forgotten where the threads stay as they are. -/
theorem Attentive.of_heeds (h : x.Attentive log) (hscheduler : x'.scheduler = x.scheduler)
    (hheeds : x.context.Heeds x'.context) : x'.Attentive log := by
  refine ⟨hscheduler ▸ h.orderly, ?_⟩
  intro thread hmem since hstate
  rw [hscheduler] at hmem
  obtain ⟨turn, hlast, hresult, harranged⟩ := h.attended thread hmem since hstate
  exact ⟨turn, hlast, hresult, Thread.arranged_of_heeds hheeds harranged⟩

/-- Accepting an input forgets nobody. -/
theorem Attentive.accept (h : x.Attentive log) (haccept : x.accept event = .ok x') :
    x'.Attentive log := by
  rcases accept_inv haccept with ⟨-, context, happly, rfl⟩ | ⟨-, _, _, _, _, -, rfl⟩
  · exact h.of_heeds rfl (heeds_applyInput happly)
  · exact ⟨h.orderly.spawn _, h.attended.foldl_spawn [_]⟩

/-- **After the threads were let run without a panic, nothing is left to be run.** -/
theorem Attentive.rests_runThreads (h : x.Attentive log)
    (calm : ∀ turn ∈ x.passTurns, ¬ turn.Panics Thread.workload) :
    x.runThreads.Rests (log ++ x.passTurns) := by
  have hkept := (Scheduler.attended_preserves Thread.workload_attends).run
    (pollBound x.scheduler x.context) ⟨h.orderly, h.attended⟩
  obtain ⟨hidle, hrun⟩ := runThreads_of_calm h.orderly calm
  obtain ⟨hqueue, s, a, hgather⟩ := Scheduler.run_idle hidle
  have hcontext : x.pass.2.2 = (s.gather Thread.workload a).2 := congrArg Prod.snd hgather
  rw [hrun]
  refine ⟨⟨hkept.1, hkept.2⟩, hqueue, ?_, ?_⟩
  · rw [hcontext]
    rfl
  · rw [hcontext]
    rfl

/-- A new execution has nothing to run. -/
theorem rests_new (info : RunInfo) (program : Program) (converter : Converter) :
    (new info program converter).Rests [] :=
  ⟨⟨Scheduler.orderly_empty, List.forall_mem_nil _⟩, rfl, rfl, rfl⟩

/-- Nothing is left to be run where only other things change. -/
theorem Rests.of_eq (h : x.Rests log) (hscheduler : x'.scheduler = x.scheduler)
    (hfutures : x'.context.futures = x.context.futures)
    (hwoken : x'.context.woken = x.context.woken)
    (hspawned : x'.context.spawned = x.context.spawned) : x'.Rests log :=
  ⟨h.toAttentive.of_heeds hscheduler (Context.heeds_of_eq hfutures hwoken),
    hscheduler ▸ h.idle, hwoken.trans h.asleep, hspawned.trans h.adopted⟩

/-- **An event lets an execution rest again**, unless a thread panics. -/
theorem Rests.step (h : x.Rests log) (event : Event)
    (calm : ∀ turn ∈ x.turns event, ¬ turn.Panics Thread.workload) :
    (x.step event).2.Rests (log ++ x.turns event) := by
  rcases x.admitted?_inv event with ⟨hadmitted, _, _, hstep, -, -⟩
    | ⟨x', hadmitted, haccept, -, hstep⟩
  · rw [hstep, turns, hadmitted, List.append_nil]
    exact h.of_eq rfl rfl rfl rfl
  · rw [turns, hadmitted] at calm ⊢
    rw [hstep]
    have hcounted : x.counted.Attentive log := h.toAttentive.of_heeds rfl (.refl x.context)
    have hrests := (hcounted.accept haccept).rests_runThreads calm
    obtain ⟨_, _, _, hsettle⟩ := x'.runThreads.settle_eq
    refine hrests.of_eq ?_ ?_ ?_ ?_ <;> rw [hsettle] <;> rfl

/-- What rest means for a live thread: it is blocked, and what its last turn arranged stands. -/
theorem Rests.blocked (h : x.Rests log) {thread : LiveThread Thread}
    (hmem : thread ∈ x.scheduler.threads) :
    (∃ since, thread.state = .blocked since)
      ∧ ∃ turn, lastTurn? log thread.id = some turn
        ∧ (turn.result Thread.workload).1 = .pending thread.body
        ∧ Thread.Arranged turn x.context := by
  obtain ⟨since, hstate⟩ := h.orderly.blocked h.idle hmem
  obtain ⟨turn, hlast, hresult, harranged⟩ := h.attended thread hmem since hstate
  refine ⟨⟨since, hstate⟩, turn, hlast, hresult, harranged.resolve_right ?_⟩
  intro hwoken
  have hnone : turn.thread ∈ x.context.woken := hwoken
  rw [h.asleep] at hnone
  cases hnone

end Execution

namespace Course

variable {info : RunInfo} {program : Program} {converter : Converter} {x x' : Execution}
  {events : List Event} {turns : List (Turn Context Thread)}

/-- An execution rests after every course in which no thread panicked. -/
theorem rests (course : Course info program converter x events turns)
    (calm : ∀ turn ∈ turns, ¬ turn.Panics Thread.workload) : x.Rests turns := by
  refine course.of_calm (Execution.rests_new info program converter) ?_ ?_ calm
  · intro x turns replaying hrests
    exact hrests.of_eq rfl rfl rfl rfl
  · intro x turns event hrests hcalm
    exact hrests.step event hcalm

/-- **No wakeup is lost.** Whatever happened to an execution, if no thread ever panicked then after
an accepted event nothing is left to be run, woken, adopted or taken. Every live thread is blocked
and is what its last turn left. Every future that this turn polled in vain is unresolved and holds
the waker of the thread. Among these are all that the thread waits for, so no thread is left waiting
for a future that was resolved; and none that only let the others run is left waiting. -/
theorem no_wakeup_lost (course : Course info program converter x events turns) {event : Event}
    {outcome : StepOutcome} (hstep : x.step event = (.ok outcome, x'))
    (calm : ∀ turn ∈ turns ++ x.turns event, ¬ turn.Panics Thread.workload) :
    x'.scheduler.runQueue = [] ∧ x'.context.woken = [] ∧ x'.context.spawned = []
      ∧ x'.context.commands = []
      ∧ ∀ thread ∈ x'.scheduler.threads, (∃ since, thread.state = .blocked since)
        ∧ (∃ turn, lastTurn? (turns ++ x.turns event) thread.id = some turn
          ∧ (turn.result Thread.workload).1 = .pending thread.body
          ∧ ∀ future ∈ turn.body.misses turn.thread turn.state,
            x'.context.Awaits future (.thread thread.id))
        ∧ ∀ wait binding, thread.body.waiting = some (wait, binding) → wait ≠ .turn
          ∧ ∀ future ∈ wait.awaited, x'.context.Awaits future (.thread thread.id)
            ∧ x'.context.futures.isResolved future = false := by
  have hlater : Course info program converter x' (events ++ x.accepted event)
      (turns ++ x.turns event) := by
    have hcourse := course.step event
    rwa [hstep] at hcourse
  have hrests := hlater.rests calm
  refine ⟨hrests.idle, hrests.asleep, hrests.adopted, hlater.booked.taken, ?_⟩
  intro thread hmem
  obtain ⟨hblocked, turn, hlast, hresult, harranged⟩ := hrests.blocked hmem
  have hawaits : ∀ future ∈ turn.body.misses turn.thread turn.state,
      x'.context.Awaits future (.thread thread.id) := by
    rw [← (lastTurn?_eq_some hlast).2]
    exact harranged.awaits
  refine ⟨hblocked, ⟨turn, hlast, hresult, hawaits⟩, fun wait binding hwaiting => ⟨?_, ?_⟩⟩
  · rintro rfl
    exact harranged.waits hresult hwaiting
  · intro future hfuture
    have hmissed := hawaits future (Thread.awaited_subset_misses hresult hwaiting hfuture)
    exact ⟨hmissed, hmissed.not_isResolved⟩

/-- A program whose second thread sleeps while the first waits for it. -/
def dozing : Program :=
  ⟨none, [.spawn [.perform (.sleep ⟨5000000⟩) ⟨none, none⟩] (some "doze"),
    .perform (.await "doze" none) ⟨none, none⟩]⟩

/-- Once it has started, both of its threads are blocked, and each waits for a future that is
unresolved and holds its waker. -/
theorem dozing_waits :
    ∃ x', (Execution.new Execution.nap dozing .json).step (.executionStarted "Nap" "take" "" none)
        = (.ok ⟨[.startTimer 1 5], false⟩, x')
      ∧ x'.scheduler.liveThreads = 2 ∧ x'.scheduler.runQueue = []
      ∧ ∀ thread ∈ x'.scheduler.threads, ∀ wait binding,
        thread.body.waiting = some (wait, binding) → wait ≠ .turn
          ∧ ∀ future ∈ wait.awaited, x'.context.Awaits future (.thread thread.id)
            ∧ x'.context.futures.isResolved future = false := by
  have hok : ((Execution.new Execution.nap dozing .json).step
      (.executionStarted "Nap" "take" "" none)).1 = .ok ⟨[.startTimer 1 5], false⟩ :=
    Execution.eq_ok_of_toOption (by decide +kernel)
  have calm : ∀ turn ∈ [] ++ (Execution.new Execution.nap dozing .json).turns
      (.executionStarted "Nap" "take" "" none), ¬ turn.Panics Thread.workload := by
    decide +kernel
  have hrests := no_wakeup_lost .new (Prod.ext hok rfl) calm
  refine ⟨_, Prod.ext hok rfl, by decide +kernel, hrests.1, ?_⟩
  intro thread hmem
  exact (hrests.2.2.2.2 thread hmem).2.2

end Course

end DurableWorkflow
