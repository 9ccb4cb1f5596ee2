import DurableWorkflow.Proofs.Replay
import DurableWorkflow.Worker

/-!
# Log lines

Every task of a workflow executes again what the tasks before it executed, so the code in front of a
wait runs once for each later task. What it logs is dropped as long as history is being applied
again, and from the first new event on it is emitted. So a line comes out in the task that brought
the event which led to it, and in no other: over all tasks a run emits what one live execution
emits.

## Main definitions

* `logLines` — the log lines among some notes.
* `Context.Echoes` — a context in a given mode emits what a live one emits, or nothing in replay.
* `Worker.completeAll` — a worker completes the tasks of one run, one after the other.

## Main results

* `Thread.poll_echoes` — one poll emits the same lines in both modes but for those replay drops.
* `Execution.step_logLines` — so does an event.
* `Execution.applyAll_logLines` — applying recorded history emits nothing.
* `Execution.record_logLines` — what new events emit does not depend on what was emitted before.
* `Worker.completeAll_logLines` — in whatever tasks events come, each line is emitted once.
-/

namespace DurableWorkflow

/-- Whether a note is a log line. -/
def Note.isLogLine : Note → Bool
  | .log _ _ _ => true
  | .text _ | .future _ | .execution _ _ _ => false

/-- The log lines among some notes, in order. -/
def logLines (notes : List Note) : List Note :=
  notes.filter Note.isLogLine

/-- The log lines in two lists of notes, one after the other. -/
@[simp] theorem logLines_append (a b : List Note) : logLines (a ++ b) = logLines a ++ logLines b :=
  List.filter_append a b

/-! ### What leaves no notes

An overlay that puts the notes of a context in place of its notes changes nothing. So what commutes
with all overlays leaves no notes. -/

namespace Context

variable (ctx : Context)

/-- Calling a method leaves no notes. -/
theorem notes_call (stub : Stub) (method : String) (args : Json) :
    (ctx.call stub method args).2.notes = ctx.notes :=
  congrArg (fun result => result.2.notes)
    (ctx.call_overlay ⟨id, fun _ => ctx.notes, id⟩ stub method args)

/-- Calling through a method reference leaves no notes. -/
theorem notes_invoke (ref : MethodRef) (args : Json) :
    (ctx.invoke ref args).2.notes = ctx.notes :=
  congrArg (fun result => result.2.notes)
    (ctx.invoke_overlay ⟨id, fun _ => ctx.notes, id⟩ ref args)

/-- Detaching a child leaves no notes. -/
theorem notes_abandon (future : FutureRef) : (ctx.abandon future).notes = ctx.notes :=
  (congrArg Context.notes (ctx.abandon_overlay ⟨id, fun _ => ctx.notes, id⟩ future) :)

/-- Waking a thread leaves no notes. -/
theorem notes_wake (waker : Waker) : (ctx.wake waker).notes = ctx.notes :=
  (congrArg Context.notes (ctx.wake_overlay ⟨id, fun _ => ctx.notes, id⟩ waker) :)

/-- The end of a thread leaves no notes. -/
theorem notes_conclude (role : Role) (outcome : Outcome) :
    (Thread.conclude role outcome ctx).notes = ctx.notes :=
  (congrArg Context.notes (ctx.conclude_overlay ⟨id, fun _ => ctx.notes, id⟩ role outcome) :)

end Context

/-- Trying a wait leaves no notes. -/
theorem Wait.notes_attempt (waker : Waker) (ctx : Context) (wait : Wait) :
    (wait.attempt waker ctx).2.notes = ctx.notes :=
  congrArg (fun result => result.2.notes)
    (wait.attempt_overlay waker ctx ⟨id, fun _ => ctx.notes, id⟩)

/-! ### Actions -/

namespace Action

/-- The log lines that an action emits. -/
def lines (vars : Variables) (ctx : Context) : Action → List Note
  | .log level text =>
    if ctx.replaying then [] else [.log level ctx.info.workflowId (vars.expand text)]
  | _ => []

/-- An action adds the log lines that it emits to the notes. -/
theorem logLines_perform (waker : Waker) (vars : Variables) (ctx : Context) (action : Action) :
    logLines (action.perform waker vars ctx).2.notes
      = logLines ctx.notes ++ action.lines vars ctx := by
  have silent {ctx' : Context} (h : ctx'.notes = ctx.notes) :
      logLines ctx'.notes = logLines ctx.notes ++ [] := by
    rw [h, List.append_nil]
  have noted (note : Note) : logLines (ctx.note note).notes
      = logLines ctx.notes ++ logLines [note] :=
    logLines_append ctx.notes [note]
  cases action with
  | start stub method args plain =>
      have h := ctx.notes_invoke (if plain then .plain method else stub.method method)
        (vars.evaluate args)
      simp only [perform]
      split <;> rename_i hinvoke <;> rw [hinvoke] at h <;> exact silent h
  | call stub method args type =>
      exact silent ((Wait.notes_attempt waker _ _).trans (ctx.notes_call stub method _))
  | callStart stub method args => exact silent (ctx.notes_call stub method _)
  | await name type =>
      simp only [perform]
      cases vars.future? name with
      | none => exact silent rfl
      | some future => exact silent (Wait.notes_attempt waker ctx _)
  | all names | any names which =>
      simp only [perform]
      cases names.mapM vars.future? with
      | none => exact silent rfl
      | some futures => exact silent (Wait.notes_attempt waker ctx _)
  | sleep delay => exact silent (Wait.notes_attempt waker (ctx.startTimer delay).2 _)
  | abandon name =>
      simp only [perform]
      cases vars.future? name with
      | none => exact silent rfl
      | some future => exact silent (ctx.notes_abandon future)
  | inspect name =>
      simp only [perform]
      cases vars.future? name with
      | none => exact silent rfl
      | some future => exact noted _
  | observe | trace => exact noted _
  | log level text =>
      simp only [perform, lines]
      split
      · exact silent rfl
      · exact noted _
  | encode args | decode payload type =>
      simp only [perform]
      split <;> exact silent rfl
  | rethrow name =>
      simp only [perform]
      split <;> exact silent rfl
  | pause => exact silent (ctx.notes_wake waker)
  | timer | set | forever | panic | fail | failWith | finish => exact silent rfl

/-- In replay an action emits nothing, else what it emits in a live context. -/
theorem lines_under (vars : Variables) {ctx : Context} (live : ctx.replaying = false)
    (replaying : Bool) (notes : List Note) (action : Action) :
    action.lines vars (ctx.under replaying notes)
      = if replaying then [] else action.lines vars ctx := by
  cases action with
  | log level text =>
      simp only [lines, Context.under, live, Bool.false_eq_true, ite_false]
      rfl
  | _ => simp [lines]

end Action

/-! ### Contexts in both modes -/

/-- Whether a context is a live one in a given mode that emitted what the live one emitted, except
that replay drops it. Each counts its lines after those that it had emitted before. -/
structure Context.Echoes (replaying : Bool) (before before' : List Note) (c d : Context) :
    Prop where
  /-- The first context is live. -/
  live : c.replaying = false
  /-- The second is the first in the given mode, with notes of its own. -/
  eq : d = c.under replaying d.notes
  /-- Both emitted the same lines since, which replay drops. -/
  lines : ∃ lines, logLines c.notes = before ++ lines
    ∧ logLines d.notes = before' ++ if replaying then [] else lines

variable {replaying : Bool} {before before' : List Note} {c d : Context}

namespace Context

/-- A context in a given mode has emitted nothing since it came into being. -/
theorem Echoes.refl (live : c.replaying = false) (notes : List Note) :
    c.Echoes replaying (logLines c.notes) (logLines notes) (c.under replaying notes) :=
  ⟨live, rfl, [], (List.append_nil _).symm, by
    rw [ite_self, List.append_nil]
    rfl⟩

/-- What leaves no notes and does the same in both modes. -/
theorem Echoes.keep (h : c.Echoes replaying before before' d) {c' d' : Context}
    (hmode : c'.replaying = c.replaying) (hnotes : c'.notes = c.notes)
    (heq : d' = c'.under replaying d.notes) : c'.Echoes replaying before before' d' := by
  obtain ⟨live, -, hlines⟩ := h
  subst heq
  exact ⟨hmode.trans live, rfl, by rw [hnotes]; exact hlines⟩

end Context

/-- An action ends alike in both modes and emits the same lines, which replay drops. -/
theorem Action.perform_echoes (waker : Waker) (vars : Variables)
    (h : c.Echoes replaying before before' d) (action : Action) :
    (action.perform waker vars d).1 = (action.perform waker vars c).1
      ∧ (action.perform waker vars c).2.Echoes replaying before before'
          (action.perform waker vars d).2 := by
  obtain ⟨live, heq, emitted, hc, hd⟩ := h
  obtain ⟨notes, rfl⟩ : ∃ notes, d = c.under replaying notes := ⟨_, heq⟩
  obtain ⟨notes', hunder⟩ := action.perform_under waker vars c replaying notes
  have hc' := action.logLines_perform waker vars c
  have hd' := action.logLines_perform waker vars (c.under replaying notes)
  rw [hunder] at hd' ⊢
  refine ⟨rfl, (action.perform_acts waker vars c).deeds.moves.fixed.2.2.1.trans live, rfl,
    emitted ++ action.lines vars c, ?_, ?_⟩
  · rw [hc', hc, List.append_assoc]
  · rw [hd', hd, action.lines_under vars live]
    cases replaying <;> simp

namespace Thread

/-- Replay-blind statements end alike in both modes and emit the same lines, which replay drops. -/
theorem advance_echoes (waker : Waker) (vars : Variables) (steps : List Statement)
    (blind : Statement.listIsReplayBlind steps) (h : c.Echoes replaying before before' d) :
    (advance waker vars d steps).1 = (advance waker vars c steps).1
      ∧ (advance waker vars c steps).2.Echoes replaying before before'
          (advance waker vars d steps).2 := by
  have hspawn {c d : Context} (h : c.Echoes replaying before before' d) (vars : Variables)
      (steps : List Statement) {future : FutureRef} {c' : Context}
      (hc : c.spawn vars steps = (future, c')) :
      ∃ d', d.spawn vars steps = (future, d') ∧ c'.Echoes replaying before before' d' := by
    have hd : d.spawn vars steps = (future, c'.under replaying d.notes) := by
      rw [h.eq, Context.spawn_under, hc]
      rfl
    cases hc
    exact ⟨_, hd, h.keep rfl rfl rfl⟩
  have hholds {c d : Context} (h : c.Echoes replaying before before' d) (vars : Variables)
      {condition : Condition} (hne : condition ≠ .replaying) :
      condition.holds? vars d = condition.holds? vars c := by
    rw [h.eq, Condition.holds?_under hne]
  induction vars, c, steps using advance.induct waker generalizing d with
  | case1 vars c =>
      rw [advance, advance]
      exact ⟨rfl, h⟩
  | case2 vars c action binding rest progress c' hperform vars' hsettle ih =>
      obtain ⟨hprogress, h'⟩ := action.perform_echoes waker vars h
      rcases hd : action.perform waker vars d with ⟨progress', d'⟩
      rw [hperform, hd] at hprogress h'
      obtain rfl : progress' = progress := hprogress
      simp only [advance, hperform, hd, hsettle]
      exact ih (Statement.tail_blind blind) h'
  | case3 vars c action binding rest progress c' hperform halt hsettle =>
      obtain ⟨hprogress, h'⟩ := action.perform_echoes waker vars h
      rcases hd : action.perform waker vars d with ⟨progress', d'⟩
      rw [hperform, hd] at hprogress h'
      obtain rfl : progress' = progress := hprogress
      simpa only [advance, hperform, hd, hsettle, true_and] using h'
  | case4 vars c steps rest future c' hc name ih =>
      obtain ⟨d', hd, h'⟩ := hspawn h vars steps hc
      simp only [advance, hc, hd]
      exact ih (Statement.tail_blind blind) h'
  | case5 vars c steps rest future c' hc ih =>
      obtain ⟨d', hd, h'⟩ := hspawn h vars steps hc
      simp only [advance, hc, hd]
      exact ih (Statement.tail_blind blind) h'
  | case6 vars c condition yes no rest hc ih =>
      obtain ⟨⟨hne, hyes⟩, -, hrest⟩ := Statement.branch_blind blind
      simp only [advance, hholds h vars hne, hc]
      exact ih (by simp [hyes, hrest]) h
  | case7 vars c condition yes no rest hc ih =>
      obtain ⟨⟨hne, -⟩, hno, hrest⟩ := Statement.branch_blind blind
      simp only [advance, hholds h vars hne, hc]
      exact ih (by simp [hno, hrest]) h
  | case8 vars c condition yes no rest hc =>
      obtain ⟨⟨hne, -⟩, -, -⟩ := Statement.branch_blind blind
      simpa only [advance, hholds h vars hne, hc, true_and] using h
  | case9 vars c steps rest ih =>
      simp only [advance]
      exact ih (Statement.tail_blind blind) h
  | case10 vars c times steps rest ih =>
      simp only [advance]
      exact ih (Statement.loop_blind blind) h

/-- Going on with a replay-blind thread ends alike in both modes and emits the same lines, which
replay drops. -/
theorem resume_echoes (waker : Waker) (thread : Thread) (blind : thread.isReplayBlind)
    (h : c.Echoes replaying before before' d) :
    (thread.resume waker d).1 = (thread.resume waker c).1
      ∧ (thread.resume waker c).2.Echoes replaying before before' (thread.resume waker d).2 := by
  simp only [resume]
  split
  · exact advance_echoes waker _ _ blind h
  · rename_i wait binding _
    have hd : wait.attempt waker d = ((wait.attempt waker c).1,
        (wait.attempt waker c).2.under replaying d.notes) := by
      rw [h.eq, Wait.attempt_under]
      rfl
    have h' := h.keep (Wait.attempt_acts waker c wait).deeds.moves.fixed.2.2.1
      (wait.notes_attempt waker c) rfl
    rw [hd]
    dsimp only
    split
    · exact advance_echoes waker _ _ blind h'
    · exact ⟨rfl, h'⟩

/-- **A poll of a replay-blind thread ends alike in both modes and emits the same lines**, which
replay drops. -/
theorem poll_echoes (id : ThreadId) (thread : Thread) (blind : thread.isReplayBlind)
    (h : c.Echoes replaying before before' d) :
    (thread.poll id d).1 = (thread.poll id c).1
      ∧ (thread.poll id c).2.Echoes replaying before before' (thread.poll id d).2 := by
  obtain ⟨hhalt, h'⟩ := thread.resume_echoes (.thread id) blind h
  simp only [poll]
  rcases hc : thread.resume (.thread id) c with ⟨halt, c'⟩
  rcases hd : thread.resume (.thread id) d with ⟨halt', d'⟩
  rw [hc, hd] at hhalt h'
  obtain rfl : halt' = halt := hhalt
  cases halt' with
  | ended vars result =>
      dsimp only at h' ⊢
      refine ⟨rfl, h'.keep ?_ (c'.notes_conclude _ _) ?_⟩
      · obtain ⟨_, _, _, h⟩ := c'.conclude_eq thread.role (result.map fun text => text.getD "null")
        rw [h]
      · rw [← conclude_under, ← h'.eq]
  | panicked message => exact ⟨rfl, h'⟩
  | waiting vars wait binding rest => exact ⟨rfl, h'⟩

/-- Contexts that echo each other are related by all that replay-blind threads do. -/
theorem workload_relates_echoes (replaying : Bool) (before before' : List Note) :
    workload.Relates (fun thread => thread.isReplayBlind = true)
      fun c d => (∀ thread ∈ c.spawned, thread.isReplayBlind)
        ∧ c.Echoes replaying before before' d where
  adopt := by
    rintro c d ⟨hspawned, h⟩
    have hd : (workload.adopt d).2 = (workload.adopt c).2.under replaying d.notes := by
      rw [h.eq]
      rfl
    refine ⟨?_, hspawned, by simp [workload], h.keep rfl rfl hd⟩
    rw [h.eq]
    rfl
  wakes := by
    rintro c d ⟨hspawned, h⟩
    have hd : (workload.wakes d).2 = (workload.wakes c).2.under replaying d.notes := by
      rw [h.eq]
      rfl
    refine ⟨?_, hspawned, h.keep rfl rfl hd⟩
    rw [h.eq]
    rfl
  poll := by
    rintro c d id thread blind ⟨hspawned, h⟩
    obtain ⟨hpoll, h'⟩ := thread.poll_echoes id blind h
    obtain ⟨hspawned', hrest⟩ := thread.poll_blind id c blind hspawned
    exact ⟨hpoll.symm, hrest, hspawned', h'⟩

end Thread

/-! ### Executions -/

namespace Execution

variable {x y : Execution} {notes : List Note} {count : Nat} {events : List Event}
  {recording : Recording}

/-- Letting the threads run emits the same lines in both modes, which replay drops. -/
theorem runThreads_echoes (blind : x.IsBlind) {unconfirmed : List Command}
    (h : x.context.Echoes replaying before before'
      (x.recast replaying notes count unconfirmed).context) :
    x.runThreads.context.Echoes replaying before before'
      (x.recast replaying notes count unconfirmed).runThreads.context := by
  obtain ⟨hpass, -, -, -, hctx⟩ := Scheduler.run_related
    (Thread.workload_relates_echoes replaying before before') (pollBound x.scheduler x.context)
    blind.threads ⟨blind.spawned, h⟩
  have hscheduler : (x.recast replaying notes count unconfirmed).scheduler = x.scheduler := rfl
  have hbound : pollBound x.scheduler (x.recast replaying notes count unconfirmed).context
      = pollBound x.scheduler x.context := rfl
  simp only [runThreads, hscheduler, hbound]
  rcases hc : Scheduler.run Thread.workload (pollBound x.scheduler x.context) x.scheduler
    x.context with ⟨pass, scheduler, c⟩
  rcases hd : Scheduler.run Thread.workload (pollBound x.scheduler x.context) x.scheduler
    (x.recast replaying notes count unconfirmed).context with ⟨pass', scheduler', d⟩
  rw [hc, hd] at hpass
  simp only [hc, hd] at hctx
  obtain rfl : pass = pass' := hpass
  cases pass with
  | panicked thread message =>
      refine hctx.keep rfl rfl ?_
      dsimp only
      rw [hctx.eq]
      rfl
  | idle | exhausted => exact hctx

/-- **An event emits the same lines in both modes**, which replay drops. -/
theorem step_echoes (live : x.Live) (blind : x.IsBlind) (event : Event)
    (h : x.context.Echoes replaying before before' (x.recast replaying notes count []).context) :
    (x.step event).2.context.Echoes replaying before before'
      ((x.recast replaying notes count []).step event).2.context := by
  have hnone : (x.recast replaying notes count []).unconfirmed = [] := rfl
  have hcomplete : (x.recast replaying notes count []).complete = x.complete := rfl
  have hcounted : (x.recast replaying notes count []).counted
      = x.counted.recast replaying notes (count + 1) [] := rfl
  by_cases hrecord : event.isRecord = true
  · rw [step_unmatched live.unconfirmed hrecord, step_unmatched hnone hrecord]
    exact h
  · have input : event.isRecord = false := by simpa using hrecord
    rw [step_input live.unconfirmed input, step_input hnone input, hcomplete, hcounted,
      accept_recast]
    split
    · exact h
    · split
      · exact h
      · rcases haccept : x.counted.accept event with e | z
        · exact h
        · -- only the threads emit lines; what comes before and after them leaves no notes
          have haccepted : z.context.Echoes replaying before before'
              (z.recast replaying notes (count + 1) []).context := by
            rcases accept_inv haccept with ⟨-, context, happly, rfl⟩ | ⟨-, _, _, _, _, -, rfl⟩
            · obtain ⟨_, _, _, _, _, rfl⟩ := applyInput_eq happly
              exact h.keep rfl rfl rfl
            · exact h
          have hrun := runThreads_echoes (blind.counted.accept haccept) haccepted
          obtain ⟨-, notes', hrecast⟩ := runThreads_recast (blind.counted.accept haccept) replaying
            notes (count + 1) []
          rw [hrecast] at hrun
          simp only [hrecast, settle_recast, takeCommands_recast]
          obtain ⟨commands, children, complete, hsettle⟩ := z.runThreads.settle_eq
          rw [hsettle]
          exact hrun.keep rfl rfl rfl

/-- **An event emits the same lines in both modes**, wherever each of them stands, and none in
replay. -/
theorem step_logLines (live : x.Live) (blind : x.IsBlind) (event : Event) (replaying : Bool)
    (notes : List Note) (count : Nat) :
    ∃ lines, logLines (x.step event).2.context.notes = logLines x.context.notes ++ lines
      ∧ logLines ((x.recast replaying notes count []).step event).2.context.notes
        = logLines notes ++ if replaying then [] else lines :=
  (step_echoes live blind event (.refl live.replaying notes)).lines

/-- Applying what a live execution recorded emits nothing. -/
theorem applyAll_logLines (live : x.Live) (blind : x.IsBlind) (notes : List Note) (count : Nat)
    (h : x.record events = (.ok recording, y)) :
    logLines ((x.recast true notes count []).applyAll recording.delta).2.context.notes
      = logLines notes := by
  induction events generalizing x recording notes count with
  | nil =>
      cases h
      rfl
  | cons event events ih =>
      obtain ⟨outcome, x', rest, hstep, hrest, rfl⟩ := record_cons_ok h
      obtain ⟨notes', hrecast⟩ := step_recast live blind event true notes count
      obtain ⟨lines, -, hlines⟩ := step_logLines live blind event true notes count
      have live' := live.step event
      have blind' := blind.step live event
      rw [hstep] at hrecast live' blind'
      rw [hrecast] at hlines
      simp only [Recording.delta_append, Recording.ofStep, List.cons_append, applyAll, hrecast,
        ite_true, applyAll_append, applyAll_records]
      rw [ih live' blind' notes' _ hrest]
      exact hlines.trans (List.append_nil _)

/-- **What new events emit does not depend on what came before** in the notes, and nothing of that
is emitted again. -/
theorem record_logLines (live : x.Live) (blind : x.IsBlind) (notes : List Note) (count : Nat)
    (h : x.record events = (.ok recording, y)) :
    ∃ lines, logLines y.context.notes = logLines x.context.notes ++ lines
      ∧ logLines ((x.recast false notes count []).record events).2.context.notes
        = logLines notes ++ lines := by
  induction events generalizing x recording notes count with
  | nil =>
      cases h
      exact ⟨[], (List.append_nil _).symm, (List.append_nil _).symm⟩
  | cons event events ih =>
      obtain ⟨outcome, x', rest, hstep, hrest, rfl⟩ := record_cons_ok h
      obtain ⟨notes', hrecast⟩ := step_recast live blind event false notes count
      obtain ⟨now, hnow, hnow'⟩ := step_logLines live blind event false notes count
      have live' := live.step event
      have blind' := blind.step live event
      rw [hstep] at hrecast live' blind' hnow
      rw [hrecast] at hnow'
      obtain ⟨notes'', hrecord⟩ := record_recast live' blind' notes' (count + 1) hrest
      obtain ⟨later, hlater, hlater'⟩ := ih live' blind' notes' (count + 1) hrest
      rw [hrecord] at hlater'
      refine ⟨now ++ later, ?_, ?_⟩
      · rw [hlater, hnow, List.append_assoc]
      · rw [record_cons hrecast hrecord, hlater', ← List.append_assoc]
        exact congrArg (· ++ later) hnow'

/-- Replaying what a live execution recorded emits nothing. -/
theorem replayTraced_logLines {program : Program} (blind : program.isReplayBlind) {info : RunInfo}
    {converter : Converter} (h : (new info program converter).record events = (.ok recording, y)) :
    logLines (replayTraced info program converter recording.delta).2.context.notes = [] := by
  have hquiet := applyAll_logLines (live_new info program converter)
    (isBlind_new blind info converter) [] 0 h
  obtain ⟨notes, happly⟩ := applyAll_delta (live_new info program converter)
    (isBlind_new blind info converter) [] 0 h
  rw [happly] at hquiet
  cases events with
  | nil =>
      cases h
      rfl
  | cons event events =>
      obtain ⟨outcome, x', rest, -, -, rfl⟩ := record_cons_ok h
      have hnew : (new info program converter).setReplaying true
          = (new info program converter).recast true [] 0 [] := rfl
      rw [replayTraced]
      simp only [Recording.delta_append, Recording.ofStep, List.cons_append, List.isEmpty_cons,
        Bool.not_false, hnew]
      simp only [Recording.delta_append, Recording.ofStep, List.cons_append] at happly
      rw [happly]
      exact hquiet

end Execution

/-! ### Tasks and workers -/

open Execution

variable {info : RunInfo} {program : Program} {history events : List Event}
  {first rest recording : Recording} {x y : Execution}

/-- **A task emits the lines that its new events lead to**, as the live execution does there. -/
theorem Task.perform_logLines {converter : Converter} (blind : program.isReplayBlind)
    (token : String) (hfirst : (new info program converter).record history = (.ok first, x))
    (hrest : x.record events = (.ok rest, y)) :
    ∃ z, Task.perform ⟨token, info, first.delta, events⟩ program converter = (.ok rest, z)
      ∧ logLines y.context.notes = logLines x.context.notes ++ logLines z.context.notes := by
  have live := (live_new info program converter).record history
  have hblind := (isBlind_new blind info converter).record (live_new info program converter) history
  rw [hfirst] at live hblind
  obtain ⟨notes, hreplay⟩ := replayTraced_record blind hfirst
  have hquiet := replayTraced_logLines blind hfirst
  obtain ⟨notes', hrecord⟩ := record_recast live hblind notes first.delta.length hrest
  obtain ⟨lines, hlive, htask⟩ := record_logLines live hblind notes first.delta.length hrest
  rw [hreplay] at hquiet
  rw [show logLines notes = [] from hquiet, List.nil_append] at htask
  refine ⟨((x.recast false notes first.delta.length []).record events).2, ?_, ?_⟩
  · simp only [perform, hreplay, hrecord]
  · rw [htask, hlive]

/-- The piece of history that a settlement hands in first. -/
def Settlement.delta? : Settlement → Option (List Event)
  | .ask (.complete _ delta _) _ => some delta
  | _ => none

/-- Handing in a piece of history begins with that piece. -/
@[simp] theorem Settlement.delta?_acknowledge (token : String) (delta : List Event)
    (commands : List Command) (retries : Nat) :
    (acknowledge token delta commands retries).delta? = some delta := by
  cases retries <;> rfl

namespace Worker

/-- Let a worker complete the tasks of one run one after the other, given with their tokens and new
events. Each comes with the history that those before it handed in. This gives the whole history in
the end and all log lines, task after task, unless the worker does not hand in a task. -/
def completeAll (worker : Worker) (info : RunInfo) :
    List Event → List (String × List Event) → Option (List Event × List Note)
  | history, [] => some (history, [])
  | history, (token, events) :: tasks =>
    match worker.process ⟨token, info, history, events⟩ with
    | (settlement, notes) =>
      match settlement.delta? with
      | none => none
      | some delta =>
        (completeAll worker info (history ++ delta) tasks).map fun (history, lines) =>
          (history, logLines notes ++ lines)

variable {worker : Worker}

/-- Tasks that bring the events after some recorded history emit what the live execution emits from
there on. -/
theorem completeAll_of_record (blind : program.isReplayBlind)
    (registered : worker.registry.resolve info.workflowType info.method = some program)
    (tasks : List (String × List Event))
    (hfirst : (new info program worker.converter).record history = (.ok first, x))
    (hrest : x.record (tasks.flatMap Prod.snd) = (.ok rest, y)) :
    ∃ lines, worker.completeAll info first.delta tasks = some (first.delta ++ rest.delta, lines)
      ∧ logLines y.context.notes = logLines x.context.notes ++ lines := by
  induction tasks generalizing history first rest x with
  | nil =>
      cases hrest
      exact ⟨[], by simp [completeAll, Recording.empty], (List.append_nil _).symm⟩
  | cons task tasks ih =>
      obtain ⟨token, events⟩ := task
      obtain ⟨now, x', later, hnow, hlater, rfl⟩ := record_append_ok hrest
      obtain ⟨z, hperform, hlines⟩ := Task.perform_logLines blind token hfirst hnow
      obtain ⟨lines, hnext, hlines'⟩ := ih (record_append hfirst hnow) hlater
      rw [Recording.delta_append] at hnext
      refine ⟨logLines z.context.notes ++ lines, ?_, ?_⟩
      · simp only [completeAll, process, registered, hperform, submit,
          Settlement.delta?_acknowledge, hnext, Option.map_some, Recording.delta_append,
          List.append_assoc]
      · rw [hlines', hlines, List.append_assoc]

/-- **Log lines are emitted once.** If a live execution of a replay-blind program accepts some
events, then in whatever consecutive tasks these come to a worker that has the program registered,
it completes all of them, and the lines that are logged meanwhile, task after task, are those that
the one live execution logs. -/
theorem completeAll_logLines (blind : program.isReplayBlind)
    (registered : worker.registry.resolve info.workflowType info.method = some program)
    (tasks : List (String × List Event))
    (accepted : (new info program worker.converter).record (tasks.flatMap Prod.snd)
      = (.ok recording, y)) :
    worker.completeAll info [] tasks = some (recording.delta, logLines y.context.notes) := by
  obtain ⟨lines, hcomplete, hlines⟩ := completeAll_of_record blind registered tasks
    (record_nil (new info program worker.converter)) accepted
  rw [show lines = logLines y.context.notes from hlines.symm] at hcomplete
  exact hcomplete

end Worker

/-- A program that logs what it does before and after it sleeps for five milliseconds. -/
def drowsy : Program :=
  ⟨none, [.perform (.log .info "lying down") ⟨none, none⟩,
    .perform (.sleep ⟨5000000⟩) ⟨none, none⟩,
    .perform (.log .warn "getting up") ⟨none, none⟩,
    .perform (.finish "rested") ⟨none, none⟩]⟩

/-- A worker that has it registered. -/
def dormitory : Worker :=
  ⟨⟨"main", [⟨⟨"Nap", ["take"]⟩, [("take", drowsy)]⟩]⟩, .json, {}⟩

/-- The program lies down in its first task and again, without logging that, in its second. -/
theorem Worker.completeAll_drowsy :
    drowsy.isReplayBlind = true ∧ dormitory.registry.resolve "Nap" "take" = some drowsy
      ∧ dormitory.completeAll nap []
          [("task:1", [.executionStarted "Nap" "take" "" none]), ("task:2", [.timerFired 1])]
        = some (napHistory, [.log .info "nap" "lying down", .log .warn "nap" "getting up"]) := by
  have blind : drowsy.isReplayBlind = true := by decide
  have registered : dormitory.registry.resolve "Nap" "take" = some drowsy := by rfl
  have hrecord : ((new nap drowsy .json).record (inputs napHistory)).1
      = .ok ⟨napHistory, [.startTimer 1 5, .complete "rested"]⟩ :=
    eq_ok_of_toOption (by decide +kernel)
  have hlines : logLines ((new nap drowsy .json).record (inputs napHistory)).2.context.notes
      = [.log .info "nap" "lying down", .log .warn "nap" "getting up"] := by
    decide +kernel
  have accepted : (new nap drowsy dormitory.converter).record
      ([("task:1", [.executionStarted "Nap" "take" "" none]), ("task:2", [.timerFired 1])].flatMap
        Prod.snd)
      = (.ok ⟨napHistory, [.startTimer 1 5, .complete "rested"]⟩,
        ((new nap drowsy .json).record (inputs napHistory)).2) :=
    Prod.ext hrecord rfl
  refine ⟨blind, registered, ?_⟩
  rw [← hlines]
  exact Worker.completeAll_logLines blind registered _ accepted

end DurableWorkflow
