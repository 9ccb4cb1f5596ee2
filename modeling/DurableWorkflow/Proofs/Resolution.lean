import DurableWorkflow.Proofs.Panics
import DurableWorkflow.Proofs.Sources

/-!
# How futures are resolved

After every course of an execution the futures that there are were yielded by turns, each once and
for one thing. The future of a child has an outcome exactly when the child has ended, and that is
its result; a timer is armed as long as its future has no outcome. An outcome stays, and everybody
who waits for the future observes it.

## Main definitions

* `Scheduler.Sourced` — the futures that threads hold and look at are those that turns yielded.
* `Child.Concluded` — how a child ended, by the events that were accepted.
* `Execution.OneSource` — futures belong to one thing each.
* `Execution.Onward` — what may become of an execution.
* `Turn.Observes` — whoever waits for a future in a turn observes an outcome.

## Main results

* `Scheduler.sourced_preserves` — a scheduling pass keeps the futures right.
* `Course.sourced` — they are right after every course.
* `Course.futures_resolve_once` — futures have one source and at most one outcome, for good.
-/

namespace DurableWorkflow

/-! ### Threads that were spawned -/

/-- An operation spawns a thread exactly if it yields the future of one. -/
theorem Op.spawned_run (op : Op) (ctx : Context) :
    (op.run ctx).spawned.filterMap Thread.future?
      = ctx.spawned.filterMap Thread.future?
        ++ (op.yielded? ctx).toList.filterMap FutureRef.thread? := by
  cases op with
  | spawn bindings steps => exact List.filterMap_append
  | failedFuture failure =>
      obtain ⟨futures, woken, heq⟩ := ctx.failedFuture_eq failure
      rw [run, heq]
      exact (List.append_nil _).symm
  | wake waker =>
      obtain ⟨woken, heq⟩ := ctx.wake_eq waker
      rw [run, heq]
      exact (List.append_nil _).symm
  | abandon future =>
      rw [run, Context.abandon]
      split <;> exact (List.append_nil _).symm
  | startTimer | startChild | poll | note => exact (List.append_nil _).symm

/-- So do several. -/
theorem Op.spawned_foldl (ops : List Op) (ctx : Context) :
    (ops.foldl run ctx).spawned.filterMap Thread.future?
      = ctx.spawned.filterMap Thread.future?
        ++ (yields ctx ops).filterMap FutureRef.thread? := by
  induction ops generalizing ctx with
  | nil => exact (List.append_nil _).symm
  | cons op ops ih =>
      rw [List.foldl_cons, ih, op.spawned_run, yields, List.filterMap_append, List.append_assoc]

/-- A turn spawns the threads of which it yields the futures. -/
theorem Turn.spawned (turn : Turn Context Thread) :
    (turn.result Thread.workload).2.spawned.filterMap Thread.future?
      = turn.state.spawned.filterMap Thread.future? ++ turn.yields.filterMap FutureRef.thread? := by
  have hops := Op.spawned_foldl turn.ops turn.state
  rcases turn.result_eq with heq | ⟨outcome, heq⟩ <;> rw [heq]
  · exact hops
  · obtain ⟨_, _, _, hend⟩ :=
      (turn.ops.foldl Op.run turn.state).conclude_eq turn.body.role outcome
    rw [hend]
    exact hops

/-- A thread that is not done keeps its future. -/
theorem Turn.future?_of_pending {turn : Turn Context Thread} {body : Thread}
    (h : (turn.result Thread.workload).1 = .pending body) : body.future? = turn.body.future? := by
  have hpoll : (turn.body.poll turn.thread turn.state).1 = .pending body := h
  obtain ⟨-, ⟨_, hdone⟩ | ⟨_, hpanicked⟩ | ⟨after, hpending, hrole, -⟩⟩ :=
    Thread.poll_traces turn.thread turn.state (List.Subset.refl turn.body.refs)
  · rw [hdone] at hpoll
    cases hpoll
  · rw [hpanicked] at hpoll
    cases hpoll
  · rw [hpending] at hpoll
    cases hpoll
    rw [Thread.future?, hrole, Thread.future?]

/-! ### Passes -/

namespace Scheduler

variable {log : List (Turn Context Thread)} {s : Scheduler Thread} {ctx : Context}
  {issued : List Command} {id : ThreadId} {queue : List ThreadId} {thread : LiveThread Thread}

/-- What futures have to do with the turns that threads had: turns yielded them, threads hold no
others, and what turns saw of them is how they are. -/
structure Sourced (issued : List Command) (log : List (Turn Context Thread))
    (s : Scheduler Thread) (ctx : Context) : Prop where
  /-- Threads have numbers of their own. -/
  orderly : s.Orderly
  /-- The futures of the context are those that turns yielded. -/
  context : ctx.Sourced (log.flatMap Turn.yields) (issued ++ ctx.commands)
  /-- So are those that threads hold. -/
  threads : ∀ thread ∈ s.threads, thread.body.Holds (log.flatMap Turn.yields)
  /-- Each thread that was spawned resolves a future of its own. -/
  own : ((s.threads.map LiveThread.body ++ ctx.spawned).filterMap Thread.future?).Sublist
    ((log.flatMap Turn.yields).filterMap FutureRef.thread?)
  /-- An outcome that a turn saw is that of the future. -/
  sights : ∀ turn ∈ log, ∀ ref outcome, (ref, some outcome) ∈ turn.sights →
    ref ∈ log.flatMap Turn.yields ∧ ctx.futures.outcome? ref.id = some outcome

/-- What a turn leaves behind, whatever it did. -/
theorem Sourced.turn (turn : Turn Context Thread) (h : Sourced issued log s turn.state)
    (hbody : turn.body.Holds (log.flatMap Turn.yields)) :
    (turn.result Thread.workload).2.Sourced ((log ++ [turn]).flatMap Turn.yields)
        (issued ++ (turn.result Thread.workload).2.commands)
      ∧ (∀ body, (turn.result Thread.workload).1 = .pending body →
        body.Holds ((log ++ [turn]).flatMap Turn.yields))
      ∧ ∀ old ∈ log ++ [turn], ∀ ref outcome, (ref, some outcome) ∈ old.sights →
        ref ∈ (log ++ [turn]).flatMap Turn.yields
          ∧ (turn.result Thread.workload).2.futures.outcome? ref.id = some outcome := by
  obtain ⟨id, body, ctx⟩ := turn
  have hyields : (log ++ [(⟨id, body, ctx⟩ : Turn Context Thread)]).flatMap Turn.yields
      = log.flatMap Turn.yields ++ Op.yields ctx (body.ops (.thread id) ctx) := by
    rw [List.flatMap_append, List.flatMap_singleton]
    rfl
  obtain ⟨hinformed, hend⟩ := Thread.poll_traces id ctx hbody.refs
  obtain ⟨hcontext, hsights⟩ := h.context.foldl_run hinformed
  have hkeeps : ctx.futures.Keeps (body.poll id ctx).2.futures := (body.poll_moves id ctx).keeps
  have hafter : ((body.ops (.thread id) ctx).foldl Op.run ctx).futures.Keeps
      (body.poll id ctx).2.futures := by
    rcases hend with ⟨outcome, hpoll⟩ | ⟨message, hpoll⟩ | ⟨body, hpoll, -⟩ <;> rw [hpoll]
    · exact Context.Moves.keeps (.single (.conclude _ _ outcome))
    · exact .refl _
    · exact .refl _
  have hresult : Turn.result Thread.workload ⟨id, body, ctx⟩ = body.poll id ctx := rfl
  rw [hyields, hresult]
  refine ⟨?_, ?_, ?_⟩
  · rcases hend with ⟨outcome, hpoll⟩ | ⟨message, hpoll⟩ | ⟨_, hpoll, -⟩ <;> rw [hpoll]
    · have hrole (future : FutureId) (hown : body.role = .spawned future) :=
        List.mem_append_left (Op.yields ctx (body.ops (.thread id) ctx)) (hbody.role future hown)
      exact hcontext.conclude hrole outcome
    · exact hcontext
    · exact hcontext
  · intro after hpending
    rcases hend with ⟨outcome, hpoll⟩ | ⟨message, hpoll⟩ | ⟨_, hpoll, hsame, hheld⟩ <;>
      rw [hpoll] at hpending <;> cases hpending
    refine ⟨hheld, fun future hown => List.mem_append_left _ ?_⟩
    exact hbody.role future (hsame.symm.trans hown)
  · refine List.forall_mem_append.mpr ⟨?_, List.forall_mem_singleton.mpr ?_⟩
    · intro old hold ref outcome hsight
      obtain ⟨href, houtcome⟩ := h.sights old hold ref outcome hsight
      exact ⟨List.mem_append_left _ href, hkeeps ref.id outcome houtcome⟩
    · intro ref outcome hsight
      obtain ⟨href, houtcome⟩ := hsights ref outcome hsight
      exact ⟨href, hafter ref.id outcome houtcome⟩

/-- The threads that are live after spawned and woken ones were taken in. -/
theorem bodies_gather (w : Workload Context Thread) (s : Scheduler Thread) (ctx : Context) :
    (s.gather w ctx).1.threads.map LiveThread.body
      = s.threads.map LiveThread.body ++ (w.adopt ctx).1 := by
  have hspawn (bodies : List Thread) : (bodies.foldl Scheduler.spawn s).threads.map LiveThread.body
      = s.threads.map LiveThread.body ++ bodies := by
    induction bodies generalizing s with
    | nil => exact (List.append_nil _).symm
    | cons body bodies ih => simp [ih, spawn]
  rw [← hspawn]
  simp only [gather, collect, List.map_map]
  refine List.map_congr_left fun thread _ => ?_
  rw [Function.comp_apply]
  split <;> rfl

/-- Each thread has a future of its own after a turn in which one of them changed or ended. -/
theorem Sourced.own_turn (turn : Turn Context Thread) (h : Sourced issued log s turn.state)
    {threads : List (LiveThread Thread)}
    (hthreads : ((threads.map LiveThread.body).filterMap Thread.future?).Sublist
      ((s.threads.map LiveThread.body).filterMap Thread.future?)) :
    ((threads.map LiveThread.body
        ++ (turn.result Thread.workload).2.spawned).filterMap Thread.future?).Sublist
      (((log ++ [turn]).flatMap Turn.yields).filterMap FutureRef.thread?) := by
  have hown := h.own
  rw [List.filterMap_append] at hown
  rw [List.filterMap_append, turn.spawned, ← List.append_assoc, List.flatMap_append,
    List.filterMap_append, List.flatMap_singleton]
  exact ((hthreads.append_right _).trans hown).append_right _

/-- **A scheduling pass keeps the futures right.** -/
theorem sourced_preserves (issued : List Command) :
    Thread.workload.Preserves (Sourced issued) where
  gather {log s ctx} h := by
    refine ⟨h.orderly.gather _ _, h.context.of_eq rfl rfl rfl (List.nil_subset _) rfl, ?_, ?_,
      h.sights⟩
    · intro thread hthread
      rcases mem_threads_gather hthread with ⟨old, hold, -, hbody⟩ | hspawned
      · rw [← hbody]
        exact h.threads old hold
      · exact h.context.spawned thread.body hspawned
    · rw [bodies_gather]
      exact (List.append_nil _).symm ▸ h.own
  skip h hqueue hget := ⟨h.orderly.skip hqueue hget, h.context, h.threads, h.own, h.sights⟩
  ended {log s ctx id queue thread} h hqueue hget _ := by
    obtain ⟨hcontext, -, hsights⟩ := h.turn ⟨id, thread.body, ctx⟩
      (h.threads thread (get?_eq_some hget).1)
    refine ⟨h.orderly.finish hqueue, hcontext, ?_, h.own_turn ⟨id, thread.body, ctx⟩ ?_, hsights⟩
    · intro other hother
      refine (h.threads other (List.mem_filter.mp hother).1).mono ?_
      rw [List.flatMap_append]
      exact List.subset_append_left _ _
    · exact (List.filter_sublist.map _).filterMap _
  pending {log s ctx id queue thread body} h hqueue hget hbody := by
    have hsame : body.future? = thread.body.future? :=
      @Turn.future?_of_pending ⟨id, thread.body, ctx⟩ body hbody
    obtain ⟨hmem, hid⟩ := get?_eq_some hget
    obtain ⟨hcontext, hheld, hsights⟩ := h.turn ⟨id, thread.body, ctx⟩
      (h.threads thread hmem)
    refine ⟨h.orderly.block hqueue body, hcontext, ?_, h.own_turn ⟨id, thread.body, ctx⟩ ?_,
      hsights⟩
    · intro other hother
      rcases mem_threads_block hother with ⟨rfl, -⟩ | ⟨hold, -⟩
      · exact hheld body hbody
      · refine (h.threads other hold).mono ?_
        rw [List.flatMap_append]
        exact List.subset_append_left _ _
    · have hsameFutures : ((Scheduler.block { s with runQueue := queue } id body).threads.map
          LiveThread.body).filterMap Thread.future?
          = (s.threads.map LiveThread.body).filterMap Thread.future? := by
        rw [List.filterMap_map, List.filterMap_map, block, List.filterMap_map]
        refine List.filterMap_congr fun other hother => ?_
        rw [Function.comp_apply, Function.comp_apply, Function.comp_apply]
        split
        · rename_i hsameId
          rw [List.inj_on_of_nodup_map h.orderly.once hother hmem (hsameId.trans hid.symm)]
          exact hsame
        · rfl
      rw [hsameFutures]

/-- What an operation outside of turns has to keep. -/
theorem Sourced.of_keeps {issued' : List Command} {ctx' : Context} (h : Sourced issued log s ctx)
    (hcontext : ctx'.Sourced (log.flatMap Turn.yields) (issued' ++ ctx'.commands))
    (hkeeps : ctx.futures.Keeps ctx'.futures) (hspawned : ctx'.spawned = ctx.spawned) :
    Sourced issued' log s ctx' := by
  refine ⟨h.orderly, hcontext, h.threads, hspawned ▸ h.own, ?_⟩
  intro turn hturn ref outcome hsight
  obtain ⟨href, houtcome⟩ := h.sights turn hturn ref outcome hsight
  exact ⟨href, hkeeps ref.id outcome houtcome⟩

/-- A thread joins that holds no future and resolves none. -/
theorem Sourced.spawn (h : Sourced issued log s ctx) {body : Thread} (hrefs : body.refs = [])
    (hnone : body.future? = none) : Sourced issued log (s.spawn body) ctx := by
  refine ⟨h.orderly.spawn body, h.context, ?_, ?_, h.sights⟩
  · refine List.forall_mem_append.mpr ⟨h.threads, List.forall_mem_singleton.mpr ⟨?_, ?_⟩⟩
    · rw [hrefs]
      exact List.nil_subset _
    · intro id hrole
      rw [Thread.future?, hrole] at hnone
      cases hnone
  · have hown := h.own
    rw [List.filterMap_append] at hown
    simpa [Scheduler.spawn, hnone] using hown

end Scheduler

/-! ### Executions -/

/-- The main thread starts without futures, and its end resolves none. -/
theorem Program.mainThread_refs (program : Program) (converter : Converter) (input : String) :
    (program.mainThread converter input).refs = []
      ∧ (program.mainThread converter input).future? = none := by
  rw [mainThread]
  split
  · exact ⟨rfl, rfl⟩
  · split <;> exact ⟨rfl, rfl⟩

namespace Execution

variable {x x' y : Execution} {turns later : List (Turn Context Thread)} {events : List Event}
  {event : Event}

/-- Accepting an input keeps the futures right. -/
theorem sourced_accept (once : (x.issued.filterMap Command.introduces?).Nodup)
    (taken : x.context.commands = []) (petitioned : x.context.Petitioned x.issued)
    (follows : x.context.Follows events x.issued)
    (h : Scheduler.Sourced x.issued turns x.scheduler x.context)
    (haccept : x.counted.accept event = .ok x') :
    Scheduler.Sourced x.issued turns x'.scheduler x'.context := by
  rcases accept_inv haccept with ⟨-, context, happly, rfl⟩ | ⟨-, _, _, input, _, -, rfl⟩
  · obtain ⟨_, _, _, _, _, heq⟩ := applyInput_eq happly
    have hspawned : context.spawned = x.context.spawned := by
      rw [heq]
      rfl
    have hcommands : context.commands = [] := by
      rw [heq]
      exact taken
    have hbefore := h.context
    rw [taken, List.append_nil] at hbefore
    have hafter := hbefore.applyInput once petitioned follows happly
    refine h.of_keeps ?_ (keeps_applyInput happly) hspawned
    rw [hcommands, List.append_nil]
    exact hafter
  · obtain ⟨hrefs, hnone⟩ := x.program.mainThread_refs x.context.converter input
    exact h.spawn hrefs hnone

/-- So does letting the threads run, and a panic. -/
theorem sourced_runThreads (h : Scheduler.Sourced x.issued turns x.scheduler x.context) :
    Scheduler.Sourced x.issued (turns ++ x.passTurns) x.runThreads.scheduler
      x.runThreads.context := by
  have hpass := (Scheduler.sourced_preserves x.issued).run (pollBound x.scheduler x.context) h
  rcases x.runThreads_inv with ⟨-, failure, hrun⟩ | ⟨-, hrun⟩ <;> rw [hrun]
  · exact hpass.of_keeps (hpass.context.of_eq rfl rfl rfl (List.Subset.refl _) rfl) (.refl _) rfl
  · exact hpass

/-- So does settling. -/
theorem sourced_settle {issued : List Command}
    (h : Scheduler.Sourced issued turns x.scheduler x.context) :
    Scheduler.Sourced issued turns x.settle.scheduler x.settle.context := by
  obtain ⟨extra, hcommands, hnone, -, -⟩ := x.settle_commands
  obtain ⟨_, _, _, heq⟩ := x.settle_eq
  have hscheduler : x.settle.scheduler = x.scheduler := by rw [heq]
  have hfutures : x.settle.context.futures = x.context.futures := by rw [heq]
  have htimers : x.settle.context.timers = x.context.timers := by rw [heq]
  have hspawned : x.settle.context.spawned = x.context.spawned := by rw [heq]
  have horders : extra.filterMap Command.kind? = [] := by
    refine List.filterMap_eq_nil_iff.mpr fun command hmem => ?_
    have hquiet := hnone command hmem
    cases command <;> first | rfl | cases hquiet
  rw [hscheduler]
  refine h.of_keeps (h.context.stay ?_ ?_ ?_ x.alike_settle htimers ?_) ?_ hspawned
  · rw [hfutures]
  · rw [hfutures]
    exact fun _ _ _ => rfl
  · rw [hcommands, ← List.append_assoc, List.filterMap_append, horders, List.append_nil]
  · rw [hspawned]
    exact List.Subset.refl _
  · rw [hfutures]
    exact .refl _

/-- **Every event keeps the futures right.** -/
theorem sourced_step (booked : x.Booked) (petitioned : x.context.Petitioned x.issued)
    (follows : x.complete = false → x.context.Follows events x.issued)
    (h : Scheduler.Sourced x.issued turns x.scheduler x.context) (event : Event) :
    Scheduler.Sourced (x.step event).2.issued (turns ++ x.turns event) (x.step event).2.scheduler
      (x.step event).2.context := by
  rcases x.admitted?_inv event with ⟨hadmitted, _, _, hstep, -, -⟩
    | ⟨x', hadmitted, haccept, hopen, hstep⟩ <;> rw [hstep, Execution.turns, hadmitted]
  · rw [List.append_nil]
    exact h
  · have once : (x.issued.filterMap Command.introduces?).Nodup :=
      booked.numbers ▸ List.nodup_range'
    have hissued : x'.issued = x.issued := (accept_issued haccept).1
    have haccepted := sourced_accept once booked.taken petitioned (follows hopen) h haccept
    rw [← hissued] at haccepted
    have hsettled := sourced_settle (sourced_runThreads haccepted)
    rw [issued_takeCommands]
    refine hsettled.of_keeps ?_ (.refl _) rfl
    refine hsettled.context.of_eq rfl rfl rfl (List.Subset.refl _) ?_
    have htaken : x'.runThreads.settle.takeCommands.2.context.commands = [] := rfl
    rw [htaken, List.append_nil]

end Execution

/-- Futures are right after every course. -/
theorem Course.sourced {info : RunInfo} {program : Program} {converter : Converter} {x : Execution}
    {events : List Event} {turns : List (Turn Context Thread)}
    (course : Course info program converter x events turns) :
    Scheduler.Sourced x.issued turns x.scheduler x.context := by
  induction course with
  | new =>
      refine ⟨Scheduler.orderly_empty, ⟨rfl, rfl, rfl, List.forall_mem_nil _, ?_,
        List.forall_mem_nil _⟩, List.forall_mem_nil _, List.Sublist.refl _, List.forall_mem_nil _⟩
      intro seq id
      simp [Execution.new, Context.new]
  | mode replaying _ ih =>
      exact ih.of_keeps (ih.context.of_eq rfl rfl rfl (List.Subset.refl _) rfl) (.refl _) rfl
  | @step x events turns event course ih =>
      obtain ⟨applied, -, hsame, hfollows⟩ := course.follows
      have hopenFollows (hopen : x.complete = false) : x.context.Follows events x.issued :=
        hsame hopen ▸ hfollows
      exact Execution.sourced_step course.booked course.petitioned hopenFollows ih event

/-! ### How children end -/

namespace Child

/-- How a child ended, by the events that were accepted. -/
structure Concluded (child : Child) (events : List Event) : Prop where
  /-- It has a result exactly if it has ended. -/
  ended : child.result.isSome = child.state.isTerminal
  /-- The result of one that completed is the value with which it did. -/
  completed : child.state = .completed → ∃ value, .childCompleted child.seq value ∈ events
    ∧ child.result = some (.ok value)
  /-- That of one that failed, or could not be started, is a failure with the cause, in its name. -/
  failed : child.state = .failed → ∃ cause,
    (.childFailed child.seq cause ∈ events ∨ .childStartFailed child.seq cause ∈ events)
      ∧ child.result = some (.error (.childFailure child.workflowType child.workflowId cause))
  /-- That of one that was cancelled is a cancellation with the reason, in its name. -/
  cancelled : child.state = .cancelled → ∃ reason, .childCancelled child.seq reason ∈ events
    ∧ child.result = some (.error (.childCancelled child.workflowType child.workflowId reason))
  /-- That of one that ran out of time says so, in its name. -/
  timedOut : child.state = .timedOut → .childTimedOut child.seq ∈ events
    ∧ child.result = some (.error (.childTimeout child.workflowType child.workflowId))

/-- A child that is what was heard of it ended as the events say. -/
theorem Follows.concluded {child : Child} {events : List Event}
    (h : child.Follows (told child.seq events)) : child.Concluded events := by
  obtain ⟨-, hstate, -, hresult⟩ := h
  cases hlast : (told child.seq events).getLast? with
  | none =>
      rw [hlast] at hstate hresult
      have hstarting : child.state = .starting := hstate
      have hnone : child.result = none := hresult
      refine ⟨by rw [hnone, hstarting]; rfl, ?_, ?_, ?_, ?_⟩ <;> intro hended <;>
        rw [hstarting] at hended <;> cases hended
  | some transition =>
      obtain ⟨event, hevent, hnews⟩ := mem_told (List.mem_of_getLast? hlast)
      rw [hlast] at hstate hresult
      have hstate' : child.state = transition.state := hstate
      have hresult' : child.result = (child.ending transition).map Prod.snd := hresult
      refine ⟨?_, ?_, ?_, ?_, ?_⟩
      · rw [hresult', hstate']
        cases transition <;> rfl
      all_goals
        intro hended
        rw [hstate'] at hended
        rw [hresult']
        cases transition <;> cases hended
      · cases event <;> cases hnews
        exact ⟨_, hevent, rfl⟩
      · cases event <;> cases hnews
        exact ⟨_, .inr hevent, rfl⟩
      · cases event <;> cases hnews
        exact ⟨_, .inl hevent, rfl⟩
      · cases event <;> cases hnews
        exact ⟨_, hevent, rfl⟩
      · cases event <;> cases hnews
        exact ⟨hevent, rfl⟩

/-- Later events do not matter. -/
theorem Concluded.mono {child : Child} {events events' : List Event}
    (h : child.Concluded events) (hsubset : events ⊆ events') : child.Concluded events' := by
  refine ⟨h.ended, fun hstate => ?_, fun hstate => ?_, fun hstate => ?_, fun hstate => ?_⟩
  · obtain ⟨value, hevent, hresult⟩ := h.completed hstate
    exact ⟨value, hsubset hevent, hresult⟩
  · obtain ⟨cause, hevent, hresult⟩ := h.failed hstate
    exact ⟨cause, hevent.imp (fun h => hsubset h) (fun h => hsubset h), hresult⟩
  · obtain ⟨reason, hevent, hresult⟩ := h.cancelled hstate
    exact ⟨reason, hsubset hevent, hresult⟩
  · exact ⟨hsubset (h.timedOut hstate).1, (h.timedOut hstate).2⟩

end Child

/-! ### What becomes of an execution -/

/-- What may become of an execution, with the turns that its threads have on the way. -/
inductive Execution.Onward (x : Execution) : List (Turn Context Thread) → Execution → Prop
  | here : x.Onward [] x
  | mode {later : List (Turn Context Thread)} {y : Execution} (replaying : Bool) :
      x.Onward later y → x.Onward later (y.setReplaying replaying)
  | step {later : List (Turn Context Thread)} {y : Execution} (event : Event) :
      x.Onward later y → x.Onward (later ++ y.turns event) (y.step event).2

/-- Whether everybody who waits for a future in a turn observes an outcome. -/
structure Turn.Observes (turn : Turn Context Thread) (future : FutureId) (outcome : Outcome) :
    Prop where
  /-- Whoever looks at the future in the turn sees the outcome. -/
  sights : ∀ sight ∈ turn.sights, sight.1.id = future → sight.2 = some outcome
  /-- Awaiting the future at any point of the turn would yield the outcome. -/
  awaits : ∀ ops, ops <+: turn.ops → ∀ kind type waker,
    ((Wait.future ⟨future, kind⟩ type).attempt waker (ops.foldl Op.run turn.state)).1
      = .reply ((ops.foldl Op.run turn.state).replyOf type outcome)

/-- A turn in which the future has an outcome already. -/
theorem Turn.observes_of_outcome? {turn : Turn Context Thread} {future : FutureId}
    {outcome : Outcome} (h : turn.state.futures.outcome? future = some outcome) :
    turn.Observes future outcome := by
  refine ⟨?_, ?_⟩
  · rintro sight hsight rfl
    exact Op.sights_of_keeps (.refl _) hsight h
  · intro ops _ kind type waker
    have hkept := Op.keeps_foldl ops turn.state future outcome h
    have hpoll : (ops.foldl Op.run turn.state).pollFuture future waker
        = (some outcome, ops.foldl Op.run turn.state) := by
      rw [Context.pollFuture, FutureTable.poll_of_outcome? hkept]
    simp only [Wait.attempt, hpoll]

/-- **An outcome stays**, and all later turns observe it. -/
theorem Execution.Onward.observes {x y : Execution} {later : List (Turn Context Thread)}
    (h : x.Onward later y) {future : FutureId} {outcome : Outcome}
    (houtcome : x.context.futures.outcome? future = some outcome) :
    y.context.futures.outcome? future = some outcome
      ∧ ∀ turn ∈ later, turn.Observes future outcome := by
  induction h with
  | here => exact ⟨houtcome, List.forall_mem_nil _⟩
  | mode replaying _ ih => exact ih
  | @step later y event _ ih =>
      refine ⟨y.keeps_step event future outcome ih.1, ?_⟩
      refine List.forall_mem_append.mpr ⟨ih.2, fun turn hturn => Turn.observes_of_outcome? ?_⟩
      exact Execution.outcome?_of_turn hturn ih.1

/-! ### Futures of a course -/

/-- Whether every future belongs to one child, timer, thread or failure, and has an outcome if that
has ended. -/
structure Execution.OneSource (x : Execution) (events : List Event) (yielded : List FutureRef) :
    Prop where
  /-- No two futures that were yielded are the same. -/
  distinct : (yielded.map FutureRef.id).Nodup
  /-- There are no other futures. -/
  exist : ∀ id, (∃ slot, x.context.futures.slot? id = some slot) ↔ id ∈ yielded.map FutureRef.id
  /-- Children have the futures that were yielded for them. -/
  children : x.children.map Child.ref = yielded.filter fun ref => ref.kind.isChild
  /-- So have the threads that were spawned, each its own. -/
  threads : (x.scheduler.threads.filterMap fun thread => thread.body.future?).Sublist
    (yielded.filterMap FutureRef.thread?)
  /-- Every command that starts a child or timer has one future. -/
  orders : (yielded.filter fun ref => ref.kind.isOrdered).map FutureRef.kind
    = x.issued.filterMap Command.kind?
  /-- No two of these commands are for the same child or timer. -/
  once : (x.issued.filterMap Command.kind?).Nodup
  /-- A timer is armed as long as its future has no outcome. -/
  timers : ∀ seq id, (seq, id) ∈ x.context.timers
    ↔ ⟨id, .timer seq⟩ ∈ yielded ∧ x.context.futures.outcome? id = none
  /-- The outcome of the future of a child is its result, and says how it ended. -/
  outcomes : ∀ child ∈ x.children, x.context.futures.outcome? child.future = child.result
    ∧ child.Concluded events

namespace Course

variable {info : RunInfo} {program : Program} {converter : Converter} {x : Execution}
  {events : List Event} {turns : List (Turn Context Thread)}

/-- **Futures are resolved once and belong to one source.** After every course each future belongs
to one child, timer, thread or failure; it has an outcome if that has ended, which is the only one
that anybody saw so far, and in whatever becomes of the execution it stays what everybody
observes. -/
theorem futures_resolve_once (course : Course info program converter x events turns) :
    x.OneSource events (turns.flatMap Turn.yields)
      ∧ (∀ turn ∈ turns, ∀ ref outcome, (ref, some outcome) ∈ turn.sights →
        ref ∈ turns.flatMap Turn.yields ∧ x.context.futures.outcome? ref.id = some outcome)
      ∧ ∀ later y, x.Onward later y → ∀ future outcome,
        x.context.futures.outcome? future = some outcome →
          y.context.futures.outcome? future = some outcome
            ∧ ∀ turn ∈ later, turn.Observes future outcome := by
  have hsourced := course.sourced
  have hcontext := hsourced.context
  rw [course.booked.taken, List.append_nil] at hcontext
  obtain ⟨applied, hprefix, -, hfollows⟩ := course.follows
  refine ⟨?_, hsourced.sights, fun later y honward future outcome houtcome =>
    honward.observes houtcome⟩
  refine ⟨?_, ?_, hcontext.children, ?_, hcontext.orders, ?_, hcontext.timers, ?_⟩
  · rw [hcontext.ids]
    exact List.nodup_range'
  · intro id
    rw [FutureTable.slot?_isSome, hcontext.ids, List.mem_range'_1]
    omega
  · have hown := hsourced.own
    rw [List.filterMap_append, List.filterMap_map] at hown
    exact (List.sublist_append_left _ _).trans hown
  · exact Command.nodup_kinds (course.booked.numbers ▸ List.nodup_range')
  · intro child hchild
    refine ⟨hcontext.results child hchild, ?_⟩
    exact (hfollows.follows child hchild).concluded.mono hprefix.subset

/-- A run that has sent a letter and a parcel, and heard that the letter was read. -/
def answered : Execution :=
  (posted.step (.childCompleted 1 "read")).2

/-- The answer is there for good, for everybody who waits for it. -/
theorem answered_observes :
    (∃ events yielded, answered.OneSource events yielded)
      ∧ answered.context.futures.outcome? 1 = some (.ok "read")
      ∧ ∀ later y, answered.Onward later y → y.context.futures.outcome? 1 = some (.ok "read")
        ∧ ∀ turn ∈ later, turn.Observes 1 (.ok "read") := by
  have course : Course Execution.nap posting .json answered _ _ :=
    .step (.childCompleted 1 "read") (.step postingStart .new)
  have houtcome : answered.context.futures.outcome? 1 = some (.ok "read") := by
    decide +kernel
  obtain ⟨hsource, -, hlater⟩ := course.futures_resolve_once
  exact ⟨⟨_, _, hsource⟩, houtcome,
    fun later y honward => hlater later y honward 1 (.ok "read") houtcome⟩

end Course

end DurableWorkflow
