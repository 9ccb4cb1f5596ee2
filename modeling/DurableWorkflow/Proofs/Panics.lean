import DurableWorkflow.Proofs.Cancellation

/-!
# Panics

A panic of any thread becomes the result of the workflow, and an execution that was not asked to
cancel fails with it at once. One that was asked may be waiting for children, and its other threads
go on. If its main thread returns a value meanwhile, the value takes the place of the panic and
completes the execution; there is no other way in which an execution completes after a panic.

## Main definitions

* `Turn.Ends` — whether a turn was the last one of its thread.
* `Scheduler.Leads` — the main thread is the first, and it has no turn after its last.
* `Execution.Leads` — what an execution is like whose threads may have panicked.
* `Overrules` — how a returned value takes the place of a panic.

## Main results

* `Scheduler.run_of_panics` — a pass in which a thread panics ends with that.
* `Execution.Leads.step` — every event keeps the invariant.
* `Course.closes_after_panic` — how an execution closes after a panic.
-/

namespace DurableWorkflow

variable {σ τ : Type}

/-- Whether a turn was the last one of its thread, which ended or panicked. -/
def Turn.Ends (w : Workload σ τ) (turn : Turn σ τ) : Prop :=
  ∀ body, (turn.result w).1 ≠ .pending body

/-- A turn with a panic is the last one of its thread. -/
theorem Turn.Panics.ends {w : Workload σ τ} {turn : Turn σ τ} (h : turn.Panics w) :
    turn.Ends w := by
  obtain ⟨message, hmessage⟩ := h
  intro body hbody
  rw [hmessage] at hbody
  cases hbody

namespace Scheduler

variable {w : Workload σ τ} {s : Scheduler τ} {a : σ}

/-- **A pass in which a thread panics ends with that.** -/
theorem run_of_panics {polls : Nat} (h : ∃ turn ∈ turns w polls s a, turn.Panics w) :
    ∃ id message, (run w polls s a).1 = .panicked id message := by
  induction polls generalizing s a with
  | zero =>
      obtain ⟨turn, hturn, -⟩ := h
      cases hturn
  | succ polls ih =>
      rw [turns] at h
      rw [run]
      rcases hgather : gather w s a with ⟨s', a'⟩
      rw [hgather] at h
      dsimp only at h ⊢
      cases hqueue : s'.runQueue with
      | nil =>
          rw [hqueue] at h
          obtain ⟨turn, hturn, -⟩ := h
          cases hturn
      | cons id queue =>
          rw [hqueue] at h
          have hsame : get? { s' with runQueue := queue } id = s'.get? id := rfl
          simp only [hsame] at h ⊢
          cases hget : s'.get? id with
          | none =>
              rw [hget] at h
              exact ih h
          | some thread =>
              rw [hget] at h
              rcases hpoll : w.poll id thread.body a' with ⟨_ | body | message, a''⟩ <;>
                simp only [hpoll, List.exists_mem_cons_iff] at h ⊢
              · refine ih (h.resolve_left ?_)
                rintro ⟨message, hpanics⟩
                have hdone : (w.poll id thread.body a').1 = .panicked message := hpanics
                rw [hpoll] at hdone
                cases hdone
              · refine ih (h.resolve_left ?_)
                rintro ⟨message, hpanics⟩
                have hpending : (w.poll id thread.body a').1 = .panicked message := hpanics
                rw [hpoll] at hpending
                cases hpending
              · exact ⟨id, message, rfl⟩

end Scheduler

/-! ### The main thread among others that panic -/

namespace Scheduler

/-- Whether the main thread is the first one, and has no turn after its last. -/
structure Leads (log : List (Turn Context Thread)) (s : Scheduler Thread) (ctx : Context) :
    Prop where
  /-- Threads have numbers of their own. -/
  orderly : s.Orderly
  /-- The main thread is the first. -/
  first : ∀ thread ∈ s.threads, thread.body.isMain = true → thread.id = 0
  /-- No main thread is spawned. -/
  others : ∀ thread ∈ ctx.spawned, thread.isMain = false
  /-- After its last turn the main thread is gone. -/
  gone : ∀ turn ∈ log, turn.body.isMain = true → turn.Ends Thread.workload →
    ∀ thread ∈ s.threads, thread.body.isMain = false
  /-- It has no turn after its last. -/
  final : log.Pairwise fun turn later =>
    turn.body.isMain = true → turn.Ends Thread.workload → later.body.isMain = false

variable {log : List (Turn Context Thread)} {s : Scheduler Thread} {ctx : Context}
  {id : ThreadId} {queue : List ThreadId} {thread : LiveThread Thread}

/-- A thread that has its turn lives, so it is not a main thread that had its last turn. -/
theorem Leads.final_concat (h : Leads log s ctx) (hmem : thread ∈ s.threads) :
    (log ++ [(⟨id, thread.body, ctx⟩ : Turn Context Thread)]).Pairwise fun turn later =>
      turn.body.isMain = true → turn.Ends Thread.workload → later.body.isMain = false := by
  refine List.pairwise_append.mpr ⟨h.final, List.pairwise_singleton _ _, ?_⟩
  intro turn hturn later hlater hmain hends
  cases List.mem_singleton.mp hlater
  exact h.gone turn hturn hmain hends thread hmem

/-- Taking in spawned and woken threads. -/
theorem Leads.gather (h : Leads log s ctx) :
    Leads log (s.gather Thread.workload ctx).1 (s.gather Thread.workload ctx).2 := by
  refine ⟨h.orderly.gather _ _, first_gather h.first h.others, List.forall_mem_nil _, ?_, h.final⟩
  intro turn hturn hmain hends
  exact gone_gather (h.gone turn hturn hmain hends) h.others

/-- A turn after which its thread ends, or panics. -/
theorem Leads.ended (h : Leads log s ctx) (hqueue : s.runQueue = id :: queue)
    (hget : s.get? id = some thread) :
    Leads (log ++ [⟨id, thread.body, ctx⟩]) (Scheduler.finish { s with runQueue := queue } id)
      (thread.body.poll id ctx).2 := by
  obtain ⟨-, hspawned, -⟩ := thread.body.poll_main id ctx
  refine ⟨h.orderly.finish hqueue, ?_, hspawned h.others, ?_, h.final_concat (get?_eq_some hget).1⟩
  · intro other hother
    exact h.first other (List.mem_filter.mp hother).1
  · intro turn hturn hmain hends
    rcases List.mem_append.mp hturn with hold | hnew
    · intro other hother
      exact h.gone turn hold hmain hends other (List.mem_filter.mp hother).1
    · cases List.mem_singleton.mp hnew
      exact gone_finish h.first hget hmain

/-- A turn after which its thread blocks. -/
theorem Leads.pending {body : Thread} (h : Leads log s ctx) (hqueue : s.runQueue = id :: queue)
    (hget : s.get? id = some thread) (hbody : (thread.body.poll id ctx).1 = .pending body) :
    Leads (log ++ [⟨id, thread.body, ctx⟩])
      (Scheduler.block { s with runQueue := queue } id body) (thread.body.poll id ctx).2 := by
  obtain ⟨-, hspawned, hrole⟩ := thread.body.poll_main id ctx
  refine ⟨h.orderly.block hqueue body, first_block h.first hget (hrole body hbody),
    hspawned h.others, ?_, h.final_concat (get?_eq_some hget).1⟩
  intro turn hturn hmain hends
  rcases List.mem_append.mp hturn with hold | hnew
  · exact gone_block (h.gone turn hold hmain hends) hget (hrole body hbody)
  · cases List.mem_singleton.mp hnew
    exact absurd hbody (hends body)

/-- **The main thread has no turn after its last**, whichever threads end or panic. -/
theorem leads_preserves : Thread.workload.Preserves Leads where
  gather h := h.gather
  skip h hqueue hget := ⟨h.orderly.skip hqueue hget, h.first, h.others, h.gone, h.final⟩
  ended h hqueue hget _ := h.ended hqueue hget
  pending h hqueue hget hbody := h.pending hqueue hget hbody

/-- **A value is the result of the workflow only if the main thread returned it.** -/
theorem returns_preserves : Thread.workload.Preserves fun log _ ctx =>
    ∀ value, ctx.mainResult = some (.ok value) → ∃ turn ∈ log, turn.Returns value where
  gather h := h
  skip h _ _ := h
  ended := by
    intro log s ctx id queue thread h _ _ _ value hvalue
    obtain ⟨hsame, -, -⟩ := thread.body.poll_main id ctx
    by_cases hreturns : thread.body.isMain = true ∧ (thread.body.poll id ctx).1 = .done
    · obtain ⟨hmain, hdone⟩ := hreturns
      exact ⟨_, List.mem_append_right _ (List.mem_singleton_self _), hmain, hdone, hvalue⟩
    · have hother : thread.body.isMain = false ∨ (thread.body.poll id ctx).1 ≠ .done := by
        rcases Bool.eq_false_or_eq_true thread.body.isMain with hmain | hmain
        · exact .inr fun hdone => hreturns ⟨hmain, hdone⟩
        · exact .inl hmain
      obtain ⟨turn, hturn, hreturned⟩ := h value ((hsame hother).symm.trans hvalue)
      exact ⟨turn, List.mem_append_left _ hturn, hreturned⟩
  pending := by
    intro log s ctx id queue thread body h _ _ hbody value hvalue
    obtain ⟨hsame, -, -⟩ := thread.body.poll_main id ctx
    have hresult : (thread.body.poll id ctx).2.mainResult = ctx.mainResult :=
      hsame (.inr (by rw [show (thread.body.poll id ctx).1 = _ from hbody]; nofun))
    obtain ⟨turn, hturn, hreturned⟩ := h value (hresult.symm.trans hvalue)
    exact ⟨turn, List.mem_append_left _ hturn, hreturned⟩

end Scheduler

/-! ### Executions whose threads panic -/

namespace Execution

variable {x x' : Execution} {turns : List (Turn Context Thread)} {event : Event}

/-- **How letting the threads run ends.** A panic becomes the result of the workflow; without one
the context is what the pass leaves. -/
theorem runThreads_inv (x : Execution) :
    ((∃ turn ∈ x.passTurns, turn.Panics Thread.workload)
        ∧ ∃ failure, x.runThreads = { x with
          scheduler := x.pass.2.1
          context := { x.pass.2.2 with mainResult := some (.error failure) } })
      ∨ ((∀ turn ∈ x.passTurns, ¬ turn.Panics Thread.workload)
        ∧ x.runThreads = { x with scheduler := x.pass.2.1, context := x.pass.2.2 }) := by
  by_cases hpanics : ∃ turn ∈ x.passTurns, turn.Panics Thread.workload
  · obtain ⟨id, message, hpass⟩ := Scheduler.run_of_panics hpanics
    refine .inl ⟨hpanics, ?_⟩
    rw [runThreads, pass]
    rcases hrun : x.scheduler.run Thread.workload (pollBound x.scheduler x.context) x.context
      with ⟨end', scheduler, context⟩
    rw [hrun] at hpass
    obtain rfl : end' = _ := hpass
    exact ⟨_, rfl⟩
  · refine .inr ⟨fun turn hturn hpanic => hpanics ⟨turn, hturn, hpanic⟩, ?_⟩
    rw [runThreads, pass]
    rcases hrun : x.scheduler.run Thread.workload (pollBound x.scheduler x.context) x.context
      with ⟨_ | ⟨id, message⟩ | _, scheduler, context⟩
    · rfl
    · exact absurd (Scheduler.exists_panics_of_run (congrArg Prod.fst hrun)) hpanics
    · rfl

/-- An execution that failed and stays open was asked to cancel. -/
theorem cancelReason_of_settle {failure : Failure}
    (hfailed : x.context.mainResult = some (.error failure)) (hopen : x.settle.complete = false) :
    ∃ reason, x.context.cancelReason = some reason := by
  cases hreason : x.context.cancelReason with
  | some reason => exact ⟨reason, rfl⟩
  | none => simp [settle, hfailed, hreason] at hopen

/-- An execution that stays open has no value as its result. -/
theorem mainResult_of_settle (hopen : x.settle.complete = false) (value : String) :
    x.context.mainResult ≠ some (.ok value) := by
  intro hvalue
  simp [settle, hvalue] at hopen

/-- What an execution is like whose threads may have panicked: the main thread leads, an open
execution has no value as its result, and if a thread panicked it was asked to cancel. -/
structure Leads (x : Execution) (turns : List (Turn Context Thread)) : Prop where
  /-- The main thread is the first, and has no turn after its last. -/
  leads : Scheduler.Leads turns x.scheduler x.context
  /-- Before the start there are no threads, and there were none. -/
  fresh : x.started = false → x.scheduler = .empty ∧ turns = []
  /-- No value is there to complete it. -/
  isOpen : x.complete = false → ∀ value, x.context.mainResult ≠ some (.ok value)
  /-- After a panic it stays open only if it was asked to cancel. -/
  asked : x.complete = false → (∃ turn ∈ turns, turn.Panics Thread.workload) →
    ∃ reason, x.context.cancelReason = some reason

/-- A new execution has no threads. -/
theorem leads_new (info : RunInfo) (program : Program) (converter : Converter) :
    (new info program converter).Leads [] := by
  refine ⟨⟨Scheduler.orderly_empty, List.forall_mem_nil _, List.forall_mem_nil _, ?_, .nil⟩, ?_, ?_,
    ?_⟩
  · exact List.forall_mem_nil _
  · exact fun _ => ⟨rfl, rfl⟩
  · intro _ value hvalue
    cases hvalue
  · rintro _ ⟨turn, hturn, -⟩
    cases hturn

/-- Accepting an input; at the start the main thread joins as the first. -/
theorem Leads.accept (h : x.Leads turns) (hopen : x.complete = false)
    (haccept : x.counted.accept event = .ok x') : x'.Leads turns ∧ x'.started = true
      ∧ x'.context.mainResult = x.context.mainResult := by
  rcases accept_inv haccept with ⟨hstarted, context, happly, rfl⟩ | ⟨hstarted, _, _, _, _, -, rfl⟩
  · refine ⟨?_, hstarted, ?_⟩
    · obtain ⟨_, _, _, _, _, heq⟩ := applyInput_eq happly
      refine ⟨?_, h.fresh, ?_, ?_⟩
      · rw [heq]
        exact ⟨h.leads.orderly, h.leads.first, h.leads.others, h.leads.gone, h.leads.final⟩
      · rw [heq]
        exact h.isOpen
      · intro _ hpanics
        obtain ⟨reason, hreason⟩ := h.asked hopen hpanics
        exact ⟨reason, by rw [cancelReason_applyInput happly, show
          x.counted.context.cancelReason = _ from hreason]; rfl⟩
    · obtain ⟨_, _, _, _, _, rfl⟩ := applyInput_eq happly
      rfl
  · obtain ⟨hempty, rfl⟩ := h.fresh hstarted
    refine ⟨⟨⟨h.leads.orderly.spawn _, ?_, h.leads.others, List.forall_mem_nil _, .nil⟩, ?_,
      h.isOpen, h.asked⟩, rfl, rfl⟩
    · intro thread hmem _
      have hthreads : x.counted.scheduler.threads = [] := congrArg Scheduler.threads hempty
      rw [Scheduler.spawn, hthreads] at hmem
      cases List.mem_singleton.mp hmem
      exact congrArg Scheduler.nextThread hempty
    · intro hfalse
      cases hfalse

/-- **Letting threads run keeps the invariant**, up to the result of the workflow: a value is one
that the main thread returned just now and nobody panicked just now. -/
theorem Leads.runThreads (h : x.Leads turns) (hopen : x.complete = false) :
    Scheduler.Leads (turns ++ x.passTurns) x.runThreads.scheduler x.runThreads.context
      ∧ ((∃ turn ∈ x.passTurns, turn.Panics Thread.workload) →
        ∃ failure, x.runThreads.context.mainResult = some (.error failure))
      ∧ ∀ value, x.runThreads.context.mainResult = some (.ok value) →
        (∀ turn ∈ x.passTurns, ¬ turn.Panics Thread.workload)
          ∧ ∃ turn ∈ x.passTurns, turn.Returns value := by
  have hleads := Scheduler.leads_preserves.run (pollBound x.scheduler x.context) h.leads
  have hnone : ∀ value, x.context.mainResult = some (.ok value) →
      ∃ turn ∈ ([] : List (Turn Context Thread)), turn.Returns value :=
    fun value hvalue => absurd hvalue (h.isOpen hopen value)
  have hreturns := Scheduler.returns_preserves.run (pollBound x.scheduler x.context)
    (s := x.scheduler) hnone
  rcases x.runThreads_inv with ⟨-, failure, hrun⟩ | ⟨hcalm, hrun⟩ <;> rw [hrun]
  · refine ⟨?_, fun _ => ⟨failure, rfl⟩, fun value hvalue => by cases hvalue⟩
    exact ⟨hleads.orderly, hleads.first, hleads.others, hleads.gone, hleads.final⟩
  · refine ⟨hleads, ?_, fun value hvalue => ⟨hcalm, hreturns value hvalue⟩⟩
    rintro ⟨turn, hturn, hpanics⟩
    exact absurd hpanics (hcalm turn hturn)

/-- **Every event keeps the invariant**, also one after which a thread panics. -/
theorem Leads.step (h : x.Leads turns) (event : Event) :
    (x.step event).2.Leads (turns ++ x.turns event) := by
  rcases x.admitted?_inv event with ⟨hadmitted, _, complete, hstep, hcomplete, -⟩
    | ⟨x', hadmitted, haccept, hopen, hstep⟩
  · have hbefore : complete = false → x.complete = false := by
      rintro rfl
      exact (hcomplete.resolve_right nofun).symm
    rw [hstep, Execution.turns, hadmitted, List.append_nil]
    exact ⟨h.leads, h.fresh, fun hopen => h.isOpen (hbefore hopen),
      fun hopen => h.asked (hbefore hopen)⟩
  · obtain ⟨haccepted, hstarted, -⟩ := h.accept hopen haccept
    have hopen' : x'.complete = false := (accept_issued haccept).2.1.trans hopen
    obtain ⟨hleads, hfailed, -⟩ := haccepted.runThreads hopen'
    obtain ⟨_, _, hrun⟩ := x'.runThreads_eq
    obtain ⟨_, _, _, hsettle⟩ := x'.runThreads.settle_eq
    have hscheduler : x'.runThreads.settle.scheduler = x'.runThreads.scheduler := by rw [hsettle]
    have hspawned : x'.runThreads.settle.context.spawned = x'.runThreads.context.spawned := by
      rw [hsettle]
    have hresult : x'.runThreads.settle.context.mainResult = x'.runThreads.context.mainResult := by
      rw [hsettle]
    have hreason : x'.runThreads.settle.context.cancelReason = x'.context.cancelReason := by
      rw [hsettle]
      exact x'.runThreads_moves.fixed.2.2.2
    have hstarted' : x'.runThreads.settle.started = true := by
      rw [hsettle, hrun]
      exact hstarted
    rw [hstep, Execution.turns, hadmitted]
    refine ⟨⟨?_, ?_, ?_, ?_, hleads.final⟩, ?_, ?_, ?_⟩
    · rw [takeCommands, hscheduler]
      exact hleads.orderly
    · rw [takeCommands, hscheduler]
      exact hleads.first
    · rw [takeCommands, hspawned]
      exact hleads.others
    · rw [takeCommands, hscheduler]
      exact hleads.gone
    · intro hfalse
      rw [show x'.runThreads.settle.started = false from hfalse] at hstarted'
      cases hstarted'
    · intro hstill value hvalue
      exact mainResult_of_settle hstill value (hresult.symm.trans hvalue)
    · intro hstill hpanics
      obtain ⟨turn, hturn, hpanic⟩ := hpanics
      rcases List.mem_append.mp hturn with hold | hnow
      · obtain ⟨reason, hsome⟩ := haccepted.asked hopen' ⟨turn, hold, hpanic⟩
        exact ⟨reason, hreason.trans hsome⟩
      · obtain ⟨failure, hfailure⟩ := hfailed ⟨turn, hnow, hpanic⟩
        obtain ⟨reason, hsome⟩ := cancelReason_of_settle hfailure hstill
        exact ⟨reason, hreason.trans (x'.runThreads_moves.fixed.2.2.2.symm.trans hsome)⟩

/-- What settling closes an execution with. -/
theorem terminal_of_settle {command : Command}
    (hnone : ∀ command ∈ x.context.commands, command.isTerminal = false)
    (hmem : command ∈ x.settle.context.commands) (hterminal : command.isTerminal = true) :
    (∃ value, command = .complete value ∧ x.context.mainResult = some (.ok value))
      ∨ (∃ reason, command = .cancel reason ∧ x.context.cancelReason = some reason)
      ∨ ∃ failure, command = .fail failure := by
  have hnot {command : Command} (hmem : command ∈ x.context.commands
      ++ x.context.children.requestCancel.1.map fun request => .cancelChild request.1 request.2) :
      command.isTerminal = false := by
    rcases List.mem_append.mp hmem with hold | hask
    · exact hnone command hold
    · obtain ⟨request, -, rfl⟩ := List.mem_map.mp hask
      rfl
  rcases x.settle_inv with ⟨value, hvalue, hsettle⟩ | ⟨reason, hreason, -, hsettle⟩
    | ⟨_, -, -, hsettle⟩ | ⟨failure, -, hsettle⟩ | hsettle <;> rw [hsettle] at hmem
  · rcases List.mem_append.mp hmem with hold | hnew
    · simp [hnone command hold] at hterminal
    · exact .inl ⟨value, List.mem_singleton.mp hnew, hvalue⟩
  · rcases List.mem_append.mp hmem with hold | hnew
    · simp [hnot hold] at hterminal
    · exact .inr (.inl ⟨reason, List.mem_singleton.mp hnew, hreason⟩)
  · simp [hnot hmem] at hterminal
  · rcases List.mem_append.mp hmem with hold | hnew
    · simp [hnone command hold] at hterminal
    · exact .inr (.inr ⟨failure, List.mem_singleton.mp hnew⟩)
  · simp [hnone command hmem] at hterminal

/-- An execution that closes issues what it closes with. -/
theorem exists_terminal_of_settle (hopen : x.complete = false)
    (hclosed : x.settle.complete = true) :
    ∃ command ∈ x.settle.context.commands, command.isTerminal = true := by
  rcases x.settle_inv with ⟨value, -, hsettle⟩ | ⟨reason, -, -, hsettle⟩
    | ⟨_, -, -, hsettle⟩ | ⟨failure, -, hsettle⟩ | hsettle
  · rw [hsettle]
    exact ⟨.complete value, List.mem_append_right _ (List.mem_singleton_self _), rfl⟩
  · rw [hsettle]
    exact ⟨.cancel reason, List.mem_append_right _ (List.mem_singleton_self _), rfl⟩
  · rw [hsettle] at hclosed
    exact absurd hclosed (by simp [hopen])
  · rw [hsettle]
    exact ⟨.fail failure, List.mem_append_right _ (List.mem_singleton_self _), rfl⟩
  · rw [hsettle] at hclosed
    exact absurd hclosed (by simp [hopen])

end Execution

/-! ### Closing after a panic -/

/-- How a value takes the place of a panic: the panic was that of another thread in an earlier step,
the execution was asked to cancel and waits for a child, and now the main thread returns. -/
structure Overrules (x : Execution) (events : List Event) (turns now : List (Turn Context Thread))
    (value : String) : Prop where
  /-- Nobody panics in this step. -/
  earlier : ∀ turn ∈ now, ¬ turn.Panics Thread.workload
  /-- Whoever panicked before was not the main thread. -/
  others : ∀ turn ∈ turns, turn.Panics Thread.workload → turn.body.isMain = false
  /-- The execution was asked to cancel before. -/
  requested : ∃ reason, .cancelRequested reason ∈ events
  /-- It waits for a child. -/
  waiting : ∃ child ∈ x.children, child.isPending = true
  /-- The main thread returns the value in this step. -/
  returned : ∃ turn ∈ now, turn.Returns value

namespace Course

variable {info : RunInfo} {program : Program} {converter : Converter} {x x' : Execution}
  {events : List Event} {turns : List (Turn Context Thread)}

/-- After every course, whoever panicked in it. -/
theorem leads (course : Course info program converter x events turns) : x.Leads turns := by
  induction course with
  | new => exact Execution.leads_new info program converter
  | mode replaying _ ih =>
      refine ⟨?_, ih.fresh, ih.isOpen, ih.asked⟩
      exact ⟨ih.leads.orderly, ih.leads.first, ih.leads.others, ih.leads.gone, ih.leads.final⟩
  | step event _ ih => exact ih.step event

/-- **How an execution closes after a panic.** It fails, or it was asked to cancel and closes as
cancelled, or a value takes the place of the panic; and only a timeout closes it without any of
these. -/
theorem closes_after_panic (course : Course info program converter x events turns) {event : Event}
    {outcome : StepOutcome} (hstep : x.step event = (.ok outcome, x'))
    (hpanic : ∃ turn ∈ turns ++ x.turns event, turn.Panics Thread.workload) :
    (∀ command ∈ outcome.commands, command.isTerminal = true →
        (∃ failure, command = .fail failure)
        ∨ (∃ reason, command = .cancel reason ∧ .cancelRequested reason ∈ events ++ [event])
        ∨ ∃ value, command = .complete value
          ∧ Overrules x events turns (x.turns event) value)
      ∧ (x.complete = false → x'.complete = true →
        event = .timedOut ∨ ∃ command ∈ outcome.commands, command.isTerminal = true) := by
  rcases x.admitted?_inv event with ⟨hadmitted, _, _, -, -, hnone⟩
    | ⟨y, hadmitted, haccept, hopen, hrun⟩
  · rw [(hnone outcome (congrArg Prod.fst hstep)).1]
    refine ⟨List.forall_mem_nil _, fun hopen hclosed => ?_⟩
    exact .inl (Execution.timedOut_of_closes hadmitted hstep hopen hclosed)
  · rw [hrun] at hstep
    cases hstep
    obtain ⟨hissued, hcomplete, hcommands, -⟩ := Execution.accept_issued haccept
    have hopen' : y.complete = false := hcomplete.trans hopen
    have hopen'' : y.runThreads.complete = false := by
      obtain ⟨_, _, h⟩ := y.runThreads_eq
      rw [h]
      exact hopen'
    refine ⟨?_, fun _ hclosed => .inr (Execution.exists_terminal_of_settle hopen'' hclosed)⟩
    intro command hmem hterminal
    have hnone : ∀ command ∈ y.runThreads.context.commands, command.isTerminal = false := by
      obtain ⟨new, hnew, hstarts⟩ := y.runThreads_moves.commands
      rw [hnew, hcommands, show x.counted.context.commands = _ from course.booked.taken]
      intro command hmem
      have hstart := hstarts command hmem
      cases command <;> first | rfl | cases hstart
    rcases Execution.terminal_of_settle hnone hmem hterminal with ⟨value, rfl, hvalue⟩
      | ⟨reason, rfl, hreason⟩ | hfailed
    · refine .inr (.inr ⟨value, rfl, ?_⟩)
      obtain ⟨haccepted, -, -⟩ := course.leads.accept hopen haccept
      obtain ⟨hleads, -, hresult⟩ := haccepted.runThreads hopen'
      obtain ⟨hcalm, turn, hturn, hreturns⟩ := hresult value hvalue
      have hnow : x.turns event = y.passTurns := by
        rw [Execution.turns, hadmitted]
      rw [hnow] at hpanic ⊢
      obtain ⟨other, hother, hpanics⟩ := hpanic
      have hbefore : other ∈ turns := by
        rcases List.mem_append.mp hother with hold | hnew
        · exact hold
        · exact absurd hpanics (hcalm other hnew)
      obtain ⟨reason, hreason⟩ := course.leads.asked hopen ⟨other, hbefore, hpanics⟩
      have hwinds := course.cancels.windsDown hopen reason hreason
      refine ⟨hcalm, ?_, ⟨reason, ?_⟩, hwinds.pending, turn, hturn, hreturns⟩
      · intro other hother hpanics
        by_contra hmain
        have hlater := (List.pairwise_append.mp hleads.final).2.2 other hother turn hturn
          (by simpa using hmain) hpanics.ends
        rw [hreturns.main] at hlater
        cases hlater
      · exact mem_of_firstCancel? ((course.cancels.reason hopen).symm.trans hreason)
    · refine .inr (.inl ⟨reason, rfl, mem_of_firstCancel? ?_⟩)
      rw [← (course.cancels.accept hopen haccept).2, ← y.runThreads_moves.fixed.2.2.2]
      exact hreason
    · exact .inl hfailed

/-- A program that sends a letter and a parcel and returns when the parcel has ended. Another thread
of it panics when the letter has. -/
def dropping : Program :=
  let send (kind name : String) : Statement :=
    .perform (.callStart ⟨⟨kind, ["send"]⟩, ⟨some name, none, none, false⟩⟩ "send"
      (.document .null)) ⟨some name, none⟩
  let await (name : String) : Statement := .perform (.await name none) ⟨none, some "lost"⟩
  ⟨none, [send "Letter" "letter", send "Parcel" "parcel",
    .spawn [await "letter", .perform (.panic (.text "boom")) ⟨none, none⟩] none,
    await "parcel", .perform (.finish "done") ⟨none, none⟩]⟩

/-- A run of it that was asked to cancel and lost the letter. -/
def dropped : Execution :=
  (((Execution.new Execution.nap dropping .json).step
    (.executionStarted "Post" "take" "" none)).2.step (.cancelRequested "stop")).2.step
      (.childCancelled 1 "stop") |>.2

/-- It came to be with a panic. -/
theorem course_dropped : ∃ events turns, Course Execution.nap dropping .json dropped events turns
    ∧ ∃ turn ∈ turns, turn.Panics Thread.workload :=
  ⟨_, _, ((Course.new.step _).step _).step _, by decide +kernel⟩

/-- The end of the parcel completes the run. -/
theorem dropped_completes : (dropped.step (.childCancelled 2 "stop")).1
    = .ok ⟨[.complete "done"], true⟩ :=
  Execution.eq_ok_of_toOption (by decide +kernel)

/-- A run in which a thread panicked can complete. -/
theorem panic_overruled : ∃ (program : Program) (x : Execution) (events : List Event)
    (turns : List (Turn Context Thread)) (event : Event) (outcome : StepOutcome) (value : String),
    Course Execution.nap program .json x events turns
      ∧ (∃ turn ∈ turns, turn.Panics Thread.workload)
      ∧ (x.step event).1 = .ok outcome ∧ .complete value ∈ outcome.commands := by
  obtain ⟨events, turns, course, hpanic⟩ := course_dropped
  exact ⟨dropping, dropped, events, turns, .childCancelled 2 "stop", _, "done", course, hpanic,
    dropped_completes, List.mem_singleton_self _⟩

/-- The value that completes the run takes the place of the panic. -/
theorem dropped_overrules : ∃ events turns,
    Course Execution.nap dropping .json dropped events turns
      ∧ (∃ turn ∈ turns, turn.Panics Thread.workload)
      ∧ Overrules dropped events turns (dropped.turns (.childCancelled 2 "stop")) "done" := by
  obtain ⟨events, turns, course, hpanic⟩ := course_dropped
  refine ⟨events, turns, course, hpanic, ?_⟩
  obtain ⟨turn, hturn, hpanics⟩ := hpanic
  have hcloses := (course.closes_after_panic (Prod.ext dropped_completes rfl)
    ⟨turn, List.mem_append_left _ hturn, hpanics⟩).1
  rcases hcloses _ (List.mem_singleton_self _) rfl with ⟨_, hfail⟩ | ⟨_, hcancel, -⟩
    | ⟨value, hvalue, hoverrules⟩
  · cases hfail
  · cases hcancel
  · cases hvalue
    exact hoverrules

end Course

end DurableWorkflow
