import DurableWorkflow.Proofs.Courses

/-!
# The main thread

The first thread of an execution is the main one, and threads that are spawned later are not. So the
main thread ends once, and what it returned stays the result of the workflow unless a thread panics.

## Main definitions

* `Thread.isMain` — whether the end of a thread is the result of the workflow.
* `Turn.Returns` — the main thread ended with a value.
* `Scheduler.Reports` — what the main thread returned is the result of the workflow.

## Main results

* `Thread.poll_main` — what a poll does to the result of the workflow and to who is the main thread.
* `Scheduler.reports_preserves` — the invariant is kept by a pass.
* `Course.result_of_returns` — what the main thread returned is the result of the workflow.
-/

namespace DurableWorkflow

/-- Whether the end of a thread is the result of the workflow. -/
def Thread.isMain (thread : Thread) : Bool :=
  match thread.role with
  | .main _ => true
  | .spawned _ => false

/-- Whether the main thread ended in a turn with a value. -/
structure Turn.Returns (turn : Turn Context Thread) (value : String) : Prop where
  /-- It was the turn of the main thread. -/
  main : turn.body.isMain = true
  /-- The thread ended. -/
  done : (turn.result Thread.workload).1 = .done
  /-- The value became the result of the workflow. -/
  result : (turn.result Thread.workload).2.mainResult = some (.ok value)

/-- Running threads leave the result of the workflow alone, and they spawn no main threads. -/
theorem Context.Deeds.main {c d : Context} (h : Deeds c d) :
    d.mainResult = c.mainResult
      ∧ ((∀ thread ∈ c.spawned, thread.isMain = false) →
        ∀ thread ∈ d.spawned, thread.isMain = false) := by
  induction h with
  | refl => exact ⟨rfl, fun hothers => hothers⟩
  | tail _ hdeed ih =>
      cases hdeed with
      | act hact =>
          rcases hact.inv with ⟨_, _, _, rfl⟩ | ⟨_, rfl⟩ | ⟨_, _, _, rfl⟩ | ⟨_, rfl⟩ <;> exact ih
      | spawn vars steps =>
          refine ⟨ih.1, ?_⟩
          intro hothers thread hmem
          rcases List.mem_append.mp hmem with hold | hnew
          · exact ih.2 hothers thread hold
          · cases List.mem_singleton.mp hnew
            rfl

namespace Thread

variable {id : ThreadId} {thread : Thread} {ctx : Context}

/-- The end of a thread that is not the main one leaves the result of the workflow alone. -/
theorem conclude_mainResult (h : thread.isMain = false) (outcome : Outcome) (ctx : Context) :
    (conclude thread.role outcome ctx).mainResult = ctx.mainResult := by
  rw [isMain] at h
  split at h
  · cases h
  · rename_i future hrole
    obtain ⟨futures, woken, hresolve⟩ := ctx.resolve_eq future outcome
    rw [hrole, conclude, hresolve]

/-- **What a poll does to the main thread and its result.** Only the end of the main thread changes
the result, no main thread is spawned, and what is left of a thread is the main one if it was. -/
theorem poll_main (id : ThreadId) (thread : Thread) (ctx : Context) :
    ((thread.isMain = false ∨ (thread.poll id ctx).1 ≠ .done) →
        (thread.poll id ctx).2.mainResult = ctx.mainResult)
      ∧ ((∀ other ∈ ctx.spawned, other.isMain = false) →
        ∀ other ∈ (thread.poll id ctx).2.spawned, other.isMain = false)
      ∧ ∀ body, (thread.poll id ctx).1 = .pending body → body.isMain = thread.isMain := by
  obtain ⟨ctx', hdeeds, ⟨outcome, h⟩ | ⟨message, h⟩ | ⟨body, h, hrole⟩⟩ :=
    thread.poll_inv id ctx <;> rw [h]
  · refine ⟨?_, ?_, fun body hbody => by cases hbody⟩
    · intro hmain
      have hother : thread.isMain = false := hmain.resolve_right fun hdone => hdone rfl
      exact (conclude_mainResult hother outcome ctx').trans hdeeds.main.1
    · intro hothers
      obtain ⟨futures, woken, mainResult, hconclude⟩ := ctx'.conclude_eq thread.role outcome
      rw [hconclude]
      exact hdeeds.main.2 hothers
  · exact ⟨fun _ => hdeeds.main.1, hdeeds.main.2, fun body hbody => by cases hbody⟩
  · refine ⟨fun _ => hdeeds.main.1, hdeeds.main.2, ?_⟩
    rintro body ⟨⟩
    rw [isMain, isMain, hrole]

end Thread

namespace Scheduler

/-- Whether what the main thread returned is the result of the workflow: at most the first thread is
the main one, and it does not live on after it returned. -/
structure Reports (log : List (Turn Context Thread)) (s : Scheduler Thread) (ctx : Context) :
    Prop where
  /-- Threads have numbers of their own. -/
  orderly : s.Orderly
  /-- The main thread is the first. -/
  first : ∀ thread ∈ s.threads, thread.body.isMain = true → thread.id = 0
  /-- No main thread is spawned. -/
  others : ∀ thread ∈ ctx.spawned, thread.isMain = false
  /-- What was returned is the result, and the main thread has ended. -/
  returned : ∀ turn ∈ log, ∀ value, turn.Returns value →
    ctx.mainResult = some (.ok value) ∧ ∀ thread ∈ s.threads, thread.body.isMain = false

variable {log : List (Turn Context Thread)} {s : Scheduler Thread} {ctx : Context}
  {id : ThreadId} {queue : List ThreadId} {thread : LiveThread Thread}

/-- Taking in threads of which none is the main one leaves the main thread the first. -/
theorem first_gather (first : ∀ thread ∈ s.threads, thread.body.isMain = true → thread.id = 0)
    (others : ∀ thread ∈ ctx.spawned, thread.isMain = false) :
    ∀ thread ∈ (s.gather Thread.workload ctx).1.threads,
      thread.body.isMain = true → thread.id = 0 := by
  intro thread hmem hmain
  rcases mem_threads_gather hmem with ⟨old, hold, hid, hbody⟩ | hnew
  · rw [← hid]
    exact first old hold (hbody ▸ hmain)
  · have hother := others _ hnew
    rw [hmain] at hother
    cases hother

/-- No main thread is taken in. -/
theorem gone_gather (gone : ∀ thread ∈ s.threads, thread.body.isMain = false)
    (others : ∀ thread ∈ ctx.spawned, thread.isMain = false) :
    ∀ thread ∈ (s.gather Thread.workload ctx).1.threads, thread.body.isMain = false := by
  intro thread hmem
  rcases mem_threads_gather hmem with ⟨old, hold, -, hbody⟩ | hnew
  · rw [← hbody]
    exact gone old hold
  · exact others _ hnew

/-- When the main thread ends, no other is one: it would be the first thread as well. -/
theorem gone_finish (first : ∀ thread ∈ s.threads, thread.body.isMain = true → thread.id = 0)
    (hget : s.get? id = some thread) (hmain : thread.body.isMain = true) :
    ∀ other ∈ (Scheduler.finish { s with runQueue := queue } id).threads,
      other.body.isMain = false := by
  intro other hother
  obtain ⟨hmem, hid⟩ := get?_eq_some hget
  obtain ⟨hold, hne⟩ := List.mem_filter.mp hother
  by_contra hother
  have hzero := first other hold (by simpa using hother)
  have hzero' := first thread hmem hmain
  exact absurd (hzero.trans (hzero'.symm.trans hid)) (by simpa using hne)

/-- The main thread is the first one also when it blocks. -/
theorem first_block {body : Thread}
    (first : ∀ thread ∈ s.threads, thread.body.isMain = true → thread.id = 0)
    (hget : s.get? id = some thread) (hrole : body.isMain = thread.body.isMain) :
    ∀ other ∈ (Scheduler.block { s with runQueue := queue } id body).threads,
      other.body.isMain = true → other.id = 0 := by
  obtain ⟨hmem, hid⟩ := get?_eq_some hget
  intro other hother hmain
  rcases mem_threads_block hother with ⟨rfl, -⟩ | ⟨hold, -⟩
  · exact hid.symm.trans (first thread hmem (hrole.symm.trans hmain))
  · exact first other hold hmain

/-- A thread that blocks does not become a main thread. -/
theorem gone_block {body : Thread} (gone : ∀ thread ∈ s.threads, thread.body.isMain = false)
    (hget : s.get? id = some thread) (hrole : body.isMain = thread.body.isMain) :
    ∀ other ∈ (Scheduler.block { s with runQueue := queue } id body).threads,
      other.body.isMain = false := by
  intro other hother
  rcases mem_threads_block hother with ⟨rfl, -⟩ | ⟨hold, -⟩
  · exact hrole.trans (gone thread (get?_eq_some hget).1)
  · exact gone other hold

/-- Taking in spawned and woken threads. -/
theorem Reports.gather (h : Reports log s ctx) :
    Reports log (s.gather Thread.workload ctx).1 (s.gather Thread.workload ctx).2 := by
  refine ⟨h.orderly.gather _ _, first_gather h.first h.others, List.forall_mem_nil _, ?_⟩
  intro turn hturn value hreturns
  obtain ⟨hresult, hended⟩ := h.returned turn hturn value hreturns
  exact ⟨hresult, gone_gather hended h.others⟩

/-- A turn after which its thread ends, or panics. -/
theorem Reports.ended (h : Reports log s ctx) (hqueue : s.runQueue = id :: queue)
    (hget : s.get? id = some thread) :
    Reports (log ++ [⟨id, thread.body, ctx⟩]) (Scheduler.finish { s with runQueue := queue } id)
      (thread.body.poll id ctx).2 := by
  obtain ⟨hsame, hspawned, -⟩ := thread.body.poll_main id ctx
  refine ⟨h.orderly.finish hqueue, ?_, hspawned h.others, ?_⟩
  · intro other hother
    exact h.first other (List.mem_filter.mp hother).1
  · intro turn hturn value hreturns
    rcases List.mem_append.mp hturn with hold | hnew
    · obtain ⟨hresult, hended⟩ := h.returned turn hold value hreturns
      refine ⟨(hsame (.inl (hended thread (get?_eq_some hget).1))).trans hresult, ?_⟩
      intro other hother
      exact hended other (List.mem_filter.mp hother).1
    · cases List.mem_singleton.mp hnew
      exact ⟨hreturns.result, gone_finish h.first hget hreturns.main⟩

/-- A turn after which its thread blocks. -/
theorem Reports.pending {body : Thread} (h : Reports log s ctx) (hqueue : s.runQueue = id :: queue)
    (hget : s.get? id = some thread) (hbody : (thread.body.poll id ctx).1 = .pending body) :
    Reports (log ++ [⟨id, thread.body, ctx⟩])
      (Scheduler.block { s with runQueue := queue } id body) (thread.body.poll id ctx).2 := by
  obtain ⟨hsame, hspawned, hrole⟩ := thread.body.poll_main id ctx
  have hresult : (thread.body.poll id ctx).2.mainResult = ctx.mainResult :=
    hsame (.inr (by rw [hbody]; nofun))
  refine ⟨h.orderly.block hqueue body, first_block h.first hget (hrole body hbody),
    hspawned h.others, ?_⟩
  intro turn hturn value hreturns
  rcases List.mem_append.mp hturn with hold | hnew
  · obtain ⟨hvalue, hended⟩ := h.returned turn hold value hreturns
    exact ⟨hresult.trans hvalue, gone_block hended hget (hrole body hbody)⟩
  · cases List.mem_singleton.mp hnew
    have hdone : (thread.body.poll id ctx).1 = .done := hreturns.done
    rw [hbody] at hdone
    cases hdone

/-- **What the main thread returned stays the result of the workflow.** -/
theorem reports_preserves : Thread.workload.Preserves Reports where
  gather h := h.gather
  skip h hqueue hget := ⟨h.orderly.skip hqueue hget, h.first, h.others, h.returned⟩
  ended h hqueue hget _ := h.ended hqueue hget
  pending h hqueue hget hbody := h.pending hqueue hget hbody

end Scheduler

namespace Execution

/-- Whether what the main thread of an execution returned is its result, and there was no main
thread before the execution started. -/
structure Reports (x : Execution) (log : List (Turn Context Thread)) : Prop where
  /-- What the main thread returned is the result. -/
  reports : Scheduler.Reports log x.scheduler x.context
  /-- Before the start there are no threads, and there were none. -/
  fresh : x.started = false → x.scheduler = .empty ∧ log = []

variable {x x' : Execution} {log : List (Turn Context Thread)} {event : Event}

/-- A new execution has no threads. -/
theorem reports_new (info : RunInfo) (program : Program) (converter : Converter) :
    (new info program converter).Reports [] :=
  ⟨⟨Scheduler.orderly_empty, List.forall_mem_nil _, List.forall_mem_nil _, List.forall_mem_nil _⟩,
    fun _ => ⟨rfl, rfl⟩⟩

/-- Where the threads and the result stay as they are. -/
theorem Reports.of_eq (h : x.Reports log) (hscheduler : x'.scheduler = x.scheduler)
    (hstarted : x'.started = x.started) (hspawned : x'.context.spawned = x.context.spawned)
    (hresult : x'.context.mainResult = x.context.mainResult) : x'.Reports log := by
  refine ⟨⟨?_, ?_, ?_, ?_⟩, ?_⟩
  · rw [hscheduler]
    exact h.reports.orderly
  · rw [hscheduler]
    exact h.reports.first
  · rw [hspawned]
    exact h.reports.others
  · rw [hscheduler, hresult]
    exact h.reports.returned
  · rw [hscheduler, hstarted]
    exact h.fresh

/-- Accepting an input; at the start the main thread joins as the first. -/
theorem Reports.accept (h : x.Reports log) (haccept : x.accept event = .ok x') :
    x'.Reports log ∧ x'.started = true := by
  rcases accept_inv haccept with ⟨hstarted, context, happly, rfl⟩ | ⟨hstarted, _, _, _, _, -, rfl⟩
  · obtain ⟨_, _, _, _, _, rfl⟩ := applyInput_eq happly
    exact ⟨h.of_eq rfl rfl rfl rfl, hstarted⟩
  · obtain ⟨hempty, rfl⟩ := h.fresh hstarted
    refine ⟨⟨⟨h.reports.orderly.spawn _, fun thread hmem _ => ?_, h.reports.others,
      List.forall_mem_nil _⟩, fun hfalse => by cases hfalse⟩, rfl⟩
    rw [hempty] at hmem
    cases List.mem_singleton.mp hmem
    rfl

/-- **An event after which no thread panics keeps what the main thread returned.** -/
theorem Reports.step (h : x.Reports log) (event : Event)
    (calm : ∀ turn ∈ x.turns event, ¬ turn.Panics Thread.workload) :
    (x.step event).2.Reports (log ++ x.turns event) := by
  rcases x.admitted?_inv event with ⟨hadmitted, _, _, hstep, -, -⟩
    | ⟨x', hadmitted, haccept, -, hstep⟩
  · rw [hstep, turns, hadmitted, List.append_nil]
    exact h.of_eq rfl rfl rfl rfl
  · rw [turns, hadmitted] at calm ⊢
    rw [hstep]
    have hcounted : x.counted.Reports log := h.of_eq rfl rfl rfl rfl
    obtain ⟨haccepted, hstarted⟩ := hcounted.accept haccept
    have hkept := Scheduler.reports_preserves.run (pollBound x'.scheduler x'.context)
      haccepted.reports
    obtain ⟨-, hrun⟩ := runThreads_of_calm haccepted.reports.orderly calm
    have hran : x'.runThreads.Reports (log ++ x'.passTurns) := by
      rw [hrun]
      refine ⟨hkept, ?_⟩
      intro hfalse
      rw [show x'.started = false from hfalse] at hstarted
      cases hstarted
    obtain ⟨_, _, _, hsettle⟩ := x'.runThreads.settle_eq
    refine hran.of_eq ?_ ?_ ?_ ?_ <;> rw [hsettle] <;> rfl

end Execution

namespace Course

variable {info : RunInfo} {program : Program} {converter : Converter} {x : Execution}
  {events : List Event} {turns : List (Turn Context Thread)}

/-- After every course in which no thread panicked. -/
theorem reports (course : Course info program converter x events turns)
    (calm : ∀ turn ∈ turns, ¬ turn.Panics Thread.workload) : x.Reports turns := by
  refine course.of_calm (Execution.reports_new info program converter) ?_ ?_ calm
  · intro x turns replaying hreports
    exact hreports.of_eq rfl rfl rfl rfl
  · intro x turns event hreports hcalm
    exact hreports.step event hcalm

/-- **What the main thread returned is the result of the workflow** as long as no thread panics. -/
theorem result_of_returns (course : Course info program converter x events turns)
    (calm : ∀ turn ∈ turns, ¬ turn.Panics Thread.workload) {turn : Turn Context Thread}
    (hturn : turn ∈ turns) {value : String} (hreturns : turn.Returns value) :
    x.context.mainResult = some (.ok value) :=
  ((course.reports calm).reports.returned turn hturn value hreturns).1

end Course

end DurableWorkflow
