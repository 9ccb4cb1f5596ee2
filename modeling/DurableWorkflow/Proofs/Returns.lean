import DurableWorkflow.Proofs.Alerts
import DurableWorkflow.Proofs.RunQueue
import DurableWorkflow.Proofs.UnboundedPasses

/-!
# Every step returns

A step lets the threads run until none can, and that comes to an end. Each turn uses an entry of the
run queue, and there is a reason for every entry. The first turn of a thread comes from its being
spawned. Before another one its last turn let the others run; or a future that it has polled in vain
had no outcome when its last turn was over, and has one now. As futures keep their outcomes, each of
them is the reason for one turn of the thread at most, though there may be turns after which the
thread goes on waiting, for something else.

The invariant behind this goes through the wakes: who was woken and lives has a reason for another
turn, and whoever waits for a future has polled it in vain. A wake is dropped when it finds its
thread in the run queue, which is why reasons are asked for turns, and not for wakes.

## Main definitions

* `RecalledBy`, `Called` — the reasons for another turn of a thread.
* `Scheduler.Accounted` — there was a reason for each turn, and is one for each that is to come.

## Main results

* `Scheduler.Accounted.runs` — a pass keeps the account.
* `Course.accounted` — so does everything else that happens to an execution.
* `Course.returns` — every step returns.
-/

namespace DurableWorkflow

/-! ### Reasons -/

/-- Whether a future is the reason for another turn of a thread: the thread has polled it in vain,
and it had no outcome after the last turn of the thread, but has one now. -/
def RecalledBy (turns : List (Turn Context Thread)) (id : ThreadId) (ctx : Context)
    (future : FutureId) : Prop :=
  ∃ last, lastTurn? turns id = some last
    ∧ (∃ missed ∈ turns, missed.thread = id ∧ missed.Misses future)
    ∧ last.after.futures.isResolved future = false ∧ ctx.futures.isResolved future = true

/-- Whether there is a reason for another turn of a thread: its last turn let the others run, or a
future is the reason. -/
def Called (turns : List (Turn Context Thread)) (id : ThreadId) (ctx : Context) : Prop :=
  (∃ last, lastTurn? turns id = some last ∧ last.Pauses) ∨ ∃ future, RecalledBy turns id ctx future

/-- A thread that has had turns has had a last one. -/
theorem exists_lastTurn? {σ τ : Type} {turns : List (Turn σ τ)} {turn : Turn σ τ}
    (h : turn ∈ turns) : ∃ last, lastTurn? turns turn.thread = some last := by
  refine Option.isSome_iff_exists.mp (List.find?_isSome.mpr ⟨turn, List.mem_reverse.mpr h, ?_⟩)
  exact decide_eq_true rfl

/-- A thread that has not had a turn has not had a last one. -/
theorem lastTurn?_eq_none {σ τ : Type} {turns : List (Turn σ τ)} {id : ThreadId}
    (h : ∀ turn ∈ turns, turn.thread ≠ id) : lastTurn? turns id = none :=
  List.find?_eq_none.mpr fun turn hturn => by simpa using h turn (List.mem_reverse.mp hturn)

/-- The last turn of a thread is among the later ones, if it has had one of these. -/
theorem lastTurn?_append {σ τ : Type} (turns later : List (Turn σ τ)) (id : ThreadId) :
    lastTurn? (turns ++ later) id = (lastTurn? later id).or (lastTurn? turns id) := by
  rw [lastTurn?, List.reverse_append, List.find?_append, lastTurn?, lastTurn?]

section Reasons

variable {turns : List (Turn Context Thread)} {turn : Turn Context Thread} {id : ThreadId}
  {ctx ctx' : Context} {future : FutureId}

/-- A reason lasts while outcomes stay. -/
theorem Called.mono (h : Called turns id ctx) (hkeeps : ctx.futures.Keeps ctx'.futures) :
    Called turns id ctx' := by
  rcases h with hpauses | ⟨future, last, hlast, hmissed, hbefore, hnow⟩
  · exact .inl hpauses
  · exact .inr ⟨future, last, hlast, hmissed, hbefore, Context.isResolved_of_keeps hkeeps hnow⟩

/-- It lasts while other threads have turns. -/
theorem Called.concat (h : Called turns id ctx) (hother : turn.thread ≠ id) :
    Called (turns ++ [turn]) id ctx := by
  have hsame := lastTurn?_concat_of_ne hother turns
  rcases h with ⟨last, hlast, hpauses⟩ | ⟨future, last, hlast, ⟨missed, hmem, hmissed⟩, hrest⟩
  · exact .inl ⟨last, hsame.trans hlast, hpauses⟩
  · exact .inr ⟨future, last, hsame.trans hlast,
      ⟨missed, List.mem_append_left _ hmem, hmissed⟩, hrest⟩

end Reasons

namespace Scheduler

/-- Whether there was a reason for every turn so far, and is one for every entry of the run queue
and every wake of a live thread. -/
structure Accounted (turns : List (Turn Context Thread)) (s : Scheduler Thread) (ctx : Context) :
    Prop where
  /-- The turns used the entries of the run queue. -/
  undergone : ∃ log, Undergoes .empty log s ∧ served log = turns.map Turn.thread
  /-- The threads have their numbers. -/
  known : ∀ turn ∈ turns, turn.thread < s.nextThread
  /-- Outcomes have stayed since every turn. -/
  kept : ∀ turn ∈ turns, turn.after.futures.Keeps ctx.futures
  /-- They stayed from turn to turn. -/
  ordered : turns.Pairwise fun earlier later => earlier.after.futures.Keeps later.state.futures
  /-- Who waits for a future has polled it in vain. -/
  waits : ∀ future id, ctx.Awaits future (.thread id) →
    ∃ turn ∈ turns, turn.thread = id ∧ turn.Misses future
  /-- There is a reason for every wake of a live thread. -/
  woken : ∀ id ∈ ctx.woken, id < s.nextThread
    ∧ (id ∈ s.threads.map LiveThread.id → Called turns id ctx)
  /-- There is one for every entry of the run queue, unless the thread is a new one. -/
  queued : ∀ id ∈ s.runQueue, lastTurn? turns id = none ∨ Called turns id ctx
  /-- There was one for every turn, unless it was the first one of its thread. -/
  called : ∀ before turn after, turns = before ++ turn :: after →
    lastTurn? before turn.thread = none ∨ Called before turn.thread turn.state

namespace Accounted

variable {turns later : List (Turn Context Thread)} {s s' : Scheduler Thread} {ctx ctx' : Context}
  {id : ThreadId} {queue : List ThreadId} {thread : LiveThread Thread} {future : FutureId}

/-- An outcome calls who waited for it. -/
theorem called_of_awaits (h : Accounted turns s ctx) (hawaits : ctx.Awaits future (.thread id))
    (hresolved : ctx'.futures.isResolved future = true) : Called turns id ctx' := by
  obtain ⟨turn, hmem, rfl, hmissed⟩ := h.waits future id hawaits
  obtain ⟨last, hlast⟩ := exists_lastTurn? hmem
  refine .inr ⟨future, last, hlast, ⟨turn, hmem, rfl, hmissed⟩, ?_, hresolved⟩
  by_contra hearly
  have hnow := Context.isResolved_of_keeps (h.kept last (lastTurn?_eq_some hlast).1)
    (Bool.eq_true_of_not_eq_false hearly)
  rw [hawaits.not_isResolved] at hnow
  cases hnow

/-- What happens to the context outside of turns keeps the account. -/
theorem of_alerts (h : Accounted turns s ctx) (halerts : ctx.Alerts ctx') :
    Accounted turns s ctx' where
  undergone := h.undergone
  known := h.known
  kept turn hturn := (h.kept turn hturn).trans halerts.keeps
  ordered := h.ordered
  waits future id hawaits := h.waits future id (halerts.awaits future id hawaits)
  woken := by
    intro id hid
    rcases halerts.woken id hid with hold | ⟨future, hawaits, hresolved⟩
    · exact ⟨(h.woken id hold).1, fun hlive => ((h.woken id hold).2 hlive).mono halerts.keeps⟩
    · obtain ⟨turn, hmem, rfl, -⟩ := h.waits future id hawaits
      exact ⟨h.known turn hmem, fun _ => h.called_of_awaits hawaits hresolved⟩
  queued id hid := (h.queued id hid).imp_right fun hcalled => hcalled.mono halerts.keeps
  called := h.called

/-- Spawning a thread. -/
theorem spawn (h : Accounted turns s ctx) (body : Thread) : Accounted turns (s.spawn body) ctx where
  undergone := by
    obtain ⟨log, hlog, hserved⟩ := h.undergone
    refine ⟨_, hlog.spawn body, ?_⟩
    rw [served_concat, hserved]
    exact List.append_nil _
  known turn hturn := Nat.lt_succ_of_lt (h.known turn hturn)
  kept := h.kept
  ordered := h.ordered
  waits := h.waits
  woken := by
    intro id hid
    obtain ⟨hless, hcalled⟩ := h.woken id hid
    refine ⟨Nat.lt_succ_of_lt hless, fun hlive => hcalled ?_⟩
    obtain ⟨thread, hmem, rfl⟩ := List.mem_map.mp hlive
    rcases List.mem_append.mp hmem with hmem | hmem
    · exact List.mem_map_of_mem hmem
    · rw [List.mem_singleton.mp hmem] at hless
      exact absurd hless (Nat.lt_irrefl _)
  queued := by
    intro id hid
    rcases List.mem_append.mp hid with hid | hid
    · exact h.queued id hid
    · rw [List.mem_singleton.mp hid]
      exact .inl (lastTurn?_eq_none fun turn hturn => Nat.ne_of_lt (h.known turn hturn))
  called := h.called

/-- Spawning threads. -/
theorem foldl_spawn (h : Accounted turns s ctx) (bodies : List Thread) :
    Accounted turns (bodies.foldl Scheduler.spawn s) ctx := by
  induction bodies generalizing s with
  | nil => exact h
  | cons body bodies ih => exact ih (h.spawn body)

/-- Collecting the wakes, of which none is left. -/
theorem collect (h : Accounted turns s ctx) (hfutures : ctx'.futures = ctx.futures)
    (hnone : ctx'.woken = []) : Accounted turns (s.collect ctx.woken) ctx' := by
  have halerts : ctx.Alerts { ctx' with woken := ctx.woken } := Context.alerts_of_eq hfutures rfl
  have hsame := h.of_alerts halerts
  refine ⟨?_, h.known, hsame.kept, h.ordered, hsame.waits, by simp [hnone], ?_, h.called⟩
  · obtain ⟨log, hlog, hserved⟩ := h.undergone
    refine ⟨_, hlog.collect ctx.woken, ?_⟩
    rw [served_concat, hserved]
    exact List.append_nil _
  · intro id hid
    rcases List.mem_append.mp hid with hid | hid
    · exact hsame.queued id hid
    · obtain ⟨⟨since, _⟩, hready, rfl⟩ := List.mem_map.mp hid
      obtain ⟨thread, hmem, rfl, -, hwoken⟩ := mem_ready.mp hready
      exact .inr ((hsame.woken _ hwoken).2 (List.mem_map_of_mem hmem))

/-- **Taking in what happened** keeps the account, and nobody is woken then. -/
theorem gather (h : Accounted turns s ctx) :
    Accounted turns (s.gather Thread.workload ctx).1 (s.gather Thread.workload ctx).2
      ∧ (s.gather Thread.workload ctx).2.woken = [] :=
  ⟨(h.foldl_spawn ctx.spawned).collect rfl rfl, rfl⟩

/-- **A turn** of the next thread of the run queue keeps the account, if nobody was woken before it
and the thread lives on only if it blocks. -/
theorem turn (h : Accounted turns s ctx) (hasleep : ctx.woken = [])
    (hqueue : s.runQueue = id :: queue) (hrest : s'.runQueue = queue)
    (hnext : s'.nextThread = s.nextThread)
    (hundergone : ∀ log, Undergoes .empty log s →
      ∃ blocks, Undergoes .empty (log ++ [.turn id blocks]) s')
    (hlive : id ∈ s'.threads.map LiveThread.id →
      ∃ body, (thread.body.poll id ctx).1 = .pending body) :
    Accounted (turns ++ [⟨id, thread.body, ctx⟩]) s' (thread.body.poll id ctx).2 := by
  obtain ⟨log, hlog, hserved⟩ := h.undergone
  have hless : id < s.nextThread := hlog.regular.lt_nextThread (hqueue ▸ List.mem_cons_self)
  let turn : Turn Context Thread := ⟨id, thread.body, ctx⟩
  refine ⟨?_, ?_, ?_, ?_, ?_, ?_, ?_, ?_⟩
  · obtain ⟨blocks, hturn⟩ := hundergone log hlog
    refine ⟨_, hturn, ?_⟩
    rw [served_concat, hserved, List.map_append]
    rfl
  · rw [hnext]
    exact List.forall_mem_append.mpr ⟨h.known, List.forall_mem_singleton.mpr hless⟩
  · refine List.forall_mem_append.mpr ⟨fun earlier hearlier => ?_, List.forall_mem_singleton.mpr ?_⟩
    · exact (h.kept earlier hearlier).trans turn.keeps_after
    · exact .refl _
  · refine List.pairwise_append.mpr ⟨h.ordered, List.pairwise_singleton _ _, ?_⟩
    intro earlier hearlier later hlater
    rw [List.mem_singleton.mp hlater]
    exact h.kept earlier hearlier
  · intro future other hawaits
    rcases turn.awaits_inv hawaits with hold | ⟨rfl, hmissed⟩
    · obtain ⟨earlier, hmem, hearlier⟩ := h.waits future other hold
      exact ⟨earlier, List.mem_append_left _ hmem, hearlier⟩
    · exact ⟨turn, List.mem_append_right _ (List.mem_singleton_self _), rfl, hmissed⟩
  · intro other hwoken
    rw [hnext]
    rcases turn.woken_inv hwoken with hold | ⟨hne, future, hawaits, hresolved⟩ | ⟨rfl, hpauses⟩
    · rw [show turn.state.woken = [] from hasleep] at hold
      cases hold
    · obtain ⟨earlier, hmem, hearlier, -⟩ := h.waits future other hawaits
      refine ⟨hearlier ▸ h.known earlier hmem, fun _ => ?_⟩
      exact (h.called_of_awaits hawaits hresolved).concat (Ne.symm hne)
    · refine ⟨hless, fun hmem => ?_⟩
      obtain ⟨body, hbody⟩ := hlive hmem
      exact .inl ⟨turn, lastTurn?_concat_self turns turn, hpauses body hbody⟩
  · intro other hmem
    rw [hrest] at hmem
    have hne : id ≠ other := Ne.symm ((hlog.regular.tail hqueue).2 other hmem).1
    rcases h.queued other (hqueue ▸ List.mem_cons_of_mem _ hmem) with hnone | hcalled
    · have hsame : lastTurn? (turns ++ [turn]) other = lastTurn? turns other :=
        lastTurn?_concat_of_ne hne turns
      exact .inl (hsame.trans hnone)
    · have hlater : Called (turns ++ [turn]) other turn.after :=
        (hcalled.mono turn.keeps_after).concat hne
      exact .inr hlater
  · intro before other after hsplit
    rcases split_concat hsplit with ⟨-, rfl, rfl⟩ | ⟨between, -, hbefore⟩
    · exact h.queued id (hqueue ▸ List.mem_cons_self)
    · exact h.called before other between hbefore

/-- A turn after which the thread is gone. -/
theorem finish (h : Accounted turns s ctx) (hasleep : ctx.woken = [])
    (hqueue : s.runQueue = id :: queue) (hget : s.get? id = some thread) :
    Accounted (turns ++ [⟨id, thread.body, ctx⟩])
      (Scheduler.finish { s with runQueue := queue } id) (thread.body.poll id ctx).2 := by
  refine h.turn hasleep hqueue rfl rfl (fun log hlog => ⟨_, hlog.finish hqueue hget⟩) ?_
  intro hlive
  obtain ⟨live, hmem, hid⟩ := List.mem_map.mp hlive
  exact absurd hid (by simpa using (List.mem_filter.mp hmem).2)

/-- A turn after which the thread blocks. -/
theorem block {body : Thread} (h : Accounted turns s ctx) (hasleep : ctx.woken = [])
    (hqueue : s.runQueue = id :: queue) (hget : s.get? id = some thread)
    (hbody : (thread.body.poll id ctx).1 = .pending body) :
    Accounted (turns ++ [⟨id, thread.body, ctx⟩])
      (Scheduler.block { s with runQueue := queue } id body) (thread.body.poll id ctx).2 := by
  exact h.turn hasleep hqueue rfl rfl (fun log hlog => ⟨_, hlog.block body hqueue hget⟩)
    fun _ => ⟨body, hbody⟩

/-- **A pass keeps the account.** -/
theorem runs {result : Pass × Scheduler Thread × Context} (h : Accounted turns s ctx)
    (hruns : Runs Thread.workload s ctx later result) :
    Accounted (turns ++ later) result.2.1 result.2.2 := by
  induction hruns generalizing turns with
  | idle hgather _ =>
      have hgathered := h.gather
      rw [hgather] at hgathered
      rw [List.append_nil]
      exact hgathered.1
  | skip hgather hqueue hget _ _ =>
      have hgathered := h.gather
      rw [hgather] at hgathered
      obtain ⟨log, hlog, -⟩ := hgathered.1.undergone
      exact absurd hget (hlog.regular.get?_ne_none hqueue)
  | done hgather hqueue hget hpoll _ ih =>
      have hgathered := h.gather
      rw [hgather] at hgathered
      have hturn := hgathered.1.finish hgathered.2 hqueue hget
      rw [show Thread.poll _ _ _ = _ from hpoll] at hturn
      rw [List.append_cons]
      exact ih hturn
  | pending hgather hqueue hget hpoll _ ih =>
      have hgathered := h.gather
      rw [hgather] at hgathered
      have hturn := hgathered.1.block hgathered.2 hqueue hget (congrArg Prod.fst hpoll)
      rw [show Thread.poll _ _ _ = _ from hpoll] at hturn
      rw [List.append_cons]
      exact ih hturn
  | panicked hgather hqueue hget hpoll =>
      have hgathered := h.gather
      rw [hgather] at hgathered
      have hturn := hgathered.1.finish hgathered.2 hqueue hget
      rw [show Thread.poll _ _ _ = _ from hpoll] at hturn
      exact hturn

end Accounted

end Scheduler

/-! ### Executions -/

namespace Execution

variable {x x' : Execution} {turns : List (Turn Context Thread)} {event : Event}

/-- Accepting an input keeps the account. -/
theorem accounted_accept (h : Scheduler.Accounted turns x.scheduler x.context)
    (haccept : x.accept event = .ok x') : Scheduler.Accounted turns x'.scheduler x'.context := by
  rcases accept_inv haccept with ⟨-, context, happly, rfl⟩ | ⟨-, _, _, _, _, -, rfl⟩
  · exact h.of_alerts (alerts_applyInput happly)
  · exact h.spawn _

/-- **The bound on polls makes no difference**, whatever the context: with as many polls as are
allowed a pass comes to its end, and that is the only one it can come to. -/
theorem runs_iff_of_undergoes {s : Scheduler Thread} {log : List Happening}
    (hlog : Scheduler.Undergoes .empty log s) (ctx : Context) (later : List (Turn Context Thread))
    (result : Pass × Scheduler Thread × Context) :
    Scheduler.Runs Thread.workload s ctx later result
      ↔ later = s.turns Thread.workload (pollBound s ctx) ctx
        ∧ result = s.run Thread.workload (pollBound s ctx) ctx :=
  Scheduler.runs_iff (hlog.regular.orderly.run_ne_exhausted (work_lt_pollBound s ctx))

/-- Letting the threads run keeps the account. -/
theorem accounted_runThreads (h : Scheduler.Accounted turns x.scheduler x.context) :
    Scheduler.Accounted (turns ++ x.passTurns) x.runThreads.scheduler x.runThreads.context := by
  obtain ⟨log, hlog, -⟩ := h.undergone
  have hpass := h.runs ((runs_iff_of_undergoes hlog x.context _ _).mpr ⟨rfl, rfl⟩)
  rcases x.runThreads_inv with ⟨-, failure, hrun⟩ | ⟨-, hrun⟩ <;> rw [hrun]
  · exact hpass.of_alerts (Context.alerts_of_eq rfl rfl)
  · exact hpass

/-- **Every event keeps the account.** -/
theorem accounted_step (h : Scheduler.Accounted turns x.scheduler x.context) (event : Event) :
    Scheduler.Accounted (turns ++ x.turns event) (x.step event).2.scheduler
      (x.step event).2.context := by
  rcases x.admitted?_inv event with ⟨hadmitted, _, _, hstep, -, -⟩
    | ⟨x', hadmitted, haccept, -, hstep⟩ <;> rw [hstep, Execution.turns, hadmitted]
  · rw [List.append_nil]
    exact h
  · obtain ⟨_, _, _, hsettle⟩ := x'.runThreads.settle_eq
    have hcounted : Scheduler.Accounted turns x.counted.scheduler x.counted.context := h
    have hran := accounted_runThreads (accounted_accept hcounted haccept)
    rw [hsettle]
    exact hran.of_alerts (Context.alerts_of_eq rfl rfl)

end Execution

namespace Course

variable {info : RunInfo} {program : Program} {converter : Converter} {x : Execution}
  {events : List Event} {turns : List (Turn Context Thread)}

/-- **Whatever happened to an execution keeps the account.** -/
theorem accounted (course : Course info program converter x events turns) :
    Scheduler.Accounted turns x.scheduler x.context := by
  induction course with
  | new =>
      refine ⟨⟨[], .nothing _, rfl⟩, List.forall_mem_nil _, List.forall_mem_nil _, .nil, ?_,
        List.forall_mem_nil _, List.forall_mem_nil _, ?_⟩
      · rintro future id ⟨slot, hslot, -⟩
        obtain ⟨hpos, hle⟩ := FutureTable.slot?_isSome.mp ⟨slot, hslot⟩
        exact absurd hpos (Nat.not_lt.mpr hle)
      · intro before turn after hsplit
        exact absurd hsplit (by simp)
  | mode replaying _ ih => exact ih.of_alerts (Context.alerts_of_eq rfl rfl)
  | step event _ ih => exact Execution.accounted_step ih event

/-- **A future is the reason for one turn of a thread at most.** -/
theorem recalledBy_once {all before between after : List (Turn Context Thread)}
    {turn again : Turn Context Thread} {future : FutureId}
    (ordered : all.Pairwise fun earlier later => earlier.after.futures.Keeps later.state.futures)
    (hsplit : all = before ++ turn :: (between ++ again :: after))
    (hthread : again.thread = turn.thread)
    (hfirst : RecalledBy before turn.thread turn.state future) :
    ¬ RecalledBy (before ++ turn :: between) again.thread again.state future := by
  obtain ⟨-, -, -, -, hresolved⟩ := hfirst
  rintro ⟨last, hlast, -, hunresolved, -⟩
  -- The last turn before the second of the two is the first of them or a later one.
  have hlater : last ∈ turn :: between := by
    obtain ⟨late, hlate⟩ := exists_lastTurn? (List.mem_cons_self (a := turn) (l := between))
    rw [lastTurn?_append, hthread, hlate, Option.some_or] at hlast
    exact Option.some.inj hlast ▸ (lastTurn?_eq_some hlate).1
  have hkeeps : turn.state.futures.Keeps last.after.futures := by
    rcases List.mem_cons.mp hlater with rfl | hbetween
    · exact last.keeps_after
    · rw [hsplit] at ordered
      obtain ⟨hturn, -⟩ := List.pairwise_cons.mp (List.pairwise_append.mp ordered).2.1
      have hkept := hturn last (List.mem_append_left _ hbetween)
      exact (turn.keeps_after.trans hkept).trans last.keeps_after
  rw [Context.isResolved_of_keeps hkeeps hresolved] at hunresolved
  cases hunresolved

/-- **Every step returns.** Whatever happened to a scheduler, a pass of its threads comes to its
end, in whatever context it starts. Whatever happened to an execution, an event that lets its
threads run is accepted, and answered after their pass, which comes to no other end than the one
with the polls that are allowed. Any other event is answered without a turn.

The turns of an execution are the entries of its run queue, in order, but for those that still wait.
Threads have entries when they are spawned, each once, and when they resume after a turn. For every
turn but the first one of its thread, and for every entry that still waits, there is a reason: the
last turn of the thread let the others run, or a future that the thread has polled in vain had no
outcome after its last turn and has one now. No future is the reason for two turns of a thread. -/
theorem returns (course : Course info program converter x events turns) (event : Event) :
    (∀ s log, Scheduler.Undergoes .empty log s → ∀ ctx : Context, ∃ later result,
        Scheduler.Runs Thread.workload s ctx later result)
      ∧ (∀ x', x.admitted? event = some x' →
        (∀ later result, Scheduler.Runs Thread.workload x'.scheduler x'.context later result
            ↔ later = x.turns event ∧ result = x'.pass)
          ∧ (x.turns event).length ≤ Execution.pollBound x'.scheduler x'.context
          ∧ (∃ outcome, (x.step event).1 = .ok outcome)
          ∧ (x.step event).2.scheduler = x'.pass.2.1)
      ∧ (x.admitted? event = none → x.turns event = [])
      ∧ (∃ log, Scheduler.Undergoes .empty log (x.step event).2.scheduler
        ∧ served log = (turns ++ x.turns event).map Turn.thread
        ∧ entered log = served log ++ (x.step event).2.scheduler.runQueue
        ∧ (log.filterMap Happening.spawned?).Nodup
        ∧ ∀ before ids after, log = before ++ .resumed ids :: after →
          ∀ id ∈ ids, id ∈ served before)
      ∧ (∀ before turn after, turns ++ x.turns event = before ++ turn :: after →
        lastTurn? before turn.thread = none ∨ Called before turn.thread turn.state)
      ∧ (∀ id ∈ (x.step event).2.scheduler.runQueue,
        lastTurn? (turns ++ x.turns event) id = none
          ∨ Called (turns ++ x.turns event) id (x.step event).2.context)
      ∧ ∀ before turn between again after future,
        turns ++ x.turns event = before ++ turn :: (between ++ again :: after) →
        again.thread = turn.thread → RecalledBy before turn.thread turn.state future →
        ¬ RecalledBy (before ++ turn :: between) again.thread again.state future := by
  have haccounted := course.accounted
  have hstepped := Execution.accounted_step haccounted event
  obtain ⟨log, hlog, hserved⟩ := hstepped.undergone
  refine ⟨fun s before hbefore ctx =>
      ⟨_, _, (Execution.runs_iff_of_undergoes hbefore ctx _ _).mpr ⟨rfl, rfl⟩⟩,
    fun x' hadmitted => ?_, fun hnone => ?_, ⟨log, hlog, hserved, ?_, ?_,
      fun _ _ _ hsplit _ hid => hlog.mem_served_of_resumed hsplit hid⟩, hstepped.called,
    hstepped.queued, fun _ _ _ _ _ _ hsplit => recalledBy_once hstepped.ordered hsplit⟩
  · obtain ⟨haccept, -, hstep⟩ := Execution.step_of_admitted? hadmitted
    have hcounted : Scheduler.Accounted turns x.counted.scheduler x.counted.context := haccounted
    obtain ⟨log', hlog', -⟩ := (Execution.accounted_accept hcounted haccept).undergone
    obtain ⟨_, _, _, hsettle⟩ := x'.runThreads.settle_eq
    have hturns : x.turns event = x'.passTurns := by rw [Execution.turns, hadmitted]
    rw [hturns]
    refine ⟨Execution.runs_iff_of_undergoes hlog' x'.context, Scheduler.length_turns_le _ _ _ _,
      ⟨_, congrArg Prod.fst hstep⟩, ?_⟩
    rw [hstep, hsettle]
    rcases x'.runThreads_inv with ⟨-, _, hrun⟩ | ⟨-, hrun⟩ <;> rw [hrun] <;> rfl
  · rw [Execution.turns, hnone]
  · exact hlog.served_in_order
  · rw [hlog.spawned_eq]
    exact List.nodup_range

/-- A program whose threads let each other run, until the first waits for the end of the second. -/
def passing : Program :=
  ⟨none, [.spawn [.perform .pause ⟨none, none⟩] (some "other"), .perform .pause ⟨none, none⟩,
    .perform (.await "other" none) ⟨none, none⟩]⟩

/-- Its start returns after five turns, for three of which there is a reason. -/
theorem passing_returns :
    Course Execution.nap passing .json (.new Execution.nap passing .json) [] []
      ∧ ((Execution.new Execution.nap passing .json).turns
        (.executionStarted "Nap" "take" "" none)).map Turn.thread = [0, 1, 0, 1, 0]
      ∧ ∀ before turn after, (Execution.new Execution.nap passing .json).turns
          (.executionStarted "Nap" "take" "" none) = before ++ turn :: after →
        lastTurn? before turn.thread = none ∨ Called before turn.thread turn.state :=
  ⟨.new, by decide +kernel, (returns .new (.executionStarted "Nap" "take" "" none)).2.2.2.2.1⟩

end Course

end DurableWorkflow
