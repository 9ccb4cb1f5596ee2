import DurableWorkflow.Execution
import DurableWorkflow.Proofs.SchedulerRuns
import Mathlib.Logic.Relation

/-!
# What workflow code does to its context

Everything that running threads change in the context of their execution is a sequence of a few
operations. An action starts timers and children, polls futures, wakes its own thread, detaches
children and leaves notes; a thread in addition spawns threads and ends; the scheduler takes the
spawned threads and the wakes. Said once here, this is what invariants of the context are derived
from: one case for each operation, and none for the statements of the language.

## Main results

* `Context.Act`, `Context.Deed`, `Context.Move` — one operation of an action, of a thread, and one
  operation at all.
* `Context.Move.inv` — what a move changes.
* `Action.perform_acts` — an action is a sequence of acts.
* `Thread.poll_inv` — a poll of a thread is a sequence of deeds, and then perhaps its end.
* `Execution.runThreads_moves` — so is letting the threads of an execution run.
-/

namespace DurableWorkflow

open Relation

namespace Context

/-- One operation of an action on the context. -/
inductive Act : Context → Context → Prop
  | startTimer (ctx : Context) (delay : Duration) : Act ctx (ctx.startTimer delay).2
  | startChild (ctx : Context) (stub : Stub) (method input : String) :
      Act ctx (ctx.startChild stub method input).2
  | failedFuture (ctx : Context) (failure : Failure) : Act ctx (ctx.failedFuture failure).2
  | pollFuture (ctx : Context) (id : FutureId) (waker : Waker) :
      Act ctx (ctx.pollFuture id waker).2
  | wake (ctx : Context) (waker : Waker) : Act ctx (ctx.wake waker)
  | abandon (ctx : Context) (future : FutureRef) : Act ctx (ctx.abandon future)
  | note (ctx : Context) (note : Note) : Act ctx (ctx.note note)

/-- Polling futures with a waker, one after the other. -/
abbrev Asks (waker : Waker) : Context → Context → Prop :=
  ReflTransGen fun c d => ∃ id, d = (c.pollFuture id waker).2

/-- A sequence of operations of actions. -/
abbrev Acts : Context → Context → Prop :=
  ReflTransGen Act

/-- One operation of a thread that runs on the context. -/
inductive Deed : Context → Context → Prop
  | act {c d : Context} : Act c d → Deed c d
  | spawn (ctx : Context) (vars : Variables) (steps : List Statement) :
      Deed ctx (ctx.spawn vars steps).2

/-- A sequence of operations of threads. -/
abbrev Deeds : Context → Context → Prop :=
  ReflTransGen Deed

/-- One operation of a thread, at the end of one, or of the scheduler on the context. -/
inductive Move : Context → Context → Prop
  | deed {c d : Context} : Deed c d → Move c d
  | conclude (ctx : Context) (role : Role) (outcome : Outcome) :
      Move ctx (Thread.conclude role outcome ctx)
  | adopt (ctx : Context) : Move ctx { ctx with spawned := [] }
  | collect (ctx : Context) : Move ctx { ctx with woken := [] }

/-- A sequence of operations of threads and the scheduler. -/
abbrev Moves : Context → Context → Prop :=
  ReflTransGen Move

/-- Actions poll futures. -/
theorem Asks.acts {waker : Waker} {c d : Context} (h : Asks waker c d) : Acts c d := by
  refine h.lift id fun c d hpoll => ?_
  obtain ⟨id, rfl⟩ := hpoll
  exact .pollFuture c id waker

/-- Threads do what actions do. -/
theorem Acts.deeds {c d : Context} (h : Acts c d) : Deeds c d :=
  h.lift id fun _ _ => .act

/-- What threads do are moves. -/
theorem Deeds.moves {c d : Context} (h : Deeds c d) : Moves c d :=
  h.lift id fun _ _ => .deed

/-! ### What operations change -/

/-- Waking a thread changes the wakes only. -/
theorem wake_eq (ctx : Context) (waker : Waker) :
    ∃ woken, ctx.wake waker = { ctx with woken } := by
  cases waker
  · exact ⟨_, rfl⟩
  · exact ⟨ctx.woken, rfl⟩

/-- Waking several threads changes the wakes only. -/
theorem foldl_wake_eq (ctx : Context) (wakers : List Waker) :
    ∃ woken, wakers.foldl wake ctx = { ctx with woken } := by
  induction wakers generalizing ctx with
  | nil => exact ⟨ctx.woken, rfl⟩
  | cons waker wakers ih =>
      obtain ⟨woken, h⟩ := ctx.wake_eq waker
      obtain ⟨woken', h'⟩ := ih (ctx.wake waker)
      exact ⟨woken', by rw [List.foldl_cons, h', h]⟩

/-- Resolving a future changes the futures and the wakes only. -/
theorem resolve_eq (ctx : Context) (id : FutureId) (outcome : Outcome) :
    ∃ futures woken, ctx.resolve id outcome = { ctx with futures, woken } := by
  obtain ⟨woken, h⟩ := foldl_wake_eq { ctx with futures := (ctx.futures.resolve id outcome).2 }
    ((ctx.futures.resolve id outcome).1.getD [])
  exact ⟨(ctx.futures.resolve id outcome).2, woken, h⟩

/-- The end of a thread changes futures and wakes, or the result of the workflow. -/
theorem conclude_eq (ctx : Context) (role : Role) (outcome : Outcome) :
    ∃ futures woken mainResult,
      Thread.conclude role outcome ctx = { ctx with futures, woken, mainResult } := by
  rcases role with typed | id
  · cases typed <;> exact ⟨ctx.futures, ctx.woken, _, rfl⟩
  · obtain ⟨futures, woken, h⟩ := ctx.resolve_eq id outcome
    exact ⟨futures, woken, ctx.mainResult, h⟩

/-- Polling futures changes the futures only. -/
theorem Asks.eq {waker : Waker} {c d : Context} (h : Asks waker c d) :
    ∃ futures, d = { c with futures } := by
  induction h with
  | refl => exact ⟨c.futures, rfl⟩
  | tail _ hpoll ih =>
      obtain ⟨futures, rfl⟩ := ih
      obtain ⟨id, rfl⟩ := hpoll
      exact ⟨_, rfl⟩

/-- What an act changes: it is quiet and changes futures, wakes and notes only, or it starts a timer
or a child, or it detaches a child. -/
theorem Act.inv {c d : Context} (h : Act c d) :
    (∃ futures woken notes, d = { c with futures, woken, notes })
      ∨ (∃ delay, d = (c.startTimer delay).2)
      ∨ (∃ stub method input, d = (c.startChild stub method input).2)
      ∨ ∃ seq, d = { c with children := c.children.detach seq } := by
  cases h with
  | startTimer delay => exact .inr (.inl ⟨delay, rfl⟩)
  | startChild stub method input => exact .inr (.inr (.inl ⟨stub, method, input, rfl⟩))
  | failedFuture failure =>
      obtain ⟨futures, woken, h⟩ := resolve_eq { c with futures := c.futures.create.2 }
        c.futures.create.1 (.error failure)
      exact .inl ⟨futures, woken, c.notes, h⟩
  | pollFuture id waker => exact .inl ⟨(c.futures.poll id waker).2, c.woken, c.notes, rfl⟩
  | wake waker =>
      obtain ⟨woken, h⟩ := c.wake_eq waker
      exact .inl ⟨c.futures, woken, c.notes, h⟩
  | abandon future =>
      rw [Context.abandon]
      split
      · exact .inr (.inr (.inr ⟨_, rfl⟩))
      · exact .inl ⟨c.futures, c.woken, c.notes, rfl⟩
  | note note => exact .inl ⟨c.futures, c.woken, c.notes ++ [note], rfl⟩

/-- What a move changes: it is quiet and changes none of children, timers and commands, or it starts
a timer or a child, or it detaches a child. -/
theorem Move.inv {c d : Context} (h : Move c d) :
    (∃ futures woken notes spawned mainResult,
        d = { c with futures, woken, notes, spawned, mainResult })
      ∨ (∃ delay, d = (c.startTimer delay).2)
      ∨ (∃ stub method input, d = (c.startChild stub method input).2)
      ∨ ∃ seq, d = { c with children := c.children.detach seq } := by
  cases h with
  | deed h =>
      cases h with
      | act h =>
          rcases h.inv with ⟨futures, woken, notes, rfl⟩ | h | h | h
          · exact .inl ⟨futures, woken, notes, c.spawned, c.mainResult, rfl⟩
          · exact .inr (.inl h)
          · exact .inr (.inr (.inl h))
          · exact .inr (.inr (.inr h))
      | spawn vars steps => exact .inl ⟨_, c.woken, c.notes, _, c.mainResult, rfl⟩
  | conclude role outcome =>
      obtain ⟨futures, woken, mainResult, h⟩ := c.conclude_eq role outcome
      exact .inl ⟨futures, woken, c.notes, c.spawned, mainResult, h⟩
  | adopt => exact .inl ⟨c.futures, c.woken, c.notes, [], c.mainResult, rfl⟩
  | collect => exact .inl ⟨c.futures, [], c.notes, c.spawned, c.mainResult, rfl⟩

/-- No move changes whose execution it is, its converter, its mode and the request to cancel. -/
theorem Moves.fixed {c d : Context} (h : Moves c d) :
    d.info = c.info ∧ d.converter = c.converter ∧ d.replaying = c.replaying
      ∧ d.cancelReason = c.cancelReason := by
  induction h with
  | refl => exact ⟨rfl, rfl, rfl, rfl⟩
  | tail _ h ih =>
      rcases h.inv with ⟨_, _, _, _, _, rfl⟩ | ⟨_, rfl⟩ | ⟨_, _, _, rfl⟩ | ⟨_, rfl⟩ <;> exact ih

/-- Acts spawn no threads. -/
theorem Acts.spawned {c d : Context} (h : Acts c d) : d.spawned = c.spawned := by
  induction h with
  | refl => rfl
  | tail _ h ih =>
      rcases h.inv with ⟨_, _, _, rfl⟩ | ⟨_, rfl⟩ | ⟨_, _, _, rfl⟩ | ⟨_, rfl⟩ <;> exact ih

/-! ### Actions -/

/-- Calling a method is a sequence of acts. -/
theorem call_acts (ctx : Context) (stub : Stub) (method : String) (args : Json) :
    Acts ctx (ctx.call stub method args).2 := by
  rw [call]
  split
  · split
    · exact .single (.startChild ctx stub method _)
    · exact .single (.failedFuture ctx _)
  · exact .single (.failedFuture ctx _)

/-- Calling through a method reference is a sequence of acts. -/
theorem invoke_acts (ctx : Context) (ref : MethodRef) (args : Json) :
    Acts ctx (ctx.invoke ref args).2 := by
  rw [invoke]
  split
  · exact ctx.call_acts _ ref.name args
  · exact .refl
  · exact .refl

end Context

namespace Wait

/-- Polling for the payloads of several futures. -/
theorem pollAll_asks (waker : Waker) (ctx : Context) (refs : List (FutureRef × Option String)) :
    ctx.Asks waker (pollAll waker ctx refs).2 := by
  induction refs generalizing ctx with
  | nil => exact .refl
  | cons entry refs ih =>
      obtain ⟨ref, payload⟩ := entry
      cases payload with
      | some payload =>
          have h := ih ctx
          simp only [pollAll]
          rcases hrest : pollAll waker ctx refs with ⟨_ | _, _⟩ <;> rw [hrest] at h <;> exact h
      | none =>
          simp only [pollAll]
          rcases hfirst : ctx.pollFuture ref.id waker with ⟨_ | _ | _, ctx'⟩ <;> dsimp only
          · have h := ih ctx'
            rcases hrest : pollAll waker ctx' refs with ⟨_ | _, _⟩ <;> rw [hrest] at h <;>
              exact .head ⟨ref.id, by rw [hfirst]⟩ h
          · exact .single ⟨ref.id, by rw [hfirst]⟩
          · have h := ih ctx'
            rcases hrest : pollAll waker ctx' refs with ⟨_ | _, _⟩ <;> rw [hrest] at h <;>
              exact .head ⟨ref.id, by rw [hfirst]⟩ h

/-- Polling for the first of several futures. -/
theorem pollAny_asks (waker : Waker) (ctx : Context) (index : Nat) (refs : List FutureRef) :
    ctx.Asks waker (pollAny waker ctx index refs).2 := by
  induction refs generalizing ctx index with
  | nil => exact .refl
  | cons ref refs ih =>
      simp only [pollAny]
      rcases hfirst : ctx.pollFuture ref.id waker with ⟨_ | _, ctx'⟩
      · exact .head ⟨ref.id, by rw [hfirst]⟩ (ih ctx' (index + 1))
      · exact .single ⟨ref.id, by rw [hfirst]⟩

/-- **Trying a wait polls futures** and does nothing else. -/
theorem attempt_asks (waker : Waker) (ctx : Context) (wait : Wait) :
    ctx.Asks waker (wait.attempt waker ctx).2 := by
  cases wait with
  | future ref type =>
      simp only [attempt]
      rcases hfirst : ctx.pollFuture ref.id waker with ⟨_ | _, _⟩ <;>
        exact .single ⟨ref.id, by rw [hfirst]⟩
  | timer ref =>
      simp only [attempt]
      rcases hfirst : ctx.pollFuture ref.id waker with ⟨_ | _, _⟩ <;>
        exact .single ⟨ref.id, by rw [hfirst]⟩
  | all futures =>
      have h := pollAll_asks waker ctx futures
      simp only [attempt]
      rcases hall : pollAll waker ctx futures with ⟨_ | polled, _⟩ <;> rw [hall] at h
      · exact h
      · dsimp only
        split <;> exact h
  | any futures which =>
      have h := pollAny_asks waker ctx 0 futures
      simp only [attempt]
      rcases hany : pollAny waker ctx 0 futures with ⟨_ | ⟨_, _⟩, _⟩ <;> rw [hany] at h <;>
        exact h
  | turn => exact .refl
  | never => exact .refl

/-- Trying a wait is a sequence of acts. -/
theorem attempt_acts (waker : Waker) (ctx : Context) (wait : Wait) :
    ctx.Acts (wait.attempt waker ctx).2 :=
  (attempt_asks waker ctx wait).acts

end Wait

/-- **An action is a sequence of acts.** -/
theorem Action.perform_acts (waker : Waker) (vars : Variables) (ctx : Context) (action : Action) :
    ctx.Acts (action.perform waker vars ctx).2 := by
  cases action with
  | start stub method args plain =>
      have h := ctx.invoke_acts (if plain then .plain method else stub.method method)
        (vars.evaluate args)
      simp only [perform]
      split <;> rename_i hinvoke <;> rw [hinvoke] at h <;> exact h
  | call stub method args type =>
      exact (ctx.call_acts stub method (vars.evaluate args)).trans (Wait.attempt_acts waker _ _)
  | callStart stub method args => exact ctx.call_acts stub method (vars.evaluate args)
  | await name type =>
      simp only [perform]
      cases vars.future? name with
      | none => exact .refl
      | some future => exact Wait.attempt_acts waker ctx _
  | all names =>
      simp only [perform]
      cases names.mapM vars.future? with
      | none => exact .refl
      | some futures => exact Wait.attempt_acts waker ctx _
  | any names which =>
      simp only [perform]
      cases names.mapM vars.future? with
      | none => exact .refl
      | some futures => exact Wait.attempt_acts waker ctx _
  | timer delay => exact .single (.startTimer ctx delay)
  | sleep delay => exact .head (.startTimer ctx delay) (Wait.attempt_acts waker _ _)
  | abandon name =>
      simp only [perform]
      cases vars.future? name with
      | none => exact .refl
      | some future => exact .single (.abandon ctx future)
  | inspect name =>
      simp only [perform]
      cases vars.future? name with
      | none => exact .refl
      | some future => exact .single (.note ctx _)
  | observe => exact .single (.note ctx _)
  | trace text => exact .single (.note ctx _)
  | log level text =>
      simp only [perform]
      split
      · exact .refl
      · exact .single (.note ctx _)
  | encode args =>
      simp only [perform]
      split <;> exact .refl
  | decode payload type =>
      simp only [perform]
      split <;> exact .refl
  | pause => exact .single (.wake ctx waker)
  | rethrow name =>
      simp only [perform]
      split <;> exact .refl
  | set | forever | panic | fail | failWith | finish => exact .refl

namespace Thread

/-- Executing statements is a sequence of deeds. -/
theorem advance_deeds (waker : Waker) (vars : Variables) (ctx : Context)
    (steps : List Statement) : ctx.Deeds (advance waker vars ctx steps).2 := by
  induction vars, ctx, steps using advance.induct waker with
  | case1 vars ctx => rw [advance]
  | case2 vars ctx action binding rest progress ctx' hperform vars' hsettle ih =>
      have h := (action.perform_acts waker vars ctx).deeds
      rw [hperform] at h
      simp only [advance, hperform, hsettle]
      exact h.trans ih
  | case3 vars ctx action binding rest progress ctx' hperform halt hsettle =>
      have h := (action.perform_acts waker vars ctx).deeds
      rw [hperform] at h
      simpa only [advance, hperform, hsettle] using h
  | case4 vars ctx steps rest future ctx' hspawn name ih =>
      have h := Context.Deed.spawn ctx vars steps
      rw [hspawn] at h
      simp only [advance, hspawn]
      exact .head h ih
  | case5 vars ctx steps rest future ctx' hspawn ih =>
      have h := Context.Deed.spawn ctx vars steps
      rw [hspawn] at h
      simp only [advance, hspawn]
      exact .head h ih
  | case6 vars ctx condition yes no rest hholds ih => simpa only [advance, hholds] using ih
  | case7 vars ctx condition yes no rest hholds ih => simpa only [advance, hholds] using ih
  | case8 vars ctx condition yes no rest hholds => simp only [advance, hholds]; exact .refl
  | case9 vars ctx steps rest ih => simpa only [advance] using ih
  | case10 vars ctx times steps rest ih => simpa only [advance] using ih

/-- Going on with a thread is a sequence of deeds. -/
theorem resume_deeds (waker : Waker) (ctx : Context) (thread : Thread) :
    ctx.Deeds (thread.resume waker ctx).2 := by
  rw [resume]
  split
  · exact advance_deeds waker _ ctx _
  · rename_i wait binding _
    have h := (Wait.attempt_acts waker ctx wait).deeds
    split
    rename_i progress ctx' hattempt
    rw [hattempt] at h
    split
    · exact h.trans (advance_deeds waker _ ctx' _)
    · exact h

/-- **What a poll of a thread does.** The thread does a sequence of deeds, and then it ends as its
role says, panics or waits. -/
theorem poll_inv (id : ThreadId) (thread : Thread) (ctx : Context) :
    ∃ ctx', ctx.Deeds ctx'
      ∧ ((∃ outcome, thread.poll id ctx = (.done, conclude thread.role outcome ctx'))
        ∨ (∃ message, thread.poll id ctx = (.panicked message, ctx'))
        ∨ ∃ body, thread.poll id ctx = (.pending body, ctx') ∧ body.role = thread.role) := by
  have h := resume_deeds (.thread id) ctx thread
  rw [poll]
  rcases hresume : thread.resume (.thread id) ctx
    with ⟨⟨vars, result⟩ | message | ⟨vars, wait, binding, rest⟩, ctx'⟩ <;> rw [hresume] at h
  · exact ⟨ctx', h, .inl ⟨_, rfl⟩⟩
  · exact ⟨ctx', h, .inr (.inl ⟨message, rfl⟩)⟩
  · exact ⟨ctx', h, .inr (.inr ⟨_, rfl, rfl⟩)⟩

/-- **A poll of a thread is a sequence of moves.** -/
theorem poll_moves (id : ThreadId) (thread : Thread) (ctx : Context) :
    ctx.Moves (thread.poll id ctx).2 := by
  obtain ⟨ctx', hdeeds, ⟨outcome, h⟩ | ⟨message, h⟩ | ⟨body, h, -⟩⟩ := thread.poll_inv id ctx <;>
    rw [h]
  · exact hdeeds.moves.tail (.conclude ctx' _ outcome)
  · exact hdeeds.moves
  · exact hdeeds.moves

end Thread

namespace Execution

/-- **Letting the threads of an execution run is a sequence of moves**, also if one panics. -/
theorem runThreads_moves (x : Execution) :
    x.context.Moves x.runThreads.context := by
  have h : x.context.Moves (Scheduler.run Thread.workload (pollBound x.scheduler x.context)
      x.scheduler x.context).2.2 :=
    Scheduler.run_keeps (fun a h => h.tail (.adopt a)) (fun a h => h.tail (.collect a))
      (fun id thread a h => h.trans (thread.poll_moves id a)) _ x.scheduler .refl
  rw [runThreads]
  split <;> rename_i hrun <;> rw [hrun] at h
  · exact h.tail (.conclude _ (.main false) _)
  · exact h

/-! ### What the parts of a step change -/

/-- Letting the threads run changes the threads and the context only. -/
theorem runThreads_eq (x : Execution) :
    ∃ scheduler context, x.runThreads = { x with scheduler, context } := by
  rw [runThreads]
  split <;> exact ⟨_, _, rfl⟩

/-- Issuing requests to cancel adds them to the commands, in order. -/
theorem foldl_issue_cancel (requests : List (Nat × String)) (ctx : Context) :
    requests.foldl (fun ctx (seq, workflowId) => ctx.issue (.cancelChild seq workflowId)) ctx
      = { ctx with
          commands := ctx.commands ++ requests.map fun request =>
            .cancelChild request.1 request.2 } := by
  induction requests generalizing ctx with
  | nil => simp
  | cons request requests ih =>
      rw [List.foldl_cons, ih]
      simp [Context.issue]

/-- How an instance settles: a returned value completes it; otherwise a request to cancel asks the
children and closes it once none is pending; otherwise a failure fails it; otherwise it goes on. -/
theorem settle_inv (x : Execution) :
    (∃ result, x.context.mainResult = some (.ok result) ∧ x.settle = { x with
        context := { x.context with commands := x.context.commands ++ [.complete result] }
        complete := true })
      ∨ (∃ reason, x.context.cancelReason = some reason
        ∧ x.context.children.requestCancel.2.pending = []
        ∧ x.settle = { x with
          context := { x.context with
            children := x.context.children.requestCancel.2
            commands := x.context.commands ++ x.context.children.requestCancel.1.map
              (fun request => .cancelChild request.1 request.2) ++ [.cancel reason] }
          complete := true })
      ∨ (∃ reason, x.context.cancelReason = some reason
        ∧ x.context.children.requestCancel.2.pending ≠ []
        ∧ x.settle = { x with
          context := { x.context with
            children := x.context.children.requestCancel.2
            commands := x.context.commands ++ x.context.children.requestCancel.1.map
              fun request => .cancelChild request.1 request.2 } })
      ∨ (∃ failure, x.context.mainResult = some (.error failure) ∧ x.settle = { x with
        context := { x.context with commands := x.context.commands ++ [.fail failure] }
        complete := true })
      ∨ x.settle = x := by
  rw [settle]
  split
  · rename_i result hresult
    exact .inl ⟨result, hresult, rfl⟩
  · split
    · rename_i reason hreason
      simp only [foldl_issue_cancel]
      split
      · rename_i hpending
        exact .inr (.inl ⟨reason, hreason, List.isEmpty_iff.mp hpending, rfl⟩)
      · rename_i hpending
        exact .inr (.inr (.inl ⟨reason, hreason, fun h => hpending (List.isEmpty_iff.mpr h), rfl⟩))
    · split
      · rename_i failure hfailure
        exact .inr (.inr (.inr (.inl ⟨failure, hfailure, rfl⟩)))
      · exact .inr (.inr (.inr (.inr rfl)))

/-- Settling changes the commands and the children, and whether the instance has closed. -/
theorem settle_eq (x : Execution) :
    ∃ commands children complete, x.settle
      = { x with context := { x.context with commands, children }, complete } := by
  rcases x.settle_inv with ⟨_, -, h⟩ | ⟨_, -, -, h⟩ | ⟨_, -, -, h⟩ | ⟨_, -, h⟩ | h
  · exact ⟨_, x.context.children, true, h⟩
  · exact ⟨_, _, true, h⟩
  · exact ⟨_, _, x.complete, h⟩
  · exact ⟨_, x.context.children, true, h⟩
  · exact ⟨x.context.commands, x.context.children, x.complete, h⟩

/-- How an input is applied: it is news of a child, or a timer fires, or the workflow is asked to
cancel. -/
theorem applyInput_inv {ctx ctx' : Context} {event : Event} (h : applyInput ctx event = .ok ctx') :
    (∃ seq transition child child' outcome futures woken,
        childNews? event = some (seq, transition) ∧ ctx.children.get? seq = some child
          ∧ child.apply transition = .ok (child', outcome)
          ∧ ctx' = { ctx with children := ctx.children.put child', futures, woken })
      ∨ (∃ seq futures woken, event = .timerFired seq
        ∧ ctx' = { ctx with
          timers := ctx.timers.filter fun timer => timer.1 ≠ seq, futures, woken })
      ∨ ∃ reason cancelReason, event = .cancelRequested reason
        ∧ ctx' = { ctx with cancelReason } := by
  simp only [applyInput] at h
  split at h
  · rename_i seq transition hnews
    simp only [Children.apply] at h
    cases hget : ctx.children.get? seq with
    | none => simp [hget] at h
    | some child =>
        rcases happly : child.apply transition with e | ⟨child', outcome⟩
        · simp [hget, happly] at h
        · simp only [hget, happly] at h
          refine .inl ⟨seq, transition, child, child', outcome, ?_⟩
          cases outcome with
          | none =>
              cases h
              exact ⟨ctx.futures, ctx.woken, hnews, hget, happly, rfl⟩
          | some outcome =>
              cases h
              obtain ⟨futures, woken, h⟩ := Context.resolve_eq
                { ctx with children := ctx.children.put child' } child'.future outcome
              exact ⟨futures, woken, hnews, hget, happly, h⟩
  · split at h
    · split at h
      · cases h
        obtain ⟨futures, woken, h⟩ := Context.resolve_eq { ctx with timers := _ } _ (.ok "")
        exact .inr (.inl ⟨_, futures, woken, rfl, h⟩)
      · cases h
    · cases h
      exact .inr (.inr ⟨_, _, rfl, rfl⟩)
    · cases h

/-- An input that is accepted changes children, timers, futures, wakes and the request to cancel. -/
theorem applyInput_eq {ctx ctx' : Context} {event : Event} (h : applyInput ctx event = .ok ctx') :
    ∃ children timers futures woken cancelReason,
      ctx' = { ctx with children, timers, futures, woken, cancelReason } := by
  rcases applyInput_inv h with ⟨_, _, _, _, _, _, _, -, -, -, rfl⟩ | ⟨_, _, _, -, rfl⟩
    | ⟨_, _, -, rfl⟩
  · exact ⟨_, ctx.timers, _, _, ctx.cancelReason, rfl⟩
  · exact ⟨ctx.children, _, _, _, ctx.cancelReason, rfl⟩
  · exact ⟨ctx.children, ctx.timers, ctx.futures, ctx.woken, _, rfl⟩

/-- How an input is accepted: it is applied to the context of a started execution, or it is the
start of the execution and the main thread joins. -/
theorem accept_inv {x x' : Execution} {event : Event} (h : x.accept event = .ok x') :
    (x.started = true ∧ ∃ context, applyInput x.context event = .ok context
        ∧ x' = { x with context })
      ∨ (x.started = false ∧ ∃ workflowType method input parent,
          event = .executionStarted workflowType method input parent
            ∧ x' = { x with
                started := true
                scheduler := x.scheduler.spawn
                  (x.program.mainThread x.context.converter input) }) := by
  simp only [accept] at h
  split at h
  · rename_i hstarted
    split at h
    · rename_i context happly
      cases h
      exact .inl ⟨hstarted, context, happly, rfl⟩
    · cases h
  · rename_i hstarted
    split at h
    · cases h
      exact .inr ⟨by simpa using hstarted, _, _, _, _, rfl, rfl⟩
    · cases h

end Execution

end DurableWorkflow
