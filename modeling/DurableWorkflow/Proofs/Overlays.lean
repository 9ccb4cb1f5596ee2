import DurableWorkflow.Execution

/-!
# What waiting and calling do not touch

Of a context, whether history is being replayed, the notes and the threads spawned so far are
neither read nor written by anything that polls or resolves futures or that starts or detaches
children. So these operations commute with any change to those three fields: what they give is the
same, and the contexts that they leave differ by that change and nothing else.

## Main definitions

* `Overlay` — a change to the three fields; `Context.overlay` — a context with the change.
* `Overlay.spawning` — the change to other spawned threads.

## Main results

* `Context.call_overlay`, `Context.invoke_overlay`, `Context.resolve_overlay` — calls and the end of
  futures commute with overlays.
* `Wait.attempt_overlay` — so does trying what a thread waits for.
* `Action.perform_spawning` — no action touches the spawned threads.
-/

namespace DurableWorkflow

/-- A change to what polling, resolving, starting and detaching do not touch. -/
structure Overlay where
  /-- The change to whether history is being replayed. -/
  replaying : Bool → Bool
  /-- The change to the notes. -/
  notes : List Note → List Note
  /-- The change to the threads that were spawned and not adopted yet. -/
  spawned : List Thread → List Thread

/-- The change to other spawned threads. -/
def Overlay.spawning (threads : List Thread) : Overlay :=
  ⟨id, id, fun _ => threads⟩

namespace Context

variable (ctx : Context) (o : Overlay)

/-- A context with a change to it, otherwise the same. -/
def overlay : Context :=
  { ctx with
    replaying := o.replaying ctx.replaying
    notes := o.notes ctx.notes
    spawned := o.spawned ctx.spawned }

/-- Waking a thread commutes with overlays. -/
@[simp] theorem wake_overlay (waker : Waker) :
    (ctx.overlay o).wake waker = (ctx.wake waker).overlay o := by
  cases waker <;> rfl

/-- Waking several threads commutes with overlays. -/
theorem foldl_wake_overlay (wakers : List Waker) :
    wakers.foldl wake (ctx.overlay o) = (wakers.foldl wake ctx).overlay o := by
  induction wakers generalizing ctx with
  | nil => rfl
  | cons waker wakers ih => rw [List.foldl_cons, wake_overlay, ih, List.foldl_cons]

/-- Resolving a future commutes with overlays. -/
@[simp] theorem resolve_overlay (id : FutureId) (outcome : Outcome) :
    (ctx.overlay o).resolve id outcome = (ctx.resolve id outcome).overlay o :=
  foldl_wake_overlay { ctx with futures := (ctx.futures.resolve id outcome).2 } o
    ((ctx.futures.resolve id outcome).1.getD [])

/-- Polling a future commutes with overlays. -/
@[simp] theorem pollFuture_overlay (id : FutureId) (waker : Waker) :
    (ctx.overlay o).pollFuture id waker
      = ((ctx.pollFuture id waker).1, (ctx.pollFuture id waker).2.overlay o) :=
  rfl

/-- A future that fails at once commutes with overlays. -/
@[simp] theorem failedFuture_overlay (failure : Failure) :
    (ctx.overlay o).failedFuture failure
      = ((ctx.failedFuture failure).1, (ctx.failedFuture failure).2.overlay o) :=
  congrArg (Prod.mk _) (resolve_overlay { ctx with futures := ctx.futures.create.2 } o
    ctx.futures.create.1 (.error failure))

/-- Starting a timer commutes with overlays. -/
@[simp] theorem startTimer_overlay (delay : Duration) :
    (ctx.overlay o).startTimer delay
      = ((ctx.startTimer delay).1, (ctx.startTimer delay).2.overlay o) :=
  rfl

/-- Calling a method commutes with overlays. -/
@[simp] theorem call_overlay (stub : Stub) (method : String) (args : Json) :
    (ctx.overlay o).call stub method args
      = ((ctx.call stub method args).1, (ctx.call stub method args).2.overlay o) := by
  have hconv : (ctx.overlay o).converter = ctx.converter := rfl
  simp only [call, hconv, failedFuture_overlay]
  split
  · cases ctx.converter.encode args <;> rfl
  · rfl

/-- Calling through a method reference commutes with overlays. -/
@[simp] theorem invoke_overlay (ref : MethodRef) (args : Json) :
    (ctx.overlay o).invoke ref args
      = ((ctx.invoke ref args).1, (ctx.invoke ref args).2.overlay o) := by
  simp only [invoke]
  split <;> simp

/-- Detaching a child commutes with overlays. -/
@[simp] theorem abandon_overlay (future : FutureRef) :
    (ctx.overlay o).abandon future = (ctx.abandon future).overlay o := by
  simp only [abandon]
  split <;> rfl

/-- The end of a thread commutes with overlays. -/
@[simp] theorem conclude_overlay (role : Role) (outcome : Outcome) :
    Thread.conclude role outcome (ctx.overlay o)
      = (Thread.conclude role outcome ctx).overlay o := by
  rcases role with typed | id
  · cases typed <;> rfl
  · exact ctx.resolve_overlay o id outcome

end Context

namespace Wait

variable (waker : Waker) (ctx : Context) (o : Overlay)

/-- Polling several futures commutes with overlays. -/
@[simp] theorem pollAll_overlay (refs : List (FutureRef × Option String)) :
    pollAll waker (ctx.overlay o) refs
      = ((pollAll waker ctx refs).1, (pollAll waker ctx refs).2.overlay o) := by
  induction refs generalizing ctx with
  | nil => rfl
  | cons entry refs ih =>
      obtain ⟨ref, payload⟩ := entry
      cases payload with
      | some payload =>
          simp only [pollAll, ih]
          rcases pollAll waker ctx refs with ⟨_ | _, _⟩ <;> rfl
      | none =>
          simp only [pollAll, Context.pollFuture_overlay]
          rcases ctx.pollFuture ref.id waker with ⟨_ | _ | _, ctx'⟩ <;> simp only [ih] <;>
            rcases pollAll waker ctx' refs with ⟨_ | _, _⟩ <;> rfl

/-- Polling for the first of several futures commutes with overlays. -/
@[simp] theorem pollAny_overlay (index : Nat) (refs : List FutureRef) :
    pollAny waker (ctx.overlay o) index refs
      = ((pollAny waker ctx index refs).1, (pollAny waker ctx index refs).2.overlay o) := by
  induction refs generalizing ctx index with
  | nil => rfl
  | cons ref refs ih =>
      simp only [pollAny, Context.pollFuture_overlay]
      rcases ctx.pollFuture ref.id waker with ⟨_ | _, ctx'⟩
      · exact ih ctx' (index + 1)
      · rfl

/-- **Trying a wait commutes with overlays.** -/
@[simp] theorem attempt_overlay (wait : Wait) :
    wait.attempt waker (ctx.overlay o)
      = ((wait.attempt waker ctx).1, (wait.attempt waker ctx).2.overlay o) := by
  cases wait with
  | future ref type =>
      simp only [attempt, Context.pollFuture_overlay]
      rcases ctx.pollFuture ref.id waker with ⟨_ | _, _⟩ <;> rfl
  | timer ref =>
      simp only [attempt, Context.pollFuture_overlay]
      rcases ctx.pollFuture ref.id waker with ⟨_ | _, _⟩ <;> rfl
  | all futures =>
      simp only [attempt, pollAll_overlay]
      rcases pollAll waker ctx futures with ⟨_ | polled, _⟩
      · rfl
      · dsimp only
        split <;> rfl
  | any futures which =>
      simp only [attempt, pollAny_overlay]
      rcases pollAny waker ctx 0 futures with ⟨_ | ⟨_, _⟩, _⟩ <;> rfl
  | turn => rfl
  | never => rfl

end Wait

/-- **No action touches the spawned threads**, and none looks at them. -/
theorem Action.perform_spawning (waker : Waker) (vars : Variables) (ctx : Context)
    (threads : List Thread) (action : Action) :
    action.perform waker vars (ctx.overlay (.spawning threads))
      = ((action.perform waker vars ctx).1,
          (action.perform waker vars ctx).2.overlay (.spawning threads)) := by
  cases action with
  | start stub method args plain =>
      simp only [perform, Context.invoke_overlay]
      rcases ctx.invoke _ _ with ⟨_ | _, _⟩ <;> rfl
  | call stub method args type => simp only [perform, Context.call_overlay, Wait.attempt_overlay]
  | callStart stub method args => simp only [perform, Context.call_overlay]
  | await name type =>
      simp only [perform]
      cases vars.future? name <;> simp only [Wait.attempt_overlay]
  | all names | any names which =>
      simp only [perform]
      cases names.mapM vars.future? <;> simp only [Wait.attempt_overlay]
  | sleep delay => simp only [perform, Context.startTimer_overlay, Wait.attempt_overlay]
  | abandon name =>
      simp only [perform]
      cases vars.future? name <;> simp only [Context.abandon_overlay]
  | inspect name =>
      simp only [perform]
      cases vars.future? name <;> rfl
  | rethrow name =>
      simp only [perform]
      cases vars.failure? name <;> rfl
  | log level text =>
      have hreplaying : (ctx.overlay (.spawning threads)).replaying = ctx.replaying := rfl
      simp only [perform, hreplaying]
      split <;> rfl
  | encode args =>
      have hconverter : (ctx.overlay (.spawning threads)).converter = ctx.converter := rfl
      simp only [perform, hconverter]
      split <;> rfl
  | decode payload type =>
      have hconverter : (ctx.overlay (.spawning threads)).converter = ctx.converter := rfl
      simp only [perform, hconverter]
      split <;> rfl
  | pause => simp only [perform, Context.wake_overlay]
  | timer | observe | trace | set | forever | panic | fail | failWith | finish => rfl

namespace Execution

/-- Applying an input commutes with overlays. -/
theorem applyInput_overlay (ctx : Context) (o : Overlay) (event : Event) :
    applyInput (ctx.overlay o) event = (applyInput ctx event).map fun ctx => ctx.overlay o := by
  have hchildren : (ctx.overlay o).children = ctx.children := rfl
  have htimers : (ctx.overlay o).timers = ctx.timers := rfl
  simp only [applyInput, hchildren, htimers]
  split
  · rename_i seq transition _
    rcases ctx.children.apply seq transition with _ | ⟨children, _ | ⟨future, outcome⟩⟩
    · rfl
    · rfl
    · exact congrArg Except.ok (Context.resolve_overlay { ctx with children } o future outcome)
  · split
    · rename_i seq _
      cases ctx.timers.lookup seq with
      | none => rfl
      | some future =>
          exact congrArg Except.ok (Context.resolve_overlay
            { ctx with timers := ctx.timers.filter fun timer => timer.1 ≠ seq } o future (.ok ""))
    · rfl
    · rfl

end Execution

end DurableWorkflow
