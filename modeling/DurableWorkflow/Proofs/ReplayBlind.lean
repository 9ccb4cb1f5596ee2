import DurableWorkflow.Proofs.Conduct
import DurableWorkflow.Proofs.Overlays

/-!
# Programs that do not ask whether they are replayed

A program is replay-blind if no condition in it asks whether history is being applied again. Such a
program still meets the replay flag in two places: log lines are dropped while it is set, and an
observation of the execution shows it. Both go to the notes, which no statement reads. So a poll of
a replay-blind thread is the same in both modes except for the notes, and what is left of the
thread, as well as every thread it spawned, is replay-blind again.

## Main results

* `Context.under` — a context with another replay flag and other notes.
* `Thread.advance_under`, `Thread.poll_under` — statements and polls commute with `under`.
* `Thread.poll_blind` — what is left of a replay-blind thread, and what it spawned, is replay-blind.
* `Scheduler.run_related` — scheduler runs on two related states go the same way.
-/

namespace DurableWorkflow

namespace Context

variable (ctx : Context) (replaying : Bool) (notes : List Note)

/-- A context in a given mode and with given notes, otherwise unchanged. -/
def under : Context :=
  { ctx with replaying, notes }

/-! ### Operations that neither read the mode nor leave notes

Giving a context a mode and notes is an overlay, and these operations commute with all overlays. -/

/-- Waking a thread commutes with `under`. -/
@[simp] theorem wake_under (waker : Waker) :
    (ctx.under replaying notes).wake waker = (ctx.wake waker).under replaying notes :=
  ctx.wake_overlay ⟨fun _ => replaying, fun _ => notes, id⟩ waker

/-- Starting a timer commutes with `under`. -/
@[simp] theorem startTimer_under (delay : Duration) :
    (ctx.under replaying notes).startTimer delay
      = ((ctx.startTimer delay).1, (ctx.startTimer delay).2.under replaying notes) :=
  rfl

/-- Spawning a thread commutes with `under`. -/
@[simp] theorem spawn_under (vars : Variables) (steps : List Statement) :
    (ctx.under replaying notes).spawn vars steps
      = ((ctx.spawn vars steps).1, (ctx.spawn vars steps).2.under replaying notes) :=
  rfl

/-- Calling a method commutes with `under`. -/
@[simp] theorem call_under (stub : Stub) (method : String) (args : Json) :
    (ctx.under replaying notes).call stub method args
      = ((ctx.call stub method args).1, (ctx.call stub method args).2.under replaying notes) :=
  ctx.call_overlay ⟨fun _ => replaying, fun _ => notes, id⟩ stub method args

/-- Calling through a method reference commutes with `under`. -/
@[simp] theorem invoke_under (ref : MethodRef) (args : Json) :
    (ctx.under replaying notes).invoke ref args
      = ((ctx.invoke ref args).1, (ctx.invoke ref args).2.under replaying notes) :=
  ctx.invoke_overlay ⟨fun _ => replaying, fun _ => notes, id⟩ ref args

/-- Detaching a child commutes with `under`. -/
@[simp] theorem abandon_under (future : FutureRef) :
    (ctx.under replaying notes).abandon future
      = (ctx.abandon future).under replaying notes :=
  ctx.abandon_overlay ⟨fun _ => replaying, fun _ => notes, id⟩ future

end Context

/-- Trying a wait commutes with `under`. -/
@[simp] theorem Wait.attempt_under (waker : Waker) (ctx : Context) (replaying : Bool)
    (notes : List Note) (wait : Wait) :
    wait.attempt waker (ctx.under replaying notes)
      = ((wait.attempt waker ctx).1, (wait.attempt waker ctx).2.under replaying notes) :=
  wait.attempt_overlay waker ctx ⟨fun _ => replaying, fun _ => notes, id⟩

/-! ### Actions and statements -/

/-- An action does the same in both modes; only the notes may come out different. -/
theorem Action.perform_under (waker : Waker) (vars : Variables) (ctx : Context) (replaying : Bool)
    (notes : List Note) (action : Action) :
    ∃ notes', action.perform waker vars (ctx.under replaying notes)
      = ((action.perform waker vars ctx).1,
          (action.perform waker vars ctx).2.under replaying notes') := by
  cases action with
  | start stub method args plain =>
      refine ⟨notes, ?_⟩
      simp only [perform, Context.invoke_under]
      split <;> rename_i h <;> simp only [Prod.mk.injEq] at h <;> obtain ⟨h, rfl⟩ := h <;>
        rcases hinv : ctx.invoke _ _ with ⟨_, _⟩ <;> rw [hinv] at h <;> subst h <;> rfl
  | call stub method args type =>
      exact ⟨notes, by simp only [perform, Context.call_under, Wait.attempt_under]⟩
  | callStart stub method args =>
      exact ⟨notes, by simp only [perform, Context.call_under]⟩
  | await name type =>
      refine ⟨notes, ?_⟩
      simp only [perform]
      cases vars.future? name <;> simp only [Wait.attempt_under]
  | all names =>
      refine ⟨notes, ?_⟩
      simp only [perform]
      cases names.mapM vars.future? <;> simp only [Wait.attempt_under]
  | any names which =>
      refine ⟨notes, ?_⟩
      simp only [perform]
      cases names.mapM vars.future? <;> simp only [Wait.attempt_under]
  | timer delay => exact ⟨notes, rfl⟩
  | sleep delay =>
      exact ⟨notes, by simp only [perform, Context.startTimer_under, Wait.attempt_under]⟩
  | abandon name =>
      refine ⟨notes, ?_⟩
      simp only [perform]
      cases vars.future? name <;> simp only [Context.abandon_under]
  | inspect name =>
      simp only [perform]
      cases vars.future? name with
      | none => exact ⟨notes, rfl⟩
      | some future => exact ⟨notes ++ [.future (ctx.view future)], rfl⟩
  | observe => exact ⟨_, rfl⟩
  | trace text => exact ⟨_, rfl⟩
  | log level text =>
      -- the one place where the mode is read: the line is dropped during replay
      have logged (c : Context) : ∃ notes', (Action.log level text).perform waker vars c
          = (.reply .done, c.under c.replaying notes') := by
        simp only [perform]
        split
        · exact ⟨c.notes, rfl⟩
        · exact ⟨_, rfl⟩
      obtain ⟨notes₁, h₁⟩ := logged ctx
      obtain ⟨notes₂, h₂⟩ := logged (ctx.under replaying notes)
      rw [h₁, h₂]
      exact ⟨notes₂, rfl⟩
  | encode args =>
      refine ⟨notes, ?_⟩
      simp only [perform, Context.under]
      cases ctx.converter.encode _ <;> rfl
  | decode payload type =>
      refine ⟨notes, ?_⟩
      simp only [perform, Context.under]
      cases ctx.converter.decode _ _ <;> rfl
  | set text => exact ⟨notes, rfl⟩
  | pause => exact ⟨notes, by simp only [perform, Context.wake_under]⟩
  | forever => exact ⟨notes, rfl⟩
  | panic payload => exact ⟨notes, rfl⟩
  | fail failure => exact ⟨notes, rfl⟩
  | failWith message => exact ⟨notes, rfl⟩
  | rethrow name =>
      refine ⟨notes, ?_⟩
      simp only [perform]
      cases vars.failure? name <;> rfl
  | finish value => exact ⟨notes, rfl⟩

/-- An action that has to wait leaves the statements that follow it. -/
theorem Progress.settle_waiting {progress : Progress} {binding : Binding} {vars : Variables}
    {rest : List Statement} {vars' : Variables} {wait : Wait} {binding' : Binding}
    {rest' : List Statement}
    (h : progress.settle binding vars rest = .error (.waiting vars' wait binding' rest')) :
    rest' = rest := by
  cases progress with
  | waiting wait =>
      simp only [settle, Except.error.injEq, Halt.waiting.injEq] at h
      exact h.2.2.2.symm
  | ready reply which =>
      -- an action that has ended lets its thread go on or ends it
      cases reply <;> simp only [settle, Binding.settle] at h <;> (try split at h) <;> cases h

/-- A question other than whether history is being replayed has one answer in both modes. -/
theorem Condition.holds?_under {condition : Condition} (h : condition ≠ .replaying)
    (vars : Variables) (ctx : Context) (replaying : Bool) (notes : List Note) :
    condition.holds? vars (ctx.under replaying notes) = condition.holds? vars ctx := by
  cases condition with
  | replaying => exact absurd rfl h
  | cancelRequested | ready | failed | equal => rfl

namespace Statement

/-- A list is replay-blind exactly when its parts are. -/
@[simp] theorem listIsReplayBlind_append (a b : List Statement) :
    listIsReplayBlind (a ++ b) = (listIsReplayBlind a && listIsReplayBlind b) := by
  induction a with
  | nil => simp [listIsReplayBlind]
  | cons step steps ih => simp [listIsReplayBlind, ih, Bool.and_assoc]

/-- What follows the first of some replay-blind statements is replay-blind. -/
theorem tail_blind {step : Statement} {rest : List Statement}
    (blind : listIsReplayBlind (step :: rest)) : listIsReplayBlind rest := by
  simp only [listIsReplayBlind, Bool.and_eq_true] at blind
  exact blind.2

/-- The parts of a replay-blind branch. -/
theorem branch_blind {condition : Condition} {yes no rest : List Statement}
    (blind : listIsReplayBlind (.branch condition yes no :: rest)) :
    (condition ≠ .replaying ∧ listIsReplayBlind yes) ∧ listIsReplayBlind no
      ∧ listIsReplayBlind rest := by
  simpa [listIsReplayBlind, isReplayBlind, and_assoc] using blind

/-- One more round of a replay-blind loop is replay-blind. -/
theorem loop_blind {times : Nat} {steps rest : List Statement}
    (blind : listIsReplayBlind (.loop (times + 1) steps :: rest)) :
    listIsReplayBlind (steps ++ .loop times steps :: rest) := by
  simpa [listIsReplayBlind, isReplayBlind] using blind

end Statement

namespace Thread

/-- Whether no statement that is left of a thread asks if history is being replayed. -/
def isReplayBlind (thread : Thread) : Bool :=
  Statement.listIsReplayBlind thread.rest

/-- Spawning replay-blind statements. -/
theorem spawn_blind {vars : Variables} {ctx ctx' : Context} {steps rest : List Statement}
    {store : Option String} {future : FutureRef}
    (blind : Statement.listIsReplayBlind (.spawn steps store :: rest))
    (hspawned : ∀ thread ∈ ctx.spawned, thread.isReplayBlind)
    (hspawn : ctx.spawn vars steps = (future, ctx')) :
    ∀ thread ∈ ctx'.spawned, thread.isReplayBlind := by
  cases hspawn
  simp only [Statement.listIsReplayBlind, Statement.isReplayBlind, Bool.and_eq_true] at blind
  intro thread hmem
  rcases List.mem_append.mp hmem with hmem | hmem
  · exact hspawned thread hmem
  · obtain rfl := List.mem_singleton.mp hmem
    exact blind.1

/-- **Replay-blind statements run the same in both modes**, except for the notes. -/
theorem advance_under (waker : Waker) (vars : Variables) (ctx : Context)
    (steps : List Statement) (blind : Statement.listIsReplayBlind steps) (replaying : Bool)
    (notes : List Note) :
    ∃ notes', advance waker vars (ctx.under replaying notes) steps
      = ((advance waker vars ctx steps).1,
          (advance waker vars ctx steps).2.under replaying notes') := by
  induction vars, ctx, steps using advance.induct waker generalizing notes with
  | case1 vars ctx => exact ⟨notes, by rw [advance, advance]⟩
  | case2 vars ctx action binding rest progress ctx' hperform vars' hsettle ih =>
      obtain ⟨notes', hunder⟩ := action.perform_under waker vars ctx replaying notes
      obtain ⟨notes', ih⟩ := ih (Statement.tail_blind blind) notes'
      rw [hperform] at hunder
      exact ⟨notes', by simp only [advance, hperform, hunder, hsettle, ih]⟩
  | case3 vars ctx action binding rest progress ctx' hperform halt hsettle =>
      obtain ⟨notes', hunder⟩ := action.perform_under waker vars ctx replaying notes
      rw [hperform] at hunder
      exact ⟨notes', by simp only [advance, hperform, hunder, hsettle]⟩
  | case4 vars ctx steps rest future ctx' hspawn name ih =>
      obtain ⟨notes', ih⟩ := ih (Statement.tail_blind blind) notes
      exact ⟨notes', by simp only [advance, Context.spawn_under, hspawn, ih]⟩
  | case5 vars ctx steps rest future ctx' hspawn ih =>
      obtain ⟨notes', ih⟩ := ih (Statement.tail_blind blind) notes
      exact ⟨notes', by simp only [advance, Context.spawn_under, hspawn, ih]⟩
  | case6 vars ctx condition yes no rest hholds ih =>
      obtain ⟨⟨hne, hyes⟩, -, hrest⟩ := Statement.branch_blind blind
      obtain ⟨notes', ih⟩ := ih (by simp [hyes, hrest]) notes
      exact ⟨notes', by simp only [advance, Condition.holds?_under hne, hholds, ih]⟩
  | case7 vars ctx condition yes no rest hholds ih =>
      obtain ⟨⟨hne, -⟩, hno, hrest⟩ := Statement.branch_blind blind
      obtain ⟨notes', ih⟩ := ih (by simp [hno, hrest]) notes
      exact ⟨notes', by simp only [advance, Condition.holds?_under hne, hholds, ih]⟩
  | case8 vars ctx condition yes no rest hholds =>
      obtain ⟨⟨hne, -⟩, -, -⟩ := Statement.branch_blind blind
      exact ⟨notes, by simp only [advance, Condition.holds?_under hne, hholds]⟩
  | case9 vars ctx steps rest ih =>
      obtain ⟨notes', ih⟩ := ih (Statement.tail_blind blind) notes
      exact ⟨notes', by simp only [advance, ih]⟩
  | case10 vars ctx times steps rest ih =>
      obtain ⟨notes', ih⟩ := ih (Statement.loop_blind blind) notes
      exact ⟨notes', by simp only [advance, ih]⟩

/-- Executing replay-blind statements spawns replay-blind threads only, and what is left of them at
a wait is replay-blind. -/
theorem advance_blind (waker : Waker) (vars : Variables) (ctx : Context)
    (steps : List Statement) (blind : Statement.listIsReplayBlind steps)
    (hspawned : ∀ thread ∈ ctx.spawned, thread.isReplayBlind) :
    (∀ thread ∈ (advance waker vars ctx steps).2.spawned, thread.isReplayBlind)
      ∧ ∀ vars' wait binding rest, (advance waker vars ctx steps).1
          = .waiting vars' wait binding rest → Statement.listIsReplayBlind rest := by
  induction vars, ctx, steps using advance.induct waker with
  | case1 vars ctx =>
      rw [advance]
      exact ⟨hspawned, fun _ _ _ _ h => by cases h⟩
  | case2 vars ctx action binding rest progress ctx' hperform vars' hsettle ih =>
      rw [← (action.perform_acts waker vars ctx).spawned, hperform] at hspawned
      simp only [advance, hperform, hsettle]
      exact ih (Statement.tail_blind blind) hspawned
  | case3 vars ctx action binding rest progress ctx' hperform halt hsettle =>
      rw [← (action.perform_acts waker vars ctx).spawned, hperform] at hspawned
      simp only [advance, hperform, hsettle]
      refine ⟨hspawned, ?_⟩
      rintro vars' wait binding' rest' rfl
      obtain rfl := Progress.settle_waiting hsettle
      exact Statement.tail_blind blind
  | case4 vars ctx steps rest future ctx' hspawn name ih =>
      simp only [advance, hspawn]
      exact ih (Statement.tail_blind blind) (spawn_blind blind hspawned hspawn)
  | case5 vars ctx steps rest future ctx' hspawn ih =>
      simp only [advance, hspawn]
      exact ih (Statement.tail_blind blind) (spawn_blind blind hspawned hspawn)
  | case6 vars ctx condition yes no rest hholds ih =>
      obtain ⟨⟨-, hyes⟩, -, hrest⟩ := Statement.branch_blind blind
      simp only [advance, hholds]
      exact ih (by simp [hyes, hrest]) hspawned
  | case7 vars ctx condition yes no rest hholds ih =>
      obtain ⟨-, hno, hrest⟩ := Statement.branch_blind blind
      simp only [advance, hholds]
      exact ih (by simp [hno, hrest]) hspawned
  | case8 vars ctx condition yes no rest hholds =>
      simp only [advance, hholds]
      exact ⟨hspawned, fun _ _ _ _ h => by cases h⟩
  | case9 vars ctx steps rest ih =>
      simp only [advance]
      exact ih (Statement.tail_blind blind) hspawned
  | case10 vars ctx times steps rest ih =>
      simp only [advance]
      exact ih (Statement.loop_blind blind) hspawned

/-- Going on with a replay-blind thread is the same in both modes, except for the notes. -/
theorem resume_under (waker : Waker) (ctx : Context) (thread : Thread)
    (blind : thread.isReplayBlind) (replaying : Bool) (notes : List Note) :
    ∃ notes', thread.resume waker (ctx.under replaying notes)
      = ((thread.resume waker ctx).1, (thread.resume waker ctx).2.under replaying notes') := by
  simp only [resume]
  split
  · exact advance_under waker _ ctx _ blind replaying notes
  · rename_i wait binding _
    simp only [Wait.attempt_under]
    rcases wait.attempt waker ctx with ⟨progress, ctx'⟩
    dsimp only
    split
    · exact advance_under waker _ ctx' _ blind replaying notes
    · exact ⟨notes, rfl⟩

/-- Going on with a replay-blind thread spawns replay-blind threads only, and what is left of it at
a wait is replay-blind. -/
theorem resume_blind (waker : Waker) (ctx : Context) (thread : Thread)
    (blind : thread.isReplayBlind) (hspawned : ∀ thread ∈ ctx.spawned, thread.isReplayBlind) :
    (∀ t ∈ (thread.resume waker ctx).2.spawned, t.isReplayBlind)
      ∧ ∀ vars' wait binding rest, (thread.resume waker ctx).1
          = .waiting vars' wait binding rest → Statement.listIsReplayBlind rest := by
  rw [resume]
  split
  · exact advance_blind waker _ ctx _ blind hspawned
  · rename_i wait binding _
    rw [← (Wait.attempt_acts waker ctx wait).spawned] at hspawned
    rcases hattempt : wait.attempt waker ctx with ⟨progress, ctx'⟩
    rw [hattempt] at hspawned
    dsimp only
    split
    · exact advance_blind waker _ ctx' _ blind hspawned
    · rename_i hsettle
      refine ⟨hspawned, ?_⟩
      rintro vars' wait' binding' rest' rfl
      obtain rfl := Progress.settle_waiting hsettle
      exact blind

/-- The end of a thread means the same in both modes. -/
@[simp] theorem conclude_under (role : Role) (outcome : Outcome) (ctx : Context)
    (replaying : Bool) (notes : List Note) :
    conclude role outcome (ctx.under replaying notes)
      = (conclude role outcome ctx).under replaying notes :=
  ctx.conclude_overlay ⟨fun _ => replaying, fun _ => notes, id⟩ role outcome

/-- **A poll of a replay-blind thread is the same in both modes**, except for the notes. -/
theorem poll_under (id : ThreadId) (thread : Thread) (ctx : Context)
    (blind : thread.isReplayBlind) (replaying : Bool) (notes : List Note) :
    ∃ notes', thread.poll id (ctx.under replaying notes)
      = ((thread.poll id ctx).1, (thread.poll id ctx).2.under replaying notes') := by
  obtain ⟨notes', h⟩ := thread.resume_under (.thread id) ctx blind replaying notes
  refine ⟨notes', ?_⟩
  simp only [poll]
  rw [h]
  rcases thread.resume (.thread id) ctx with ⟨_ | _ | _, ctx'⟩
  · simp only [conclude_under]
  · rfl
  · rfl

/-- **What is left of a polled replay-blind thread is replay-blind**, and so is what it spawned. -/
theorem poll_blind (id : ThreadId) (thread : Thread) (ctx : Context)
    (blind : thread.isReplayBlind) (hspawned : ∀ thread ∈ ctx.spawned, thread.isReplayBlind) :
    (∀ t ∈ (thread.poll id ctx).2.spawned, t.isReplayBlind)
      ∧ ∀ t, (thread.poll id ctx).1 = .pending t → t.isReplayBlind := by
  obtain ⟨hspawned', hrest⟩ := thread.resume_blind (.thread id) ctx blind hspawned
  rw [poll]
  rcases hresume : thread.resume (.thread id) ctx with ⟨_ | _ | _, ctx'⟩ <;>
    rw [hresume] at hspawned' hrest
  · rename_i result
    refine ⟨?_, fun _ h => by cases h⟩
    obtain ⟨futures, woken, mainResult, h⟩ := Context.conclude_eq ctx' thread.role
      (result.map fun text => text.getD "null")
    dsimp only
    rw [h]
    exact hspawned'
  · exact ⟨hspawned', fun _ h => by cases h⟩
  · refine ⟨hspawned', ?_⟩
    rintro t ⟨⟩
    exact hrest _ _ _ _ rfl

end Thread

end DurableWorkflow
