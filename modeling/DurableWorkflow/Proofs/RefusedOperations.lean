import DurableWorkflow.Backend.Clock
import DurableWorkflow.Proofs.Files
import DurableWorkflow.Proofs.InPlace

/-!
# Refused operations

A backend refuses to start a workflow under a name that is taken, to cancel a workflow it does not
know, and to settle a task under a token that is not that of an outstanding one. Its state is kept
in place and shared by everyone, so a refusal must leave it as it was.

For settling a task this is not plain to see. The lease is ended first, and only then the instance
is looked up; were it missing, completing would be refused with the lease already gone. That this
cannot happen is a property of the states that can be reached: every lease is that of an instance.

## Main definitions

* `Backend.Answer`, `Backend.answer` — what an operation gives, or why it is refused.
* `Backend.answerInPlace` — the operations in place, change by change.
* `ClockedBackend.answerInPlace` — the same with the alarms that they set.

## Main results

* `Backend.releaseInPlace_run`, `Backend.completeInPlace_run` — ending a lease and completing a task
  are done as a whole or not at all.
* `Backend.answerInPlace_run`, `ClockedBackend.answerInPlace_run` — so are all operations.
* `Backend.answer_error_iff` — a task cannot be settled if and only if nothing is leased under the
  token.
-/

namespace DurableWorkflow

open InPlace (wholly part part_wholly)

namespace Backend

variable {b b' : Backend} {token : String}

/-! ### Answers -/

/-- What an operation gives. -/
inductive Answer where
  /-- The names of a workflow that was started. -/
  | started (workflow : StartedWorkflow)
  /-- A task, if there was one. -/
  | task (task : Option Task)
  /-- Nothing to tell. -/
  | done
  deriving DecidableEq, Inhabited

/-- What an operation gives and the alarms it sets, with the backend after it; or a refusal. -/
def answer (b : Backend) : Operation → Except BackendError ((Answer × List Alarm) × Backend)
  | .start names request =>
    (b.startWorkflow names request).map fun (workflow, b, alarms) =>
      ((.started workflow, alarms), b)
  | .cancel workflowId reason =>
    (b.cancelWorkflow workflowId reason).map fun b => ((.done, []), b)
  | .dispatch taskQueue =>
    .ok ((.task (b.dispatch taskQueue).1, []), (b.dispatch taskQueue).2)
  | .complete names token delta commands =>
    (b.completeTask names token delta commands).map fun (b, alarms) => ((.done, alarms), b)
  | .fail token error => (b.failTask token error).map fun b => ((.done, []), b)
  | .abandon token => (b.abandonTask token).map fun b => ((.done, []), b)
  | .ring alarm => .ok ((.done, []), b.ring alarm)

/-- What an answer was made of. -/
theorem exists_of_map_eq_ok {ε α β : Type} {result : Except ε α} {f : α → β} {y : β}
    (h : result.map f = .ok y) : ∃ x, result = .ok x ∧ f x = y := by
  cases result with
  | error e => cases h
  | ok x => exact ⟨x, rfl, Except.ok.inj h⟩

/-- An answer comes with the backend after the operation. -/
theorem after_of_answer {operation : Operation} {answered : Answer × List Alarm}
    (h : b.answer operation = .ok (answered, b')) : b.after operation = b' := by
  cases operation with
  | dispatch taskQueue => exact congrArg Prod.snd (Except.ok.inj h)
  | ring alarm => exact congrArg Prod.snd (Except.ok.inj h)
  | start names request =>
      obtain ⟨⟨workflow, b₁, alarms⟩, hstart, hsame⟩ := exists_of_map_eq_ok h
      rw [after, hstart]
      exact congrArg Prod.snd hsame
  | cancel workflowId reason =>
      obtain ⟨b₁, hcancel, hsame⟩ := exists_of_map_eq_ok h
      rw [after, hcancel]
      exact congrArg Prod.snd hsame
  | complete names token delta commands =>
      obtain ⟨⟨b₁, alarms⟩, hcomplete, hsame⟩ := exists_of_map_eq_ok h
      rw [after, hcomplete]
      exact congrArg Prod.snd hsame
  | fail token error =>
      obtain ⟨b₁, hfail, hsame⟩ := exists_of_map_eq_ok h
      rw [after, hfail]
      exact congrArg Prod.snd hsame
  | abandon token =>
      obtain ⟨b₁, habandon, hsame⟩ := exists_of_map_eq_ok h
      rw [after, habandon]
      exact congrArg Prod.snd hsame

/-! ### Operations in place -/

/-- Start a workflow in place. The names are drawn before the backend is asked. -/
def startInPlace (names : Nat → String) (request : StartRequest) :
    EStateM BackendError Backend (StartedWorkflow × List Alarm) := do
  let workflowId := request.workflowId.getD (names 0)
  let runId := names 1
  if (← get).contains workflowId then
    throw (.permanent "start_workflow" (.workflowExists workflowId))
  let info : RunInfo :=
    { workflowType := request.workflowType, method := request.method, workflowId, runId,
      taskQueue := request.taskQueue, parentWorkflowId := none }
  modifyThe Backend fun b => b.create info none request.input
  return (⟨workflowId, runId⟩,
    (request.timeout.map fun d => .timeout workflowId d.millisUp).toList)

/-- Ask a workflow to cancel in place. -/
def cancelInPlace (workflowId reason : String) : EStateM BackendError Backend Unit := do
  if !(← get).contains workflowId then
    throw (.permanent "cancel_workflow" (.unknownWorkflow workflowId))
  modifyThe Backend fun b => b.deliver workflowId (.cancelRequested reason)

/-- End the lease of a token in place. It is taken from the leases, if it is there; only then it
turns out whether it was. -/
def releaseInPlace (operation token : String) : EStateM BackendError Backend String := do
  let lessee := (← get).leases.lookup token
  modifyThe Backend fun b => { b with leases := b.leases.filter fun lease => lease.1 ≠ token }
  match lessee with
  | none => throw (.permanent operation (.unknownToken token))
  | some workflowId =>
    modifyThe Backend fun b => b.modify workflowId fun inst => { inst with lease := none }
    return workflowId

/-- Complete a task in place. -/
def completeInPlace (names : Nat → String) (token : String) (delta : List Event)
    (commands : List Command) : EStateM BackendError Backend (List Alarm) := do
  let workflowId ← releaseInPlace "complete_task" token
  match (← get).get? workflowId with
  | none => throw (.permanent "complete_task" (.unknownWorkflow workflowId))
  | some inst =>
    modifyThe Backend fun b => b.modify workflowId fun inst => { inst with inFlight := [] }
    if inst.isOpen then
      modifyThe Backend fun b => b.modify workflowId fun inst =>
        { inst with history := inst.history ++ delta }
      let alarms ← modifyGet fun b => (b.applyAll names workflowId commands).swap
      modifyThe Backend fun b => b.enqueue workflowId
      return alarms
    else return []

/-- Fail a task in place. -/
def failInPlace (token : String) (error : Failure) : EStateM BackendError Backend Unit := do
  let workflowId ← releaseInPlace "fail_task" token
  match (← get).get? workflowId with
  | none => return ()
  | some inst =>
    modifyThe Backend fun b => b.modify workflowId fun inst => { inst with inFlight := [] }
    if inst.isOpen then
      modifyThe Backend fun b => b.modify workflowId fun inst =>
        { inst with history := inst.history ++ [.failed error] }
      modifyThe Backend fun b => b.close workflowId (.failed error)

/-- Give a task back in place. -/
def abandonInPlace (token : String) : EStateM BackendError Backend Unit := do
  let workflowId ← releaseInPlace "abandon_task" token
  modifyThe Backend fun b => b.modify workflowId fun inst =>
    { inst with inFlight := [], pending := inst.inFlight ++ inst.pending }
  modifyThe Backend fun b => b.enqueue workflowId

/-- Answer an operation in place. What it gives comes with the alarms that are still to be set. -/
def answerInPlace : Operation → EStateM BackendError Backend (Answer × List Alarm)
  | .start names request => do
    let (workflow, alarms) ← startInPlace names request
    return (.started workflow, alarms)
  | .cancel workflowId reason => do
    cancelInPlace workflowId reason
    return (.done, [])
  | .dispatch taskQueue => do
    let task ← modifyGet fun b => b.dispatch taskQueue
    return (.task task, [])
  | .complete names token delta commands => do
    let alarms ← completeInPlace names token delta commands
    return (.done, alarms)
  | .fail token error => do
    failInPlace token error
    return (.done, [])
  | .abandon token => do
    abandonInPlace token
    return (.done, [])
  | .ring alarm => do
    modifyThe Backend fun b => b.ring alarm
    return (.done, [])

/-! ### Operations as a whole -/

/-- A workflow is started as a whole or not at all. -/
theorem startInPlace_run (names : Nat → String) (request : StartRequest) (b : Backend) :
    (startInPlace names request).run b = wholly b
      ((b.startWorkflow names request).map fun (workflow, b, alarms) =>
        ((workflow, alarms), b)) := by
  unfold startInPlace startWorkflow
  simp only [EStateM.run_bind, EStateM.run_get]
  cases b.contains (request.workflowId.getD (names 0)) <;> rfl

/-- A workflow is asked to cancel as a whole or not at all. -/
theorem cancelInPlace_run (workflowId reason : String) (b : Backend) :
    (cancelInPlace workflowId reason).run b
      = wholly b ((b.cancelWorkflow workflowId reason).map fun b => ((), b)) := by
  unfold cancelInPlace cancelWorkflow
  simp only [EStateM.run_bind, EStateM.run_get]
  cases b.contains workflowId <;> rfl

/-- **A lease is ended as a whole or not at all.** -/
theorem releaseInPlace_run (operation token : String) (b : Backend) :
    (releaseInPlace operation token).run b = wholly b (b.release operation token) := by
  unfold releaseInPlace release
  simp only [EStateM.run_bind, EStateM.run_get]
  cases hlookup : b.leases.lookup token with
  | some workflowId => rfl
  | none =>
      have hsame := InPlace.filter_of_lookup_none hlookup
      exact congrArg (fun leases => EStateM.Result.error _ { b with leases }) hsame

/-- What is released belongs to an instance that is known. -/
theorem Sound.get?_of_release (sound : b.Sound) {operation workflowId : String}
    (h : b.release operation token = .ok (workflowId, b')) :
    ∃ inst, b'.get? workflowId = some inst := by
  obtain ⟨hlookup, rfl⟩ := release_eq_ok h
  obtain ⟨inst, hget, -⟩ := sound.leased token workflowId (mem_leases hlookup)
  rw [get?_discharge fun _ => rfl, if_pos rfl, hget]
  exact ⟨_, rfl⟩

/-- **A task is completed as a whole or not at all**: once its lease has ended nothing is refused,
because its instance is known. -/
theorem completeInPlace_run (sound : b.Sound) (names : Nat → String) (token : String)
    (delta : List Event) (commands : List Command) :
    (completeInPlace names token delta commands).run b
      = wholly b ((b.completeTask names token delta commands).map Prod.swap) := by
  unfold completeInPlace completeTask
  simp only [EStateM.run_bind, releaseInPlace_run]
  cases hrelease : b.release "complete_task" token with
  | error e => rfl
  | ok released =>
      obtain ⟨workflowId, b₁⟩ := released
      obtain ⟨inst, hget⟩ := sound.get?_of_release hrelease
      simp only [wholly, EStateM.run_get, hget]
      cases inst.isOpen <;> rfl

/-- A task is failed as a whole or not at all. -/
theorem failInPlace_run (token : String) (error : Failure) (b : Backend) :
    (failInPlace token error).run b
      = wholly b ((b.failTask token error).map fun b => ((), b)) := by
  unfold failInPlace failTask
  simp only [EStateM.run_bind, releaseInPlace_run]
  rcases b.release "fail_task" token with e | ⟨workflowId, b₁⟩
  · rfl
  · simp only [wholly, EStateM.run_get]
    cases b₁.get? workflowId with
    | none => rfl
    | some inst =>
        dsimp only
        cases inst.isOpen <;> rfl

/-- A task is given back as a whole or not at all. -/
theorem abandonInPlace_run (token : String) (b : Backend) :
    (abandonInPlace token).run b
      = wholly b ((b.abandonTask token).map fun b => ((), b)) := by
  unfold abandonInPlace abandonTask
  simp only [EStateM.run_bind, releaseInPlace_run]
  rcases b.release "abandon_task" token with e | ⟨workflowId, b₁⟩ <;> rfl

/-- **An operation is done as a whole or not at all.** -/
theorem answerInPlace_run (sound : b.Sound) (operation : Operation) :
    (answerInPlace operation).run b = wholly b (b.answer operation) := by
  cases operation with
  | dispatch taskQueue => rfl
  | ring alarm => rfl
  | start names request =>
      rw [answerInPlace, answer, EStateM.run_bind, startInPlace_run]
      rcases b.startWorkflow names request with e | ⟨workflow, b₁, alarms⟩ <;> rfl
  | cancel workflowId reason =>
      rw [answerInPlace, answer, EStateM.run_bind, cancelInPlace_run]
      rcases b.cancelWorkflow workflowId reason with e | b₁ <;> rfl
  | complete names token delta commands =>
      rw [answerInPlace, answer, EStateM.run_bind, completeInPlace_run sound]
      rcases b.completeTask names token delta commands with e | ⟨b₁, alarms⟩ <;> rfl
  | fail token error =>
      rw [answerInPlace, answer, EStateM.run_bind, failInPlace_run]
      rcases b.failTask token error with e | b₁ <;> rfl
  | abandon token =>
      rw [answerInPlace, answer, EStateM.run_bind, abandonInPlace_run]
      rcases b.abandonTask token with e | b₁ <;> rfl

/-- What is refused in place is refused. -/
theorem answerInPlace_error_iff (sound : b.Sound) {operation : Operation} :
    (∃ e b', (answerInPlace operation).run b = .error e b')
      ↔ ∃ e, b.answer operation = .error e := by
  rw [answerInPlace_run sound]
  constructor
  · rintro ⟨e, b', h⟩
    cases hanswer : b.answer operation with
    | error e' => exact ⟨e', rfl⟩
    | ok answered =>
        rw [hanswer] at h
        cases h
  · rintro ⟨e, h⟩
    exact ⟨e, b, by rw [h]; rfl⟩

/-! ### Settling -/

/-- The token under which an operation settles a task. -/
def Operation.token? : Operation → Option String
  | .complete _ token _ _ | .fail token _ | .abandon token => some token
  | _ => none

/-- There are three ways to settle a task. -/
theorem Operation.token?_inv {operation : Operation} (h : operation.token? = some token) :
    (∃ names delta commands, operation = .complete names token delta commands)
      ∨ (∃ error, operation = .fail token error) ∨ operation = .abandon token := by
  cases operation with
  | complete names other delta commands =>
      cases h
      exact .inl ⟨names, delta, commands, rfl⟩
  | fail other error =>
      cases h
      exact .inr (.inl ⟨error, rfl⟩)
  | abandon other =>
      cases h
      exact .inr (.inr rfl)
  | _ => cases h

/-- What cannot be released is refused. -/
theorem release_of_lookup_none (h : b.leases.lookup token = none) (operation : String) :
    b.release operation token = .error (.permanent operation (.unknownToken token)) := by
  rw [release, h]

/-- **A task cannot be settled if and only if nothing is leased under the token.** -/
theorem answer_error_iff (sound : b.Sound) {operation : Operation}
    (htoken : operation.token? = some token) :
    (∃ e, b.answer operation = .error e) ↔ b.leases.lookup token = none := by
  constructor
  · rintro ⟨e, h⟩
    by_contra hleased
    obtain ⟨id, hlookup⟩ := Option.ne_none_iff_exists'.mp hleased
    obtain ⟨inst, hget, -⟩ := sound.leased token id (mem_leases hlookup)
    obtain ⟨names, delta, commands, rfl⟩ | ⟨error, rfl⟩ | rfl := Operation.token?_inv htoken
    · rw [answer] at h
      cases hcomplete : b.completeTask names token delta commands with
      | error e => exact completeTask_ne_error hlookup hget hcomplete
      | ok settled =>
          rw [hcomplete] at h
          cases h
    · rw [answer] at h
      cases hfail : b.failTask token error with
      | error e => exact failTask_ne_error hlookup hfail
      | ok settled =>
          rw [hfail] at h
          cases h
    · rw [answer, abandonTask, release, hlookup] at h
      cases h
  · intro hnone
    obtain ⟨names, delta, commands, rfl⟩ | ⟨error, rfl⟩ | rfl := Operation.token?_inv htoken
    · rw [answer, completeTask, release_of_lookup_none hnone]
      exact ⟨_, rfl⟩
    · rw [answer, failTask, release_of_lookup_none hnone]
      exact ⟨_, rfl⟩
    · rw [answer, abandonTask, release_of_lookup_none hnone]
      exact ⟨_, rfl⟩

end Backend

/-! ### Alarms -/

/-- Answer an operation in place and set its alarms. -/
def ClockedBackend.answerInPlace (operation : Backend.Operation) :
    EStateM BackendError ClockedBackend Backend.Answer := do
  let (answer, alarms) ← part ClockedBackend.backend ClockedBackend.withBackend (fun _ e => e)
    (Backend.answerInPlace operation)
  modify fun c => c.schedule alarms
  return answer

/-- **An operation is done and its alarms are set, as a whole or not at all.** -/
theorem ClockedBackend.answerInPlace_run {c : ClockedBackend} (sound : c.backend.Sound)
    (operation : Backend.Operation) :
    (ClockedBackend.answerInPlace operation).run c
      = wholly c ((c.backend.answer operation).map fun ((answer, alarms), b) =>
          (answer, (c.withBackend b).schedule alarms)) := by
  rw [ClockedBackend.answerInPlace, EStateM.run_bind,
    part_wholly rfl (Backend.answerInPlace_run sound operation)]
  rcases c.backend.answer operation with e | ⟨⟨answer, alarms⟩, b⟩ <;> rfl

end DurableWorkflow
