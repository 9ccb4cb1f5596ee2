import DurableWorkflow.Backend.Clock
import DurableWorkflow.Proofs.Accounts
import DurableWorkflow.Worker

/-!
# Workers, clients and a backend

A backend with everybody who calls it, as a transition system. Clients start and cancel workflows;
workers of a fleet take tasks, work on them and settle them request by request; anybody may give a
task back; alarms that are set go off. All this happens in any order. A request may be refused
without reaching the backend, and a worker may not get the answer to one that was served, so any
answer may come where the backend does not determine it. A worker that stops simply takes no further
step. Names that nobody chose come from a source of which nothing is assumed, and whoever draws some
may have any of its names.

## Main definitions

* `Settlement.Asks` — whether a settlement can come to a request.
* `System`, `System.Step`, `System.Reachable` — the transition system.

## Main results

* `Worker.process_asks` — what a worker may ask for a task.
* `System.Reachable.sound` — in every reachable state the books are right and all tasks that workers
  hold are honoured.
-/

namespace DurableWorkflow

/-! ### Settlements -/

namespace Settlement

/-- Whether a settlement can come to a request. -/
inductive Asks (request : Request) : Settlement → Prop
  | now (next : Except BackendError Unit → Settlement) : Asks request (.ask request next)
  | next {other : Request} {next : Except BackendError Unit → Settlement}
      (answer : Except BackendError Unit) :
      Asks request (next answer) → Asks request (.ask other next)
  | wait {ms : Nat} {next : Settlement} : Asks request next → Asks request (.wait ms next)

/-- Asking once asks for that. -/
theorem asks_once {request other : Request} (h : (once other).Asks request) : request = other := by
  cases h with
  | now => rfl
  | next _ h => cases h

/-- Handing in a result asks to take it, and at last to take the task back. -/
theorem asks_retrying {request : Request} {token : String} {delta : List Event}
    {commands : List Command} {attempts left : Nat}
    (h : (retrying token delta commands attempts left).Asks request) :
    request = .complete token delta commands ∨ request = .abandon token := by
  induction left generalizing attempts with
  | zero =>
      rw [retrying] at h
      cases h with
      | now => exact .inl rfl
      | next answer h =>
          cases answer with
          | ok => cases h
          | error e =>
              dsimp only at h
              split at h
              · cases h with
                | now => exact .inr rfl
                | next _ h => cases h
              · cases h
  | succ left ih =>
      rw [retrying] at h
      cases h with
      | now => exact .inl rfl
      | next answer h =>
          cases answer with
          | ok => cases h
          | error e =>
              dsimp only at h
              split at h
              · cases h with
                | wait h => exact ih h
              · cases h

end Settlement

/-- What a worker may ask for a task: to take a recording of it, which is that of its program or
that of a missing one, to fail it as its program diverged, or to take it back. -/
theorem Worker.process_asks {worker : Worker} {task : Task} {request : Settlement.Request}
    (h : (worker.process task).1.Asks request) :
    (∃ recording : Recording, request = .complete task.token recording.delta recording.commands
        ∧ ((worker.registry.resolve task.info.workflowType task.info.method = none
            ∧ recording = worker.unregistered task)
          ∨ ∃ program,
            worker.registry.resolve task.info.workflowType task.info.method = some program
            ∧ (task.perform program worker.converter).1 = .ok recording))
      ∨ (∃ program e, worker.registry.resolve task.info.workflowType task.info.method = some program
        ∧ (task.perform program worker.converter).1 = .error e
        ∧ request = .fail task.token e.toFailure)
      ∨ request = .abandon task.token := by
  rw [process] at h
  split at h
  · rename_i hresolve
    rcases Settlement.asks_retrying h with rfl | rfl
    · exact .inl ⟨_, rfl, .inl ⟨hresolve, rfl⟩⟩
    · exact .inr (.inr rfl)
  · rename_i program hresolve
    split at h
    · rename_i recording _ hperform
      rcases Settlement.asks_retrying h with rfl | rfl
      · exact .inl ⟨recording, rfl, .inr ⟨program, hresolve, by rw [hperform]⟩⟩
      · exact .inr (.inr rfl)
    · rename_i e _ hperform
      cases Settlement.asks_once h
      exact .inr (.inl ⟨program, e, hresolve, by rw [hperform], rfl⟩)

/-- A worker hands in what the program of a task records. -/
theorem Worker.process_of_perform {worker : Worker} {task : Task} {program : Program}
    {recording : Recording}
    (hresolve : worker.registry.resolve task.info.workflowType task.info.method = some program)
    (hperform : (task.perform program worker.converter).1 = .ok recording) :
    (worker.process task).1 = worker.submit task recording := by
  rw [process, hresolve]
  rcases hresult : task.perform program worker.converter with ⟨result, x⟩
  rw [hresult] at hperform
  cases hperform
  simp only [hresult]

/-- The recording for a missing program continues the history of its task. -/
theorem Worker.unregistered_continues (worker : Worker) {task : Task}
    (hinputs : ∀ event ∈ task.newEvents, event.isRecord = false) :
    task.Continues (worker.unregistered task).delta (worker.unregistered task).commands := by
  let failure : Command := .fail (.unregistered task.info.workflowType worker.taskQueue)
  have hdelta : (worker.unregistered task).delta = task.newEvents ++ [failure].map Command.record :=
    rfl
  have hcommands : (worker.unregistered task).commands = [failure] := rfl
  have hnone : records task.newEvents = [] := by
    simpa [records] using hinputs
  rw [hdelta, hcommands]
  refine ⟨?_, ?_, ?_, ?_⟩
  · rw [inputs_append, inputs_map_record, List.append_nil]
  · rw [records_append, hnone, records_map_record, List.nil_append]
  · intro earlier _ honce
    have hfailure : [failure].filterMap Command.introduces? = [] := rfl
    rwa [List.filterMap_append, hfailure, List.append_nil]
  · exact List.pairwise_singleton _ _

/-- Whatever a worker hands in for a task continues its history. -/
theorem Worker.process_continues {worker : Worker} {task : Task} {token : String}
    {delta : List Event} {commands : List Command}
    (hinputs : ∀ event ∈ task.newEvents, event.isRecord = false)
    (h : (worker.process task).1.Asks (.complete token delta commands)) :
    token = task.token ∧ task.Continues delta commands := by
  rcases process_asks h with ⟨recording, hrequest, ⟨-, rfl⟩ | ⟨program, -, hperform⟩⟩
    | ⟨_, _, -, -, hrequest⟩ | hrequest <;> cases hrequest
  · exact ⟨rfl, worker.unregistered_continues hinputs⟩
  · exact ⟨rfl, Task.perform_continues hperform⟩

/-! ### The system -/

/-- What a backend makes of a request, with the alarms to set. -/
def Backend.serve (b : Backend) (names : Nat → String) :
    Settlement.Request → Except BackendError (Backend × List Alarm)
  | .complete token delta commands => b.completeTask names token delta commands
  | .fail token error => (b.failTask token error).map fun b => (b, [])
  | .abandon token => (b.abandonTask token).map fun b => (b, [])

/-- A task in the hands of a worker. -/
structure Job where
  /-- The worker. -/
  worker : Worker
  /-- The task. -/
  task : Task
  /-- What is left of its settlement. -/
  left : Settlement

/-- A backend with those who call it. -/
structure System where
  /-- The backend. -/
  backend : Backend
  /-- The alarms that are set. -/
  alarms : List Alarm
  /-- The tasks in the hands of workers. -/
  jobs : List Job
  /-- The commands that were carried out. -/
  carriedOut : Log

/-- Whether the worker of a job is in the fleet, its task is honoured by the backend, and what is
left of its settlement is left of what the worker made of the task. -/
structure Job.Sound (fleet : Worker → Prop) (b : Backend) (job : Job) : Prop where
  /-- The worker is in the fleet. -/
  member : fleet job.worker
  /-- The task is honoured. -/
  honoured : b.Honours job.task
  /-- The worker asks for nothing else. -/
  left : ∀ request, job.left.Asks request → (job.worker.process job.task).1.Asks request

/-- A job goes on with its settlement. -/
theorem Job.Sound.goOn {fleet : Worker → Prop} {b b' : Backend} {job : Job}
    (sound : job.Sound fleet b) (honours : ∀ task, b.Honours task → b'.Honours task)
    {left : Settlement} (h : ∀ request, left.Asks request → job.left.Asks request) :
    Job.Sound fleet b' { job with left } :=
  ⟨sound.member, honours _ sound.honoured,
    fun request hasks => sound.left request (h request hasks)⟩

/-- What a sound job asks to complete continues the history of its task. -/
theorem Job.Sound.continues {fleet : Worker → Prop} {b : Backend} {job : Job}
    (sound : job.Sound fleet b) {token : String} {delta : List Event} {commands : List Command}
    (h : job.left.Asks (.complete token delta commands)) :
    token = job.task.token ∧ job.task.Continues delta commands :=
  Worker.process_continues sound.honoured.inputs (sound.left _ h)

namespace System

/-- Nothing has happened. -/
def initial : System :=
  ⟨.empty, [], [], fun _ => []⟩

/-- What may happen next. -/
inductive Step (fleet : Worker → Prop) (source : Nat → String) : System → System → Prop
  /-- A client starts a workflow. -/
  | start {s : System} {places : Nat → Nat} {request : StartRequest} {started : StartedWorkflow}
      {backend : Backend} {alarms : List Alarm} :
      s.backend.startWorkflow (source ∘ places) request = .ok (started, backend, alarms) →
      Step fleet source s { s with backend, alarms := s.alarms ++ alarms }
  /-- A client asks a workflow to cancel. -/
  | cancel {s : System} {workflowId reason : String} {backend : Backend} :
      s.backend.cancelWorkflow workflowId reason = .ok backend →
      Step fleet source s { s with backend }
  /-- A worker takes a task and works on it. -/
  | take {s : System} {worker : Worker} {task : Task} {backend : Backend} :
      fleet worker → s.backend.dispatch worker.taskQueue = (some task, backend) →
      Step fleet source s { s with
        backend, jobs := s.jobs ++ [⟨worker, task, (worker.process task).1⟩] }
  /-- A worker finds no task. -/
  | idle {s : System} {worker : Worker} {backend : Backend} :
      fleet worker → s.backend.dispatch worker.taskQueue = (none, backend) →
      Step fleet source s { s with backend }
  /-- A request of a worker is served; the answer may be lost. -/
  | serve {s : System} {i : Nat} {job : Job} {places : Nat → Nat} {request : Settlement.Request}
      {next : Except BackendError Unit → Settlement} {backend : Backend} {alarms : List Alarm}
      (answer : Except BackendError Unit) :
      s.jobs[i]? = some job → job.left = .ask request next →
      s.backend.serve (source ∘ places) request = .ok (backend, alarms) →
      Step fleet source s
        { backend
          alarms := s.alarms ++ alarms
          jobs := s.jobs.set i { job with left := next answer }
          carriedOut := s.backend.carryOut s.carriedOut request }
  /-- A request of a worker is refused. -/
  | refuse {s : System} {i : Nat} {job : Job} {request : Settlement.Request}
      {next : Except BackendError Unit → Settlement} (error : BackendError) :
      s.jobs[i]? = some job → job.left = .ask request next →
      Step fleet source s { s with jobs := s.jobs.set i { job with left := next (.error error) } }
  /-- A worker has waited. -/
  | wait {s : System} {i : Nat} {job : Job} {ms : Nat} {next : Settlement} :
      s.jobs[i]? = some job → job.left = .wait ms next →
      Step fleet source s { s with jobs := s.jobs.set i { job with left := next } }
  /-- Somebody gives a task back. -/
  | abandon {s : System} {token : String} {backend : Backend} :
      s.backend.abandonTask token = .ok backend → Step fleet source s { s with backend }
  /-- An alarm goes off. -/
  | ring {s : System} {alarm : Alarm} :
      alarm ∈ s.alarms →
      Step fleet source s { s with backend := s.backend.ring alarm, alarms := s.alarms.erase alarm }

/-- The states that a system with a fleet of workers and a source of names can come to. -/
inductive Reachable (fleet : Worker → Prop) (source : Nat → String) : System → Prop
  | initial : Reachable fleet source initial
  | step {s s' : System} :
      Reachable fleet source s → Step fleet source s s' → Reachable fleet source s'

variable {fleet : Worker → Prop} {source : Nat → String} {s s' : System}

/-- The invariant of a system: the books of the backend are right, and so are the jobs. -/
structure Sound (fleet : Worker → Prop) (s : System) : Prop where
  /-- The books are right. -/
  accounts : s.backend.Accounts s.carriedOut
  /-- The jobs are right. -/
  jobs : ∀ job ∈ s.jobs, job.Sound fleet s.backend

/-- Jobs stay right when the backend honours their tasks. -/
theorem Sound.honour (sound : s.Sound fleet) {backend : Backend}
    (honours : ∀ task, s.backend.Honours task → backend.Honours task) :
    ∀ job ∈ s.jobs, job.Sound fleet backend :=
  fun job hjob => (sound.jobs job hjob).goOn honours fun _ h => h

/-- Jobs stay right when one of them goes on. -/
theorem Sound.goOn (sound : s.Sound fleet) {backend : Backend}
    (honours : ∀ task, s.backend.Honours task → backend.Honours task) {i : Nat} {job : Job}
    (hjob : s.jobs[i]? = some job) {left : Settlement}
    (h : ∀ request, left.Asks request → job.left.Asks request) :
    ∀ other ∈ s.jobs.set i { job with left }, other.Sound fleet backend := by
  intro other hother
  rcases List.mem_or_eq_of_mem_set hother with hold | rfl
  · exact sound.honour honours other hold
  · exact (sound.jobs job (List.mem_of_getElem? hjob)).goOn honours h

/-- Serving a request of a job keeps the books. -/
theorem Sound.serve (sound : s.Sound fleet) {job : Job} (hjob : job ∈ s.jobs)
    {request : Settlement.Request} (hasks : job.left.Asks request) {names : Nat → String}
    {backend : Backend} {alarms : List Alarm}
    (h : s.backend.serve names request = .ok (backend, alarms)) :
    backend.Accounts (s.backend.carryOut s.carriedOut request)
      ∧ ∀ task, s.backend.Honours task → backend.Honours task := by
  cases request with
  | complete token delta commands =>
      obtain ⟨rfl, continues⟩ := (sound.jobs job hjob).continues hasks
      exact sound.accounts.completeTask (sound.jobs job hjob).honoured continues h
  | fail token error =>
      simp only [Backend.serve] at h
      rcases hfail : s.backend.failTask token error with e | b <;> rw [hfail] at h <;> cases h
      exact sound.accounts.failTask hfail
  | abandon token =>
      simp only [Backend.serve] at h
      rcases habandon : s.backend.abandonTask token with e | b <;> rw [habandon] at h <;> cases h
      have hshifts := Backend.abandonTask_shifts sound.accounts.sound habandon
      exact ⟨sound.accounts.shifts hshifts, hshifts.honours⟩

/-- **Whatever happens keeps a system sound.** -/
theorem Sound.step (sound : s.Sound fleet) (h : Step fleet source s s') : s'.Sound fleet := by
  cases h with
  | start h =>
      obtain ⟨accounts, hkeeps⟩ := sound.accounts.startWorkflow h
      exact ⟨accounts, sound.honour fun _ honours => honours.keeps hkeeps⟩
  | cancel h =>
      obtain ⟨accounts, hkeeps⟩ := sound.accounts.cancelWorkflow h
      exact ⟨accounts, sound.honour fun _ honours => honours.keeps hkeeps⟩
  | take hworker h =>
      have hshifts := Backend.dispatch_shifts sound.accounts.sound h
      refine ⟨sound.accounts.shifts hshifts, fun job hjob => ?_⟩
      rcases List.mem_append.mp hjob with hjob | hjob
      · exact sound.honour hshifts.honours job hjob
      · cases List.mem_singleton.mp hjob
        exact ⟨hworker, (Backend.honours_dispatch sound.accounts.sound h).1, fun _ h => h⟩
  | idle _ h =>
      have hshifts := Backend.dispatch_shifts sound.accounts.sound h
      exact ⟨sound.accounts.shifts hshifts, sound.honour hshifts.honours⟩
  | serve answer hjob hleft h =>
      obtain ⟨accounts, honours⟩ := sound.serve (List.mem_of_getElem? hjob)
        (hleft ▸ .now _) h
      exact ⟨accounts, sound.goOn honours hjob fun _ hasks => hleft ▸ .next answer hasks⟩
  | refuse error hjob hleft =>
      exact ⟨sound.accounts, sound.goOn (fun _ h => h) hjob fun _ hasks =>
        hleft ▸ .next (.error error) hasks⟩
  | wait hjob hleft =>
      exact ⟨sound.accounts, sound.goOn (fun _ h => h) hjob fun _ hasks => hleft ▸ .wait hasks⟩
  | abandon h =>
      have hshifts := Backend.abandonTask_shifts sound.accounts.sound h
      exact ⟨sound.accounts.shifts hshifts, sound.honour hshifts.honours⟩
  | ring halarm =>
      obtain ⟨accounts, hkeeps⟩ := sound.accounts.ring _
      exact ⟨accounts, sound.honour fun _ honours => honours.keeps hkeeps⟩

/-- A system in which nothing has happened is sound. -/
theorem sound_initial : initial.Sound fleet :=
  ⟨Backend.accounts_empty, nofun⟩

/-- **Every state that a system can come to is sound.** -/
theorem Reachable.sound (h : Reachable fleet source s) : s.Sound fleet := by
  induction h with
  | initial => exact sound_initial
  | step _ hstep ih => exact ih.step hstep

/-! ### A host and its guest -/

/-- The start of a guest. -/
def guest : ChildStart :=
  ⟨1, "Guest", "stay", "guest", "main", "null", none, false⟩

/-- A program that starts a guest and waits forever. -/
def hosting : Program :=
  ⟨none, [.perform (.callStart ⟨⟨"Guest", ["stay"]⟩, ⟨some "guest", some "main", none, false⟩⟩
    "stay" (.document .null)) ⟨none, none⟩, .perform .forever ⟨none, none⟩]⟩

/-- A worker that runs it. -/
def host : Worker :=
  ⟨⟨"main", [⟨⟨"Host", ["receive"]⟩, [("receive", hosting)]⟩]⟩, .json, ⟨10, 0⟩⟩

/-- A run of it. -/
def hostRun : RunInfo :=
  ⟨"Host", "receive", "host", Backend.generatedName 1, "main", none⟩

/-- The task in which it starts. -/
def hostTask : Task :=
  ⟨Backend.tokenName 1, hostRun, [], [.executionStarted "Host" "receive" "" none]⟩

/-- What is recorded for it. -/
def hostRecording : Recording :=
  ⟨[.executionStarted "Host" "receive" "" none, .childInitiated guest], [.startChild guest]⟩

/-- A backend that has handed it out. -/
def handed : Backend where
  instances :=
    [⟨hostRun, none, [], [], hostTask.newEvents, false, some (Backend.tokenName 1), .running⟩]
  ready := []
  leases := [(Backend.tokenName 1, "host")]
  tokens := 1

/-- The host once its guest was started. -/
def hostInstance : Instance :=
  ⟨hostRun, none, hostRecording.delta, [.childStarted 1 (Backend.generatedName 2)], [], true, none,
    .running⟩

/-- The guest. -/
def guestInstance : Instance :=
  ⟨⟨"Guest", "stay", "guest", Backend.generatedName 2, "main", some "host"⟩, some ⟨"host", 1⟩, [],
    [.executionStarted "Guest" "stay" "null" (some "host")], [], true, none, .running⟩

/-- The system once the task was completed. -/
def hosted : System where
  backend := ⟨[hostInstance, guestInstance], [("main", "guest"), ("main", "host")], [], 1⟩
  alarms := []
  jobs := [⟨host, hostTask, .finished (.ok ())⟩]
  carriedOut := Log.add (fun _ => []) "host" hostRecording.commands

/-- What the worker records for the task. -/
theorem perform_hostTask : (hostTask.perform hosting .json).1 = .ok hostRecording :=
  Execution.eq_ok_of_toOption (by decide +kernel)

/-- What the worker does with the task. -/
theorem process_hostTask : (host.process hostTask).1 = host.submit hostTask hostRecording :=
  Worker.process_of_perform rfl perform_hostTask

/-- A worker can start the guest. -/
theorem reachable_hosted :
    Reachable (fun worker => worker = host) Backend.generatedName hosted := by
  have hstart : Backend.empty.startWorkflow (Backend.namesFrom 0)
        ⟨"Host", "receive", some "host", "main", "", none⟩
      = .ok (⟨"host", Backend.generatedName 1⟩,
        ⟨[⟨hostRun, none, [], hostTask.newEvents, [], true, none, .running⟩],
          [("main", "host")], [], 0⟩, []) := rfl
  have htaken : Reachable (fun worker => worker = host) Backend.generatedName
      ⟨handed, [], [⟨host, hostTask, (host.process hostTask).1⟩], fun _ => []⟩ :=
    (Reachable.initial.step (.start hstart)).step (.take rfl rfl)
  rw [process_hostTask] at htaken
  have hserve : handed.serve (Backend.namesFrom 2)
      (.complete hostTask.token hostRecording.delta hostRecording.commands)
      = .ok (hosted.backend, []) := rfl
  have hserved := htaken.step (.serve (i := 0) (.ok ()) rfl
    (rfl : host.submit hostTask hostRecording = .ask _ _) hserve)
  exact hserved

end System

end DurableWorkflow
