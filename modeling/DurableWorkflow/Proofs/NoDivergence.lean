import DurableWorkflow.Proofs.Fidelity
import DurableWorkflow.Proofs.System

/-!
# Workers never diverge

A divergence means that a history belongs to other code. If all workers of a fleet run the same
replay-blind programs with the same converter, there is none: whatever clients, workers, timers and
timeouts do and in whatever order, every history that is handed out replays, every event that was
delivered is accepted, and no worker ever asks to fail a workflow because its history diverged.

## Main definitions

* `System.Uniform` — a fleet whose workers run the same programs.

## Main results

* `System.Steady.step` — the invariant is kept whatever happens.
* `System.Reachable.never_diverges` — no task diverges, in any state that can be reached.
-/

namespace DurableWorkflow

open Execution

namespace System

variable {fleet : Worker → Prop} {source : Nat → String}
  {code : String → String → Option Program} {converter : Converter} {s s' : System}

/-- Whether all workers of a fleet run the same replay-blind programs, as far as they run them, and
share a converter. -/
structure Uniform (fleet : Worker → Prop) (code : String → String → Option Program)
    (converter : Converter) : Prop where
  /-- They share a converter. -/
  converters : ∀ worker, fleet worker → worker.converter = converter
  /-- A program belongs to a workflow type and a method. -/
  programs : ∀ worker, fleet worker → ∀ type method program,
    worker.registry.resolve type method = some program → code type method = some program
  /-- Programs do not ask whether they are replayed. -/
  blind : ∀ type method program, code type method = some program → program.isReplayBlind

/-- Whether a task is performed without divergence. -/
def Performs (code : String → String → Option Program) (converter : Converter) (task : Task) :
    Prop :=
  ∀ program, code task.info.workflowType task.info.method = some program →
    ∃ recording, (task.perform program converter).1 = .ok recording

/-- The invariant of a system with a uniform fleet. -/
structure Steady (fleet : Worker → Prop) (code : String → String → Option Program)
    (converter : Converter) (s : System) : Prop where
  /-- The books and the jobs are right. -/
  sound : s.Sound fleet
  /-- All histories can be replayed. -/
  faithful : s.backend.Faithful code converter s.alarms s.carriedOut
  /-- No task of a worker diverges. -/
  performs : ∀ job ∈ s.jobs, Performs code converter job.task

/-- A system in which nothing has happened. -/
theorem steady_initial : initial.Steady fleet code converter where
  sound := sound_initial
  faithful := Backend.faithful_empty
  performs := nofun

/-- Tasks do not change while their jobs go on. -/
theorem Steady.goOn (steady : s.Steady fleet code converter) {i : Nat} {job : Job}
    (hjob : s.jobs[i]? = some job) (left : Settlement) :
    ∀ other ∈ s.jobs.set i { job with left }, Performs code converter other.task := by
  intro other hother
  rcases List.mem_or_eq_of_mem_set hother with hold | rfl
  · exact steady.performs other hold
  · exact steady.performs job (List.mem_of_getElem? hjob)

/-- A worker with a task that does not diverge never asks to fail it. -/
theorem Uniform.not_asks_fail (uniform : Uniform fleet code converter) {b : Backend} {job : Job}
    (sound : job.Sound fleet b) (performs : Performs code converter job.task) {token : String}
    {error : Failure} : ¬ job.left.Asks (.fail token error) := by
  intro hasks
  rcases Worker.process_asks (sound.left _ hasks) with ⟨_, hrequest, -⟩
    | ⟨program, e, hresolve, hperform, -⟩ | hrequest
  · cases hrequest
  · obtain ⟨recording, hok⟩ := performs program
      (uniform.programs job.worker sound.member _ _ program hresolve)
    rw [uniform.converters job.worker sound.member, hok] at hperform
    cases hperform
  · cases hrequest

/-- Serving a request of a job keeps all histories replayable. -/
theorem Steady.serve (uniform : Uniform fleet code converter)
    (steady : s.Steady fleet code converter)
    {job : Job} (hjob : job ∈ s.jobs) {request : Settlement.Request}
    (hasks : job.left.Asks request) {names : Nat → String} {backend : Backend} {alarms : List Alarm}
    (h : s.backend.serve names request = .ok (backend, alarms)) :
    backend.Faithful code converter (s.alarms ++ alarms)
      (s.backend.carryOut s.carriedOut request) := by
  have sound := steady.sound.jobs job hjob
  have accounts := steady.sound.accounts
  rcases Worker.process_asks (sound.left _ hasks) with ⟨recording, rfl, hrecording⟩
    | ⟨_, e, -, -, rfl⟩ | rfl
  · have continues := (sound.continues hasks).2
    refine steady.faithful.completeTask accounts uniform.blind sound.honoured continues ?_ h
    rcases hrecording with ⟨-, rfl⟩ | ⟨program, hresolve, hperform⟩
    · exact .inl ⟨_, rfl⟩
    · rw [uniform.converters job.worker sound.member] at hperform
      exact .inr ⟨program, uniform.programs job.worker sound.member _ _ program hresolve, hperform⟩
  · exact absurd hasks (uniform.not_asks_fail sound (steady.performs job hjob))
  · simp only [Backend.serve] at h
    rcases habandon : s.backend.abandonTask job.task.token with e | b <;> rw [habandon] at h <;>
      cases h
    rw [List.append_nil]
    exact steady.faithful.shifts (Backend.abandonTask_shifts accounts.sound habandon)

/-- **Whatever happens keeps a system steady.** -/
theorem Steady.step (uniform : Uniform fleet code converter)
    (steady : s.Steady fleet code converter)
    (h : Step fleet source s s') : s'.Steady fleet code converter := by
  have sound := steady.sound.step h
  have accounts := steady.sound.accounts
  cases h with
  | start h => exact ⟨sound, steady.faithful.startWorkflow accounts h, steady.performs⟩
  | cancel h => exact ⟨sound, steady.faithful.cancelWorkflow accounts h, steady.performs⟩
  | take hworker h =>
      have hfaithful := steady.faithful.shifts (Backend.dispatch_shifts accounts.sound h)
      refine ⟨sound, hfaithful, fun job hjob => ?_⟩
      rcases List.mem_append.mp hjob with hold | hnew
      · exact steady.performs job hold
      · cases List.mem_singleton.mp hnew
        intro program hcode
        exact hfaithful.perform sound.accounts.sound (uniform.blind _ _ program hcode)
          (Backend.honours_dispatch accounts.sound h).2 hcode
  | idle _ h =>
      exact ⟨sound, steady.faithful.shifts (Backend.dispatch_shifts accounts.sound h),
        steady.performs⟩
  | serve answer hjob hleft h =>
      exact ⟨sound, steady.serve uniform (List.mem_of_getElem? hjob) (hleft ▸ .now _) h,
        steady.goOn hjob _⟩
  | refuse error hjob => exact ⟨sound, steady.faithful, steady.goOn hjob _⟩
  | wait hjob => exact ⟨sound, steady.faithful, steady.goOn hjob _⟩
  | abandon h =>
      exact ⟨sound, steady.faithful.shifts (Backend.abandonTask_shifts accounts.sound h),
        steady.performs⟩
  | ring halarm => exact ⟨sound, steady.faithful.ring accounts halarm, steady.performs⟩

/-- Every state that a system with a uniform fleet can come to is steady. -/
theorem Reachable.steady (uniform : Uniform fleet code converter) (h : Reachable fleet source s) :
    s.Steady fleet code converter := by
  induction h with
  | initial => exact steady_initial
  | step _ hstep ih => exact ih.step uniform hstep

/-- **Workers never diverge.** If a fleet is uniform, then in every state that can be reached every
task that a worker took is performed without divergence, no worker asks to fail a workflow for one,
and for each open instance the recorded history replays and the rebuilt execution accepts all events
in flight and pending. -/
theorem Reachable.never_diverges (uniform : Uniform fleet code converter)
    (h : Reachable fleet source s) :
    (∀ job ∈ s.jobs, ∀ program,
        job.worker.registry.resolve job.task.info.workflowType job.task.info.method = some program →
        ∃ recording, (job.task.perform program job.worker.converter).1 = .ok recording)
      ∧ (∀ job ∈ s.jobs, ∀ token error, ¬ job.left.Asks (.fail token error))
      ∧ ∀ id inst program, s.backend.get? id = some inst → inst.isOpen = true →
        code inst.info.workflowType inst.info.method = some program →
        ∃ x recording y, replay inst.info program converter inst.history = .ok x
          ∧ x.record (inst.inFlight ++ inst.pending) = (.ok recording, y) := by
  have steady := h.steady uniform
  refine ⟨fun job hjob program hresolve => ?_, fun job hjob token error => ?_, ?_⟩
  · have hmember := (steady.sound.jobs job hjob).member
    rw [uniform.converters job.worker hmember]
    exact steady.performs job hjob program
      (uniform.programs job.worker hmember _ _ program hresolve)
  · exact uniform.not_asks_fail (steady.sound.jobs job hjob) (steady.performs job hjob)
  · intro id inst program hget hopen hcode
    exact steady.faithful.replays steady.sound.accounts.sound (uniform.blind _ _ program hcode) hget
      hopen hcode

/-- A fleet of workers of one kind is uniform if all their programs are replay-blind. -/
theorem uniform_singleton {worker : Worker}
    (blind : ∀ implementation ∈ worker.registry.implementations,
      ∀ entry ∈ implementation.programs, entry.2.isReplayBlind) :
    Uniform (fun other => other = worker) worker.registry.resolve worker.converter := by
  refine ⟨?_, ?_, fun type method program hresolve => ?_⟩
  · rintro _ rfl
    rfl
  · rintro _ rfl type method program hresolve
    exact hresolve
  · obtain ⟨implementation, hget, hprogram⟩ := Option.bind_eq_some_iff.mp hresolve
    obtain ⟨l₁, l₂, hprograms, -⟩ := List.lookup_eq_some_iff.mp hprogram
    refine blind implementation (List.mem_of_find?_eq_some hget) (method, program) ?_
    rw [hprograms]
    exact List.mem_append_right _ List.mem_cons_self

/-- The host never diverges. -/
theorem host_never_diverges :
    Uniform (fun worker => worker = host) host.registry.resolve .json
      ∧ Reachable (fun worker => worker = host) Backend.generatedName hosted
      ∧ (∃ recording, (hostTask.perform hosting .json).1 = .ok recording)
      ∧ ∃ x recording y, replay hostRun hosting .json hostInstance.history = .ok x
        ∧ x.record (hostInstance.inFlight ++ hostInstance.pending) = (.ok recording, y) := by
  have blind : ∀ implementation ∈ host.registry.implementations,
      ∀ entry ∈ implementation.programs, entry.2.isReplayBlind := by decide
  have uniform : Uniform (fun worker => worker = host) host.registry.resolve .json :=
    uniform_singleton blind
  obtain ⟨hjobs, -, hreplays⟩ := reachable_hosted.never_diverges uniform
  exact ⟨uniform, reachable_hosted, hjobs _ (List.mem_singleton_self _) hosting rfl,
    hreplays "host" hostInstance hosting rfl rfl rfl⟩

end System

end DurableWorkflow
