import DurableWorkflow.Proofs.ClosedInstances
import DurableWorkflow.Proofs.Closing
import DurableWorkflow.Proofs.System

/-!
# Histories agree with statuses

The history of an instance is what workers record, and notes of the backend; its status is set by
commands, by failed tasks and by timeouts. In a system of workers and a backend the two always agree:
the history of an open instance has no event that closes it, and that of a closed one has exactly one,
which says the same as the status. Once an instance has closed, neither changes again.

## Main definitions

* `Event.isClosing`, `Status.event?` — the events that close an instance, and what a status says.
* `Backend.Untimed` — no timeout waits to be handed out.
* `Backend.Agrees` — histories agree with statuses.
* `System.Does` — what a step of a system does to its backend.

## Main results

* `Task.Continues.closing` — what a worker records closes the instance as its commands do.
* `Backend.Agrees.after` — an operation keeps the agreement if what it records does.
* `System.Step.does` — every step is such an operation.
* `System.Reachable.history_agrees` — histories agree with statuses in every reachable state, and
  those of closed instances stay.
-/

namespace DurableWorkflow

/-- Whether an event closes the instance in whose history it is. -/
def Event.isClosing : Event → Bool
  | .completed _ | .failed _ | .cancelled _ | .timedOut => true
  | _ => false

/-- The event that says how an instance has closed. -/
def Status.event? : Status → Option Event
  | .running => none
  | .completed result => some (.completed result)
  | .failed error => some (.failed error)
  | .cancelled reason => some (.cancelled reason)
  | .timedOut => some .timedOut

/-- The events that close the instance. -/
def closings (events : List Event) : List Event :=
  events.filter Event.isClosing

/-- Closing events come from both parts. -/
@[simp] theorem closings_append (a b : List Event) : closings (a ++ b) = closings a ++ closings b :=
  List.filter_append ..

/-- The record of a command closes the instance if the command does. -/
theorem Command.isClosing_record (command : Command) :
    command.record.isClosing = command.isTerminal := by
  cases command <;> rfl

/-- What closes the instance is a record, unless it is a timeout. -/
theorem closings_eq_records {events : List Event} (h : .timedOut ∉ events) :
    closings events = closings (records events) := by
  rw [closings, closings, records, List.filter_filter]
  refine List.filter_congr fun event hevent => ?_
  cases event <;> first | rfl | exact absurd hevent h

/-- Commands that do not close the instance have records that do not. -/
theorem closings_map_record_of_not {commands : List Command}
    (h : ∀ command ∈ commands, command.isTerminal = false) :
    closings (commands.map Command.record) = [] := by
  refine List.filter_eq_nil_iff.mpr fun event hevent => ?_
  obtain ⟨command, hcommand, rfl⟩ := List.mem_map.mp hevent
  simp [Command.isClosing_record, h command hcommand]

/-- The records of commands of which only the last may close the instance say how they leave it. -/
theorem closings_map_record {commands : List Command}
    (last : commands.Pairwise fun command _ => command.isTerminal = false) :
    closings (commands.map Command.record)
      = ((Command.closed? commands).getD .running).event?.toList := by
  obtain ⟨before, closing, rfl, hlength, hbefore, hclosing⟩ := Command.closing_last last
  have hnone : before.filterMap Command.closing? = [] := by
    refine List.filterMap_eq_nil_iff.mpr fun command hcommand => ?_
    have hopen := hbefore command hcommand
    rw [← Command.isSome_closing?] at hopen
    simpa using hopen
  rw [List.map_append, closings_append, closings_map_record_of_not hbefore, List.nil_append,
    Command.closed?, List.filterMap_append, hnone, List.nil_append]
  rcases closing with _ | ⟨command, _ | ⟨other, closing⟩⟩
  · rfl
  · have hterminal := hclosing command (List.mem_singleton_self _)
    cases command <;> cases hterminal <;> rfl
  · simp at hlength

/-- **What a worker records closes the instance as its commands do**, if no timeout was handed out. -/
theorem Task.Continues.closing {task : Task} {delta : List Event} {commands : List Command}
    (h : task.Continues delta commands) (huntimed : .timedOut ∉ task.newEvents) :
    closings delta = ((Command.closed? commands).getD .running).event?.toList := by
  have hdelta : .timedOut ∉ delta := by
    intro htimed
    have hinput : Event.timedOut ∈ DurableWorkflow.inputs task.newEvents := by
      rw [← h.inputs]
      exact List.mem_filter.mpr ⟨htimed, rfl⟩
    exact huntimed (List.mem_filter.mp hinput).1
  rw [closings_eq_records hdelta, h.records, closings_map_record h.last]

namespace Backend

variable {b b' : Backend} {workflowId id token : String} {inst : Instance} {event : Event}

/-! ### No timeout waits -/

/-- Whether no timeout waits to be handed out, or was handed out with an outstanding task. -/
def Untimed (b : Backend) : Prop :=
  ∀ id inst, b.get? id = some inst → .timedOut ∉ inst.inFlight ++ inst.pending

/-- Without instances nothing waits. -/
theorem untimed_empty : empty.Untimed := by
  intro id inst hget
  cases hget

/-- A change that lets no timeout wait. -/
theorem Untimed.modify (h : b.Untimed) {f : Instance → Instance}
    (hinfo : ∀ inst, (f inst).info = inst.info)
    (hf : ∀ inst : Instance, .timedOut ∉ inst.inFlight ++ inst.pending →
      .timedOut ∉ (f inst).inFlight ++ (f inst).pending) (workflowId : String) :
    (b.modify workflowId f).Untimed := by
  intro id inst' hget
  rw [get?_modify fun inst => congrArg RunInfo.workflowId (hinfo inst)] at hget
  split at hget
  · obtain ⟨inst, hinst, rfl⟩ := Option.map_eq_some_iff.mp hget
    exact hf inst (h id inst hinst)
  · exact h id inst' hget

/-- Queues do not matter. -/
theorem Untimed.requeues (h : b.Untimed) (hrequeues : b.Requeues b') : b'.Untimed := by
  intro id inst' hget
  have hrel := hrequeues.get? id
  rw [hget] at hrel
  generalize hold : b.get? id = old at hrel
  cases hrel with
  | some hrel =>
      have hwaits := h id _ hold
      rw [hrel.1]
      exact hwaits

/-- An event arrives that is no timeout. -/
theorem Untimed.deliver (h : b.Untimed) (workflowId : String) (hevent : event ≠ .timedOut) :
    (b.deliver workflowId event).Untimed := by
  rw [Backend.deliver]
  split
  · exact h
  · split
    · refine Untimed.requeues (h.modify ?_ ?_ workflowId) (enqueue_requeues _ workflowId)
      · exact fun _ => rfl
      · intro inst hinst
        simpa [hevent.symm] using hinst
    · exact h

/-- A new instance waits for its start. -/
theorem Untimed.create (h : b.Untimed) {info : RunInfo} (free : b.get? info.workflowId = none)
    (parent : Option ParentLink) (input : String) : (b.create info parent input).Untimed := by
  rw [Backend.create]
  refine Untimed.requeues ?_ (enqueue_requeues _ info.workflowId)
  intro id inst hget
  rw [get?_append free] at hget
  split at hget
  · cases hget
    simp
  · exact h id inst hget

/-- An instance closes: what waited for it is dropped, and its parent hears of no timeout. -/
theorem Untimed.close (h : b.Untimed) (workflowId : String) (status : Status) :
    (b.close workflowId status).Untimed := by
  have hshut : (b.modify workflowId fun inst =>
      { inst with pending := [], queued := false, status }).Untimed := by
    refine h.modify ?_ ?_ workflowId
    · exact fun _ => rfl
    · intro inst hinst
      simp only [List.mem_append, not_or] at hinst
      simpa using hinst.1
  rw [Backend.close]
  split
  · exact h
  · dsimp only
    split
    · exact hshut
    · split
      · rename_i hreport
        refine hshut.deliver _ ?_
        rintro rfl
        cases status <;> cases hreport
      · exact hshut

/-- A command is carried out. -/
theorem Untimed.apply (h : b.Untimed) (runId workflowId : String) (command : Command) :
    (b.apply runId workflowId command).1.Untimed := by
  cases command with
  | startChild start =>
      rw [Backend.apply, Backend.startChild]
      split
      · exact h.deliver _ (by rintro ⟨⟩)
      · rename_i hfree
        have free : b.get? start.workflowId = none :=
          contains_eq_false.mp (by simpa using hfree)
        refine Untimed.deliver (h.create ?_ _ _) _ (by rintro ⟨⟩)
        exact free
  | cancelChild seq childId =>
      rw [Backend.apply, Backend.cancelChild]
      split
      · exact h.deliver _ (by rintro ⟨⟩)
      · exact h
  | startTimer seq delayMs => exact h
  | complete result | fail error | cancel reason => exact h.close workflowId _

/-- Commands are carried out. -/
theorem Untimed.applyAll (h : b.Untimed) (names : Nat → String) (workflowId : String)
    (commands : List Command) : (b.applyAll names workflowId commands).1.Untimed := by
  induction commands generalizing b names with
  | nil => exact h
  | cons command commands ih => exact ih (h.apply (names 0) workflowId command) _

/-- A task is settled. -/
theorem Untimed.discharge (h : b.Untimed) {f : Instance → Instance}
    (hinfo : ∀ inst, (f inst).info = inst.info)
    (hf : ∀ inst : Instance, .timedOut ∉ inst.inFlight ++ inst.pending →
      .timedOut ∉ (f inst).inFlight ++ (f inst).pending) (token workflowId : String) :
    (b.discharge token workflowId f).Untimed :=
  Untimed.modify h (fun inst => hinfo { inst with lease := none })
    (fun inst => hf { inst with lease := none }) workflowId

/-- The events of a task are dropped. -/
theorem Untimed.discard (h : b.Untimed) (token workflowId : String) :
    (b.discharge token workflowId fun inst => { inst with inFlight := [] }).Untimed := by
  refine h.discharge ?_ ?_ token workflowId
  · exact fun _ => rfl
  · exact fun inst hinst htimed => hinst (List.mem_append_right _ htimed)

/-- A piece of history is recorded. -/
theorem Untimed.recordDelta (h : b.Untimed) (token workflowId : String) (delta : List Event) :
    (b.recordDelta token workflowId delta).Untimed := by
  refine h.discharge ?_ ?_ token workflowId
  · exact fun _ => rfl
  · exact fun inst hinst htimed => hinst (List.mem_append_right _ htimed)

/-- **No operation lets a timeout wait.** -/
theorem Untimed.after (h : b.Untimed) (operation : Operation) : (b.after operation).Untimed := by
  cases operation with
  | start names request =>
      rw [Backend.after]
      split
      · rename_i hstart
        obtain ⟨info, free, rfl, -⟩ := startWorkflow_inv hstart
        exact h.create free none request.input
      · exact h
  | cancel workflowId reason =>
      rw [Backend.after, cancelWorkflow]
      cases b.contains workflowId with
      | true => exact h.deliver workflowId (by rintro ⟨⟩)
      | false => exact h
  | dispatch taskQueue =>
      rw [Backend.after]
      rcases hdispatch : b.dispatch taskQueue with ⟨result, b'⟩
      rcases dispatch_inv hdispatch with ⟨-, hrequeues⟩ | ⟨b₁, inst, hrequeues, -, -, -, -, -, rfl⟩
      · exact h.requeues hrequeues
      · intro id inst' hget
        rw [get?_handOut] at hget
        split at hget
        · obtain ⟨inst, hinst, rfl⟩ := Option.map_eq_some_iff.mp hget
          have hwaits := h.requeues hrequeues id inst hinst
          rw [List.append_nil]
          exact fun htimed => hwaits (List.mem_append_right _ htimed)
        · exact h.requeues hrequeues id inst' hget
  | complete names token delta commands =>
      rw [Backend.after]
      split
      · rename_i hcomplete
        obtain ⟨workflowId, inst, -, -, ⟨-, -, rfl⟩ | ⟨-, b₁, happly, rfl⟩⟩ :=
          completeTask_inv hcomplete
        · exact h.discard token workflowId
        · have happlied :=
            (h.recordDelta token workflowId delta).applyAll names workflowId commands
          rw [happly] at happlied
          exact happlied.requeues (enqueue_requeues b₁ workflowId)
      · exact h
  | fail token error =>
      rw [Backend.after]
      split
      · rename_i hfail
        obtain ⟨workflowId, -, ⟨-, rfl⟩ | ⟨-, -, -, rfl⟩⟩ := failTask_inv hfail
        · exact h.discard token workflowId
        · exact (h.recordDelta token workflowId _).close workflowId _
      · exact h
  | abandon token =>
      rw [Backend.after]
      split
      · rename_i habandon
        obtain ⟨workflowId, -, rfl⟩ := abandonTask_inv habandon
        refine Untimed.requeues (h.discharge ?_ ?_ token workflowId) (enqueue_requeues _ workflowId)
        · exact fun _ => rfl
        · exact fun inst hinst => by simpa using hinst
      · exact h
  | ring alarm =>
      rw [Backend.after]
      cases alarm with
      | timer workflowId seq afterMs => exact h.deliver workflowId (by rintro ⟨⟩)
      | timeout workflowId afterMs =>
          rw [Backend.ring]
          rcases b.timeOut_inv workflowId with ⟨-, hsame⟩ | ⟨-, -, -, hclose⟩
          · rw [hsame]
            exact h
          · rw [hclose]
            refine Untimed.close (h.modify ?_ ?_ workflowId) workflowId _
            · exact fun _ => rfl
            · exact fun _ hinst => hinst

/-! ### Agreement -/

/-- Whether histories agree with statuses: what closes an instance is in its history, once, if it
has closed, and nothing is if it is open. -/
def Agrees (b : Backend) : Prop :=
  ∀ id file, b.file id = some file → closings file.history = file.status.event?.toList

/-- Whether what an operation records for an open instance closes it as its commands do. -/
def Truthful (b : Backend) : Operation → Prop
  | .complete _ token delta commands =>
    ∀ id, b.leases.lookup token = some id → b.isOpen id = true →
      closings delta = ((Command.closed? commands).getD .running).event?.toList
  | _ => True

/-- Without instances there are no histories. -/
theorem agrees_empty : empty.Agrees := by
  intro id file hfile
  cases hfile

/-- **An operation keeps the agreement if what it records is truthful.** -/
theorem Agrees.after (h : b.Agrees) {operation : Operation} (truthful : b.Truthful operation) :
    (b.after operation).Agrees := by
  intro id file hfile
  cases hold : b.file id with
  | none =>
      rcases file_after_of_none hold operation with hnone | ⟨parent, hnew⟩
      · rw [hfile] at hnone
        cases hnone
      · rw [hfile] at hnew
        cases hnew
        rfl
  | some old =>
      rw [file_after hold] at hfile
      have hagrees := h id old hold
      split at hfile
      · rename_i hrevised
        obtain ⟨hrunning, hsubject⟩ := hrevised
        rw [hrunning] at hagrees
        cases hfile
        cases operation with
        | complete names token delta commands =>
            have hdelta := truthful id hsubject ((isOpen_iff_file hold).mpr hrunning)
            rw [File.revise, closings_append, hagrees, hdelta, hrunning]
            rfl
        | fail token error =>
            rw [File.revise, closings_append, hagrees]
            rfl
        | ring alarm =>
            cases alarm with
            | timer => cases hsubject
            | timeout workflowId afterMs =>
                rw [File.revise, closings_append, hagrees]
                rfl
        | _ => cases hsubject
      · cases hfile
        exact hagrees

end Backend

/-! ### Systems -/

namespace System

variable {fleet : Worker → Prop} {source : Nat → String} {s s' : System} {id : String}
  {inst : Instance}

/-- What a step of a system does to its backend: nothing, or an operation, which completes a task
only with what continues its history. -/
def Does (b b' : Backend) : Prop :=
  b' = b ∨ ∃ operation, b' = b.after operation
    ∧ ∀ names token delta commands, operation = .complete names token delta commands →
      ∃ task, b.Honours task ∧ token = task.token ∧ task.Continues delta commands

/-- **What a step does to the backend.** -/
theorem Step.does (sound : s.Sound fleet) (h : Step fleet source s s') :
    Does s.backend s'.backend := by
  cases h with
  | start h => exact .inr ⟨.start _ _, by rw [Backend.after, h], by rintro _ _ _ _ ⟨⟩⟩
  | cancel h => exact .inr ⟨.cancel _ _, by rw [Backend.after, h], by rintro _ _ _ _ ⟨⟩⟩
  | take _ h => exact .inr ⟨.dispatch _, by rw [Backend.after, h], by rintro _ _ _ _ ⟨⟩⟩
  | idle _ h => exact .inr ⟨.dispatch _, by rw [Backend.after, h], by rintro _ _ _ _ ⟨⟩⟩
  | refuse => exact .inl rfl
  | wait => exact .inl rfl
  | abandon h => exact .inr ⟨.abandon _, by rw [Backend.after, h], by rintro _ _ _ _ ⟨⟩⟩
  | ring => exact .inr ⟨.ring _, rfl, by rintro _ _ _ _ ⟨⟩⟩
  | @serve _ job places request next backend alarms answer hjob hleft h =>
      cases request with
      | complete token delta commands =>
          have hserve : s.backend.completeTask (source ∘ places) token delta commands
              = .ok (backend, alarms) := h
          refine .inr ⟨.complete _ token delta commands, by rw [Backend.after, hserve], ?_⟩
          rintro _ _ _ _ ⟨⟩
          have hsound := sound.jobs job (List.mem_of_getElem? hjob)
          exact ⟨job.task, hsound.honoured, hsound.continues (hleft ▸ .now _)⟩
      | fail token error =>
          simp only [Backend.serve] at h
          rcases hfail : s.backend.failTask token error with e | b <;> rw [hfail] at h <;> cases h
          exact .inr ⟨.fail token error, by rw [Backend.after, hfail], by rintro _ _ _ _ ⟨⟩⟩
      | abandon token =>
          simp only [Backend.serve] at h
          rcases habandon : s.backend.abandonTask token with e | b <;> rw [habandon] at h <;>
            cases h
          exact .inr ⟨.abandon token, by rw [Backend.after, habandon], by rintro _ _ _ _ ⟨⟩⟩

/-- What completes a task is truthful, if no timeout was handed out with it. -/
theorem truthful_of_continues {b : Backend} (untimed : b.Untimed) {operation : Backend.Operation}
    (h : ∀ names token delta commands, operation = .complete names token delta commands →
      ∃ task, b.Honours task ∧ token = task.token ∧ task.Continues delta commands) :
    b.Truthful operation := by
  cases operation with
  | complete names token delta commands =>
      obtain ⟨task, honours, rfl, continues⟩ := h names token delta commands rfl
      intro id hlookup hopen
      obtain ⟨old, hold, hrunning⟩ := Backend.file_of_isOpen hopen
      obtain ⟨inst, hget, rfl⟩ := Backend.get?_of_file hold
      obtain ⟨-, -, hinFlight⟩ := honours.outstanding (Backend.mem_leases hlookup) hget
        (Instance.isOpen_iff.mpr hrunning)
      refine continues.closing fun htimed => untimed id inst hget ?_
      exact List.mem_append_left _ (hinFlight ▸ htimed)
  | _ => trivial

/-- Histories agree with statuses in every state that a system can come to, and no timeout waits. -/
theorem Reachable.agrees (h : Reachable fleet source s) : s.backend.Agrees ∧ s.backend.Untimed := by
  induction h with
  | initial => exact ⟨Backend.agrees_empty, Backend.untimed_empty⟩
  | step hreachable hstep ih =>
      obtain ⟨agrees, untimed⟩ := ih
      rcases hstep.does hreachable.sound with hsame | ⟨operation, hafter, hcontinues⟩
      · rw [hsame]
        exact ⟨agrees, untimed⟩
      · rw [hafter]
        exact ⟨agrees.after (truthful_of_continues untimed hcontinues), untimed.after operation⟩

/-- The file of a closed instance stays in every later state. -/
theorem Reachable.file_stays (h : Reachable fleet source s) {old : File}
    (hold : s.backend.file id = some old) (hclosed : old.status.isTerminal = true)
    (hlater : Relation.ReflTransGen (Step fleet source) s s') :
    Reachable fleet source s' ∧ s'.backend.file id = some old := by
  induction hlater with
  | refl => exact ⟨h, hold⟩
  | tail _ hstep ih =>
      obtain ⟨hreachable, hfile⟩ := ih
      refine ⟨hreachable.step hstep, ?_⟩
      rcases hstep.does hreachable.sound with hsame | ⟨operation, hafter, -⟩
      · rw [hsame]
        exact hfile
      · rw [hafter]
        exact Backend.file_afterAll hfile hclosed [operation]

/-- **Histories agree with statuses in every state that a system can come to.** The history of an
open instance has no event that closes it, and that of a closed one has exactly one, which says the
same as the status; in every later state both are what they were. -/
theorem Reachable.history_agrees (h : Reachable fleet source s)
    (hget : s.backend.get? id = some inst) :
    (inst.status = .running → ∀ event ∈ inst.history, event.isClosing = false)
      ∧ (inst.status.isTerminal = true →
        (∃ event, inst.status.event? = some event ∧ closings inst.history = [event])
          ∧ ∀ s', Relation.ReflTransGen (Step fleet source) s s' →
            ∃ inst', s'.backend.get? id = some inst' ∧ inst'.history = inst.history
              ∧ inst'.status = inst.status) := by
  have hold := Backend.file_of_get? hget
  have hagrees : closings inst.history = inst.status.event?.toList := h.agrees.1 id _ hold
  refine ⟨fun hrunning event hevent => ?_, fun hclosed => ⟨?_, fun s' hlater => ?_⟩⟩
  · rw [hrunning] at hagrees
    simpa using List.filter_eq_nil_iff.mp hagrees event hevent
  · cases hstatus : inst.status with
    | running =>
        rw [hstatus] at hclosed
        cases hclosed
    | _ =>
        rw [hstatus] at hagrees
        exact ⟨_, rfl, hagrees⟩
  · obtain ⟨-, hfile⟩ := h.file_stays hold hclosed hlater
    obtain ⟨inst', hget', hsame⟩ := Backend.get?_of_file hfile
    exact ⟨inst', hget', congrArg File.history hsame, congrArg File.status hsame⟩

/-- A system in which the task of a host was handed out. -/
def leased : System :=
  ⟨handed, [.timeout "host" 5], [⟨host, hostTask, host.submit hostTask hostRecording⟩],
    fun _ => []⟩

/-- The host runs out of time while its task is worked on. -/
def expired : System :=
  { leased with backend := handed.timeOut "host", alarms := [] }

/-- This can happen. -/
theorem reachable_expired :
    Reachable (fun worker => worker = host) Backend.generatedName expired := by
  have hstart : Backend.empty.startWorkflow (Backend.namesFrom 0)
      ⟨"Host", "receive", some "host", "main", "", some (.ofMillis 5)⟩
      = .ok (⟨"host", Backend.generatedName 1⟩,
        ⟨[⟨hostRun, none, [], hostTask.newEvents, [], true, none, .running⟩],
          [("main", "host")], [], 0⟩, [.timeout "host" 5]) := rfl
  have htaken : Reachable (fun worker => worker = host) Backend.generatedName
      ⟨handed, [.timeout "host" 5], [⟨host, hostTask, (host.process hostTask).1⟩], fun _ => []⟩ :=
    (Reachable.initial.step (.start hstart)).step (.take rfl rfl)
  rw [process_hostTask] at htaken
  have hrang := htaken.step (.ring (List.mem_singleton_self _))
  exact hrang

/-- The late result of the task is dropped, and the history has the timeout and nothing else. -/
theorem expired_keeps_history : ∃ inst s', expired.backend.get? "host" = some inst
    ∧ inst.status = .timedOut ∧ closings inst.history = [.timedOut]
    ∧ Step (fun worker => worker = host) Backend.generatedName expired s'
    ∧ expired.backend.leases = [(hostTask.token, "host")] ∧ s'.backend.leases = []
    ∧ ∃ inst', s'.backend.get? "host" = some inst' ∧ inst'.history = inst.history
      ∧ inst'.status = inst.status := by
  have hget : expired.backend.get? "host" = some ⟨hostRun, none, [.timedOut], [],
      hostTask.newEvents, false, some (Backend.tokenName 1), .timedOut⟩ := rfl
  have hserve : expired.backend.serve (Backend.namesFrom 2)
      (.complete hostTask.token hostRecording.delta hostRecording.commands)
      = .ok (⟨[⟨hostRun, none, [.timedOut], [], [], false, none, .timedOut⟩], [], [], 1⟩, []) :=
    rfl
  have hstep : Step (fun worker => worker = host) Backend.generatedName expired _ :=
    .serve (i := 0) (.ok ()) rfl (rfl : host.submit hostTask hostRecording = .ask _ _) hserve
  obtain ⟨-, hclosed⟩ := reachable_expired.history_agrees hget
  obtain ⟨⟨event, hevent, honly⟩, hstays⟩ := hclosed rfl
  cases hevent
  exact ⟨_, _, hget, rfl, honly, hstep, rfl, rfl, hstays _ (.single hstep)⟩

end System

end DurableWorkflow
