import DurableWorkflow.Proofs.Accounts
import DurableWorkflow.Proofs.Deliveries
import DurableWorkflow.Proofs.Resumption

/-!
# Histories that can always be replayed

If all workers run the same replay-blind programs, the history of each open instance is what a live
execution of its program records, and the execution accepts all that was delivered since. So a task
never diverges, and what is recorded for it continues the history in the same way.

## Main definitions

* `Backend.Replayable` — histories are what live executions record.
* `Backend.Faithful` — the invariant of a backend whose workers run the same programs.

## Main results

* `Backend.Faithful.perform` — the task of an open instance is performed without divergence.
* `Backend.Faithful.startWorkflow`, `Backend.Faithful.cancelWorkflow`, `Backend.Faithful.ring`,
  `Backend.Faithful.shifts`, `Backend.Faithful.completeTask` — one for each operation.
* `Backend.Faithful.replays` — histories replay, and what was delivered is accepted.
-/

namespace DurableWorkflow

open Execution

namespace Backend

variable {code : String → String → Option Program} {converter : Converter} {b b' : Backend}
  {alarms : List Alarm} {log : Log}

/-- Whether the history of each open instance is what a live execution of its program records. -/
def Replayable (code : String → String → Option Program) (converter : Converter) (b : Backend) :
    Prop :=
  ∀ id inst program, b.get? id = some inst → inst.isOpen = true →
    code inst.info.workflowType inst.info.method = some program →
    ∃ recording x, (new inst.info program converter).record (inputs inst.history)
      = (.ok recording, x) ∧ inst.history = recording.delta

/-- The invariant of a backend whose workers run the same programs. -/
structure Faithful (code : String → String → Option Program) (converter : Converter) (b : Backend)
    (alarms : List Alarm) (log : Log) : Prop where
  /-- Timers fire once. -/
  timers : Timers b.standing alarms log
  /-- What was delivered is accepted. -/
  accepting : Accepting code converter b.standing log
  /-- What was recorded can be replayed. -/
  replayable : b.Replayable code converter

/-- Histories that stay can be replayed as before. -/
theorem Replayable.retains (replayable : b.Replayable code converter) (h : b.Retains b') :
    b'.Replayable code converter := by
  intro id inst' program hinst' hopen hcode
  rcases h.histories id inst' hinst' hopen with
    ⟨-, hempty⟩ | ⟨inst, hget, hopen', hinfo, hhistory⟩
  · rw [hempty]
    exact ⟨.empty, _, rfl, rfl⟩
  · rw [hinfo] at hcode ⊢
    rw [hhistory]
    exact replayable id inst program hget hopen' hcode

/-- Nothing can be wrong with a backend without instances. -/
theorem faithful_empty : empty.Faithful code converter [] fun _ => [] := by
  refine ⟨⟨.nil, fun id seq h => ?_, fun id seq h => ?_⟩, ⟨fun id h => ?_, fun id standing h => ?_,
    fun id standing program h => ?_⟩, fun id inst program h => ?_⟩
  · cases h
  · obtain ⟨standing, hstanding, -⟩ := h
    simp at hstanding
  · exact absurd rfl h
  · simp at h
  · simp at h
  · cases h

/-! ### Clients and alarms -/

/-- **Starting a workflow.** -/
theorem Faithful.startWorkflow (faithful : b.Faithful code converter alarms log)
    (accounts : b.Accounts log) {names : Nat → String} {request : StartRequest}
    {started : StartedWorkflow} {more : List Alarm}
    (h : b.startWorkflow names request = .ok (started, b', more)) :
    b'.Faithful code converter (alarms ++ more) log := by
  have hretains := (accounts.startWorkflow h).2.retains
  obtain ⟨info, free, rfl, -, htimeouts⟩ := startWorkflow_inv h
  have hstanding : (b.create info none request.input).standing
      = b.standing.create info none request.input :=
    standing_create free none request.input
  have hnone : timersOf more = [] := by
    refine List.filterMap_eq_nil_iff.mpr fun alarm halarm => ?_
    obtain ⟨id, ms, rfl⟩ := htimeouts alarm halarm
    rfl
  refine ⟨?_, ?_, faithful.replayable.retains hretains⟩
  · rw [hstanding]
    refine faithful.timers.mono (fun _ _ hfired => hfired.of_create) ?_ fun _ => List.Subset.refl _
    exact timersOf_append_of_nil hnone alarms ▸ List.Sublist.refl _
  · rw [hstanding]
    refine faithful.accepting.create ?_ none request.input
    rw [standing, free]
    rfl

/-- **Asking a workflow to cancel.** -/
theorem Faithful.cancelWorkflow (faithful : b.Faithful code converter alarms log)
    (accounts : b.Accounts log) {workflowId reason : String}
    (h : b.cancelWorkflow workflowId reason = .ok b') : b'.Faithful code converter alarms log := by
  have hretains := (accounts.cancelWorkflow h).2.retains
  rw [Backend.cancelWorkflow] at h
  split at h
  · cases h
    have hstanding := standing_deliver (rfl : (Event.cancelRequested reason).isRecord = false) b
      workflowId
    refine ⟨?_, ?_, faithful.replayable.retains hretains⟩
    · rw [hstanding]
      refine faithful.timers.mono (fun _ _ hfired => hfired.of_quiet (by simp))
        (List.Sublist.refl _) fun _ => List.Subset.refl _
    · rw [hstanding]
      refine faithful.accepting.deliver fun standing hget hrunning => ?_
      exact .cancel reason (faithful.accepting.begun workflowId standing hget hrunning)
  · cases h

/-- **An alarm goes off.** -/
theorem Faithful.ring (faithful : b.Faithful code converter alarms log)
    (accounts : b.Accounts log) {alarm : Alarm} (halarm : alarm ∈ alarms) :
    (b.ring alarm).Faithful code converter (alarms.erase alarm) log := by
  have hreplayable := faithful.replayable.retains (accounts.ring alarm).2.retains
  cases alarm with
  | timer workflowId seq afterMs =>
      obtain ⟨htimers, hdue⟩ := faithful.timers.ring halarm
      have hstanding : (b.ring (.timer workflowId seq afterMs)).standing
          = b.standing.deliver workflowId (.timerFired seq) := standing_deliver rfl b workflowId
      exact ⟨hstanding ▸ htimers, hstanding ▸ faithful.accepting.deliver hdue, hreplayable⟩
  | timeout workflowId afterMs =>
      have hsublist : (timersOf (alarms.erase (.timeout workflowId afterMs))).Sublist
          (timersOf alarms) := (List.erase_sublist).filterMap _
      rcases b.timeOut_inv workflowId with ⟨-, h⟩ | ⟨inst, hget, hopen, h⟩
      · rw [Backend.ring, h] at hreplayable ⊢
        exact ⟨faithful.timers.mono (fun _ _ hfired => hfired) hsublist fun _ => List.Subset.refl _,
          faithful.accepting, hreplayable⟩
      · have hstanding : (b.ring (.timeout workflowId afterMs)).standing
            = b.standing.close workflowId .timedOut := by
          rw [Backend.ring, h, standing_modify_close ?info ?parent rfl]
          case info => exact fun _ => rfl
          case parent => exact fun _ => rfl
        refine ⟨?_, ?_, hreplayable⟩
        · rw [hstanding]
          exact faithful.timers.mono (fun _ _ hfired => hfired.of_close rfl) hsublist
            fun _ => List.Subset.refl _
        · rw [hstanding]
          exact faithful.accepting.close accounts.ledger (fun _ => List.Subset.refl _)
            ⟨_, standing_of_get? hget, Instance.isOpen_iff.mp hopen⟩ rfl

/-! ### Workers -/

/-- **Handing tasks out and giving them back.** -/
theorem Faithful.shifts (faithful : b.Faithful code converter alarms log) (h : b.Shifts b') :
    b'.Faithful code converter alarms log :=
  ⟨h.standing ▸ faithful.timers, h.standing ▸ faithful.accepting,
    faithful.replayable.retains h.retains⟩

/-- What an open instance has heard is what was recorded for it, and what was handed out and is
pending after that: a live execution accepts one after the other. -/
theorem Faithful.record (faithful : b.Faithful code converter alarms log) {id : String}
    {inst : Instance} {program : Program} (hget : b.get? id = some inst)
    (hopen : inst.isOpen = true)
    (hcode : code inst.info.workflowType inst.info.method = some program) :
    ∃ first x rest y later z,
      (new inst.info program converter).record (inputs inst.history) = (.ok first, x)
        ∧ inst.history = first.delta
        ∧ x.record (inputs inst.inFlight) = (.ok rest, y)
        ∧ y.record (inputs inst.pending) = (.ok later, z)
        ∧ (new inst.info program converter).record inst.standing.received
          = (.ok (first.append (rest.append later)), z) := by
  have hreceived : inst.standing.received
      = inputs inst.history ++ (inputs inst.inFlight ++ inputs inst.pending) := by
    simp [Instance.standing, hopen]
  -- All that was heard is accepted, and the history is what its own inputs lead to; as steps are
  -- determined, the second is the beginning of the first.
  obtain ⟨recording, z, hrecord, -⟩ := faithful.accepting.accepted id inst.standing program
    (standing_of_get? hget) (Instance.isOpen_iff.mp hopen) hcode
  obtain ⟨first, x, hfirst, hdelta⟩ := faithful.replayable id inst program hget hopen hcode
  have hsplit : (new inst.info program converter).record inst.standing.received
      = (.ok recording, z) := hrecord
  rw [hreceived] at hsplit
  obtain ⟨first', x', more, hfirst', hmore, rfl⟩ := record_append_ok hsplit
  rw [hfirst] at hfirst'
  cases hfirst'
  obtain ⟨rest, y, later, hrest, hlater, rfl⟩ := record_append_ok hmore
  exact ⟨first, x, rest, y, later, z, hfirst, hdelta, hrest, hlater, hrecord⟩

/-- What is recorded for the task of an open instance is what its execution records. -/
theorem perform_of_record {inst : Instance} (tidy : inst.Tidy) {program : Program}
    (blind : program.isReplayBlind) {first rest : Recording} {x y : Execution}
    (hfirst : (new inst.info program converter).record (inputs inst.history) = (.ok first, x))
    (hdelta : inst.history = first.delta) (hrest : x.record (inputs inst.inFlight) = (.ok rest, y))
    (token : String) :
    (Task.perform ⟨token, inst.info, inst.history, inst.inFlight⟩ program converter).1
      = .ok rest := by
  have hinputs : inputs inst.inFlight = inst.inFlight := by
    refine List.filter_eq_self.mpr fun event hevent => ?_
    simpa using tidy.inputs event (List.mem_append_left _ hevent)
  rw [hinputs] at hrest
  obtain ⟨notes, count, hperform⟩ := Task.perform_record blind token hfirst hrest
  rw [hdelta, hperform]

/-- **The task of an open instance is performed without divergence.** -/
theorem Faithful.perform (faithful : b.Faithful code converter alarms log) (sound : b.Sound)
    {task : Task} {program : Program} (blind : program.isReplayBlind)
    (outstanding : b.Outstanding task)
    (hcode : code task.info.workflowType task.info.method = some program) :
    ∃ recording, (task.perform program converter).1 = .ok recording := by
  obtain ⟨token, info, history, newEvents⟩ := task
  obtain ⟨id, inst, hget, hopen, rfl, rfl, rfl⟩ := outstanding
  obtain ⟨first, x, rest, y, _, _, hfirst, hdelta, hrest, -, -⟩ := faithful.record hget hopen hcode
  exact ⟨rest, perform_of_record (sound.tidy id inst hget) blind hfirst hdelta hrest token⟩

/-- **The history of an open instance replays**, and what was delivered since is accepted. -/
theorem Faithful.replays (faithful : b.Faithful code converter alarms log) (sound : b.Sound)
    {id : String} {inst : Instance} {program : Program} (blind : program.isReplayBlind)
    (hget : b.get? id = some inst) (hopen : inst.isOpen = true)
    (hcode : code inst.info.workflowType inst.info.method = some program) :
    ∃ x recording y, replay inst.info program converter inst.history = .ok x
      ∧ x.record (inst.inFlight ++ inst.pending) = (.ok recording, y) := by
  obtain ⟨first, x, rest, y, later, z, hfirst, hdelta, hrest, hlater, -⟩ :=
    faithful.record hget hopen hcode
  have hinputs : inputs inst.inFlight ++ inputs inst.pending = inst.inFlight ++ inst.pending := by
    rw [← inputs_append]
    refine List.filter_eq_self.mpr fun event hevent => ?_
    simpa using (sound.tidy id inst hget).inputs event hevent
  have hmore := record_append hrest hlater
  rw [hinputs] at hmore
  have live := (live_new inst.info program converter).record (inputs inst.history)
  have hblind := (isBlind_new blind inst.info converter).record
    (live_new inst.info program converter) (inputs inst.history)
  rw [hfirst] at live hblind
  obtain ⟨notes, hreplay⟩ := replayTraced_record blind hfirst
  obtain ⟨notes', hrecast⟩ := record_recast live hblind notes first.delta.length hmore
  refine ⟨_, _, _, ?_, hrecast⟩
  rw [replay, hdelta, hreplay]

/-- What was recorded for the task of an open instance can be replayed. -/
theorem Faithful.recordDelta (faithful : b.Faithful code converter alarms log) (sound : b.Sound)
    {task : Task} {id : String} {inst : Instance} {program : Program} {recording : Recording}
    (blind : program.isReplayBlind) (hget : b.get? id = some inst) (hopen : inst.isOpen = true)
    (htask : inst.info = task.info ∧ inst.history = task.history ∧ inst.inFlight = task.newEvents)
    (hcode : code task.info.workflowType task.info.method = some program)
    (hperform : (task.perform program converter).1 = .ok recording) :
    (b.recordDelta task.token id recording.delta).Replayable code converter
      ∧ ∃ whole x, (new inst.info program converter).record inst.standing.received = (.ok whole, x)
        ∧ ∀ command ∈ recording.commands, command ∈ whole.commands := by
  obtain ⟨token, info, history, newEvents⟩ := task
  obtain ⟨rfl, rfl, rfl⟩ := htask
  obtain ⟨first, x, rest, y, later, z, hfirst, hdelta, hrest, -, hwhole⟩ :=
    faithful.record hget hopen hcode
  have hsame := perform_of_record (sound.tidy id inst hget) blind hfirst hdelta hrest token
  rw [hperform] at hsame
  cases hsame
  refine ⟨?_, _, z, hwhole, fun command hcommand => ?_⟩
  · intro other inst' program' hinst' hopen' hcode'
    rw [get?_recordDelta] at hinst'
    split at hinst'
    · rename_i hid
      subst hid
      rw [hget] at hinst'
      cases hinst'
      dsimp only at hcode' ⊢
      rw [hcode] at hcode'
      cases hcode'
      have hinputs : inputs recording.delta = inputs inst.inFlight := by
        have live := (live_new inst.info program converter).record (inputs inst.history)
        rw [hfirst] at live
        exact inputs_delta live hrest
      rw [inputs_append, hinputs]
      exact ⟨first.append recording, y, record_append hfirst hrest, by rw [hdelta]; rfl⟩
    · exact faithful.replayable other inst' program' hinst' hopen' hcode'
  · exact List.mem_append_right _ (List.mem_append_left _ hcommand)

/-- Whether a worker may hand in a recording for a task: it fails the workflow, as a worker without
its program does, or it is what the program records. -/
def IsRecordingOf (code : String → String → Option Program) (converter : Converter) (task : Task)
    (recording : Recording) : Prop :=
  (∃ failure, recording.commands = [.fail failure])
    ∨ ∃ program, code task.info.workflowType task.info.method = some program
      ∧ (task.perform program converter).1 = .ok recording

variable {task : Task} {id : String} {inst : Instance} {recording : Recording}

/-- The commands of a recording for the task of an open instance may be carried out. -/
theorem Faithful.accepting_add (faithful : b.Faithful code converter alarms log) (sound : b.Sound)
    (blind : ∀ type method program, code type method = some program → program.isReplayBlind)
    (hget : b.get? id = some inst) (hopen : inst.isOpen = true)
    (htask : inst.info = task.info ∧ inst.history = task.history ∧ inst.inFlight = task.newEvents)
    (hrecording : IsRecordingOf code converter task recording) :
    Accepting code converter b.standing (log.add id recording.commands) := by
  refine faithful.accepting.add (by rw [standing_of_get? hget]; rfl) ?_
  intro standing program whole x hother _ hcode hwhole command hcommand hsome
  rw [standing_of_get? hget] at hother
  cases hother
  rcases hrecording with ⟨failure, hcommands⟩ | ⟨program', hcode', hperform⟩
  · rw [hcommands] at hcommand
    cases List.mem_singleton.mp hcommand
    cases hsome
  · have hsame : code inst.info.workflowType inst.info.method = some program := hcode
    rw [htask.1, hcode'] at hsame
    cases hsame
    obtain ⟨-, whole', x', hwhole', hmem⟩ := faithful.recordDelta sound (blind _ _ _ hcode') hget
      hopen htask hcode' hperform
    have heq : (Except.ok whole, x) = (Except.ok whole', x') := hwhole.symm.trans hwhole'
    cases heq
    exact hmem command hcommand

/-- After a recording for the task of an open instance all histories can be replayed. -/
theorem Faithful.replayable_applyAll (faithful : b.Faithful code converter alarms log)
    (sound : b.Sound)
    (blind : ∀ type method program, code type method = some program → program.isReplayBlind)
    (hget : b.get? id = some inst) (hopen : inst.isOpen = true)
    (htask : inst.info = task.info ∧ inst.history = task.history ∧ inst.inFlight = task.newEvents)
    (hrecording : IsRecordingOf code converter task recording) (names : Nat → String) :
    ((b.recordDelta task.token id recording.delta).applyAll names id
      recording.commands).1.Replayable code converter := by
  rcases hrecording with ⟨failure, hcommands⟩ | ⟨program, hcode, hperform⟩
  · rw [hcommands]
    exact faithful.replayable.retains (recordDelta_close_retains rfl _)
  · have hkeeps := applyAll_keeps (b.recordDelta task.token id recording.delta) names id
      recording.commands
    have hrecorded := faithful.recordDelta sound (blind _ _ _ hcode) hget hopen htask hcode hperform
    exact hrecorded.1.retains hkeeps.retains

/-- **Completing a task**, with what its program records or, without a program, by failing. -/
theorem Faithful.completeTask (faithful : b.Faithful code converter alarms log)
    (accounts : b.Accounts log)
    (blind : ∀ type method program, code type method = some program → program.isReplayBlind)
    (honours : b.Honours task) (continues : task.Continues recording.delta recording.commands)
    (hrecording : IsRecordingOf code converter task recording) {names : Nat → String}
    {more : List Alarm}
    (h : b.completeTask names task.token recording.delta recording.commands = .ok (b', more)) :
    b'.Faithful code converter (alarms ++ more)
      (b.carryOut log (.complete task.token recording.delta recording.commands)) := by
  obtain ⟨id, inst, hlookup, hget, ⟨hclosed, rfl, rfl⟩ | ⟨hopen, b₁, happly, rfl⟩⟩ :=
    completeTask_inv h
  · rw [carryOut_of_isClosed hlookup hget hclosed, List.append_nil]
    exact faithful.shifts
      (discard_shifts_of_isClosed accounts.sound (mem_leases hlookup) hget hclosed)
  · have hlease := mem_leases hlookup
    have htask := honours.outstanding hlease hget hopen
    have hrunning := Instance.isOpen_iff.mp hopen
    have hstanding := honours.standing_recordDelta continues hlease hget hopen
    have haccepting := faithful.accepting_add accounts.sound blind hget hopen htask hrecording
    have hreplayable :=
      faithful.replayable_applyAll accounts.sound blind hget hopen htask hrecording names
    rw [← hstanding] at haccepting
    obtain ⟨htimers, hafter⟩ := haccepting.applyAll (hstanding ▸ accounts.ledger)
      (hstanding ▸ faithful.timers) (hstanding ▸ ⟨_, standing_of_get? hget, hrunning⟩)
      (accounts.once continues hget hopen htask.2.1) continues.last names
    rw [happly] at htimers hafter hreplayable
    have hqueue := enqueue_requeues b₁ id
    rw [carryOut_of_isOpen hlookup hget hopen]
    exact ⟨hqueue.standing ▸ htimers, hqueue.standing ▸ hafter,
      hreplayable.retains hqueue.keeps.retains⟩

end Backend

end DurableWorkflow
