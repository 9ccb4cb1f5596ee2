import DurableWorkflow.Proofs.ChildReports
import DurableWorkflow.Proofs.Endurance
import DurableWorkflow.Proofs.TaskRuns

/-!
# What is left of the children of a cancelled parent

A parent decides to close as cancelled from what it has heard of its children, while they live
elsewhere. What it has heard is true: in every state that workers, clients, timers and timeouts can
bring a backend to, the children of an instance that was cancelled have closed, but for those that
were started detached or that the run abandoned which closed the parent.

## Main definitions

* `Instance.RunBy` — the turns of a run that recorded the history of an instance.
* `Backend.Cleared` — the children of an instance have closed, were started detached or abandoned.
* `Backend.WindsUp` — so it is with all instances that were cancelled.

## Main results

* `Backend.Accounts.cleared` — a run that closes its instance as cancelled leaves no other children.
* `Backend.WindsUp.lasts` — nobody opens a child again, or becomes one.
* `System.Reachable.cancelled_after_children` — so it is in every state of the system.
-/

namespace DurableWorkflow

/-- Whether a worker of a fleet had the turns in a run that recorded the history of an instance: it
performed a task of the instance, and what it recorded then is the last piece of the history. -/
inductive Instance.RunBy (fleet : Worker → Prop) (inst : Instance) :
    List (Turn Context Thread) → Prop
  | intro (worker : Worker) (program : Program) (task : Task) (recording : Recording) :
      fleet worker →
      worker.registry.resolve inst.info.workflowType inst.info.method = some program →
      task.info = inst.info →
      (task.perform program worker.converter).1 = .ok recording →
      inst.history = task.history ++ recording.delta →
      RunBy fleet inst (task.turns program worker.converter)

/-- The same history of the same run. -/
theorem Instance.RunBy.of_eq {fleet : Worker → Prop} {inst inst' : Instance}
    {turns : List (Turn Context Thread)} (h : inst.RunBy fleet turns)
    (hinfo : inst'.info = inst.info) (hhistory : inst'.history = inst.history) :
    inst'.RunBy fleet turns := by
  obtain ⟨worker, program, task, recording, hworker, hresolve, hsame, hperform, hrecorded⟩ := h
  exact .intro worker program task recording hworker (hinfo ▸ hresolve) (hsame.trans hinfo.symm)
    hperform (hhistory.trans hrecorded)

namespace Backend

/-- Whether each child of an instance was started by it and has closed, unless it was started
detached or abandoned in a turn. -/
def Cleared (b : Backend) (log : Log) (parentId : String) (turns : List (Turn Context Thread)) :
    Prop :=
  ∀ childId child seq, b.get? childId = some child → child.parent = some ⟨parentId, seq⟩ →
    ∃ start, .startChild start ∈ log parentId ∧ start.seq = seq ∧ start.workflowId = childId
      ∧ (start.detached = true ∨ seq ∈ turns.flatMap Turn.abandons
        ∨ child.status.isTerminal = true)

/-- Whether the children of all instances that were cancelled have closed, but for those that were
started detached or abandoned. -/
def WindsUp (fleet : Worker → Prop) (b : Backend) (log : Log) : Prop :=
  ∀ parentId parent reason, b.get? parentId = some parent → parent.status = .cancelled reason →
    ∃ turns, parent.RunBy fleet turns ∧ b.Cleared log parentId turns

variable {fleet : Worker → Prop} {b b' : Backend} {log log' : Log}

/-- An instance that was cancelled is not open. -/
theorem isOpen_of_cancelled {inst : Instance} {reason : String}
    (h : inst.status = .cancelled reason) : inst.isOpen = false := by
  rw [Instance.isOpen, h]
  rfl

/-! ### What lasts -/

/-- The children of an instance that has closed stay closed, and there are no new ones. -/
theorem Cleared.lasts {parentId : String} {parent : Instance} {turns : List (Turn Context Thread)}
    {cancels : String → Prop} (h : b.Cleared log parentId turns)
    (hparent : b.get? parentId = some parent) (hclosed : parent.isOpen = false)
    (hlasts : b.Lasts cancels b') (hlog : log' parentId = log parentId) :
    b'.Cleared log' parentId turns := by
  intro childId child' seq hchild' hlink
  cases hchild : b.get? childId with
  | none =>
      have hopen := hlasts.new childId child' _ hchild hchild' hlink parent hparent
      rw [hclosed] at hopen
      cases hopen
  | some child =>
      obtain ⟨later, hlater, hstays⟩ := hlasts.old childId child hchild
      rw [hchild'] at hlater
      cases hlater
      obtain ⟨start, hstart, hseq, hname, hcleared⟩ :=
        h childId child seq hchild (hstays.parent ▸ hlink)
      refine ⟨start, hlog ▸ hstart, hseq, hname, hcleared.imp_right fun hrest =>
        hrest.imp_right fun hterminal => ?_⟩
      rw [hstays.status (by rw [Instance.isOpen, hterminal]; rfl)]
      exact hterminal

/-- **Nobody opens a child again, or becomes one**: what is so of the instances that were cancelled
before stays so, and it has to be so of those that are cancelled now. -/
theorem WindsUp.lasts {cancels : String → Prop} (h : b.WindsUp fleet log)
    (hlasts : b.Lasts cancels b')
    (hlog : ∀ id inst, b.get? id = some inst → inst.isOpen = false → log' id = log id)
    (hnow : ∀ id inst' reason, cancels id → b'.get? id = some inst' →
      inst'.status = .cancelled reason →
        ∃ turns, inst'.RunBy fleet turns ∧ b'.Cleared log' id turns) :
    b'.WindsUp fleet log' := by
  intro parentId parent' reason hparent' hcancelled
  rcases hlasts.cancelled parentId parent' reason hparent' hcancelled
    with ⟨parent, hparent, hbefore⟩ | hcancels
  · have hclosed := isOpen_of_cancelled hbefore
    obtain ⟨turns, hrun, hcleared⟩ := h parentId parent reason hparent hbefore
    obtain ⟨later, hlater, hstays⟩ := hlasts.old parentId parent hparent
    rw [hparent'] at hlater
    cases hlater
    exact ⟨turns, hrun.of_eq hstays.info hstays.history,
      hcleared.lasts hparent hclosed hlasts (hlog parentId parent hparent hclosed)⟩
  · exact hnow parentId parent' reason hcancels hparent' hcancelled

/-- What cancels nobody keeps it. -/
theorem WindsUp.lasts_none (h : b.WindsUp fleet log) (hlasts : b.Lasts (fun _ => False) b') :
    b'.WindsUp fleet log :=
  h.lasts hlasts (fun _ _ _ _ => rfl) fun _ _ _ hnever => hnever.elim

/-- What records history for an open instance keeps it. -/
theorem WindsUp.record (h : b.WindsUp fleet log) {workflowId : String} {inst : Instance}
    (hget : b.get? workflowId = some inst) (hopen : inst.isOpen = true) {f : Instance → Instance}
    (hafter : ∀ id, b'.get? id = if id = workflowId then (b.get? id).map f else b.get? id)
    (hparent : ∀ inst, (f inst).parent = inst.parent)
    (hstatus : ∀ inst, (f inst).status = inst.status) :
    b'.WindsUp fleet log := by
  have hother {id : String} {known : Instance} (hknown : b'.get? id = some known)
      (hclosed : known.isOpen = false) : b.get? id = some known := by
    rw [hafter] at hknown
    split at hknown
    · rename_i hid
      rw [hid, hget] at hknown
      cases hknown
      rw [Instance.isOpen, hstatus, ← Instance.isOpen, hopen] at hclosed
      cases hclosed
    · exact hknown
  intro parentId parent reason hparent' hcancelled
  obtain ⟨turns, hrun, hcleared⟩ :=
    h parentId parent reason (hother hparent' (isOpen_of_cancelled hcancelled)) hcancelled
  refine ⟨turns, hrun, ?_⟩
  intro childId child seq hchild hlink
  rw [hafter] at hchild
  split at hchild
  · obtain ⟨old, hold, rfl⟩ := Option.map_eq_some_iff.mp hchild
    rw [hstatus]
    exact hcleared childId old seq hold (hparent old ▸ hlink)
  · exact hcleared childId child seq hchild hlink

/-- Closing the instance after that keeps it too, unless it is closed as cancelled. -/
theorem WindsUp.recordClose (h : b.WindsUp fleet log) {workflowId : String} {inst : Instance}
    (hget : b.get? workflowId = some inst) (hopen : inst.isOpen = true) {f : Instance → Instance}
    (hafter : ∀ id, b'.get? id = if id = workflowId then (b.get? id).map f else b.get? id)
    (hparent : ∀ inst, (f inst).parent = inst.parent)
    (hstatus : ∀ inst, (f inst).status = inst.status)
    {status : Status} (hnot : ∀ reason, status ≠ .cancelled reason) :
    (b'.close workflowId status).WindsUp fleet log := by
  refine (h.record hget hopen hafter hparent hstatus).lasts_none (close_lasts ?_ hnot)
  intro known hknown
  rw [hafter, if_pos rfl, hget] at hknown
  cases hknown
  rw [Instance.isOpen, hstatus]
  exact hopen

/-! ### What a run knows -/

/-- Recording a piece of history changes neither whose child an instance is nor how it closed. -/
theorem recordDelta_old {token workflowId id : String} {delta : List Event} {inst : Instance}
    (h : b.get? id = some inst) :
    ∃ inst', (b.recordDelta token workflowId delta).get? id = some inst'
      ∧ inst'.parent = inst.parent ∧ inst'.status = inst.status := by
  rw [get?_recordDelta, h]
  split
  · exact ⟨_, rfl, rfl, rfl⟩
  · exact ⟨inst, rfl, rfl, rfl⟩

/-- News of a child are among all that was received of it. -/
theorem mem_news {event : Event} {events : List Event} (hevent : event ∈ events) {seq : Nat}
    {transition : ChildTransition} (hnews : Execution.childNews? event = some (seq, transition)) :
    event ∈ news seq events :=
  List.mem_filter.mpr ⟨hevent, by simp [Event.isNewsOf_of_childNews hnews]⟩

/-- **A child whose end its open parent has heard of has closed.** -/
theorem Accounts.closed_of_heard (accounts : b.Accounts log) {parentId : String} {parent : Instance}
    (hparent : b.get? parentId = some parent) (hopen : parent.isOpen = true) {start : ChildStart}
    (hstart : .startChild start ∈ log parentId) {event : Event} {transition : ChildTransition}
    (hevent : event ∈ parent.standing.received)
    (hnews : Execution.childNews? event = some (start.seq, transition))
    (hend : transition.state.isTerminal = true) :
    ∃ other, b.get? start.workflowId = some other
      ∧ (other.parent = some ⟨parentId, start.seq⟩ → other.status.isTerminal = true) := by
  have hheard := mem_news hevent hnews
  have hanswer := accounts.ledger.answered parentId _ start (standing_of_get? hparent)
    (Instance.isOpen_iff.mp hopen) hstart
  generalize news start.seq parent.standing.received = heard at hheard hanswer
  cases hanswer with
  | refused other hother hno =>
      obtain ⟨inst, hinst, rfl⟩ := Option.map_eq_some_iff.mp hother
      exact ⟨inst, hinst, fun hlink => absurd hlink hno⟩
  | started child hchild hlink =>
      obtain ⟨inst, hinst, rfl⟩ := Option.map_eq_some_iff.mp hchild
      refine ⟨inst, hinst, fun _ => ?_⟩
      rcases List.mem_cons.mp hheard with rfl | hreport
      · cases hnews
        cases hend
      · have hstatus : inst.status.report? start.seq = some event := Option.mem_toList.mp hreport
        cases hrunning : inst.status with
        | running =>
            rw [hrunning] at hstatus
            cases hstatus
        | _ => rfl

/-- **A child of which its open parent has heard was started before** the commands that are carried
out now. -/
theorem Accounts.started_before (accounts : b.Accounts log) {σ : Standings} {parentId : String}
    {parent : Instance} (hparent : b.get? parentId = some parent) (hopen : parent.isOpen = true)
    {commands : List Command} (ledger : Ledger σ (log.add parentId commands)) {start : ChildStart}
    (hstart : .startChild start ∈ log.add parentId commands parentId) {event : Event}
    {transition : ChildTransition} (hevent : event ∈ parent.standing.received)
    (hnews : Execution.childNews? event = some (start.seq, transition)) :
    .startChild start ∈ log parentId := by
  by_contra hnow
  have hsilent := accounts.ledger.silent parentId _ start.seq (standing_of_get? hparent)
    (Instance.isOpen_iff.mp hopen) fun other hother hsame => by
      have hother' : .startChild other ∈ log.add parentId commands parentId :=
        Log.mem_add.mpr (.inl hother)
      exact hnow (ledger.start_unique hother' hstart hsame ▸ hother)
  have hheard := mem_news hevent hnews
  rw [hsilent] at hheard
  cases hheard

/-- **A run that closes its instance as cancelled** has heard of the end of all its children, but
for those that it started detached or abandoned; and they have closed. -/
theorem Accounts.cleared (accounts : b.Accounts log) {task : Task} (honours : b.Honours task)
    {program : Program} {converter : Converter} {recording : Recording}
    (hperform : (task.perform program converter).1 = .ok recording) {id : String} {inst : Instance}
    (hlease : (task.token, id) ∈ b.leases) (hget : b.get? id = some inst)
    (hopen : inst.isOpen = true) {reason : String} (hcancel : .cancel reason ∈ recording.commands)
    {cancels : String → Prop}
    (hlasts : (b.recordDelta task.token id recording.delta).Lasts cancels b')
    (ledger : Ledger b'.standing (log.add id recording.commands)) :
    b'.Cleared (log.add id recording.commands) id (task.turns program converter) := by
  obtain ⟨-, hhistory, hinFlight⟩ := honours.outstanding hlease hget hopen
  obtain ⟨x, course, earlier, hearlier, hissued⟩ := Task.perform_course hperform
  have hlog : earlier = log id := by
    refine (List.map_inj_right fun _ _ h => Command.record_injective h).mp ?_
    rw [hearlier, ← hhistory]
    exact accounts.recorded id inst hget hopen
  rw [hlog, ← Log.add_self] at hissued
  intro childId child' seq hchild' hlink
  obtain ⟨start, hstart, hseq, hname⟩ := ledger.linked childId _ _ (standing_of_get? hchild') hlink
  have hseq' : start.seq = seq := hseq
  refine ⟨start, hstart, hseq, hname, ?_⟩
  have hcancel' : .cancel reason ∈ x.issued := by
    rw [hissued, Log.add_self]
    exact List.mem_append_right _ hcancel
  rcases course.children_of_cancel hcancel' (hissued ▸ hstart) with hdetached | habandoned
    | ⟨event, hevent, transition, hnews, hend⟩
  · exact .inl hdetached
  · exact .inr (.inl (hseq' ▸ habandoned))
  · -- What the run has heard is what its instance has got, so the start was carried out before.
    have hreceived : event ∈ inst.standing.received := by
      rw [Instance.received_of_isOpen hopen, hhistory, hinFlight]
      refine List.mem_filter.mpr ⟨List.mem_append_left _ hevent, ?_⟩
      cases event <;> cases hnews <;> rfl
    have hbefore := accounts.started_before hget hopen ledger hstart hreceived hnews
    obtain ⟨child, hchild, hclosed⟩ :=
      accounts.closed_of_heard hget hopen hbefore hreceived hnews hend
    obtain ⟨recorded, hrecorded, hparent, hstatus⟩ := recordDelta_old hchild
    obtain ⟨later, hlater, hstays⟩ := hlasts.old _ recorded hrecorded
    rw [hname, hchild'] at hlater
    cases hlater
    have hlink' : child.parent = some ⟨id, start.seq⟩ := by
      rw [← hparent, ← hstays.parent, hlink, hseq']
    refine .inr (.inr ?_)
    rw [hstays.status (by rw [Instance.isOpen, hstatus, hclosed hlink']; rfl), hstatus]
    exact hclosed hlink'

/-! ### Tasks that are completed -/

/-- Carrying out what continues the history of a task, after it was recorded, cancels at most the
instance, and only if a command says so. -/
theorem Accounts.applyAll_lasts (accounts : b.Accounts log) {task : Task} (honours : b.Honours task)
    {delta : List Event} {commands : List Command} (continues : task.Continues delta commands)
    {id : String} {inst : Instance} (hlease : (task.token, id) ∈ b.leases)
    (hget : b.get? id = some inst) (hopen : inst.isOpen = true) (names : Nat → String) :
    (b.recordDelta task.token id delta).standing.IsOpen id
      ∧ (b.recordDelta task.token id delta).Lasts
          (fun other => other = id ∧ ∃ reason, .cancel reason ∈ commands)
          ((b.recordDelta task.token id delta).applyAll names id commands).1 := by
  have hisOpen : (b.recordDelta task.token id delta).standing.IsOpen id := by
    rw [honours.standing_recordDelta continues hlease hget hopen]
    exact ⟨_, standing_of_get? hget, Instance.isOpen_iff.mp hopen⟩
  obtain ⟨-, hhistory, -⟩ := honours.outstanding hlease hget hopen
  refine ⟨hisOpen, Backend.applyAll_lasts hisOpen (accounts.once continues hget hopen hhistory)
    continues.last ?_ names⟩
  exact fun reason hcancel => ⟨rfl, reason, hcancel⟩

/-- **Completing a task keeps it**: if the instance is cancelled now, the run that did it has heard
of the end of all its children. -/
theorem WindsUp.completeTask (h : b.WindsUp fleet log) (accounts : b.Accounts log) {worker : Worker}
    (member : fleet worker) {task : Task} (honours : b.Honours task) {recording : Recording}
    (hrecording : (worker.registry.resolve task.info.workflowType task.info.method = none
        ∧ recording = worker.unregistered task)
      ∨ ∃ program, worker.registry.resolve task.info.workflowType task.info.method = some program
        ∧ (task.perform program worker.converter).1 = .ok recording)
    (continues : task.Continues recording.delta recording.commands) {names : Nat → String}
    {alarms : List Alarm} (hcomplete : b.completeTask names task.token recording.delta
      recording.commands = .ok (b', alarms)) :
    b'.WindsUp fleet
      (b.carryOut log (.complete task.token recording.delta recording.commands)) := by
  have accounts' := (accounts.completeTask honours continues hcomplete).1
  obtain ⟨id, inst, hlookup, hget, ⟨hclosed, -, rfl⟩ | ⟨hopen, b₁, happly, rfl⟩⟩ :=
    completeTask_inv hcomplete
  · rw [carryOut_of_isClosed hlookup hget hclosed]
    refine h.lasts_none (discharge_lasts ?_ ?_ b task.token id)
    · exact fun _ => ⟨rfl, rfl, rfl, fun _ => rfl⟩
    · exact fun _ => rfl
  · have hlease := mem_leases hlookup
    rw [carryOut_of_isOpen hlookup hget hopen] at accounts' ⊢
    have hrecorded : (b.recordDelta task.token id recording.delta).WindsUp fleet log :=
      h.record hget hopen (get?_recordDelta b task.token id recording.delta) (fun _ => rfl)
        fun _ => rfl
    obtain ⟨hisOpen, hcommands⟩ := accounts.applyAll_lasts honours continues hlease hget hopen names
    rw [happly] at hcommands
    have hlasts := hcommands.trans (enqueue_requeues b₁ id).lasts
    refine hrecorded.lasts hlasts ?_ ?_
    · intro other known hknown hclosed
      refine Log.add_other ?_ _
      rintro rfl
      rw [isOpen_of_standing hisOpen hknown] at hclosed
      cases hclosed
    · rintro other inst' reason ⟨hother, first, hcancel⟩ hinst' -
      rw [hother] at hinst' ⊢
      rcases hrecording with ⟨-, rfl⟩ | ⟨program, hresolve, hperform⟩
      · cases List.mem_singleton.mp hcancel
      · refine ⟨task.turns program worker.converter, ?_,
          accounts.cleared honours hperform hlease hget hopen hcancel hlasts accounts'.ledger⟩
        obtain ⟨hinfo, hhistory, -⟩ := honours.outstanding hlease hget hopen
        have hself := get?_recordDelta b task.token id recording.delta id
        rw [if_pos rfl, hget] at hself
        obtain ⟨later, hlater, hstays⟩ := hlasts.old id _ hself
        rw [hinst'] at hlater
        cases hlater
        have hinfo' : inst'.info = task.info := hstays.info.trans hinfo
        refine .intro worker program task recording member (hinfo' ▸ hresolve) hinfo'.symm hperform
          ?_
        rw [hstays.history, ← hhistory]

/-- Failing a task keeps it. -/
theorem WindsUp.failTask (h : b.WindsUp fleet log) {token : String} {error : Failure}
    (hfail : b.failTask token error = .ok b') : b'.WindsUp fleet log := by
  obtain ⟨id, -, ⟨-, rfl⟩ | ⟨inst, hget, hopen, rfl⟩⟩ := failTask_inv hfail
  · refine h.lasts_none (discharge_lasts ?_ ?_ b token id)
    · exact fun _ => ⟨rfl, rfl, rfl, fun _ => rfl⟩
    · exact fun _ => rfl
  · exact h.recordClose hget hopen (get?_recordDelta b token id [.failed error]) (fun _ => rfl)
      (fun _ => rfl) (by simp)

/-- An alarm that goes off keeps it. -/
theorem WindsUp.ring (h : b.WindsUp fleet log) (alarm : Alarm) :
    (b.ring alarm).WindsUp fleet log := by
  cases alarm with
  | timer workflowId seq afterMs => exact h.lasts_none (deliver_lasts b _ _)
  | timeout workflowId afterMs =>
      rw [Backend.ring]
      rcases b.timeOut_inv workflowId with ⟨-, htime⟩ | ⟨inst, hget, hopen, htime⟩ <;> rw [htime]
      · exact h
      · have hrecord (id : String) := get?_modify (f := fun inst : Instance =>
          { inst with history := inst.history ++ [.timedOut] }) (fun _ => rfl) b workflowId id
        exact h.recordClose hget hopen hrecord (fun _ => rfl) (fun _ => rfl) (by simp)

end Backend

/-! ### The system -/

namespace System

variable {fleet : Worker → Prop} {source : Nat → String} {s s' : System}

/-- Serving a request of a job keeps it. -/
theorem Sound.windsUp_serve (sound : s.Sound fleet) (h : s.backend.WindsUp fleet s.carriedOut)
    {job : Job} (hjob : job ∈ s.jobs) {request : Settlement.Request}
    (hasks : job.left.Asks request) {names : Nat → String} {backend : Backend} {alarms : List Alarm}
    (hserve : s.backend.serve names request = .ok (backend, alarms)) :
    backend.WindsUp fleet (s.backend.carryOut s.carriedOut request) := by
  have hsound := sound.jobs job hjob
  cases request with
  | complete token delta commands =>
      obtain ⟨rfl, continues⟩ := hsound.continues hasks
      rcases Worker.process_asks (hsound.left _ hasks) with ⟨recording, hrequest, hrecording⟩
        | ⟨_, _, -, -, hrequest⟩ | hrequest <;> cases hrequest
      exact h.completeTask sound.accounts hsound.member hsound.honoured hrecording continues hserve
  | fail token error =>
      simp only [Backend.serve] at hserve
      rcases hfail : s.backend.failTask token error with e | b <;> rw [hfail] at hserve <;>
        cases hserve
      exact h.failTask hfail
  | abandon token =>
      simp only [Backend.serve] at hserve
      rcases habandon : s.backend.abandonTask token with e | b <;> rw [habandon] at hserve <;>
        cases hserve
      exact h.lasts_none (Backend.abandonTask_lasts habandon)

/-- **Whatever happens keeps it.** -/
theorem windsUp_step (sound : s.Sound fleet) (h : s.backend.WindsUp fleet s.carriedOut)
    (hstep : Step fleet source s s') : s'.backend.WindsUp fleet s'.carriedOut := by
  cases hstep with
  | start hstart => exact h.lasts_none (Backend.startWorkflow_lasts hstart)
  | cancel hcancel => exact h.lasts_none (Backend.cancelWorkflow_lasts hcancel)
  | take _ htake => exact h.lasts_none (Backend.dispatch_lasts htake)
  | idle _ hidle => exact h.lasts_none (Backend.dispatch_lasts hidle)
  | serve answer hjob hleft hserve =>
      exact sound.windsUp_serve h (List.mem_of_getElem? hjob) (hleft ▸ .now _) hserve
  | refuse error hjob hleft => exact h
  | wait hjob hleft => exact h
  | abandon habandon => exact h.lasts_none (Backend.abandonTask_lasts habandon)
  | ring halarm => exact h.ring _

/-- In every state of a system, the children of instances that were cancelled have closed. -/
theorem Reachable.windsUp (h : Reachable fleet source s) :
    s.backend.WindsUp fleet s.carriedOut := by
  induction h with
  | initial =>
      intro parentId parent reason hparent
      cases hparent
  | step hbefore hstep ih => exact windsUp_step hbefore.sound ih hstep

/-- **A parent closes as cancelled only after its attached children have closed.** Whenever an
instance has been cancelled, a run of its program by a worker recorded its history, and every
instance that is its child was started by it; unless the child was started detached or a turn of
that run abandoned it, the child has closed. -/
theorem Reachable.cancelled_after_children (h : Reachable fleet source s) {parentId : String}
    {parent : Instance} (hparent : s.backend.get? parentId = some parent) {reason : String}
    (hcancelled : parent.status = .cancelled reason) :
    ∃ turns, parent.RunBy fleet turns
      ∧ ∀ childId child seq, s.backend.get? childId = some child →
        child.parent = some ⟨parentId, seq⟩ →
          ∃ start, .startChild start ∈ s.carriedOut parentId ∧ start.seq = seq
            ∧ start.workflowId = childId
            ∧ (start.detached = false → seq ∉ turns.flatMap Turn.abandons →
              child.status.isTerminal = true) := by
  obtain ⟨turns, hrun, hcleared⟩ := h.windsUp parentId parent reason hparent hcancelled
  refine ⟨turns, hrun, fun childId child seq hchild hlink => ?_⟩
  obtain ⟨start, hstart, hseq, hname, hrest⟩ := hcleared childId child seq hchild hlink
  refine ⟨start, hstart, hseq, hname, fun hattached hkept => ?_⟩
  rcases hrest with hdetached | habandoned | hclosed
  · rw [hattached] at hdetached
    cases hdetached
  · exact absurd habandoned hkept
  · exact hclosed

/-! ### A host that is cancelled -/

/-- The task in which the guest starts. -/
def guestTask : Task :=
  ⟨Backend.tokenName 2, guestInstance.info, [], guestInstance.pending⟩

/-- The guest after it has failed, as no worker knows its program. -/
def guestGone : Instance :=
  { guestInstance with
    history := (host.unregistered guestTask).delta, pending := [], queued := false,
    status := .failed (.unregistered "Guest" "main") }

/-- The task in which the host hears of it and is asked to cancel. -/
def stopTask : Task :=
  ⟨Backend.tokenName 3, hostRun, hostRecording.delta,
    [.childStarted 1 (Backend.generatedName 2), .childFailed 1 (.unregistered "Guest" "main"),
      .cancelRequested "stop"]⟩

/-- What is recorded for it. -/
def stopRecording : Recording :=
  ⟨stopTask.newEvents ++ [.cancelled "stop"], [.cancel "stop"]⟩

/-- The host after it was cancelled. -/
def hostGone : Instance :=
  { hostInstance with
    history := stopTask.history ++ stopRecording.delta, pending := [], queued := false,
    status := .cancelled "stop" }

/-- A backend that has handed out that task. -/
def stopping : Backend where
  instances :=
    [{ hostInstance with
        pending := [], inFlight := stopTask.newEvents, queued := false,
        lease := some (Backend.tokenName 3) },
      guestGone]
  ready := []
  leases := [(Backend.tokenName 3, "host")]
  tokens := 3

/-- The system after both are gone. -/
def vacated : System where
  backend := ⟨[hostGone, guestGone], [], [], 3⟩
  alarms := []
  jobs := [⟨host, hostTask, .finished (.ok ())⟩, ⟨host, guestTask, .finished (.ok ())⟩,
    ⟨host, stopTask, .finished (.ok ())⟩]
  carriedOut := (hosted.carriedOut.add "guest" (host.unregistered guestTask).commands).add "host"
    stopRecording.commands

/-- What the worker records for the task of the host. -/
theorem perform_stopTask : (stopTask.perform hosting .json).1 = .ok stopRecording :=
  Execution.eq_ok_of_toOption (by decide +kernel)

/-- What the worker does with it. -/
theorem process_stopTask : (host.process stopTask).1 = host.submit stopTask stopRecording :=
  have hresolve : host.registry.resolve stopTask.info.workflowType stopTask.info.method
      = some hosting := rfl
  Worker.process_of_perform hresolve perform_stopTask

/-- The guest can fail and the host be cancelled. -/
theorem reachable_vacated :
    Reachable (fun worker => worker = host) Backend.generatedName vacated := by
  have hguest : Reachable (fun worker => worker = host) Backend.generatedName _ :=
    (reachable_hosted.step (.take rfl rfl)).step
      (.serve (i := 1) (.ok ()) rfl (rfl : (host.process guestTask).1 = .ask _ _)
        (rfl : Backend.serve _ (Backend.namesFrom 3) _ = _))
  have htaken : Reachable (fun worker => worker = host) Backend.generatedName
      ⟨stopping, [], [⟨host, hostTask, .finished (.ok ())⟩, ⟨host, guestTask, .finished (.ok ())⟩,
        ⟨host, stopTask, (host.process stopTask).1⟩],
        hosted.carriedOut.add "guest" (host.unregistered guestTask).commands⟩ :=
    (hguest.step (.cancel (rfl : Backend.cancelWorkflow _ "host" "stop" = _))).step (.take rfl rfl)
  rw [process_stopTask] at htaken
  have hserve : stopping.serve (Backend.namesFrom 4)
      (.complete stopTask.token stopRecording.delta stopRecording.commands)
      = .ok (vacated.backend, []) := rfl
  have hserved := htaken.step (.serve (i := 2) (.ok ()) rfl
    (rfl : host.submit stopTask stopRecording = .ask _ _) hserve)
  exact hserved

/-- The host was cancelled after the guest had closed. -/
theorem vacated_after_guest :
    Reachable (fun worker => worker = host) Backend.generatedName vacated
      ∧ vacated.backend.get? "host" = some hostGone ∧ hostGone.status = .cancelled "stop"
      ∧ vacated.backend.get? "guest" = some guestGone ∧ guestGone.parent = some ⟨"host", 1⟩
      ∧ guest.detached = false
      ∧ ∃ turns, hostGone.RunBy (fun worker => worker = host) turns
        ∧ (1 ∉ turns.flatMap Turn.abandons → guestGone.status.isTerminal = true) := by
  have hhost : vacated.backend.get? "host" = some hostGone := rfl
  have hguest : vacated.backend.get? "guest" = some guestGone := rfl
  refine ⟨reachable_vacated, hhost, rfl, hguest, rfl, rfl, ?_⟩
  obtain ⟨turns, hrun, hchildren⟩ := reachable_vacated.cancelled_after_children hhost rfl
  refine ⟨turns, hrun, fun hkept => ?_⟩
  obtain ⟨start, hstart, hseq, -, hclosed⟩ := hchildren "guest" guestGone 1 hguest rfl
  have hguestStart : start = guest := by
    rcases List.mem_append.mp hstart with hfirst | hlast
    · exact Command.startChild.inj (List.mem_singleton.mp hfirst)
    · cases List.mem_singleton.mp hlast
  rw [hguestStart] at hclosed
  exact hclosed rfl hkept

end System

end DurableWorkflow
