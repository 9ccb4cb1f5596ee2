import DurableWorkflow.Proofs.ChildLedger
import DurableWorkflow.Proofs.Leases
import DurableWorkflow.Settlement

/-!
# The books of a backend

The books say that a backend is sound, that the ledger of child starts is right, and that the
history of an open instance has the records of just those commands that were carried out for it. All
operations keep them, provided that what is handed in for a task continues its history.

## Main definitions

* `Backend.Accounts` — the books are right.
* `Backend.carryOut` — the commands carried out once a request was served.

## Main results

* `Backend.Accounts.startWorkflow`, `Backend.Accounts.cancelWorkflow`, `Backend.Accounts.ring` —
  what clients and alarms do keeps the books.
* `Backend.Accounts.shifts`, `Backend.Accounts.completeTask`, `Backend.Accounts.failTask` — so does
  what workers do.
-/

namespace DurableWorkflow

namespace Backend

variable {b b' : Backend} {log : Log} {alarms : List Alarm}

/-- Whether the history of each open instance has the records of just those commands that were
carried out for it. -/
def Recorded (b : Backend) (log : Log) : Prop :=
  ∀ id inst, b.get? id = some inst → inst.isOpen = true →
    records inst.history = (log id).map Command.record

/-- The books are right. -/
structure Accounts (b : Backend) (log : Log) : Prop where
  /-- Instances and leases fit together. -/
  sound : b.Sound
  /-- Starts of children are answered. -/
  ledger : Ledger b.standing log
  /-- What is carried out for an open instance is recorded. -/
  recorded : b.Recorded log

/-- The commands carried out once a request was served: those of a completed task, unless its
instance has closed. -/
def carryOut (b : Backend) (log : Log) : Settlement.Request → Log
  | .complete token _ commands =>
    match b.leases.lookup token with
    | none => log
    | some workflowId =>
      match b.get? workflowId with
      | some inst => if inst.isOpen then log.add workflowId commands else log
      | none => log
  | .fail _ _ | .abandon _ => log

/-- The books of a backend without instances are right. -/
theorem accounts_empty : empty.Accounts fun _ => [] := by
  refine ⟨sound_empty, ⟨fun id h => ?_, fun id => .nil, fun id standing parent h => ?_,
    fun id standing start h => ?_, fun id standing seq h => ?_⟩, fun id inst h => ?_⟩
  · exact absurd rfl h
  · simp at h
  · simp at h
  · simp at h
  · cases h

/-- Nothing was carried out for unknown instances. -/
theorem Accounts.log_eq_nil (accounts : b.Accounts log) {id : String} (hnone : b.get? id = none) :
    log id = [] := by
  refine accounts.ledger.log_eq_nil ?_
  rw [standing, hnone]
  rfl

/-- What was carried out for open instances stays recorded as long as histories stay. -/
theorem Recorded.retains (recorded : b.Recorded log)
    (unknown : ∀ id, b.get? id = none → log id = []) (h : b.Retains b') : b'.Recorded log := by
  intro id inst' hinst' hopen
  rcases h.histories id inst' hinst' hopen with
    ⟨hnone, hempty⟩ | ⟨inst, hget, hopen', -, hhistory⟩
  · rw [hempty, unknown id hnone]
    rfl
  · rw [hhistory]
    exact recorded id inst hget hopen'

/-- Operations that never touch tasks and histories keep the books if they keep the ledger. -/
theorem Accounts.keeps (accounts : b.Accounts log) (h : b.Keeps b')
    (ledger : Ledger b'.standing log) : b'.Accounts log :=
  ⟨accounts.sound.keeps h, ledger,
    accounts.recorded.retains (fun _ => accounts.log_eq_nil) h.retains⟩

/-- **Handing tasks out and giving them back keep the books.** -/
theorem Accounts.shifts (accounts : b.Accounts log) (h : b.Shifts b') : b'.Accounts log :=
  ⟨h.sound, h.standing ▸ accounts.ledger,
    accounts.recorded.retains (fun _ => accounts.log_eq_nil) h.retains⟩

/-! ### Clients and alarms -/

/-- What starting a workflow does: there is a new instance under a free name, as it was requested,
and at most one alarm, for its timeout. -/
theorem startWorkflow_inv {names : Nat → String} {request : StartRequest}
    {started : StartedWorkflow} (h : b.startWorkflow names request = .ok (started, b', alarms)) :
    ∃ info, b.get? info.workflowId = none
      ∧ b' = b.create info none request.input
      ∧ info = ⟨request.workflowType, request.method, started.workflowId, started.runId,
          request.taskQueue, none⟩
      ∧ ∀ alarm ∈ alarms, ∃ id ms, alarm = .timeout id ms := by
  have timeouts (id : String) : ∀ alarm ∈ (request.timeout.map fun d =>
      Alarm.timeout id d.millisUp).toList, ∃ id ms, alarm = .timeout id ms := by
    intro alarm halarm
    rw [Option.mem_toList] at halarm
    obtain ⟨d, -, rfl⟩ := Option.map_eq_some_iff.mp halarm
    exact ⟨id, _, rfl⟩
  rw [Backend.startWorkflow] at h
  dsimp only at h
  split at h
  · cases h
  · rename_i hfree
    cases h
    exact ⟨_, contains_eq_false.mp ((Bool.not_eq_true _).mp hfree), rfl, rfl, timeouts _⟩

/-- **Starting a workflow keeps the books.** -/
theorem Accounts.startWorkflow (accounts : b.Accounts log) {names : Nat → String}
    {request : StartRequest} {started : StartedWorkflow}
    (h : b.startWorkflow names request = .ok (started, b', alarms)) :
    b'.Accounts log ∧ b.Keeps b' := by
  obtain ⟨info, free, rfl, -⟩ := startWorkflow_inv h
  have hkeeps := create_keeps free none request.input
  refine ⟨accounts.keeps hkeeps ?_, hkeeps⟩
  rw [standing_create]
  case free => exact free
  refine accounts.ledger.create ?_ request.input
  rw [standing, free]
  rfl

/-- **Asking a workflow to cancel keeps the books.** -/
theorem Accounts.cancelWorkflow (accounts : b.Accounts log) {workflowId reason : String}
    (h : b.cancelWorkflow workflowId reason = .ok b') : b'.Accounts log ∧ b.Keeps b' := by
  rw [Backend.cancelWorkflow] at h
  split at h
  · cases h
    have hkeeps := deliver_keeps
      (rfl : (Event.cancelRequested reason).isRecord = false) b workflowId
    refine ⟨accounts.keeps hkeeps ?_, hkeeps⟩
    rw [standing_deliver rfl]
    exact accounts.ledger.deliver (fun _ => rfl) workflowId
  · cases h

/-- What happens when an open instance runs out of time. -/
theorem timeOut_inv (b : Backend) (workflowId : String) :
    ((∀ inst, b.get? workflowId = some inst → inst.isOpen = false) ∧ b.timeOut workflowId = b)
      ∨ ∃ inst, b.get? workflowId = some inst ∧ inst.isOpen = true
        ∧ b.timeOut workflowId = (b.modify workflowId fun inst =>
            { inst with history := inst.history ++ [.timedOut] }).close workflowId .timedOut := by
  rw [timeOut]
  cases hget : b.get? workflowId with
  | none => exact .inl ⟨nofun, rfl⟩
  | some inst =>
      dsimp only
      cases hopen : inst.isOpen with
      | false =>
          refine .inl ⟨fun other hother => ?_, rfl⟩
          cases hother
          exact hopen
      | true => exact .inr ⟨inst, rfl, hopen, rfl⟩

/-- Noting something in the history of an open instance and closing it keeps the books. -/
theorem Accounts.recordClose (accounts : b.Accounts log) {workflowId : String} {inst : Instance}
    (hget : b.get? workflowId = some inst) (hopen : inst.isOpen = true) (events : List Event)
    {status : Status} (terminal : status.isTerminal = true) :
    ((b.modify workflowId fun inst => { inst with history := inst.history ++ events }).close
        workflowId status).Accounts log
      ∧ b.Keeps ((b.modify workflowId fun inst =>
          { inst with history := inst.history ++ events }).close workflowId status) := by
  have hkeeps : b.Keeps ((b.modify workflowId fun inst =>
      { inst with history := inst.history ++ events }).close workflowId status) := by
    refine modify_close_keeps ?_ ?_ (fun inst tidy => ?_) terminal
    · exact fun _ => rfl
    · exact fun _ => rfl
    · exact ⟨tidy.inFlight, tidy.queued, tidy.inputs⟩
  refine ⟨accounts.keeps hkeeps ?_, hkeeps⟩
  rw [standing_modify_close ?info ?parent terminal]
  case info => exact fun _ => rfl
  case parent => exact fun _ => rfl
  exact accounts.ledger.close (standing_of_get? hget) (Instance.isOpen_iff.mp hopen) terminal

/-- **An alarm that goes off keeps the books.** -/
theorem Accounts.ring (accounts : b.Accounts log) (alarm : Alarm) :
    (b.ring alarm).Accounts log ∧ b.Keeps (b.ring alarm) := by
  cases alarm with
  | timer workflowId seq afterMs =>
      have hkeeps := deliver_keeps (rfl : (Event.timerFired seq).isRecord = false) b workflowId
      refine ⟨accounts.keeps hkeeps ?_, hkeeps⟩
      rw [Backend.ring, standing_deliver rfl]
      exact accounts.ledger.deliver (fun _ => rfl) workflowId
  | timeout workflowId afterMs =>
      rcases b.timeOut_inv workflowId with ⟨-, h⟩ | ⟨inst, hget, hopen, h⟩
      · rw [Backend.ring, h]
        exact ⟨accounts, .refl b⟩
      · rw [Backend.ring, h]
        exact accounts.recordClose hget hopen [.timedOut] rfl

/-! ### Workers -/

/-- Once a piece of history is recorded, the records of its commands are there. -/
theorem Recorded.recordDelta (recorded : b.Recorded log) {delta : List Event}
    {commands : List Command} (hrecords : records delta = commands.map Command.record)
    (token workflowId : String) :
    (b.recordDelta token workflowId delta).Recorded (log.add workflowId commands) := by
  intro id inst' hinst' hopen
  rw [get?_recordDelta] at hinst'
  split at hinst'
  · rename_i hid
    subst hid
    obtain ⟨old, hold, rfl⟩ := Option.map_eq_some_iff.mp hinst'
    rw [Log.add_self, List.map_append, ← recorded id old hold hopen, ← hrecords]
    exact records_append _ _
  · rename_i hid
    rw [Log.add_other hid]
    exact recorded id inst' hinst' hopen

/-- Commands that continue the history of an outstanding task give out new sequence numbers. -/
theorem Accounts.once (accounts : b.Accounts log) {task : Task} {delta : List Event}
    {commands : List Command} (continues : task.Continues delta commands) {id : String}
    {inst : Instance} (hget : b.get? id = some inst) (hopen : inst.isOpen = true)
    (hhistory : inst.history = task.history) :
    ((log id ++ commands).filterMap Command.introduces?).Nodup := by
  refine continues.once (log id) ?_ (accounts.ledger.once id)
  rw [← accounts.recorded id inst hget hopen, hhistory]

/-- Recording what continues the history of a task does not change how its instance stands. -/
theorem Honours.standing_recordDelta {task : Task} (honours : b.Honours task) {delta : List Event}
    {commands : List Command} (continues : task.Continues delta commands) {id : String}
    {inst : Instance} (hlease : (task.token, id) ∈ b.leases) (hget : b.get? id = some inst)
    (hopen : inst.isOpen = true) : (b.recordDelta task.token id delta).standing = b.standing := by
  obtain ⟨-, -, hinFlight⟩ := honours.outstanding hlease hget hopen
  refine Backend.standing_recordDelta hget ?_ task.token
  rw [hinFlight]
  exact continues.inputs

/-- Recording a piece of history and carrying out its commands keeps the books. -/
theorem Accounts.applyAll (accounts : b.Accounts log) {task : Task} (honours : b.Honours task)
    {delta : List Event} {commands : List Command} (continues : task.Continues delta commands)
    {id : String} {inst : Instance} (hlease : (task.token, id) ∈ b.leases)
    (hget : b.get? id = some inst) (hopen : inst.isOpen = true) (names : Nat → String) :
    (((b.recordDelta task.token id delta).applyAll names id commands).1).Accounts
      (log.add id commands) := by
  obtain ⟨-, hhistory, -⟩ := honours.outstanding hlease hget hopen
  have hstanding := honours.standing_recordDelta continues hlease hget hopen
  have hkeeps := applyAll_keeps (b.recordDelta task.token id delta) names id commands
  have hledger : Ledger (b.recordDelta task.token id delta).standing log :=
    hstanding ▸ accounts.ledger
  have hisOpen : (b.recordDelta task.token id delta).standing.IsOpen id :=
    hstanding ▸ ⟨_, standing_of_get? hget, Instance.isOpen_iff.mp hopen⟩
  have honce := accounts.once continues hget hopen hhistory
  refine ⟨(accounts.sound.recordDelta hlease delta).keeps hkeeps,
    hledger.applyAll hisOpen honce continues.last names,
    (accounts.recorded.recordDelta continues.records task.token id).retains ?_ hkeeps.retains⟩
  intro other hnone
  have hfree : b.standing other = none := by
    rw [← hstanding, standing, hnone]
    rfl
  have hid : other ≠ id := by
    rintro rfl
    rw [standing_of_get? hget] at hfree
    cases hfree
  rw [Log.add_other hid]
  exact accounts.ledger.log_eq_nil hfree

/-- What is carried out for a task of an open instance. -/
theorem carryOut_of_isOpen {token id : String} {inst : Instance}
    (hlookup : b.leases.lookup token = some id) (hget : b.get? id = some inst)
    (hopen : inst.isOpen = true) (log : Log) (delta : List Event) (commands : List Command) :
    b.carryOut log (.complete token delta commands) = log.add id commands := by
  simp [carryOut, hlookup, hget, hopen]

/-- Nothing is carried out for a task of an instance that has closed. -/
theorem carryOut_of_isClosed {token id : String} {inst : Instance}
    (hlookup : b.leases.lookup token = some id) (hget : b.get? id = some inst)
    (hclosed : inst.isOpen = false) (log : Log) (delta : List Event) (commands : List Command) :
    b.carryOut log (.complete token delta commands) = log := by
  simp [carryOut, hlookup, hget, hclosed]

/-- **Completing a task keeps the books**, if what is handed in continues its history. -/
theorem Accounts.completeTask (accounts : b.Accounts log) {task : Task} (honours : b.Honours task)
    {delta : List Event} {commands : List Command} (continues : task.Continues delta commands)
    {names : Nat → String} (h : b.completeTask names task.token delta commands = .ok (b', alarms)) :
    b'.Accounts (b.carryOut log (.complete task.token delta commands))
      ∧ ∀ other, b.Honours other → b'.Honours other := by
  obtain ⟨id, inst, hlookup, hget, ⟨hclosed, -, rfl⟩ | ⟨hopen, b₁, happly, rfl⟩⟩ :=
    completeTask_inv h
  · have hshifts := discard_shifts_of_isClosed accounts.sound (mem_leases hlookup) hget hclosed
    rw [carryOut_of_isClosed hlookup hget hclosed]
    exact ⟨accounts.shifts hshifts, hshifts.honours⟩
  · have hlease := mem_leases hlookup
    have hafter := accounts.applyAll honours continues hlease hget hopen names
    have hkeeps := applyAll_keeps (b.recordDelta task.token id delta) names id commands
    have hqueue := enqueue_requeues b₁ id
    rw [happly] at hafter hkeeps
    rw [carryOut_of_isOpen hlookup hget hopen]
    refine ⟨hafter.shifts (hqueue.shifts hafter.sound), fun other hother => ?_⟩
    exact (hother.recordDelta accounts.sound hlease delta).keeps (hkeeps.trans hqueue.keeps)

/-- **Failing a task keeps the books.** -/
theorem Accounts.failTask (accounts : b.Accounts log) {token : String} {error : Failure}
    (h : b.failTask token error = .ok b') :
    b'.Accounts log ∧ ∀ task, b.Honours task → b'.Honours task := by
  obtain ⟨id, hlookup, ⟨hclosed, rfl⟩ | ⟨inst, hget, hopen, rfl⟩⟩ := failTask_inv h
  · have hshifts := discard_shifts accounts.sound (mem_leases hlookup) hclosed
    exact ⟨accounts.shifts hshifts, hshifts.honours⟩
  · have hlease := mem_leases hlookup
    have terminal : (Status.failed error).isTerminal = true := rfl
    have hkeeps := close_keeps terminal (b.recordDelta token id [.failed error]) id
    refine ⟨⟨(accounts.sound.recordDelta hlease _).keeps hkeeps, ?_,
      accounts.recorded.retains (fun _ => accounts.log_eq_nil)
        (recordDelta_close_retains terminal _)⟩,
      fun task honours => (honours.recordDelta accounts.sound hlease _).keeps hkeeps⟩
    rw [standing_close terminal, Standings.close_congr ?other ?self]
    case other =>
      intro other hother
      rw [standing, get?_recordDelta, if_neg hother]
    case self =>
      rw [standing, get?_recordDelta, if_pos rfl, hget]
      rfl
    exact accounts.ledger.close (standing_of_get? hget) (Instance.isOpen_iff.mp hopen) terminal

end Backend

end DurableWorkflow
