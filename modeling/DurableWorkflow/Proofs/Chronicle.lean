import DurableWorkflow.Proofs.Situations

/-!
# Every event is delivered once

A chronicle notes what happened in a run of a backend: the tasks that were handed out, the starts of
instances, and the events that were sent to an instance that was open, in the order in which they
arrived. Neither what an instance has recorded nor what waits for it is used in writing it.

An instance, as long as it is open, has all of this and nothing else: what it has recorded, what was
handed out with its task and what waits for it are, one after the other, its start and the events
that were delivered to it. Giving tasks back, events that arrive while a task is worked on, and
events that a task's own commands send do not change that. What a worker records has to have the
events of its task, in order; the commands may be any.

## Main definitions

* `Chronicle` — what happened in a run.
* `Backend.sends`, `Backend.tells` — what a command sends, and what happens in an operation.
* `Backend.Chronicled` — a backend and what happened to it.
* `Chronicle.Tells` — standings agree with a chronicle.

## Main results

* `Chronicle.Tells.apply`, `Chronicle.Tells.applyAll` — carrying out commands keeps the agreement.
* `Backend.ToldBy.after` — so does every operation.
* `Backend.Chronicled.delivered_once` — each event that was delivered is there once and in order.
-/

namespace DurableWorkflow

/-- What happened in a run, oldest first. -/
structure Chronicle where
  /-- The tasks that were handed out. -/
  tasks : List Task := []
  /-- The starts of instances. -/
  starts : List (String × Event) := []
  /-- The events that arrived at open instances. -/
  mail : List (String × Event) := []
  deriving DecidableEq, Inhabited

namespace Chronicle

/-- More happens. -/
def add (c more : Chronicle) : Chronicle :=
  ⟨c.tasks ++ more.tasks, c.starts ++ more.starts, c.mail ++ more.mail⟩

/-- The events that arrived at an instance. -/
def mailTo (c : Chronicle) (id : String) : List Event :=
  (c.mail.filter fun letter => letter.1 = id).map Prod.snd

/-- Nothing more happens. -/
@[simp] theorem add_empty (c : Chronicle) : c.add {} = c := by
  simp [add]

/-- More happens twice. -/
theorem add_assoc (c more most : Chronicle) : (c.add more).add most = c.add (more.add most) := by
  simp [add]

/-- More mail arrives. -/
@[simp] theorem mailTo_add (c more : Chronicle) (id : String) :
    (c.add more).mailTo id = c.mailTo id ++ more.mailTo id := by
  simp [add, mailTo]

end Chronicle

namespace Backend

/-! ### What happens in an operation -/

/-- Whether an instance is known and open. -/
def isOpen (b : Backend) (id : String) : Bool :=
  (b.get? id).any Instance.isOpen

/-- A letter that arrives, if its addressee is open. -/
def arrives (b : Backend) (letter : Option (String × Event)) : Chronicle :=
  { mail := (letter.filter fun letter => b.isOpen letter.1).toList }

/-- What an instance that closes with a status sends to its parent. -/
def reports (b : Backend) (workflowId : String) (status : Status) : Option (String × Event) := do
  let inst ← b.get? workflowId
  let parent ← inst.parent
  let event ← status.report? parent.seq
  some (parent.workflowId, event)

/-- What a command of an instance sends, and to whom, with the name for the run of a child. -/
def sends (b : Backend) (runId workflowId : String) : Command → Option (String × Event)
  | .startChild start =>
    if b.contains start.workflowId then
      let cause : Failure := .application ("workflow id " ++ start.workflowId ++ " already exists")
      some (workflowId, .childStartFailed start.seq cause)
    else some (workflowId, .childStarted start.seq runId)
  | .cancelChild seq childId =>
    if (b.get? childId >>= Instance.parent) = some ⟨workflowId, seq⟩ then
      some (childId, .cancelRequested ("parent " ++ workflowId ++ " cancelled"))
    else none
  | .startTimer _ _ => none
  | .complete result => b.reports workflowId (.completed result)
  | .fail error => b.reports workflowId (.failed error)
  | .cancel reason => b.reports workflowId (.cancelled reason)

/-- The instance that a command starts. -/
def founds (b : Backend) (workflowId : String) : Command → Chronicle
  | .startChild start =>
    if b.contains start.workflowId then {}
    else
      { starts := [(start.workflowId,
          .executionStarted start.workflowType start.method start.input (some workflowId))] }
  | _ => {}

/-- What happens when commands are carried out one after the other. What a command sends arrives
when its other effects are there. -/
def tellsAll (b : Backend) (names : Nat → String) (workflowId : String) :
    List Command → Chronicle
  | [] => {}
  | command :: commands =>
    let b' := (b.apply (names 0) workflowId command).1
    ((b.founds workflowId command).add (b'.arrives (b.sends (names 0) workflowId command))).add
      (b'.tellsAll (fun i => names (i + 1)) workflowId commands)

/-- What happens when a task of an open instance is settled; nothing does if it has closed. -/
def tellsSettled (b : Backend) (token : String) (happens : String → Chronicle) : Chronicle :=
  match b.leases.lookup token with
  | none => {}
  | some workflowId => if b.isOpen workflowId then happens workflowId else {}

/-- What happens in an operation. -/
def tells (b : Backend) : Operation → Chronicle
  | .start names request =>
    match b.startWorkflow names request with
    | .ok (started, _, _) =>
      { starts := [(started.workflowId,
          .executionStarted request.workflowType request.method request.input none)] }
    | .error _ => {}
  | .cancel workflowId reason =>
    (b.deliver workflowId (.cancelRequested reason)).arrives
      (some (workflowId, .cancelRequested reason))
  | .dispatch taskQueue => { tasks := (b.dispatch taskQueue).1.toList }
  | .complete names token delta commands =>
    match b.completeTask names token delta commands with
    | .ok _ =>
      b.tellsSettled token fun workflowId =>
        (b.recordDelta token workflowId delta).tellsAll names workflowId commands
    | .error _ => {}
  | .fail token error =>
    match b.failTask token error with
    | .ok b' =>
      b.tellsSettled token fun workflowId => b'.arrives (b.reports workflowId (.failed error))
    | .error _ => {}
  | .abandon _ => {}
  | .ring (.timer workflowId seq _) =>
    (b.deliver workflowId (.timerFired seq)).arrives (some (workflowId, .timerFired seq))
  | .ring (.timeout workflowId _) =>
    if b.isOpen workflowId then (b.timeOut workflowId).arrives (b.reports workflowId .timedOut)
    else {}

/-- Whether an operation is one that the run allows: what is recorded for an outstanding task has
the events of the task, in order. -/
def Allows (b : Backend) (c : Chronicle) : Operation → Prop
  | .complete _ token delta _ => ∀ task ∈ c.tasks, task.token = token →
      (b.leases.lookup token).isSome → inputs delta = task.newEvents
  | _ => True

/-- What becomes of a backend and what happened to it meanwhile. -/
inductive Chronicled : Backend → Chronicle → Prop where
  | empty : Chronicled empty {}
  | after {b : Backend} {c : Chronicle} (h : Chronicled b c) (operation : Operation)
      (allowed : b.Allows c operation) :
      Chronicled (b.after operation) (c.add (b.tells operation))

end Backend

/-! ### Standings and chronicles -/

/-- Whether standings agree with a chronicle: what is unknown has not started and got no mail, what
is open got its start and its mail. -/
structure Chronicle.Tells (c : Chronicle) (σ : Standings) : Prop where
  /-- What is unknown has not started and got no mail. -/
  unknown : ∀ id, σ id = none → c.starts.lookup id = none ∧ c.mailTo id = []
  /-- What is open got its start and its mail. -/
  received : ∀ id standing, σ id = some standing → standing.status = .running →
    ∃ input, c.starts.lookup id = some (.executionStarted standing.info.workflowType
        standing.info.method input standing.info.parentWorkflowId)
      ∧ standing.received = .executionStarted standing.info.workflowType standing.info.method
          input standing.info.parentWorkflowId :: c.mailTo id

namespace Chronicle

variable {c more : Chronicle} {σ : Standings} {workflowId id : String} {event : Event}

/-- Without instances nothing happened. -/
theorem tells_empty : Tells {} fun _ => none :=
  ⟨fun _ _ => ⟨rfl, rfl⟩, nofun⟩

/-- Tasks that are handed out change nothing else. -/
theorem Tells.tasks (h : c.Tells σ) (tasks : List Task) : (c.add { tasks }).Tells σ := by
  refine ⟨fun id hnone => ?_, fun id standing hstanding hrunning => ?_⟩
  · simpa [add, mailTo] using h.unknown id hnone
  · simpa [add, mailTo] using h.received id standing hstanding hrunning

/-- An event that is sent arrives if its addressee is open. -/
theorem Tells.deliver (h : c.Tells σ) {mail : List (String × Event)}
    (hopen : σ.IsOpen workflowId → mail = [(workflowId, event)])
    (hclosed : ¬ σ.IsOpen workflowId → mail = []) :
    (c.add { mail }).Tells (σ.deliver workflowId event) := by
  have hmail {id : String} (hid : σ.IsOpen id) :
      mailTo { mail } id = if id = workflowId then [event] else [] := by
    by_cases hself : σ.IsOpen workflowId
    · rw [hopen hself]
      by_cases heq : id = workflowId
      · simp [mailTo, heq]
      · simp [mailTo, heq, Ne.symm heq]
    · have hne : id ≠ workflowId := by
        rintro rfl
        exact hself hid
      rw [hclosed hself, if_neg hne]
      rfl
  refine ⟨fun id hnone => ?_, fun id standing' hstanding' hrunning' => ?_⟩
  · have hold : σ id = none := by
      have hsame := Standings.isSome_change σ workflowId (fun standing => standing.hear event) id
      rw [show σ.change workflowId _ id = none from hnone] at hsame
      simpa using hsame.symm
    obtain ⟨hstart, hmail'⟩ := h.unknown id hold
    refine ⟨by simpa [add] using hstart, ?_⟩
    rw [mailTo_add, hmail', List.nil_append]
    by_cases hself : σ.IsOpen workflowId
    · have hne : workflowId ≠ id := by
        rintro rfl
        obtain ⟨standing, hstanding, -⟩ := hself
        rw [hold] at hstanding
        cases hstanding
      rw [hopen hself]
      simp [mailTo, hne]
    · rw [hclosed hself]
      rfl
  · obtain ⟨standing, hstanding, hrunning, hinfo, hreceived⟩ :=
      Standings.deliver_running hstanding' hrunning'
    obtain ⟨input, hstart, hgot⟩ := h.received id standing hstanding hrunning
    refine ⟨input, ?_, ?_⟩
    · rw [hinfo]
      simpa [add] using hstart
    · rw [hinfo, hreceived, hgot, mailTo_add, hmail ⟨standing, hstanding, hrunning⟩]
      rfl

/-- An instance that is created gets its start. -/
theorem Tells.create (h : c.Tells σ) {info : RunInfo} (free : σ info.workflowId = none)
    (parent : Option ParentLink) (input : String) :
    (c.add { starts := [(info.workflowId, .executionStarted info.workflowType info.method input
      info.parentWorkflowId)] }).Tells (σ.create info parent input) := by
  have hmail (id : String) : (c.add { starts := [(info.workflowId, .executionStarted
      info.workflowType info.method input info.parentWorkflowId)] }).mailTo id = c.mailTo id := by
    simp [mailTo, add]
  refine ⟨fun id hnone => ?_, fun id standing hstanding hrunning => ?_⟩
  · rw [Standings.create] at hnone
    split at hnone
    · cases hnone
    · rename_i hid
      obtain ⟨hstart, hempty⟩ := h.unknown id hnone
      rw [hmail]
      exact ⟨by simp [add, List.lookup_append, hstart, hid], hempty⟩
  · rw [hmail]
    rcases Standings.create_inv hstanding with ⟨rfl, rfl⟩ | ⟨hid, hold⟩
    · obtain ⟨hstart, hempty⟩ := h.unknown _ free
      refine ⟨input, by simp [add, List.lookup_append, hstart], by rw [hempty]⟩
    · obtain ⟨input, hstart, hgot⟩ := h.received id standing hold hrunning
      exact ⟨input, by simp [add, List.lookup_append, hstart], hgot⟩

/-- An instance that closes is not told of any more. -/
theorem Tells.shut (h : c.Tells σ) {status : Status} (terminal : status.isTerminal = true) :
    c.Tells (σ.change workflowId fun standing => standing.shut status) := by
  refine ⟨fun id hnone => h.unknown id ?_, fun id standing hstanding hrunning => ?_⟩
  · have hsame := Standings.isSome_change σ workflowId (fun standing => standing.shut status) id
    rw [hnone] at hsame
    simpa using hsame.symm
  · obtain ⟨-, hold⟩ := Standings.shut_running terminal hstanding hrunning
    exact h.received id standing hold hrunning

end Chronicle

/-- Delivering events opens and closes no instance. -/
theorem Standings.isOpen_deliver {σ : Standings} {workflowId id : String} {event : Event} :
    (σ.deliver workflowId event).IsOpen id ↔ σ.IsOpen id := by
  refine ⟨?_, fun h => h.deliver workflowId event⟩
  rintro ⟨standing', hstanding', hrunning'⟩
  obtain ⟨standing, hstanding, hrunning, -⟩ := deliver_running hstanding' hrunning'
  exact ⟨standing, hstanding, hrunning⟩

namespace Backend

variable {b b' : Backend} {c : Chronicle} {σ : Standings} {workflowId token : String}

/-- Whether an instance is open can be seen from how it stands. -/
theorem isOpen_iff_standing {id : String} : b.isOpen id = true ↔ b.standing.IsOpen id := by
  simp only [isOpen, Standings.IsOpen, standing]
  cases b.get? id with
  | none => simp
  | some inst => simp [Instance.isOpen_iff, Instance.standing]

end Backend

namespace Chronicle

open Backend

variable {b b' : Backend} {c : Chronicle} {σ : Standings} {workflowId id : String} {event : Event}

/-- A letter that is sent last arrives if its addressee is open. -/
theorem Tells.arrives (h : c.Tells σ) (hb' : b'.standing = σ.deliver workflowId event) :
    (c.add (b'.arrives (some (workflowId, event)))).Tells b'.standing := by
  have hiff : b'.isOpen workflowId = true ↔ σ.IsOpen workflowId := by
    rw [isOpen_iff_standing, hb', Standings.isOpen_deliver]
  rw [hb']
  refine h.deliver (fun hopen => ?_) fun hclosed => ?_
  · simp [Option.filter, hiff.mpr hopen]
  · simp [Option.filter, mt hiff.mp hclosed]

/-- Nothing arrives if nothing is sent. -/
theorem Tells.arrives_none (h : c.Tells σ) (hb' : b'.standing = σ) :
    (c.add (b'.arrives none)).Tells b'.standing := by
  rw [hb']
  exact (add_empty c).symm ▸ h

/-- An instance that closes tells its parent. -/
theorem Tells.close (h : c.Tells b.standing) {status : Status} (terminal : status.isTerminal = true)
    (hb' : b'.standing = b.standing.close workflowId status) :
    (c.add (b'.arrives (b.reports workflowId status))).Tells b'.standing := by
  rw [Standings.close] at hb'
  cases hget : b.get? workflowId with
  | none =>
      rw [show b.standing workflowId = none by rw [standing, hget]; rfl] at hb'
      rw [show b.reports workflowId status = none by simp [reports, hget]]
      exact h.arrives_none hb'
  | some inst =>
      have hshut : c.Tells (b.standing.change workflowId fun standing => standing.shut status) :=
        h.shut terminal
      rw [standing_of_get? hget] at hb'
      simp only [Standings.report, Instance.standing] at hb'
      cases hparent : inst.parent with
      | none =>
          rw [show b.reports workflowId status = none by simp [reports, hget, hparent]]
          simp only [hparent] at hb'
          exact hshut.arrives_none hb'
      | some parent =>
          simp only [hparent] at hb'
          cases hreport : status.report? parent.seq with
          | none =>
              rw [show b.reports workflowId status = none by
                simp [reports, hget, hparent, hreport]]
              simp only [hreport] at hb'
              exact hshut.arrives_none hb'
          | some event =>
              rw [show b.reports workflowId status = some (parent.workflowId, event) by
                simp [reports, hget, hparent, hreport]]
              simp only [hreport] at hb'
              exact hshut.arrives hb'

/-- A child that is started gets its start, and the instance hears of it. -/
theorem Tells.startChild (h : c.Tells b.standing) (runId workflowId : String)
    (start : ChildStart) :
    ((c.add (b.founds workflowId (.startChild start))).add
      ((b.startChild runId workflowId start).1.arrives
        (b.sends runId workflowId (.startChild start)))).Tells
      (b.startChild runId workflowId start).1.standing := by
  have hstanding := standing_startChild b runId workflowId start
  rw [Standings.startChild, isSome_standing] at hstanding
  cases hcontains : b.contains start.workflowId with
  | true =>
      rw [hcontains, if_pos rfl] at hstanding
      simp only [founds, sends, hcontains, if_pos, add_empty]
      exact h.arrives hstanding
  | false =>
      have free : b.standing start.workflowId = none := by
        rw [standing, contains_eq_false.mp hcontains]
        rfl
      rw [hcontains, if_neg (by simp)] at hstanding
      simp only [founds, sends, hcontains, Bool.false_eq_true, if_false]
      exact (h.create free _ _).arrives hstanding

/-- A child that is asked to cancel hears of it. -/
theorem Tells.cancelChild (h : c.Tells b.standing) (runId workflowId : String) (seq : Nat)
    (childId : String) :
    (c.add ((b.cancelChild workflowId seq childId).arrives
      (b.sends runId workflowId (.cancelChild seq childId)))).Tells
        (b.cancelChild workflowId seq childId).standing := by
  simp only [sends, Backend.cancelChild]
  split
  · exact h.arrives (standing_deliver rfl b childId)
  · exact h.arrives_none rfl

/-- **A command that is carried out is told of.** -/
theorem Tells.apply (h : c.Tells b.standing) (runId workflowId : String) (command : Command) :
    (c.add ((b.founds workflowId command).add
      ((b.apply runId workflowId command).1.arrives (b.sends runId workflowId command)))).Tells
        (b.apply runId workflowId command).1.standing := by
  rw [← add_assoc]
  cases command with
  | startChild start => exact h.startChild runId workflowId start
  | cancelChild seq childId => exact (add_empty c).symm ▸ h.cancelChild runId workflowId seq childId
  | startTimer seq delayMs => exact (add_empty c).symm ▸ h.arrives_none rfl
  | complete result => exact (add_empty c).symm ▸ h.close rfl (standing_close rfl b workflowId)
  | fail error => exact (add_empty c).symm ▸ h.close rfl (standing_close rfl b workflowId)
  | cancel reason => exact (add_empty c).symm ▸ h.close rfl (standing_close rfl b workflowId)

/-- **All commands that are carried out are told of.** -/
theorem Tells.applyAll (h : c.Tells b.standing) (names : Nat → String) (workflowId : String)
    (commands : List Command) :
    (c.add (b.tellsAll names workflowId commands)).Tells
      (b.applyAll names workflowId commands).1.standing := by
  induction commands generalizing b c names with
  | nil => exact (add_empty c).symm ▸ h
  | cons command commands ih =>
      rw [tellsAll, ← add_assoc]
      exact ih (h.apply (names 0) workflowId command) _

end Chronicle

namespace Backend

variable {b b' : Backend} {c : Chronicle} {token id : String}

/-! ### Runs -/

/-- Whether a chronicle tells what happened to a backend, and tasks are as they were handed out. -/
structure ToldBy (b : Backend) (c : Chronicle) : Prop where
  /-- Instances and leases fit together. -/
  sound : b.Sound
  /-- Tasks that were handed out are honoured. -/
  honoured : ∀ task ∈ c.tasks, b.Honours task
  /-- Leases are those of tasks that were handed out. -/
  leased : ∀ token id, (token, id) ∈ b.leases → ∃ task ∈ c.tasks, task.token = token
  /-- Starts and mail are told of. -/
  tells : c.Tells b.standing

/-- Nothing happened to a backend without instances. -/
theorem toldBy_empty : empty.ToldBy {} :=
  ⟨sound_empty, nofun, nofun, Chronicle.tells_empty⟩

/-- Operations that hand out no task are told of if their starts and mail are. -/
theorem ToldBy.settles (h : b.ToldBy c) (sound : b'.Sound)
    (honours : ∀ task, b.Honours task → b'.Honours task)
    (hleases : ∀ lease ∈ b'.leases, lease ∈ b.leases) {more : Chronicle}
    (hmore : more.tasks = []) (htells : (c.add more).Tells b'.standing) :
    b'.ToldBy (c.add more) := by
  have htasks : (c.add more).tasks = c.tasks := by simp [Chronicle.add, hmore]
  refine ⟨sound, ?_, ?_, htells⟩
  · rw [htasks]
    exact fun task htask => honours task (h.honoured task htask)
  · rw [htasks]
    exact fun token id hlease => h.leased token id (hleases _ hlease)

/-- Operations that touch no task are told of if their starts and mail are. -/
theorem ToldBy.keeps (h : b.ToldBy c) (hkeeps : b.Keeps b') {more : Chronicle}
    (hmore : more.tasks = []) (htells : (c.add more).Tells b'.standing) :
    b'.ToldBy (c.add more) :=
  h.settles (h.sound.keeps hkeeps) (fun _ honours => honours.keeps hkeeps)
    (fun _ hlease => hkeeps.leases ▸ hlease) hmore htells

/-- Operations that only move events of tasks that they end tell nothing. -/
theorem ToldBy.shifts (h : b.ToldBy c) (hshifts : b.Shifts b')
    (hleases : ∀ lease ∈ b'.leases, lease ∈ b.leases) : b'.ToldBy c := by
  have htells : (c.add {}).Tells b'.standing := by
    rw [Chronicle.add_empty, hshifts.standing]
    exact h.tells
  have htold := h.settles hshifts.sound hshifts.honours hleases rfl htells
  rwa [Chronicle.add_empty] at htold

/-- Starting a workflow. -/
theorem ToldBy.start (h : b.ToldBy c) (names : Nat → String) (request : StartRequest) :
    (b.after (.start names request)).ToldBy (c.add (b.tells (.start names request))) := by
  rw [after, Backend.tells]
  cases hstart : b.startWorkflow names request with
  | error e => simpa only [Chronicle.add_empty] using h
  | ok result =>
      obtain ⟨started, b', alarms⟩ := result
      obtain ⟨info, free, rfl, hinfo, -⟩ := startWorkflow_inv hstart
      have hunknown : b.standing info.workflowId = none := by
        rw [standing, free]
        rfl
      have hcreate := h.tells.create hunknown none request.input
      subst hinfo
      refine h.keeps (create_keeps free none request.input) rfl ?_
      rw [standing_create free]
      exact hcreate

/-- Delivering an input. -/
theorem ToldBy.deliver (h : b.ToldBy c) (workflowId : String) {event : Event}
    (input : event.isRecord = false) :
    (b.deliver workflowId event).ToldBy
      (c.add ((b.deliver workflowId event).arrives (some (workflowId, event)))) :=
  h.keeps (deliver_keeps input b workflowId) rfl
    (h.tells.arrives (standing_deliver input b workflowId))

/-- Asking a workflow to cancel. -/
theorem ToldBy.cancel (h : b.ToldBy c) (workflowId reason : String) :
    (b.after (.cancel workflowId reason)).ToldBy
      (c.add (b.tells (.cancel workflowId reason))) := by
  have hsame : b.after (.cancel workflowId reason)
      = b.deliver workflowId (.cancelRequested reason) := by
    rw [after, cancelWorkflow]
    cases hcontains : b.contains workflowId with
    | true => rfl
    | false =>
        rw [Backend.deliver, contains_eq_false.mp hcontains]
        rfl
  rw [hsame]
  exact h.deliver workflowId rfl

/-- Handing out a task. -/
theorem ToldBy.dispatch (h : b.ToldBy c) (taskQueue : String) :
    (b.after (.dispatch taskQueue)).ToldBy (c.add (b.tells (.dispatch taskQueue))) := by
  rw [after, Backend.tells]
  rcases hdispatch : b.dispatch taskQueue with ⟨result, b'⟩
  have hshifts := dispatch_shifts h.sound hdispatch
  refine ⟨hshifts.sound, fun task htask => ?_, fun token id hlease => ?_, ?_⟩
  · rcases List.mem_append.mp htask with hold | hnew
    · exact hshifts.honours task (h.honoured task hold)
    · rw [Option.mem_toList] at hnew
      cases hnew
      exact (honours_dispatch h.sound hdispatch).1
  · rcases dispatch_inv hdispatch with ⟨rfl, hrequeues⟩
      | ⟨b₁, inst, hrequeues, -, -, -, -, rfl, rfl⟩
    · obtain ⟨task, htask, htoken⟩ := h.leased token id (hrequeues.leases ▸ hlease)
      exact ⟨task, List.mem_append_left _ htask, htoken⟩
    · rcases List.mem_append.mp hlease with hold | hnew
      · obtain ⟨task, htask, htoken⟩ := h.leased token id (hrequeues.leases ▸ hold)
        exact ⟨task, List.mem_append_left _ htask, htoken⟩
      · cases List.mem_singleton.mp hnew
        exact ⟨_, List.mem_append_right _ (List.mem_singleton_self _), rfl⟩
  · rw [hshifts.standing]
    exact h.tells.tasks _

/-- Carrying out commands hands out no task. -/
theorem tasks_tellsAll (b : Backend) (names : Nat → String) (workflowId : String)
    (commands : List Command) : (b.tellsAll names workflowId commands).tasks = [] := by
  induction commands generalizing b names with
  | nil => rfl
  | cons command commands ih =>
      have hfounds : (b.founds workflowId command).tasks = [] := by
        cases command with
        | startChild start =>
            rw [founds]
            split <;> rfl
        | _ => rfl
      simp only [tellsAll, Chronicle.add, arrives, hfounds, ih, List.append_nil]

/-- What happens when the task of an open instance is settled. -/
theorem tellsSettled_of_isOpen {inst : Instance} (hlookup : b.leases.lookup token = some id)
    (hget : b.get? id = some inst) (hopen : inst.isOpen = true) (happens : String → Chronicle) :
    b.tellsSettled token happens = happens id := by
  simp [tellsSettled, hlookup, isOpen, hget, hopen]

/-- Nothing happens when the task of an instance is settled that has closed. -/
theorem tellsSettled_of_isClosed (hlookup : b.leases.lookup token = some id)
    (hclosed : ∀ inst, b.get? id = some inst → inst.isOpen = false)
    (happens : String → Chronicle) : b.tellsSettled token happens = {} := by
  cases hget : b.get? id with
  | none => simp [tellsSettled, hlookup, isOpen, hget]
  | some inst => simp [tellsSettled, hlookup, isOpen, hget, hclosed inst hget]

/-- Dropping the events of a task whose instance has closed. -/
theorem ToldBy.discard (h : b.ToldBy c) (hlookup : b.leases.lookup token = some id)
    (hclosed : ∀ inst, b.get? id = some inst → inst.isOpen = false)
    (happens : String → Chronicle) :
    (b.discharge token id fun inst => { inst with inFlight := [] }).ToldBy
      (c.add (b.tellsSettled token happens)) := by
  rw [tellsSettled_of_isClosed hlookup hclosed, Chronicle.add_empty]
  exact h.shifts (discard_shifts h.sound (mem_leases hlookup) hclosed)
    fun _ hlease => (List.mem_filter.mp hlease).1

/-- What is recorded for an outstanding task has the events that were handed out. -/
theorem ToldBy.inputs_delta (h : b.ToldBy c) {names : Nat → String} {delta : List Event}
    {commands : List Command} (allowed : b.Allows c (.complete names token delta commands))
    {inst : Instance}
    (hlookup : b.leases.lookup token = some id) (hget : b.get? id = some inst)
    (hopen : inst.isOpen = true) : inputs delta = inputs inst.inFlight := by
  have hlease := mem_leases hlookup
  obtain ⟨task, htask, rfl⟩ := h.leased token id hlease
  have honours := h.honoured task htask
  obtain ⟨-, -, hinFlight⟩ := honours.outstanding hlease hget hopen
  have hself : inputs task.newEvents = task.newEvents :=
    List.filter_eq_self.mpr fun event hevent => by simp [honours.inputs event hevent]
  rw [hinFlight, hself]
  exact allowed task htask rfl (by rw [hlookup]; rfl)

/-- **Completing a task**, whatever is commanded. -/
theorem ToldBy.complete (h : b.ToldBy c) {names : Nat → String} {delta : List Event}
    {commands : List Command} (allowed : b.Allows c (.complete names token delta commands)) :
    (b.after (.complete names token delta commands)).ToldBy
      (c.add (b.tells (.complete names token delta commands))) := by
  rw [after, Backend.tells]
  cases hcomplete : b.completeTask names token delta commands with
  | error e => simpa only [Chronicle.add_empty] using h
  | ok result =>
      obtain ⟨b', alarms⟩ := result
      obtain ⟨id, inst, hlookup, hget, ⟨hclosed, -, rfl⟩ | ⟨hopen, b₁, happly, rfl⟩⟩ :=
        completeTask_inv hcomplete
      · refine h.discard hlookup (fun other hother => ?_) _
        obtain rfl : inst = other := Option.some.inj (hget.symm.trans hother)
        exact hclosed
      · have hlease := mem_leases hlookup
        have hkeeps := (applyAll_keeps (b.recordDelta token id delta) names id commands).trans
          (enqueue_requeues _ id).keeps
        have hrecorded := standing_recordDelta hget
          (h.inputs_delta allowed hlookup hget hopen) token
        have htells := (hrecorded ▸ h.tells : c.Tells (b.recordDelta token id delta).standing)
          |>.applyAll names id commands
        rw [happly] at hkeeps htells
        refine h.settles ((h.sound.recordDelta hlease delta).keeps hkeeps)
          (fun task honours => (honours.recordDelta h.sound hlease delta).keeps hkeeps)
          (fun lease hmem => ?_) ?_ ?_
        · rw [hkeeps.leases] at hmem
          exact (List.mem_filter.mp hmem).1
        · rw [tellsSettled_of_isOpen hlookup hget hopen]
          exact tasks_tellsAll _ names id commands
        · rw [tellsSettled_of_isOpen hlookup hget hopen, (enqueue_requeues b₁ id).standing]
          exact htells

/-- Failing a task. -/
theorem ToldBy.fail (h : b.ToldBy c) (token : String) (error : Failure) :
    (b.after (.fail token error)).ToldBy (c.add (b.tells (.fail token error))) := by
  rw [after, Backend.tells]
  cases hfail : b.failTask token error with
  | error e => simpa only [Chronicle.add_empty] using h
  | ok b' =>
      obtain ⟨id, hlookup, ⟨hclosed, rfl⟩ | ⟨inst, hget, hopen, rfl⟩⟩ := failTask_inv hfail
      · exact h.discard hlookup hclosed _
      · have hlease := mem_leases hlookup
        have terminal : (Status.failed error).isTerminal = true := rfl
        have hkeeps := close_keeps terminal (b.recordDelta token id [.failed error]) id
        have hstanding : ((b.recordDelta token id [.failed error]).close id
            (.failed error)).standing = b.standing.close id (.failed error) := by
          rw [standing_close terminal, Standings.close_congr ?other ?self]
          case other =>
            intro other hother
            rw [standing, get?_recordDelta, if_neg hother]
            rfl
          case self =>
            rw [standing, get?_recordDelta, if_pos rfl, standing, hget]
            rfl
        dsimp only
        rw [tellsSettled_of_isOpen hlookup hget hopen]
        refine h.settles ((h.sound.recordDelta hlease _).keeps hkeeps)
          (fun task honours => (honours.recordDelta h.sound hlease _).keeps hkeeps)
          (fun lease hmem => ?_) rfl (h.tells.close terminal hstanding)
        rw [hkeeps.leases] at hmem
        exact (List.mem_filter.mp hmem).1

/-- Giving a task back. -/
theorem ToldBy.abandon (h : b.ToldBy c) (token : String) :
    (b.after (.abandon token)).ToldBy (c.add (b.tells (.abandon token))) := by
  rw [after, Backend.tells, Chronicle.add_empty]
  cases habandon : b.abandonTask token with
  | error e => exact h
  | ok b' =>
      refine h.shifts (abandonTask_shifts h.sound habandon) fun lease hmem => ?_
      obtain ⟨id, -, rfl⟩ := abandonTask_inv habandon
      rw [(enqueue_requeues _ id).leases] at hmem
      exact (List.mem_filter.mp hmem).1

/-- An alarm that goes off. -/
theorem ToldBy.ring (h : b.ToldBy c) (alarm : Alarm) :
    (b.after (.ring alarm)).ToldBy (c.add (b.tells (.ring alarm))) := by
  cases alarm with
  | timer workflowId seq afterMs => exact h.deliver workflowId rfl
  | timeout workflowId afterMs =>
      rw [after, Backend.tells, Backend.ring]
      rcases b.timeOut_inv workflowId with ⟨hclosed, hsame⟩ | ⟨inst, hget, hopen, hclose⟩
      · have hshut : b.isOpen workflowId = false := by
          cases hget : b.get? workflowId with
          | none => rw [isOpen, hget]; rfl
          | some inst => simpa [isOpen, hget] using hclosed inst hget
        rw [hsame, if_neg (by simp [hshut]), Chronicle.add_empty]
        exact h
      · rw [if_pos (by simp [isOpen, hget, hopen]), hclose]
        refine h.keeps (modify_close_keeps ?_ ?_ (fun inst tidy => ?_) rfl) rfl
          (h.tells.close rfl (standing_modify_close ?_ ?_ rfl b workflowId))
        · exact fun _ => rfl
        · exact fun _ => rfl
        · exact ⟨tidy.inFlight, tidy.queued, tidy.inputs⟩
        · exact fun _ => rfl
        · exact fun _ => rfl

/-- **Every operation that a run allows is told of.** -/
theorem ToldBy.after (h : b.ToldBy c) (operation : Operation) (allowed : b.Allows c operation) :
    (b.after operation).ToldBy (c.add (b.tells operation)) := by
  cases operation with
  | start names request => exact h.start names request
  | cancel workflowId reason => exact h.cancel workflowId reason
  | dispatch taskQueue => exact h.dispatch taskQueue
  | complete names token delta commands => exact h.complete allowed
  | fail token error => exact h.fail token error
  | abandon token => exact h.abandon token
  | ring alarm => exact h.ring alarm

/-- **A chronicle tells what happened.** -/
theorem Chronicled.toldBy (h : Chronicled b c) : b.ToldBy c := by
  induction h with
  | empty => exact toldBy_empty
  | after h operation allowed ih => exact ih.after operation allowed

/-- **Every event that was delivered to an open instance is there once and in order.** What it has
recorded, what was handed out with its task and what waits for it are its start and the events that
arrived. -/
theorem Chronicled.delivered_once (h : Chronicled b c) {inst : Instance}
    (hget : b.get? id = some inst) (hopen : inst.isOpen = true) :
    ∃ input, c.starts.lookup id = some (.executionStarted inst.info.workflowType inst.info.method
        input inst.info.parentWorkflowId)
      ∧ inputs inst.history ++ inst.inFlight ++ inst.pending
        = .executionStarted inst.info.workflowType inst.info.method input
            inst.info.parentWorkflowId :: c.mailTo id := by
  have htold := h.toldBy
  obtain ⟨input, hstart, hreceived⟩ := htold.tells.received id inst.standing
    (standing_of_get? hget) (Instance.isOpen_iff.mp hopen)
  refine ⟨input, hstart, ?_⟩
  have hwaiting : inputs (inst.inFlight ++ inst.pending) = inst.inFlight ++ inst.pending :=
    List.filter_eq_self.mpr fun event hevent => by
      simp [(htold.sound.tidy id inst hget).inputs event hevent]
  calc
    inputs inst.history ++ inst.inFlight ++ inst.pending
      = inputs inst.history ++ inputs (inst.inFlight ++ inst.pending) := by
        rw [hwaiting, List.append_assoc]
    _ = inputs (inst.history ++ inst.inFlight ++ inst.pending) := by
        simp [inputs]
    _ = inst.standing.received := by rw [Instance.standing, hopen, if_pos rfl]
    _ = _ := hreceived

/-- An errand is given back once and hears of rain and of a timer meanwhile. What has arrived is
recorded, in flight or pending, in this order. -/
theorem rainyErrand_received :
    ∃ b c inst, Chronicled b c ∧ b.get? "errand" = some inst ∧ inst.isOpen = true
      ∧ inst.history.length = 3 ∧ inst.inFlight = [.timerFired 0]
      ∧ inst.pending = [.cancelRequested "hail"]
      ∧ ∃ input, c.starts.lookup "errand" = some (.executionStarted inst.info.workflowType
          inst.info.method input inst.info.parentWorkflowId)
        ∧ inputs inst.history ++ inst.inFlight ++ inst.pending
          = .executionStarted inst.info.workflowType inst.info.method input
              inst.info.parentWorkflowId :: c.mailTo "errand" := by
  have started := Chronicled.empty.after (.start (namesFrom 0)
    { workflowType := "Errand", method := "run", workflowId := some "errand", taskQueue := "town"
      input := "[]", timeout := none }) trivial
  have first := (started.after (.dispatch "town") trivial).after (.cancel "errand" "rain") trivial
  have second := (first.after (.abandon (tokenName 1)) trivial).after (.dispatch "town") trivial
  have fired := second.after (.ring (.timer "errand" 0 5)) trivial
  have completed := fired.after (.complete (namesFrom 2) (tokenName 2)
    [.executionStarted "Errand" "run" "[]" none, .timerStarted 1 7, .cancelRequested "rain"]
    [.startTimer 1 7]) (by rw [Allows]; decide +kernel)
  have run := (completed.after (.dispatch "town") trivial).after (.cancel "errand" "hail") trivial
  refine ⟨_, _, _, run, Option.eq_some_of_isSome (by decide +kernel), ?_, ?_, ?_, ?_,
    run.delivered_once (Option.eq_some_of_isSome (by decide +kernel)) ?_⟩
  all_goals decide +kernel

end Backend

end DurableWorkflow
