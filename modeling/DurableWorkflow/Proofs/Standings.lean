import DurableWorkflow.Proofs.Instances

/-!
# How instances stand

What parents, children and clients see of an instance is less than what the backend keeps of it: who
it is, whose child it is, whether it is open, and which inputs it has got as long as it is. Whether
these inputs are recorded, in flight or pending does not show, so handing a task out, giving it back
and recording its events change nothing here. What is left is three ways in which instances change:
one is created, one hears of an event, one closes.

## Main definitions

* `Standing`, `Backend.standing` — how an instance stands, and how all do.
* `Standings.create`, `Standings.deliver`, `Standings.close` — the ways in which standings change.
* `Standings.IsOpen` — whether an instance is known and open.

## Main results

* `Backend.standing_create`, `Backend.standing_deliver`, `Backend.standing_close`,
  `Backend.standing_apply` — what operations of the backend do to standings.
-/

namespace DurableWorkflow

/-- How an instance stands. -/
structure Standing where
  /-- Its identity. -/
  info : RunInfo
  /-- Where it belongs, if it is a child. -/
  parent : Option ParentLink
  /-- Whether it is open. -/
  status : Status
  /-- The inputs it has got, while it is open. -/
  received : List Event
  deriving DecidableEq, Inhabited

/-- An open instance hears of an event. -/
def Standing.hear (standing : Standing) (event : Event) : Standing :=
  if standing.status = .running then { standing with received := standing.received ++ [event] }
  else standing

/-- An instance closes. -/
def Standing.shut (standing : Standing) (status : Status) : Standing :=
  { standing with status, received := [] }

/-- What one hears does not change who one is. -/
@[simp] theorem Standing.hear_info (standing : Standing) (event : Event) :
    (standing.hear event).info = standing.info := by
  rw [hear]
  split <;> rfl

/-- What one hears does not change whose child one is. -/
@[simp] theorem Standing.hear_parent (standing : Standing) (event : Event) :
    (standing.hear event).parent = standing.parent := by
  rw [hear]
  split <;> rfl

/-- What one hears does not open or close one. -/
@[simp] theorem Standing.hear_status (standing : Standing) (event : Event) :
    (standing.hear event).status = standing.status := by
  rw [hear]
  split <;> rfl

/-- What is open gets what it hears. -/
theorem Standing.hear_received {standing : Standing} (h : standing.status = .running)
    (event : Event) : (standing.hear event).received = standing.received ++ [event] := by
  rw [hear, if_pos h]

/-- How an instance stands. -/
def Instance.standing (inst : Instance) : Standing where
  info := inst.info
  parent := inst.parent
  status := inst.status
  received := if inst.isOpen then inputs (inst.history ++ inst.inFlight ++ inst.pending) else []

/-- An open instance is running. -/
theorem Instance.isOpen_iff {inst : Instance} : inst.isOpen = true ↔ inst.status = .running := by
  simp only [isOpen, Status.isTerminal]
  cases inst.status <;> simp

/-- How the instances under some names stand. -/
abbrev Standings : Type :=
  String → Option Standing

namespace Standings

/-- One of them changes. -/
def change (σ : Standings) (workflowId : String) (f : Standing → Standing) : Standings :=
  fun id => if id = workflowId then (σ id).map f else σ id

/-- One of them hears of an event. -/
def deliver (σ : Standings) (workflowId : String) (event : Event) : Standings :=
  σ.change workflowId fun standing => standing.hear event

/-- There is a new one, under a free name. -/
def create (σ : Standings) (info : RunInfo) (parent : Option ParentLink) (input : String) :
    Standings :=
  fun id =>
    if id = info.workflowId then
      some ⟨info, parent, .running,
        [.executionStarted info.workflowType info.method input info.parentWorkflowId]⟩
    else σ id

/-- What a parent hears once an instance that stands in some way has closed. -/
def report (σ : Standings) (standing : Standing) (status : Status) : Standings :=
  match standing.parent with
  | none => σ
  | some parent =>
    match status.report? parent.seq with
    | some event => σ.deliver parent.workflowId event
    | none => σ

/-- One of them closes and its parent hears of it. -/
def close (σ : Standings) (workflowId : String) (status : Status) : Standings :=
  match σ workflowId with
  | none => σ
  | some standing =>
    (σ.change workflowId fun standing => standing.shut status).report standing status

/-- One of them starts a child that would run under a given name. If its own name is taken the start
fails; otherwise there is a new one. -/
def startChild (σ : Standings) (runId workflowId : String) (start : ChildStart) : Standings :=
  if (σ start.workflowId).isSome then
    let cause : Failure := .application ("workflow id " ++ start.workflowId ++ " already exists")
    σ.deliver workflowId (.childStartFailed start.seq cause)
  else
    let info : RunInfo :=
      { workflowType := start.workflowType, method := start.method, workflowId := start.workflowId,
        runId, taskQueue := start.taskQueue, parentWorkflowId := some workflowId }
    (σ.create info (some ⟨workflowId, start.seq⟩) start.input).deliver workflowId
      (.childStarted start.seq runId)

/-- One of them asks a child to cancel. -/
def cancelChild (σ : Standings) (workflowId : String) (seq : Nat) (childId : String) : Standings :=
  if (σ childId >>= Standing.parent) = some ⟨workflowId, seq⟩ then
    σ.deliver childId (.cancelRequested ("parent " ++ workflowId ++ " cancelled"))
  else σ

/-- A command of one of them is carried out. -/
def apply (σ : Standings) (runId workflowId : String) : Command → Standings
  | .startChild start => σ.startChild runId workflowId start
  | .cancelChild seq childId => σ.cancelChild workflowId seq childId
  | .startTimer _ _ => σ
  | .complete result => σ.close workflowId (.completed result)
  | .fail error => σ.close workflowId (.failed error)
  | .cancel reason => σ.close workflowId (.cancelled reason)

variable {σ : Standings} {workflowId id : String} {event : Event} {standing standing' : Standing}

/-- A change is seen under its name. -/
theorem change_self (σ : Standings) (workflowId : String) (f : Standing → Standing) :
    σ.change workflowId f workflowId = (σ workflowId).map f :=
  if_pos rfl

/-- A change is not seen under other names. -/
theorem change_other (h : id ≠ workflowId) (f : Standing → Standing) :
    σ.change workflowId f id = σ id :=
  if_neg h

/-- How an instance stands after a change. -/
theorem change_of_some (h : σ id = some standing) (workflowId : String) (f : Standing → Standing) :
    σ.change workflowId f id = some (if id = workflowId then f standing else standing) := by
  simp only [change, h]
  split <;> rfl

/-- How an instance stood before a change. -/
theorem change_inv {f : Standing → Standing} (h : σ.change workflowId f id = some standing') :
    ∃ standing, σ id = some standing
      ∧ standing' = if id = workflowId then f standing else standing := by
  cases hstanding : σ id with
  | none =>
      simp [change, hstanding] at h
  | some standing =>
      rw [change_of_some hstanding] at h
      exact ⟨standing, rfl, (Option.some.inj h).symm⟩

/-- A change makes no instance known or unknown. -/
theorem isSome_change (σ : Standings) (workflowId : String) (f : Standing → Standing)
    (id : String) : (σ.change workflowId f id).isSome = (σ id).isSome := by
  simp only [change]
  split <;> simp

/-- A change that changes nothing. -/
theorem change_eq_self {f : Standing → Standing}
    (h : ∀ standing, σ workflowId = some standing → f standing = standing) :
    σ.change workflowId f = σ := by
  funext id
  by_cases hid : id = workflowId
  · subst hid
    rw [change_self]
    cases hstanding : σ id with
    | none => rfl
    | some standing => exact congrArg some (h standing hstanding)
  · exact change_other hid f

/-- How an instance stood that is open once an event was delivered. -/
theorem deliver_running (h : σ.deliver workflowId event id = some standing')
    (hrunning : standing'.status = .running) :
    ∃ standing, σ id = some standing ∧ standing.status = .running
      ∧ standing'.info = standing.info
      ∧ standing'.received = standing.received ++ if id = workflowId then [event] else [] := by
  obtain ⟨standing, hstanding, rfl⟩ := change_inv h
  refine ⟨standing, hstanding, ?_⟩
  split at hrunning
  · rename_i hid
    rw [Standing.hear_status] at hrunning
    rw [if_pos hid, if_pos hid, Standing.hear_info, Standing.hear_received hrunning]
    exact ⟨hrunning, rfl, rfl⟩
  · rename_i hid
    rw [if_neg hid, if_neg hid, List.append_nil]
    exact ⟨hrunning, rfl, rfl⟩

/-- How an instance stood that is open once one has closed. -/
theorem shut_running {status : Status} (terminal : status.isTerminal = true)
    (h : σ.change workflowId (fun standing => standing.shut status) id = some standing)
    (hrunning : standing.status = .running) : id ≠ workflowId ∧ σ id = some standing := by
  obtain ⟨old, hold, rfl⟩ := change_inv h
  split at hrunning
  · rw [show status = .running from hrunning] at terminal
    cases terminal
  · rename_i hid
    rw [if_neg hid]
    exact ⟨hid, hold⟩

/-- A new instance is open and has its start to hear of. -/
theorem create_self (σ : Standings) (info : RunInfo) (parent : Option ParentLink) (input : String) :
    σ.create info parent input info.workflowId = some ⟨info, parent, .running,
      [.executionStarted info.workflowType info.method input info.parentWorkflowId]⟩ :=
  if_pos rfl

/-- What stands after an instance was created. -/
theorem create_inv {info : RunInfo} {parent : Option ParentLink} {input : String}
    (h : σ.create info parent input id = some standing) :
    (id = info.workflowId ∧ standing = ⟨info, parent, .running,
        [.executionStarted info.workflowType info.method input info.parentWorkflowId]⟩)
      ∨ (id ≠ info.workflowId ∧ σ id = some standing) := by
  rw [create] at h
  split at h
  · rename_i hid
    cases h
    exact .inl ⟨hid, rfl⟩
  · rename_i hid
    exact .inr ⟨hid, h⟩

/-- Creating an instance makes none unknown. -/
theorem isSome_create (h : (σ id).isSome) (info : RunInfo) (parent : Option ParentLink)
    (input : String) : (σ.create info parent input id).isSome := by
  rw [create]
  split
  · rfl
  · exact h

/-- A parent, if there is one, hears of the end. -/
theorem report_inv (σ : Standings) (standing : Standing) (status : Status) :
    σ.report standing status = σ
      ∨ ∃ parent event, standing.parent = some parent ∧ status.report? parent.seq = some event
        ∧ σ.report standing status = σ.deliver parent.workflowId event := by
  rw [report]
  split
  · exact .inl rfl
  · rename_i parent hparent
    split
    · rename_i event hevent
      exact .inr ⟨parent, event, hparent, hevent, rfl⟩
    · exact .inl rfl

/-- An instance that closes has the status it closes with. -/
theorem status_close {status : Status} (h : σ.close workflowId status workflowId = some standing) :
    standing.status = status := by
  have hshut {standing : Standing} (h : σ.change workflowId (fun standing => standing.shut status)
      workflowId = some standing) : standing.status = status := by
    rw [change_self] at h
    obtain ⟨old, -, rfl⟩ := Option.map_eq_some_iff.mp h
    rfl
  cases hold : σ workflowId with
  | none => simp [close, hold] at h
  | some old =>
      simp only [close, hold] at h
      rcases report_inv (σ.change workflowId fun standing => standing.shut status) old status with
        hreport | ⟨parent, event, -, -, hreport⟩ <;> rw [hreport] at h
      · exact hshut h
      · obtain ⟨before, hbefore, rfl⟩ := change_inv h
        rw [← hshut hbefore]
        split <;> simp

/-- Closing depends on who closes only, not on what one has heard. -/
theorem close_congr {σ' : Standings} (hother : ∀ id, id ≠ workflowId → σ' id = σ id)
    (hself : (σ' workflowId).map (fun standing => (standing.info, standing.parent))
      = (σ workflowId).map fun standing => (standing.info, standing.parent)) (status : Status) :
    σ'.close workflowId status = σ.close workflowId status := by
  have hshut : σ'.change workflowId (fun standing => standing.shut status)
      = σ.change workflowId fun standing => standing.shut status := by
    funext id
    by_cases hid : id = workflowId
    · have hself' := congrArg (Option.map fun same : RunInfo × Option ParentLink =>
        (⟨same.1, same.2, status, []⟩ : Standing)) hself
      rw [Option.map_map, Option.map_map] at hself'
      rw [hid, change_self, change_self]
      exact hself'
    · rw [change_other hid, change_other hid, hother id hid]
  simp only [close]
  rw [hshut]
  cases hstanding' : σ' workflowId with
  | none =>
      rw [hstanding', Option.map_none, eq_comm, Option.map_eq_none_iff] at hself
      rw [hself]
      have hsame : σ' = σ := by
        funext id
        by_cases hid : id = workflowId
        · rw [hid, hstanding', hself]
        · exact hother id hid
      exact hsame
  | some standing' =>
      rw [hstanding', Option.map_some, eq_comm, Option.map_eq_some_iff] at hself
      obtain ⟨standing, hstanding, hsame⟩ := hself
      have hparent : standing.parent = standing'.parent := congrArg Prod.snd hsame
      rw [hstanding]
      simp only [report, hparent]

/-- Whether an instance is known and open. -/
def IsOpen (σ : Standings) (id : String) : Prop :=
  ∃ standing, σ id = some standing ∧ standing.status = .running

/-- Delivering events closes no instance. -/
theorem IsOpen.deliver (h : σ.IsOpen id) (workflowId : String) (event : Event) :
    (σ.deliver workflowId event).IsOpen id := by
  obtain ⟨standing, hstanding, hrunning⟩ := h
  refine ⟨_, change_of_some hstanding workflowId _, ?_⟩
  split
  · rwa [Standing.hear_status]
  · exact hrunning

/-- Commands that do not close an instance leave it open. -/
theorem IsOpen.apply (h : σ.IsOpen workflowId) {command : Command}
    (hcommand : command.isTerminal = false) (runId : String) :
    (σ.apply runId workflowId command).IsOpen workflowId := by
  cases command with
  | startChild start =>
      simp only [Standings.apply, startChild]
      split
      · exact h.deliver _ _
      · rename_i hfree
        refine IsOpen.deliver ?_ _ _
        obtain ⟨standing, hstanding, hrunning⟩ := h
        refine ⟨standing, (if_neg ?_).trans hstanding, hrunning⟩
        intro (heq : workflowId = start.workflowId)
        rw [← heq, hstanding] at hfree
        exact hfree rfl
  | cancelChild seq childId =>
      simp only [Standings.apply, cancelChild]
      split
      · exact h.deliver _ _
      · exact h
  | startTimer seq delayMs => exact h
  | complete | fail | cancel => cases hcommand

end Standings

namespace Backend

variable {b b' : Backend} {workflowId : String}

/-- How the instances of a backend stand. -/
def standing (b : Backend) : Standings :=
  fun id => (b.get? id).map Instance.standing

/-- An instance stands as it does. -/
theorem standing_of_get? {id : String} {inst : Instance} (h : b.get? id = some inst) :
    b.standing id = some inst.standing := by
  rw [standing, h]
  rfl

/-- Without instances none stands. -/
@[simp] theorem standing_empty (id : String) : empty.standing id = none :=
  rfl

/-- Queues do not matter to standings. -/
theorem Requeues.standing (h : b.Requeues b') : b'.standing = b.standing := by
  funext id
  have hrel := h.get? id
  simp only [Backend.standing]
  generalize b.get? id = x, b'.get? id = y at hrel
  cases hrel with
  | none => rfl
  | some hrel =>
      rw [hrel.1]
      rfl

/-- A change of one instance changes its standing. -/
theorem standing_modify {f : Instance → Instance} {g : Standing → Standing}
    (h : ∀ inst, (f inst).standing = g inst.standing)
    (hname : ∀ inst, (f inst).info.workflowId = inst.info.workflowId) (b : Backend)
    (workflowId : String) :
    (b.modify workflowId f).standing = b.standing.change workflowId g := by
  funext id
  simp only [standing, Standings.change, get?_modify hname]
  cases b.get? id with
  | none => split <;> rfl
  | some inst =>
      split
      · exact congrArg some (h inst)
      · rfl

/-- An event that waits was heard. -/
theorem standing_append_pending {event : Event} (input : event.isRecord = false)
    (inst : Instance) :
    ({ inst with pending := inst.pending ++ [event] } : Instance).standing
      = inst.standing.hear event := by
  have hevent : inputs [event] = [event] := by simp [inputs, input]
  obtain ⟨info, parent, history, pending, inFlight, queued, lease, status⟩ := inst
  cases status with
  | running =>
      simp [Instance.standing, Instance.isOpen, Status.isTerminal, Standing.hear, hevent]
  | _ => rfl

/-- Delivering an input. -/
theorem standing_deliver {event : Event} (input : event.isRecord = false) (b : Backend)
    (workflowId : String) :
    (b.deliver workflowId event).standing = b.standing.deliver workflowId event := by
  have hmodify : (b.modify workflowId
      fun inst => { inst with pending := inst.pending ++ [event] }).standing
        = b.standing.change workflowId fun standing => standing.hear event := by
    refine standing_modify (fun inst => ?_) (fun inst => ?_) b workflowId
    · exact standing_append_pending input inst
    · rfl
  rw [deliver]
  split
  · rename_i hnone
    refine (Standings.change_eq_self fun standing hstanding => ?_).symm
    simp [Backend.standing, hnone] at hstanding
  · rename_i inst hget
    split
    · rw [(enqueue_requeues _ workflowId).standing, hmodify]
      rfl
    · rename_i hclosed
      refine (Standings.change_eq_self fun standing hstanding => ?_).symm
      rw [standing_of_get? hget] at hstanding
      cases hstanding
      exact if_neg fun hrunning => hclosed (Instance.isOpen_iff.mpr hrunning)

/-- Creating an instance under a free name. -/
theorem standing_create {info : RunInfo} (free : b.get? info.workflowId = none)
    (parent : Option ParentLink) (input : String) :
    (b.create info parent input).standing = b.standing.create info parent input := by
  rw [create]
  rw [(enqueue_requeues _ info.workflowId).standing]
  funext id
  rw [standing, get?_append]
  case h => exact free
  by_cases hid : id = info.workflowId
  · rw [if_pos hid]
    exact (if_pos hid).symm
  · rw [if_neg hid]
    exact (if_neg hid).symm

/-- What waits for an instance is dropped when it closes. -/
theorem standing_shut {status : Status} (terminal : status.isTerminal = true) (inst : Instance) :
    ({ inst with pending := [], queued := false, status } : Instance).standing
      = inst.standing.shut status := by
  simp [Instance.standing, Instance.isOpen, terminal, Standing.shut]

/-- Closing an instance. -/
theorem standing_close {status : Status} (terminal : status.isTerminal = true) (b : Backend)
    (workflowId : String) :
    (b.close workflowId status).standing = b.standing.close workflowId status := by
  have hshut : (b.modify workflowId
      fun inst => { inst with pending := [], queued := false, status }).standing
        = b.standing.change workflowId fun standing => standing.shut status := by
    refine standing_modify (fun inst => ?_) (fun inst => ?_) b workflowId
    · exact standing_shut terminal inst
    · rfl
  rw [close, Standings.close]
  cases hget : b.get? workflowId with
  | none =>
      rw [show b.standing workflowId = none by rw [standing, hget]; rfl]
  | some inst =>
      rw [standing_of_get? hget]
      simp only [Standings.report, Instance.standing]
      cases inst.parent with
      | none => exact hshut
      | some parent =>
          cases hreport : status.report? parent.seq with
          | none => simpa only [hreport] using hshut
          | some event =>
              simp only [hreport]
              rw [standing_deliver (report?_isRecord hreport), hshut]

/-- Changing an instance and closing it is closing it. -/
theorem standing_modify_close {f : Instance → Instance}
    (hinfo : ∀ inst, (f inst).info = inst.info) (hparent : ∀ inst, (f inst).parent = inst.parent)
    {status : Status} (terminal : status.isTerminal = true) (b : Backend) (workflowId : String) :
    ((b.modify workflowId f).close workflowId status).standing
      = b.standing.close workflowId status := by
  have hget (id : String) := get?_modify
    (fun inst => congrArg RunInfo.workflowId (hinfo inst)) b workflowId id
  rw [standing_close terminal]
  refine Standings.close_congr ?_ ?_ status
  · intro id hid
    rw [standing, hget, if_neg hid]
    rfl
  · simp only [standing, hget, if_pos, Option.map_map]
    congr 1
    funext inst
    simp [Instance.standing, hinfo, hparent]

/-- A name is taken if an instance stands under it. -/
theorem isSome_standing (b : Backend) (id : String) :
    (b.standing id).isSome = b.contains id := by
  simp [standing, contains]

/-- Starting a child. -/
theorem standing_startChild (b : Backend) (runId workflowId : String) (start : ChildStart) :
    (b.startChild runId workflowId start).1.standing
      = b.standing.startChild runId workflowId start := by
  rw [startChild, Standings.startChild]
  rw [isSome_standing]
  cases hcontains : b.contains start.workflowId with
  | true => exact standing_deliver rfl b workflowId
  | false =>
      have free : b.get? start.workflowId = none := contains_eq_false.mp hcontains
      simp only [Bool.false_eq_true, ite_false]
      rw [standing_deliver rfl, standing_create]
      exact free

/-- Asking a child to cancel. -/
theorem standing_cancelChild (b : Backend) (workflowId : String) (seq : Nat) (childId : String) :
    (b.cancelChild workflowId seq childId).standing
      = b.standing.cancelChild workflowId seq childId := by
  have hparent : (b.standing childId >>= Standing.parent)
      = (b.get? childId >>= Instance.parent) := by
    cases hget : b.get? childId with
    | none => rw [standing, hget]; rfl
    | some inst => rw [standing_of_get? hget]; rfl
  rw [cancelChild, Standings.cancelChild]
  rw [hparent]
  split
  · exact standing_deliver rfl b childId
  · rfl

/-- **Carrying out a command.** -/
theorem standing_apply (b : Backend) (runId workflowId : String) (command : Command) :
    (b.apply runId workflowId command).1.standing
      = b.standing.apply runId workflowId command := by
  cases command with
  | startChild start => exact standing_startChild b runId workflowId start
  | cancelChild seq childId => exact standing_cancelChild b workflowId seq childId
  | startTimer seq delayMs => rfl
  | complete result => exact standing_close rfl b workflowId
  | fail error => exact standing_close rfl b workflowId
  | cancel reason => exact standing_close rfl b workflowId

end Backend

end DurableWorkflow
