import DurableWorkflow.Proofs.Situations

/-!
# The files of instances

The file of an instance is its history and its status, which clients can look up, and whose child it
is. Events that arrive, tasks that are handed out and tasks that are given back are not seen in any
file. There are three ways in which a file changes, and they are ways of an open instance only: its
task is completed, its task is failed, it runs out of time. The file of a closed instance stays
whatever happens.

A batch of commands is carried out to its end, also past a command that closes the instance. So a
batch with several of those changes the status several times, and the last one counts.

## Main definitions

* `File`, `Backend.file` — the file of an instance.
* `Command.closing?`, `Command.closed?` — the status that a command, or the last of a batch, sets.
* `Backend.subject?`, `File.revise` — whose file an operation changes, and how.

## Main results

* `Backend.file_deliver`, `Backend.file_create`, `Backend.file_close`, `Backend.file_applyAll` —
  what the parts of operations do to files.
* `Backend.file_after`, `Backend.file_after_of_none` — what an operation does to a file.
* `Backend.file_afterAll` — the file of a closed instance stays.
-/

namespace DurableWorkflow

/-- The file of an instance. -/
structure File where
  /-- Where it belongs, if it is a child. -/
  parent : Option ParentLink
  /-- Its recorded history. -/
  history : List Event
  /-- Whether it is open, and how it closed if it is not. -/
  status : Status
  deriving DecidableEq, Inhabited

/-- The file of an instance. -/
def Instance.file (inst : Instance) : File :=
  ⟨inst.parent, inst.history, inst.status⟩

/-- The file of a new instance. -/
def File.fresh (parent : Option ParentLink) : File :=
  ⟨parent, [], .running⟩

/-- The status that a command sets, if it closes the instance. -/
def Command.closing? : Command → Option Status
  | .complete result => some (.completed result)
  | .fail error => some (.failed error)
  | .cancel reason => some (.cancelled reason)
  | _ => none

/-- The status that the last of the commands sets that close the instance. -/
def Command.closed? (commands : List Command) : Option Status :=
  (commands.filterMap closing?).getLast?

/-- Later commands count before earlier ones. -/
theorem Command.closed?_append (commands more : List Command) :
    closed? (commands ++ more) = (closed? more).or (closed? commands) := by
  rw [closed?, List.filterMap_append, List.getLast?_append]
  rfl

/-- Of a single command it is the status that it sets. -/
theorem Command.closed?_singleton (command : Command) :
    closed? [command] = command.closing? := by
  cases command <;> rfl

/-- A command that sets a status is one that closes the instance. -/
theorem Command.isSome_closing? (command : Command) :
    command.closing?.isSome = command.isTerminal := by
  cases command <;> rfl

/-- What a command sets is how an instance closes. -/
theorem Command.isTerminal_of_closing? {command : Command} {status : Status}
    (h : command.closing? = some status) : status.isTerminal = true := by
  cases command <;> cases h <;> rfl

namespace Backend

variable {b b' : Backend} {workflowId id token : String} {old : File} {inst : Instance}

/-- The file under a name. -/
def file (b : Backend) (id : String) : Option File :=
  (b.get? id).map Instance.file

/-- The status of a workflow is the one in its file. -/
theorem describe_eq (b : Backend) (id : String) : b.describe id = (b.file id).map File.status := by
  rw [describe, file, Option.map_map]
  rfl

/-- The file of a known instance. -/
theorem file_of_get? (hget : b.get? id = some inst) : b.file id = some inst.file := by
  rw [file, hget]
  rfl

/-- Whose file it is. -/
theorem get?_of_file (hold : b.file id = some old) :
    ∃ inst, b.get? id = some inst ∧ inst.file = old :=
  Option.map_eq_some_iff.mp hold

/-- A change of one instance is seen in its file only. -/
theorem file_modify {f : Instance → Instance} {g : File → File}
    (hinfo : ∀ inst, (f inst).info = inst.info) (hfile : ∀ inst, (f inst).file = g inst.file)
    (b : Backend) (workflowId id : String) :
    (b.modify workflowId f).file id
      = if id = workflowId then (b.file id).map g else b.file id := by
  rw [file, get?_modify fun inst => congrArg RunInfo.workflowId (hinfo inst), file]
  split
  · rw [Option.map_map, Option.map_map]
    exact congrArg (Option.map · (b.get? id)) (funext hfile)
  · rfl

/-- Files do not depend on queues. -/
theorem Requeues.file (h : b.Requeues b') : b'.file = b.file := by
  funext id
  have hrel := h.get? id
  rw [Backend.file, Backend.file]
  generalize b.get? id = x, b'.get? id = y at hrel
  cases hrel with
  | none => rfl
  | some hrel =>
      obtain ⟨heq, -⟩ := hrel
      rw [heq]
      rfl

/-! ### The parts of operations -/

/-- An event that arrives is not seen. -/
theorem file_deliver (b : Backend) (workflowId : String) (event : Event) :
    (b.deliver workflowId event).file = b.file := by
  rw [deliver]
  split
  · rfl
  · split
    · rw [(enqueue_requeues _ workflowId).file]
      funext other
      rw [file_modify (g := id) ?info ?file, Option.map_id]
      case info => exact fun _ => rfl
      case file => exact fun _ => rfl
      exact ite_self _
    · rfl

/-- A new instance has an empty history. -/
theorem file_create {info : RunInfo} (free : b.get? info.workflowId = none)
    (parent : Option ParentLink) (input id : String) :
    (b.create info parent input).file id
      = if id = info.workflowId then some (.fresh parent) else b.file id := by
  rw [create, (enqueue_requeues _ info.workflowId).file, file, get?_append free, file]
  split <;> rfl

/-- An instance that closes gets its status. -/
theorem file_close (b : Backend) (workflowId : String) (status : Status) (id : String) :
    (b.close workflowId status).file id
      = if id = workflowId then (b.file id).map fun file => { file with status }
        else b.file id := by
  have hmodify : (b.modify workflowId fun inst =>
      { inst with pending := [], queued := false, status }).file id
        = if id = workflowId then (b.file id).map fun file => { file with status }
          else b.file id := by
    refine file_modify ?_ ?_ b workflowId id
    · exact fun _ => rfl
    · exact fun _ => rfl
  rw [close]
  split
  · rename_i hnone
    split
    · rename_i hid
      subst hid
      rw [file, hnone]
      rfl
    · rfl
  · dsimp only
    split
    · exact hmodify
    · split
      · exact (congrFun (file_deliver _ _ _) id).trans hmodify
      · exact hmodify

/-- A child that is started is new. -/
theorem file_startChild (b : Backend) (runId workflowId : String) (start : ChildStart)
    (id : String) : (b.startChild runId workflowId start).1.file id
      = if id = start.workflowId then
          some ((b.file id).getD (.fresh (some ⟨workflowId, start.seq⟩)))
        else b.file id := by
  rw [startChild]
  cases hcontains : b.contains start.workflowId with
  | true =>
      rw [if_pos rfl]
      rw [file_deliver]
      split
      · rename_i hid
        subst hid
        obtain ⟨inst, hget⟩ := Option.isSome_iff_exists.mp hcontains
        rw [file_of_get? hget]
        rfl
      · rfl
  | false =>
      rw [if_neg (by simp)]
      have free := contains_eq_false.mp hcontains
      dsimp only
      rw [file_deliver, file_create (by exact free)]
      dsimp only
      split
      · rename_i hid
        subst hid
        rw [file, free]
        rfl
      · rfl

/-- A request to cancel is not seen. -/
theorem file_cancelChild (b : Backend) (workflowId : String) (seq : Nat) (childId : String) :
    (b.cancelChild workflowId seq childId).file = b.file := by
  rw [cancelChild]
  split
  · exact file_deliver _ _ _
  · rfl

/-- **What a command does to the file of an instance that is known.** -/
theorem file_apply (hold : b.file id = some old) (runId workflowId : String) (command : Command) :
    (b.apply runId workflowId command).1.file id
      = some { old with
        status := if id = workflowId then command.closing?.getD old.status else old.status } := by
  cases command with
  | startChild start =>
      rw [apply, file_startChild, hold]
      simp [Command.closing?]
  | cancelChild seq childId =>
      rw [apply, file_cancelChild, hold]
      simp [Command.closing?]
  | startTimer seq delayMs =>
      rw [apply, hold]
      simp [Command.closing?]
  | complete result | fail error | cancel reason =>
      rw [apply, file_close, hold]
      split <;> rfl

/-- What a command of another instance does to a name that is not known. -/
theorem file_apply_of_none (hnone : b.file id = none) (runId workflowId : String)
    (command : Command) : (b.apply runId workflowId command).1.file id = none
      ∨ ∃ parent, (b.apply runId workflowId command).1.file id = some (.fresh parent) := by
  cases command with
  | startChild start =>
      rw [apply, file_startChild, hnone]
      split
      · exact .inr ⟨_, rfl⟩
      · exact .inl rfl
  | cancelChild seq childId =>
      rw [apply, file_cancelChild]
      exact .inl hnone
  | startTimer seq delayMs => exact .inl hnone
  | complete result | fail error | cancel reason =>
      rw [apply, file_close, hnone]
      exact .inl (ite_self _)

/-- **What a batch of commands does to the file of an instance that is known.** The status is the
one that the last of the commands sets that close the instance. -/
theorem file_applyAll (hold : b.file id = some old) (names : Nat → String) (workflowId : String)
    (commands : List Command) :
    (b.applyAll names workflowId commands).1.file id
      = some { old with
        status := if id = workflowId then (Command.closed? commands).getD old.status
          else old.status } := by
  induction commands generalizing b old names with
  | nil => rw [applyAll, hold]; simp [Command.closed?]
  | cons command commands ih =>
      rw [applyAll]
      dsimp only
      rw [ih (file_apply hold (names 0) workflowId command), ← List.singleton_append,
        Command.closed?_append, Command.closed?_singleton, Option.getD_or]
      split <;> rfl

/-- What a batch of commands of another instance does to a name that is not known. -/
theorem file_applyAll_of_none (hnone : b.file id = none) (hother : id ≠ workflowId)
    (names : Nat → String) (commands : List Command) :
    (b.applyAll names workflowId commands).1.file id = none
      ∨ ∃ parent, (b.applyAll names workflowId commands).1.file id = some (.fresh parent) := by
  induction commands generalizing b names with
  | nil => exact .inl hnone
  | cons command commands ih =>
      rw [applyAll]
      dsimp only
      rcases file_apply_of_none hnone (names 0) workflowId command with hstill | ⟨parent, hnew⟩
      · exact ih hstill _
      · rw [file_applyAll hnew, if_neg hother]
        exact .inr ⟨parent, rfl⟩

/-- The end of a lease is not seen, if the change that comes with it is not. -/
theorem file_discharge {f : Instance → Instance} {g : File → File}
    (hinfo : ∀ inst, (f inst).info = inst.info) (hfile : ∀ inst, (f inst).file = g inst.file)
    (b : Backend) (token workflowId id : String) :
    (b.discharge token workflowId f).file id
      = if id = workflowId then (b.file id).map g else b.file id :=
  file_modify (fun inst => hinfo { inst with lease := none })
    (fun inst => hfile { inst with lease := none }) _ workflowId id

/-- A piece of history is recorded. -/
theorem file_recordDelta (b : Backend) (token workflowId : String) (delta : List Event)
    (id : String) : (b.recordDelta token workflowId delta).file id
      = if id = workflowId then (b.file id).map fun file =>
          { file with history := file.history ++ delta }
        else b.file id := by
  refine file_discharge ?_ ?_ b token workflowId id
  · exact fun _ => rfl
  · exact fun _ => rfl

/-- A task that is handed out is not seen. -/
theorem file_dispatch (b : Backend) (taskQueue : String) : (b.dispatch taskQueue).2.file = b.file := by
  rcases hdispatch : b.dispatch taskQueue with ⟨result, b'⟩
  rcases dispatch_inv hdispatch with ⟨-, hrequeues⟩ | ⟨b₁, inst, hrequeues, -, -, -, -, -, rfl⟩
  · exact hrequeues.file
  · rw [← hrequeues.file]
    funext id
    rw [file, get?_handOut, file]
    split
    · rw [Option.map_map]
      rfl
    · rfl

/-! ### Operations -/

/-- The instance that an operation settles or times out. -/
def subject? (b : Backend) : Operation → Option String
  | .complete _ token _ _ | .fail token _ => b.leases.lookup token
  | .ring (.timeout workflowId _) => some workflowId
  | _ => none

end Backend

/-- How an operation changes the file of its subject, if that is open. -/
def File.revise (file : File) : Backend.Operation → File
  | .complete _ _ delta commands =>
    { file with
      history := file.history ++ delta, status := (Command.closed? commands).getD file.status }
  | .fail _ error => { file with history := file.history ++ [.failed error], status := .failed error }
  | .ring (.timeout _ _) => { file with history := file.history ++ [.timedOut], status := .timedOut }
  | _ => file

namespace Backend

variable {b b' : Backend} {workflowId id token : String} {old : File} {inst : Instance}

/-- A lease that is outstanding can be ended. -/
theorem release_ne_error {operation : String} {e : BackendError}
    (hlookup : b.leases.lookup token = some id) : b.release operation token ≠ .error e := by
  rw [release, hlookup]
  rintro ⟨⟩

/-- A result is taken if its task is outstanding and its instance is known. -/
theorem completeTask_ne_error {names : Nat → String} {delta : List Event}
    {commands : List Command} {e : BackendError} (hlookup : b.leases.lookup token = some id)
    (hget : b.get? id = some inst) : b.completeTask names token delta commands ≠ .error e := by
  intro h
  rw [completeTask] at h
  split at h
  · rename_i hrelease
    exact release_ne_error hlookup hrelease
  · rename_i other _ hrelease
    obtain ⟨hlookup', rfl⟩ := release_eq_ok hrelease
    obtain rfl : id = other := Option.some.inj (hlookup.symm.trans hlookup')
    rw [get?_discharge fun _ => rfl, if_pos rfl, hget] at h
    dsimp only [Option.map_some] at h
    split at h <;> cases h

/-- A failure is taken if its task is outstanding. -/
theorem failTask_ne_error {error : Failure} {e : BackendError}
    (hlookup : b.leases.lookup token = some id) : b.failTask token error ≠ .error e := by
  intro h
  rw [failTask] at h
  split at h
  · rename_i hrelease
    exact release_ne_error hlookup hrelease
  · split at h
    · cases h
    · dsimp only at h
      split at h <;> cases h

/-- The end of a lease that only moves events is not seen. -/
theorem file_discharge_eq {f : Instance → Instance} (hinfo : ∀ inst, (f inst).info = inst.info)
    (hfile : ∀ inst, (f inst).file = inst.file) (b : Backend) (token workflowId : String) :
    (b.discharge token workflowId f).file = b.file := by
  funext id
  rw [file_discharge (g := fun file => file) hinfo hfile, Option.map_id']
  exact ite_self _

/-- A result that is dropped is not seen. -/
theorem file_discard (b : Backend) (token workflowId : String) :
    (b.discharge token workflowId fun inst => { inst with inFlight := [] }).file = b.file := by
  refine file_discharge_eq ?_ ?_ b token workflowId
  · exact fun _ => rfl
  · exact fun _ => rfl

/-- What completing a task does to a file. -/
theorem file_complete (hold : b.file id = some old) (names : Nat → String) (token : String)
    (delta : List Event) (commands : List Command) :
    (b.after (.complete names token delta commands)).file id
      = some (if old.status = .running ∧ b.leases.lookup token = some id then
          old.revise (.complete names token delta commands) else old) := by
  obtain ⟨inst, hget, rfl⟩ := get?_of_file hold
  rw [after]
  cases hcomplete : b.completeTask names token delta commands with
  | error e =>
      rw [if_neg fun h => completeTask_ne_error h.2 hget hcomplete]
      exact hold
  | ok result =>
      obtain ⟨b', alarms⟩ := result
      obtain ⟨workflowId, subject, hlookup, hsubject, ⟨hclosed, -, rfl⟩ | ⟨hopen, b₁, happly, rfl⟩⟩ :=
        completeTask_inv hcomplete
      · rw [file_discard, if_neg, hold]
        rintro ⟨hrunning, hlookup'⟩
        obtain rfl : workflowId = id := Option.some.inj (hlookup.symm.trans hlookup')
        obtain rfl : inst = subject := Option.some.inj (hget.symm.trans hsubject)
        rw [Instance.isOpen_iff.mpr hrunning] at hclosed
        cases hclosed
      · obtain rfl :
            ((b.recordDelta token workflowId delta).applyAll names workflowId commands).1 = b₁ :=
          congrArg Prod.fst happly
        have hrecorded := file_recordDelta b token workflowId delta id
        rw [hold] at hrecorded
        rw [(enqueue_requeues _ workflowId).file]
        by_cases hid : id = workflowId
        · subst hid
          obtain rfl : inst = subject := Option.some.inj (hget.symm.trans hsubject)
          rw [if_pos rfl] at hrecorded
          rw [file_applyAll hrecorded, if_pos rfl, if_pos ⟨Instance.isOpen_iff.mp hopen, hlookup⟩]
          rfl
        · rw [if_neg hid] at hrecorded
          rw [file_applyAll hrecorded, if_neg hid, if_neg]
          rintro ⟨-, hlookup'⟩
          exact hid (Option.some.inj (hlookup'.symm.trans hlookup))

/-- An instance that closes with a note in its history. -/
theorem file_close_of_recorded {events : List Event} {status : Status}
    (hrecorded : b'.file id = if id = workflowId then (b.file id).map fun file =>
        { file with history := file.history ++ events }
      else b.file id) :
    (b'.close workflowId status).file id = if id = workflowId then (b.file id).map fun file =>
        { file with history := file.history ++ events, status }
      else b.file id := by
  rw [file_close, hrecorded]
  split
  · rw [Option.map_map]
    rfl
  · rfl

/-- What failing an open instance does to files. -/
theorem file_recordDelta_close (b : Backend) (token workflowId : String) (error : Failure)
    (id : String) :
    ((b.recordDelta token workflowId [.failed error]).close workflowId (.failed error)).file id
      = if id = workflowId then (b.file id).map fun file =>
          { file with history := file.history ++ [.failed error], status := .failed error }
        else b.file id :=
  file_close_of_recorded (file_recordDelta b token workflowId _ id)

/-- What running out of time does to the files of an open instance and of others. -/
theorem file_modify_close (b : Backend) (workflowId id : String) :
    ((b.modify workflowId fun inst => { inst with history := inst.history ++ [.timedOut] }).close
        workflowId .timedOut).file id
      = if id = workflowId then (b.file id).map fun file =>
          { file with history := file.history ++ [.timedOut], status := .timedOut }
        else b.file id := by
  refine file_close_of_recorded (file_modify ?_ ?_ b workflowId id)
  · exact fun _ => rfl
  · exact fun _ => rfl

/-- What failing a task does to a file. -/
theorem file_fail (hold : b.file id = some old) (token : String) (error : Failure) :
    (b.after (.fail token error)).file id
      = some (if old.status = .running ∧ b.leases.lookup token = some id then
          old.revise (.fail token error) else old) := by
  obtain ⟨inst, hget, rfl⟩ := get?_of_file hold
  rw [after]
  cases hfail : b.failTask token error with
  | error e =>
      rw [if_neg fun h => failTask_ne_error h.2 hfail]
      exact hold
  | ok b' =>
      obtain ⟨workflowId, hlookup, ⟨hclosed, rfl⟩ | ⟨subject, hsubject, hopen, rfl⟩⟩ :=
        failTask_inv hfail
      · rw [file_discard, if_neg, hold]
        rintro ⟨hrunning, hlookup'⟩
        obtain rfl : workflowId = id := Option.some.inj (hlookup.symm.trans hlookup')
        have hopen := hclosed inst hget
        rw [Instance.isOpen_iff.mpr hrunning] at hopen
        cases hopen
      · rw [file_recordDelta_close, hold]
        by_cases hid : id = workflowId
        · subst hid
          obtain rfl : inst = subject := Option.some.inj (hget.symm.trans hsubject)
          rw [if_pos rfl, if_pos ⟨Instance.isOpen_iff.mp hopen, hlookup⟩]
          rfl
        · rw [if_neg hid, if_neg]
          rintro ⟨-, hlookup'⟩
          exact hid (Option.some.inj (hlookup'.symm.trans hlookup))

/-- What an alarm does to a file. -/
theorem file_ring (hold : b.file id = some old) (alarm : Alarm) :
    (b.after (.ring alarm)).file id
      = some (if old.status = .running ∧ b.subject? (.ring alarm) = some id then
          old.revise (.ring alarm) else old) := by
  obtain ⟨inst, hget, rfl⟩ := get?_of_file hold
  rw [after]
  cases alarm with
  | timer workflowId seq afterMs =>
      rw [Backend.ring, file_deliver, hold]
      exact congrArg some (ite_self _).symm
  | timeout workflowId afterMs =>
      rw [Backend.ring, subject?]
      rcases b.timeOut_inv workflowId with ⟨hclosed, hsame⟩ | ⟨subject, hsubject, hopen, hclose⟩
      · rw [hsame, if_neg, hold]
        rintro ⟨hrunning, hid⟩
        obtain rfl : workflowId = id := Option.some.inj hid
        have hopen := hclosed inst hget
        rw [Instance.isOpen_iff.mpr hrunning] at hopen
        cases hopen
      · rw [hclose, file_modify_close, hold]
        by_cases hid : id = workflowId
        · subst hid
          obtain rfl : inst = subject := Option.some.inj (hget.symm.trans hsubject)
          rw [if_pos rfl, if_pos ⟨Instance.isOpen_iff.mp hopen, rfl⟩]
          rfl
        · rw [if_neg hid, if_neg fun h => hid (Option.some.inj h.2).symm]

/-- Starting a workflow does nothing to the file of an instance. -/
theorem file_start (hold : b.file id = some old) (names : Nat → String)
    (request : StartRequest) : (b.after (.start names request)).file id = some old := by
  rw [after]
  split
  · rename_i hstart
    obtain ⟨info, free, rfl, -⟩ := startWorkflow_inv hstart
    rw [file_create free, if_neg]
    · exact hold
    · rintro rfl
      rw [file, free] at hold
      cases hold
  · exact hold

/-- Asking a workflow to cancel is not seen. -/
theorem file_cancel (b : Backend) (workflowId reason : String) :
    (b.after (.cancel workflowId reason)).file = b.file := by
  rw [after, cancelWorkflow]
  cases b.contains workflowId with
  | true => exact file_deliver b workflowId _
  | false => rfl

/-- Giving a task back is not seen. -/
theorem file_abandon (b : Backend) (token : String) : (b.after (.abandon token)).file = b.file := by
  rw [after]
  split
  · rename_i habandon
    obtain ⟨workflowId, -, rfl⟩ := abandonTask_inv habandon
    rw [(enqueue_requeues _ workflowId).file]
    refine file_discharge_eq ?_ ?_ b token workflowId
    · exact fun _ => rfl
    · exact fun _ => rfl
  · rfl

/-- **What an operation does to the file of an instance.** That of its subject is revised, if the
subject is open; no other changes. -/
theorem file_after (hold : b.file id = some old) (operation : Operation) :
    (b.after operation).file id
      = some (if old.status = .running ∧ b.subject? operation = some id then old.revise operation
        else old) := by
  cases operation with
  | complete names token delta commands => exact file_complete hold names token delta commands
  | fail token error => exact file_fail hold token error
  | ring alarm => exact file_ring hold alarm
  | start names request =>
      exact (file_start hold names request).trans (congrArg some (ite_self _).symm)
  | cancel workflowId reason =>
      rw [file_cancel, hold]
      exact congrArg some (ite_self _).symm
  | dispatch taskQueue =>
      rw [after, file_dispatch, hold]
      exact congrArg some (ite_self _).symm
  | abandon token =>
      rw [file_abandon, hold]
      exact congrArg some (ite_self _).symm

/-- **What an operation does under a name that is not known.** There may be a new instance. -/
theorem file_after_of_none (hnone : b.file id = none) (operation : Operation) :
    (b.after operation).file id = none
      ∨ ∃ parent, (b.after operation).file id = some (.fresh parent) := by
  cases operation with
  | start names request =>
      rw [after]
      split
      · rename_i hstart
        obtain ⟨info, free, rfl, -⟩ := startWorkflow_inv hstart
        rw [file_create free]
        split
        · exact .inr ⟨none, rfl⟩
        · exact .inl hnone
      · exact .inl hnone
  | complete names token delta commands =>
      rw [after]
      split
      · rename_i hcomplete
        obtain ⟨workflowId, inst, -, hget, ⟨-, -, rfl⟩ | ⟨-, b₁, happly, rfl⟩⟩ :=
          completeTask_inv hcomplete
        · rw [file_discard]
          exact .inl hnone
        · obtain rfl :
              ((b.recordDelta token workflowId delta).applyAll names workflowId commands).1 = b₁ :=
            congrArg Prod.fst happly
          have hid : id ≠ workflowId := by
            rintro rfl
            rw [file_of_get? hget] at hnone
            cases hnone
          rw [(enqueue_requeues _ workflowId).file]
          refine file_applyAll_of_none ?_ hid names commands
          rw [file_recordDelta, if_neg hid, hnone]
      · exact .inl hnone
  | fail token error =>
      rw [after]
      split
      · rename_i hfail
        obtain ⟨workflowId, -, ⟨-, rfl⟩ | ⟨-, -, -, rfl⟩⟩ := failTask_inv hfail
        · rw [file_discard]
          exact .inl hnone
        · rw [file_recordDelta_close, hnone]
          exact .inl (ite_self _)
      · exact .inl hnone
  | ring alarm =>
      rw [after]
      cases alarm with
      | timer workflowId seq afterMs =>
          rw [Backend.ring, file_deliver]
          exact .inl hnone
      | timeout workflowId afterMs =>
          rw [Backend.ring]
          rcases b.timeOut_inv workflowId with ⟨-, hsame⟩ | ⟨-, -, -, hclose⟩
          · rw [hsame]
            exact .inl hnone
          · rw [hclose, file_modify_close, hnone]
            exact .inl (ite_self _)
  | cancel workflowId reason =>
      rw [file_cancel]
      exact .inl hnone
  | dispatch taskQueue =>
      rw [after, file_dispatch]
      exact .inl hnone
  | abandon token =>
      rw [file_abandon]
      exact .inl hnone

/-- **The file of a closed instance stays**, whatever clients, workers and the clock do. -/
theorem file_afterAll (hold : b.file id = some old) (hclosed : old.status.isTerminal = true)
    (operations : List Operation) : (b.afterAll operations).file id = some old := by
  induction operations generalizing b with
  | nil => exact hold
  | cons operation operations ih =>
      refine ih ?_
      rw [file_after hold, if_neg]
      rintro ⟨hrunning, -⟩
      rw [hrunning] at hclosed
      cases hclosed

end Backend

end DurableWorkflow
