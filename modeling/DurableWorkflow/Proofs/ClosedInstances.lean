import DurableWorkflow.Proofs.Chronicle
import DurableWorkflow.Proofs.Files

/-!
# Closed instances

An instance that has closed stays as it closed, whatever clients, workers and the clock do, and its
parent has heard of the end: a child tells its parent in the operation in which it closes and never
after that.

The commands of a task are carried out one after the other, also those that come after one that
closes the instance. So a batch with several of these sets one status after the other, of which the
last one stays, and the parent hears of each. If batches have one such command at most, a status
stays from the command on that sets it, and the parent hears of one end at most.

## Main definitions

* `Event.endsChild` — the events that tell a parent of the end of a child.
* `Backend.notices`, `Backend.noticesAll` — those that arrive because an instance closes.
* `Backend.Operation.closings` — the statuses that an operation sets, one after the other.

## Main results

* `Backend.notices_sublist` — what arrives because an instance closes is what it reports.
* `Backend.exists_notices` — no other end of a child is told of.
* `Backend.closed_stays_closed` — a closed instance stays closed and tells its parent once.
-/

namespace DurableWorkflow

/-- Whether an event tells a parent how a child closed. -/
def Event.endsChild : Event → Bool
  | .childCompleted _ _ | .childFailed _ _ | .childCancelled _ _ | .childTimedOut _ => true
  | _ => false

/-- What the parent of an instance hears, and who that is, when the instance closes with a status. -/
def File.report? (file : File) (status : Status) : Option (String × Event) := do
  let parent ← file.parent
  let event ← status.report? parent.seq
  some (parent.workflowId, event)

/-- The parent hears of one status after the other. -/
theorem File.filterMap_report?_cons (file : File) (status : Status) (more : List Status) :
    (status :: more).filterMap file.report?
      = (file.report? status).toList ++ more.filterMap file.report? := by
  cases hreport : file.report? status <;> simp [hreport]

/-- The statuses that an operation sets if its subject is open, one after the other. -/
def Backend.Operation.closings : Operation → List Status
  | .complete _ _ _ commands => commands.filterMap Command.closing?
  | .fail _ error => [.failed error]
  | .ring (.timeout _ _) => [.timedOut]
  | _ => []

/-- The last status that is set is the one that stays. -/
theorem File.status_revise (old : File) (operation : Backend.Operation) :
    (old.revise operation).status = (operation.closings.getLast?).getD old.status := by
  cases operation with
  | ring alarm => cases alarm <;> rfl
  | _ => rfl

/-- Every status that is set is one of a closed instance. -/
theorem Backend.Operation.isTerminal_of_mem {operation : Operation} {status : Status}
    (h : status ∈ operation.closings) : status.isTerminal = true := by
  cases operation with
  | complete names token delta commands =>
      obtain ⟨command, -, hcloses⟩ := List.mem_filterMap.mp h
      exact Command.isTerminal_of_closing? hcloses
  | fail token error =>
      cases List.mem_singleton.mp h
      rfl
  | ring alarm =>
      cases alarm with
      | timer => cases h
      | timeout =>
          cases List.mem_singleton.mp h
          rfl
  | _ => cases h

/-- As many statuses are set as there are commands that close the instance. -/
theorem Command.length_closings (commands : List Command) :
    (commands.filterMap closing?).length = (commands.filter isTerminal).length := by
  rw [List.length_filterMap_eq_countP, List.countP_eq_length_filter]
  exact congrArg (fun p => (commands.filter p).length) (funext isSome_closing?)

/-- If one command at most closes the instance, those after it set no other status. -/
theorem Command.closed?_of_once {before rest : List Command}
    (once : ((before ++ rest).filter isTerminal).length ≤ 1) {status : Status}
    (h : closed? before = some status) : closed? (before ++ rest) = some status := by
  rw [← length_closings, List.filterMap_append, List.length_append] at once
  have hbefore : 0 < (before.filterMap closing?).length :=
    List.length_pos_of_mem (List.mem_of_getLast? h)
  have hrest : rest.filterMap closing? = [] := List.length_eq_zero_iff.mp (by omega)
  rw [closed?_append, closed?, hrest]
  exact h

namespace Backend

variable {b b' : Backend} {workflowId id token : String} {old : File} {inst : Instance}

/-! ### What parents hear -/

/-- The ends of children that are told of in an operation. -/
def ends (c : Chronicle) : List (String × Event) :=
  c.mail.filter fun letter => letter.2.endsChild

/-- The ends that are told of because an instance closes in an operation. -/
def notices (b : Backend) (id : String) (operation : Operation) : List (String × Event) :=
  if b.subject? operation = some id then ends (b.tells operation) else []

/-- The ends that are told of because an instance closes in a run. -/
def noticesAll (b : Backend) (id : String) : List Operation → List (String × Event)
  | [] => []
  | operation :: operations =>
    b.notices id operation ++ (b.after operation).noticesAll id operations

/-- What an instance that closes sends is what its file says. -/
theorem reports_eq (b : Backend) (id : String) (status : Status) :
    b.reports id status = (b.file id).bind fun file => file.report? status := by
  rw [reports, file]
  cases b.get? id <;> rfl

/-- What is sent arrives at most. -/
theorem mail_arrives (b : Backend) (letter : Option (String × Event)) :
    (b.arrives letter).mail.Sublist letter.toList := by
  rw [arrives]
  cases letter with
  | none => exact .refl _
  | some letter =>
      rw [Option.filter]
      split
      · exact .refl _
      · exact List.nil_sublist _

/-- A letter that tells of no end adds none. -/
theorem ends_arrives_of_not {letter : Option (String × Event)}
    (h : ∀ sent ∈ letter, sent.2.endsChild = false) (b : Backend) : ends (b.arrives letter) = [] := by
  refine List.filter_eq_nil_iff.mpr fun sent hsent => ?_
  have hletter := (mail_arrives b letter).subset hsent
  rw [Option.mem_toList] at hletter
  simp [h sent hletter]

/-- What commands that do not close their instance send tells of no end. -/
theorem endsChild_sends {command : Command} (hopen : command.closing? = none) (b : Backend)
    (runId workflowId : String) :
    ∀ letter ∈ b.sends runId workflowId command, letter.2.endsChild = false := by
  intro letter hletter
  cases command with
  | startChild start =>
      rw [sends] at hletter
      split at hletter <;> cases hletter <;> rfl
  | cancelChild seq childId =>
      rw [sends] at hletter
      split at hletter <;> cases hletter
      rfl
  | startTimer seq delayMs => cases hletter
  | complete result | fail error | cancel reason => cases hopen

/-- What a command sends that closes its instance is what its file says. -/
theorem sends_of_closing {command : Command} {status : Status}
    (hcloses : command.closing? = some status) (hold : b.file workflowId = some old)
    (runId : String) : b.sends runId workflowId command = old.report? status := by
  cases command <;> cases hcloses <;> rw [sends, reports_eq, hold] <;> rfl

/-- Founding an instance tells of no end. -/
theorem ends_founds (b : Backend) (workflowId : String) (command : Command) :
    ends (b.founds workflowId command) = [] := by
  cases command with
  | startChild start =>
      rw [founds]
      split <;> rfl
  | _ => rfl

/-- The ends that are told of are letters that arrive. -/
theorem ends_sublist (c : Chronicle) : (ends c).Sublist c.mail :=
  List.filter_sublist

/-- More ends are told of. -/
theorem ends_add (c more : Chronicle) : ends (c.add more) = ends c ++ ends more := by
  simp [ends, Chronicle.add]

/-- **What parents hear during a batch**: what the instance reports for the statuses that it is set
to. -/
theorem ends_tellsAll (hold : b.file workflowId = some old) (names : Nat → String)
    (commands : List Command) :
    (ends (b.tellsAll names workflowId commands)).Sublist
      ((commands.filterMap Command.closing?).filterMap old.report?) := by
  induction commands generalizing b old names with
  | nil => exact .refl _
  | cons command commands ih =>
      rw [tellsAll, ends_add, ends_add, ends_founds, List.nil_append]
      have hlater := ih (file_apply hold (names 0) workflowId command) fun i => names (i + 1)
      cases hcloses : command.closing? with
      | none =>
          rw [List.filterMap_cons_none hcloses, ends_arrives_of_not (endsChild_sends hcloses b _ _)]
          exact hlater
      | some status =>
          rw [List.filterMap_cons_some hcloses, sends_of_closing hcloses hold]
          rw [File.filterMap_report?_cons]
          exact ((ends_sublist _).trans (mail_arrives _ _)).append hlater

/-- Whether an instance is open can be told from its file. -/
theorem isOpen_iff_file (hold : b.file id = some old) :
    b.isOpen id = true ↔ old.status = .running := by
  obtain ⟨inst, hget, rfl⟩ := get?_of_file hold
  rw [isOpen, hget]
  exact Instance.isOpen_iff

/-- A closed instance is not open. -/
theorem isOpen_of_closed (hold : b.file id = some old) (hclosed : old.status.isTerminal = true) :
    b.isOpen id = false := by
  by_contra hopen
  rw [(isOpen_iff_file hold).mp (by simpa using hopen)] at hclosed
  cases hclosed

/-- What is not known is not open. -/
theorem isOpen_of_none (hnone : b.file id = none) : b.isOpen id = false := by
  rw [isOpen, Option.map_eq_none_iff.mp hnone]
  rfl

/-- **Only an instance that is open tells its parent of its end.** -/
theorem notices_of_not_open (h : b.isOpen id = false) (operation : Operation) :
    b.notices id operation = [] := by
  rw [notices]
  split
  · rename_i hsubject
    cases operation with
    | complete _ token delta commands | fail token error =>
        have hlookup : b.leases.lookup token = some id := hsubject
        rw [tells]
        split
        · simp [tellsSettled, hlookup, h, ends]
        · rfl
    | ring alarm =>
        cases alarm with
        | timer => cases hsubject
        | timeout workflowId afterMs =>
            obtain rfl : workflowId = id := Option.some.inj hsubject
            simp [tells, h, ends]
    | _ => cases hsubject
  · rfl

/-- **What arrives because an instance closes is what it reports**, for each of the statuses that it
is set to, in their order. -/
theorem notices_sublist (hold : b.file id = some old) (operation : Operation) :
    (b.notices id operation).Sublist (operation.closings.filterMap old.report?) := by
  cases hopen : b.isOpen id with
  | false =>
      rw [notices_of_not_open hopen]
      exact List.nil_sublist _
  | true =>
      have hreports (b' : Backend) (status : Status) :
          (ends (b'.arrives (b.reports id status))).Sublist ([status].filterMap old.report?) := by
        rw [reports_eq, hold, File.filterMap_report?_cons, List.filterMap_nil, List.append_nil]
        exact (ends_sublist _).trans (mail_arrives b' _)
      rw [notices]
      split
      · rename_i hsubject
        cases operation with
        | complete names token delta commands =>
            have hlookup : b.leases.lookup token = some id := hsubject
            have hrecorded := file_recordDelta b token id delta id
            rw [if_pos rfl, hold] at hrecorded
            rw [tells]
            split
            · simp only [tellsSettled, hlookup, hopen, if_true]
              exact ends_tellsAll hrecorded names commands
            · exact List.nil_sublist _
        | fail token error =>
            have hlookup : b.leases.lookup token = some id := hsubject
            rw [tells]
            split
            · simp only [tellsSettled, hlookup, hopen, if_true]
              exact hreports _ _
            · exact List.nil_sublist _
        | ring alarm =>
            cases alarm with
            | timer => cases hsubject
            | timeout workflowId afterMs =>
                obtain rfl : workflowId = id := Option.some.inj hsubject
                rw [tells, if_pos hopen]
                exact hreports _ _
        | _ => cases hsubject
      · exact List.nil_sublist _

/-- **No other end of a child is told of** than those of children that close. -/
theorem exists_notices {operation : Operation} {letter : String × Event}
    (hletter : letter ∈ (b.tells operation).mail) (hends : letter.2.endsChild = true) :
    ∃ id, letter ∈ b.notices id operation := by
  have hmem : letter ∈ ends (b.tells operation) := List.mem_filter.mpr ⟨hletter, hends⟩
  cases hsubject : b.subject? operation with
  | some id =>
      refine ⟨id, ?_⟩
      rwa [notices, if_pos hsubject]
  | none =>
      have hquiet {workflowId : String} {event : Event} (h : event.endsChild = false) :
          ends ((b.deliver workflowId event).arrives (some (workflowId, event))) = [] :=
        ends_arrives_of_not (by rintro _ ⟨⟩; exact h) _
      cases operation with
      | start =>
          rw [tells] at hmem
          split at hmem <;> cases hmem
      | cancel workflowId reason =>
          rw [tells, hquiet rfl] at hmem
          cases hmem
      | complete _ token delta commands | fail token error =>
          have hlookup : b.leases.lookup token = none := hsubject
          rw [tells] at hmem
          split at hmem
          · rw [tellsSettled, hlookup] at hmem
            cases hmem
          · cases hmem
      | ring alarm =>
          cases alarm with
          | timer workflowId seq afterMs =>
              rw [tells, hquiet rfl] at hmem
              cases hmem
          | timeout => cases hsubject
      | _ => cases hmem

/-- An instance that tells its parent of its end has closed then. -/
theorem isTerminal_of_notices (hold : b.file id = some old) {operation : Operation}
    (hnotices : b.notices id operation ≠ []) :
    ∃ file, (b.after operation).file id = some file ∧ file.status.isTerminal = true := by
  have hrunning : old.status = .running := by
    have hopen : b.isOpen id = true := by
      by_contra hclosed
      exact hnotices (notices_of_not_open (by simpa using hclosed) operation)
    exact (isOpen_iff_file hold).mp hopen
  have hsubject : b.subject? operation = some id := by
    by_contra hother
    exact hnotices (if_neg hother)
  have hclosings : operation.closings ≠ [] := by
    intro hnone
    have hsublist := notices_sublist hold operation
    rw [hnone, List.filterMap_nil] at hsublist
    exact hnotices (List.sublist_nil.mp hsublist)
  refine ⟨old.revise operation, ?_, ?_⟩
  · rw [file_after hold, if_pos ⟨hrunning, hsubject⟩]
  · rw [File.status_revise, List.getLast?_eq_some_getLast hclosings]
    exact Operation.isTerminal_of_mem (List.getLast_mem hclosings)

/-- A closed instance tells its parent nothing more. -/
theorem noticesAll_of_closed (hold : b.file id = some old) (hclosed : old.status.isTerminal = true)
    (operations : List Operation) : b.noticesAll id operations = [] := by
  induction operations generalizing b with
  | nil => rfl
  | cons operation operations ih =>
      rw [noticesAll, notices_of_not_open (isOpen_of_closed hold hclosed), List.nil_append]
      exact ih (file_afterAll hold hclosed [operation])

/-- **An instance tells its parent of one end at most**, if each operation sets one status at most. -/
theorem length_noticesAll {operations : List Operation}
    (once : ∀ operation ∈ operations, operation.closings.length ≤ 1) (b : Backend) (id : String) :
    (b.noticesAll id operations).length ≤ 1 := by
  induction operations generalizing b with
  | nil => exact Nat.zero_le 1
  | cons operation operations ih =>
      obtain ⟨hnow, hlater⟩ := List.forall_mem_cons.mp once
      rw [noticesAll]
      by_cases hnone : b.notices id operation = []
      · rw [hnone, List.nil_append]
        exact ih hlater (b.after operation)
      · cases hfile : b.file id with
        | none => exact absurd (notices_of_not_open (isOpen_of_none hfile) operation) hnone
        | some old =>
            obtain ⟨file, hafter, hclosed⟩ := isTerminal_of_notices hfile hnone
            rw [noticesAll_of_closed hafter hclosed, List.append_nil]
            calc
              (b.notices id operation).length
                ≤ (operation.closings.filterMap old.report?).length :=
                  (notices_sublist hfile operation).length_le
              _ ≤ operation.closings.length := List.length_filterMap_le _ _
              _ ≤ 1 := hnow

/-! ### Runs -/

/-- The status of a closed instance stays. -/
theorem describe_afterAll {status : Status} (hstatus : b.describe id = some status)
    (hclosed : status.isTerminal = true) (operations : List Operation) :
    (b.afterAll operations).describe id = some status := by
  rw [describe_eq] at hstatus ⊢
  obtain ⟨old, hold, rfl⟩ := Option.map_eq_some_iff.mp hstatus
  rw [file_afterAll hold hclosed operations]
  rfl

/-- An operation and those after it. -/
theorem afterAll_append (b : Backend) (earlier later : List Operation) :
    b.afterAll (earlier ++ later) = (b.afterAll earlier).afterAll later :=
  List.foldl_append

/-- A backend in the middle of completing a task: the history is recorded and some of the commands
are carried out. -/
def midway (b : Backend) (names : Nat → String) (token id : String) (delta : List Event)
    (before : List Command) : Backend :=
  ((b.recordDelta token id delta).applyAll names id before).1

/-- The file of an open instance. -/
theorem file_of_isOpen (hopen : b.isOpen id = true) :
    ∃ old, b.file id = some old ∧ old.status = .running := by
  cases hfile : b.file id with
  | none =>
      rw [isOpen_of_none hfile] at hopen
      cases hopen
  | some old => exact ⟨old, rfl, (isOpen_iff_file hfile).mp hopen⟩

/-- **The status in the middle of a batch** is the one that the last command so far has set. -/
theorem describe_midway (hopen : b.isOpen id = true) (names : Nat → String) (token : String)
    (delta : List Event) (before : List Command) :
    (b.midway names token id delta before).describe id
      = some ((Command.closed? before).getD .running) := by
  obtain ⟨old, hold, hrunning⟩ := file_of_isOpen hopen
  have hrecorded := file_recordDelta b token id delta id
  rw [if_pos rfl, hold] at hrecorded
  rw [describe_eq, midway, file_applyAll hrecorded, if_pos rfl, ← hrunning]
  rfl

/-- **The status after a batch** is the one that the last of its commands has set. -/
theorem describe_complete (hopen : b.isOpen id = true) (hlookup : b.leases.lookup token = some id)
    (names : Nat → String) (delta : List Event) (commands : List Command) :
    (b.after (.complete names token delta commands)).describe id
      = some ((Command.closed? commands).getD .running) := by
  obtain ⟨old, hold, hrunning⟩ := file_of_isOpen hopen
  rw [describe_eq, file_after hold, if_pos ⟨hrunning, hlookup⟩, ← hrunning]
  rfl

/-- **A closed instance stays closed and tells its parent once.** No operation changes the status of
an instance that has closed. A batch of commands that closes an instance leaves it with the status
that the last of its commands sets; with one such command at most, that is the status from there on.
If this is so in the whole run, the parent hears of one end at most. -/
theorem closed_stays_closed (operations : List Operation) (id : String) :
    (∀ earlier later status, operations = earlier ++ later →
        (empty.afterAll earlier).describe id = some status → status.isTerminal = true →
        (empty.afterAll operations).describe id = some status)
      ∧ (∀ earlier later names token delta commands,
        operations = earlier ++ .complete names token delta commands :: later →
        (empty.afterAll earlier).isOpen id = true →
        (empty.afterAll earlier).leases.lookup token = some id →
        ((empty.afterAll earlier).after (.complete names token delta commands)).describe id
            = some ((Command.closed? commands).getD .running)
          ∧ ((commands.filter Command.isTerminal).length ≤ 1 →
            ∀ before rest status, commands = before ++ rest →
            ((empty.afterAll earlier).midway names token id delta before).describe id
              = some status →
            status.isTerminal = true → (empty.afterAll operations).describe id = some status))
      ∧ ((∀ names token delta commands, .complete names token delta commands ∈ operations →
          (commands.filter Command.isTerminal).length ≤ 1) →
        (empty.noticesAll id operations).length ≤ 1) := by
  refine ⟨?_, ?_, ?_⟩
  · rintro earlier later status rfl hstatus hclosed
    rw [afterAll_append]
    exact describe_afterAll hstatus hclosed later
  · rintro earlier later names token delta commands rfl hopen hlookup
    have hbatch := describe_complete hopen hlookup names delta commands
    refine ⟨hbatch, ?_⟩
    rintro once before rest status rfl hstatus hclosed
    rw [describe_midway hopen] at hstatus
    have hset : Command.closed? before = some status := by
      cases hbefore : Command.closed? before with
      | none =>
          rw [hbefore] at hstatus
          cases hstatus
          cases hclosed
      | some set =>
          rw [hbefore] at hstatus
          exact hstatus
    rw [Command.closed?_of_once once hset] at hbatch
    rw [afterAll_append]
    exact describe_afterAll hbatch hclosed later
  · intro once
    refine length_noticesAll (fun operation hoperation => ?_) empty id
    cases operation with
    | complete names token delta commands =>
        rw [Operation.closings, Command.length_closings]
        exact once names token delta commands hoperation
    | ring alarm =>
        cases alarm with
        | timer => exact Nat.zero_le 1
        | timeout => exact Nat.le_refl 1
    | fail token error => exact Nat.le_refl 1
    | _ => exact Nat.zero_le 1

/-- A parent starts a child, and a worker takes the task of the child. -/
def family : List Operation :=
  [.start (namesFrom 0) ⟨"Parent", "run", some "parent", "town", "null", none⟩, .dispatch "town",
    .complete (namesFrom 2) (tokenName 1) [.executionStarted "Parent" "run" "null" none,
      .childInitiated ⟨1, "Child", "run", "child", "town", "null", none, false⟩]
      [.startChild ⟨1, "Child", "run", "child", "town", "null", none, false⟩],
    .dispatch "town"]

/-- A child that completes stays completed, also when it is said to run out of time, and its parent
hears of it once. -/
theorem child_stays_completed :
    let run := family ++
      [.complete (namesFrom 3) (tokenName 2) [] [.complete "yes", .startTimer 1 5],
      .ring (.timeout "child" 7)]
    (empty.afterAll run).describe "child" = some (.completed "yes")
      ∧ (empty.noticesAll "child" run).length ≤ 1
      ∧ empty.noticesAll "child" run = [("parent", .childCompleted 1 "yes")] := by
  obtain ⟨-, hbatch, honce⟩ := closed_stays_closed
    (family ++ [.complete (namesFrom 3) (tokenName 2) [] [.complete "yes", .startTimer 1 5],
      .ring (.timeout "child" 7)]) "child"
  obtain ⟨-, hstays⟩ := hbatch family [.ring (.timeout "child" 7)] (namesFrom 3) (tokenName 2) []
    [.complete "yes", .startTimer 1 5] rfl (by decide +kernel) (by decide +kernel)
  refine ⟨hstays (by decide) [.complete "yes"] [.startTimer 1 5] _ rfl (by decide +kernel) rfl, ?_,
    by decide +kernel⟩
  refine honce fun names token delta commands hmem => ?_
  simp only [family, List.cons_append, List.nil_append, List.mem_cons, reduceCtorEq,
    Operation.complete.injEq, List.not_mem_nil, false_or, or_false] at hmem
  rcases hmem with ⟨-, -, -, rfl⟩ | ⟨-, -, -, rfl⟩ <;> decide

/-- **A batch can change the status of an instance that it has closed.** The child completes and
fails in one batch; it ends up failed and its parent hears of both. -/
theorem status_overwritten :
    let b := empty.afterAll family
    let batch : List Command := [.complete "yes", .fail (.application "no")]
    (b.midway (namesFrom 3) (tokenName 2) "child" [] [.complete "yes"]).describe "child"
        = some (.completed "yes")
      ∧ (b.after (.complete (namesFrom 3) (tokenName 2) [] batch)).describe "child"
        = some (.failed (.application "no"))
      ∧ b.notices "child" (.complete (namesFrom 3) (tokenName 2) [] batch)
        = [("parent", .childCompleted 1 "yes"), ("parent", .childFailed 1 (.application "no"))] := by
  decide +kernel

end Backend

end DurableWorkflow
