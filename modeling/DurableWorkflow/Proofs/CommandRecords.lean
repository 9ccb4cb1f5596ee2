import DurableWorkflow.Proofs.FirstDivergence

/-!
# Records identify commands

Of a command history keeps the record only, and by the record alone replay decides whether workflow
code has issued the same command again. So the record has to tell all that the command says. Which
events are records and which event is the record of a command is laid down in two places, and these
have to agree.

Here both are held against a third account, which reads a record back, and against the fields of
commands and events with their names. A field that a record dropped, or took from another one, would
show in these. What holds of a single record then holds of a whole history: once a command has been
issued in replay, nothing but its own record gets past it.

## Main definitions

* `Event.command?` — the command that an event records.
* `Command.recordKind`, `Command.contents` — the kind that the record of a command has to be of, and
  the fields it has to carry.

## Main results

* `Event.isRecord_iff_existsUnique` — a record is the record of exactly one command.
* `Command.matchesRecord_record_iff` — a command matches its own record and that of no other one.
* `Command.matchesRecord_iff_contents` — matching is agreeing on every field.
* `Execution.step_awaiting` — what becomes of an event while a command awaits its record.
* `Execution.replay_altered` — replay stops where a record was replaced by another event.
* `records_identify_commands` — no difference between commands goes unnoticed.
-/

namespace DurableWorkflow

/-! ### Reading a record back -/

namespace Event

/-- The command that an event records, if it records one. -/
def command? : Event → Option Command
  | .childInitiated start => some (.startChild start)
  | .childCancelRequested seq workflowId => some (.cancelChild seq workflowId)
  | .timerStarted seq delayMs => some (.startTimer seq delayMs)
  | .completed result => some (.complete result)
  | .failed error => some (.fail error)
  | .cancelled reason => some (.cancel reason)
  | _ => none

/-- From the record of a command that command is read. -/
@[simp] theorem command?_record (command : Command) : command.record.command? = some command := by
  cases command <;> rfl

/-- The command that is read from an event is the one it is the record of. -/
theorem command?_eq_some_iff {event : Event} {command : Command} :
    event.command? = some command ↔ command.record = event := by
  constructor
  · intro h
    cases event <;> cases h <;> rfl
  · rintro rfl
    exact command?_record command

/-- A command is read from records and from nothing else. -/
theorem isSome_command? (event : Event) : event.command?.isSome = event.isRecord := by
  cases event <;> rfl

/-- **A record is the record of exactly one command**, and other events are of none. -/
theorem isRecord_iff_existsUnique (event : Event) :
    event.isRecord = true ↔ ∃! command : Command, command.record = event := by
  rw [← isSome_command?, Option.isSome_iff_exists]
  simp only [command?_eq_some_iff]
  constructor
  · rintro ⟨command, hcommand⟩
    exact ⟨command, hcommand, fun _ h => Command.record_injective (h.trans hcommand.symm)⟩
  · exact ExistsUnique.exists

end Event

/-! ### Fields -/

/-- An order to start a child has nothing but its fields. -/
theorem ChildStart.fields_injective : Function.Injective ChildStart.fields := by
  rintro ⟨⟩ ⟨⟩ h
  simpa [ChildStart.fields] using h

/-- An event has nothing but its kind and its fields. -/
theorem Event.eq_of_fields {event other : Event} (kind : event.kindName = other.kindName)
    (h : event.fields = other.fields) : event = other := by
  -- The kinds leave the events that are made alike, and of these the fields are compared.
  cases event <;> cases other <;> simp only [kindName, String.reduceEq] at kind <;>
    simp_all [fields, ChildStart.fields_injective.eq_iff]

namespace Command

/-- The kind of event that records a command. -/
def recordKind : Command → String
  | .startChild _ => "ChildWorkflowInitiated"
  | .cancelChild _ _ => "ChildCancelRequested"
  | .startTimer _ _ => "TimerStarted"
  | .complete _ => "WorkflowCompleted"
  | .fail _ => "WorkflowFailed"
  | .cancel _ => "WorkflowCancelled"

/-- The fields of a command with their names, taken from the command and not from its record. -/
def contents : Command → List (String × Field)
  | .startChild start =>
    [("seq", .word start.seq), ("workflow_type", .text start.workflowType),
      ("method", .text start.method), ("workflow_id", .text start.workflowId),
      ("task_queue", .text start.taskQueue), ("input", .text start.input),
      ("execution_timeout_ms", .optionalWord start.timeoutMs), ("detached", .flag start.detached)]
  | .cancelChild seq workflowId => [("seq", .word seq), ("workflow_id", .text workflowId)]
  | .startTimer seq delayMs => [("seq", .word seq), ("delay_ms", .word delayMs)]
  | .complete result => [("result", .text result)]
  | .fail error => [("error", .failure error)]
  | .cancel reason => [("reason", .text reason)]

variable (command other : Command) (event : Event)

/-- The record of a command is of the kind that records it. -/
theorem kindName_record : command.record.kindName = command.recordKind := by
  cases command <;> rfl

/-- The record of a command carries every field of it under the same name. -/
theorem fields_record : command.record.fields = command.contents := by
  cases command <;> rfl

/-- A command matches its own record and that of no other command. -/
theorem matchesRecord_record_iff : command.matchesRecord other.record = true ↔ command = other := by
  rw [matchesRecord, beq_iff_eq, record_injective.eq_iff]

/-- **Matching is agreeing on every field**: an event matches a command if and only if it is of the
kind that records it and carries the same value under every name. -/
theorem matchesRecord_iff_contents :
    command.matchesRecord event = true
      ↔ event.kindName = command.recordKind ∧ event.fields = command.contents := by
  rw [matchesRecord, beq_iff_eq]
  constructor
  · rintro rfl
    exact ⟨command.kindName_record, command.fields_record⟩
  · rintro ⟨hkind, hfields⟩
    refine Event.eq_of_fields ?_ ?_
    · rw [hkind, kindName_record]
    · rw [hfields, fields_record]

end Command

/-! ### Replay -/

namespace Execution

variable {x y : Execution} {event : Event} {command : Command} {unconfirmed : List Command}
  {info : RunInfo} {program : Program} {converter : Converter} {first rest : List Event}

/-- **What becomes of an event while a command awaits its record**: the record of that command is
accepted. Another record is refused as different, and an input because the record is missing. -/
theorem step_awaiting (h : x.unconfirmed = command :: unconfirmed) (event : Event) :
    (x.step event).1 = if event = command.record then .ok ⟨[], x.complete⟩
      else .error ⟨x.context.info.workflowId, x.eventsApplied,
        if event.isRecord then .differentRecord event command
        else .missingRecord command event⟩ := by
  cases hrecord : event.isRecord with
  | true =>
      rw [step_held h hrecord, Command.matchesRecord]
      simp only [beq_iff_eq, eq_comm (a := event)]
      rfl
  | false =>
      have hother : event ≠ command.record := by
        rintro rfl
        rw [command.isRecord_record] at hrecord
        cases hrecord
      rw [step_missing h hrecord, if_neg hother]
      rfl

/-- A record is accepted if it is that of the command which has awaited its record longest. -/
theorem awaits_of_step {outcome : StepOutcome} (h : x.step command.record = (.ok outcome, y)) :
    ∃ unconfirmed, x.unconfirmed = command :: unconfirmed := by
  obtain ⟨unconfirmed, -, hconfirmed⟩ := x.step_record_inv command.isRecord_record
  rw [h] at hconfirmed
  have hawaited := (hconfirmed outcome rfl).2
  rw [← List.map_cons] at hawaited
  exact ⟨unconfirmed, List.map_injective_iff.mpr Command.record_injective hawaited⟩

/-- **Replay stops where a record was replaced.** If a history is replayed and another event is put
in the place of one of its records, then replay ends at that event, whatever comes after it. -/
theorem replay_altered
    (h : replay info program converter (first ++ command.record :: rest) = .ok x)
    (hother : event ≠ command.record) (more : List Event) :
    replay info program converter (first ++ event :: more)
      = .error ⟨info.workflowId, first.length,
          if event.isRecord then .differentRecord event command
          else .missingRecord command event⟩ := by
  rw [replay_of_ne_nil (by simp), applyAll_append] at h ⊢
  -- Both histories are applied alike up to the event, so the command is awaited in both.
  rcases hfirst : ((new info program converter).setReplaying true).applyAll first
    with ⟨_ | e, y⟩ <;> simp only [hfirst] at h ⊢
  · have hinfo : y.context.info = info := (applyAll_counts hfirst).2
    have hcount : y.eventsApplied = first.length :=
      (applyAll_counts hfirst).1.trans (Nat.zero_add _)
    rw [applyAll] at h
    rcases hrecord : y.step command.record with ⟨e | outcome, z⟩ <;> simp only [hrecord] at h
    · cases h
    · obtain ⟨unconfirmed, hawaited⟩ := awaits_of_step hrecord
      have hstep := step_awaiting hawaited event
      rw [if_neg hother, hinfo, hcount] at hstep
      rw [applyAll]
      rcases hevent : y.step event with ⟨e | outcome, w⟩ <;> rw [hevent] at hstep
      · cases hstep
        rfl
      · cases hstep
  · cases h

end Execution

/-! ### No difference goes unnoticed -/

/-- **Records identify commands.** An event is a record if and only if it is the record of a
command, and then it is that of one command only. So a command matches the record of a command if
and only if the two are the same, which is to say that the kinds fit and every field is the same. An
execution in replay that awaits the record of a command accepts that of no other command; and a
history that is replayed is not replayed any more if the record of a command is replaced by that of
another one, whatever comes after it. In both cases the error names the record and the command. -/
theorem records_identify_commands :
    (∀ event : Event, event.isRecord = true ↔ ∃! command : Command, command.record = event)
      ∧ (∀ command other : Command, command.matchesRecord other.record = true ↔ command = other)
      ∧ (∀ (command : Command) (event : Event), command.matchesRecord event = true
          ↔ event.kindName = command.recordKind ∧ event.fields = command.contents)
      ∧ (∀ (x : Execution) (command : Command) (unconfirmed : List Command) (other : Command),
          x.unconfirmed = command :: unconfirmed →
          (x.step other.record).1 = if command = other then .ok ⟨[], x.complete⟩
            else .error ⟨x.context.info.workflowId, x.eventsApplied,
              .differentRecord other.record command⟩)
      ∧ ∀ (info : RunInfo) (program : Program) (converter : Converter)
          (first rest more : List Event) (command other : Command) (x : Execution),
          Execution.replay info program converter (first ++ command.record :: rest) = .ok x →
          command ≠ other →
          Execution.replay info program converter (first ++ other.record :: more)
            = .error ⟨info.workflowId, first.length, .differentRecord other.record command⟩ := by
  refine ⟨Event.isRecord_iff_existsUnique, Command.matchesRecord_record_iff,
    Command.matchesRecord_iff_contents, ?_, ?_⟩
  · intro x command unconfirmed other hawaited
    rw [Execution.step_awaiting hawaited, other.isRecord_record, if_pos rfl]
    simp only [Command.record_injective.eq_iff, eq_comm (a := other)]
  · intro info program converter first rest more command other x h hne
    have hother : other.record ≠ command.record :=
      fun hsame => hne (Command.record_injective hsame).symm
    rw [Execution.replay_altered h hother more, other.isRecord_record, if_pos rfl]

/-- A merchant closes with the failure of a carrier, which is that of a ship. -/
def ruin (place : String) : Command :=
  .fail (.childFailure "Carrier" "carrier" (.childFailure "Ship" "ship" (.application place)))

/-- A merchant whose ship was lost on a reef. -/
def trading : Program :=
  ⟨none, [.perform (.fail (.childFailure "Carrier" "carrier"
    (.childFailure "Ship" "ship" (.application "on a reef")))) ⟨none, none⟩]⟩

/-- The identity of the run. -/
def trade : RunInfo :=
  ⟨"Merchant", "trade", "trade", "run-1", "main", none⟩

/-- The start of it. -/
def tradeStart : Event :=
  .executionStarted "Merchant" "trade" "" none

/-- The run in replay, when the ship is lost and nothing else is recorded yet. -/
def ruined : Execution :=
  (((Execution.new trade trading .json).setReplaying true).step tradeStart).2

/-- A ship that was lost in a storm is told from one that was lost on a reef, although two failures
lie around the one that says so. -/
theorem trading_identified :
    ruined.unconfirmed = [ruin "on a reef"]
      ∧ (ruined.step (ruin "in a storm").record).1
        = .error ⟨"trade", 1, .differentRecord (ruin "in a storm").record (ruin "on a reef")⟩
      ∧ (∃ x, Execution.replay trade trading .json [tradeStart, (ruin "on a reef").record] = .ok x)
      ∧ Execution.replay trade trading .json [tradeStart, (ruin "in a storm").record]
        = .error ⟨"trade", 1, .differentRecord (ruin "in a storm").record (ruin "on a reef")⟩ := by
  have hother : ruin "on a reef" ≠ ruin "in a storm" := by decide
  have hawaited : ruined.unconfirmed = [ruin "on a reef"] := by decide +kernel
  have hplace : ruined.context.info.workflowId = "trade" ∧ ruined.eventsApplied = 1 := by
    decide +kernel
  have hsome : (Execution.replay trade trading .json
      [tradeStart, (ruin "on a reef").record]).toOption.isSome = true := by
    decide +kernel
  obtain ⟨x, hx⟩ := Option.isSome_iff_exists.mp hsome
  have hreplayed := Execution.eq_ok_of_toOption hx
  obtain ⟨-, -, -, hstep, hreplay⟩ := records_identify_commands
  have hrefused := hstep ruined (ruin "on a reef") [] (ruin "in a storm") hawaited
  rw [if_neg hother, hplace.1, hplace.2] at hrefused
  exact ⟨hawaited, hrefused, ⟨x, hreplayed⟩,
    hreplay trade trading .json [tradeStart] [] [] _ _ x hreplayed hother⟩

end DurableWorkflow
