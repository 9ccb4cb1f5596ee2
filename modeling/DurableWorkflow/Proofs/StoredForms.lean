import DurableWorkflow.History.Codec
import DurableWorkflow.Proofs.JsonDocuments
import DurableWorkflow.RunInfo

/-!
# Stored forms

Histories outlive the processes that write them, as JSON text: events, commands, the failures in
them and the identities of runs. A reader that is given the text of one gets back the value that was
written, exactly, as long as the text is not nested more deeply than readers allow. Only chains of
failures can be: each cause is nested in the failure that it explains. From such a text nothing is
read, so that no history comes back changed.

## Main definitions

* `Event.fitsWords`, `Command.fitsWords` — whether all numbers fit a machine word.

## Main results

* `Json.read_tagged_cut` — reading a tagged document of which a reader sees some levels only.
* `Failure.ofJson?_cut`, `Event.ofJson?_cut`, `Command.ofJson?_cut` — a value is read back if all
  levels of its document are seen, and nothing otherwise.
* `stored_forms_read_back` — the texts of all values are read back, or refused as too deep.
-/

namespace DurableWorkflow

/-! ### Documents of fields -/

namespace Json

variable {levels : Nat}

/-- A number that fits a machine word is read as one. -/
theorem word?_nat {n : Nat} (h : n < UInt64.size) : word? (.nat n) = some n := by
  have hnat : nat? (.nat n) = some n := by
    simp only [nat, int, nat?, Int.natCast_nonneg, if_true, Int.toNat_natCast]
  simp [word?, hnat, h]

/-- Going on with a number that was read. -/
theorem bind_word? {α : Type} {n : Nat} (h : n < UInt64.size) (next : Nat → Option α) :
    (word? (.nat n)).bind next = next n := by
  rw [word?_nat h, Option.bind_some]

/-- Going on with a number that may be missing and was read. -/
theorem bind_map_word? {α : Type} {n : Nat} (h : n < UInt64.size) (next : Option Nat → Option α) :
    ((word? (.nat n)).map some).bind next = next (some n) := by
  rw [word?_nat h, Option.map_some, Option.bind_some]

/-- A single member is the deepest. -/
theorem membersDepth_singleton (name : String) (document : Json) :
    depth.membersDepth [(name, document)] = document.depth := by
  simp [depth.membersDepth]

/-- A number adds nothing to the depth of an object. -/
theorem membersDepth_nat_cons (name : String) (n : Nat) (members : List (String × Json)) :
    depth.membersDepth ((name, .nat n) :: members) = depth.membersDepth members := by
  simp [depth.membersDepth, nat, int, depth]

/-- A tagged document is written without loss if its fields are. -/
theorem isPlain_tagged {name : String} {fields : List (String × Json)}
    (h : ∀ field ∈ fields, field.2.isPlain = true) : (tagged name fields).isPlain = true := by
  have hfields : (object fields).isPlain = true := membersArePlain_iff.mpr h
  exact membersArePlain_iff.mpr (by simpa using hfields)

/-- **Reading a tagged document of which some levels are seen only.** The tag and the record behind
it take two levels. If a reader of the record gets a value back exactly when it sees all of the
fields, then a reader of the document does when it sees all of the document. -/
theorem read_tagged_cut {α : Type} {read : Json → Option α} {name : String}
    {fields : List (String × Json)} {value : α} (hunreadable : read .unreadable = none)
    (hempty : read (.object [(name, .unreadable)]) = none)
    (hfields : ∀ inner, levels = inner + 2 →
      read (tagged name (fields.map fun field => (field.1, field.2.cut inner)))
        = if depth.membersDepth fields ≤ inner then some value else none) :
    read ((tagged name fields).cut levels)
      = if (tagged name fields).depth ≤ levels then some value else none := by
  have hdepth : (tagged name fields).depth = depth.membersDepth fields + 2 := by
    simp [tagged, depth, depth.membersDepth]
  rcases levels with _ | _ | levels
  · rw [if_neg (by omega)]
    exact hunreadable
  · rw [if_neg (by omega)]
    exact hempty
  · have hcut : (tagged name fields).cut (levels + 2)
        = tagged name (fields.map fun field => (field.1, field.2.cut levels)) := by
      simp [tagged, cut_object]
    rw [hcut, hfields levels rfl, hdepth]
    simp only [Nat.add_le_add_iff_right]

end Json

/-! ### Failures -/

namespace Failure

/-- A failure is written without loss. -/
theorem isPlain_toJson (failure : Failure) : failure.toJson.isPlain = true := by
  induction failure with
  | childFailure workflowType workflowId cause ih =>
      exact Json.isPlain_tagged (by simp [ih, Json.isPlain])
  | application | childTimeout | childCancelled | cancelled | dataConversion | unknownMethod
  | unregistered | nondeterminism | ineligibleReference => rfl

/-- Every failure of a chain takes two levels. -/
theorem chainLength_lt_depth (failure : Failure) : failure.chainLength < failure.toJson.depth := by
  induction failure with
  | childFailure workflowType workflowId cause ih =>
      simp only [chainLength, toJson, Json.tagged, Json.depth, Json.depth.membersDepth]
      omega
  | application | childTimeout | childCancelled | cancelled | dataConversion | unknownMethod
  | unregistered | nondeterminism | ineligibleReference => exact Nat.zero_lt_two

/-- A failure is read back if all levels of its document are seen, and nothing otherwise. -/
theorem ofJsonWithin?_cut (positional : Bool) (failure : Failure) {levels limit : Nat}
    (hlimit : failure.toJson.depth ≤ levels → failure.chainLength < limit) :
    ofJsonWithin? positional limit (failure.toJson.cut levels)
      = if failure.toJson.depth ≤ levels then some failure else none := by
  induction failure generalizing levels limit with
  | childFailure workflowType workflowId cause ih =>
      have hdepth : (childFailure workflowType workflowId cause).toJson.depth
          = cause.toJson.depth + 2 := by
        simp [toJson, Json.tagged, Json.depth, Json.depth.membersDepth]
      cases limit with
      | zero =>
          rw [if_neg fun h => Nat.not_lt_zero _ (hlimit h)]
          rfl
      | succ limit =>
          refine Json.read_tagged_cut rfl rfl fun inner hlevels => ?_
          have hcause : ofJsonWithin? positional limit (cause.toJson.cut inner) = _ :=
            ih fun h => by
              simp only [chainLength] at hlimit
              omega
          have hfields : Json.depth.membersDepth [("workflow_type", .string workflowType),
              ("workflow_id", .string workflowId), ("cause", cause.toJson)]
              = cause.toJson.depth := by
            simp [Json.depth, Json.depth.membersDepth]
          rw [hfields]
          have hread : ofJsonWithin? positional (limit + 1)
              (.tagged "ChildWorkflowFailure" [("workflow_type", .string workflowType),
                ("workflow_id", .string workflowId), ("cause", cause.toJson.cut inner)])
              = (ofJsonWithin? positional limit (cause.toJson.cut inner)).bind fun cause =>
                some (.childFailure workflowType workflowId cause) := rfl
          refine hread.trans ?_
          rw [hcause]
          split <;> rfl
  | application | childTimeout | childCancelled | cancelled | dataConversion | unknownMethod
  | unregistered | nondeterminism | ineligibleReference =>
      cases limit with
      | zero =>
          rw [if_neg fun h => Nat.not_lt_zero _ (hlimit h)]
          rfl
      | succ limit => exact Json.read_tagged_cut rfl rfl fun _ _ => rfl

/-- **A failure is read back from what a reader sees of its document**: all of it gives the failure,
and anything less gives nothing. -/
theorem ofJson?_cut (positional : Bool) (failure : Failure) (levels : Nat) :
    ofJson? positional (failure.toJson.cut levels)
      = if failure.toJson.depth ≤ levels then some failure else none := by
  refine failure.ofJsonWithin?_cut positional fun h => ?_
  rw [Json.cut_eq_self h]
  exact Nat.lt_succ_of_lt failure.chainLength_lt_depth

/-- Going on with a failure that was read, or not as its document is too deep. -/
theorem bind_ofJson?_cut {α : Type} (positional : Bool) (failure : Failure) {depth levels : Nat}
    (hdepth : depth = failure.toJson.depth) (next : Failure → Option α) :
    (ofJson? positional (failure.toJson.cut levels)).bind next
      = if depth ≤ levels then next failure else none := by
  rw [ofJson?_cut, hdepth]
  split <;> rfl

end Failure

/-! ### Events and commands -/

namespace Field

/-- Whether a number in a field fits a machine word. -/
def fitsWord : Field → Bool
  | .word n => n < UInt64.size
  | .optionalWord n => n.all (· < UInt64.size)
  | .text _ | .optionalText _ | .flag _ | .failure _ => true

/-- A field is written without loss if its number fits a machine word. -/
theorem isPlain_toJson {field : Field} (fits : field.fitsWord = true) :
    field.toJson.isPlain = true := by
  cases field with
  | word n => exact Json.isPlain_nat (of_decide_eq_true fits)
  | optionalWord n =>
      cases n with
      | none => rfl
      | some n => exact Json.isPlain_nat (of_decide_eq_true fits)
  | failure f => exact f.isPlain_toJson
  | text s | flag b => rfl
  | optionalText s => cases s <;> rfl

end Field

/-- Stored fields are written without loss if their numbers fit machine words. -/
theorem isPlain_fields {name : String} {fields : List (String × Field)}
    (fits : fields.all (fun field => field.2.fitsWord) = true) :
    (Json.tagged name (fields.map fun (name, value) => (name, value.toJson))).isPlain = true := by
  refine Json.isPlain_tagged fun field hmem => ?_
  obtain ⟨⟨name, value⟩, hfield, rfl⟩ := List.mem_map.mp hmem
  exact Field.isPlain_toJson (List.all_eq_true.mp fits _ hfield)

/-- The order to start a child is read back from its fields. -/
theorem ChildStart.ofJson?_cut (positional : Bool) {start : ChildStart}
    (fits : start.fields.all (fun field => field.2.fitsWord) = true) (levels : Nat) :
    ofJson? positional (.object ((start.fields.map fun (name, value) => (name, value.toJson)).map
      fun field => (field.1, field.2.cut levels))) = some start := by
  obtain ⟨seq, workflowType, method, workflowId, taskQueue, input, timeoutMs, detached⟩ := start
  have hseq : seq < UInt64.size :=
    of_decide_eq_true (List.all_eq_true.mp fits ("seq", .word seq) List.mem_cons_self)
  have htimeout : timeoutMs.all (fun ms => decide (ms < UInt64.size)) = true :=
    List.all_eq_true.mp fits ("execution_timeout_ms", .optionalWord timeoutMs) (by simp [fields])
  cases timeoutMs with
  | none => exact Json.bind_word? hseq _
  | some ms =>
      exact (Json.bind_word? hseq _).trans (Json.bind_map_word? (of_decide_eq_true htimeout) _)

/-- All fields of an order to start a child are scalars. -/
theorem ChildStart.membersDepth_fields (start : ChildStart) :
    Json.depth.membersDepth (start.fields.map fun (name, value) => (name, value.toJson)) = 0 := by
  obtain ⟨seq, workflowType, method, workflowId, taskQueue, input, timeoutMs, detached⟩ := start
  cases timeoutMs <;> rfl

/-- Going on with an order to start a child that was read. -/
theorem ChildStart.bind_ofJson?_cut {α : Type} (positional : Bool) {start : ChildStart}
    (fits : start.fields.all (fun field => field.2.fitsWord) = true) (levels : Nat)
    (next : ChildStart → Option α) :
    (ofJson? positional (.object ((start.fields.map fun (name, value) => (name, value.toJson)).map
        fun field => (field.1, field.2.cut levels)))).bind next
      = if Json.depth.membersDepth (start.fields.map fun (name, value) => (name, value.toJson))
          ≤ levels then next start else none := by
  rw [ofJson?_cut positional fits, Option.bind_some, start.membersDepth_fields,
    if_pos (Nat.zero_le levels)]

namespace Event

/-- Whether all numbers of an event fit a machine word. -/
def fitsWords (event : Event) : Bool :=
  event.fields.all fun field => field.2.fitsWord

/-- The document of an event with fields. -/
theorem toJson_eq {event : Event} (h : event ≠ .timedOut) :
    event.toJson = .tagged event.kindName
      (event.fields.map fun (name, value) => (name, value.toJson)) := by
  cases event <;> first | rfl | exact absurd rfl h

/-- A sequence number fits a machine word if all numbers of its event do. -/
theorem word_fits {event : Event} (fits : event.fitsWords = true) {name : String} {n : Nat}
    (h : (name, Field.word n) ∈ event.fields) : n < UInt64.size :=
  of_decide_eq_true (List.all_eq_true.mp fits _ h)

/-- The record of an order to start a child is read as that order. -/
theorem ofJson?_initiated (positional : Bool) (fields : List (String × Json)) :
    ofJson? positional (.tagged "ChildWorkflowInitiated" fields)
      = (ChildStart.ofJson? positional (.object fields)).bind fun start =>
          some (.childInitiated start) :=
  rfl

/-- **An event is read back from what a reader sees of its document**: all of it gives the event,
and anything less gives nothing. -/
theorem ofJson?_cut (positional : Bool) {event : Event} (fits : event.fitsWords = true)
    (levels : Nat) :
    ofJson? positional (event.toJson.cut levels)
      = if event.toJson.depth ≤ levels then some event else none := by
  by_cases htimed : event = .timedOut
  · subst htimed
    rfl
  · rw [toJson_eq htimed]
    refine Json.read_tagged_cut rfl (by cases event <;> rfl) fun inner _ => ?_
    cases event with
    | executionStarted workflowType method input parent => cases parent <;> rfl
    | childInitiated start =>
        exact (ofJson?_initiated positional _).trans
          (ChildStart.bind_ofJson?_cut positional fits inner _)
    | childStarted seq _ | childCompleted seq _ | childCancelled seq _ | childTimedOut seq
    | childCancelRequested seq _ | timerFired seq =>
        exact Json.bind_word? (word_fits fits List.mem_cons_self) _
    | childStartFailed seq cause | childFailed seq cause =>
        exact (Json.bind_word? (word_fits fits List.mem_cons_self) _).trans
          (cause.bind_ofJson?_cut positional ((Json.membersDepth_nat_cons _ _ _).trans
            (Json.membersDepth_singleton _ _)) _)
    | timerStarted seq delayMs =>
        exact (Json.bind_word? (word_fits fits List.mem_cons_self) _).trans
          (Json.bind_word? (word_fits fits (List.mem_cons_of_mem _ List.mem_cons_self)) _)
    | failed error => exact error.bind_ofJson?_cut positional (Json.membersDepth_singleton _ _) _
    | cancelRequested reason | completed result | cancelled reason => rfl
    | timedOut => exact absurd rfl htimed

/-- An event is written without loss if its numbers fit machine words. -/
theorem isPlain_toJson {event : Event} (fits : event.fitsWords = true) :
    event.toJson.isPlain = true := by
  by_cases htimed : event = .timedOut
  · subst htimed
    rfl
  · rw [toJson_eq htimed]
    exact isPlain_fields fits

end Event

namespace Command

/-- Whether all numbers of a command fit a machine word. -/
def fitsWords (command : Command) : Bool :=
  command.record.fitsWords

/-- A command is written without loss if its numbers fit machine words. -/
theorem isPlain_toJson {command : Command} (fits : command.fitsWords = true) :
    command.toJson.isPlain = true :=
  isPlain_fields fits

/-- An order to start a child is read as such. -/
theorem ofJson?_startChild (positional : Bool) (fields : List (String × Json)) :
    ofJson? positional (.tagged "StartChildWorkflow" fields)
      = (ChildStart.ofJson? positional (.object fields)).bind fun start =>
          some (.startChild start) :=
  rfl

/-- **A command is read back from what a reader sees of its document**: all of it gives the command,
and anything less gives nothing. -/
theorem ofJson?_cut (positional : Bool) {command : Command} (fits : command.fitsWords = true)
    (levels : Nat) :
    ofJson? positional (command.toJson.cut levels)
      = if command.toJson.depth ≤ levels then some command else none := by
  refine Json.read_tagged_cut rfl (by cases command <;> rfl) fun inner _ => ?_
  cases command with
  | startChild start =>
      exact (ofJson?_startChild positional _).trans
        (ChildStart.bind_ofJson?_cut positional fits inner _)
  | cancelChild seq workflowId =>
      exact Json.bind_word? (Event.word_fits fits List.mem_cons_self) _
  | startTimer seq delayMs =>
      exact (Json.bind_word? (Event.word_fits fits List.mem_cons_self) _).trans
        (Json.bind_word? (Event.word_fits fits (List.mem_cons_of_mem _ List.mem_cons_self)) _)
  | fail error => exact error.bind_ofJson?_cut positional (Json.membersDepth_singleton _ _) _
  | complete result | cancel reason => rfl

end Command

/-! ### Identities of runs -/

namespace RunInfo

/-- An identity is written without loss. -/
theorem isPlain_toJson (info : RunInfo) : info.toJson.isPlain = true := by
  obtain ⟨workflowType, method, workflowId, runId, taskQueue, parent⟩ := info
  cases parent <;> rfl

/-- An identity is a record of scalars. -/
theorem depth_toJson (info : RunInfo) : info.toJson.depth = 1 := by
  obtain ⟨workflowType, method, workflowId, runId, taskQueue, parent⟩ := info
  cases parent <;> rfl

/-- An identity is read back from its document. -/
theorem ofJson?_toJson (info : RunInfo) : ofJson? info.toJson = some info := by
  obtain ⟨workflowType, method, workflowId, runId, taskQueue, parent⟩ := info
  cases parent <;> rfl

end RunInfo

/-! ### Texts -/

/-- **Histories survive being stored.** The text of an event or command whose numbers fit machine
words, of a failure with any chain of causes and of the identity of a run is read back as exactly
the value that was written if its document is nested at most as deeply as readers allow, which is
127 levels. If it is nested more deeply nothing is read, so never another value. -/
theorem stored_forms_read_back :
    (∀ event : Event, event.fitsWords = true → Event.ofText? event.toJson.text
        = if event.toJson.depth ≤ 127 then some event else none)
      ∧ (∀ command : Command, command.fitsWords = true → Command.ofText? command.toJson.text
        = if command.toJson.depth ≤ 127 then some command else none)
      ∧ (∀ failure : Failure, Failure.ofText? failure.toJson.text
        = if failure.toJson.depth ≤ 127 then some failure else none)
      ∧ ∀ info : RunInfo, RunInfo.ofText? info.toJson.text
        = if info.toJson.depth ≤ 127 then some info else none := by
  refine ⟨fun event fits => ?_, fun command fits => ?_, fun failure => ?_, fun info => ?_⟩
  · rw [Event.ofText?, Json.readLenient_text (Event.isPlain_toJson fits)]
    exact Event.ofJson?_cut true fits Json.nestingLimit
  · rw [Command.ofText?, Json.readLenient_text (Command.isPlain_toJson fits)]
    exact Command.ofJson?_cut true fits Json.nestingLimit
  · rw [Failure.ofText?, Json.readLenient_text failure.isPlain_toJson]
    exact failure.ofJson?_cut true Json.nestingLimit
  · have hdepth : info.toJson.depth ≤ Json.nestingLimit := by
      rw [info.depth_toJson]
      decide
    rw [RunInfo.ofText?, Json.readLenient_text info.isPlain_toJson, Json.cut_eq_self hdepth]
    exact info.ofJson?_toJson.trans (if_pos hdepth).symm

/-- A failure that so many parents passed on to theirs. -/
def Failure.passedOn : Nat → Failure
  | 0 => .application "disk \"a\"\nfull"
  | parents + 1 => .childFailure "Backup" "nightly" (passedOn parents)

/-- A parent can store the failure of a child with sixty-one failures behind it, under the greatest
sequence number there is, and read it back; with one failure more it cannot. -/
theorem passed_on_read_back :
    (Event.childFailed 18446744073709551615 (.passedOn 61)).fitsWords = true
      ∧ Event.ofText? (Event.childFailed 18446744073709551615 (.passedOn 61)).toJson.text
        = some (.childFailed 18446744073709551615 (.passedOn 61))
      ∧ Event.ofText? (Event.childFailed 18446744073709551615 (.passedOn 62)).toJson.text
        = none := by
  refine ⟨by decide, ?_, ?_⟩
  · exact (stored_forms_read_back.1 _ (by decide)).trans (if_pos (by decide +kernel))
  · exact (stored_forms_read_back.1 _ (by decide)).trans (if_neg (by decide +kernel))

end DurableWorkflow
