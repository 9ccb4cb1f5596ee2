import DurableWorkflow.Execution

/-!
# Rehearsals

An execution driven by a script instead of a backend. Every command is recorded, and the script
says which events answer it; further events can be put in at chosen points. The history that comes
out is then cut at every length, and each cut is replayed and continued, to see whether the resumed
execution issues the same commands.

## Main definitions

* `Script` — the answers and the order in which they are delivered.
* `Rehearsal.perform` — the live run.
* `Rehearsal.resumeFrom` — replay one cut of its history and go on with the rest.
-/

namespace DurableWorkflow

/-- A pattern for the events that answer the start of a child: a stored event that lacks its
sequence number and in whose texts `{seq}` stands for it. -/
abbrev AnswerPattern : Type :=
  Json

namespace AnswerPattern

/-- Put the sequence number in the place of its mark. -/
def fillText (seq : Nat) (s : String) : String :=
  (toString seq).intercalate (s.splitOn "\x7bseq\x7d")

/-- Put the sequence number in the place of its mark in every text of a document. -/
def fill (seq : Nat) : Json → Json
  | .string s => .string (fillText seq s)
  | .array items => .array (fillItems seq items)
  | .object members => .object (fillMembers seq members)
  | document => document
where
  /-- Every entry of an array filled in. -/
  fillItems (seq : Nat) : List Json → List Json
    | [] => []
    | item :: items => fill seq item :: fillItems seq items
  /-- Every member of an object filled in, with its key. -/
  fillMembers (seq : Nat) : List (String × Json) → List (String × Json)
    | [] => []
    | (key, value) :: members => (fillText seq key, fill seq value) :: fillMembers seq members

/-- The event of a pattern for a child. -/
def event? (pattern : AnswerPattern) (seq : Nat) : Option Event :=
  match fill seq pattern with
  | .object [(kind, content)] =>
    Event.ofJson? false (.tagged kind (Json.insertMember "seq" (.nat seq) content.members))
  | _ => none

end AnswerPattern

/-- What answers the commands of a rehearsed execution. -/
structure Script where
  /-- The answers to the start of particular children, by sequence number. -/
  children : List (Nat × List AnswerPattern)
  /-- The answers to the start of any other child. -/
  otherwise : List AnswerPattern
  /-- Whether timers fire. -/
  timersFire : Bool
  /-- Whether the latest answer is delivered first. -/
  latestFirst : Bool
  /-- Events to deliver after so many others. -/
  injections : List (Nat × Event)
  /-- How many events are delivered at most. -/
  limit : Nat
  deriving Inhabited

/-- The events that answer a command of a workflow. -/
def Script.answers (script : Script) (workflowId : String) : Command → List Event
  | .startChild start =>
    let patterns := (script.children.lookup start.seq).getD script.otherwise
    patterns.filterMap fun pattern => pattern.event? start.seq
  | .startTimer seq _ => if script.timersFire then [.timerFired seq] else []
  | .cancelChild seq _ => [.childCancelled seq ("parent " ++ workflowId ++ " cancelled")]
  | _ => []

/-- A rehearsed execution. -/
structure Rehearsal where
  /-- The instance. -/
  execution : Execution
  /-- The answers that wait to be delivered, oldest first. -/
  inbox : List Event
  /-- What was delivered and recorded. -/
  history : List Event
  /-- How many events were delivered. -/
  taken : Nat

/-- How a replayed cut went on. -/
inductive Resumption where
  /-- The cut could not be replayed. -/
  | diverged (error : Nondeterminism)
  /-- It was replayed to an instance with so many commands, and then went on to the end, to the
  same commands or to others, unless an event was refused on the way. -/
  | resumed (replayed : Nat) (complete same : Bool) (refused : Option Nondeterminism)
  deriving Inhabited

namespace Rehearsal

/-- A rehearsal before its first event, the start of the execution. -/
def start (info : RunInfo) (program : Program) (converter : Converter) (input : String) :
    Rehearsal where
  execution := .new info program converter
  inbox := [.executionStarted info.workflowType info.method input info.parentWorkflowId]
  history := []
  taken := 0

/-- The next event: one that the script puts in at this point, else one from the inbox. -/
def next? (script : Script) (r : Rehearsal) : Option (Event × Rehearsal) :=
  let injected := if r.history.isEmpty then none else script.injections.lookup r.taken
  match injected with
  | some event => some (event, r)
  | none =>
    if script.latestFirst then
      r.inbox.getLast?.map fun event => (event, { r with inbox := r.inbox.dropLast })
    else
      r.inbox.head?.map fun event => (event, { r with inbox := r.inbox.tail })

/-- Record a command and queue its answers. -/
def answer (script : Script) (r : Rehearsal) (command : Command) : Rehearsal :=
  { r with
    history := r.history ++ [command.record]
    inbox := r.inbox ++ script.answers r.execution.context.info.workflowId command }

/-- Deliver events until the instance has closed, an event is refused, or nothing is left to
deliver, so many times at most. -/
def deliver (script : Script) : Nat → Rehearsal → Option Nondeterminism × Rehearsal
  | 0, r => (none, r)
  | count + 1, r =>
    match r.next? script with
    | none => (none, r)
    | some (event, r) =>
      match r.execution.step event with
      | (.error e, execution) =>
        (some e, { r with execution, history := r.history ++ [event], taken := r.taken + 1 })
      | (.ok outcome, execution) =>
        let r := { r with execution, history := r.history ++ [event], taken := r.taken + 1 }
        let r := outcome.commands.foldl (answer script) r
        if outcome.isComplete then (none, r) else deliver script count r

/-- The live run of a script. -/
def perform (script : Script) (info : RunInfo) (program : Program) (converter : Converter)
    (input : String) : Option Nondeterminism × Rehearsal :=
  (start info program converter input).deliver script (max script.limit 1)

/-- Replay the history of a rehearsal up to a cut and go on with its remaining inputs. -/
def resumeFrom (r : Rehearsal) (program : Program) (cut : Nat) : Resumption :=
  let ctx := r.execution.context
  match Execution.replay ctx.info program ctx.converter (r.history.take cut) with
  | .error e => .diverged e
  | .ok x =>
    let inputs := (r.history.drop cut).filter fun event => !event.isRecord
    let (refused, resumed) := x.applyAll inputs
    .resumed x.issued.length x.complete (resumed.issued == r.execution.issued) refused

end Rehearsal

end DurableWorkflow
