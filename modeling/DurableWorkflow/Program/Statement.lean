import DurableWorkflow.Future
import DurableWorkflow.Interface
import DurableWorkflow.Payload.Type

/-!
# Workflow programs

Workflow code as data: a finite tree of statements over named variables. A statement acts on the
execution around it (starts children and timers, waits, logs), or directs the flow of the program
(spawns a thread, branches, repeats). What an action yields can be stored in a variable, and a
failure it ends with can be caught into one.

## Main definitions

* `Action` — what a statement can do; `Statement` — actions and the flow between them.
* `Program` — the code of one workflow method.
* `Statement.weight` — a bound on the statements that can be executed.
* `Statement.isReplayBlind` — whether a program never asks if it is being replayed.
-/

namespace DurableWorkflow

/-- A text with variables in braces. -/
abbrev Template : Type :=
  String

/-- The arguments of a call. -/
inductive Arguments where
  /-- A fixed document. -/
  | document (value : Json)
  /-- The document that a text denotes once its variables are filled in. -/
  | rendered (template : Template)
  deriving Inhabited

/-- A question a program can ask. -/
inductive Condition where
  /-- Was the workflow asked to cancel? -/
  | cancelRequested
  /-- Is recorded history being applied again? -/
  | replaying
  /-- Does a future have an outcome? -/
  | ready (future : String)
  /-- Does a variable hold a failure? -/
  | failed (name : String)
  /-- Are two texts equal once their variables are filled in? -/
  | equal (a b : Template)
  deriving DecidableEq, Inhabited

/-- How important a log line is. -/
inductive LogLevel where
  /-- For developers. -/
  | debug
  /-- For the record. -/
  | info
  /-- For attention. -/
  | warn
  /-- For alarm. -/
  | error
  deriving DecidableEq, Inhabited

/-- The name of a level. -/
def LogLevel.name : LogLevel → String
  | .debug => "DEBUG"
  | .info => "INFO"
  | .warn => "WARN"
  | .error => "ERROR"

/-- What a panic carries. -/
inductive PanicPayload where
  /-- A text. -/
  | text (message : Template)
  /-- A text fixed in the code. -/
  | fixed (message : String)
  /-- Something without a text. -/
  | other
  deriving DecidableEq, Inhabited

/-- What a single statement does. Futures and other values are named by variables. -/
inductive Action where
  /-- Start a child through a method reference; yields the future of its result. -/
  | start (stub : Stub) (method : String) (args : Arguments) (plain : Bool)
  /-- Call a method of a stub directly and wait for its result. -/
  | call (stub : Stub) (method : String) (args : Arguments) (type : PayloadType)
  /-- Call a method of a stub directly; yields the future of its result. -/
  | callStart (stub : Stub) (method : String) (args : Arguments)
  /-- Wait for a future; yields its payload, at a type if one is given. -/
  | await (future : String) (type : Option PayloadType)
  /-- Wait for several futures; yields their payloads in order. -/
  | all (futures : List String)
  /-- Wait for the first of several futures; yields its payload and names its index. -/
  | any (futures : List String) (which : Option String)
  /-- Start a timer; yields its future. -/
  | timer (delay : Duration)
  /-- Start a timer and wait for it. -/
  | sleep (delay : Duration)
  /-- Detach the child behind a future. -/
  | abandon (future : String)
  /-- Note what is known about a future. -/
  | inspect (future : String)
  /-- Note what is known about the execution. -/
  | observe
  /-- Note a text. -/
  | trace (text : Template)
  /-- Log a line, unless history is being applied again. -/
  | log (level : LogLevel) (text : Template)
  /-- Encode arguments; yields the payload. -/
  | encode (args : Arguments)
  /-- Decode a payload at a type; yields the document. -/
  | decode (payload : Template) (type : PayloadType)
  /-- Yield a text. -/
  | set (text : Template)
  /-- Let the other threads run. -/
  | pause
  /-- Wait for nothing. -/
  | forever
  /-- Panic. -/
  | panic (payload : PanicPayload)
  /-- Fail with a given failure. -/
  | fail (failure : Failure)
  /-- Fail with a text. -/
  | failWith (message : Template)
  /-- Fail with the failure in a variable, if it holds one. -/
  | rethrow (name : String)
  /-- End the program or thread with a text. -/
  | finish (value : Template)
  deriving Inhabited

/-- Where the result of an action goes. -/
structure Binding where
  /-- The variable for what it yields. -/
  store : Option String
  /-- The variable for the failure it ends with. -/
  rescue : Option String
  deriving DecidableEq, Inhabited

/-- A statement of a workflow program. -/
inductive Statement where
  /-- Do something. -/
  | perform (action : Action) (binding : Binding)
  /-- Run statements as another thread on a copy of the variables; stores its future. -/
  | spawn (steps : List Statement) (store : Option String)
  /-- Go on with one of two lists of statements. -/
  | branch (condition : Condition) (yes no : List Statement)
  /-- Run statements several times. -/
  | loop (times : Nat) (steps : List Statement)
  deriving Inhabited

/-- The code of a workflow method: over a raw payload, or over input of a type. -/
structure Program where
  /-- The type at which input is decoded and output encoded, if any. -/
  input : Option PayloadType
  /-- The statements. -/
  steps : List Statement
  deriving Inhabited

namespace Statement

mutual

/-- A bound on how many statements one statement can lead to, counting a spawned thread as a
statement of its own. -/
def weight : Statement → Nat
  | .perform _ _ => 1
  | .spawn steps _ => 2 + listWeight steps
  | .branch _ yes no => 1 + listWeight yes + listWeight no
  | .loop times steps => 1 + times * (1 + listWeight steps)

/-- The weight of a list of statements. -/
def listWeight : List Statement → Nat
  | [] => 0
  | step :: steps => step.weight + listWeight steps

end

theorem listWeight_append (a b : List Statement) :
    listWeight (a ++ b) = listWeight a + listWeight b := by
  induction a with
  | nil => simp [listWeight]
  | cons step steps ih => simp [listWeight, ih, Nat.add_assoc]

mutual

/-- Whether a statement never asks if history is being applied again. -/
def isReplayBlind : Statement → Bool
  | .perform _ _ => true
  | .spawn steps _ => listIsReplayBlind steps
  | .branch condition yes no =>
    condition ≠ .replaying && listIsReplayBlind yes && listIsReplayBlind no
  | .loop _ steps => listIsReplayBlind steps

/-- Whether no statement of a list asks if history is being applied again. -/
def listIsReplayBlind : List Statement → Bool
  | [] => true
  | step :: steps => step.isReplayBlind && listIsReplayBlind steps

end

end Statement

/-- Whether a program never asks if history is being applied again. -/
def Program.isReplayBlind (program : Program) : Bool :=
  Statement.listIsReplayBlind program.steps

end DurableWorkflow
