import DurableWorkflow.Duration

/-!
# Interfaces, stubs and method references

An interface declares the methods through which workflows of one type can be started. A stub binds
an interface to the choices for a child that will be started through it. A reference to a method
knows from the start whether it may be started: it has to come from a stub that declares it.

## Main definitions

* `Interface` — a workflow type and its methods.
* `Stub` — an interface with the options of a child.
* `MethodRef` — a method captured for later, with its `Eligibility`.
-/

namespace DurableWorkflow

/-- A workflow type with its declared methods. -/
structure Interface where
  /-- The name of the workflow type. -/
  name : String
  /-- The names of its methods, each once, in the order of their declaration. -/
  methods : List String
  deriving DecidableEq, Inhabited

namespace Interface

/-- An interface from the methods as they were declared; of equal names the first counts. -/
def ofDeclarations (name : String) (declared : List String) : Interface :=
  ⟨name, declared.foldl (fun methods m => if m ∈ methods then methods else methods ++ [m]) []⟩

/-- Whether an interface declares a method. -/
def declares (interface : Interface) (method : String) : Bool :=
  method ∈ interface.methods

/-- A method's signature in inspected form; every method starts a workflow. -/
def inspectMethod (method : String) : String :=
  Text.record "MethodSignature" [("name", Text.quote method), ("kind", "Workflow")]

/-- An interface in inspected form. -/
def inspect (interface : Interface) : String :=
  Text.record "WorkflowInterface"
    [("name", Text.quote interface.name),
      ("methods", Text.bracketed (interface.methods.map inspectMethod))]

end Interface

/-- The choices for a child; what is left open is decided when the child is started. -/
structure ChildOptions where
  /-- The name of the child. -/
  workflowId : Option String
  /-- The queue for its tasks. -/
  taskQueue : Option String
  /-- How long the backend lets it run. -/
  timeout : Option Duration
  /-- Whether it survives the cancellation of its parent. -/
  detached : Bool
  deriving DecidableEq, Inhabited

/-- Options in inspected form. -/
def ChildOptions.inspect (options : ChildOptions) : String :=
  Text.record "ChildWorkflowOptions"
    [("workflow_id", Text.optional Text.quote options.workflowId),
      ("task_queue", Text.optional Text.quote options.taskQueue),
      ("execution_timeout", Text.optional Duration.inspect options.timeout),
      ("detached", Text.truth options.detached)]

/-- A proxy through which children of one interface are started. -/
structure Stub where
  /-- The interface of the children. -/
  interface : Interface
  /-- The choices for each of them. -/
  options : ChildOptions
  deriving DecidableEq, Inhabited

/-- A stub in inspected form. -/
def Stub.inspect (stub : Stub) : String :=
  Text.record "WorkflowStub"
    [("interface", Text.quote stub.interface.name), ("options", stub.options.inspect)]

/-- Whether a method reference may be started. -/
inductive Eligibility where
  /-- It came from a stub that declares the method. -/
  | eligible
  /-- It may not, for the given reason. -/
  | ineligible (reason : String)
  deriving DecidableEq, Inhabited

/-- Eligibility in inspected form. -/
def Eligibility.inspect : Eligibility → String
  | .eligible => "Eligible"
  | .ineligible reason => Text.record "Ineligible" [("reason", Text.quote reason)]

/-- A method captured for a later start. -/
structure MethodRef where
  /-- The name of the method. -/
  name : String
  /-- Whether it may be started. -/
  eligibility : Eligibility
  /-- The stub it came from, if any. -/
  stub : Option Stub
  deriving DecidableEq, Inhabited

namespace MethodRef

/-- A reference to a method of something other than a stub, never eligible. -/
def plain (name : String) : MethodRef :=
  ⟨name, .ineligible "not obtained from a workflow stub", none⟩

/-- A reference in inspected form. -/
def inspect (ref : MethodRef) : String :=
  Text.record "MethodRef"
    [("name", Text.quote ref.name), ("eligibility", ref.eligibility.inspect)]

end MethodRef

/-- A reference to a method of a stub, eligible exactly when the stub's interface declares it. -/
def Stub.method (stub : Stub) (name : String) : MethodRef where
  name := name
  eligibility :=
    if stub.interface.declares name then .eligible
    else .ineligible (stub.interface.name ++ " declares no method " ++ name)
  stub := some stub

end DurableWorkflow
