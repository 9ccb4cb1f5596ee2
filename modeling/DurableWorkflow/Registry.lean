import DurableWorkflow.Program.Statement

/-!
# Implementations and registries

An implementation provides a program for every method of an interface. A registry holds the
implementations of one task queue, at most one per workflow type.

## Main definitions

* `Implementation.build` — an implementation from the programs provided for it.
* `Registry.register`, `Registry.registerAll` — adding implementations.
* `Registry.resolve` — the program behind a type and a method.
-/

namespace DurableWorkflow

/-- Why an implementation cannot be built or registered. -/
inductive RegistryError where
  /-- The workflow type is taken. -/
  | duplicate (interface taskQueue : String)
  /-- A declared method has no program. -/
  | missingMethod (interface method : String)
  /-- A program was provided for a method that is not declared. -/
  | undeclaredMethod (interface method : String)
  deriving DecidableEq, Inhabited

namespace RegistryError

/-- The name of an error's kind. -/
def kindName : RegistryError → String
  | .duplicate _ _ => "Duplicate"
  | .missingMethod _ _ => "MissingMethod"
  | .undeclaredMethod _ _ => "UndeclaredMethod"

/-- The wording of an error. -/
def message : RegistryError → String
  | .duplicate i q => "duplicate workflow registration: " ++ i ++ " on task queue " ++ q
  | .missingMethod i m => "implementation of " ++ i ++ " does not provide method " ++ m
  | .undeclaredMethod i m => i ++ " declares no method " ++ m

/-- An error in inspected form. -/
def inspect (error : RegistryError) : String :=
  let fields := match error with
    | .duplicate i q => [("interface", i), ("task_queue", q)]
    | .missingMethod i m | .undeclaredMethod i m => [("interface", i), ("method", m)]
  Text.record error.kindName (fields.map fun (name, value) => (name, Text.quote value))

end RegistryError

/-- Programs for every method of an interface. -/
structure Implementation where
  /-- The interface. -/
  interface : Interface
  /-- The programs by method; of several for one method the first counts. -/
  programs : List (String × Program)
  deriving Inhabited

namespace Implementation

/-- The program of a method. -/
def program? (implementation : Implementation) (method : String) : Option Program :=
  implementation.programs.lookup method

/-- Build an implementation from the programs in the order in which they were provided. A program
for a method that is not declared is refused first; then every declared method needs one. Of several
programs for one method the last one provided counts. -/
def build (interface : Interface) (provided : List (String × Program)) :
    Except RegistryError Implementation :=
  match provided.find? fun entry => !interface.declares entry.1 with
  | some (method, _) => .error (.undeclaredMethod interface.name method)
  | none =>
    match interface.methods.find? fun method => !(provided.map Prod.fst).contains method with
    | some method => .error (.missingMethod interface.name method)
    | none => .ok ⟨interface, provided.reverse⟩

end Implementation

/-- The implementations of one task queue. -/
structure Registry where
  /-- The task queue. -/
  taskQueue : String
  /-- The implementations, in the order of their registration. -/
  implementations : List Implementation
  deriving Inhabited

namespace Registry

/-- A registry without implementations. -/
def empty (taskQueue : String) : Registry :=
  ⟨taskQueue, []⟩

/-- The implementation of a workflow type. -/
def get? (registry : Registry) (workflowType : String) : Option Implementation :=
  registry.implementations.find? fun implementation => implementation.interface.name = workflowType

/-- Whether a workflow type has an implementation. -/
def has (registry : Registry) (workflowType : String) : Bool :=
  (registry.get? workflowType).isSome

/-- How many workflow types have an implementation. -/
def size (registry : Registry) : Nat :=
  registry.implementations.length

/-- Add an implementation, unless its workflow type is taken. -/
def register (registry : Registry) (implementation : Implementation) :
    Except RegistryError Registry :=
  let name := implementation.interface.name
  if registry.has name then .error (.duplicate name registry.taskQueue)
  else .ok { registry with implementations := registry.implementations ++ [implementation] }

/-- Add implementations up to the first whose workflow type is taken. -/
def registerAll (registry : Registry) : List Implementation → Option RegistryError × Registry
  | [] => (none, registry)
  | implementation :: implementations =>
    match registry.register implementation with
    | .ok registry => registerAll registry implementations
    | .error e => (some e, registry)

/-- The program behind a workflow type and a method. -/
def resolve (registry : Registry) (workflowType method : String) : Option Program :=
  registry.get? workflowType >>= fun implementation => implementation.program? method

/-- The registered workflow types in ascending order. -/
def names (registry : Registry) : List String :=
  (registry.implementations.map fun implementation => implementation.interface.name).mergeSort
    fun a b => a ≤ b

end Registry

end DurableWorkflow
