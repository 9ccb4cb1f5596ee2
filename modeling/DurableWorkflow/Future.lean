import DurableWorkflow.Failure

/-!
# Futures

The results that a workflow waits for: of children, of timers and of its own threads. Each future
has a slot that is resolved at most once. Whoever polls an unresolved slot leaves a waker there,
once, and resolving the slot hands back the wakers in the order in which they came.

## Main definitions

* `Outcome` — a result or a failure.
* `FutureTable` — the slots, generic in the wakers.
* `FutureTable.create`, `FutureTable.poll`, `FutureTable.resolve` — the operations.
* `FutureRef` — a future as workflow code holds it.
-/

namespace DurableWorkflow

/-- What a workflow, a child, a timer or a thread ends with. -/
abbrev Outcome : Type :=
  Except Failure String

/-- Outcomes are equal when they are of one kind and carry equal contents. -/
instance : DecidableEq Outcome := fun a b =>
  match a, b with
  | .ok x, .ok y => if h : x = y then isTrue (by rw [h]) else isFalse fun e => h (Except.ok.inj e)
  | .error x, .error y =>
    if h : x = y then isTrue (by rw [h]) else isFalse fun e => h (Except.error.inj e)
  | .ok _, .error _ => isFalse nofun
  | .error _, .ok _ => isFalse nofun

/-- The number of a future within its table. -/
abbrev FutureId : Type :=
  Nat

/-- What a future stands for. -/
inductive FutureKind where
  /-- The result of the child with a sequence number. -/
  | child (seq : Nat)
  /-- The firing of the timer with a sequence number. -/
  | timer (seq : Nat)
  /-- The result of a thread. -/
  | thread
  /-- A result known from the start. -/
  | immediate
  deriving DecidableEq, Inhabited

/-- A kind in inspected form. -/
def FutureKind.inspect : FutureKind → String
  | .child seq => Text.record "Child" [("seq", toString seq)]
  | .timer seq => Text.record "Timer" [("seq", toString seq)]
  | .thread => "Thread"
  | .immediate => "Immediate"

/-- A future as workflow code holds it. -/
structure FutureRef where
  /-- Its number. -/
  id : FutureId
  /-- What it stands for. -/
  kind : FutureKind
  deriving DecidableEq, Inhabited

/-- A future in inspected form. -/
def FutureRef.inspect (future : FutureRef) : String :=
  Text.record "AsyncFuture" [("id", toString future.id), ("kind", future.kind.inspect)]

/-- The slot of one future. -/
structure FutureSlot (ω : Type) where
  /-- The outcome, once there is one. -/
  result : Option Outcome
  /-- Whom to wake when there is one, in the order of their first poll. -/
  continuations : List ω
  deriving Inhabited

/-- The slots of all futures of one execution. The future with number `n` has the `n`-th slot,
counted from one. -/
structure FutureTable (ω : Type) where
  /-- The slots, oldest first. -/
  slots : List (FutureSlot ω)
  deriving Inhabited

namespace FutureTable

variable {ω : Type}

/-- A table without futures. -/
def empty : FutureTable ω :=
  ⟨[]⟩

/-- The slot of a future. -/
def slot? (table : FutureTable ω) (id : FutureId) : Option (FutureSlot ω) :=
  if id = 0 then none else table.slots[id - 1]?

/-- Put another slot in the place of a future's. -/
def setSlot (table : FutureTable ω) (id : FutureId) (slot : FutureSlot ω) : FutureTable ω :=
  ⟨table.slots.set (id - 1) slot⟩

/-- A new future, unresolved and with nobody waiting. -/
def create (table : FutureTable ω) : FutureId × FutureTable ω :=
  (table.slots.length + 1, ⟨table.slots ++ [⟨none, []⟩]⟩)

/-- The outcome of a future, if it has one. -/
def outcome? (table : FutureTable ω) (id : FutureId) : Option Outcome :=
  table.slot? id >>= FutureSlot.result

/-- Whether a future has an outcome. -/
def isResolved (table : FutureTable ω) (id : FutureId) : Bool :=
  (table.outcome? id).isSome

/-- Give a future its outcome. The first time this hands back the wakers to wake, in order; a
future that has an outcome already, or does not exist, is left alone. -/
def resolve (table : FutureTable ω) (id : FutureId) (outcome : Outcome) :
    Option (List ω) × FutureTable ω :=
  match table.slot? id with
  | none => (none, table)
  | some slot =>
    match slot.result with
    | some _ => (none, table)
    | none => (some slot.continuations, table.setSlot id ⟨some outcome, []⟩)

/-- Ask for the outcome of a future. Without one the waker is left behind, unless it waits there
already. A future that does not exist counts as failed. -/
def poll [DecidableEq ω] (table : FutureTable ω) (id : FutureId) (waker : ω) :
    Option Outcome × FutureTable ω :=
  match table.slot? id with
  | none => (some (.error (.application ("unknown future " ++ toString id))), table)
  | some slot =>
    match slot.result with
    | some outcome => (some outcome, table)
    | none =>
      if waker ∈ slot.continuations then (none, table)
      else (none, table.setSlot id ⟨none, slot.continuations ++ [waker]⟩)

end FutureTable

end DurableWorkflow
