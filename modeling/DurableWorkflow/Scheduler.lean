/-!
# The scheduler

Cooperative threads, run one at a time and always in the same order. A thread that is polled and
does not finish is blocked and gets a stamp. Wakes are only collected; whenever the scheduler looks
for work it first takes in newly spawned threads and then moves the woken threads to the run queue,
in the order of their stamps. So threads resume in the order in which they blocked, whatever the
order in which their conditions came true.

The scheduler knows nothing of what a thread does: it polls threads of any type `τ` that act on a
state of any type `σ`, through a `Workload`.

## Main definitions

* `Scheduler` — the threads, the run queue and the stamps.
* `Scheduler.collect` — woken threads join the run queue.
* `Workload` — how threads are spawned, woken and polled.
* `Scheduler.run` — poll until no thread can run, within a number of polls.
-/

namespace DurableWorkflow

/-- The number of a thread; numbers count up in the order in which threads join. -/
abbrev ThreadId : Type :=
  Nat

/-- What a live thread is doing. -/
inductive ThreadState where
  /-- It waits in the run queue. -/
  | runnable
  /-- It was polled and did not finish; the stamp tells when. -/
  | blocked (since : Nat)
  deriving DecidableEq, Inhabited

/-- A live thread. -/
structure LiveThread (τ : Type) where
  /-- Its number. -/
  id : ThreadId
  /-- What it is doing. -/
  state : ThreadState
  /-- What is left of it. -/
  body : τ
  deriving Inhabited

/-- The threads of one execution. -/
structure Scheduler (τ : Type) where
  /-- The live threads, in the order of their numbers. -/
  threads : List (LiveThread τ)
  /-- The threads that ended, in the order in which they did. -/
  completed : List ThreadId
  /-- The threads that can run, next first. -/
  runQueue : List ThreadId
  /-- The number for the next thread. -/
  nextThread : ThreadId
  /-- The stamp for the next thread that blocks. -/
  blockClock : Nat
  deriving Inhabited

/-- The result of polling a thread once. -/
inductive Poll (τ : Type) where
  /-- The thread ended. -/
  | done
  /-- The thread waits for something. -/
  | pending (body : τ)
  /-- The thread panicked. -/
  | panicked (message : String)
  deriving Inhabited

/-- How threads act on a state. -/
structure Workload (σ τ : Type) where
  /-- Take the threads that were spawned and not adopted yet, in order. -/
  adopt : σ → List τ × σ
  /-- Take the wakes that were not collected yet. -/
  wakes : σ → List ThreadId × σ
  /-- Poll a thread. -/
  poll : ThreadId → τ → σ → Poll τ × σ

/-- How a scheduling pass ends. -/
inductive Pass where
  /-- No thread can run. -/
  | idle
  /-- A thread panicked. -/
  | panicked (thread : ThreadId) (message : String)
  /-- The polls allowed are used up. -/
  | exhausted
  deriving DecidableEq, Inhabited

namespace Scheduler

variable {σ τ : Type}

/-- A scheduler without threads. -/
def empty : Scheduler τ :=
  ⟨[], [], [], 0, 0⟩

/-- A live thread by its number. -/
def get? (s : Scheduler τ) (id : ThreadId) : Option (LiveThread τ) :=
  s.threads.find? fun thread => thread.id = id

/-- Add a thread at the end of the run queue. -/
def spawn (s : Scheduler τ) (body : τ) : Scheduler τ :=
  { s with
    threads := s.threads ++ [⟨s.nextThread, .runnable, body⟩]
    runQueue := s.runQueue ++ [s.nextThread]
    nextThread := s.nextThread + 1 }

/-- How many threads have not ended. -/
def liveThreads (s : Scheduler τ) : Nat :=
  s.threads.length

/-- The stamp of a thread that is blocked and has been woken. -/
def stampIn (wakes : List ThreadId) (thread : LiveThread τ) : Option (Nat × ThreadId) :=
  match thread.state with
  | .blocked since => if thread.id ∈ wakes then some (since, thread.id) else none
  | .runnable => none

/-- Put a stamped thread in its place among threads that are in the order of their stamps. -/
def insertStamped (entry : Nat × ThreadId) : List (Nat × ThreadId) → List (Nat × ThreadId)
  | [] => [entry]
  | other :: entries =>
    if entry.1 < other.1 then entry :: other :: entries else other :: insertStamped entry entries

/-- The woken blocked threads become runnable and join the run queue in the order of their stamps.
Wakes of threads that are runnable already, or have ended, do nothing. -/
def collect (s : Scheduler τ) (wakes : List ThreadId) : Scheduler τ :=
  let ready := (s.threads.filterMap (stampIn wakes)).foldr insertStamped []
  { s with
    threads := s.threads.map fun thread =>
      if (stampIn wakes thread).isSome then { thread with state := .runnable } else thread
    runQueue := s.runQueue ++ ready.map Prod.snd }

/-- A thread ended. -/
def finish (s : Scheduler τ) (id : ThreadId) : Scheduler τ :=
  { s with
    threads := s.threads.filter fun thread => thread.id ≠ id
    completed := s.completed ++ [id] }

/-- A thread blocked with the next stamp. -/
def block (s : Scheduler τ) (id : ThreadId) (body : τ) : Scheduler τ :=
  { s with
    threads := s.threads.map fun thread =>
      if thread.id = id then ⟨id, .blocked s.blockClock, body⟩ else thread
    blockClock := s.blockClock + 1 }

/-- Take in what happened since the last poll: new threads first, then woken ones. -/
def gather (w : Workload σ τ) (s : Scheduler τ) (state : σ) : Scheduler τ × σ :=
  let (spawned, state) := w.adopt state
  let s := spawned.foldl spawn s
  let (wakes, state) := w.wakes state
  (s.collect wakes, state)

/-- Poll threads one at a time until none can run or one panics, `polls` times at most. -/
def run (w : Workload σ τ) : Nat → Scheduler τ → σ → Pass × Scheduler τ × σ
  | 0, s, state => (.exhausted, s, state)
  | polls + 1, s, state =>
    match gather w s state with
    | (s, state) =>
      match s.runQueue with
      | [] => (.idle, s, state)
      | id :: queue =>
        let s := { s with runQueue := queue }
        match s.get? id with
        | none => run w polls s state
        | some thread =>
          match w.poll id thread.body state with
          | (.done, state) => run w polls (s.finish id) state
          | (.pending body, state) => run w polls (s.block id body) state
          | (.panicked message, state) => (.panicked id message, s.finish id, state)

end Scheduler

end DurableWorkflow
