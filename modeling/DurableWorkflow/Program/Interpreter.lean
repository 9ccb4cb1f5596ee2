import DurableWorkflow.Context

/-!
# Running programs

One poll of a thread: first what it waits for is tried again, then statements are executed until
the thread has to wait, ends or panics. Executing a statement makes the weight of what is left
smaller, so a poll always comes to an end.

## Main definitions

* `Wait.attempt` — try again what a thread waits for.
* `Action.perform` — do what a statement says.
* `Thread.advance` — execute statements as far as possible.
* `Thread.poll` — one poll of a thread, as the scheduler sees it.
* `Program.mainThread` — the thread that a workflow starts with.
-/

namespace DurableWorkflow

/-- How an action ends. -/
inductive Reply where
  /-- It yields nothing. -/
  | done
  /-- It yields a value. -/
  | value (v : Value)
  /-- It fails, and the failure can be caught. -/
  | failure (f : Failure)
  /-- It fails, and the failure ends the thread. -/
  | abort (f : Failure)
  /-- It ends the thread with a text. -/
  | finish (text : String)
  /-- It panics. -/
  | panic (message : String)
  deriving DecidableEq, Inhabited

/-- Whether an action has ended. -/
inductive Progress where
  /-- It has, after storing the index of a future in a variable if one is given. -/
  | ready (reply : Reply) (which : Option (String × Nat))
  /-- It waits. -/
  | waiting (wait : Wait)
  deriving DecidableEq, Inhabited

/-- An action that has ended, without an index to store. -/
def Progress.reply (reply : Reply) : Progress :=
  .ready reply none

/-- The failure of a program that names a variable without a future. -/
def noSuchFuture : Failure :=
  .application "bad program: no such future"

/-- The reply of a future's outcome: the payload, or the document it denotes at a type. -/
def Context.replyOf (ctx : Context) (type : Option PayloadType) : Outcome → Reply
  | .error f => .failure f
  | .ok payload =>
    match type with
    | none => .value (.text payload)
    | some t =>
      match ctx.converter.decode t payload with
      | .ok document => .value (.text document.text)
      | .error e => .failure e.toFailure

/-! ### Waiting -/

namespace Wait

/-- Poll the futures that have no payload yet, in order, up to the first that failed. -/
def pollAll (waker : Waker) (ctx : Context) :
    List (FutureRef × Option String) →
      Except Failure (List (FutureRef × Option String)) × Context
  | [] => (.ok [], ctx)
  | (ref, some payload) :: refs =>
    match pollAll waker ctx refs with
    | (.ok polled, ctx) => (.ok ((ref, some payload) :: polled), ctx)
    | (.error f, ctx) => (.error f, ctx)
  | (ref, none) :: refs =>
    match ctx.pollFuture ref.id waker with
    | (some (.error f), ctx) => (.error f, ctx)
    | (outcome, ctx) =>
      let payload := match outcome with
        | some (.ok payload) => some payload
        | _ => none
      match pollAll waker ctx refs with
      | (.ok polled, ctx) => (.ok ((ref, payload) :: polled), ctx)
      | (.error f, ctx) => (.error f, ctx)

/-- Poll futures in order up to the first that has an outcome, and give that with its index. -/
def pollAny (waker : Waker) (ctx : Context) (index : Nat) :
    List FutureRef → Option (Nat × Outcome) × Context
  | [] => (none, ctx)
  | ref :: refs =>
    match ctx.pollFuture ref.id waker with
    | (some outcome, ctx) => (some (index, outcome), ctx)
    | (none, ctx) => pollAny waker ctx (index + 1) refs

/-- Try what a thread waits for. -/
def attempt (waker : Waker) (ctx : Context) : Wait → Progress × Context
  | .future ref type =>
    match ctx.pollFuture ref.id waker with
    | (some outcome, ctx) => (.reply (ctx.replyOf type outcome), ctx)
    | (none, ctx) => (.waiting (.future ref type), ctx)
  | .timer ref =>
    match ctx.pollFuture ref.id waker with
    | (some _, ctx) => (.reply .done, ctx)
    | (none, ctx) => (.waiting (.timer ref), ctx)
  | .all futures =>
    match pollAll waker ctx futures with
    | (.error f, ctx) => (.reply (.failure f), ctx)
    | (.ok polled, ctx) =>
      if polled.all fun entry => entry.2.isSome then
        (.reply (.value (.text ("|".intercalate (polled.filterMap Prod.snd)))), ctx)
      else (.waiting (.all polled), ctx)
  | .any futures which =>
    match pollAny waker ctx 0 futures with
    | (some (index, outcome), ctx) =>
      (.ready (ctx.replyOf none outcome) (which.map fun name => (name, index)), ctx)
    | (none, ctx) => (.waiting (.any futures which), ctx)
  | .turn => (.reply .done, ctx)
  | .never => (.waiting .never, ctx)

end Wait

/-! ### Actions -/

/-- The text that a panic carries, if it carries one. -/
def PanicPayload.message (vars : Variables) : PanicPayload → String
  | .text template => vars.expand template
  | .fixed message => message
  | .other => "non-string panic payload"

/-- Do what an action says, up to its first wait. -/
def Action.perform (waker : Waker) (vars : Variables) (ctx : Context) :
    Action → Progress × Context
  | .start stub method args plain =>
    let ref := if plain then MethodRef.plain method else stub.method method
    match ctx.invoke ref (vars.evaluate args) with
    | (.ok future, ctx) => (.reply (.value (.future future)), ctx)
    | (.error f, ctx) => (.reply (.failure f), ctx)
  | .call stub method args type =>
    let (future, ctx) := ctx.call stub method (vars.evaluate args)
    (Wait.future future (some type)).attempt waker ctx
  | .callStart stub method args =>
    let (future, ctx) := ctx.call stub method (vars.evaluate args)
    (.reply (.value (.future future)), ctx)
  | .await name type =>
    match vars.future? name with
    | some future => (Wait.future future type).attempt waker ctx
    | none => (.reply (.abort noSuchFuture), ctx)
  | .all names =>
    match names.mapM vars.future? with
    | some futures => (Wait.all (futures.map fun f => (f, none))).attempt waker ctx
    | none => (.reply (.abort noSuchFuture), ctx)
  | .any names which =>
    match names.mapM vars.future? with
    | some futures => (Wait.any futures which).attempt waker ctx
    | none => (.reply (.abort noSuchFuture), ctx)
  | .timer delay =>
    let (future, ctx) := ctx.startTimer delay
    (.reply (.value (.future future)), ctx)
  | .sleep delay =>
    let (future, ctx) := ctx.startTimer delay
    (Wait.timer future).attempt waker ctx
  | .abandon name =>
    match vars.future? name with
    | some future => (.reply .done, ctx.abandon future)
    | none => (.reply (.abort noSuchFuture), ctx)
  | .inspect name =>
    match vars.future? name with
    | some future => (.reply .done, ctx.note (.future (ctx.view future)))
    | none => (.reply (.abort noSuchFuture), ctx)
  | .observe =>
    (.reply .done, ctx.note (.execution ctx.info ctx.replaying ctx.cancelReason))
  | .trace text => (.reply .done, ctx.note (.text (vars.expand text)))
  | .log level text =>
    if ctx.replaying then (.reply .done, ctx)
    else (.reply .done, ctx.note (.log level ctx.info.workflowId (vars.expand text)))
  | .encode args =>
    match ctx.converter.encode (vars.evaluate args) with
    | .ok payload => (.reply (.value (.text payload)), ctx)
    | .error e => (.reply (.failure e.toFailure), ctx)
  | .decode payload type =>
    match ctx.converter.decode type (vars.expand payload) with
    | .ok document => (.reply (.value (.text document.text)), ctx)
    | .error e => (.reply (.failure e.toFailure), ctx)
  | .set text => (.reply (.value (.text (vars.expand text))), ctx)
  | .pause => (.waiting .turn, ctx.wake waker)
  | .forever => (.waiting .never, ctx)
  | .panic payload => (.reply (.panic (payload.message vars)), ctx)
  | .fail f => (.reply (.failure f), ctx)
  | .failWith message => (.reply (.failure (.application (vars.expand message))), ctx)
  | .rethrow name =>
    match vars.failure? name with
    | some f => (.reply (.failure f), ctx)
    | none => (.reply .done, ctx)
  | .finish value => (.reply (.finish (vars.expand value)), ctx)

/-- The answer to a question, unless it names a variable without a future. -/
def Condition.holds? (vars : Variables) (ctx : Context) : Condition → Option Bool
  | .cancelRequested => some ctx.cancelReason.isSome
  | .replaying => some ctx.replaying
  | .ready name => (vars.future? name).map fun future => ctx.futures.isResolved future.id
  | .failed name => some (vars.failure? name).isSome
  | .equal a b => some (vars.expand a == vars.expand b)

/-! ### Threads -/

/-- How far statements could be executed. -/
inductive Halt where
  /-- To an end: a failure, a text, or the last statement. -/
  | ended (bindings : Variables) (result : Except Failure (Option String))
  /-- To a panic. -/
  | panicked (message : String)
  /-- To a wait, with what is left. -/
  | waiting (bindings : Variables) (wait : Wait) (binding : Binding) (rest : List Statement)
  deriving Inhabited

/-- What the end of an action means for its thread: new variables to go on with, or the end. -/
def Binding.settle (binding : Binding) (vars : Variables) : Reply → Except Halt Variables
  | .done => .ok vars
  | .value v =>
    match binding.store with
    | some name => .ok (vars.assign name v)
    | none => .ok vars
  | .failure f =>
    match binding.rescue with
    | some name => .ok (vars.assign name (.failure f))
    | none => .error (.ended vars (.error f))
  | .abort f => .error (.ended vars (.error f))
  | .finish text => .error (.ended vars (.ok (some text)))
  | .panic message => .error (.panicked message)

/-- Store the index of a future, if one is given. -/
def Variables.assignIndex (vars : Variables) : Option (String × Nat) → Variables
  | some (name, index) => vars.assign name (.text (toString index))
  | none => vars

/-- Go on after an action, or stop where it does. -/
def Progress.settle (progress : Progress) (binding : Binding) (vars : Variables)
    (rest : List Statement) : Except Halt Variables :=
  match progress with
  | .ready reply which => binding.settle (vars.assignIndex which) reply
  | .waiting wait => .error (.waiting vars wait binding rest)

namespace Thread

/-- Execute statements as far as possible. -/
def advance (waker : Waker) (vars : Variables) (ctx : Context) :
    List Statement → Halt × Context
  | [] => (.ended vars (.ok none), ctx)
  | .perform action binding :: rest =>
    match action.perform waker vars ctx with
    | (progress, ctx) =>
      match progress.settle binding vars rest with
      | .ok vars => advance waker vars ctx rest
      | .error halt => (halt, ctx)
  | .spawn steps store :: rest =>
    match ctx.spawn vars steps with
    | (future, ctx) =>
      match store with
      | some name => advance waker (vars.assign name (.future future)) ctx rest
      | none => advance waker vars ctx rest
  | .branch condition yes no :: rest =>
    match condition.holds? vars ctx with
    | some true => advance waker vars ctx (yes ++ rest)
    | some false => advance waker vars ctx (no ++ rest)
    | none => (.ended vars (.error noSuchFuture), ctx)
  | .loop 0 _ :: rest => advance waker vars ctx rest
  | .loop (times + 1) steps :: rest =>
    advance waker vars ctx (steps ++ .loop times steps :: rest)
termination_by rest => Statement.listWeight rest
decreasing_by
  all_goals
    simp only [Statement.listWeight, Statement.listWeight_append, Statement.weight]
    try rw [Nat.succ_mul]
    omega

/-- Go on with a thread from where it stopped. -/
def resume (waker : Waker) (ctx : Context) (thread : Thread) : Halt × Context :=
  match thread.waiting with
  | none => advance waker thread.bindings ctx thread.rest
  | some (wait, binding) =>
    match wait.attempt waker ctx with
    | (progress, ctx) =>
      match progress.settle binding thread.bindings thread.rest with
      | .ok vars => advance waker vars ctx thread.rest
      | .error halt => (halt, ctx)

/-- What the end of a thread does to the context. The result of a typed workflow is encoded, as the
document that its text denotes. -/
def conclude (role : Role) (outcome : Outcome) (ctx : Context) : Context :=
  match role with
  | .spawned future => ctx.resolve future outcome
  | .main false => { ctx with mainResult := some outcome }
  | .main true =>
    let outcome := match outcome with
      | .ok text => (ctx.converter.encode (Variables.documentOf text)).mapError
          ConversionError.toFailure
      | .error f => .error f
    { ctx with mainResult := some outcome }

/-- One poll of a thread. Running off the end of its statements counts as the text `null`. -/
def poll (id : ThreadId) (thread : Thread) (ctx : Context) : Poll Thread × Context :=
  match thread.resume (.thread id) ctx with
  | (.ended _ result, ctx) =>
    (.done, conclude thread.role (result.map fun text => text.getD "null") ctx)
  | (.panicked message, ctx) => (.panicked message, ctx)
  | (.waiting vars wait binding rest, ctx) =>
    (.pending ⟨thread.role, vars, some (wait, binding), rest⟩, ctx)

/-- Threads as the scheduler runs them. -/
def workload : Workload Context Thread where
  adopt ctx := (ctx.spawned, { ctx with spawned := [] })
  wakes ctx := (ctx.woken, { ctx with woken := [] })
  poll := poll

end Thread

/-- The thread that a workflow starts with. Typed input is decoded first and shown to the program
as a document; if it cannot be decoded the workflow fails before its first statement. -/
def Program.mainThread (program : Program) (converter : Converter) (input : String) : Thread :=
  match program.input with
  | none => ⟨.main false, [("input", .text input)], none, program.steps⟩
  | some t =>
    match converter.decode t input with
    | .ok document => ⟨.main true, [("input", .text document.text)], none, program.steps⟩
    | .error e => ⟨.main true, [], none, [.perform (.fail e.toFailure) ⟨none, none⟩]⟩

/-- How statements went that the host ran from outside any thread. -/
inductive HostRun where
  /-- They ended, with a text if they gave one. -/
  | done (value : Option String)
  /-- They had to wait, which the host does not. -/
  | pending
  /-- They failed. -/
  | failed (failure : Failure)
  /-- They panicked. -/
  | panicked (message : String)
  deriving DecidableEq, Inhabited

/-- Run statements from outside any thread, once: nobody is woken for what they wait for, and what
is left of them after a wait is dropped. The variables are kept in any case. -/
def Context.runHost (ctx : Context) (vars : Variables) (steps : List Statement) :
    HostRun × Variables × Context :=
  match Thread.advance .inert vars ctx steps with
  | (.ended vars (.ok value), ctx) => (.done value, vars, ctx)
  | (.ended vars (.error f), ctx) => (.failed f, vars, ctx)
  | (.waiting vars _ _ _, ctx) => (.pending, vars, ctx)
  | (.panicked message, ctx) => (.panicked message, vars, ctx)

end DurableWorkflow
