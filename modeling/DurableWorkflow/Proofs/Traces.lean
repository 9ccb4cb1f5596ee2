import DurableWorkflow.Proofs.Conduct
import DurableWorkflow.Proofs.Turns

/-!
# The operations of a turn

What a thread does to its context in one turn, as a list of operations: computed beside the
interpreter, with one clause for each of its clauses. Performing the operations gives the context in
which the turn ends, so whatever is to be known of a turn can be read off the list: which futures it
yields, which it looks at and what it sees there, and which children it abandons.

A thread uses futures only that it holds or that were yielded to it before.

## Main definitions

* `Op`, `Op.run` — one operation, and what it does.
* `Op.yields`, `Op.sights` — the futures that operations yield, and what they see of futures.
* `Op.Informed` — operations use known futures only.
* `Wait.ops`, `Action.ops`, `Thread.ops`, `Turn.ops` — the operations of each part of a turn.
* `Traces` — operations lead to a context, and to futures that are held there.

## Main results

* `Action.perform_traces`, `Thread.advance_traces` — the operations are what is performed.
* `Thread.poll_traces` — how a turn ends after its operations.
-/

namespace DurableWorkflow

/-! ### Futures that are held -/

/-- The futures in a value. -/
def Value.refs : Value → List FutureRef
  | .future ref => [ref]
  | .text _ | .failure _ => []

/-- The futures in variables. -/
def Variables.refs (vars : Variables) : List FutureRef :=
  vars.flatMap fun entry => entry.2.refs

/-- The futures of a wait. -/
def Wait.refs : Wait → List FutureRef
  | .future ref _ | .timer ref => [ref]
  | .all futures => futures.map Prod.fst
  | .any futures _ => futures
  | .turn | .never => []

/-- The futures that the end of an action yields, or that it waits for. -/
def Progress.refs : Progress → List FutureRef
  | .ready (.value v) _ => v.refs
  | .ready _ _ => []
  | .waiting wait => wait.refs

/-- The futures in what is left of a thread that waits. -/
def Halt.refs : Halt → List FutureRef
  | .waiting vars wait _ _ => vars.refs ++ wait.refs
  | .ended _ _ | .panicked _ => []

/-- The futures that a thread holds. -/
def Thread.refs (thread : Thread) : List FutureRef :=
  thread.bindings.refs ++ match thread.waiting with
    | some (wait, _) => wait.refs
    | none => []

namespace Variables

variable {vars : Variables} {name : String} {ref : FutureRef}

/-- A future found under a name is held. -/
theorem mem_refs_of_future? (h : vars.future? name = some ref) : ref ∈ vars.refs := by
  rw [future?] at h
  split at h
  · rename_i held hlookup
    cases h
    obtain ⟨before, after, rfl, -⟩ := List.lookup_eq_some_iff.mp hlookup
    exact List.mem_flatMap.mpr ⟨_, List.mem_append_right _ List.mem_cons_self,
      List.mem_singleton_self _⟩
  · cases h

/-- So are futures found under several names. -/
theorem subset_refs_of_mapM {names : List String} {refs : List FutureRef}
    (h : names.mapM vars.future? = some refs) : refs ⊆ vars.refs := by
  induction names generalizing refs with
  | nil =>
      cases h
      exact List.nil_subset _
  | cons name names ih =>
      simp only [List.mapM_cons, Option.bind_eq_bind, Option.bind_eq_some_iff, Option.pure_def,
        Option.some.injEq] at h
      obtain ⟨ref, href, rest, hrest, rfl⟩ := h
      exact List.cons_subset.mpr ⟨mem_refs_of_future? href, ih hrest⟩

/-- A variable that is assigned adds the futures of its value at most. -/
theorem refs_assign (vars : Variables) (name : String) (value : Value) :
    (vars.assign name value).refs ⊆ vars.refs ++ value.refs := by
  intro ref href
  obtain ⟨entry, hentry, hvalue⟩ := List.mem_flatMap.mp href
  rcases List.mem_cons.mp hentry with rfl | hold
  · exact List.mem_append_right _ hvalue
  · exact List.mem_append_left _ (List.mem_flatMap.mpr ⟨entry, (List.mem_filter.mp hold).1, hvalue⟩)

/-- An index is no future. -/
theorem refs_assignIndex (vars : Variables) (which : Option (String × Nat)) :
    (vars.assignIndex which).refs ⊆ vars.refs := by
  rcases which with _ | ⟨name, index⟩
  · exact List.Subset.refl _
  · have hassign := vars.refs_assign name (.text (toString index))
    rwa [Value.refs, List.append_nil] at hassign

end Variables

/-- What the outcome of a future yields is no future. -/
theorem Context.refs_replyOf (ctx : Context) (type : Option PayloadType) (outcome : Outcome)
    (which : Option (String × Nat)) :
    (Progress.ready (ctx.replyOf type outcome) which).refs = [] := by
  rcases outcome with failure | payload
  · rfl
  · rcases type with _ | type
    · rfl
    · simp only [replyOf]
      split <;> rfl

/-- Going on after an action, a thread holds what it held and what the action yielded. -/
theorem Progress.refs_settle_ok {progress : Progress} {binding : Binding} {vars vars' : Variables}
    {rest : List Statement} (h : progress.settle binding vars rest = .ok vars') :
    vars'.refs ⊆ vars.refs ++ progress.refs := by
  rcases progress with ⟨reply, which⟩ | wait
  · have hindex := vars.refs_assignIndex which
    simp only [settle, Binding.settle] at h
    split at h
    · cases h
      exact List.subset_append_of_subset_left _ hindex
    · split at h <;> cases h
      · refine List.Subset.trans (Variables.refs_assign _ _ _) ?_
        exact List.append_subset.mpr ⟨List.subset_append_of_subset_left _ hindex,
          List.subset_append_right _ _⟩
      · exact List.subset_append_of_subset_left _ hindex
    · split at h <;> cases h
      refine List.Subset.trans (Variables.refs_assign _ _ _) ?_
      exact List.append_subset.mpr ⟨List.subset_append_of_subset_left _ hindex, List.nil_subset _⟩
    all_goals cases h
  · cases h

/-- Stopped by an action, a thread holds what it held and what it waits for. -/
theorem Progress.refs_settle_error {progress : Progress} {binding : Binding} {vars : Variables}
    {rest : List Statement} {halt : Halt} (h : progress.settle binding vars rest = .error halt) :
    halt.refs ⊆ vars.refs ++ progress.refs := by
  rcases progress with ⟨reply, which⟩ | wait
  · simp only [settle, Binding.settle] at h
    split at h
    · cases h
    · split at h <;> cases h
    · split at h <;> cases h
      exact List.nil_subset _
    all_goals
      cases h
      exact List.nil_subset _
  · cases h
    exact List.Subset.refl _

/-! ### Operations -/

/-- One operation of a thread on its context. -/
inductive Op where
  /-- Start a timer. -/
  | startTimer (delay : Duration)
  /-- Start a child. -/
  | startChild (stub : Stub) (method input : String)
  /-- Make a future that has failed. -/
  | failedFuture (failure : Failure)
  /-- Look at a future, and wait for it if it has no outcome. -/
  | poll (future : FutureRef) (waker : Waker)
  /-- Wake a thread. -/
  | wake (waker : Waker)
  /-- Detach the child behind a future. -/
  | abandon (future : FutureRef)
  /-- Leave a note. -/
  | note (remark : Note)
  /-- Spawn a thread. -/
  | spawn (bindings : Variables) (steps : List Statement)

namespace Op

/-- What an operation does. -/
def run (ctx : Context) : Op → Context
  | .startTimer delay => (ctx.startTimer delay).2
  | .startChild stub method input => (ctx.startChild stub method input).2
  | .failedFuture failure => (ctx.failedFuture failure).2
  | .poll future waker => (ctx.pollFuture future.id waker).2
  | .wake waker => ctx.wake waker
  | .abandon future => ctx.abandon future
  | .note remark => ctx.note remark
  | .spawn bindings steps => (ctx.spawn bindings steps).2

/-- The future that an operation yields. -/
def yielded? (ctx : Context) : Op → Option FutureRef
  | .startTimer delay => some (ctx.startTimer delay).1
  | .startChild stub method input => some (ctx.startChild stub method input).1
  | .failedFuture failure => some (ctx.failedFuture failure).1
  | .spawn bindings steps => some (ctx.spawn bindings steps).1
  | .poll _ _ | .wake _ | .abandon _ | .note _ => none

/-- What an operation sees of a future. -/
def seen? (ctx : Context) : Op → Option (FutureRef × Option Outcome)
  | .poll future waker => some (future, (ctx.pollFuture future.id waker).1)
  | _ => none

/-- The futures that an operation uses. -/
def uses : Op → List FutureRef
  | .poll future _ | .abandon future => [future]
  | .spawn bindings _ => bindings.refs
  | .startTimer _ | .startChild _ _ _ | .failedFuture _ | .wake _ | .note _ => []

/-- The child that an operation abandons. -/
def abandoned? : Op → Option Nat
  | .abandon ⟨_, .child seq⟩ => some seq
  | _ => none

/-- The futures that operations yield. -/
def yields (ctx : Context) : List Op → List FutureRef
  | [] => []
  | op :: ops => (op.yielded? ctx).toList ++ yields (op.run ctx) ops

/-- What operations see of futures. -/
def sights (ctx : Context) : List Op → List (FutureRef × Option Outcome)
  | [] => []
  | op :: ops => (op.seen? ctx).toList ++ sights (op.run ctx) ops

/-- Whether operations use futures only that are known, or were yielded before. -/
def Informed (known : List FutureRef) (ctx : Context) : List Op → Prop
  | [] => True
  | op :: ops => op.uses ⊆ known ∧ Informed (known ++ (op.yielded? ctx).toList) (op.run ctx) ops

variable {known : List FutureRef} {ctx : Context} {a b : List Op}

/-- An operation is a deed. -/
theorem deed (op : Op) (ctx : Context) : ctx.Deed (op.run ctx) := by
  cases op with
  | spawn bindings steps => exact .spawn ctx bindings steps
  | startTimer delay => exact .act (.startTimer ctx delay)
  | startChild stub method input => exact .act (.startChild ctx stub method input)
  | failedFuture failure => exact .act (.failedFuture ctx failure)
  | poll future waker => exact .act (.pollFuture ctx future.id waker)
  | wake waker => exact .act (.wake ctx waker)
  | abandon future => exact .act (.abandon ctx future)
  | note remark => exact .act (.note ctx remark)

/-- Later operations yield futures in the context that earlier ones leave. -/
theorem yields_append (ctx : Context) (a b : List Op) :
    yields ctx (a ++ b) = yields ctx a ++ yields (a.foldl run ctx) b := by
  induction a generalizing ctx with
  | nil => rfl
  | cons op ops ih => simp only [List.cons_append, yields, List.foldl_cons, ih, List.append_assoc]

/-- Later operations use what is known then. -/
theorem informed_append (ha : Informed known ctx a)
    (hb : Informed (known ++ yields ctx a) (a.foldl run ctx) b) : Informed known ctx (a ++ b) := by
  induction a generalizing known ctx with
  | nil => simpa [yields] using hb
  | cons op ops ih =>
      refine ⟨ha.1, ih ha.2 ?_⟩
      rw [yields, ← List.append_assoc] at hb
      exact hb

end Op

/-- Whether operations lead from a context to another, using known futures only, and some futures
are known afterwards. -/
structure Traces (known : List FutureRef) (ctx : Context) (ops : List Op) (ctx' : Context)
    (refs : List FutureRef) : Prop where
  /-- The operations lead to the other context. -/
  run : ops.foldl Op.run ctx = ctx'
  /-- They use known futures. -/
  informed : Op.Informed known ctx ops
  /-- The futures were known, or were yielded. -/
  refs : refs ⊆ known ++ Op.yields ctx ops

namespace Traces

variable {known refs refs' : List FutureRef} {ctx ctx' ctx'' : Context} {a b : List Op}

/-- Nothing is done. -/
theorem nil (h : refs ⊆ known) : Traces known ctx [] ctx refs :=
  ⟨rfl, trivial, List.subset_append_of_subset_left _ h⟩

/-- One operation. -/
theorem single {op : Op} (huses : op.uses ⊆ known)
    (hrefs : refs ⊆ known ++ (op.yielded? ctx).toList) :
    Traces known ctx [op] (op.run ctx) refs := by
  refine ⟨rfl, ⟨huses, trivial⟩, ?_⟩
  rw [Op.yields, Op.yields, List.append_nil]
  exact hrefs

/-- One operation that uses nothing and yields a future. -/
theorem yielding {op : Op} {ref : FutureRef} (huses : op.uses = [])
    (hyields : op.yielded? ctx = some ref) : Traces known ctx [op] (op.run ctx) [ref] := by
  refine single ?_ ?_
  · rw [huses]
    exact List.nil_subset _
  · rw [hyields]
    exact List.subset_append_right _ _

/-- Operations one after the other. -/
theorem append (ha : Traces known ctx a ctx' refs)
    (hb : Traces (known ++ Op.yields ctx a) ctx' b ctx'' refs') :
    Traces known ctx (a ++ b) ctx'' refs' := by
  obtain ⟨rfl, hinformed, -⟩ := ha
  refine ⟨?_, Op.informed_append hinformed hb.informed, ?_⟩
  · rw [List.foldl_append]
    exact hb.run
  · rw [Op.yields_append, ← List.append_assoc]
    exact hb.refs

/-- Fewer futures may be of interest. -/
theorem of_subset (h : Traces known ctx a ctx' refs)
    (hrefs : refs' ⊆ known ++ Op.yields ctx a) : Traces known ctx a ctx' refs' :=
  ⟨h.run, h.informed, hrefs⟩

end Traces

/-! ### Waits -/

namespace Wait

/-- The operations of polling for the payloads of several futures. -/
def opsAll (waker : Waker) (ctx : Context) : List (FutureRef × Option String) → List Op
  | [] => []
  | (_, some _) :: refs => opsAll waker ctx refs
  | (ref, none) :: refs =>
    .poll ref waker :: match ctx.pollFuture ref.id waker with
      | (some (.error _), _) => []
      | (_, ctx) => opsAll waker ctx refs

/-- The operations of polling for the first of several futures. -/
def opsAny (waker : Waker) (ctx : Context) : List FutureRef → List Op
  | [] => []
  | ref :: refs =>
    .poll ref waker :: match ctx.pollFuture ref.id waker with
      | (some _, _) => []
      | (none, ctx) => opsAny waker ctx refs

/-- The operations of trying a wait. -/
def ops (waker : Waker) (ctx : Context) : Wait → List Op
  | .future ref _ | .timer ref => [.poll ref waker]
  | .all futures => opsAll waker ctx futures
  | .any futures _ => opsAny waker ctx futures
  | .turn | .never => []

variable {known : List FutureRef}

/-- Polling for payloads keeps the futures that it is for. -/
theorem pollAll_traces (waker : Waker) (ctx : Context) {refs : List (FutureRef × Option String)}
    (h : refs.map Prod.fst ⊆ known) :
    Traces known ctx (opsAll waker ctx refs) (pollAll waker ctx refs).2 []
      ∧ ∀ polled, (pollAll waker ctx refs).1 = .ok polled →
        polled.map Prod.fst = refs.map Prod.fst := by
  induction refs generalizing known ctx with
  | nil => exact ⟨.nil (List.nil_subset _), fun polled hpolled => by cases hpolled; rfl⟩
  | cons entry refs ih =>
      obtain ⟨ref, _ | payload⟩ := entry <;> obtain ⟨href, hrefs⟩ := List.cons_subset.mp h
      · have hpoll : Traces known ctx [.poll ref waker] (ctx.pollFuture ref.id waker).2 [] :=
          .single (List.cons_subset.mpr ⟨href, List.nil_subset _⟩) (List.nil_subset _)
        have hrest := @ih (known ++ Op.yields ctx [.poll ref waker])
          (ctx.pollFuture ref.id waker).2 (List.subset_append_of_subset_left _ hrefs)
        simp only [opsAll, pollAll]
        rcases hfirst : ctx.pollFuture ref.id waker with ⟨_ | _ | _, ctx'⟩ <;>
          rw [hfirst] at hpoll hrest <;> dsimp only at hrest ⊢
        · rcases hall : pollAll waker ctx' refs with ⟨_ | polled, _⟩ <;> rw [hall] at hrest <;>
            refine ⟨hpoll.append hrest.1, ?_⟩ <;> rintro _ ⟨⟩
          exact congrArg (ref :: ·) (hrest.2 polled rfl)
        · exact ⟨hpoll, fun _ hpolled => by cases hpolled⟩
        · rcases hall : pollAll waker ctx' refs with ⟨_ | polled, _⟩ <;> rw [hall] at hrest <;>
            refine ⟨hpoll.append hrest.1, ?_⟩ <;> rintro _ ⟨⟩
          exact congrArg (ref :: ·) (hrest.2 polled rfl)
      · have hrest := ih ctx hrefs
        simp only [opsAll, pollAll]
        rcases hall : pollAll waker ctx refs with ⟨_ | polled, _⟩ <;> rw [hall] at hrest <;>
          refine ⟨hrest.1, ?_⟩ <;> rintro _ ⟨⟩
        exact congrArg (ref :: ·) (hrest.2 polled rfl)

/-- Polling for the first of several futures. -/
theorem pollAny_traces (waker : Waker) (ctx : Context) (index : Nat) {refs : List FutureRef}
    (h : refs ⊆ known) :
    Traces known ctx (opsAny waker ctx refs) (pollAny waker ctx index refs).2 [] := by
  induction refs generalizing known ctx index with
  | nil => exact .nil (List.nil_subset _)
  | cons ref refs ih =>
      obtain ⟨href, hrefs⟩ := List.cons_subset.mp h
      have hpoll : Traces known ctx [.poll ref waker] (ctx.pollFuture ref.id waker).2 [] :=
        .single (List.cons_subset.mpr ⟨href, List.nil_subset _⟩) (List.nil_subset _)
      simp only [opsAny, pollAny]
      rcases hfirst : ctx.pollFuture ref.id waker with ⟨_ | _, ctx'⟩ <;> rw [hfirst] at hpoll
      · exact hpoll.append (ih ctx' (index + 1) (List.subset_append_of_subset_left _ hrefs))
      · exact hpoll

/-- **Trying a wait is its operations**, and it goes on waiting for futures that it waited for. -/
theorem attempt_traces (waker : Waker) (ctx : Context) {wait : Wait} (h : wait.refs ⊆ known) :
    Traces known ctx (wait.ops waker ctx) (wait.attempt waker ctx).2
      (wait.attempt waker ctx).1.refs := by
  cases wait with
  | future ref type =>
      simp only [attempt, ops]
      have hpoll : Traces known ctx [.poll ref waker] (ctx.pollFuture ref.id waker).2 [] :=
        .single h (List.nil_subset _)
      rcases hfirst : ctx.pollFuture ref.id waker with ⟨_ | outcome, ctx'⟩ <;> rw [hfirst] at hpoll
      · exact hpoll.of_subset (List.subset_append_of_subset_left _ h)
      · refine hpoll.of_subset ?_
        have hnone := ctx'.refs_replyOf type outcome none
        exact hnone ▸ List.nil_subset _
  | timer ref =>
      simp only [attempt, ops]
      have hpoll : Traces known ctx [.poll ref waker] (ctx.pollFuture ref.id waker).2 [] :=
        .single h (List.nil_subset _)
      rcases hfirst : ctx.pollFuture ref.id waker with ⟨_ | outcome, ctx'⟩ <;> rw [hfirst] at hpoll
      · exact hpoll.of_subset (List.subset_append_of_subset_left _ h)
      · exact hpoll
  | all futures =>
      have hrefs : futures.map Prod.fst ⊆ known := h
      obtain ⟨hpoll, hsame⟩ := pollAll_traces waker ctx hrefs
      simp only [attempt, ops]
      rcases hall : pollAll waker ctx futures with ⟨_ | polled, ctx'⟩ <;> rw [hall] at hpoll hsame
      · exact hpoll
      · dsimp only
        split
        · exact hpoll
        · refine hpoll.of_subset ?_
          rw [Progress.refs, refs, hsame polled rfl]
          exact List.subset_append_of_subset_left _ h
  | any futures which =>
      have hrefs : futures ⊆ known := h
      have hpoll := pollAny_traces waker ctx 0 hrefs
      simp only [attempt, ops]
      rcases hany : pollAny waker ctx 0 futures with ⟨_ | ⟨index, outcome⟩, ctx'⟩ <;>
        rw [hany] at hpoll
      · exact hpoll.of_subset (List.subset_append_of_subset_left _ h)
      · refine hpoll.of_subset ?_
        rw [Context.refs_replyOf]
        exact List.nil_subset _
  | turn => exact .nil (List.nil_subset _)
  | never => exact .nil (List.nil_subset _)

end Wait

/-! ### Actions -/

namespace Context

/-- The operations of calling a method of a stub. -/
def callOps (ctx : Context) (stub : Stub) (method : String) (args : Json) : List Op :=
  if stub.interface.declares method then
    match ctx.converter.encode args with
    | .ok input => [.startChild stub method input]
    | .error e => [.failedFuture e.toFailure]
  else [.failedFuture (.unknownMethod stub.interface.name method)]

/-- The operations of starting the child behind a method reference. -/
def invokeOps (ctx : Context) (ref : MethodRef) (args : Json) : List Op :=
  match ref.eligibility, ref.stub with
  | .eligible, some stub => ctx.callOps stub ref.name args
  | .ineligible _, _ | .eligible, none => []

variable {known : List FutureRef}

/-- A call is its operations, and yields its future. -/
theorem call_traces (known : List FutureRef) (ctx : Context) (stub : Stub) (method : String)
    (args : Json) : Traces known ctx (ctx.callOps stub method args) (ctx.call stub method args).2
      [(ctx.call stub method args).1] := by
  rw [callOps, call]
  by_cases hdeclared : stub.interface.declares method = true
  · rw [if_pos hdeclared, if_pos hdeclared]
    rcases ctx.converter.encode args with e | input
    · exact .yielding rfl rfl
    · exact .yielding rfl rfl
  · rw [if_neg hdeclared, if_neg hdeclared]
    exact .yielding rfl rfl

/-- Starting the child behind a reference is its operations, and yields its future. -/
theorem invoke_traces (known : List FutureRef) (ctx : Context) (ref : MethodRef) (args : Json) :
    Traces known ctx (ctx.invokeOps ref args) (ctx.invoke ref args).2 []
      ∧ ∀ future, (ctx.invoke ref args).1 = .ok future →
        Traces known ctx (ctx.invokeOps ref args) (ctx.invoke ref args).2 [future] := by
  rw [invokeOps, invoke]
  rcases ref.eligibility with _ | reason
  · rcases ref.stub with _ | stub
    · exact ⟨.nil (List.nil_subset _), fun _ hfuture => by cases hfuture⟩
    · have hcall := ctx.call_traces known stub ref.name args
      refine ⟨hcall.of_subset (List.nil_subset _), ?_⟩
      rintro future ⟨⟩
      exact hcall
  · exact ⟨.nil (List.nil_subset _), fun _ hfuture => by cases hfuture⟩

end Context

namespace Action

/-- The operations of an action. -/
def ops (waker : Waker) (vars : Variables) (ctx : Context) : Action → List Op
  | .start stub method args plain =>
    ctx.invokeOps (if plain then MethodRef.plain method else stub.method method)
      (vars.evaluate args)
  | .call stub method args type =>
    match ctx.call stub method (vars.evaluate args) with
    | (future, ctx') => ctx.callOps stub method (vars.evaluate args)
        ++ (Wait.future future (some type)).ops waker ctx'
  | .callStart stub method args => ctx.callOps stub method (vars.evaluate args)
  | .await name type =>
    match vars.future? name with
    | some future => (Wait.future future type).ops waker ctx
    | none => []
  | .all names =>
    match names.mapM vars.future? with
    | some futures => (Wait.all (futures.map fun f => (f, none))).ops waker ctx
    | none => []
  | .any names which =>
    match names.mapM vars.future? with
    | some futures => (Wait.any futures which).ops waker ctx
    | none => []
  | .timer delay => [.startTimer delay]
  | .sleep delay =>
    match ctx.startTimer delay with
    | (future, ctx) => .startTimer delay :: (Wait.timer future).ops waker ctx
  | .abandon name =>
    match vars.future? name with
    | some future => [.abandon future]
    | none => []
  | .inspect name =>
    match vars.future? name with
    | some future => [.note (.future (ctx.view future))]
    | none => []
  | .observe => [.note (.execution ctx.info ctx.replaying ctx.cancelReason)]
  | .trace text => [.note (.text (vars.expand text))]
  | .log level text =>
    if ctx.replaying then [] else [.note (.log level ctx.info.workflowId (vars.expand text))]
  | .pause => [.wake waker]
  | .encode _ | .decode _ _ | .set _ | .forever | .panic _ | .fail _ | .failWith _ | .rethrow _
  | .finish _ => []

variable {known : List FutureRef} {vars : Variables}

/-- **An action is its operations**, and it yields, or waits for, known futures. -/
theorem perform_traces (waker : Waker) (ctx : Context) (action : Action)
    (h : vars.refs ⊆ known) :
    Traces known ctx (action.ops waker vars ctx) (action.perform waker vars ctx).2
      (action.perform waker vars ctx).1.refs := by
  cases action with
  | start stub method args plain =>
      obtain ⟨hfailed, hstarted⟩ := ctx.invoke_traces known
        (if plain then MethodRef.plain method else stub.method method) (vars.evaluate args)
      simp only [ops, perform]
      rcases hinvoke : ctx.invoke (if plain then MethodRef.plain method else stub.method method)
        (vars.evaluate args) with ⟨failure | future, ctx'⟩ <;> rw [hinvoke] at hfailed hstarted
      · exact hfailed
      · exact hstarted future rfl
  | call stub method args type =>
      have hcall := ctx.call_traces known stub method (vars.evaluate args)
      exact hcall.append (Wait.attempt_traces waker _ hcall.refs)
  | callStart stub method args => exact ctx.call_traces known stub method (vars.evaluate args)
  | await name type =>
      simp only [ops, perform]
      cases hfuture : vars.future? name with
      | none => exact .nil (List.nil_subset _)
      | some future =>
          exact Wait.attempt_traces waker ctx
            (List.cons_subset.mpr ⟨h (Variables.mem_refs_of_future? hfuture), List.nil_subset _⟩)
  | all names =>
      simp only [ops, perform]
      cases hfutures : names.mapM vars.future? with
      | none => exact .nil (List.nil_subset _)
      | some futures =>
          refine Wait.attempt_traces waker ctx ?_
          rw [Wait.refs, List.map_map]
          have hsubset := List.Subset.trans (Variables.subset_refs_of_mapM hfutures) h
          exact (List.map_id' futures).symm ▸ hsubset
  | any names which =>
      simp only [ops, perform]
      cases hfutures : names.mapM vars.future? with
      | none => exact .nil (List.nil_subset _)
      | some futures =>
          exact Wait.attempt_traces waker ctx
            (List.Subset.trans (Variables.subset_refs_of_mapM hfutures) h)
  | timer delay => exact .yielding rfl rfl
  | sleep delay =>
      have htimer : Traces known ctx [.startTimer delay] (ctx.startTimer delay).2
          [(ctx.startTimer delay).1] :=
        .yielding rfl rfl
      have hheld : (Wait.timer (ctx.startTimer delay).1).refs
          ⊆ known ++ Op.yields ctx [.startTimer delay] :=
        htimer.refs
      exact htimer.append (Wait.attempt_traces waker (ctx.startTimer delay).2 hheld)
  | abandon name =>
      simp only [ops, perform]
      cases hfuture : vars.future? name with
      | none => exact .nil (List.nil_subset _)
      | some future =>
          exact .single
            (List.cons_subset.mpr ⟨h (Variables.mem_refs_of_future? hfuture), List.nil_subset _⟩)
            (List.nil_subset _)
  | inspect name =>
      simp only [ops, perform]
      cases vars.future? name with
      | none => exact .nil (List.nil_subset _)
      | some future => exact .single (List.nil_subset _) (List.nil_subset _)
  | observe => exact .single (List.nil_subset _) (List.nil_subset _)
  | trace text => exact .single (List.nil_subset _) (List.nil_subset _)
  | log level text =>
      simp only [ops, perform]
      split
      · exact .nil (List.nil_subset _)
      · exact .single (List.nil_subset _) (List.nil_subset _)
  | encode args =>
      simp only [ops, perform]
      split <;> exact .nil (List.nil_subset _)
  | decode payload type =>
      simp only [ops, perform]
      split <;> exact .nil (List.nil_subset _)
  | pause => exact .single (List.nil_subset _) (List.nil_subset _)
  | rethrow name =>
      simp only [ops, perform]
      split <;> exact .nil (List.nil_subset _)
  | set | forever | panic | fail | failWith | finish => exact .nil (List.nil_subset _)

end Action

/-! ### Threads -/

namespace Thread

/-- The operations of executing statements. -/
def advanceOps (waker : Waker) (vars : Variables) (ctx : Context) : List Statement → List Op
  | [] => []
  | .perform action binding :: rest =>
    action.ops waker vars ctx ++
      match action.perform waker vars ctx with
      | (progress, ctx) =>
        match progress.settle binding vars rest with
        | .ok vars => advanceOps waker vars ctx rest
        | .error _ => []
  | .spawn steps store :: rest =>
    .spawn vars steps ::
      match ctx.spawn vars steps with
      | (future, ctx) =>
        match store with
        | some name => advanceOps waker (vars.assign name (.future future)) ctx rest
        | none => advanceOps waker vars ctx rest
  | .branch condition yes no :: rest =>
    match condition.holds? vars ctx with
    | some true => advanceOps waker vars ctx (yes ++ rest)
    | some false => advanceOps waker vars ctx (no ++ rest)
    | none => []
  | .loop 0 _ :: rest => advanceOps waker vars ctx rest
  | .loop (times + 1) steps :: rest =>
    advanceOps waker vars ctx (steps ++ .loop times steps :: rest)
termination_by rest => Statement.listWeight rest
decreasing_by
  all_goals
    simp only [Statement.listWeight, Statement.listWeight_append, Statement.weight]
    try rw [Nat.succ_mul]
    omega

/-- The operations of a thread that goes on. -/
def ops (waker : Waker) (ctx : Context) (thread : Thread) : List Op :=
  match thread.waiting with
  | none => advanceOps waker thread.bindings ctx thread.rest
  | some (wait, binding) =>
    wait.ops waker ctx ++
      match wait.attempt waker ctx with
      | (progress, ctx) =>
        match progress.settle binding thread.bindings thread.rest with
        | .ok vars => advanceOps waker vars ctx thread.rest
        | .error _ => []

/-- **Executing statements is their operations**, and a thread that waits afterwards holds known
futures. -/
theorem advance_traces (waker : Waker) {known : List FutureRef} {vars : Variables} (ctx : Context)
    (steps : List Statement) (h : vars.refs ⊆ known) :
    Traces known ctx (advanceOps waker vars ctx steps) (advance waker vars ctx steps).2
      (advance waker vars ctx steps).1.refs := by
  induction vars, ctx, steps using advance.induct waker generalizing known with
  | case1 vars ctx =>
      rw [advanceOps, advance]
      exact .nil (List.nil_subset _)
  | case2 vars ctx action binding rest progress ctx' hperform vars' hsettle ih =>
      have hfirst := action.perform_traces waker ctx h
      rw [hperform] at hfirst
      simp only [advanceOps, advance, hperform, hsettle]
      refine hfirst.append (ih ?_)
      refine List.Subset.trans (Progress.refs_settle_ok hsettle)
        (List.append_subset.mpr ⟨?_, hfirst.refs⟩)
      exact List.subset_append_of_subset_left _ h
  | case3 vars ctx action binding rest progress ctx' hperform halt hsettle =>
      have hfirst := action.perform_traces waker ctx h
      rw [hperform] at hfirst
      simp only [advanceOps, advance, hperform, hsettle, List.append_nil]
      refine hfirst.of_subset ?_
      refine List.Subset.trans (Progress.refs_settle_error hsettle)
        (List.append_subset.mpr ⟨?_, hfirst.refs⟩)
      exact List.subset_append_of_subset_left _ h
  | case4 vars ctx steps rest future ctx' hspawn name ih =>
      have hfirst : Traces known ctx [.spawn vars steps] (ctx.spawn vars steps).2
          [(ctx.spawn vars steps).1] :=
        .single h (List.subset_append_right _ _)
      rw [hspawn] at hfirst
      simp only [advanceOps, advance, hspawn]
      refine hfirst.append (ih ?_)
      refine List.Subset.trans (Variables.refs_assign _ _ _)
        (List.append_subset.mpr ⟨?_, hfirst.refs⟩)
      exact List.subset_append_of_subset_left _ h
  | case5 vars ctx steps rest future ctx' hspawn ih =>
      have hfirst : Traces known ctx [.spawn vars steps] (ctx.spawn vars steps).2 [] :=
        .single h (List.nil_subset _)
      rw [hspawn] at hfirst
      simp only [advanceOps, advance, hspawn]
      exact hfirst.append (ih (List.subset_append_of_subset_left _ h))
  | case6 vars ctx condition yes no rest hholds ih
  | case7 vars ctx condition yes no rest hholds ih =>
      simp only [advanceOps, advance, hholds]
      exact ih h
  | case8 vars ctx condition yes no rest hholds =>
      simp only [advanceOps, advance, hholds]
      exact .nil (List.nil_subset _)
  | case9 vars ctx steps rest ih
  | case10 vars ctx times steps rest ih =>
      simp only [advanceOps, advance]
      exact ih h

/-- Going on with a thread is its operations. -/
theorem resume_traces (waker : Waker) {known : List FutureRef} (ctx : Context) {thread : Thread}
    (h : thread.refs ⊆ known) :
    Traces known ctx (thread.ops waker ctx) (thread.resume waker ctx).2
      (thread.resume waker ctx).1.refs := by
  obtain ⟨role, vars, _ | ⟨wait, binding⟩, rest⟩ := thread <;>
    obtain ⟨hvars, hwait⟩ := List.append_subset.mp h
  · exact advance_traces waker ctx rest hvars
  · have hfirst := Wait.attempt_traces waker ctx hwait
    simp only [ops, resume]
    rcases hattempt : wait.attempt waker ctx with ⟨progress, ctx'⟩
    rw [hattempt] at hfirst
    dsimp only
    have hsubset : vars.refs ++ progress.refs ⊆ known ++ Op.yields ctx (wait.ops waker ctx) :=
      List.append_subset.mpr ⟨List.subset_append_of_subset_left _ hvars, hfirst.refs⟩
    cases hsettle : progress.settle binding vars rest with
    | ok vars' =>
        have hheld := Progress.refs_settle_ok hsettle
        exact hfirst.append (advance_traces waker ctx' rest (List.Subset.trans hheld hsubset))
    | error halt =>
        rw [List.append_nil]
        exact hfirst.of_subset (List.Subset.trans (Progress.refs_settle_error hsettle) hsubset)

/-- **How a turn ends after its operations**: the thread ends as its role says, panics, or waits and
holds known futures. -/
theorem poll_traces (id : ThreadId) {known : List FutureRef} (ctx : Context) {thread : Thread}
    (h : thread.refs ⊆ known) :
    Op.Informed known ctx (thread.ops (.thread id) ctx)
      ∧ ((∃ outcome, thread.poll id ctx = (.done,
          conclude thread.role outcome ((thread.ops (.thread id) ctx).foldl Op.run ctx)))
        ∨ (∃ message, thread.poll id ctx
          = (.panicked message, (thread.ops (.thread id) ctx).foldl Op.run ctx))
        ∨ ∃ body, thread.poll id ctx
            = (.pending body, (thread.ops (.thread id) ctx).foldl Op.run ctx)
          ∧ body.role = thread.role
          ∧ body.refs ⊆ known ++ Op.yields ctx (thread.ops (.thread id) ctx)) := by
  obtain ⟨hrun, hinformed, hrefs⟩ := resume_traces (.thread id) ctx h
  refine ⟨hinformed, ?_⟩
  rw [poll]
  rcases hresume : thread.resume (.thread id) ctx
    with ⟨⟨vars, result⟩ | message | ⟨vars, wait, binding, rest⟩, ctx'⟩ <;>
    rw [hresume] at hrun hrefs <;> rw [hrun]
  · exact .inl ⟨_, rfl⟩
  · exact .inr (.inl ⟨message, rfl⟩)
  · exact .inr (.inr ⟨_, rfl, rfl, hrefs⟩)

end Thread

/-- The operations of a turn. -/
def Turn.ops (turn : Turn Context Thread) : List Op :=
  turn.body.ops (.thread turn.thread) turn.state

/-- What a turn leaves behind: what its operations do and, if its thread ended, what that does. -/
theorem Turn.result_eq (turn : Turn Context Thread) :
    (turn.result Thread.workload).2 = turn.ops.foldl Op.run turn.state
      ∨ ∃ outcome, (turn.result Thread.workload).2
        = Thread.conclude turn.body.role outcome (turn.ops.foldl Op.run turn.state) := by
  obtain ⟨id, body, ctx⟩ := turn
  have hresult : Turn.result Thread.workload ⟨id, body, ctx⟩ = body.poll id ctx := rfl
  obtain ⟨-, ⟨outcome, hpoll⟩ | ⟨message, hpoll⟩ | ⟨after, hpoll, -⟩⟩ :=
    Thread.poll_traces id ctx (List.Subset.refl body.refs) <;> rw [hresult, hpoll]
  · exact .inr ⟨outcome, rfl⟩
  · exact .inl rfl
  · exact .inl rfl

/-- The futures that a turn yields. -/
def Turn.yields (turn : Turn Context Thread) : List FutureRef :=
  Op.yields turn.state turn.ops

/-- What a turn sees of futures. -/
def Turn.sights (turn : Turn Context Thread) : List (FutureRef × Option Outcome) :=
  Op.sights turn.state turn.ops

/-- The children that a turn abandons. -/
def Turn.abandons (turn : Turn Context Thread) : List Nat :=
  turn.ops.filterMap Op.abandoned?

end DurableWorkflow
