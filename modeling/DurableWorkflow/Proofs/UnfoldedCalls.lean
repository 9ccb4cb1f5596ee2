import DurableWorkflow.Proofs.Conduct
import DurableWorkflow.Proofs.HiddenVariables
import DurableWorkflow.Proofs.Lockstep
import DurableWorkflow.Proofs.Overlays

/-!
# Direct calls, unfolded

A direct call starts a child and waits for its result in one statement. It can be unfolded into two:
the child is started through a reference to the method, which yields a future, and the next
statement waits for that future. The future needs a variable, which is hidden from the rest of the
program.

A thread with unfolded calls does what the thread with the direct calls does, poll by poll: it
starts the same children in the same order, waits for the same futures and ends in the same way.
What is left of the two differs in statements that are unfolded and in hidden variables only, and so
do the threads that they spawn.

## Main definitions

* `Statement.Unfolds` — statements with some of their direct calls unfolded, at any depth.
* `Thread.Unfolds`, `Context.Unfolds` — what is left of threads, and contexts, that belong together.

## Main results

* `Thread.advance_start_await` — an unfolded call is a direct call, but for the hidden variable.
* `Thread.advance_unfolds` — statements do the same whether calls in them are unfolded or not.
* `Thread.workload_lockstep` — so do polls.
-/

namespace DurableWorkflow

namespace Statement

/-- Statements with some of the direct calls in them unfolded, wherever they stand. Only calls of
declared methods are unfolded, and the hidden variables are named nowhere but in unfolded calls. -/
inductive Unfolds (hidden : List String) : List Statement → List Statement → Prop where
  /-- No statements. -/
  | nil : Unfolds hidden [] []
  /-- An action stays as it is. -/
  | perform {action : Action} {binding : Binding} {rest rest' : List Statement} :
      action.names.Disjoint hidden → binding.names.Disjoint hidden → Unfolds hidden rest rest' →
      Unfolds hidden (.perform action binding :: rest) (.perform action binding :: rest')
  /-- A direct call is unfolded. -/
  | call {stub : Stub} {method : String} {args : Arguments} {type : PayloadType}
      {binding : Binding} {name : String} {rescue : Option String} {rest rest' : List Statement} :
      stub.interface.declares method = true → name ∈ hidden → binding.names.Disjoint hidden →
      Unfolds hidden rest rest' →
      Unfolds hidden (.perform (.call stub method args type) binding :: rest)
        (.perform (.start stub method args false) ⟨some name, rescue⟩
          :: .perform (.await name (some type)) binding :: rest')
  /-- Calls are unfolded in a thread to spawn. -/
  | spawn {steps steps' : List Statement} {store : Option String} {rest rest' : List Statement} :
      store.toList.Disjoint hidden → Unfolds hidden steps steps' → Unfolds hidden rest rest' →
      Unfolds hidden (.spawn steps store :: rest) (.spawn steps' store :: rest')
  /-- Calls are unfolded on both sides of a branch. -/
  | branch {condition : Condition} {yes yes' no no' rest rest' : List Statement} :
      condition.names.Disjoint hidden → Unfolds hidden yes yes' → Unfolds hidden no no' →
      Unfolds hidden rest rest' →
      Unfolds hidden (.branch condition yes no :: rest) (.branch condition yes' no' :: rest')
  /-- Calls are unfolded in a loop. -/
  | loop {times : Nat} {steps steps' rest rest' : List Statement} :
      Unfolds hidden steps steps' → Unfolds hidden rest rest' →
      Unfolds hidden (.loop times steps :: rest) (.loop times steps' :: rest')

variable {hidden : List String}

/-- Calls can be unfolded in lists of statements one after the other. -/
theorem Unfolds.append {a a' b b' : List Statement} (ha : Unfolds hidden a a')
    (hb : Unfolds hidden b b') : Unfolds hidden (a ++ b) (a' ++ b') := by
  induction ha with
  | nil => exact hb
  | perform haction hbinding _ ih => exact .perform haction hbinding ih
  | call hdeclares hname hbinding _ ih => exact .call hdeclares hname hbinding ih
  | spawn hstore hsteps _ _ ih => exact .spawn hstore hsteps ih
  | branch hcondition hyes hno _ _ _ ih => exact .branch hcondition hyes hno ih
  | loop hsteps _ _ ih => exact .loop hsteps ih

end Statement

/-! ### What belongs together -/

variable {hidden : List String}

/-- What is left of a thread, and the same with some of its direct calls unfolded. -/
structure Thread.Unfolds (hidden : List String) (thread thread' : Thread) : Prop where
  /-- Their ends mean the same. -/
  role : thread'.role = thread.role
  /-- They agree on the variables that are not hidden. -/
  bindings : thread.bindings = thread'.bindings.shown hidden
  /-- Hidden variables hold futures only. -/
  conceals : thread'.bindings.Conceals hidden
  /-- They wait for the same. -/
  waiting : thread'.waiting = thread.waiting
  /-- What they wait for goes to no hidden variable. -/
  names : ∀ wait binding, thread.waiting = some (wait, binding) →
    wait.names.Disjoint hidden ∧ binding.names.Disjoint hidden
  /-- They differ in unfolded calls. -/
  rest : Statement.Unfolds hidden thread.rest thread'.rest

/-- Contexts that differ in the spawned threads only, and there in unfolded calls. -/
def Context.Unfolds (hidden : List String) (ctx ctx' : Context) : Prop :=
  ∃ pairs : List (Thread × Thread), (∀ pair ∈ pairs, pair.1.Unfolds hidden pair.2)
    ∧ ctx.spawned = pairs.map Prod.fst ∧ ctx' = ctx.overlay (.spawning (pairs.map Prod.snd))

/-- Statements that stopped, and the same with some of the direct calls unfolded. -/
inductive Halt.Unfolds (hidden : List String) : Halt → Halt → Prop where
  /-- Both ended alike. -/
  | ended (vars vars' : Variables) (result : Except Failure (Option String)) :
      Halt.Unfolds hidden (.ended vars result) (.ended vars' result)
  /-- Both panicked. -/
  | panicked (message : String) : Halt.Unfolds hidden (.panicked message) (.panicked message)
  /-- Both wait for the same. -/
  | waiting {vars : Variables} {wait : Wait} {binding : Binding} {rest rest' : List Statement} :
      vars.Conceals hidden → wait.names.Disjoint hidden → binding.names.Disjoint hidden →
      Statement.Unfolds hidden rest rest' →
      Halt.Unfolds hidden (.waiting (vars.shown hidden) wait binding rest)
        (.waiting vars wait binding rest')

/-! ### Contexts -/

namespace Context.Unfolds

variable {ctx ctx' : Context}

/-- Contexts stay together when both change alike but for the spawned threads. -/
theorem of_spawned (h : ctx.Unfolds hidden ctx') {d : Context} (hd : d.spawned = ctx.spawned) :
    d.Unfolds hidden (d.overlay (.spawning ctx'.spawned)) := by
  obtain ⟨pairs, hpairs, hspawned, rfl⟩ := h
  exact ⟨pairs, hpairs, hd.trans hspawned, rfl⟩

/-- One context is the other with its own spawned threads. -/
theorem eq_overlay (h : ctx.Unfolds hidden ctx') :
    ctx' = ctx.overlay (.spawning ctx'.spawned) := by
  obtain ⟨pairs, -, -, rfl⟩ := h
  rfl

/-- Actions do the same in both contexts. -/
theorem perform (h : ctx.Unfolds hidden ctx') {action : Action}
    (hnames : action.names.Disjoint hidden) {vars : Variables} (hvars : vars.Conceals hidden)
    (waker : Waker) :
    (action.perform waker vars ctx').1 = (action.perform waker (vars.shown hidden) ctx).1
      ∧ (action.perform waker (vars.shown hidden) ctx).2.Unfolds hidden
        (action.perform waker vars ctx').2 := by
  have hperform := action.perform_spawning waker vars ctx ctx'.spawned
  rw [← h.eq_overlay] at hperform
  rw [Action.perform_shown hnames hvars, hperform]
  exact ⟨rfl, h.of_spawned (action.perform_acts waker vars ctx).spawned⟩

/-- Waits end the same in both contexts. -/
theorem attempt (h : ctx.Unfolds hidden ctx') (waker : Waker) (wait : Wait) :
    (wait.attempt waker ctx').1 = (wait.attempt waker ctx).1
      ∧ (wait.attempt waker ctx).2.Unfolds hidden (wait.attempt waker ctx').2 := by
  have hattempt := wait.attempt_overlay waker ctx (.spawning ctx'.spawned)
  rw [← h.eq_overlay] at hattempt
  rw [hattempt]
  exact ⟨rfl, h.of_spawned (Wait.attempt_acts waker ctx wait).spawned⟩

/-- Questions have the same answers in both contexts. -/
theorem holds? (h : ctx.Unfolds hidden ctx') {condition : Condition}
    (hnames : condition.names.Disjoint hidden) {vars : Variables} (hvars : vars.Conceals hidden) :
    condition.holds? vars ctx' = condition.holds? (vars.shown hidden) ctx := by
  rw [Condition.holds?_shown hnames hvars, h.eq_overlay]
  cases condition <;> rfl

/-- Threads are spawned together in both contexts. -/
theorem spawn (h : ctx.Unfolds hidden ctx') {vars : Variables} (hvars : vars.Conceals hidden)
    {steps steps' : List Statement} (hsteps : Statement.Unfolds hidden steps steps') :
    (ctx'.spawn vars steps').1 = (ctx.spawn (vars.shown hidden) steps).1
      ∧ (ctx.spawn (vars.shown hidden) steps).2.Unfolds hidden (ctx'.spawn vars steps').2 := by
  obtain ⟨pairs, hpairs, hspawned, rfl⟩ := h
  refine ⟨rfl, pairs ++ [(⟨.spawned ctx.futures.create.1, vars.shown hidden, none, steps⟩,
    ⟨.spawned ctx.futures.create.1, vars, none, steps'⟩)], List.forall_mem_append.mpr ⟨hpairs, ?_⟩,
    ?_, ?_⟩
  · exact List.forall_mem_singleton.mpr ⟨rfl, rfl, hvars, rfl, by rintro _ _ ⟨⟩, hsteps⟩
  · rw [List.map_append, ← hspawned]
    rfl
  · rw [List.map_append]
    rfl

/-- The end of a thread means the same in both contexts. -/
theorem conclude (h : ctx.Unfolds hidden ctx') (role : Role) (outcome : Outcome) :
    (Thread.conclude role outcome ctx).Unfolds hidden (Thread.conclude role outcome ctx') := by
  obtain ⟨futures, woken, mainResult, heq⟩ := ctx.conclude_eq role outcome
  have hspawned : (Thread.conclude role outcome ctx).spawned = ctx.spawned := by rw [heq]
  rw [h.eq_overlay, Context.conclude_overlay]
  exact h.of_spawned hspawned

end Context.Unfolds

/-- Calling a declared method through a reference to it is calling it directly. -/
theorem Context.invoke_method {stub : Stub} {method : String}
    (hdeclares : stub.interface.declares method = true) (ctx : Context) (args : Json) :
    ctx.invoke (stub.method method) args
      = (.ok (ctx.call stub method args).1, (ctx.call stub method args).2) := by
  simp only [invoke, Stub.method, hdeclares, if_true]

/-! ### Statements -/

/-- Setting the variable for an index. -/
theorem Variables.assignIndex_shown {vars : Variables} (hvars : vars.Conceals hidden)
    {which : Option (String × Nat)} (hnames : (which.map Prod.fst).toList.Disjoint hidden) :
    (vars.assignIndex which).Conceals hidden
      ∧ (vars.shown hidden).assignIndex which = (vars.assignIndex which).shown hidden := by
  cases which with
  | none => exact ⟨hvars, rfl⟩
  | some entry =>
      have hname : entry.1 ∉ hidden := List.singleton_disjoint.mp hnames
      exact ⟨hvars.assign hname _, (shown_assign hname vars _).symm⟩

/-- Going on after the end of an action, with hidden variables and without. -/
theorem Binding.settle_unfolds {binding : Binding} (hbinding : binding.names.Disjoint hidden)
    {vars : Variables} (hvars : vars.Conceals hidden) (reply : Reply) :
    (∃ vars', vars'.Conceals hidden
        ∧ binding.settle (vars.shown hidden) reply = .ok (vars'.shown hidden)
        ∧ binding.settle vars reply = .ok vars')
      ∨ ∃ halt halt', Halt.Unfolds hidden halt halt'
        ∧ binding.settle (vars.shown hidden) reply = .error halt
        ∧ binding.settle vars reply = .error halt' := by
  obtain ⟨store, rescue⟩ := binding
  obtain ⟨hstore, hrescue⟩ := List.disjoint_append_left.mp hbinding
  cases reply with
  | done => exact .inl ⟨vars, hvars, rfl, rfl⟩
  | value v =>
      cases store with
      | none => exact .inl ⟨vars, hvars, rfl, rfl⟩
      | some name =>
          have hname : name ∉ hidden := List.singleton_disjoint.mp hstore
          refine .inl ⟨vars.assign name v, hvars.assign hname v, ?_, rfl⟩
          exact congrArg Except.ok (Variables.shown_assign hname vars v).symm
  | failure f =>
      cases rescue with
      | none => exact .inr ⟨_, _, .ended _ _ (.error f), rfl, rfl⟩
      | some name =>
          have hname : name ∉ hidden := List.singleton_disjoint.mp hrescue
          refine .inl ⟨vars.assign name (.failure f), hvars.assign hname _, ?_, rfl⟩
          exact congrArg Except.ok (Variables.shown_assign hname vars _).symm
  | abort f => exact .inr ⟨_, _, .ended _ _ (.error f), rfl, rfl⟩
  | finish text => exact .inr ⟨_, _, .ended _ _ (.ok (some text)), rfl, rfl⟩
  | panic message => exact .inr ⟨_, _, .panicked message, rfl, rfl⟩

/-- **Going on after an action**, with hidden variables and unfolded calls and without. -/
theorem Progress.settle_unfolds {progress : Progress} (hnames : progress.names.Disjoint hidden)
    {binding : Binding} (hbinding : binding.names.Disjoint hidden) {vars : Variables}
    (hvars : vars.Conceals hidden) {rest rest' : List Statement}
    (hrest : Statement.Unfolds hidden rest rest') :
    (∃ vars', vars'.Conceals hidden
        ∧ progress.settle binding (vars.shown hidden) rest = .ok (vars'.shown hidden)
        ∧ progress.settle binding vars rest' = .ok vars')
      ∨ ∃ halt halt', Halt.Unfolds hidden halt halt'
        ∧ progress.settle binding (vars.shown hidden) rest = .error halt
        ∧ progress.settle binding vars rest' = .error halt' := by
  cases progress with
  | waiting wait => exact .inr ⟨_, _, .waiting hvars hnames hbinding hrest, rfl, rfl⟩
  | ready reply which =>
      obtain ⟨hvars', hassign⟩ := Variables.assignIndex_shown hvars hnames
      rw [settle, settle, hassign]
      exact Binding.settle_unfolds hbinding hvars' reply

namespace Thread

/-- **An unfolded call is a direct call**, made once the hidden variable holds the future. -/
theorem advance_start_await {stub : Stub} {method name : String}
    (hdeclares : stub.interface.declares method = true) (hname : name ∈ hidden)
    {vars : Variables} (hvars : vars.Conceals hidden) (waker : Waker) (ctx : Context)
    (args : Arguments) (type : PayloadType) (binding : Binding) (rescue : Option String)
    (rest : List Statement) :
    ∃ future, advance waker vars ctx (.perform (.start stub method args false) ⟨some name, rescue⟩
          :: .perform (.await name (some type)) binding :: rest)
      = advance waker (vars.assign name (.future future)) ctx
          (.perform (.call stub method args type) binding :: rest) := by
  rcases hcall : ctx.call stub method (vars.evaluate args) with ⟨future, ctx'⟩
  have hstart : (Action.start stub method args false).perform waker vars ctx
      = (.reply (.value (.future future)), ctx') := by
    simp only [Action.perform, Bool.false_eq_true, if_false, Context.invoke_method hdeclares, hcall]
  have hargs : (vars.assign name (.future future)).evaluate args = vars.evaluate args := by
    rw [← Variables.evaluate_shown (hvars.assign_future name future),
      Variables.shown_assign_of_mem hname, Variables.evaluate_shown hvars]
  have hfuture : (vars.assign name (.future future)).future? name = some future := by
    simp [Variables.future?, Variables.assign]
  refine ⟨future, ?_⟩
  rw [advance, hstart]
  simp only [Progress.reply, Progress.settle, Variables.assignIndex, Binding.settle]
  rw [advance, advance]
  simp only [Action.perform, hfuture, hargs, hcall]

/-- An action is done in the same way whether it was unfolded or not, from some variables on that
differ in a hidden one at most. -/
theorem advance_perform {action : Action} {binding : Binding} {rest steps' : List Statement}
    (h : Statement.Unfolds hidden (.perform action binding :: rest) steps') {vars : Variables}
    (hvars : vars.Conceals hidden) (waker : Waker) (ctx : Context) :
    action.names.Disjoint hidden ∧ binding.names.Disjoint hidden
      ∧ ∃ vars' rest', vars'.Conceals hidden ∧ vars'.shown hidden = vars.shown hidden
        ∧ Statement.Unfolds hidden rest rest'
        ∧ advance waker vars ctx steps'
          = advance waker vars' ctx (.perform action binding :: rest') := by
  cases h with
  | @perform _ _ _ rest' haction hbinding hrest =>
      exact ⟨haction, hbinding, vars, rest', hvars, rfl, hrest, rfl⟩
  | @call stub method args type _ name rescue _ rest' hdeclares hname hbinding hrest =>
      obtain ⟨future, hadvance⟩ := advance_start_await hdeclares hname hvars waker ctx args type
        binding rescue rest'
      exact ⟨List.disjoint_nil_left hidden, hbinding, vars.assign name (.future future), rest',
        hvars.assign_future name future, Variables.shown_assign_of_mem hname vars _, hrest,
        hadvance⟩

/-- After an action that was unfolded or not, both go on alike or stop alike. -/
theorem advance_perform_unfolds {action : Action} {binding : Binding}
    {rest steps' : List Statement}
    (h : Statement.Unfolds hidden (.perform action binding :: rest) steps') {vars : Variables}
    (hvars : vars.Conceals hidden) {ctx ctx' : Context} (hctx : ctx.Unfolds hidden ctx')
    {waker : Waker} {progress : Progress} {ctx₁ : Context}
    (hperform : action.perform waker (vars.shown hidden) ctx = (progress, ctx₁)) :
    ∃ ctx₁', ctx₁.Unfolds hidden ctx₁'
      ∧ ((∃ vars₁ rest', vars₁.Conceals hidden ∧ Statement.Unfolds hidden rest rest'
          ∧ progress.settle binding (vars.shown hidden) rest = .ok (vars₁.shown hidden)
          ∧ advance waker vars ctx' steps' = advance waker vars₁ ctx₁' rest')
        ∨ ∃ halt halt', Halt.Unfolds hidden halt halt'
          ∧ progress.settle binding (vars.shown hidden) rest = .error halt
          ∧ advance waker vars ctx' steps' = (halt', ctx₁')) := by
  obtain ⟨hnames, hbinding, vars', rest', hvars', hshown, hrest, hadvance⟩ :=
    advance_perform h hvars waker ctx'
  obtain ⟨hprogress, hctx₁⟩ := hctx.perform hnames hvars' waker
  rw [hshown, hperform] at hprogress hctx₁
  have hsubset := action.names_perform waker vars' ctx'
  rcases hperform' : action.perform waker vars' ctx' with ⟨progress', ctx₁'⟩
  rw [hperform'] at hprogress hctx₁ hsubset
  cases hprogress
  refine ⟨ctx₁', hctx₁, ?_⟩
  rw [hadvance, ← hshown]
  rcases Progress.settle_unfolds (List.disjoint_of_subset_left hsubset hnames) hbinding hvars' hrest
    with ⟨vars₁, hvars₁, hsettle, hsettle'⟩ | ⟨halt, halt', hhalt, hsettle, hsettle'⟩
  · refine .inl ⟨vars₁, rest', hvars₁, hrest, hsettle, ?_⟩
    rw [advance, hperform']
    simp only [hsettle']
  · refine .inr ⟨halt, halt', hhalt, hsettle, ?_⟩
    rw [advance, hperform']
    simp only [hsettle']

/-- **Statements do the same whether direct calls in them are unfolded or not**: they stop alike,
and the contexts that they leave differ in the spawned threads only. -/
theorem advance_unfolds {steps steps' : List Statement} (h : Statement.Unfolds hidden steps steps')
    {vars : Variables} (hvars : vars.Conceals hidden) {ctx ctx' : Context}
    (hctx : ctx.Unfolds hidden ctx') (waker : Waker) :
    Halt.Unfolds hidden (advance waker (vars.shown hidden) ctx steps).1
        (advance waker vars ctx' steps').1
      ∧ (advance waker (vars.shown hidden) ctx steps).2.Unfolds hidden
        (advance waker vars ctx' steps').2 := by
  generalize hshown : vars.shown hidden = shown
  induction shown, ctx, steps using advance.induct waker generalizing vars ctx' steps' with
  | case1 shown ctx =>
      cases h
      rw [advance, advance]
      exact ⟨.ended shown vars (.ok none), hctx⟩
  | case2 shown ctx action binding rest progress ctx₁ hperform shown₁ hsettle ih =>
      subst hshown
      obtain ⟨ctx₁', hctx₁, ⟨vars₁, rest', hvars₁, hrest, hok, hadvance⟩ | ⟨_, _, -, herror, -⟩⟩ :=
        advance_perform_unfolds h hvars hctx hperform
      · have hshown₁ : vars₁.shown hidden = shown₁ := Except.ok.inj (hok.symm.trans hsettle)
        simpa only [advance, hperform, hsettle, hadvance] using ih hrest hvars₁ hctx₁ hshown₁
      · cases herror.symm.trans hsettle
  | case3 shown ctx action binding rest progress ctx₁ hperform halt hsettle =>
      subst hshown
      obtain ⟨ctx₁', hctx₁, ⟨_, _, -, -, hok, -⟩ | ⟨halt, halt', hhalt, herror, hadvance⟩⟩ :=
        advance_perform_unfolds h hvars hctx hperform
      · cases hok.symm.trans hsettle
      · cases herror.symm.trans hsettle
        simp only [advance, hperform, hsettle, hadvance]
        exact ⟨hhalt, hctx₁⟩
  | case4 shown ctx steps rest future ctx₁ hspawn name ih =>
      subst hshown
      cases h with
      | spawn hstore hsteps hrest =>
          obtain ⟨hfuture, hctx₁⟩ := hctx.spawn hvars hsteps
          rw [hspawn] at hfuture hctx₁
          have hname : name ∉ hidden := List.singleton_disjoint.mp hstore
          have hih := ih hrest (hvars.assign hname (.future future)) hctx₁
            (Variables.shown_assign hname vars _)
          simpa only [advance, hspawn, hfuture] using hih
  | case5 shown ctx steps rest future ctx₁ hspawn ih =>
      subst hshown
      cases h with
      | spawn hstore hsteps hrest =>
          obtain ⟨-, hctx₁⟩ := hctx.spawn hvars hsteps
          rw [hspawn] at hctx₁
          simpa only [advance, hspawn] using ih hrest hvars hctx₁ rfl
  | case6 shown ctx condition yes no rest hholds ih =>
      subst hshown
      cases h with
      | branch hcondition hyes hno hrest =>
          have hih := ih (hyes.append hrest) hvars hctx rfl
          simpa only [advance, hholds, hctx.holds? hcondition hvars] using hih
  | case7 shown ctx condition yes no rest hholds ih =>
      subst hshown
      cases h with
      | branch hcondition hyes hno hrest =>
          have hih := ih (hno.append hrest) hvars hctx rfl
          simpa only [advance, hholds, hctx.holds? hcondition hvars] using hih
  | case8 shown ctx condition yes no rest hholds =>
      subst hshown
      cases h with
      | branch hcondition hyes hno hrest =>
          simp only [advance, hholds, hctx.holds? hcondition hvars]
          exact ⟨.ended _ _ (.error noSuchFuture), hctx⟩
  | case9 shown ctx steps rest ih =>
      cases h with
      | loop hsteps hrest => simpa only [advance] using ih hrest hvars hctx hshown
  | case10 shown ctx times steps rest ih =>
      cases h with
      | loop hsteps hrest =>
          simpa only [advance] using ih (hsteps.append (.loop hsteps hrest)) hvars hctx hshown

/-! ### Polls -/

/-- Going on with a thread is the same whether direct calls in it are unfolded or not. -/
theorem Unfolds.resume {thread thread' : Thread} (h : thread.Unfolds hidden thread')
    {ctx ctx' : Context} (hctx : ctx.Unfolds hidden ctx') (waker : Waker) :
    Halt.Unfolds hidden (thread.resume waker ctx).1 (thread'.resume waker ctx').1
      ∧ (thread.resume waker ctx).2.Unfolds hidden (thread'.resume waker ctx').2 := by
  rw [Thread.resume, Thread.resume, h.waiting, h.bindings]
  cases hwaiting : thread.waiting with
  | none => exact advance_unfolds h.rest h.conceals hctx waker
  | some waiting =>
      obtain ⟨wait, binding⟩ := waiting
      obtain ⟨hwait, hbinding⟩ := h.names wait binding hwaiting
      obtain ⟨hprogress, hctx₁⟩ := hctx.attempt waker wait
      have hnames := List.disjoint_of_subset_left (wait.names_attempt waker ctx) hwait
      rcases hattempt : wait.attempt waker ctx with ⟨progress, ctx₁⟩
      rcases hattempt' : wait.attempt waker ctx' with ⟨progress', ctx₁'⟩
      rw [hattempt, hattempt'] at hprogress hctx₁
      rw [hattempt] at hnames
      cases hprogress
      rcases Progress.settle_unfolds hnames hbinding h.conceals h.rest
        with ⟨vars, hvars, hsettle, hsettle'⟩ | ⟨halt, halt', hhalt, hsettle, hsettle'⟩
      · simp only [hattempt, hattempt', hsettle, hsettle']
        exact advance_unfolds h.rest hvars hctx₁ waker
      · simp only [hattempt, hattempt', hsettle, hsettle']
        exact ⟨hhalt, hctx₁⟩

/-- **Polls do the same whether direct calls are unfolded or not.** -/
theorem workload_lockstep (hidden : List String) :
    workload.Lockstep workload (fun pair => pair.1.Unfolds hidden pair.2)
      (Context.Unfolds hidden) where
  adopt := by
    rintro ctx _ ⟨pairs, hpairs, hspawned, rfl⟩
    refine ⟨pairs, _, _, Prod.ext hspawned rfl, Prod.ext rfl rfl, hpairs, [], ?_, rfl, rfl⟩
    exact List.forall_mem_nil _
  wakes := by
    rintro ctx _ ⟨pairs, hpairs, hspawned, rfl⟩
    exact ⟨ctx.woken, _, _, rfl, rfl, pairs, hpairs, hspawned, rfl⟩
  poll := by
    rintro ctx ctx' id ⟨thread, thread'⟩ hthread hctx
    obtain ⟨hhalt, hctx₁⟩ := hthread.resume hctx (.thread id)
    have hrole : thread'.role = thread.role := hthread.role
    simp only [workload, poll] at hhalt hctx₁ ⊢
    rcases hresume : thread.resume (.thread id) ctx with ⟨halt, ctx₁⟩
    rcases hresume' : thread'.resume (.thread id) ctx' with ⟨halt', ctx₁'⟩
    rw [hresume, hresume'] at hhalt hctx₁
    dsimp only at hhalt hctx₁
    cases hhalt with
    | ended vars vars' result =>
        simp only [hrole]
        exact ⟨.done, _, _, rfl, rfl, by rintro _ ⟨⟩, hctx₁.conclude _ _⟩
    | panicked message => exact ⟨.panicked message, _, _, rfl, rfl, by rintro _ ⟨⟩, hctx₁⟩
    | waiting hvars hwait hbinding hrest =>
        refine ⟨.pending (_, _), _, _, rfl, rfl, ?_, hctx₁⟩
        rintro _ ⟨⟩
        refine ⟨hrole, rfl, hvars, rfl, ?_, hrest⟩
        rintro _ _ ⟨⟩
        exact ⟨hwait, hbinding⟩

end Thread

end DurableWorkflow
