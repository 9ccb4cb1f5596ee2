import DurableWorkflow.Proofs.Turns
import DurableWorkflow.Proofs.Wakeups

/-!
# What a turn polls in vain

The futures that a thread polls in vain in one turn, in order. Each of them will wake the thread, or
has woken it by the end of the turn; and the thread waits for none but these. The futures are those
of the wait that is tried again, and of the waits that the statements after it run into, whether the
thread is stopped by them or goes on.

## Main definitions

* `Wait.misses`, `Action.misses`, `Thread.misses` — the futures that are polled in vain.
* `Wait.awaited` — the futures that a wait is for.
* `Thread.Arranged` — what a turn polled in vain holds the waker of its thread, which waits for
  that.

## Main results

* `Thread.misses_minds` — what a turn polled in vain will wake its thread, or has woken it.
* `Thread.awaited_subset_misses` — a thread waits for futures only that it polled in vain.
* `Thread.woken_of_turn` — a thread that lets the others run has woken itself.
* `Thread.workload_attends` — what turns arranged stands until their threads are woken.
-/

namespace DurableWorkflow

/-! ### What is polled in vain -/

namespace Wait

/-- The future itself, if it is polled in vain. -/
def miss (waker : Waker) (ctx : Context) (future : FutureId) : List FutureId :=
  match ctx.pollFuture future waker with
  | (none, _) => [future]
  | (some _, _) => []

/-- The futures that are polled in vain for the payloads of several. -/
def missesAll (waker : Waker) (ctx : Context) : List (FutureRef × Option String) → List FutureId
  | [] => []
  | (_, some _) :: refs => missesAll waker ctx refs
  | (ref, none) :: refs =>
    match ctx.pollFuture ref.id waker with
    | (some (.error _), _) => []
    | (some (.ok _), ctx) => missesAll waker ctx refs
    | (none, ctx) => ref.id :: missesAll waker ctx refs

/-- The futures that are polled in vain for the first of several. -/
def missesAny (waker : Waker) (ctx : Context) : List FutureRef → List FutureId
  | [] => []
  | ref :: refs =>
    match ctx.pollFuture ref.id waker with
    | (some _, _) => []
    | (none, ctx) => ref.id :: missesAny waker ctx refs

/-- The futures that are polled in vain when a wait is tried. -/
def misses (waker : Waker) (ctx : Context) : Wait → List FutureId
  | .future ref _ | .timer ref => miss waker ctx ref.id
  | .all futures => missesAll waker ctx futures
  | .any futures _ => missesAny waker ctx futures
  | .turn | .never => []

/-- The futures that a wait is for. -/
def awaited : Wait → List FutureId
  | .future ref _ | .timer ref => [ref.id]
  | .all futures => (futures.filter fun entry => entry.2.isNone).map fun entry => entry.1.id
  | .any futures _ => futures.map FutureRef.id
  | .turn | .never => []

variable {id : ThreadId} {ctx : Context} {future : FutureId}

/-- What is polled in vain will wake the thread. -/
theorem miss_minds {polled : FutureId} (h : future ∈ miss (.thread id) ctx polled) :
    (ctx.pollFuture polled (.thread id)).2.Minds future id := by
  rw [miss] at h
  split at h
  · rename_i hpoll
    obtain rfl : future = polled := List.mem_singleton.mp h
    rw [hpoll]
    exact .inl (Context.awaits_of_pollFuture hpoll)
  · cases h

/-- The same for the payloads of several futures. -/
theorem missesAll_minds {refs : List (FutureRef × Option String)}
    (h : future ∈ missesAll (.thread id) ctx refs) :
    (pollAll (.thread id) ctx refs).2.Minds future id := by
  induction refs generalizing ctx with
  | nil => cases h
  | cons entry refs ih =>
      obtain ⟨ref, _ | payload⟩ := entry
      · simp only [missesAll] at h
        simp only [pollAll]
        rcases hpoll : ctx.pollFuture ref.id (.thread id) with ⟨_ | _ | _, ctx'⟩ <;>
          simp only [hpoll] at h <;> dsimp only
        · have hminds : (pollAll (.thread id) ctx' refs).2.Minds future id := by
            rcases List.mem_cons.mp h with rfl | h
            · exact (pollAll_asks (.thread id) ctx' refs).acts.deeds.heeds.minds
                (.inl (Context.awaits_of_pollFuture hpoll))
            · exact ih h
          rcases hrest : pollAll (.thread id) ctx' refs with ⟨_ | _, _⟩ <;> rw [hrest] at hminds <;>
            exact hminds
        · cases h
        · have hminds := ih h
          rcases hrest : pollAll (.thread id) ctx' refs with ⟨_ | _, _⟩ <;> rw [hrest] at hminds <;>
            exact hminds
      · simp only [missesAll] at h
        have hminds := ih h
        simp only [pollAll]
        rcases hrest : pollAll (.thread id) ctx refs with ⟨_ | _, _⟩ <;> rw [hrest] at hminds <;>
          exact hminds

/-- The same for the first of several futures. -/
theorem missesAny_minds {refs : List FutureRef} (index : Nat)
    (h : future ∈ missesAny (.thread id) ctx refs) :
    (pollAny (.thread id) ctx index refs).2.Minds future id := by
  induction refs generalizing ctx index with
  | nil => cases h
  | cons ref refs ih =>
      simp only [missesAny] at h
      simp only [pollAny]
      rcases hpoll : ctx.pollFuture ref.id (.thread id) with ⟨_ | _, ctx'⟩ <;>
        simp only [hpoll] at h
      · rcases List.mem_cons.mp h with rfl | h
        · exact (pollAny_asks (.thread id) ctx' (index + 1) refs).acts.deeds.heeds.minds
            (.inl (Context.awaits_of_pollFuture hpoll))
        · exact ih (index + 1) h
      · cases h

/-- **What is polled in vain when a wait is tried will wake the thread**, or has woken it. -/
theorem misses_minds {wait : Wait} (h : future ∈ wait.misses (.thread id) ctx) :
    (wait.attempt (.thread id) ctx).2.Minds future id := by
  cases wait with
  | future ref type =>
      have hminds := miss_minds h
      simp only [attempt]
      rcases hpoll : ctx.pollFuture ref.id (.thread id) with ⟨_ | _, _⟩ <;> rw [hpoll] at hminds <;>
        exact hminds
  | timer ref =>
      have hminds := miss_minds h
      simp only [attempt]
      rcases hpoll : ctx.pollFuture ref.id (.thread id) with ⟨_ | _, _⟩ <;> rw [hpoll] at hminds <;>
        exact hminds
  | all futures =>
      have hminds := missesAll_minds h
      simp only [attempt]
      rcases hpoll : pollAll (.thread id) ctx futures with ⟨_ | _, _⟩ <;> rw [hpoll] at hminds
      · exact hminds
      · dsimp only
        split <;> exact hminds
  | any futures which =>
      have hminds := missesAny_minds 0 h
      simp only [attempt]
      rcases hpoll : pollAny (.thread id) ctx 0 futures with ⟨_ | ⟨_, _⟩, _⟩ <;>
        rw [hpoll] at hminds <;> exact hminds
  | turn => cases h
  | never => cases h

/-- Payloads that are still missing were polled for in vain. -/
theorem awaitedAll_subset {waker : Waker} {ctx ctx' : Context}
    {refs polled : List (FutureRef × Option String)}
    (h : pollAll waker ctx refs = (.ok polled, ctx')) :
    (Wait.all polled).awaited ⊆ missesAll waker ctx refs := by
  induction refs generalizing ctx ctx' polled with
  | nil =>
      cases h
      exact List.Subset.refl _
  | cons entry refs ih =>
      obtain ⟨ref, _ | payload⟩ := entry
      · simp only [pollAll] at h
        simp only [missesAll]
        rcases hpoll : ctx.pollFuture ref.id waker with ⟨_ | _ | _, ctx₁⟩ <;>
          simp only [hpoll] at h ⊢
        · rcases hrest : pollAll waker ctx₁ refs with ⟨_ | rest, ctx₂⟩ <;> rw [hrest] at h <;>
            cases h
          exact List.cons_subset_cons _ (ih hrest)
        · cases h
        · rcases hrest : pollAll waker ctx₁ refs with ⟨_ | rest, ctx₂⟩ <;> rw [hrest] at h <;>
            cases h
          have hsubset := ih hrest
          exact hsubset
      · simp only [pollAll] at h
        simp only [missesAll]
        rcases hrest : pollAll waker ctx refs with ⟨_ | rest, ctx₂⟩ <;> rw [hrest] at h <;> cases h
        have hsubset := ih hrest
        exact hsubset

/-- All of several futures were polled for in vain if none has an outcome. -/
theorem awaitedAny_subset {waker : Waker} {ctx ctx' : Context} {refs : List FutureRef}
    {index : Nat} (h : pollAny waker ctx index refs = (none, ctx')) :
    refs.map FutureRef.id ⊆ missesAny waker ctx refs := by
  induction refs generalizing ctx index with
  | nil => exact List.Subset.refl _
  | cons ref refs ih =>
      simp only [pollAny] at h
      simp only [missesAny]
      rcases hpoll : ctx.pollFuture ref.id waker with ⟨_ | _, ctx₁⟩ <;> simp only [hpoll] at h ⊢
      · exact List.cons_subset_cons _ (ih h)
      · cases h

/-- **A wait goes on for futures only that were polled in vain.** -/
theorem awaited_subset_misses {waker : Waker} {ctx ctx' : Context} {wait wait' : Wait}
    (h : wait.attempt waker ctx = (.waiting wait', ctx')) :
    wait'.awaited ⊆ wait.misses waker ctx := by
  cases wait with
  | future ref type =>
      simp only [attempt] at h
      rcases hpoll : ctx.pollFuture ref.id waker with ⟨_ | _, _⟩ <;> rw [hpoll] at h <;> cases h
      simp [misses, miss, hpoll, awaited]
  | timer ref =>
      simp only [attempt] at h
      rcases hpoll : ctx.pollFuture ref.id waker with ⟨_ | _, _⟩ <;> rw [hpoll] at h <;> cases h
      simp [misses, miss, hpoll, awaited]
  | all futures =>
      simp only [attempt] at h
      rcases hpoll : pollAll waker ctx futures with ⟨_ | polled, _⟩ <;> rw [hpoll] at h
      · cases h
      · dsimp only at h
        split at h <;> cases h
        exact awaitedAll_subset hpoll
  | any futures which =>
      simp only [attempt] at h
      rcases hpoll : pollAny waker ctx 0 futures with ⟨_ | ⟨_, _⟩, _⟩ <;> rw [hpoll] at h <;>
        cases h
      exact awaitedAny_subset hpoll
  | turn => cases h
  | never =>
      cases h
      exact List.Subset.refl _

/-- A thread that let the others run does not wait for them again. -/
theorem attempt_ne_turn {waker : Waker} {ctx ctx' : Context} {wait : Wait} :
    wait.attempt waker ctx ≠ (.waiting .turn, ctx') := by
  intro h
  cases wait with
  | future | timer | any =>
      simp only [attempt] at h
      split at h <;> cases h
  | all futures =>
      simp only [attempt] at h
      split at h
      · cases h
      · split at h <;> cases h
  | turn => cases h
  | never => cases h

end Wait

namespace Action

/-- What an action tries to wait for, with the context in which it does. -/
def tries (vars : Variables) (ctx : Context) : Action → Option (Wait × Context)
  | .call stub method args type =>
    let (future, ctx) := ctx.call stub method (vars.evaluate args)
    some (.future future (some type), ctx)
  | .await name type => (vars.future? name).map fun future => (.future future type, ctx)
  | .all names =>
    (names.mapM vars.future?).map fun futures => (.all (futures.map fun f => (f, none)), ctx)
  | .any names which => (names.mapM vars.future?).map fun futures => (.any futures which, ctx)
  | .sleep delay =>
    let (future, ctx) := ctx.startTimer delay
    some (.timer future, ctx)
  | _ => none

/-- The futures that an action polls in vain. -/
def misses (waker : Waker) (vars : Variables) (ctx : Context) (action : Action) : List FutureId :=
  match action.tries vars ctx with
  | some (wait, ctx) => wait.misses waker ctx
  | none => []

variable {action : Action} {waker : Waker} {vars : Variables} {ctx ctx' : Context} {wait : Wait}

/-- An action that tries to wait does that last. -/
theorem perform_of_tries (h : action.tries vars ctx = some (wait, ctx')) (waker : Waker) :
    action.perform waker vars ctx = wait.attempt waker ctx' := by
  cases action with
  | call stub method args type =>
      cases h
      rfl
  | sleep delay =>
      cases h
      rfl
  | await name type =>
      obtain ⟨future, hfuture, heq⟩ := Option.map_eq_some_iff.mp h
      cases heq
      simp only [perform, hfuture]
  | all names =>
      obtain ⟨futures, hfutures, heq⟩ := Option.map_eq_some_iff.mp h
      cases heq
      simp only [perform, hfutures]
  | any names which =>
      obtain ⟨futures, hfutures, heq⟩ := Option.map_eq_some_iff.mp h
      cases heq
      simp only [perform, hfutures]
  | _ => cases h

/-- An action that does not try to wait for a future waits for none. -/
theorem awaited_of_not_tries (h : action.tries vars ctx = none)
    (hperform : action.perform waker vars ctx = (.waiting wait, ctx')) : wait.awaited = [] := by
  cases action with
  | call | sleep => cases h
  | await name type =>
      simp only [perform, Option.map_eq_none_iff.mp h] at hperform
      cases hperform
  | all names =>
      simp only [perform, Option.map_eq_none_iff.mp h] at hperform
      cases hperform
  | any names which =>
      simp only [perform, Option.map_eq_none_iff.mp h] at hperform
      cases hperform
  | pause | forever =>
      cases hperform
      rfl
  | start | abandon | inspect | log | encode | decode | rethrow =>
      simp only [perform] at hperform
      split at hperform <;> cases hperform
  | callStart | timer | observe | trace | set | panic | fail | failWith | finish => cases hperform

/-- **What an action polls in vain will wake its thread**, or has woken it. -/
theorem misses_minds {id : ThreadId} {future : FutureId}
    (h : future ∈ action.misses (.thread id) vars ctx) :
    (action.perform (.thread id) vars ctx).2.Minds future id := by
  rw [misses] at h
  split at h
  · rename_i htries
    rw [perform_of_tries htries]
    exact Wait.misses_minds h
  · cases h

/-- An action that lets the other threads run wakes its own. -/
theorem woken_of_turn {id : ThreadId}
    (h : action.perform (.thread id) vars ctx = (.waiting .turn, ctx')) : id ∈ ctx'.woken := by
  cases action with
  | pause =>
      cases h
      exact (ctx.mem_woken_wake _).mpr (.inr rfl)
  | call | sleep =>
      simp only [perform] at h
      exact absurd h Wait.attempt_ne_turn
  | await | all | any =>
      simp only [perform] at h
      split at h
      · exact absurd h Wait.attempt_ne_turn
      · cases h
  | start | abandon | inspect | log | encode | decode | rethrow =>
      simp only [perform] at h
      split at h <;> cases h
  | _ => cases h

/-- **An action waits for futures only that it polled in vain.** -/
theorem awaited_subset_misses (h : action.perform waker vars ctx = (.waiting wait, ctx')) :
    wait.awaited ⊆ action.misses waker vars ctx := by
  rw [misses]
  split
  · rename_i htries
    rw [perform_of_tries htries] at h
    exact Wait.awaited_subset_misses h
  · rename_i htries
    rw [awaited_of_not_tries htries h]
    exact List.nil_subset _

end Action

/-- Only an action that waits lets its thread wait, for the same. -/
theorem Progress.eq_waiting_of_settle {progress : Progress} {binding binding' : Binding}
    {vars vars' : Variables} {rest rest' : List Statement} {wait : Wait}
    (h : progress.settle binding vars rest = .error (.waiting vars' wait binding' rest')) :
    progress = .waiting wait := by
  cases progress with
  | waiting other =>
      cases h
      rfl
  | ready reply which =>
      cases reply <;> simp only [Progress.settle, Binding.settle] at h <;>
        first | cases h | (split at h <;> cases h)

namespace Thread

/-- The futures that are polled in vain while statements are executed. -/
def advanceMisses (waker : Waker) (vars : Variables) (ctx : Context) :
    List Statement → List FutureId
  | [] => []
  | .perform action binding :: rest =>
    action.misses waker vars ctx ++
      match action.perform waker vars ctx with
      | (progress, ctx) =>
        match progress.settle binding vars rest with
        | .ok vars => advanceMisses waker vars ctx rest
        | .error _ => []
  | .spawn steps store :: rest =>
    match ctx.spawn vars steps with
    | (future, ctx) =>
      match store with
      | some name => advanceMisses waker (vars.assign name (.future future)) ctx rest
      | none => advanceMisses waker vars ctx rest
  | .branch condition yes no :: rest =>
    match condition.holds? vars ctx with
    | some true => advanceMisses waker vars ctx (yes ++ rest)
    | some false => advanceMisses waker vars ctx (no ++ rest)
    | none => []
  | .loop 0 _ :: rest => advanceMisses waker vars ctx rest
  | .loop (times + 1) steps :: rest =>
    advanceMisses waker vars ctx (steps ++ .loop times steps :: rest)
termination_by rest => Statement.listWeight rest
decreasing_by
  all_goals
    simp only [Statement.listWeight, Statement.listWeight_append, Statement.weight]
    try rw [Nat.succ_mul]
    omega

/-- The futures that are polled in vain when a thread goes on. -/
def resumeMisses (waker : Waker) (ctx : Context) (thread : Thread) : List FutureId :=
  match thread.waiting with
  | none => advanceMisses waker thread.bindings ctx thread.rest
  | some (wait, binding) =>
    wait.misses waker ctx ++
      match wait.attempt waker ctx with
      | (progress, ctx) =>
        match progress.settle binding thread.bindings thread.rest with
        | .ok vars => advanceMisses waker vars ctx thread.rest
        | .error _ => []

/-- The futures that a poll of a thread polls in vain. -/
def misses (id : ThreadId) (thread : Thread) (ctx : Context) : List FutureId :=
  thread.resumeMisses (.thread id) ctx

/-- What statements poll in vain will wake their thread, or has woken it. -/
theorem advanceMisses_minds {id : ThreadId} {future : FutureId} {vars : Variables} {ctx : Context}
    {steps : List Statement} (h : future ∈ advanceMisses (.thread id) vars ctx steps) :
    (advance (.thread id) vars ctx steps).2.Minds future id := by
  induction vars, ctx, steps using advance.induct (.thread id) with
  | case1 vars ctx =>
      rw [advanceMisses] at h
      cases h
  | case2 vars ctx action binding rest progress ctx' hperform vars' hsettle ih =>
      simp only [advanceMisses, hperform, hsettle] at h
      simp only [advance, hperform, hsettle]
      rcases List.mem_append.mp h with h | h
      · have hminds := Action.misses_minds h
        rw [hperform] at hminds
        exact (advance_deeds _ vars' ctx' rest).heeds.minds hminds
      · exact ih h
  | case3 vars ctx action binding rest progress ctx' hperform halt hsettle =>
      simp only [advanceMisses, hperform, hsettle, List.append_nil] at h
      have hminds := Action.misses_minds h
      simp only [advance, hperform, hsettle]
      rw [hperform] at hminds
      exact hminds
  | case4 vars ctx steps rest future ctx' hspawn name ih =>
      simp only [advanceMisses, hspawn] at h
      simp only [advance, hspawn]
      exact ih h
  | case5 vars ctx steps rest future ctx' hspawn ih =>
      simp only [advanceMisses, hspawn] at h
      simp only [advance, hspawn]
      exact ih h
  | case6 vars ctx condition yes no rest hholds ih
  | case7 vars ctx condition yes no rest hholds ih =>
      simp only [advanceMisses, hholds] at h
      simp only [advance, hholds]
      exact ih h
  | case8 vars ctx condition yes no rest hholds =>
      simp only [advanceMisses, hholds] at h
      cases h
  | case9 vars ctx steps rest ih
  | case10 vars ctx times steps rest ih =>
      simp only [advanceMisses] at h
      simp only [advance]
      exact ih h

/-- What a thread polls in vain when it goes on will wake it, or has woken it. -/
theorem resumeMisses_minds {id : ThreadId} {future : FutureId} {ctx : Context} {thread : Thread}
    (h : future ∈ thread.resumeMisses (.thread id) ctx) :
    (thread.resume (.thread id) ctx).2.Minds future id := by
  cases hwaiting : thread.waiting with
  | none =>
      simp only [resumeMisses, hwaiting] at h
      simp only [resume, hwaiting]
      exact advanceMisses_minds h
  | some waiting =>
      obtain ⟨wait, binding⟩ := waiting
      rcases hattempt : wait.attempt (.thread id) ctx with ⟨progress, ctx'⟩
      have hminds (hmiss : future ∈ wait.misses (.thread id) ctx) : ctx'.Minds future id := by
        have hlater := Wait.misses_minds hmiss
        rwa [hattempt] at hlater
      simp only [resumeMisses, hwaiting, hattempt] at h
      simp only [resume, hwaiting, hattempt]
      cases hsettle : progress.settle binding thread.bindings thread.rest with
      | ok vars =>
          rw [hsettle] at h
          rcases List.mem_append.mp h with hmiss | hmiss
          · exact (advance_deeds _ vars ctx' thread.rest).heeds.minds (hminds hmiss)
          · exact advanceMisses_minds hmiss
      | error halt =>
          rw [hsettle, List.append_nil] at h
          exact hminds h

/-- **What a turn of a thread polls in vain will wake it**, or has woken it. -/
theorem misses_minds {id : ThreadId} {future : FutureId} {ctx : Context} {thread : Thread}
    (h : future ∈ thread.misses id ctx) : (thread.poll id ctx).2.Minds future id := by
  have hminds := resumeMisses_minds h
  rw [poll]
  rcases hresume : thread.resume (.thread id) ctx with ⟨_ | _ | _, ctx'⟩ <;>
    rw [hresume] at hminds
  · exact (ctx'.heeds_conclude _ _).minds hminds
  · exact hminds
  · exact hminds

/-- **Statements wait for futures only that they polled in vain.** -/
theorem awaited_subset_advanceMisses {waker : Waker} {vars vars' : Variables} {ctx ctx' : Context}
    {steps rest : List Statement} {wait : Wait} {binding : Binding}
    (h : advance waker vars ctx steps = (.waiting vars' wait binding rest, ctx')) :
    wait.awaited ⊆ advanceMisses waker vars ctx steps := by
  induction vars, ctx, steps using advance.induct waker with
  | case1 vars ctx =>
      rw [advance] at h
      cases h
  | case2 vars ctx action binding rest progress ctx' hperform vars' hsettle ih =>
      simp only [advance, hperform, hsettle] at h
      simp only [advanceMisses, hperform, hsettle]
      exact List.subset_append_of_subset_right _ (ih h)
  | case3 vars ctx action binding rest progress ctx' hperform halt hsettle =>
      simp only [advance, hperform, hsettle] at h
      cases h
      obtain rfl := Progress.eq_waiting_of_settle hsettle
      simp only [advanceMisses, hperform, hsettle, List.append_nil]
      exact Action.awaited_subset_misses hperform
  | case4 vars ctx steps rest future ctx' hspawn name ih =>
      simp only [advance, hspawn] at h
      simp only [advanceMisses, hspawn]
      exact ih h
  | case5 vars ctx steps rest future ctx' hspawn ih =>
      simp only [advance, hspawn] at h
      simp only [advanceMisses, hspawn]
      exact ih h
  | case6 vars ctx condition yes no rest hholds ih
  | case7 vars ctx condition yes no rest hholds ih =>
      simp only [advance, hholds] at h
      simp only [advanceMisses, hholds]
      exact ih h
  | case8 vars ctx condition yes no rest hholds =>
      simp only [advance, hholds] at h
      cases h
  | case9 vars ctx steps rest ih
  | case10 vars ctx times steps rest ih =>
      simp only [advance] at h
      simp only [advanceMisses]
      exact ih h

/-- **A thread waits for futures only that its turn polled in vain.** -/
theorem awaited_subset_misses {id : ThreadId} {thread body : Thread} {ctx : Context}
    {wait : Wait} {binding : Binding} (h : (thread.poll id ctx).1 = .pending body)
    (hwaiting : body.waiting = some (wait, binding)) : wait.awaited ⊆ thread.misses id ctx := by
  rw [poll] at h
  rcases hresume : thread.resume (.thread id) ctx
    with ⟨_ | _ | ⟨vars, wait', binding', rest⟩, ctx'⟩ <;> rw [hresume] at h <;> cases h
  cases hwaiting
  cases hbefore : thread.waiting with
  | none =>
      simp only [resume, hbefore] at hresume
      simp only [misses, resumeMisses, hbefore]
      exact awaited_subset_advanceMisses hresume
  | some before =>
      obtain ⟨wait₀, binding₀⟩ := before
      rcases hattempt : wait₀.attempt (.thread id) ctx with ⟨progress, ctx₀⟩
      simp only [resume, hbefore, hattempt] at hresume
      simp only [misses, resumeMisses, hbefore, hattempt]
      cases hsettle : progress.settle binding₀ thread.bindings thread.rest with
      | ok vars₀ =>
          rw [hsettle] at hresume
          exact List.subset_append_of_subset_right _ (awaited_subset_advanceMisses hresume)
      | error halt =>
          rw [hsettle] at hresume
          cases hresume
          obtain rfl := Progress.eq_waiting_of_settle hsettle
          exact List.subset_append_of_subset_left _ (Wait.awaited_subset_misses hattempt)

/-- Statements that let the other threads run have woken their own. -/
theorem woken_of_advance_turn {id : ThreadId} {vars vars' : Variables} {ctx ctx' : Context}
    {steps rest : List Statement} {binding : Binding}
    (h : advance (.thread id) vars ctx steps = (.waiting vars' .turn binding rest, ctx')) :
    id ∈ ctx'.woken := by
  induction vars, ctx, steps using advance.induct (.thread id) with
  | case1 vars ctx =>
      rw [advance] at h
      cases h
  | case2 vars ctx action binding rest progress ctx' hperform vars' hsettle ih =>
      simp only [advance, hperform, hsettle] at h
      exact ih h
  | case3 vars ctx action binding rest progress ctx' hperform halt hsettle =>
      simp only [advance, hperform, hsettle] at h
      cases h
      obtain rfl := Progress.eq_waiting_of_settle hsettle
      exact Action.woken_of_turn hperform
  | case4 vars ctx steps rest future ctx' hspawn name ih =>
      simp only [advance, hspawn] at h
      exact ih h
  | case5 vars ctx steps rest future ctx' hspawn ih =>
      simp only [advance, hspawn] at h
      exact ih h
  | case6 vars ctx condition yes no rest hholds ih
  | case7 vars ctx condition yes no rest hholds ih =>
      simp only [advance, hholds] at h
      exact ih h
  | case8 vars ctx condition yes no rest hholds =>
      simp only [advance, hholds] at h
      cases h
  | case9 vars ctx steps rest ih
  | case10 vars ctx times steps rest ih =>
      simp only [advance] at h
      exact ih h

/-- **A thread that lets the others run has woken itself.** -/
theorem woken_of_turn {id : ThreadId} {thread body : Thread} {ctx : Context} {binding : Binding}
    (h : (thread.poll id ctx).1 = .pending body) (hwaiting : body.waiting = some (.turn, binding)) :
    id ∈ (thread.poll id ctx).2.woken := by
  rw [poll] at h ⊢
  rcases hresume : thread.resume (.thread id) ctx
    with ⟨_ | _ | ⟨vars, wait, binding', rest⟩, ctx'⟩ <;> rw [hresume] at h <;> cases h
  cases hwaiting
  cases hbefore : thread.waiting with
  | none =>
      simp only [resume, hbefore] at hresume
      exact woken_of_advance_turn hresume
  | some before =>
      obtain ⟨wait, binding₀⟩ := before
      rcases hattempt : wait.attempt (.thread id) ctx with ⟨progress, ctx₀⟩
      simp only [resume, hbefore, hattempt] at hresume
      cases hsettle : progress.settle binding₀ thread.bindings thread.rest with
      | ok vars₀ =>
          rw [hsettle] at hresume
          exact woken_of_advance_turn hresume
      | error halt =>
          rw [hsettle] at hresume
          cases hresume
          obtain rfl := Progress.eq_waiting_of_settle hsettle
          exact absurd hattempt Wait.attempt_ne_turn

/-- What a turn of a thread arranged: the futures that it polled in vain hold its waker, and if the
thread is left waiting then not for the other threads. -/
structure Arranged (turn : Turn Context Thread) (ctx : Context) : Prop where
  /-- The futures hold the waker of the thread. -/
  awaits : ∀ future ∈ turn.body.misses turn.thread turn.state,
    ctx.Awaits future (.thread turn.thread)
  /-- The thread waits for futures, or for nothing. -/
  waits : ∀ {body binding}, (turn.result workload).1 = .pending body →
    body.waiting ≠ some (.turn, binding)

/-- What a turn arranged stands as long as nobody is forgotten, or its thread is woken. -/
theorem arranged_of_heeds {turn : Turn Context Thread} {c d : Context} (hheeds : c.Heeds d)
    (h : Arranged turn c ∨ turn.thread ∈ c.woken) :
    Arranged turn d ∨ turn.thread ∈ d.woken := by
  rcases h with harranged | hwoken
  · by_cases hwoken : turn.thread ∈ d.woken
    · exact .inr hwoken
    · refine .inl ⟨fun future hmiss => ?_, harranged.waits⟩
      exact (hheeds.awaits future _ (harranged.awaits future hmiss)).resolve_right hwoken
  · exact .inr (hheeds.woken _ hwoken)

/-- **What turns of threads arranged stands until the threads are woken.** -/
theorem workload_attends : workload.Attends Arranged where
  adopt h := ⟨h.awaits, h.waits⟩
  woken h := h
  wakes h := ⟨h.awaits, h.waits⟩
  others {_ ctx} id body h := arranged_of_heeds (body.poll_heeds id ctx) h
  own {turn body} hbody := by
    by_cases hwoken : turn.thread ∈ (turn.result workload).2.woken
    · exact .inr hwoken
    · refine .inl ⟨fun future hmiss => (misses_minds hmiss).resolve_right hwoken, ?_⟩
      intro body binding hpending hwaiting
      exact hwoken (woken_of_turn hpending hwaiting)

end Thread

end DurableWorkflow
