import DurableWorkflow.Proofs.Numbering

/-!
# Who is woken

A thread is woken by the outcome of a future that it waits for, or by itself when it lets the others
run; and a thread that waits for a future has polled it in vain. So it is after every input, after
every operation of a thread, and after every turn.

## Main definitions

* `Op.By` — an operation uses no waker but one.
* `Context.Alerts` — nobody is woken but by the outcome of a future, and nobody begins to wait.
* `Turn.after`, `Turn.Pauses`, `Turn.Misses` — what a turn leaves behind; whether it let the others
  run, and what it polled in vain.

## Main results

* `Thread.ops_by` — a thread uses the waker that is given.
* `Context.alerts_resolve` — resolving a future wakes those who wait for it, and nobody else.
* `Turn.woken_inv`, `Turn.awaits_inv` — who is woken after a turn, and who waits.
-/

namespace DurableWorkflow

/-! ### Whose wakers -/

/-- Whether an operation leaves or wakes no other waker. -/
def Op.By (waker : Waker) : Op → Prop
  | .poll _ used | .wake used => used = waker
  | .startTimer _ | .startChild _ _ _ | .failedFuture _ | .abandon _ | .note _ | .spawn _ _ => True

namespace Wait

/-- Polling for payloads leaves the waker that is given. -/
theorem opsAll_by (waker : Waker) (ctx : Context) (refs : List (FutureRef × Option String)) :
    ∀ op ∈ opsAll waker ctx refs, op.By waker := by
  induction refs generalizing ctx with
  | nil => exact List.forall_mem_nil _
  | cons entry refs ih =>
      obtain ⟨ref, _ | payload⟩ := entry
      · rw [opsAll]
        refine List.forall_mem_cons.mpr ⟨rfl, ?_⟩
        split
        · exact List.forall_mem_nil _
        · exact ih _
      · exact ih ctx

/-- So does polling for the first of several futures. -/
theorem opsAny_by (waker : Waker) (ctx : Context) (refs : List FutureRef) :
    ∀ op ∈ opsAny waker ctx refs, op.By waker := by
  induction refs generalizing ctx with
  | nil => exact List.forall_mem_nil _
  | cons ref refs ih =>
      rw [opsAny]
      refine List.forall_mem_cons.mpr ⟨rfl, ?_⟩
      split
      · exact List.forall_mem_nil _
      · exact ih _

/-- So does trying a wait. -/
theorem ops_by (waker : Waker) (ctx : Context) (wait : Wait) :
    ∀ op ∈ wait.ops waker ctx, op.By waker := by
  cases wait with
  | future ref type => exact List.forall_mem_singleton.mpr rfl
  | timer ref => exact List.forall_mem_singleton.mpr rfl
  | all futures => exact opsAll_by waker ctx futures
  | any futures which => exact opsAny_by waker ctx futures
  | turn => exact List.forall_mem_nil _
  | never => exact List.forall_mem_nil _

end Wait

namespace Context

variable (waker : Waker) (ctx : Context)

/-- Calling a method uses no waker. -/
theorem callOps_by (stub : Stub) (method : String) (args : Json) :
    ∀ op ∈ ctx.callOps stub method args, op.By waker := by
  rw [callOps]
  split
  · split <;> exact List.forall_mem_singleton.mpr trivial
  · exact List.forall_mem_singleton.mpr trivial

/-- Neither does starting the child behind a reference. -/
theorem invokeOps_by (ref : MethodRef) (args : Json) :
    ∀ op ∈ ctx.invokeOps ref args, op.By waker := by
  rw [invokeOps]
  split
  · exact ctx.callOps_by waker _ _ _
  · exact List.forall_mem_nil _
  · exact List.forall_mem_nil _

end Context

/-- **An action uses the waker that is given.** -/
theorem Action.ops_by (waker : Waker) (vars : Variables) (ctx : Context) (action : Action) :
    ∀ op ∈ action.ops waker vars ctx, op.By waker := by
  cases action with
  | start stub method args plain => exact ctx.invokeOps_by waker _ _
  | call stub method args type =>
      exact List.forall_mem_append.mpr ⟨ctx.callOps_by waker _ _ _, Wait.ops_by waker _ _⟩
  | callStart stub method args => exact ctx.callOps_by waker _ _ _
  | await | all | any =>
      simp only [ops]
      split
      · exact Wait.ops_by waker ctx _
      · exact List.forall_mem_nil _
  | timer delay => exact List.forall_mem_singleton.mpr trivial
  | sleep delay => exact List.forall_mem_cons.mpr ⟨trivial, Wait.ops_by waker _ _⟩
  | abandon | inspect =>
      simp only [ops]
      split
      · exact List.forall_mem_singleton.mpr trivial
      · exact List.forall_mem_nil _
  | log level text =>
      simp only [ops]
      split
      · exact List.forall_mem_nil _
      · exact List.forall_mem_singleton.mpr trivial
  | observe | trace => exact List.forall_mem_singleton.mpr trivial
  | pause => exact List.forall_mem_singleton.mpr rfl
  | encode | decode | set | forever | panic | fail | failWith | rethrow | finish =>
      exact List.forall_mem_nil _

namespace Thread

/-- Executing statements uses the waker that is given. -/
theorem advanceOps_by (waker : Waker) (vars : Variables) (ctx : Context)
    (steps : List Statement) : ∀ op ∈ advanceOps waker vars ctx steps, op.By waker := by
  induction vars, ctx, steps using advance.induct waker with
  | case1 vars ctx =>
      rw [advanceOps]
      exact List.forall_mem_nil _
  | case2 vars ctx action binding rest progress ctx' hperform vars' hsettle ih =>
      simp only [advanceOps, hperform, hsettle]
      exact List.forall_mem_append.mpr ⟨action.ops_by waker vars ctx, ih⟩
  | case3 vars ctx action binding rest progress ctx' hperform halt hsettle =>
      simp only [advanceOps, hperform, hsettle, List.append_nil]
      exact action.ops_by waker vars ctx
  | case4 vars ctx steps rest future ctx' hspawn name ih
  | case5 vars ctx steps rest future ctx' hspawn ih =>
      simp only [advanceOps, hspawn]
      exact List.forall_mem_cons.mpr ⟨trivial, ih⟩
  | case6 vars ctx condition yes no rest hholds ih
  | case7 vars ctx condition yes no rest hholds ih =>
      simp only [advanceOps, hholds]
      exact ih
  | case8 vars ctx condition yes no rest hholds =>
      simp only [advanceOps, hholds]
      exact List.forall_mem_nil _
  | case9 vars ctx steps rest ih
  | case10 vars ctx times steps rest ih =>
      simp only [advanceOps]
      exact ih

/-- **A thread uses the waker that is given.** -/
theorem ops_by (waker : Waker) (ctx : Context) (thread : Thread) :
    ∀ op ∈ thread.ops waker ctx, op.By waker := by
  rw [ops]
  split
  · exact advanceOps_by waker _ ctx _
  · refine List.forall_mem_append.mpr ⟨Wait.ops_by waker ctx _, ?_⟩
    split
    split
    · exact advanceOps_by waker _ _ _
    · exact List.forall_mem_nil _

end Thread

/-! ### Who is woken and who waits -/

namespace Context

variable {c d e : Context} {future : FutureId} {id : ThreadId}

/-- Whether from one context to another nobody is woken but by the outcome of a future, and nobody
begins to wait. -/
structure Alerts (c d : Context) : Prop where
  /-- Outcomes stay. -/
  keeps : c.futures.Keeps d.futures
  /-- Who is woken was so before, or waited for a future that has an outcome now. -/
  woken : ∀ id ∈ d.woken, id ∈ c.woken
    ∨ ∃ future, c.Awaits future (.thread id) ∧ d.futures.isResolved future = true
  /-- Who waits did so before. -/
  awaits : ∀ future id, d.Awaits future (.thread id) → c.Awaits future (.thread id)

/-- An outcome that is kept is one. -/
theorem isResolved_of_keeps (h : c.futures.Keeps d.futures)
    (hresolved : c.futures.isResolved future = true) : d.futures.isResolved future = true := by
  obtain ⟨outcome, houtcome⟩ := Option.isSome_iff_exists.mp hresolved
  exact Option.isSome_iff_exists.mpr ⟨outcome, h future outcome houtcome⟩

/-- Nobody is woken where futures and wakes stay as they are. -/
theorem alerts_of_eq (hfutures : d.futures = c.futures) (hwoken : d.woken = c.woken) :
    c.Alerts d := by
  refine ⟨hfutures ▸ .refl _, fun id hid => .inl (hwoken ▸ hid), fun future id hawaits => ?_⟩
  rwa [Awaits, hfutures] at hawaits

/-- One after the other. -/
theorem Alerts.trans (h : c.Alerts d) (h' : d.Alerts e) : c.Alerts e := by
  refine ⟨h.keeps.trans h'.keeps, fun id hid => ?_, fun future id hawaits =>
    h.awaits future id (h'.awaits future id hawaits)⟩
  rcases h'.woken id hid with hid | ⟨future, hawaits, hresolved⟩
  · rcases h.woken id hid with hid | ⟨future, hawaits, hresolved⟩
    · exact .inl hid
    · exact .inr ⟨future, hawaits, isResolved_of_keeps h'.keeps hresolved⟩
  · exact .inr ⟨future, h.awaits future id hawaits, hresolved⟩

/-- Nobody waits for a future that was just created. -/
theorem awaits_of_create {waker : Waker} (hfutures : d.futures = c.futures.create.2)
    (h : d.Awaits future waker) : c.Awaits future waker := by
  obtain ⟨slot, hslot, hresult, hmem⟩ := h
  rw [hfutures] at hslot
  cases hold : c.futures.slot? future with
  | some old =>
      obtain rfl : slot = old := Option.some.inj (hslot.symm.trans (FutureTable.slot?_create hold))
      exact ⟨slot, hold, hresult, hmem⟩
  | none =>
      have hnew := FutureTable.slot?_isSome.mp ⟨slot, hslot⟩
      have hbeyond : c.futures.slots.length < future := by
        refine Nat.not_le.mp fun hle => ?_
        obtain ⟨old, hsome⟩ := FutureTable.slot?_isSome.mpr ⟨hnew.1, hle⟩
        rw [hold] at hsome
        cases hsome
      rw [FutureTable.length_create] at hnew
      obtain rfl : future = c.futures.create.1 := Nat.le_antisymm hnew.2 hbeyond
      rw [slot?_created] at hslot
      cases hslot
      cases hmem

/-- **Resolving a future wakes those who wait for it**, and nobody else. -/
theorem alerts_resolve (c : Context) (resolved : FutureId) (outcome : Outcome) :
    c.Alerts (c.resolve resolved outcome) := by
  have hkeeps : c.futures.Keeps (c.resolve resolved outcome).futures := by
    rw [futures_resolve]
    exact c.futures.keeps_resolve _ _
  have hfutures := c.futures_resolve resolved outcome
  rcases c.futures.resolve_inv resolved outcome with hsame | ⟨slot, hslot, hresult, hresolve⟩
  · have heq : c.resolve resolved outcome = c := by
      rw [Context.resolve, hsame]
      rfl
    rw [heq]
    exact alerts_of_eq rfl rfl
  · rw [hresolve] at hfutures
    refine ⟨hkeeps, fun id hid => ?_, fun future id hawaits => ?_⟩
    · rw [Context.resolve, hresolve] at hid
      rcases (mem_woken_foldl_wake _ _).mp hid with hid | hid
      · exact .inl hid
      · refine .inr ⟨resolved, ⟨slot, hslot, hresult, hid⟩, ?_⟩
        rw [hfutures, FutureTable.isResolved, FutureTable.outcome?,
          FutureTable.slot?_setSlot hslot, if_pos rfl]
        rfl
    · obtain ⟨new, hnew, hnone, hmem⟩ := hawaits
      rw [hfutures, FutureTable.slot?_setSlot hslot] at hnew
      split at hnew
      · cases hnew
        cases hnone
      · exact ⟨new, hnew, hnone, hmem⟩

/-- So does the end of a thread. -/
theorem alerts_conclude (c : Context) (role : Role) (outcome : Outcome) :
    c.Alerts (Thread.conclude role outcome c) := by
  rcases role with typed | future
  · cases typed <;> exact alerts_of_eq rfl rfl
  · exact c.alerts_resolve future outcome

/-- Who waits after a future was polled did so before, or it is who polled it in vain. -/
theorem awaits_pollFuture {polled : FutureId} {waker other : Waker}
    (h : (c.pollFuture polled waker).2.Awaits future other) :
    c.Awaits future other
      ∨ future = polled ∧ other = waker ∧ (c.pollFuture polled waker).1 = none := by
  simp only [pollFuture] at h ⊢
  rcases c.futures.poll_inv polled waker with ⟨outcome, hpoll⟩
    | ⟨slot, hslot, hresult, ⟨-, hpoll⟩ | hpoll⟩ <;> rw [hpoll] at h ⊢
  · exact .inl h
  · exact .inl h
  · obtain ⟨new, hnew, hnone, hmem⟩ := h
    simp only [FutureTable.slot?_setSlot hslot] at hnew
    split at hnew
    · rename_i hsame
      cases hnew
      rcases List.mem_append.mp hmem with hmem | hmem
      · exact .inl ⟨slot, hsame ▸ hslot, hresult, hmem⟩
      · exact .inr ⟨hsame, List.mem_singleton.mp hmem, rfl⟩
    · exact .inl ⟨new, hnew, hnone, hmem⟩

end Context

/-- Applying an input wakes nobody but by the outcome of a future. -/
theorem Execution.alerts_applyInput {ctx ctx' : Context} {event : Event}
    (happly : applyInput ctx event = .ok ctx') : ctx.Alerts ctx' := by
  rcases applyInput_inv happly with ⟨_, _, _, _, _, _, _, hnews, -, -, -⟩ | ⟨_, _, _, rfl, -⟩
    | ⟨_, _, -, rfl⟩
  · obtain ⟨_, child, outcome, -, -, rfl⟩ := applyInput_news_inv hnews happly
    have hchildren : ctx.Alerts { ctx with children := ctx.children.put child } :=
      Context.alerts_of_eq rfl rfl
    cases outcome with
    | none => exact hchildren
    | some outcome => exact hchildren.trans (Context.alerts_resolve _ _ _)
  · obtain ⟨_, -, rfl⟩ := applyInput_timerFired_inv happly
    have htimers (timers : List (Nat × FutureId)) : ctx.Alerts { ctx with timers } :=
      Context.alerts_of_eq rfl rfl
    exact (htimers _).trans (Context.alerts_resolve _ _ _)
  · exact Context.alerts_of_eq rfl rfl

namespace Op

variable {c : Context} {me id : ThreadId} {future : FutureId}

/-- An operation of a thread wakes nobody, but for the thread itself. -/
theorem woken_run {op : Op} (hby : op.By (.thread me)) (h : id ∈ (op.run c).woken) :
    id ∈ c.woken ∨ id = me ∧ op = .wake (.thread me) := by
  cases op with
  | wake used =>
      obtain rfl : used = .thread me := hby
      rcases List.mem_append.mp h with h | h
      · exact .inl h
      · exact .inr ⟨List.mem_singleton.mp h, rfl⟩
  | failedFuture failure =>
      obtain ⟨_, futures, heq, -⟩ := c.failedFuture_failed failure
      rw [run, heq] at h
      exact .inl h
  | abandon ref =>
      rw [run, Context.abandon] at h
      split at h <;> exact .inl h
  | startTimer | startChild | poll | note | spawn => exact .inl h

/-- Who waits after an operation of a thread did so before, or it is the thread itself, which has
polled the future in vain. -/
theorem awaits_run {op : Op} (hby : op.By (.thread me))
    (h : (op.run c).Awaits future (.thread id)) : c.Awaits future (.thread id)
      ∨ id = me ∧ ∃ ref : FutureRef, ref.id = future ∧ op.seen? c = some (ref, none) := by
  cases op with
  | poll ref used =>
      obtain rfl : used = .thread me := hby
      rcases Context.awaits_pollFuture h with h | ⟨rfl, hwaker, hnone⟩
      · exact .inl h
      · cases hwaker
        exact .inr ⟨rfl, ref, rfl, by rw [seen?, hnone]⟩
  | failedFuture failure =>
      have hresolved := (Context.alerts_resolve { c with futures := c.futures.create.2 }
        c.futures.create.1 (.error failure)).awaits future id h
      exact .inl (Context.awaits_of_create rfl hresolved)
  | startTimer | startChild | spawn => exact .inl (Context.awaits_of_create rfl h)
  | wake used =>
      obtain ⟨woken, hwake⟩ := c.wake_eq used
      rw [run, hwake] at h
      exact .inl h
  | abandon ref =>
      rw [run, Context.abandon] at h
      split at h <;> exact .inl h
  | note remark => exact .inl h

/-- The operations of a thread wake nobody, but for the thread itself. -/
theorem woken_foldl_run {ops : List Op} (hby : ∀ op ∈ ops, op.By (.thread me))
    (h : id ∈ (ops.foldl run c).woken) :
    id ∈ c.woken ∨ id = me ∧ .wake (.thread me) ∈ ops := by
  induction ops generalizing c with
  | nil => exact .inl h
  | cons op ops ih =>
      obtain ⟨hop, hops⟩ := List.forall_mem_cons.mp hby
      rcases ih hops h with h | ⟨rfl, hwake⟩
      · rcases woken_run hop h with h | ⟨rfl, rfl⟩
        · exact .inl h
        · exact .inr ⟨rfl, List.mem_cons_self⟩
      · exact .inr ⟨rfl, List.mem_cons_of_mem _ hwake⟩

/-- Who waits after the operations of a thread did so before, or it is the thread itself, which has
seen no outcome. -/
theorem awaits_foldl_run {ops : List Op} (hby : ∀ op ∈ ops, op.By (.thread me))
    (h : (ops.foldl run c).Awaits future (.thread id)) : c.Awaits future (.thread id)
      ∨ id = me ∧ ∃ ref : FutureRef, ref.id = future ∧ (ref, none) ∈ sights c ops := by
  induction ops generalizing c with
  | nil => exact .inl h
  | cons op ops ih =>
      obtain ⟨hop, hops⟩ := List.forall_mem_cons.mp hby
      rcases ih hops h with h | ⟨rfl, ref, rfl, hsight⟩
      · rcases awaits_run hop h with h | ⟨rfl, ref, rfl, hseen⟩
        · exact .inl h
        · refine .inr ⟨rfl, ref, rfl, List.mem_append_left _ ?_⟩
          rw [hseen]
          exact List.mem_singleton_self _
      · exact .inr ⟨rfl, ref, rfl, List.mem_append_right _ hsight⟩

end Op

/-! ### Turns -/

namespace Turn

/-- What a turn leaves behind. -/
def after (turn : Turn Context Thread) : Context :=
  (turn.result Thread.workload).2

/-- Whether a turn let the other threads run. -/
def Pauses (turn : Turn Context Thread) : Prop :=
  .wake (.thread turn.thread) ∈ turn.ops

/-- Whether a turn polled a future in vain. -/
def Misses (turn : Turn Context Thread) (future : FutureId) : Prop :=
  ∃ ref : FutureRef, ref.id = future ∧ (ref, none) ∈ turn.sights

variable {turn : Turn Context Thread} {id : ThreadId} {future : FutureId}

/-- A turn is its operations, after which nobody is woken but by the outcome of a future; and there
is nothing after them if the thread blocks. -/
theorem alerts_after (turn : Turn Context Thread) :
    (turn.ops.foldl Op.run turn.state).Alerts turn.after
      ∧ ∀ body, (turn.result Thread.workload).1 = .pending body →
        turn.after = turn.ops.foldl Op.run turn.state := by
  have hresult : turn.result Thread.workload = turn.body.poll turn.thread turn.state := rfl
  have hops : turn.ops = turn.body.ops (.thread turn.thread) turn.state := rfl
  rw [after, hresult, hops]
  obtain ⟨-, ⟨outcome, hpoll⟩ | ⟨message, hpoll⟩ | ⟨left, hpoll, -⟩⟩ :=
    Thread.poll_traces turn.thread turn.state (List.Subset.refl turn.body.refs) <;> rw [hpoll]
  · exact ⟨Context.alerts_conclude _ _ _, fun _ hpending => nomatch hpending⟩
  · exact ⟨Context.alerts_of_eq rfl rfl, fun _ hpending => nomatch hpending⟩
  · exact ⟨Context.alerts_of_eq rfl rfl, fun _ _ => rfl⟩

/-- Outcomes stay in a turn. -/
theorem keeps_after (turn : Turn Context Thread) : turn.state.futures.Keeps turn.after.futures :=
  (Op.keeps_foldl turn.ops turn.state).trans turn.alerts_after.1.keeps

/-- **Who waits after a turn** did so before, or it is the thread that had the turn, and it has
polled the future in vain. -/
theorem awaits_inv (h : turn.after.Awaits future (.thread id)) :
    turn.state.Awaits future (.thread id) ∨ id = turn.thread ∧ turn.Misses future :=
  Op.awaits_foldl_run (turn.body.ops_by (.thread turn.thread) turn.state)
    (turn.alerts_after.1.awaits future id h)

/-- **Who is woken after a turn** was so before, or it is another thread that waited for a future
that has an outcome now, or the thread that had the turn: if that blocks, it let the others run. -/
theorem woken_inv (h : id ∈ turn.after.woken) : id ∈ turn.state.woken
    ∨ (id ≠ turn.thread ∧ ∃ future, turn.state.Awaits future (.thread id)
      ∧ turn.after.futures.isResolved future = true)
    ∨ id = turn.thread ∧ ∀ body, (turn.result Thread.workload).1 = .pending body → turn.Pauses := by
  have hby := turn.body.ops_by (.thread turn.thread) turn.state
  by_cases hid : id = turn.thread
  · by_cases hwoken : id ∈ (turn.ops.foldl Op.run turn.state).woken
    · rcases Op.woken_foldl_run hby hwoken with hwoken | ⟨-, hwake⟩
      · exact .inl hwoken
      · exact .inr (.inr ⟨hid, fun _ _ => hwake⟩)
    · refine .inr (.inr ⟨hid, fun body hbody => absurd ?_ hwoken⟩)
      rwa [← turn.alerts_after.2 body hbody]
  · rcases turn.alerts_after.1.woken id h with hwoken | ⟨future, hawaits, hresolved⟩
    · exact .inl ((Op.woken_foldl_run hby hwoken).resolve_right fun hme => hid hme.1)
    · refine .inr (.inl ⟨hid, future, ?_, hresolved⟩)
      exact (Op.awaits_foldl_run hby hawaits).resolve_right fun hme => hid hme.1

end Turn

end DurableWorkflow
