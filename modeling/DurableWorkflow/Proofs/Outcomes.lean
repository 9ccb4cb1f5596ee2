import DurableWorkflow.Proofs.Courses
import DurableWorkflow.Proofs.Traces
import DurableWorkflow.Proofs.Wakeups

/-!
# Outcomes stay

A future that has an outcome keeps it: no operation of a thread, no input and no event changes it.
So whoever looks at the future afterwards, in whichever thread and however late, sees that outcome.

## Main definitions

* `FutureTable.Keeps` — one table has all outcomes of another.

## Main results

* `FutureTable.outcome?_create`, `FutureTable.outcome?_poll`, `FutureTable.outcome?_resolve` — the
  outcomes after each operation.
* `Context.Moves.keeps`, `Execution.keeps_step` — threads and events keep outcomes.
* `Op.sights_of_keeps` — what operations see of a future that has an outcome.
* `Execution.outcome?_of_turn` — turns find the outcomes that there are.
-/

namespace DurableWorkflow

/-! ### Tables -/

namespace FutureTable

variable {ω : Type} {table table' table'' : FutureTable ω} {id : FutureId} {slot : FutureSlot ω}

/-- Whether a table has all outcomes of another. -/
def Keeps (table table' : FutureTable ω) : Prop :=
  ∀ id outcome, table.outcome? id = some outcome → table'.outcome? id = some outcome

/-- A table has its outcomes. -/
theorem Keeps.refl (table : FutureTable ω) : table.Keeps table :=
  fun _ _ h => h

/-- Outcomes that are kept twice are kept. -/
theorem Keeps.trans (h : table.Keeps table') (h' : table'.Keeps table'') : table.Keeps table'' :=
  fun id outcome hsome => h' id outcome (h id outcome hsome)

/-- Futures have the numbers up to their count. -/
theorem slot?_isSome {id : Nat} :
    (∃ slot, table.slot? id = some slot) ↔ 0 < id ∧ id ≤ table.slots.length := by
  rw [slot?]
  split
  · rename_i hid
    simp [hid]
  · rename_i hid
    constructor
    · rintro ⟨slot, hslot⟩
      obtain ⟨hlength, -⟩ := List.getElem?_eq_some_iff.mp hslot
      exact ⟨Nat.pos_of_ne_zero hid, Nat.le_of_pred_lt hlength⟩
    · rintro ⟨hpos, hle⟩
      exact ⟨_, List.getElem?_eq_getElem (Nat.sub_one_lt_of_le hpos hle)⟩

/-- The outcome in a slot. -/
theorem outcome?_of_slot? (h : table.slot? id = some slot) : table.outcome? id = slot.result := by
  rw [outcome?, h]
  rfl

/-- A future that does not exist has no outcome. -/
theorem outcome?_of_none (h : table.slot? id = none) : table.outcome? id = none := by
  rw [outcome?, h]
  rfl

/-- There are no outcomes of futures beyond the count. -/
theorem outcome?_of_lt {id : Nat} (h : table.slots.length < id) : table.outcome? id = none := by
  refine outcome?_of_none (Option.eq_none_iff_forall_ne_some.mpr fun slot hslot => ?_)
  have hid := slot?_isSome.mp ⟨slot, hslot⟩
  omega

/-- A future that is created is one more. -/
theorem length_create (table : FutureTable ω) :
    table.create.2.slots.length = table.slots.length + 1 := by
  simp [create]

/-- The slot of a future after one was created: nobody waits for the new one. -/
theorem slot?_create_eq (table : FutureTable ω) (id : FutureId) :
    table.create.2.slot? id = if id = table.create.1 then some ⟨none, []⟩ else table.slot? id := by
  cases id with
  | zero => rfl
  | succ place =>
      have hnew : table.create.2.slot? (place + 1) = (table.slots ++ [⟨none, []⟩])[place]? := rfl
      have hold : table.slot? (place + 1) = table.slots[place]? := rfl
      have hid : place + 1 = table.create.1 ↔ place = table.slots.length := Nat.succ_inj
      rw [hnew, hold, if_congr hid rfl rfl]
      split
      · rename_i hplace
        rw [hplace]
        exact List.getElem?_concat_length
      · rename_i hplace
        rcases Nat.lt_or_gt_of_ne hplace with hless | hless
        · exact List.getElem?_append_left hless
        · rw [List.getElem?_eq_none (Nat.le_of_lt hless), List.getElem?_eq_none]
          rw [List.length_append]
          exact hless

/-- A new future has no outcome, and the others keep theirs. -/
theorem outcome?_create (table : FutureTable ω) (id : Nat) :
    table.create.2.outcome? id = table.outcome? id := by
  have hslot := table.slot?_create_eq id
  split at hslot
  · rename_i hid
    rw [outcome?_of_slot? hslot, hid]
    exact (outcome?_of_lt (Nat.lt_succ_self _)).symm
  · rw [outcome?, hslot, outcome?]

/-- Looking at a future changes no outcome. -/
theorem outcome?_poll [DecidableEq ω] (table : FutureTable ω) (id : FutureId) (waker : ω)
    (other : FutureId) : (table.poll id waker).2.outcome? other = table.outcome? other := by
  rcases table.poll_inv id waker with ⟨outcome, h⟩ | ⟨slot, hslot, hresult, ⟨-, h⟩ | h⟩ <;> rw [h]
  simp only [outcome?, slot?_setSlot hslot]
  split
  · rename_i hsame
    rw [hsame, hslot]
    exact hresult.symm
  · rfl

/-- Who looks at a future that exists sees its outcome. -/
theorem poll_fst [DecidableEq ω] (h : table.slot? id = some slot) (waker : ω) :
    (table.poll id waker).1 = table.outcome? id := by
  rw [outcome?_of_slot? h, poll, h]
  dsimp only
  cases slot.result with
  | some outcome => rfl
  | none =>
      dsimp only
      split <;> rfl

/-- Who looks at a future that has an outcome sees that, and leaves nothing behind. -/
theorem poll_of_outcome? [DecidableEq ω] {outcome : Outcome} (h : table.outcome? id = some outcome)
    (waker : ω) : table.poll id waker = (some outcome, table) := by
  cases hslot : table.slot? id with
  | none =>
      rw [outcome?_of_none hslot] at h
      cases h
  | some slot =>
      rw [outcome?_of_slot? hslot] at h
      simp only [poll, hslot, h]

/-- Resolving a future gives it the outcome, unless it has one; the others keep theirs. -/
theorem outcome?_resolve (h : table.slot? id = some slot) (outcome : Outcome) (other : FutureId) :
    (table.resolve id outcome).2.outcome? other
      = if other = id then (table.outcome? id).or (some outcome) else table.outcome? other := by
  rw [resolve, h]
  cases hresult : slot.result with
  | some old =>
      simp only [hresult]
      split
      · rename_i hsame
        rw [hsame, outcome?_of_slot? h, hresult, Option.some_or]
      · rfl
  | none =>
      simp only [hresult]
      rw [outcome?_of_slot? h, hresult, Option.none_or]
      simp only [outcome?, slot?_setSlot h]
      split <;> rfl

/-- Resolving a future that does not exist changes nothing. -/
theorem resolve_of_none (h : table.slot? id = none) (outcome : Outcome) :
    (table.resolve id outcome).2 = table := by
  rw [resolve, h]

/-- Resolving a future keeps the outcomes. -/
theorem keeps_resolve (table : FutureTable ω) (id : FutureId) (outcome : Outcome) :
    table.Keeps (table.resolve id outcome).2 := by
  intro other old hold
  cases hslot : table.slot? id with
  | none => rwa [resolve_of_none hslot]
  | some slot =>
      rw [outcome?_resolve hslot]
      split
      · rename_i hsame
        rw [← hsame, hold, Option.some_or]
      · exact hold

/-- Looking at a future makes none. -/
theorem length_poll [DecidableEq ω] (table : FutureTable ω) (id : FutureId) (waker : ω) :
    (table.poll id waker).2.slots.length = table.slots.length := by
  rcases table.poll_inv id waker with ⟨outcome, h⟩ | ⟨slot, -, -, ⟨-, h⟩ | h⟩ <;>
    simp [h, setSlot]

/-- Resolving a future makes none. -/
theorem length_resolve (table : FutureTable ω) (id : FutureId) (outcome : Outcome) :
    (table.resolve id outcome).2.slots.length = table.slots.length := by
  rcases table.resolve_inv id outcome with h | ⟨slot, -, -, h⟩ <;> simp [h, setSlot]

end FutureTable

/-! ### Threads -/

namespace Context

/-- The futures after one was resolved. -/
theorem futures_resolve (ctx : Context) (id : FutureId) (outcome : Outcome) :
    (ctx.resolve id outcome).futures = (ctx.futures.resolve id outcome).2 := by
  obtain ⟨woken, h⟩ := foldl_wake_eq { ctx with futures := (ctx.futures.resolve id outcome).2 }
    ((ctx.futures.resolve id outcome).1.getD [])
  rw [resolve]
  exact congrArg Context.futures h

/-- **Whatever a thread does, outcomes stay.** -/
theorem Deed.keeps {c d : Context} (h : Deed c d) : c.futures.Keeps d.futures := by
  have hcreate (outcome : Outcome) :
      c.futures.Keeps (c.futures.create.2.resolve c.futures.create.1 outcome).2 := by
    intro id old hold
    exact FutureTable.keeps_resolve _ _ _ id old ((c.futures.outcome?_create id).trans hold)
  cases h with
  | spawn vars steps => exact fun id _ hold => (c.futures.outcome?_create id).trans hold
  | act h =>
      cases h with
      | startTimer delay => exact fun id _ hold => (c.futures.outcome?_create id).trans hold
      | startChild stub method input =>
          exact fun id _ hold => (c.futures.outcome?_create id).trans hold
      | failedFuture failure =>
          rw [failedFuture, futures_resolve]
          exact hcreate _
      | pollFuture id waker =>
          exact fun other _ hold => (c.futures.outcome?_poll id waker other).trans hold
      | wake waker =>
          obtain ⟨woken, h⟩ := c.wake_eq waker
          rw [h]
          exact .refl _
      | abandon future =>
          rw [abandon]
          split <;> exact .refl _
      | note note => exact .refl _

/-- So they do when threads end and the scheduler takes over. -/
theorem Moves.keeps {c d : Context} (h : Moves c d) : c.futures.Keeps d.futures := by
  induction h with
  | refl => exact .refl _
  | @tail b d _ hmove ih =>
      refine ih.trans ?_
      cases hmove with
      | deed h => exact h.keeps
      | conclude role outcome =>
          rcases role with typed | id
          · cases typed <;> exact .refl _
          · rw [Thread.conclude, futures_resolve]
            exact FutureTable.keeps_resolve _ _ _
      | adopt => exact .refl _
      | collect => exact .refl _

end Context

/-! ### Executions -/

namespace Execution

variable {x x' : Execution} {event : Event}

/-- News of a child change it and, if they end it, resolve its future. -/
theorem applyInput_news_inv {ctx ctx' : Context} {seq : Nat} {transition : ChildTransition}
    (hnews : childNews? event = some (seq, transition)) (happly : applyInput ctx event = .ok ctx') :
    ∃ child child' outcome, ctx.children.get? seq = some child
      ∧ child.apply transition = .ok (child', outcome)
      ∧ ctx' = match outcome with
        | some outcome => ({ ctx with children := ctx.children.put child' } : Context).resolve
            child'.future outcome
        | none => { ctx with children := ctx.children.put child' } := by
  simp only [applyInput, hnews, Children.apply] at happly
  cases hget : ctx.children.get? seq with
  | none => simp [hget] at happly
  | some child =>
      rcases hchild : child.apply transition with e | ⟨child', outcome⟩
      · simp [hget, hchild] at happly
      · refine ⟨child, child', outcome, rfl, hchild, ?_⟩
        simp only [hget, hchild] at happly
        cases outcome <;> cases happly <;> rfl

/-- A timer that fires is disarmed, and its future is resolved. -/
theorem applyInput_timerFired_inv {ctx ctx' : Context} {seq : Nat}
    (happly : applyInput ctx (.timerFired seq) = .ok ctx') :
    ∃ future, (seq, future) ∈ ctx.timers ∧ ctx' = ({ ctx with
      timers := ctx.timers.filter fun timer => timer.1 ≠ seq } : Context).resolve future
        (.ok "") := by
  have hnone : childNews? (.timerFired seq) = none := rfl
  simp only [applyInput, hnone] at happly
  cases hlookup : ctx.timers.lookup seq with
  | none => simp [hlookup] at happly
  | some future =>
      simp only [hlookup] at happly
      cases happly
      obtain ⟨before, after, htimers, -⟩ := List.lookup_eq_some_iff.mp hlookup
      exact ⟨future, htimers ▸ List.mem_append_right _ List.mem_cons_self, rfl⟩

/-- An input keeps outcomes. -/
theorem keeps_applyInput {ctx ctx' : Context} (happly : applyInput ctx event = .ok ctx') :
    ctx.futures.Keeps ctx'.futures := by
  rcases applyInput_inv happly with ⟨_, _, _, _, _, _, _, hnews, -, -, -⟩ | ⟨_, _, _, rfl, -⟩
    | ⟨_, _, -, rfl⟩
  · obtain ⟨_, _, outcome, -, -, rfl⟩ := applyInput_news_inv hnews happly
    cases outcome with
    | none => exact .refl _
    | some outcome =>
        rw [Context.futures_resolve]
        exact FutureTable.keeps_resolve _ _ _
  · obtain ⟨_, -, rfl⟩ := applyInput_timerFired_inv happly
    rw [Context.futures_resolve]
    exact FutureTable.keeps_resolve _ _ _
  · exact .refl _

/-- Accepting an input keeps outcomes. -/
theorem keeps_accept (h : x.counted.accept event = .ok x') :
    x.context.futures.Keeps x'.context.futures := by
  rcases accept_inv h with ⟨-, context, happly, rfl⟩ | ⟨-, _, _, _, _, -, rfl⟩
  · exact keeps_applyInput happly
  · exact .refl _

/-- **Every event keeps outcomes.** -/
theorem keeps_step (x : Execution) (event : Event) :
    x.context.futures.Keeps (x.step event).2.context.futures := by
  rcases x.admitted?_inv event with ⟨-, _, _, hstep, -, -⟩ | ⟨x', -, haccept, -, hstep⟩ <;>
    rw [hstep]
  · exact .refl _
  · obtain ⟨_, _, _, hsettle⟩ := x'.runThreads.settle_eq
    have hfutures : x'.runThreads.settle.takeCommands.2.context.futures
        = x'.runThreads.context.futures := by
      rw [hsettle]
      rfl
    rw [hfutures]
    exact (keeps_accept haccept).trans x'.runThreads_moves.keeps

end Execution

/-! ### What turns see -/

/-- Operations keep outcomes. -/
theorem Op.keeps_foldl (ops : List Op) (ctx : Context) :
    ctx.futures.Keeps (ops.foldl run ctx).futures := by
  induction ops generalizing ctx with
  | nil => exact .refl _
  | cons op ops ih => exact (op.deed ctx).keeps.trans (ih (op.run ctx))

/-- Operations see the outcomes that there are. -/
theorem Op.sights_of_keeps {table : FutureTable Waker} {ctx : Context} {ops : List Op}
    (h : table.Keeps ctx.futures) {sight : FutureRef × Option Outcome}
    (hsight : sight ∈ sights ctx ops) {outcome : Outcome}
    (houtcome : table.outcome? sight.1.id = some outcome) : sight.2 = some outcome := by
  induction ops generalizing ctx with
  | nil => cases hsight
  | cons op ops ih =>
      rcases List.mem_append.mp hsight with hnow | hlater
      · cases op with
        | poll future waker =>
            cases List.mem_singleton.mp hnow
            have hpoll := FutureTable.poll_of_outcome? (h future.id outcome houtcome) waker
            exact congrArg Prod.fst hpoll
        | _ => cases hnow
      · exact ih (h.trans (op.deed ctx).keeps) hlater

/-- Outcomes are there in all turns of a pass. -/
theorem Scheduler.keeps_preserves (table : FutureTable Waker) :
    Thread.workload.Preserves fun log _ ctx =>
      table.Keeps ctx.futures ∧ ∀ turn ∈ log, table.Keeps turn.state.futures := by
  have hturn {log : List (Turn Context Thread)} {ctx : Context} (id : ThreadId) (body : Thread)
      (h : table.Keeps ctx.futures ∧ ∀ turn ∈ log, table.Keeps turn.state.futures) :
      table.Keeps (body.poll id ctx).2.futures
        ∧ ∀ turn ∈ log ++ [⟨id, body, ctx⟩], table.Keeps turn.state.futures :=
    ⟨h.1.trans (body.poll_moves id ctx).keeps,
      List.forall_mem_append.mpr ⟨h.2, List.forall_mem_singleton.mpr h.1⟩⟩
  exact {
    gather := fun h => h
    skip := fun h _ _ => h
    ended := fun h _ _ _ => hturn _ _ h
    pending := fun h _ _ _ => hturn _ _ h }

/-- **A future that has an outcome has it in all turns of a step**, when they start. -/
theorem Execution.outcome?_of_turn {x : Execution} {event : Event} {turn : Turn Context Thread}
    (hturn : turn ∈ x.turns event) {future : FutureId} {outcome : Outcome}
    (houtcome : x.context.futures.outcome? future = some outcome) :
    turn.state.futures.outcome? future = some outcome := by
  rcases x.admitted?_inv event with ⟨hadmitted, -⟩ | ⟨x', hadmitted, haccept, -, -⟩
  · rw [turns, hadmitted] at hturn
    cases hturn
  · rw [turns, hadmitted] at hturn
    have hnone : ∀ turn ∈ ([] : List (Turn Context Thread)),
        x.context.futures.Keeps turn.state.futures :=
      List.forall_mem_nil _
    have hpass := (Scheduler.keeps_preserves x.context.futures).run
      (pollBound x'.scheduler x'.context) (s := x'.scheduler) ⟨keeps_accept haccept, hnone⟩
    exact hpass.2 turn hturn future outcome houtcome

end DurableWorkflow
