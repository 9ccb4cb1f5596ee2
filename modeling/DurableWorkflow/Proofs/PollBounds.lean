import DurableWorkflow.Proofs.Conduct
import DurableWorkflow.Proofs.Turns
import Mathlib.Tactic.Ring

/-!
# A pass ends by itself

The polls of a scheduling pass are bounded by what is left to execute. A turn of a thread executes
statements, or the thread ends, and then there is less left; or what the thread waits for is not
there yet, and then nothing changes but that an entry of the run queue is used up. Entries come from
spawned threads and from wakes that find their thread blocked, and these are never more than there
are threads, of which each has something left to execute. So the square of what is left bounds all
entries that are still to come.

## Main definitions

* `Context.spawnedWeight`, `Scheduler.weight` — what is left of spawned and of live threads.
* `Scheduler.due` — the live threads that were woken.
* `Scheduler.work` — what a pass uses up.

## Main results

* `Thread.advance_weight`, `Thread.poll_weight` — what a turn of a thread leaves.
* `Execution.run_ne_exhausted` — the polls allowed suffice.
-/

namespace DurableWorkflow

/-! ### What is left to execute -/

/-- What is left of threads that were spawned and not adopted yet. -/
def Context.spawnedWeight (ctx : Context) : Nat :=
  (ctx.spawned.map Thread.weight).sum

namespace Thread

/-- What is left of a thread where it stopped. -/
def haltWeight : Halt → Nat
  | .waiting _ _ _ rest => 1 + Statement.listWeight rest
  | _ => 0

/-- An action spawns no thread, and it waits where it stands. -/
theorem perform_weight {action : Action} {waker : Waker} {vars : Variables}
    {ctx ctx' : Context} {progress : Progress}
    (hperform : action.perform waker vars ctx = (progress, ctx')) :
    ctx'.spawnedWeight = ctx.spawnedWeight := by
  have hspawned := (action.perform_acts waker vars ctx).spawned
  rw [hperform] at hspawned
  rw [Context.spawnedWeight, Context.spawnedWeight, hspawned]

/-- A thread that is spawned has its statements left. -/
theorem spawnedWeight_spawn {vars : Variables} {steps : List Statement} {ctx ctx' : Context}
    {future : FutureRef} (h : ctx.spawn vars steps = (future, ctx')) :
    ctx'.spawnedWeight = ctx.spawnedWeight + (1 + Statement.listWeight steps) := by
  cases h
  simp [Context.spawnedWeight, Thread.weight]

/-- Where an action that has ended stops a thread, nothing is left. -/
theorem haltWeight_of_ready {reply : Reply} {which : Option (String × Nat)} {binding : Binding}
    {vars : Variables} {rest : List Statement} {halt : Halt}
    (h : Progress.settle (.ready reply which) binding vars rest = .error halt) :
    haltWeight halt = 0 := by
  cases reply <;> simp only [Progress.settle, Binding.settle] at h <;>
    first | cases h | (split at h <;> cases h)
  all_goals rfl

/-- Where an action stops a thread, what is left are the statements after it, at most. -/
theorem haltWeight_of_settle {progress : Progress} {binding : Binding} {vars : Variables}
    {rest : List Statement} {halt : Halt} (h : progress.settle binding vars rest = .error halt) :
    haltWeight halt ≤ 1 + Statement.listWeight rest := by
  cases progress with
  | waiting wait =>
      cases h
      exact Nat.le_refl _
  | ready reply which =>
      rw [haltWeight_of_ready h]
      exact Nat.zero_le _

/-- **Executing statements uses them up**, but for those that are left or spawned. -/
theorem advance_weight (waker : Waker) (vars : Variables) (ctx : Context)
    (steps : List Statement) :
    (advance waker vars ctx steps).2.spawnedWeight + haltWeight (advance waker vars ctx steps).1
      ≤ ctx.spawnedWeight + Statement.listWeight steps := by
  induction vars, ctx, steps using advance.induct waker with
  | case1 vars ctx =>
      rw [advance]
      exact Nat.le_add_right _ _
  | case2 vars ctx action binding rest progress ctx' hperform vars' hsettle ih =>
      have hsame := perform_weight hperform
      simp only [advance, hperform, hsettle, Statement.listWeight, Statement.weight]
      omega
  | case3 vars ctx action binding rest progress ctx' hperform halt hsettle =>
      have hsame := perform_weight hperform
      have hhalt := haltWeight_of_settle hsettle
      simp only [advance, hperform, hsettle, Statement.listWeight, Statement.weight]
      omega
  | case4 vars ctx steps rest future ctx' hspawn name ih =>
      have hspawned := spawnedWeight_spawn hspawn
      simp only [advance, hspawn, Statement.listWeight, Statement.weight]
      omega
  | case5 vars ctx steps rest future ctx' hspawn ih =>
      have hspawned := spawnedWeight_spawn hspawn
      simp only [advance, hspawn, Statement.listWeight, Statement.weight]
      omega
  | case6 vars ctx condition yes no rest hholds ih
  | case7 vars ctx condition yes no rest hholds ih =>
      rw [Statement.listWeight_append] at ih
      simp only [advance, hholds, Statement.listWeight, Statement.weight]
      omega
  | case8 vars ctx condition yes no rest hholds =>
      simp only [advance, hholds, haltWeight]
      omega
  | case9 vars ctx steps rest ih =>
      simp only [advance, Statement.listWeight, Statement.weight]
      omega
  | case10 vars ctx times steps rest ih =>
      simp only [Statement.listWeight_append, Statement.listWeight, Statement.weight] at ih
      simp only [advance, Statement.listWeight, Statement.weight, Nat.succ_mul]
      omega

/-- What a thread leaves when it goes on: less than there was, but for the thread itself, or the
same, if what it waits for is not there yet. -/
theorem resume_weight (waker : Waker) (ctx : Context) (thread : Thread) :
    (thread.resume waker ctx).2.spawnedWeight + haltWeight (thread.resume waker ctx).1
        ≤ ctx.spawnedWeight + Statement.listWeight thread.rest
      ∨ (haltWeight (thread.resume waker ctx).1 = thread.weight
        ∧ (thread.resume waker ctx).2.spawned = ctx.spawned
        ∧ (thread.resume waker ctx).2.woken = ctx.woken) := by
  cases hwaiting : thread.waiting with
  | none =>
      simp only [resume, hwaiting]
      exact .inl (advance_weight waker thread.bindings ctx thread.rest)
  | some waiting =>
      obtain ⟨wait, binding⟩ := waiting
      obtain ⟨futures, hasks⟩ := (Wait.attempt_asks waker ctx wait).eq
      rcases hattempt : wait.attempt waker ctx with ⟨progress, ctx'⟩
      rw [hattempt] at hasks
      obtain rfl : ctx' = { ctx with futures } := hasks
      simp only [resume, hwaiting, hattempt]
      cases hsettle : progress.settle binding thread.bindings thread.rest with
      | ok vars => exact .inl (advance_weight waker vars { ctx with futures } thread.rest)
      | error halt =>
          cases progress with
          | waiting wait' =>
              cases hsettle
              exact .inr ⟨rfl, rfl, rfl⟩
          | ready reply which =>
              refine .inl ?_
              rw [haltWeight_of_ready hsettle]
              exact Nat.le_add_right _ _

/-- **What a turn of a thread leaves**, if the thread ends: less than there was. -/
theorem poll_done_weight {id : ThreadId} {thread : Thread} {ctx : Context}
    (h : (thread.poll id ctx).1 = .done) :
    (thread.poll id ctx).2.spawnedWeight < ctx.spawnedWeight + thread.weight := by
  have hresumed := resume_weight (.thread id) ctx thread
  rw [poll] at h ⊢
  rcases hresume : thread.resume (.thread id) ctx with ⟨⟨vars, result⟩ | _ | _, ctx'⟩ <;>
    rw [hresume] at h hresumed <;> cases h
  have hconclude (outcome : Outcome) :
      (conclude thread.role outcome ctx').spawnedWeight = ctx'.spawnedWeight := by
    obtain ⟨futures, woken, mainResult, heq⟩ := ctx'.conclude_eq thread.role outcome
    rw [heq]
    rfl
  simp only [hconclude]
  simp only [haltWeight, Thread.weight] at hresumed ⊢
  omega

/-- **What a turn of a thread leaves**, if the thread blocks: less than there was, or the same, and
then nobody was spawned or woken. -/
theorem poll_pending_weight {id : ThreadId} {thread body : Thread} {ctx : Context}
    (h : (thread.poll id ctx).1 = .pending body) :
    (thread.poll id ctx).2.spawnedWeight + body.weight < ctx.spawnedWeight + thread.weight
      ∨ (body.weight = thread.weight ∧ (thread.poll id ctx).2.spawned = ctx.spawned
        ∧ (thread.poll id ctx).2.woken = ctx.woken) := by
  have hresumed := resume_weight (.thread id) ctx thread
  rw [poll] at h ⊢
  rcases hresume : thread.resume (.thread id) ctx with
    ⟨_ | _ | ⟨vars, wait, binding, rest⟩, ctx'⟩ <;> rw [hresume] at h hresumed <;> cases h
  rcases hresumed with hless | hsame
  · refine .inl ?_
    simp only [haltWeight, Thread.weight] at hless ⊢
    omega
  · exact .inr hsame

end Thread

/-! ### What a pass uses up -/

namespace Scheduler

variable {s : Scheduler Thread} {ctx : Context} {id : ThreadId} {queue : List ThreadId}
  {thread : LiveThread Thread}

/-- What is left of the live threads. -/
def weight (s : Scheduler Thread) : Nat :=
  (s.threads.map fun thread => thread.body.weight).sum

/-- How many live threads were woken. -/
def due (s : Scheduler Thread) (woken : List ThreadId) : Nat :=
  s.threads.countP fun thread => thread.id ∈ woken

/-- What a pass uses up: the entries that are there and those that may still come. -/
def work (s : Scheduler Thread) (ctx : Context) : Nat :=
  (s.weight + ctx.spawnedWeight) * (s.weight + ctx.spawnedWeight) + s.runQueue.length
    + ctx.spawned.length + s.due ctx.woken

/-- Each thread has something left. -/
theorem length_le_sum_weight (threads : List Thread) :
    threads.length ≤ (threads.map Thread.weight).sum := by
  induction threads with
  | nil => exact Nat.le_refl _
  | cons thread threads ih =>
      simp only [List.length_cons, List.map_cons, List.sum_cons, Thread.weight] at ih ⊢
      omega

/-- There are no more threads than is left to execute. -/
theorem due_le_weight (s : Scheduler Thread) (woken : List ThreadId) : s.due woken ≤ s.weight := by
  have hlength := length_le_sum_weight (s.threads.map LiveThread.body)
  rw [List.length_map, List.map_map] at hlength
  exact Nat.le_trans List.countP_le_length hlength

/-- With less to execute there is less to use up, whoever was spawned and woken meanwhile. -/
theorem work_lt_of_weight_lt {s' : Scheduler Thread} {ctx' : Context}
    (hweight : s'.weight + ctx'.spawnedWeight < s.weight + ctx.spawnedWeight)
    (hqueue : s'.runQueue.length ≤ s.runQueue.length) : s'.work ctx' < s.work ctx := by
  have hspawned : ctx'.spawned.length ≤ ctx'.spawnedWeight := length_le_sum_weight ctx'.spawned
  have hdue := s'.due_le_weight ctx'.woken
  have hsquare {left whole : Nat} (h : left < whole) :
      left * left + 2 * left + 1 ≤ whole * whole := by
    calc
      left * left + 2 * left + 1 = (left + 1) * (left + 1) := by ring
      _ ≤ whole * whole := Nat.mul_le_mul h h
  have hroom := hsquare hweight
  simp only [work]
  omega

/-- With an entry less, and otherwise the same, there is less to use up. -/
theorem work_lt_of_queue_lt {s' : Scheduler Thread} {ctx' : Context}
    (hweight : s'.weight = s.weight) (hdue : s'.due ctx.woken = s.due ctx.woken)
    (hspawned : ctx'.spawned = ctx.spawned) (hwoken : ctx'.woken = ctx.woken)
    (hqueue : s'.runQueue.length < s.runQueue.length) : s'.work ctx' < s.work ctx := by
  have hleft : ctx'.spawnedWeight = ctx.spawnedWeight := by
    rw [Context.spawnedWeight, Context.spawnedWeight, hspawned]
  simp only [work, hweight, hleft, hspawned, hwoken, hdue]
  omega

/-! ### Turns -/

/-- A thread that is found stands alone among the others. -/
theorem split_threads (once : (s.threads.map LiveThread.id).Nodup)
    (hget : s.get? id = some thread) :
    ∃ before after, s.threads = before ++ thread :: after ∧ thread.id = id
      ∧ (∀ other ∈ before, other.id ≠ id) ∧ ∀ other ∈ after, other.id ≠ id := by
  obtain ⟨hmem, rfl⟩ := get?_eq_some hget
  obtain ⟨before, after, hthreads⟩ := List.append_of_mem hmem
  rw [hthreads, List.map_append, List.map_cons, List.nodup_append, List.nodup_cons] at once
  obtain ⟨-, ⟨hafter, -⟩, hbefore⟩ := once
  refine ⟨before, after, hthreads, rfl, ?_, ?_⟩
  · intro other hother
    exact hbefore other.id (List.mem_map_of_mem hother) thread.id List.mem_cons_self
  · intro other hother heq
    exact hafter (heq ▸ List.mem_map_of_mem hother)

/-- What is left of the other threads when one has ended. -/
theorem weight_finish (once : (s.threads.map LiveThread.id).Nodup)
    (hget : s.get? id = some thread) :
    (s.finish id).weight + thread.body.weight = s.weight := by
  obtain ⟨before, after, hthreads, hid, hbefore, hafter⟩ := split_threads once hget
  have hothers : (s.finish id).threads = before ++ after := by
    rw [finish, hthreads, List.filter_append, List.filter_cons, if_neg (by simp [hid]),
      List.filter_eq_self.mpr (by simpa using hbefore),
      List.filter_eq_self.mpr (by simpa using hafter)]
  simp only [weight, hothers, hthreads, List.map_append, List.map_cons, List.sum_append,
    List.sum_cons]
  omega

/-- What is left of all threads when one has blocked. -/
theorem weight_block (once : (s.threads.map LiveThread.id).Nodup)
    (hget : s.get? id = some thread) (body : Thread) :
    (s.block id body).weight + thread.body.weight = s.weight + body.weight := by
  obtain ⟨before, after, hthreads, hid, hbefore, hafter⟩ := split_threads once hget
  have hsame {others : List (LiveThread Thread)} (hother : ∀ other ∈ others, other.id ≠ id) :
      others.map (fun other => if other.id = id then ⟨id, .blocked s.blockClock, body⟩ else other)
        = others :=
    (List.map_congr_left fun other hmem => if_neg (hother other hmem)).trans (List.map_id' others)
  have hothers : (s.block id body).threads
      = before ++ ⟨id, .blocked s.blockClock, body⟩ :: after := by
    rw [block, hthreads, List.map_append, List.map_cons, if_pos hid, hsame hbefore, hsame hafter]
  simp only [weight, hothers, hthreads, List.map_append, List.map_cons, List.sum_append,
    List.sum_cons]
  omega

/-- Blocking a thread wakes none. -/
theorem due_block (s : Scheduler Thread) (id : ThreadId) (body : Thread) (woken : List ThreadId) :
    (s.block id body).due woken = s.due woken := by
  rw [due, block, List.countP_map, due]
  congr 1
  funext thread
  simp only [Function.comp]
  split
  · rename_i hid
    rw [hid]
  · rfl

/-! ### Taking in -/

/-- Threads that are spawned have an entry each. -/
theorem foldl_spawn_eq (s : Scheduler Thread) (bodies : List Thread) (wakes : List ThreadId) :
    (bodies.foldl spawn s).weight = s.weight + (bodies.map Thread.weight).sum
      ∧ (bodies.foldl spawn s).runQueue.length = s.runQueue.length + bodies.length
      ∧ (bodies.foldl spawn s).threads.filterMap (stampIn wakes)
        = s.threads.filterMap (stampIn wakes) := by
  induction bodies generalizing s with
  | nil => exact ⟨rfl, rfl, rfl⟩
  | cons body bodies ih =>
      obtain ⟨hweight, hqueue, hstamped⟩ := ih (s.spawn body)
      refine ⟨hweight.trans ?_, hqueue.trans ?_, hstamped.trans ?_⟩
      · simp [weight, spawn]
        omega
      · simp [spawn]
        omega
      · simp [spawn, stampIn]

/-- Threads that are woken have an entry each. -/
theorem collect_eq (s : Scheduler Thread) (wakes : List ThreadId) :
    (s.collect wakes).weight = s.weight
      ∧ (s.collect wakes).runQueue.length
        = s.runQueue.length + (s.threads.filterMap (stampIn wakes)).length := by
  constructor
  · rw [weight, collect, List.map_map, weight]
    congr 1
    refine List.map_congr_left fun thread _ => ?_
    simp only [Function.comp]
    split <;> rfl
  · rw [collect, List.length_append, List.length_map, (foldr_insertStamped_perm _).length_eq]

/-- Threads that are stamped were woken. -/
theorem length_stamped_le (s : Scheduler Thread) (wakes : List ThreadId) :
    (s.threads.filterMap (stampIn wakes)).length ≤ s.due wakes := by
  rw [due]
  induction s.threads with
  | nil => exact Nat.le_refl _
  | cons thread threads ih =>
      rw [List.filterMap_cons, List.countP_cons]
      cases hstamp : stampIn wakes thread with
      | none => exact Nat.le_trans ih (Nat.le_add_right _ _)
      | some entry =>
          obtain ⟨-, hwoken, -⟩ := stampIn_eq_some hstamp
          simp only [List.length_cons, hwoken, decide_true, if_true]
          omega

/-- Taking in spawned and woken threads uses up what is counted for them. -/
theorem work_gather (s : Scheduler Thread) (ctx : Context) :
    (s.gather Thread.workload ctx).1.work (s.gather Thread.workload ctx).2 ≤ s.work ctx := by
  obtain ⟨hweight, hqueue, hstamped⟩ := foldl_spawn_eq s ctx.spawned ctx.woken
  obtain ⟨hweight', hqueue'⟩ := (ctx.spawned.foldl spawn s).collect_eq ctx.woken
  have hwoken := s.length_stamped_le ctx.woken
  have hnone (s : Scheduler Thread) : s.due [] = 0 := by simp [due]
  simp only [gather, Thread.workload, work, hnone, Context.spawnedWeight, List.map_nil,
    List.sum_nil, List.length_nil]
  rw [hweight', hqueue', hweight, hqueue, hstamped]
  simp only [Nat.add_zero]
  omega

/-! ### Passes -/

/-- Order is kept between two turns. -/
theorem orderly_preserves :
    Thread.workload.Preserves fun _ (s : Scheduler Thread) _ => s.Orderly where
  gather h := h.gather _ _
  skip h hqueue hget := h.skip hqueue hget
  ended h hqueue _ _ := h.finish hqueue
  pending h hqueue _ _ := h.block hqueue _

/-- A pass keeps the order. -/
theorem Orderly.run (h : s.Orderly) (polls : Nat) (ctx : Context) :
    (s.run Thread.workload polls ctx).2.1.Orderly :=
  @Workload.Preserves.run _ _ _ _ orderly_preserves polls [] s ctx h

/-- A turn after which its thread ends uses something up. -/
theorem work_finish (h : s.Orderly) (hqueue : s.runQueue = id :: queue)
    (hget : s.get? id = some thread) (hdone : (thread.body.poll id ctx).1 = .done) :
    (finish { s with runQueue := queue } id).work (thread.body.poll id ctx).2 < s.work ctx := by
  have hturn := Thread.poll_done_weight hdone
  have hrest : (finish { s with runQueue := queue } id).weight + thread.body.weight = s.weight :=
    weight_finish h.once hget
  refine work_lt_of_weight_lt (by omega) ?_
  rw [hqueue]
  exact Nat.le_succ _

/-- A turn after which its thread blocks uses something up. -/
theorem work_block {body : Thread} (h : s.Orderly) (hqueue : s.runQueue = id :: queue)
    (hget : s.get? id = some thread)
    (hpending : (thread.body.poll id ctx).1 = .pending body) :
    (block { s with runQueue := queue } id body).work (thread.body.poll id ctx).2
      < s.work ctx := by
  have hrest : (block { s with runQueue := queue } id body).weight + thread.body.weight
      = s.weight + body.weight := weight_block h.once hget body
  rcases Thread.poll_pending_weight hpending with hturn | ⟨hbody, hspawned, hwoken⟩
  · refine work_lt_of_weight_lt (by omega) ?_
    rw [hqueue]
    exact Nat.le_succ _
  · refine work_lt_of_queue_lt (by omega) (due_block _ id body ctx.woken) hspawned hwoken ?_
    rw [hqueue]
    exact Nat.lt_succ_self _

/-- **A pass ends by itself** before the polls allowed are used up. -/
theorem Orderly.run_ne_exhausted (h : s.Orderly) {polls : Nat} (hpolls : s.work ctx < polls) :
    (s.run Thread.workload polls ctx).1 ≠ .exhausted := by
  refine orderly_preserves.run_ne_exhausted (fun _ => work_gather _ _) ?_ work_finish work_block
    [] h hpolls
  intro _ s ctx id queue _ hqueue _
  exact work_lt_of_queue_lt rfl rfl rfl rfl (by simp [hqueue])

end Scheduler

namespace Execution

/-- The polls allowed are more than a pass can use up. -/
theorem work_lt_pollBound (scheduler : Scheduler Thread) (ctx : Context) :
    scheduler.work ctx < pollBound scheduler ctx := by
  have hlive : scheduler.threads.foldr (fun thread total => thread.body.weight + total) 0
      = scheduler.weight := by
    rw [Scheduler.weight, List.sum_eq_foldr, List.foldr_map]
  have hspawned (live : Nat) (threads : List Thread) :
      threads.foldr (fun thread total => thread.weight + total) live
        = live + (threads.map Thread.weight).sum := by
    induction threads with
    | nil => rfl
    | cons thread threads ih =>
        simp only [List.foldr_cons, List.map_cons, List.sum_cons, ih]
        omega
  have hdue := scheduler.due_le_weight ctx.woken
  have hlength := Scheduler.length_le_sum_weight ctx.spawned
  rw [pollBound, hlive]
  simp only [hspawned, Scheduler.work, Context.spawnedWeight]
  generalize hleft : (ctx.spawned.map Thread.weight).sum = left at hlength ⊢
  have hsquare (whole : Nat) : (whole + 3) * (whole + 3) = whole * whole + 6 * whole + 9 := by ring
  rw [hsquare]
  omega

/-- **Letting the threads of an execution run ends by itself**: no thread can run, or one panicked.
-/
theorem run_ne_exhausted {x : Execution} (h : x.scheduler.Orderly) :
    (x.scheduler.run Thread.workload (pollBound x.scheduler x.context) x.context).1
      ≠ .exhausted :=
  h.run_ne_exhausted (work_lt_pollBound x.scheduler x.context)

end Execution

end DurableWorkflow
