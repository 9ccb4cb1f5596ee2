import DurableWorkflow.Scheduler
import Mathlib.Data.List.Nodup

/-!
# The turns of threads

A scheduling pass is a sequence of turns: each time a thread is polled, with what is left of it, in
the state that the threads before it left behind. Between two turns every live thread waits in the
run queue, or it is blocked and is what its last turn left of it. When a pass ends because no thread
can run, all of them are blocked.

A turn that leaves a thread blocked arranges for it to be woken. If nobody undoes what it arranged
without waking the thread, then a thread that is blocked at the end of a pass is one for which what
its last turn arranged still stands. The wakes that the scheduler drops, of threads that are not
blocked, do not matter to that: such a thread has another turn to come.

## Main definitions

* `Turn`, `Turn.Panics`, `Scheduler.turns`, `lastTurn?` — the turns of a pass, and the last one of a
  thread.
* `Workload.Preserves` — what a pass keeps between two turns.
* `Scheduler.Orderly` — all threads that can run wait in the run queue.
* `Workload.Attends`, `Scheduler.Attended` — what turns arranged stands, or the thread is woken.

## Main results

* `Workload.Preserves.run` — a pass keeps what is kept between two turns.
* `Scheduler.run_idle`, `Scheduler.exists_panics_of_run` — how a pass ends.
* `Workload.Preserves.run_ne_exhausted` — a pass that uses something up with each turn ends.
* `Scheduler.attended_preserves` — what was arranged for a blocked thread stands, or it is woken.
-/

namespace DurableWorkflow

variable {σ τ : Type}

/-- A poll of a thread that was made. -/
structure Turn (σ τ : Type) where
  /-- The thread. -/
  thread : ThreadId
  /-- What was left of it. -/
  body : τ
  /-- The state it was polled in. -/
  state : σ

/-- How a turn ended, with the state that it left behind. -/
def Turn.result (w : Workload σ τ) (turn : Turn σ τ) : Poll τ × σ :=
  w.poll turn.thread turn.body turn.state

/-- Whether a turn ended with a panic. -/
def Turn.Panics (w : Workload σ τ) (turn : Turn σ τ) : Prop :=
  ∃ message, (turn.result w).1 = .panicked message

instance (w : Workload σ τ) (turn : Turn σ τ) : Decidable (turn.Panics w) :=
  match h : (turn.result w).1 with
  | .panicked message => .isTrue ⟨message, h⟩
  | .done | .pending _ => .isFalse fun ⟨_, hpanics⟩ => by simp [h] at hpanics

/-- Whether a thread is gone after a turn, because it finished or panicked. -/
def Turn.ends (w : Workload σ τ) (turn : Turn σ τ) : Bool :=
  match (turn.result w).1 with
  | .pending _ => false
  | .done | .panicked _ => true

/-- A thread is gone unless it blocks. -/
theorem Turn.ends_of_ended {w : Workload σ τ} {turn : Turn σ τ}
    (h : ∀ body, (turn.result w).1 ≠ .pending body) : turn.ends w = true := by
  rw [Turn.ends]
  split
  · rename_i body hpending
    exact absurd hpending (h body)
  · rfl
  · rfl

/-- A thread that blocks is not gone. -/
theorem Turn.ends_of_pending {w : Workload σ τ} {turn : Turn σ τ} {body : τ}
    (h : (turn.result w).1 = .pending body) : turn.ends w = false := by
  rw [Turn.ends, h]

/-- The last turn of a thread. -/
def lastTurn? (turns : List (Turn σ τ)) (id : ThreadId) : Option (Turn σ τ) :=
  turns.reverse.find? fun turn => turn.thread = id

/-- A turn is the last one of its thread. -/
theorem lastTurn?_concat_self (turns : List (Turn σ τ)) (turn : Turn σ τ) :
    lastTurn? (turns ++ [turn]) turn.thread = some turn := by
  simp [lastTurn?]

/-- A turn is none of other threads. -/
theorem lastTurn?_concat_of_ne {turn : Turn σ τ} {id : ThreadId} (h : turn.thread ≠ id)
    (turns : List (Turn σ τ)) : lastTurn? (turns ++ [turn]) id = lastTurn? turns id := by
  simp [lastTurn?, h]

/-- The last turn of a thread is one of its turns. -/
theorem lastTurn?_eq_some {turns : List (Turn σ τ)} {id : ThreadId} {turn : Turn σ τ}
    (h : lastTurn? turns id = some turn) : turn ∈ turns ∧ turn.thread = id := by
  refine ⟨List.mem_reverse.mp (List.mem_of_find?_eq_some h), ?_⟩
  simpa using List.find?_some h

namespace Scheduler

/-- The turns that a scheduling pass makes. -/
def turns (w : Workload σ τ) : Nat → Scheduler τ → σ → List (Turn σ τ)
  | 0, _, _ => []
  | polls + 1, s, state =>
    match gather w s state with
    | (s, state) =>
      match s.runQueue with
      | [] => []
      | id :: queue =>
        let s := { s with runQueue := queue }
        match s.get? id with
        | none => turns w polls s state
        | some thread =>
          ⟨id, thread.body, state⟩ :: match w.poll id thread.body state with
            | (.done, state) => turns w polls (s.finish id) state
            | (.pending body, state) => turns w polls (s.block id body) state
            | (.panicked _, _) => []

variable {w : Workload σ τ} {s : Scheduler τ} {a : σ} {id : ThreadId} {queue : List ThreadId}

/-- A pass that ends because no thread can run has taken in all spawned and woken threads. -/
theorem run_idle {polls : Nat} (h : (run w polls s a).1 = .idle) :
    (run w polls s a).2.1.runQueue = []
      ∧ ∃ s' a', (run w polls s a).2 = gather w s' a' := by
  induction polls generalizing s a with
  | zero => cases h
  | succ polls ih =>
      rw [run] at h ⊢
      rcases hgather : gather w s a with ⟨s', a'⟩
      rw [hgather] at h
      dsimp only at h ⊢
      cases hqueue : s'.runQueue with
      | nil => exact ⟨hqueue, s, a, hgather.symm⟩
      | cons id queue =>
          rw [hqueue] at h
          dsimp only at h ⊢
          split at h
          · exact ih h
          · split at h
            · exact ih h
            · exact ih h
            · cases h

/-- A pass that ends with a panic had a turn that panicked. -/
theorem exists_panics_of_run {polls : Nat} {message : String}
    (h : (run w polls s a).1 = .panicked id message) :
    ∃ turn ∈ turns w polls s a, turn.Panics w := by
  induction polls generalizing s a with
  | zero => cases h
  | succ polls ih =>
      rw [run] at h
      rw [turns]
      rcases hgather : gather w s a with ⟨s', a'⟩
      rw [hgather] at h
      dsimp only at h ⊢
      cases hqueue : s'.runQueue with
      | nil =>
          rw [hqueue] at h
          cases h
      | cons other queue =>
          rw [hqueue] at h
          have hsame : get? { s' with runQueue := queue } other = s'.get? other := rfl
          simp only [hsame] at h ⊢
          cases hget : s'.get? other with
          | none =>
              rw [hget] at h
              exact ih h
          | some thread =>
              rw [hget] at h
              rcases hpoll : w.poll other thread.body a' with ⟨_ | body | message', a''⟩ <;>
                simp only [hpoll] at h ⊢
              · obtain ⟨turn, hturn, hpanics⟩ := ih h
                exact ⟨turn, List.mem_cons_of_mem _ hturn, hpanics⟩
              · obtain ⟨turn, hturn, hpanics⟩ := ih h
                exact ⟨turn, List.mem_cons_of_mem _ hturn, hpanics⟩
              · exact ⟨_, List.mem_cons_self, message', congrArg Prod.fst hpoll⟩

end Scheduler

/-! ### What a pass keeps -/

/-- Whether something that can be said between two turns, also of the turns so far, is kept by a
pass. -/
structure Workload.Preserves (w : Workload σ τ)
    (I : List (Turn σ τ) → Scheduler τ → σ → Prop) : Prop where
  /-- Spawned and woken threads are taken in. -/
  gather : ∀ {log s a}, I log s a → I log (s.gather w a).1 (s.gather w a).2
  /-- An entry of the run queue is passed over whose thread has ended. -/
  skip : ∀ {log s a id queue}, I log s a → s.runQueue = id :: queue → s.get? id = none →
    I log { s with runQueue := queue } a
  /-- A thread has a turn and ends, or panics. -/
  ended : ∀ {log s a id queue thread}, I log s a → s.runQueue = id :: queue →
    s.get? id = some thread → (∀ body, (w.poll id thread.body a).1 ≠ .pending body) →
    I (log ++ [⟨id, thread.body, a⟩]) (Scheduler.finish { s with runQueue := queue } id)
      (w.poll id thread.body a).2
  /-- A thread has a turn and blocks. -/
  pending : ∀ {log s a id queue thread body}, I log s a → s.runQueue = id :: queue →
    s.get? id = some thread → (w.poll id thread.body a).1 = .pending body →
    I (log ++ [⟨id, thread.body, a⟩]) (Scheduler.block { s with runQueue := queue } id body)
      (w.poll id thread.body a).2

namespace Workload

variable {w : Workload σ τ} {I : List (Turn σ τ) → Scheduler τ → σ → Prop}

/-- **What is kept between two turns is kept by a pass.** -/
theorem Preserves.run (preserves : w.Preserves I) (polls : Nat) {log : List (Turn σ τ)}
    {s : Scheduler τ} {a : σ} (h : I log s a) :
    I (log ++ s.turns w polls a) (s.run w polls a).2.1 (s.run w polls a).2.2 := by
  induction polls generalizing log s a with
  | zero => simpa [Scheduler.turns, Scheduler.run] using h
  | succ polls ih =>
      have hgathered := preserves.gather h
      rw [Scheduler.turns, Scheduler.run]
      rcases hgather : s.gather w a with ⟨s', a'⟩
      rw [hgather] at hgathered
      dsimp only at hgathered ⊢
      cases hqueue : s'.runQueue with
      | nil => simpa using hgathered
      | cons id queue =>
          have hsame : Scheduler.get? { s' with runQueue := queue } id = s'.get? id := rfl
          simp only [hsame]
          cases hget : s'.get? id with
          | none => exact ih (preserves.skip hgathered hqueue hget)
          | some thread =>
              have hended := preserves.ended hgathered hqueue hget
              have hpending {body : τ} (hbody : (w.poll id thread.body a').1 = .pending body) :=
                preserves.pending hgathered hqueue hget hbody
              rcases hpoll : w.poll id thread.body a' with ⟨_ | body | message, a''⟩ <;>
                rw [hpoll] at hended hpending <;> simp only [hpoll]
              · simpa using ih (hended nofun)
              · simpa using ih (hpending rfl)
              · simpa using hended nofun

/-- **A pass ends by itself** if each turn uses something up, of which there is less than the polls
allowed. -/
theorem Preserves.run_ne_exhausted (preserves : w.Preserves I) {M : Scheduler τ → σ → Nat}
    (gather : ∀ {log s a}, I log s a → M (s.gather w a).1 (s.gather w a).2 ≤ M s a)
    (skip : ∀ {log s a id queue}, I log s a → s.runQueue = id :: queue → s.get? id = none →
      M { s with runQueue := queue } a < M s a)
    (ended : ∀ {log s a id queue thread}, I log s a → s.runQueue = id :: queue →
      s.get? id = some thread → (w.poll id thread.body a).1 = .done →
      M (Scheduler.finish { s with runQueue := queue } id) (w.poll id thread.body a).2 < M s a)
    (pending : ∀ {log s a id queue thread body}, I log s a → s.runQueue = id :: queue →
      s.get? id = some thread → (w.poll id thread.body a).1 = .pending body →
      M (Scheduler.block { s with runQueue := queue } id body) (w.poll id thread.body a).2 < M s a)
    {polls : Nat} (log : List (Turn σ τ)) {s : Scheduler τ} {a : σ} (h : I log s a)
    (hpolls : M s a < polls) : (s.run w polls a).1 ≠ .exhausted := by
  induction polls generalizing log s a with
  | zero => omega
  | succ polls ih =>
      have hgathered := preserves.gather h
      have hless := gather h
      rw [Scheduler.run]
      rcases hgather : s.gather w a with ⟨s', a'⟩
      rw [hgather] at hgathered hless
      dsimp only at hgathered hless ⊢
      cases hqueue : s'.runQueue with
      | nil => simp
      | cons id queue =>
          have hsame : Scheduler.get? { s' with runQueue := queue } id = s'.get? id := rfl
          simp only [hsame]
          cases hget : s'.get? id with
          | none =>
              have hskip := skip hgathered hqueue hget
              exact ih log (preserves.skip hgathered hqueue hget) (by omega)
          | some thread =>
              have hended := preserves.ended hgathered hqueue hget
              have hfewer := ended hgathered hqueue hget
              have hpending {body : τ} (hbody : (w.poll id thread.body a').1 = .pending body) :=
                preserves.pending hgathered hqueue hget hbody
              have hfewer' {body : τ} (hbody : (w.poll id thread.body a').1 = .pending body) :=
                pending hgathered hqueue hget hbody
              rcases hpoll : w.poll id thread.body a' with ⟨_ | body | message, a''⟩ <;>
                rw [hpoll] at hended hfewer hpending hfewer' <;> simp only [hpoll]
              · have hdone := hfewer rfl
                dsimp only at hdone
                exact ih _ (hended nofun) (by omega)
              · have hblock := hfewer' rfl
                dsimp only at hblock
                exact ih _ (hpending rfl) (by omega)
              · simp

end Workload

/-! ### The run queue -/

namespace Scheduler

/-- Collecting wakes leaves the numbers of live threads alone. -/
theorem map_id_collect (s : Scheduler τ) (wakes : List ThreadId) :
    (s.collect wakes).threads.map LiveThread.id = s.threads.map LiveThread.id := by
  rw [collect, List.map_map]
  refine List.map_congr_left fun thread _ => ?_
  rw [Function.comp_apply]
  split <;> rfl

/-- So does the blocking of a thread. -/
theorem map_id_block (s : Scheduler τ) (id : ThreadId) (body : τ) :
    (s.block id body).threads.map LiveThread.id = s.threads.map LiveThread.id := by
  rw [block, List.map_map]
  refine List.map_congr_left fun thread _ => ?_
  rw [Function.comp_apply]
  split
  · rename_i hid
    exact hid.symm
  · rfl

/-- A thread that ended is none of the live ones. -/
theorem map_id_finish (s : Scheduler τ) (id : ThreadId) :
    (s.finish id).threads.map LiveThread.id
      = (s.threads.map LiveThread.id).filter fun other => other ≠ id := by
  rw [finish, List.filter_map]
  rfl

/-- Whether all threads that can run wait in the run queue, and threads have numbers of their own.
-/
structure Orderly (s : Scheduler τ) : Prop where
  /-- No number is given to two threads. -/
  once : (s.threads.map LiveThread.id).Nodup
  /-- Numbers count up. -/
  fresh : ∀ thread ∈ s.threads, thread.id < s.nextThread
  /-- A thread that can run waits in the run queue. -/
  queued : ∀ thread ∈ s.threads, thread.state = .runnable → thread.id ∈ s.runQueue

variable {s : Scheduler τ} {id : ThreadId} {queue : List ThreadId} {thread : LiveThread τ}

/-- Without threads there is nothing to wait for. -/
theorem orderly_empty : (empty : Scheduler τ).Orderly :=
  ⟨List.nodup_nil, nofun, nofun⟩

/-- A thread that is spawned waits. -/
theorem Orderly.spawn (h : s.Orderly) (body : τ) : (s.spawn body).Orderly := by
  refine ⟨?_, ?_, ?_⟩
  · rw [Scheduler.spawn, List.map_append, List.nodup_append]
    refine ⟨h.once, List.nodup_singleton _, ?_⟩
    intro id hid other hother heq
    obtain ⟨thread, hmem, rfl⟩ := List.mem_map.mp hid
    have hnew : other = s.nextThread := List.mem_singleton.mp hother
    exact Nat.ne_of_lt (h.fresh thread hmem) (heq.trans hnew)
  · intro thread hmem
    rcases List.mem_append.mp hmem with hold | hnew
    · have hless := h.fresh thread hold
      exact Nat.lt_succ_of_lt hless
    · cases List.mem_singleton.mp hnew
      exact Nat.lt_succ_self _
  · intro thread hmem hstate
    rcases List.mem_append.mp hmem with hold | hnew
    · exact List.mem_append_left _ (h.queued thread hold hstate)
    · cases List.mem_singleton.mp hnew
      exact List.mem_append_right _ (List.mem_singleton_self _)

/-- The live threads when some were spawned. -/
theorem mem_threads_foldl_spawn {bodies : List τ}
    (h : thread ∈ (bodies.foldl Scheduler.spawn s).threads) :
    thread ∈ s.threads ∨ (thread.state = .runnable ∧ thread.body ∈ bodies) := by
  induction bodies generalizing s with
  | nil => exact .inl h
  | cons body bodies ih =>
      rcases ih h with hmem | ⟨hstate, hbody⟩
      · rcases List.mem_append.mp hmem with hold | hnew
        · exact .inl hold
        · cases List.mem_singleton.mp hnew
          exact .inr ⟨rfl, List.mem_cons_self⟩
      · exact .inr ⟨hstate, List.mem_cons_of_mem _ hbody⟩

/-- Threads that are spawned wait. -/
theorem Orderly.foldl_spawn (h : s.Orderly) (bodies : List τ) :
    (bodies.foldl Scheduler.spawn s).Orderly := by
  induction bodies generalizing s with
  | nil => exact h
  | cons body bodies ih => exact ih (h.spawn body)

/-- Putting a stamped thread in its place loses none. -/
theorem insertStamped_perm (entry : Nat × ThreadId) (entries : List (Nat × ThreadId)) :
    (insertStamped entry entries).Perm (entry :: entries) := by
  induction entries with
  | nil => exact .refl _
  | cons other entries ih =>
      rw [insertStamped]
      split
      · exact .refl _
      · exact (ih.cons other).trans (.swap entry other entries)

/-- Putting stamped threads in order loses none. -/
theorem foldr_insertStamped_perm (entries : List (Nat × ThreadId)) :
    (entries.foldr insertStamped []).Perm entries := by
  induction entries with
  | nil => exact .refl _
  | cons entry entries ih => exact (insertStamped_perm entry _).trans (ih.cons entry)

/-- Which threads are stamped. -/
theorem stampIn_eq_some {wakes : List ThreadId} {entry : Nat × ThreadId}
    (h : stampIn wakes thread = some entry) :
    entry.2 = thread.id ∧ thread.id ∈ wakes ∧ thread.state = .blocked entry.1 := by
  rw [stampIn] at h
  split at h
  · rename_i since hstate
    split at h
    · rename_i hwoken
      cases h
      exact ⟨rfl, hwoken, hstate⟩
    · cases h
  · cases h

/-- A thread that is woken by a collection waits. -/
theorem mem_runQueue_collect {wakes : List ThreadId} {entry : Nat × ThreadId}
    (hmem : thread ∈ s.threads) (h : stampIn wakes thread = some entry) :
    thread.id ∈ (s.collect wakes).runQueue := by
  refine List.mem_append_right _ (List.mem_map.mpr ⟨entry, ?_, (stampIn_eq_some h).1⟩)
  exact (foldr_insertStamped_perm _).mem_iff.mpr (List.mem_filterMap.mpr ⟨thread, hmem, h⟩)

/-- Threads that are woken wait. -/
theorem Orderly.collect (h : s.Orderly) (wakes : List ThreadId) : (s.collect wakes).Orderly := by
  refine ⟨(map_id_collect s wakes).symm ▸ h.once, ?_, ?_⟩
  · intro thread hmem
    obtain ⟨old, hold, rfl⟩ := List.mem_map.mp hmem
    have hless := h.fresh old hold
    split <;> exact hless
  · intro thread hmem hstate
    obtain ⟨old, hold, rfl⟩ := List.mem_map.mp hmem
    cases hstamp : stampIn wakes old with
    | none =>
        simp only [hstamp, Option.isSome_none, Bool.false_eq_true, if_false] at hstate ⊢
        exact List.mem_append_left _ (h.queued old hold hstate)
    | some entry =>
        simp only [Option.isSome_some, if_true]
        exact mem_runQueue_collect hold hstamp

/-- Taking in what happened keeps the run queue right. -/
theorem Orderly.gather (h : s.Orderly) (w : Workload σ τ) (a : σ) :
    (s.gather w a).1.Orderly :=
  (h.foldl_spawn _).collect _

/-- The live threads when spawned and woken ones were taken in. -/
theorem mem_threads_gather {w : Workload σ τ} {a : σ} (h : thread ∈ (s.gather w a).1.threads) :
    (∃ old ∈ s.threads, old.id = thread.id ∧ old.body = thread.body)
      ∨ thread.body ∈ (w.adopt a).1 := by
  obtain ⟨old, hold, rfl⟩ := List.mem_map.mp h
  rcases mem_threads_foldl_spawn hold with hmem | ⟨-, hbody⟩
  · refine .inl ⟨old, hmem, ?_⟩
    split <;> exact ⟨rfl, rfl⟩
  · refine .inr ?_
    split <;> exact hbody

/-- A thread found by its number has it. -/
theorem get?_eq_some (h : s.get? id = some thread) : thread ∈ s.threads ∧ thread.id = id :=
  ⟨List.mem_of_find?_eq_some h, by simpa using List.find?_some h⟩

/-- A thread other than the next one still waits if it can run. -/
theorem Orderly.queued_tail (h : s.Orderly) (hqueue : s.runQueue = id :: queue)
    (hmem : thread ∈ s.threads) (hne : thread.id ≠ id) (hstate : thread.state = .runnable) :
    thread.id ∈ queue := by
  have hqueued := h.queued thread hmem hstate
  rw [hqueue] at hqueued
  exact (List.mem_cons.mp hqueued).resolve_left hne

/-- Passing over a thread that has ended keeps the run queue right. -/
theorem Orderly.skip (h : s.Orderly) (hqueue : s.runQueue = id :: queue)
    (hget : s.get? id = none) : ({ s with runQueue := queue } : Scheduler τ).Orderly := by
  refine ⟨h.once, h.fresh, fun thread hmem hstate => h.queued_tail hqueue hmem ?_ hstate⟩
  simpa using List.find?_eq_none.mp hget thread hmem

/-- A thread that has ended waits no more. -/
theorem Orderly.finish (h : s.Orderly) (hqueue : s.runQueue = id :: queue) :
    (Scheduler.finish { s with runQueue := queue } id).Orderly := by
  refine ⟨(map_id_finish { s with runQueue := queue } id).symm ▸ h.once.filter _, ?_, ?_⟩
  · intro thread hmem
    exact h.fresh thread (List.mem_filter.mp hmem).1
  · intro thread hmem hstate
    obtain ⟨hold, hne⟩ := List.mem_filter.mp hmem
    exact h.queued_tail hqueue hold (by simpa using hne) hstate

/-- The live threads when one has blocked. -/
theorem mem_threads_block {body : τ} (hmem : thread ∈ (s.block id body).threads) :
    (thread = ⟨id, .blocked s.blockClock, body⟩ ∧ ∃ old ∈ s.threads, old.id = id)
      ∨ (thread ∈ s.threads ∧ thread.id ≠ id) := by
  obtain ⟨old, hold, rfl⟩ := List.mem_map.mp hmem
  split
  · rename_i hid
    exact .inl ⟨rfl, old, hold, hid⟩
  · rename_i hid
    exact .inr ⟨hold, hid⟩

/-- A thread that has blocked waits no more. -/
theorem Orderly.block (h : s.Orderly) (hqueue : s.runQueue = id :: queue) (body : τ) :
    (Scheduler.block { s with runQueue := queue } id body).Orderly := by
  refine ⟨(map_id_block { s with runQueue := queue } id body).symm ▸ h.once, ?_, ?_⟩
  · intro thread hmem
    rcases mem_threads_block hmem with ⟨rfl, old, hold, rfl⟩ | ⟨hold, -⟩
    · exact h.fresh old hold
    · exact h.fresh thread hold
  · intro thread hmem hstate
    rcases mem_threads_block hmem with ⟨rfl, -⟩ | ⟨hold, hne⟩
    · cases hstate
    · exact h.queued_tail hqueue hold hne hstate

/-- Without a run queue all threads are blocked. -/
theorem Orderly.blocked (h : s.Orderly) (hqueue : s.runQueue = []) (hmem : thread ∈ s.threads) :
    ∃ since, thread.state = .blocked since := by
  cases hstate : thread.state with
  | blocked since => exact ⟨since, rfl⟩
  | runnable =>
      have hqueued := h.queued thread hmem hstate
      rw [hqueue] at hqueued
      cases hqueued

end Scheduler

/-! ### Blocked threads -/

/-- Whether what a turn arranged stays until its thread is woken: each turn of another thread, and
each taking in of spawned threads and wakes, leaves it alone or wakes the thread. -/
structure Workload.Attends (w : Workload σ τ) (Q : Turn σ τ → σ → Prop) : Prop where
  /-- Taking the spawned threads leaves it alone. -/
  adopt : ∀ {turn a}, Q turn a → Q turn (w.adopt a).2
  /-- Taking the spawned threads drops no wake. -/
  woken : ∀ {id a}, id ∈ (w.wakes a).1 → id ∈ (w.wakes (w.adopt a).2).1
  /-- Taking the wakes leaves it alone. -/
  wakes : ∀ {turn a}, Q turn a → Q turn (w.wakes a).2
  /-- A turn leaves alone what others arranged, or wakes them. -/
  others : ∀ {turn a} (id : ThreadId) (body : τ), Q turn a ∨ turn.thread ∈ (w.wakes a).1 →
    Q turn (w.poll id body a).2 ∨ turn.thread ∈ (w.wakes (w.poll id body a).2).1
  /-- A turn that leaves its thread blocked arranges for it to be woken, or wakes it. -/
  own : ∀ {turn : Turn σ τ} {body}, (turn.result w).1 = .pending body →
    Q turn (turn.result w).2 ∨ turn.thread ∈ (w.wakes (turn.result w).2).1

namespace Scheduler

/-- Whether every blocked thread is what its last turn left, and what that arranged stands unless
the thread was woken. -/
def Attended (w : Workload σ τ) (Q : Turn σ τ → σ → Prop) (log : List (Turn σ τ))
    (s : Scheduler τ) (a : σ) : Prop :=
  ∀ thread ∈ s.threads, ∀ since, thread.state = .blocked since →
    ∃ turn, lastTurn? log thread.id = some turn ∧ (turn.result w).1 = .pending thread.body
      ∧ (Q turn a ∨ turn.thread ∈ (w.wakes a).1)

variable {w : Workload σ τ} {Q : Turn σ τ → σ → Prop} {log : List (Turn σ τ)}
  {s : Scheduler τ} {a : σ} {id : ThreadId} {queue : List ThreadId}

/-- Threads that are spawned are not blocked. -/
theorem Attended.foldl_spawn (h : Attended w Q log s a) (bodies : List τ) :
    Attended w Q log (bodies.foldl Scheduler.spawn s) a := by
  intro thread hmem since hstate
  rcases mem_threads_foldl_spawn hmem with hold | ⟨hnew, -⟩
  · exact h thread hold since hstate
  · rw [hnew] at hstate
    cases hstate

/-- Once wakes are taken, what was arranged for the threads that are still blocked stands. -/
theorem Attended.gather (attends : w.Attends Q) (h : Attended w Q log s a) :
    ∀ thread ∈ (s.gather w a).1.threads, ∀ since, thread.state = .blocked since →
      ∃ turn, lastTurn? log thread.id = some turn ∧ (turn.result w).1 = .pending thread.body
        ∧ Q turn (s.gather w a).2 := by
  intro thread hmem since hstate
  obtain ⟨old, hold, rfl⟩ := List.mem_map.mp hmem
  cases hstamp : stampIn (w.wakes (w.adopt a).2).1 old with
  | some entry =>
      simp only [hstamp, Option.isSome_some, if_true] at hstate
      cases hstate
  | none =>
      simp only [hstamp, Option.isSome_none, Bool.false_eq_true, if_false] at hstate ⊢
      have hadopted : Attended w Q log ((w.adopt a).1.foldl Scheduler.spawn s) a :=
        h.foldl_spawn _
      obtain ⟨turn, hlast, hresult, harranged⟩ := hadopted old hold since hstate
      -- A wake of this thread would not have been dropped, because the thread is blocked.
      have hasleep : turn.thread ∉ (w.wakes a).1 := by
        intro hwoken
        have hthread := (lastTurn?_eq_some hlast).2
        have hwoken' := attends.woken hwoken
        rw [hthread] at hwoken'
        simp [stampIn, hstate, hwoken'] at hstamp
      exact ⟨turn, hlast, hresult, attends.wakes (attends.adopt (harranged.resolve_right hasleep))⟩

/-- Where a thread other than the one that has its turn is blocked, it still is. -/
theorem Attended.others (attends : w.Attends Q) (h : Attended w Q log s a) {body : τ}
    {thread : LiveThread τ} (hmem : thread ∈ s.threads) (hne : thread.id ≠ id) {since : Nat}
    (hstate : thread.state = .blocked since) :
    ∃ turn, lastTurn? (log ++ [⟨id, body, a⟩]) thread.id = some turn
      ∧ (turn.result w).1 = .pending thread.body
      ∧ (Q turn (w.poll id body a).2 ∨ turn.thread ∈ (w.wakes (w.poll id body a).2).1) := by
  obtain ⟨turn, hlast, hresult, harranged⟩ := h thread hmem since hstate
  refine ⟨turn, ?_, hresult, attends.others id body harranged⟩
  rw [lastTurn?_concat_of_ne (Ne.symm hne)]
  exact hlast

/-- **What was arranged for blocked threads stands between two turns**, unless they were woken. -/
theorem attended_preserves (attends : w.Attends Q) :
    w.Preserves fun log s a => s.Orderly ∧ Attended w Q log s a where
  gather h := by
    refine ⟨h.1.gather w _, ?_⟩
    intro thread hmem since hstate
    obtain ⟨turn, hlast, hresult, harranged⟩ := h.2.gather attends thread hmem since hstate
    exact ⟨turn, hlast, hresult, .inl harranged⟩
  skip h hqueue hget := ⟨h.1.skip hqueue hget, h.2⟩
  ended h hqueue hget _ := by
    refine ⟨h.1.finish hqueue, ?_⟩
    intro thread hmem since hstate
    obtain ⟨hold, hne⟩ := List.mem_filter.mp hmem
    exact h.2.others attends hold (by simpa using hne) hstate
  pending := by
    intro log s a id queue thread body h hqueue hget hbody
    refine ⟨h.1.block hqueue body, ?_⟩
    intro thread' hmem since hstate
    rcases mem_threads_block hmem with ⟨rfl, -⟩ | ⟨hold, hne⟩
    · exact ⟨⟨id, thread.body, a⟩, lastTurn?_concat_self log _, hbody, attends.own hbody⟩
    · exact h.2.others attends hold hne hstate

end Scheduler

end DurableWorkflow
