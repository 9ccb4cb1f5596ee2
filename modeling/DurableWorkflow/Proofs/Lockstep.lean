import DurableWorkflow.Proofs.SchedulerRuns

/-!
# Schedulers in lockstep

Two schedulers whose threads differ but belong together one by one. Looked at from either side they
are one scheduler of pairs, and all that a scheduler does with its threads between two polls leaves
the pairs together. If the polls do so too, and wake the same threads, then the two schedulers take
the same turns for as long as they run.

## Main definitions

* `Poll.map`, `Scheduler.map` — a poll and a scheduler with something else left of their threads.
* `Workload.Lockstep` — what polls keep between the states and the threads of two workloads.

## Main results

* `Scheduler.run_lockstep` — paired threads run in the same way.
* `Scheduler.run_of_le` — a run that ended by itself needs no more polls.
-/

namespace DurableWorkflow

variable {σ σ' τ τ' : Type}

/-- How a poll ended, with something else left of the thread. -/
def Poll.map (f : τ → τ') : Poll τ → Poll τ'
  | .done => .done
  | .pending body => .pending (f body)
  | .panicked message => .panicked message

/-- Threads of two workloads in pairs with a property that is kept, on related states: on both sides
the threads of a pair are adopted together, are woken together and end their polls alike. -/
structure Workload.Lockstep (w : Workload σ τ) (w' : Workload σ' τ') (T : τ × τ' → Prop)
    (R : σ → σ' → Prop) : Prop where
  /-- Threads are adopted in pairs. -/
  adopt : ∀ {a b}, R a b → ∃ (pairs : List (τ × τ')) (a' : σ) (b' : σ'),
    w.adopt a = (pairs.map Prod.fst, a') ∧ w'.adopt b = (pairs.map Prod.snd, b')
      ∧ (∀ pair ∈ pairs, T pair) ∧ R a' b'
  /-- The same wakes are collected. -/
  wakes : ∀ {a b}, R a b → ∃ (woken : List ThreadId) (a' : σ) (b' : σ'),
    w.wakes a = (woken, a') ∧ w'.wakes b = (woken, b') ∧ R a' b'
  /-- Polls end alike, and what is left of two threads is a pair again. -/
  poll : ∀ {a b} (id : ThreadId) {pair}, T pair → R a b →
    ∃ (result : Poll (τ × τ')) (a' : σ) (b' : σ'),
      w.poll id pair.1 a = (result.map Prod.fst, a')
        ∧ w'.poll id pair.2 b = (result.map Prod.snd, b')
        ∧ (∀ pair', result = .pending pair' → T pair') ∧ R a' b'

namespace Scheduler

/-- The same threads with something else left of each. -/
def map (f : τ → τ') (s : Scheduler τ) : Scheduler τ' where
  threads := s.threads.map fun thread => ⟨thread.id, thread.state, f thread.body⟩
  completed := s.completed
  runQueue := s.runQueue
  nextThread := s.nextThread
  blockClock := s.blockClock

section Map

variable (f : τ → τ') (s : Scheduler τ)

/-- Spawning a thread commutes with `map`. -/
theorem spawn_map (body : τ) : (s.map f).spawn (f body) = (s.spawn body).map f := by
  simp [spawn, map]

/-- Spawning threads commutes with `map`. -/
theorem foldl_spawn_map (bodies : List τ) :
    (bodies.map f).foldl spawn (s.map f) = (bodies.foldl spawn s).map f := by
  induction bodies generalizing s with
  | nil => rfl
  | cons body bodies ih => rw [List.map_cons, List.foldl_cons, spawn_map, ih, List.foldl_cons]

/-- Waking threads commutes with `map`. -/
theorem collect_map (wakes : List ThreadId) :
    (s.map f).collect wakes = (s.collect wakes).map f := by
  have hstamp (thread : LiveThread τ) :
      stampIn wakes ⟨thread.id, thread.state, f thread.body⟩ = stampIn wakes thread := rfl
  simp only [collect, map, List.filterMap_map, List.map_map, Function.comp_def, hstamp]
  congr 2
  funext thread
  split <;> rfl

/-- The run queue does not depend on what is left of the threads. -/
@[simp] theorem runQueue_map : (s.map f).runQueue = s.runQueue :=
  rfl

/-- Taking threads off the run queue commutes with `map`. -/
theorem skip_map (queue : List ThreadId) :
    ({ s.map f with runQueue := queue } : Scheduler τ') = map f { s with runQueue := queue } :=
  rfl

/-- Ending a thread commutes with `map`. -/
theorem finish_map (id : ThreadId) : (s.map f).finish id = (s.finish id).map f := by
  simp only [finish, map, List.filter_map, Function.comp_def]

/-- Blocking a thread commutes with `map`. -/
theorem block_map (id : ThreadId) (body : τ) :
    (s.map f).block id (f body) = (s.block id body).map f := by
  simp only [block, map, List.map_map, Function.comp_def]
  congr 2
  funext thread
  split <;> rfl

/-- Finding a thread commutes with `map`. -/
theorem get?_map (id : ThreadId) :
    (s.map f).get? id
      = (s.get? id).map fun thread => ⟨thread.id, thread.state, f thread.body⟩ := by
  simp only [get?, map, List.find?_map, Function.comp_def]

end Map

/-- **Runs of paired threads go the same way.** They take the same turns, end alike, and leave
threads in pairs and states that are related again. -/
theorem run_lockstep {w : Workload σ τ} {w' : Workload σ' τ'} {T : τ × τ' → Prop}
    {R : σ → σ' → Prop} (lockstep : w.Lockstep w' T R) (polls : Nat) {s : Scheduler (τ × τ')}
    (hs : s.AllBodies T) {a : σ} {b : σ'} (hab : R a b) :
    ∃ (pass : Pass) (s' : Scheduler (τ × τ')) (a' : σ) (b' : σ'),
      run w polls (s.map Prod.fst) a = (pass, s'.map Prod.fst, a')
        ∧ run w' polls (s.map Prod.snd) b = (pass, s'.map Prod.snd, b')
        ∧ s'.AllBodies T ∧ R a' b' := by
  induction polls generalizing s a b with
  | zero => exact ⟨.exhausted, s, a, b, rfl, rfl, hs, hab⟩
  | succ polls ih =>
      obtain ⟨pairs, a, b, hadopt, hadopt', hpairs, hab⟩ := lockstep.adopt hab
      obtain ⟨woken, a, b, hwakes, hwakes', hab⟩ := lockstep.wakes hab
      have hs := (hs.foldl_spawn hpairs).collect woken
      simp only [run, gather, hadopt, hadopt', hwakes, hwakes', foldl_spawn_map, collect_map]
      generalize (pairs.foldl spawn s).collect woken = s at hs ⊢
      cases hqueue : s.runQueue with
      | nil => exact ⟨.idle, s, a, b, by simp [hqueue], by simp [hqueue], hs, hab⟩
      | cons id queue =>
          have hrest : ({ s with runQueue := queue } : Scheduler (τ × τ')).AllBodies T := hs
          simp only [runQueue_map, hqueue, skip_map, get?_map]
          cases hget : get? { s with runQueue := queue } id with
          | none => exact ih hrest hab
          | some thread =>
              obtain ⟨result, a, b, hpoll, hpoll', hresult, hab⟩ :=
                lockstep.poll id (hrest.get? hget) hab
              simp only [Option.map_some, hpoll, hpoll']
              cases result with
              | done =>
                  simp only [Poll.map, finish_map]
                  exact ih (hrest.finish id) hab
              | pending pair =>
                  simp only [Poll.map, block_map]
                  exact ih (hrest.block id (hresult pair rfl)) hab
              | panicked message =>
                  simp only [Poll.map, finish_map]
                  exact ⟨_, _, a, b, rfl, rfl, hrest.finish id, hab⟩

/-- A run that ended by itself goes the same way with more polls. -/
theorem run_of_le {w : Workload σ τ} {polls more : Nat} (hle : polls ≤ more) {s : Scheduler τ}
    {a : σ} (h : (run w polls s a).1 ≠ .exhausted) : run w more s a = run w polls s a := by
  induction polls generalizing more s a with
  | zero => exact absurd rfl h
  | succ polls ih =>
      obtain ⟨more, rfl⟩ : ∃ rest, more = rest + 1 := ⟨more - 1, by omega⟩
      have hle : polls ≤ more := by omega
      rw [run] at h
      rw [run, run]
      rcases hgather : gather w s a with ⟨s', a'⟩
      rw [hgather] at h
      dsimp only at h ⊢
      cases hqueue : s'.runQueue with
      | nil => rfl
      | cons id queue =>
          rw [hqueue] at h
          dsimp only at h ⊢
          cases hget : get? { s' with runQueue := queue } id with
          | none =>
              rw [hget] at h
              exact ih hle h
          | some thread =>
              rw [hget] at h
              dsimp only at h ⊢
              split at h
              · exact ih hle h
              · exact ih hle h
              · rfl

end Scheduler

end DurableWorkflow
