import DurableWorkflow.Scheduler

/-!
# Runs of a scheduler on related states

A scheduler reads the state that its threads act on in three places only: it takes the spawned
threads, it takes the wakes, and it polls. If a relation between two states is kept by all three,
and they give the same on related states, then two runs from related states poll the same threads
in the same order and end alike. A property of single states is the case of states that are equal.

## Main results

* `Workload.Relates` — a relation that taking and polling keep.
* `Scheduler.run_related` — two runs from related states end alike.
* `Scheduler.run_keeps` — a property that taking and polling keep is kept by a run.
-/

namespace DurableWorkflow

variable {σ τ : Type}

/-- A relation between states that a workload keeps, on threads with a property that it keeps too:
what is taken and what polls give is the same on both sides. -/
structure Workload.Relates (w : Workload σ τ) (P : τ → Prop) (R : σ → σ → Prop) : Prop where
  /-- The same threads are adopted, with the property. -/
  adopt : ∀ {a b}, R a b → (w.adopt a).1 = (w.adopt b).1 ∧ (∀ t ∈ (w.adopt a).1, P t)
    ∧ R (w.adopt a).2 (w.adopt b).2
  /-- The same wakes are collected. -/
  wakes : ∀ {a b}, R a b → (w.wakes a).1 = (w.wakes b).1 ∧ R (w.wakes a).2 (w.wakes b).2
  /-- Polls end alike, and what is left of a thread has the property. -/
  poll : ∀ {a b} (id : ThreadId) {t : τ}, P t → R a b →
    (w.poll id t a).1 = (w.poll id t b).1 ∧ (∀ t', (w.poll id t a).1 = .pending t' → P t')
      ∧ R (w.poll id t a).2 (w.poll id t b).2

namespace Scheduler

/-- Whether what is left of every live thread has a property. -/
def AllBodies (P : τ → Prop) (s : Scheduler τ) : Prop :=
  ∀ thread ∈ s.threads, P thread.body

variable {P : τ → Prop} {s : Scheduler τ}

/-- A scheduler without threads has nothing to show. -/
theorem allBodies_empty : (empty : Scheduler τ).AllBodies P := by
  simp [AllBodies, empty]

/-- Spawning a thread with the property. -/
theorem AllBodies.spawn (h : s.AllBodies P) {body : τ} (hbody : P body) :
    (s.spawn body).AllBodies P := by
  intro thread hmem
  rcases List.mem_append.mp hmem with hmem | hmem
  · exact h thread hmem
  · obtain rfl : thread = ⟨s.nextThread, .runnable, body⟩ := by simpa using hmem
    exact hbody

/-- Spawning threads with the property. -/
theorem AllBodies.foldl_spawn {bodies : List τ} (hbodies : ∀ body ∈ bodies, P body) :
    ∀ {s : Scheduler τ}, s.AllBodies P → (bodies.foldl Scheduler.spawn s).AllBodies P := by
  induction bodies with
  | nil => exact fun h => h
  | cons body bodies ih =>
      intro s h
      exact ih (fun b hb => hbodies b (List.mem_cons_of_mem _ hb))
        (h.spawn (hbodies body List.mem_cons_self))

/-- Waking threads leaves what is left of them alone. -/
theorem AllBodies.collect (h : s.AllBodies P) (wakes : List ThreadId) :
    (s.collect wakes).AllBodies P := by
  intro thread hmem
  obtain ⟨old, hold, rfl⟩ := List.mem_map.mp hmem
  have hbody := h old hold
  split <;> exact hbody

/-- Ending a thread. -/
theorem AllBodies.finish (h : s.AllBodies P) (id : ThreadId) : (s.finish id).AllBodies P :=
  fun thread hmem => h thread (List.mem_filter.mp hmem).1

/-- Blocking a thread with the property. -/
theorem AllBodies.block (h : s.AllBodies P) (id : ThreadId) {body : τ} (hbody : P body) :
    (s.block id body).AllBodies P := by
  intro thread hmem
  obtain ⟨old, hold, rfl⟩ := List.mem_map.mp hmem
  split
  · exact hbody
  · exact h old hold

/-- A thread found by its number has the property. -/
theorem AllBodies.get? (h : s.AllBodies P) {id : ThreadId} {thread : LiveThread τ}
    (hget : s.get? id = some thread) : P thread.body :=
  h thread (List.mem_of_find?_eq_some hget)

/-- **Runs from related states end alike**, in related states again. -/
theorem run_related {w : Workload σ τ} {R : σ → σ → Prop} (related : w.Relates P R)
    (polls : Nat) {s : Scheduler τ} (hs : s.AllBodies P) {a b : σ} (hab : R a b) :
    (run w polls s a).1 = (run w polls s b).1
      ∧ (run w polls s a).2.1 = (run w polls s b).2.1
      ∧ (run w polls s a).2.1.AllBodies P
      ∧ R (run w polls s a).2.2 (run w polls s b).2.2 := by
  induction polls generalizing s a b with
  | zero => exact ⟨rfl, rfl, hs, hab⟩
  | succ polls ih =>
      obtain ⟨hadopt, hspawned, hab⟩ := related.adopt hab
      obtain ⟨hwakes, hab⟩ := related.wakes hab
      have hgather : (gather w s a).1 = (gather w s b).1 := by
        simp only [gather, hadopt, hwakes]
      have hs : (gather w s a).1.AllBodies P := (hs.foldl_spawn hspawned).collect _
      simp only [run, hgather]
      rw [hgather] at hs
      generalize (gather w s b).1 = s' at hs ⊢
      split
      · exact ⟨rfl, rfl, hs, hab⟩
      · rename_i id queue _
        have hqueue : ({ s' with runQueue := queue } : Scheduler τ).AllBodies P := hs
        split
        · exact ih hqueue hab
        · rename_i thread hthread
          obtain ⟨hpoll, hbody, hab⟩ := related.poll id (hqueue.get? hthread) hab
          rcases ha : w.poll id thread.body (gather w s a).2 with ⟨result, a'⟩
          rcases hb : w.poll id thread.body (gather w s b).2 with ⟨result', b'⟩
          have ha' : w.poll id thread.body (w.wakes (w.adopt a).2).2 = (result, a') := ha
          have hb' : w.poll id thread.body (w.wakes (w.adopt b).2).2 = (result', b') := hb
          rw [ha', hb'] at hpoll hab
          rw [ha'] at hbody
          obtain rfl : result = result' := hpoll
          cases result with
          | done => exact ih (hqueue.finish id) hab
          | pending body => exact ih (hqueue.block id (hbody body rfl)) hab
          | panicked message => exact ⟨rfl, rfl, hqueue.finish id, hab⟩

/-- **What taking and polling keep, a run keeps.** -/
theorem run_keeps {w : Workload σ τ} {I : σ → Prop} (adopt : ∀ a, I a → I (w.adopt a).2)
    (wakes : ∀ a, I a → I (w.wakes a).2) (poll : ∀ id t a, I a → I (w.poll id t a).2)
    (polls : Nat) (s : Scheduler τ) {a : σ} (ha : I a) : I (run w polls s a).2.2 := by
  have related : w.Relates (fun _ => True) fun a b => a = b ∧ I a :=
    { adopt := by
        rintro a _ ⟨rfl, ha⟩
        exact ⟨rfl, fun _ _ => trivial, rfl, adopt a ha⟩
      wakes := by
        rintro a _ ⟨rfl, ha⟩
        exact ⟨rfl, rfl, wakes a ha⟩
      poll := by
        rintro a _ id t - ⟨rfl, ha⟩
        exact ⟨rfl, fun _ _ => trivial, rfl, poll id t a ha⟩ }
  exact (run_related related polls (fun _ _ => trivial) ⟨rfl, ha⟩).2.2.2.2

end Scheduler

end DurableWorkflow
