import DurableWorkflow.Proofs.BlockOrder

/-!
# The states of a scheduler

Whoever has a scheduler spawns threads and has them polled, and threads do what they like when they
are polled. Between any two of these calls, and whenever a pass looks for work, the state of the
scheduler hangs together: the run queue holds the threads that can run, each once; blocked threads
have stamps of their own, all of them given out; and each number that was given out is that of
one thread, which either lives or has completed and is not polled again.

## Main definitions

* `Scheduler.Used` — a scheduler after some calls, with the polls that were made.
* `Scheduler.Consistent` — how the parts of its state hang together.

## Main results

* `Scheduler.Undergoes.accounted` — each number is that of one thread, live or completed.
* `Scheduler.Used.always_consistent` — the invariant of all states; no completed thread is polled.
-/

open scoped List

namespace DurableWorkflow

variable {τ : Type}

/-- The turn after which a thread blocked last counts. -/
theorem LastBlocked.lt_blocks {log : List Happening} {id : ThreadId} {since : Nat}
    (h : LastBlocked log id since) : since < blocks log := by
  obtain ⟨before, after, rfl, rfl, -⟩ := h
  rw [blocks, blocks, List.countP_append, List.countP_cons_of_pos rfl]
  omega

namespace Scheduler

/-- A new scheduler after threads were spawned and passes were made, with the polls that were made
in order, each with whether the thread was gone after it. A pass has any workload and finds any
state; with the polls allowed it ends by itself or wherever it looks for work once more. -/
inductive Used : List (ThreadId × Bool) → Scheduler τ → Prop
  | new : Used [] empty
  | spawn {polls : List (ThreadId × Bool)} {s : Scheduler τ} (body : τ) : Used polls s →
      Used polls (s.spawn body)
  | run {polls : List (ThreadId × Bool)} {s : Scheduler τ} {σ : Type} (w : Workload σ τ)
      (bound : Nat) (a : σ) : Used polls s →
      Used (polls ++ (s.turns w bound a).map fun turn => (turn.thread, turn.ends w))
        (s.run w bound a).2.1

/-- How the parts of a scheduler's state hang together. -/
structure Consistent (s : Scheduler τ) : Prop where
  /-- No thread waits twice. -/
  once : s.runQueue.Nodup
  /-- The threads that wait are those live ones that can run. -/
  queued : ∀ id, id ∈ s.runQueue ↔ ∃ thread ∈ s.threads, thread.id = id ∧ thread.state = .runnable
  /-- Blocked threads have stamps of their own. -/
  stamped : ∀ thread ∈ s.threads, ∀ other ∈ s.threads, ∀ since,
    thread.state = .blocked since → other.state = .blocked since → thread = other
  /-- Their stamps were given out. -/
  past : ∀ thread ∈ s.threads, ∀ since, thread.state = .blocked since → since < s.blockClock
  /-- No number is that of two live threads. -/
  numbered : (s.threads.map LiveThread.id).Nodup
  /-- The numbers that were given out are those of live threads and of completed ones. -/
  given : ∀ id, id < s.nextThread ↔ id ∈ s.threads.map LiveThread.id ∨ id ∈ s.completed
  /-- No thread that has completed lives. -/
  apart : ∀ id ∈ s.completed, id ∉ s.threads.map LiveThread.id
  /-- No thread completed twice. -/
  ended : s.completed.Nodup

variable {s s' : Scheduler τ} {log : List Happening} {id : ThreadId} {queue : List ThreadId}
  {thread : LiveThread τ}

/-! ### Live and completed threads -/

/-- A thread that is found by its number is live. -/
theorem mem_map_id_of_get? (h : s.get? id = some thread) : id ∈ s.threads.map LiveThread.id := by
  obtain ⟨hmem, rfl⟩ := get?_eq_some h
  exact List.mem_map_of_mem hmem

/-- **Each number that was given out is that of one thread, live or completed.** -/
theorem Undergoes.accounted (h : Undergoes empty log s) :
    s.threads.map LiveThread.id ++ s.completed ~ List.range s.nextThread := by
  induction h with
  | nothing => exact .refl _
  | @spawn s log body _ ih =>
      have hids : (s.spawn body).threads.map LiveThread.id ++ (s.spawn body).completed
          = s.threads.map LiveThread.id ++ s.nextThread :: s.completed := by
        simp [Scheduler.spawn]
      have hrange : List.range (s.nextThread + 1) ~ s.nextThread :: List.range s.nextThread :=
        List.range_succ ▸ List.perm_append_singleton _ _
      rw [hids]
      exact List.perm_middle.trans ((ih.cons _).trans hrange.symm)
  | collect wakes _ ih => rwa [map_id_collect]
  | @finish s log id queue thread hlog hqueue hget ih =>
      have honce : (s.threads.map LiveThread.id).Nodup := hlog.regular.orderly.once
      have hlive : id ∈ s.threads.map LiveThread.id := mem_map_id_of_get? hget
      have hfilter : (s.threads.map LiveThread.id).filter (fun other => other ≠ id)
          = (s.threads.map LiveThread.id).erase id := by
        rw [honce.erase_eq_filter]
        exact List.filter_congr fun other _ => decide_not
      rw [map_id_finish]
      dsimp only
      rw [hfilter]
      calc (s.threads.map LiveThread.id).erase id ++ (s.completed ++ [id])
          ~ (s.threads.map LiveThread.id).erase id ++ id :: s.completed :=
            (List.perm_append_singleton _ _).append_left _
        _ ~ id :: (s.threads.map LiveThread.id).erase id ++ s.completed := List.perm_middle
        _ ~ s.threads.map LiveThread.id ++ s.completed :=
            (List.perm_cons_erase hlive).symm.append_right _
        _ ~ List.range s.nextThread := ih
  | block body _ _ _ ih => rwa [map_id_block]

/-- The completed threads are those that were gone after a turn, in the order of these turns. -/
theorem Undergoes.completed_eq (h : Undergoes empty log s) :
    s.completed = ((polled log).filter Prod.snd).map Prod.fst := by
  induction h with
  | nothing => rfl
  | spawn body _ ih => simpa [polled_concat, Happening.poll?, Scheduler.spawn] using ih
  | collect wakes _ ih => simpa [polled_concat, Happening.poll?, Scheduler.collect] using ih
  | finish _ _ _ ih => simpa [polled_concat, Happening.poll?, Scheduler.finish] using ih
  | block body _ _ _ ih => simpa [polled_concat, Happening.poll?, Scheduler.block] using ih

/-- A thread that has completed does not live. -/
theorem Undergoes.not_live_of_completed (h : Undergoes empty log s) :
    ∀ id ∈ s.completed, id ∉ s.threads.map LiveThread.id := by
  have hnodup := h.accounted.nodup_iff.mpr List.nodup_range
  exact fun id hdone hlive => (List.nodup_append.mp hnodup).2.2 id hlive id hdone rfl

/-- **A thread that is gone has no further turn.** -/
theorem Undergoes.polled_pairwise (h : Undergoes empty log s) :
    (polled log).Pairwise fun earlier later => earlier.2 = true → later.1 ≠ earlier.1 := by
  induction h with
  | nothing => exact List.Pairwise.nil
  | spawn body _ ih | collect wakes _ ih =>
      rw [polled_concat]
      simpa [Happening.poll?] using ih
  | finish hlog hqueue hget ih | block body hlog hqueue hget ih =>
      rw [polled_concat]
      refine List.pairwise_append.mpr ⟨ih, List.pairwise_singleton _ _, ?_⟩
      rintro ⟨id, gone⟩ hearlier later hlater rfl
      obtain rfl := List.mem_singleton.mp hlater
      rintro rfl
      -- A thread that has a turn lives.
      refine hlog.not_live_of_completed _ ?_ (mem_map_id_of_get? hget)
      rw [hlog.completed_eq]
      exact List.mem_map_of_mem (f := Prod.fst) (List.mem_filter.mpr ⟨hearlier, rfl⟩)

/-! ### All states -/

/-- **In every state that a new scheduler comes to, its parts hang together.** -/
theorem Undergoes.consistent (h : Undergoes empty log s) : s.Consistent where
  once := h.regular.once
  queued := by
    intro id
    refine ⟨h.regular.waiting id, ?_⟩
    rintro ⟨thread, hmem, rfl, hstate⟩
    exact h.regular.orderly.queued thread hmem hstate
  stamped := by
    intro thread hmem other hother since hstate hstate'
    have hlast : LastBlocked log thread.id since := h.regular.stamped thread hmem since hstate
    have hlast' : LastBlocked log other.id since := h.regular.stamped other hother since hstate'
    exact List.inj_on_of_nodup_map h.regular.orderly.once hmem hother (hlast.unique hlast')
  past := by
    intro thread hmem since hstate
    rw [h.regular.clock]
    exact (h.regular.stamped thread hmem since hstate).lt_blocks
  numbered := h.regular.orderly.once
  given := by
    intro id
    rw [← List.mem_append, h.accounted.mem_iff, List.mem_range]
  apart := h.not_live_of_completed
  ended := (List.nodup_append.mp (h.accounted.nodup_iff.mpr List.nodup_range)).2.1

/-- Whatever was called, something happened to the scheduler, with the same polls. -/
theorem Used.undergoes {polls : List (ThreadId × Bool)} (h : Used polls s) :
    ∃ log, Undergoes empty log s ∧ polled log = polls := by
  induction h with
  | new => exact ⟨[], .nothing empty, rfl⟩
  | spawn body _ ih =>
      obtain ⟨log, hlog, rfl⟩ := ih
      refine ⟨_, hlog.spawn body, ?_⟩
      rw [polled_concat]
      exact List.append_nil _
  | run w bound a _ ih =>
      obtain ⟨log, hlog, rfl⟩ := ih
      obtain ⟨later, hlater, hpolled⟩ := hlog.regular.run_polled w bound a
      refine ⟨log ++ later, hlog.trans hlater, ?_⟩
      rw [polled, List.filterMap_append, ← polled, ← polled, hpolled]

/-- **The invariant of all states of a scheduler.** After any calls, whatever the threads do when
they are polled, be it that they panic, wake themselves or wake others more than once, the parts of
the state hang together, and they do so again wherever a pass looks for work, when it has taken in
what was spawned and woken. The completed threads are those that were gone after a poll, in this
order, and no such thread is polled again. -/
theorem Used.always_consistent {polls : List (ThreadId × Bool)} (h : Used polls s) :
    s.Consistent
      ∧ (∀ {σ : Type} (w : Workload σ τ) (a : σ), (s.gather w a).1.Consistent)
      ∧ s.completed = (polls.filter Prod.snd).map Prod.fst
      ∧ polls.Pairwise fun earlier later => earlier.2 = true → later.1 ≠ earlier.1 := by
  obtain ⟨log, hlog, rfl⟩ := h.undergoes
  refine ⟨hlog.consistent, fun w a => ?_, hlog.completed_eq, hlog.polled_pairwise⟩
  obtain ⟨more, hmore, -⟩ := hlog.gather w a
  exact hmore.consistent

/-- Threads that count down by two. Those with more than one left wake themselves twice and start a
thread with nothing left; with one left they panic. -/
def countdown : Workload (List ThreadId × List Nat) Nat where
  adopt a := (a.2, (a.1, []))
  wakes a := (a.1, ([], a.2))
  poll
    | _, 0, a => (.done, a)
    | _, 1, a => (.panicked "odd", a)
    | id, left + 2, a => (.pending left, (a.1 ++ [id, id], a.2 ++ [0]))

/-- A thread that counts down from three, to which one with two left is added once it is gone. -/
def counted : Scheduler Nat :=
  ((empty.spawn 3).run countdown 9 ([], [])).2.1.spawn 2

/-- The thread blocks once and wakes itself, the one that it started finishes, and it panics. Both
are completed then, in this order, and the third thread lives. -/
theorem counted_consistent :
    Used [(0, false), (1, true), (0, true)] counted ∧ counted.Consistent
      ∧ counted.completed = [1, 0] ∧ counted.runQueue = [2] ∧ counted.nextThread = 3 :=
  have polls : ((empty.spawn 3).turns countdown 9 ([], [])).map
      (fun turn => (turn.thread, turn.ends countdown)) = [(0, false), (1, true), (0, true)] := rfl
  have used : Used [(0, false), (1, true), (0, true)] counted :=
    polls ▸ ((Used.new.spawn 3).run countdown 9 ([], [])).spawn 2
  ⟨used, used.always_consistent.1, used.always_consistent.2.2.1, rfl, rfl⟩

end Scheduler

end DurableWorkflow
