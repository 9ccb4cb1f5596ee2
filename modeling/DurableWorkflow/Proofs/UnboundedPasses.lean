import DurableWorkflow.Proofs.Turns

/-!
# Passes without a bound

The scheduler goes on until no thread can run or one panics; that this takes a number of polls that
is known beforehand is no part of what it does. Here a pass is a derivation, with one rule for each
thing that can happen after spawned and woken threads were taken in. A derivation is finite, so that
there is one means that the pass comes to its end; and there is one at most. A pass that is given
more polls than it needs is this one.

## Main definitions

* `Scheduler.Runs` — a pass that comes to its end, with its turns.

## Main results

* `Scheduler.runs_of_run` — a pass that was given enough polls comes to its end.
* `Scheduler.Runs.unique` — a pass comes to one end only.
* `Scheduler.runs_iff` — with polls enough, the bound makes no difference.
-/

namespace DurableWorkflow

variable {σ τ : Type}

namespace Scheduler

/-- A pass, with its turns and where it ends: however many polls that takes, no thread can run in
the end, or one panicked. -/
inductive Runs (w : Workload σ τ) :
    Scheduler τ → σ → List (Turn σ τ) → Pass × Scheduler τ × σ → Prop
  | idle {s s' : Scheduler τ} {a a' : σ} : s.gather w a = (s', a') → s'.runQueue = [] →
      Runs w s a [] (.idle, s', a')
  | skip {s s' : Scheduler τ} {a a' : σ} {id : ThreadId} {queue : List ThreadId}
      {turns : List (Turn σ τ)} {result : Pass × Scheduler τ × σ} : s.gather w a = (s', a') →
      s'.runQueue = id :: queue → s'.get? id = none →
      Runs w { s' with runQueue := queue } a' turns result → Runs w s a turns result
  | done {s s' : Scheduler τ} {a a' a'' : σ} {id : ThreadId} {queue : List ThreadId}
      {thread : LiveThread τ} {turns : List (Turn σ τ)} {result : Pass × Scheduler τ × σ} :
      s.gather w a = (s', a') → s'.runQueue = id :: queue → s'.get? id = some thread →
      w.poll id thread.body a' = (.done, a'') →
      Runs w (finish { s' with runQueue := queue } id) a'' turns result →
      Runs w s a (⟨id, thread.body, a'⟩ :: turns) result
  | pending {s s' : Scheduler τ} {a a' a'' : σ} {id : ThreadId} {queue : List ThreadId}
      {thread : LiveThread τ} {body : τ} {turns : List (Turn σ τ)}
      {result : Pass × Scheduler τ × σ} : s.gather w a = (s', a') → s'.runQueue = id :: queue →
      s'.get? id = some thread → w.poll id thread.body a' = (.pending body, a'') →
      Runs w (block { s' with runQueue := queue } id body) a'' turns result →
      Runs w s a (⟨id, thread.body, a'⟩ :: turns) result
  | panicked {s s' : Scheduler τ} {a a' a'' : σ} {id : ThreadId} {queue : List ThreadId}
      {thread : LiveThread τ} {message : String} : s.gather w a = (s', a') →
      s'.runQueue = id :: queue → s'.get? id = some thread →
      w.poll id thread.body a' = (.panicked message, a'') →
      Runs w s a [⟨id, thread.body, a'⟩]
        (.panicked id message, finish { s' with runQueue := queue } id, a'')

variable {w : Workload σ τ} {s : Scheduler τ} {a : σ} {turns turns' : List (Turn σ τ)}
  {result result' : Pass × Scheduler τ × σ}

/-- **A pass that does not use up the polls allowed comes to its end.** -/
theorem runs_of_run {polls : Nat} (h : (s.run w polls a).1 ≠ .exhausted) :
    Runs w s a (s.turns w polls a) (s.run w polls a) := by
  induction polls generalizing s a with
  | zero => exact absurd rfl h
  | succ polls ih =>
      rw [run] at h ⊢
      rw [Scheduler.turns]
      rcases hgather : s.gather w a with ⟨s', a'⟩
      rw [hgather] at h
      dsimp only at h ⊢
      cases hqueue : s'.runQueue with
      | nil => exact .idle hgather hqueue
      | cons id queue =>
          have hsame : get? { s' with runQueue := queue } id = s'.get? id := rfl
          rw [hqueue] at h
          simp only [hsame] at h ⊢
          cases hget : s'.get? id with
          | none =>
              rw [hget] at h
              exact .skip hgather hqueue hget (ih h)
          | some thread =>
              rw [hget] at h
              rcases hpoll : w.poll id thread.body a' with ⟨_ | body | message, a''⟩ <;>
                simp only [hpoll] at h ⊢
              · exact .done hgather hqueue hget hpoll (ih h)
              · exact .pending hgather hqueue hget hpoll (ih h)
              · exact .panicked hgather hqueue hget hpoll

/-- There are no more turns than polls. -/
theorem length_turns_le (w : Workload σ τ) (polls : Nat) (s : Scheduler τ) (a : σ) :
    (s.turns w polls a).length ≤ polls := by
  induction polls generalizing s a with
  | zero => exact Nat.le_refl _
  | succ polls ih =>
      rw [Scheduler.turns]
      split
      split
      · exact Nat.zero_le _
      · dsimp only
        split
        · exact Nat.le_succ_of_le (ih _ _)
        · refine Nat.succ_le_succ ?_
          split
          · exact ih _ _
          · exact ih _ _
          · exact Nat.zero_le _

/-- **A pass that comes to its end is found** by allowing polls enough, and more make no
difference. -/
theorem Runs.run_eq (h : Runs w s a turns result) :
    ∃ polls, ∀ more, s.run w (polls + more) a = result ∧ s.turns w (polls + more) a = turns := by
  induction h with
  | idle hgather hqueue =>
      refine ⟨1, fun more => ?_⟩
      rw [Nat.add_comm, run, Scheduler.turns, hgather]
      simp only [hqueue, and_self]
  | @skip s s' a a' id queue turns result hgather hqueue hget _ ih =>
      obtain ⟨polls, hpolls⟩ := ih
      refine ⟨polls + 1, fun more => ?_⟩
      have hnone : get? { s' with runQueue := queue } id = none := hget
      rw [Nat.add_right_comm, run, Scheduler.turns, hgather]
      simp only [hqueue, hnone]
      exact hpolls more
  | @done s s' a a' a'' id queue thread turns result hgather hqueue hget hpoll _ ih =>
      obtain ⟨polls, hpolls⟩ := ih
      refine ⟨polls + 1, fun more => ?_⟩
      have hsome : get? { s' with runQueue := queue } id = some thread := hget
      rw [Nat.add_right_comm, run, Scheduler.turns, hgather]
      simp only [hqueue, hsome, hpoll]
      exact ⟨(hpolls more).1, congrArg _ (hpolls more).2⟩
  | @pending s s' a a' a'' id queue thread body turns result hgather hqueue hget hpoll _ ih =>
      obtain ⟨polls, hpolls⟩ := ih
      refine ⟨polls + 1, fun more => ?_⟩
      have hsome : get? { s' with runQueue := queue } id = some thread := hget
      rw [Nat.add_right_comm, run, Scheduler.turns, hgather]
      simp only [hqueue, hsome, hpoll]
      exact ⟨(hpolls more).1, congrArg _ (hpolls more).2⟩
  | @panicked s s' a a' a'' id queue thread message hgather hqueue hget hpoll =>
      refine ⟨1, fun more => ?_⟩
      have hsome : get? { s' with runQueue := queue } id = some thread := hget
      rw [Nat.add_comm, run, Scheduler.turns, hgather]
      simp only [hqueue, hsome, hpoll, and_self]

/-- **A pass comes to one end only**, after the same turns. -/
theorem Runs.unique (h : Runs w s a turns result) (h' : Runs w s a turns' result') :
    turns = turns' ∧ result = result' := by
  obtain ⟨polls, hpolls⟩ := h.run_eq
  obtain ⟨polls', hpolls'⟩ := h'.run_eq
  obtain ⟨hrun, hturns⟩ := hpolls polls'
  obtain ⟨hrun', hturns'⟩ := hpolls' polls
  rw [Nat.add_comm] at hrun' hturns'
  exact ⟨hturns.symm.trans hturns', hrun.symm.trans hrun'⟩

/-- **A pass is what it is with polls enough**, and nothing else. -/
theorem runs_iff {polls : Nat} (h : (s.run w polls a).1 ≠ .exhausted) :
    Runs w s a turns result ↔ turns = s.turns w polls a ∧ result = s.run w polls a := by
  constructor
  · exact fun hruns => hruns.unique (runs_of_run h)
  · rintro ⟨rfl, rfl⟩
    exact runs_of_run h

end Scheduler

end DurableWorkflow
