/-!
# Work in place

Work on a state that is kept in place changes it step by step. If it is given up halfway, what was
changed until then stays changed. So it is not for free that work which is given up has done
nothing: each change has to come after the last reason to give up.

Such work is a program of the monad `EStateM`, in which a failure does not undo anything. Here it is
compared with functions that give a new state or none.

## Main definitions

* `InPlace.wholly` — what is left of a state by work that is done as a whole or not at all.
* `InPlace.part` — work on a part of a state.

## Main results

* `InPlace.part_wholly` — work on a part is done as a whole or not at all if it is so on the part.
* `InPlace.filter_of_lookup_none` — nothing is taken out of a table that does not have it.
-/

namespace DurableWorkflow

namespace InPlace

variable {ε δ σ ρ α : Type}

/-- What work leaves of a state that is done as a whole or not at all. -/
def wholly (s : σ) : Except ε (α × σ) → EStateM.Result ε σ α
  | .ok (value, s') => .ok value s'
  | .error e => .error e s

/-- Work on a part of a state, with a wording of its failures that may tell of the state. The part
is put back whether the work fails or not. -/
def part (get : σ → ρ) (put : σ → ρ → σ) (fault : σ → ε → δ) (work : EStateM ε ρ α) :
    EStateM δ σ α := fun s =>
  match work.run (get s) with
  | .ok value r => .ok value (put s r)
  | .error e r => .error (fault (put s r) e) (put s r)

/-- **Work on a part is done as a whole or not at all** if it is so on the part. -/
theorem part_wholly {get : σ → ρ} {put : σ → ρ → σ} {fault : σ → ε → δ} {work : EStateM ε ρ α}
    {s : σ} (hput : put s (get s) = s) {result : Except ε (α × ρ)}
    (h : work.run (get s) = wholly (get s) result) :
    (part get put fault work).run s
      = wholly s ((result.mapError (fault s)).map fun (value, r) => (value, put s r)) := by
  rw [EStateM.run, part, h]
  cases result with
  | ok value => rfl
  | error e =>
      change EStateM.Result.error (fault (put s (get s)) e) (put s (get s)) = .error (fault s e) s
      rw [hput]

/-- Nothing is taken out of a table for a key that is not in it. -/
theorem filter_of_lookup_none {κ ν : Type} [BEq κ] [LawfulBEq κ] [DecidableEq κ]
    {table : List (κ × ν)} {key : κ} (h : table.lookup key = none) :
    table.filter (fun entry => entry.1 ≠ key) = table := by
  refine List.filter_eq_self.mpr fun entry hentry => ?_
  have hother := List.lookup_eq_none_iff.mp h entry hentry
  exact decide_eq_true fun hkey => by simp [hkey] at hother

end InPlace

end DurableWorkflow
