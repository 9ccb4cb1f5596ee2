import DurableWorkflow.Proofs.Standings

/-!
# How tasks are handed out and settled

A task is handed out for an open, queued instance and carries its history and what was pending. It
is settled under its token, once: the lease ends with it. Completing it records a piece of history
and carries out commands, unless the instance has closed meanwhile; failing it closes the instance;
giving it back puts the events back in front of those that came meanwhile.

## Main definitions

* `Backend.handOut` — what a dispatch does to the instance that is handed out.
* `Backend.discharge` — the end of a lease, with a change of the instance.
* `Backend.recordDelta` — the end of a lease with a piece of history.

## Main results

* `Backend.dispatch_inv` — what a dispatch does.
* `Backend.completeTask_inv`, `Backend.failTask_inv`, `Backend.abandonTask_inv` — what settling
  does.
-/

namespace DurableWorkflow

namespace Backend

variable {b b' : Backend} {id workflowId token : String} {inst : Instance}

/-! ### Handing out -/

/-- Hand out what is pending for an instance under the last token. -/
def handOut (b : Backend) (workflowId : String) : Backend :=
  { b.modify workflowId fun inst =>
      { inst with
        queued := false, lease := some (tokenName b.tokens), inFlight := inst.pending
        pending := [] } with
    leases := b.leases ++ [(tokenName b.tokens, workflowId)] }

/-- Looking at an entry of a queue removes it and uses up a token. -/
theorem popReady_requeues {taskQueue : String} (h : b.popReady taskQueue = some (workflowId, b')) :
    b.Requeues { b' with tokens := b'.tokens + 1 } ∧ b.tokens < b'.tokens + 1 := by
  rw [popReady] at h
  split at h
  · cases h
    exact ⟨⟨rfl, Nat.le_succ _, (Requeues.refl b).get?⟩, Nat.lt_succ_self _⟩
  · cases h

/-- What looking at some entries of a queue does. -/
theorem dispatchWithin_inv {entries : Nat} {taskQueue : String} {result : Option Task}
    (h : dispatchWithin entries b taskQueue = (result, b')) :
    (result = none ∧ b.Requeues b')
      ∨ ∃ b₁ inst, b.Requeues b₁ ∧ b.tokens < b₁.tokens
        ∧ b₁.get? inst.info.workflowId = some inst ∧ inst.queued = true ∧ inst.isOpen = true
        ∧ result = some ⟨tokenName b₁.tokens, inst.info, inst.history, inst.pending⟩
        ∧ b' = b₁.handOut inst.info.workflowId := by
  induction entries generalizing b with
  | zero =>
      cases h
      exact .inl ⟨rfl, .refl _⟩
  | succ entries ih =>
      rw [dispatchWithin] at h
      split at h
      · cases h
        exact .inl ⟨rfl, .refl _⟩
      · rename_i workflowId popped hpop
        obtain ⟨hrequeues, htokens⟩ := popReady_requeues hpop
        have skip {b₁ : Backend} (hb₁ : b.Requeues b₁) (ht : b.tokens < b₁.tokens)
            (h : dispatchWithin entries b₁ taskQueue = (result, b')) :
            (result = none ∧ b.Requeues b')
              ∨ ∃ b₁ inst, b.Requeues b₁ ∧ b.tokens < b₁.tokens
                ∧ b₁.get? inst.info.workflowId = some inst ∧ inst.queued = true
                ∧ inst.isOpen = true
                ∧ result = some ⟨tokenName b₁.tokens, inst.info, inst.history, inst.pending⟩
                ∧ b' = b₁.handOut inst.info.workflowId := by
          rcases ih h with ⟨hnone, hrest⟩ | ⟨b₂, inst, hrest, ht', hrest'⟩
          · exact .inl ⟨hnone, hb₁.trans hrest⟩
          · exact .inr ⟨b₂, inst, hb₁.trans hrest, Nat.lt_trans ht ht', hrest'⟩
        dsimp only at h
        split at h
        · exact skip hrequeues htokens h
        · rename_i inst hget
          split at h
          · refine skip (hrequeues.trans (modify_requeues fun _ _ hqueued => ?_)) htokens h
            cases hqueued
          · rename_i hready
            have hname := get?_name hget
            subst hname
            cases h
            simp only [Bool.not_eq_true, Bool.or_eq_false_iff, Bool.not_eq_false'] at hready
            exact .inr ⟨_, inst, hrequeues, htokens, hget, hready.1, hready.2, rfl, rfl⟩

/-- **What a dispatch does.** It hands out an open, queued instance under a new token, or nothing;
else it changes queues only. -/
theorem dispatch_inv {taskQueue : String} {result : Option Task}
    (h : b.dispatch taskQueue = (result, b')) :
    (result = none ∧ b.Requeues b')
      ∨ ∃ b₁ inst, b.Requeues b₁ ∧ b.tokens < b₁.tokens
        ∧ b₁.get? inst.info.workflowId = some inst ∧ inst.queued = true ∧ inst.isOpen = true
        ∧ result = some ⟨tokenName b₁.tokens, inst.info, inst.history, inst.pending⟩
        ∧ b' = b₁.handOut inst.info.workflowId :=
  dispatchWithin_inv h

/-- What a dispatch does to instances. -/
theorem get?_handOut (b : Backend) (workflowId id : String) :
    (b.handOut workflowId).get? id
      = if id = workflowId then (b.get? id).map fun inst =>
          { inst with
            queued := false, lease := some (tokenName b.tokens), inFlight := inst.pending
            pending := [] }
        else b.get? id := by
  refine get?_modify (fun inst => ?_) b workflowId id
  rfl

/-- Handing an instance out does not change how it stands, if nothing was in flight. -/
theorem standing_handOut (hget : b.get? workflowId = some inst) (hnone : inst.inFlight = []) :
    (b.handOut workflowId).standing = b.standing := by
  funext id
  simp only [standing, get?_handOut]
  split
  · rename_i hid
    subst hid
    rw [hget]
    simp [Instance.standing, Instance.isOpen, hnone]
  · rfl

/-! ### Settling -/

/-- End the lease of a token and change its instance. -/
def discharge (b : Backend) (token workflowId : String) (f : Instance → Instance) : Backend :=
  { b with leases := b.leases.filter fun lease => lease.1 ≠ token }.modify workflowId
    fun inst => f { inst with lease := none }

/-- A change after the end of a lease. -/
theorem discharge_modify {f : Instance → Instance} (hf : ∀ inst, (f inst).info = inst.info)
    (b : Backend) (token workflowId : String) (g : Instance → Instance) :
    (b.discharge token workflowId f).modify workflowId g
      = b.discharge token workflowId fun inst => g (f inst) :=
  modify_modify (fun inst => congrArg RunInfo.workflowId (hf { inst with lease := none })) _ _ g

/-- Without an instance no change is seen at the end of a lease. -/
theorem discharge_of_none (hnone : b.get? workflowId = none) (token : String)
    (f g : Instance → Instance) :
    b.discharge token workflowId f = b.discharge token workflowId g := by
  have hnone' : get? { b with leases := b.leases.filter fun lease => lease.1 ≠ token }
      workflowId = none := hnone
  rw [discharge, discharge, modify_of_none hnone', modify_of_none hnone']

/-- What the end of a lease does to instances. -/
theorem get?_discharge {f : Instance → Instance} (hf : ∀ inst, (f inst).info = inst.info)
    (b : Backend) (token workflowId id : String) :
    (b.discharge token workflowId f).get? id
      = if id = workflowId then (b.get? id).map fun inst => f { inst with lease := none }
        else b.get? id :=
  get?_modify (fun inst => congrArg RunInfo.workflowId (hf { inst with lease := none }))
    { b with leases := b.leases.filter fun lease => lease.1 ≠ token } workflowId id

/-- What the end of a lease does to standings. -/
theorem standing_discharge {f : Instance → Instance} (hf : ∀ inst, (f inst).info = inst.info)
    (b : Backend) (token workflowId : String)
    (h : ∀ inst, b.get? workflowId = some inst →
      (f { inst with lease := none }).standing = inst.standing) :
    (b.discharge token workflowId f).standing = b.standing := by
  funext id
  simp only [standing, get?_discharge hf]
  split
  · rename_i hid
    subst hid
    cases hget : b.get? id with
    | none => rfl
    | some inst => exact congrArg some (h inst hget)
  · rfl

/-- The end of a lease. -/
theorem release_eq_ok {operation : String} (h : b.release operation token = .ok (workflowId, b')) :
    b.leases.lookup token = some workflowId
      ∧ b' = b.discharge token workflowId fun inst => inst := by
  rw [release] at h
  split at h
  · cases h
  · rename_i hlookup
    cases h
    exact ⟨hlookup, rfl⟩

/-- What is looked up among the leases is one of them. -/
theorem mem_leases (h : b.leases.lookup token = some workflowId) :
    (token, workflowId) ∈ b.leases := by
  obtain ⟨l₁, l₂, hleases, -⟩ := List.lookup_eq_some_iff.mp h
  rw [hleases]
  simp

/-- End the lease of a token and record a piece of history for its instance. -/
def recordDelta (b : Backend) (token workflowId : String) (delta : List Event) : Backend :=
  b.discharge token workflowId fun inst =>
    { inst with inFlight := [], history := inst.history ++ delta }

/-- What recording a piece of history does to instances. -/
theorem get?_recordDelta (b : Backend) (token workflowId : String) (delta : List Event)
    (id : String) : (b.recordDelta token workflowId delta).get? id
      = if id = workflowId then (b.get? id).map fun inst =>
          { inst with inFlight := [], lease := none, history := inst.history ++ delta }
        else b.get? id := by
  refine get?_discharge ?_ b token workflowId id
  exact fun _ => rfl

/-- **What completing a task does.** Its lease ends. If its instance is still open the history grows
and the commands are carried out. -/
theorem completeTask_inv {names : Nat → String} {delta : List Event} {commands : List Command}
    {alarms : List Alarm} (h : b.completeTask names token delta commands = .ok (b', alarms)) :
    ∃ id inst, b.leases.lookup token = some id ∧ b.get? id = some inst
      ∧ ((inst.isOpen = false ∧ alarms = []
          ∧ b' = b.discharge token id fun inst => { inst with inFlight := [] })
        ∨ (inst.isOpen = true ∧ ∃ b₁,
          (b.recordDelta token id delta).applyAll names id commands = (b₁, alarms)
            ∧ b' = b₁.enqueue id)) := by
  rw [completeTask] at h
  split at h
  · cases h
  · rename_i id _ hrelease
    obtain ⟨hlookup, rfl⟩ := release_eq_ok hrelease
    have hget : (b.discharge token id fun inst => inst).get? id
        = (b.get? id).map fun inst => { inst with lease := none } := by
      rw [get?_discharge fun _ => rfl, if_pos rfl]
    rw [hget] at h
    cases hinst : b.get? id with
    | none =>
        rw [hinst] at h
        cases h
    | some inst =>
        rw [hinst, Option.map_some] at h
        dsimp only at h
        refine ⟨id, inst, hlookup, hinst, ?_⟩
        rw [discharge_modify] at h
        case hf => exact fun _ => rfl
        split at h
        · rename_i hopen
          rw [discharge_modify] at h
          case hf => exact fun _ => rfl
          cases h
          exact .inr ⟨hopen, _, rfl, rfl⟩
        · rename_i hclosed
          cases h
          exact .inl ⟨(Bool.not_eq_true _).mp hclosed, rfl, rfl⟩

/-- **What failing a task does.** Its lease ends. If its instance is still open it closes. -/
theorem failTask_inv {error : Failure} (h : b.failTask token error = .ok b') :
    ∃ id, b.leases.lookup token = some id
      ∧ (((∀ inst, b.get? id = some inst → inst.isOpen = false)
          ∧ b' = b.discharge token id fun inst => { inst with inFlight := [] })
        ∨ ∃ inst, b.get? id = some inst ∧ inst.isOpen = true
          ∧ b' = (b.recordDelta token id [.failed error]).close id (.failed error)) := by
  rw [failTask] at h
  split at h
  · cases h
  · rename_i id _ hrelease
    obtain ⟨hlookup, rfl⟩ := release_eq_ok hrelease
    have hget : (b.discharge token id fun inst => inst).get? id
        = (b.get? id).map fun inst => { inst with lease := none } := by
      rw [get?_discharge fun _ => rfl, if_pos rfl]
    refine ⟨id, hlookup, ?_⟩
    rw [hget] at h
    cases hinst : b.get? id with
    | none =>
        rw [hinst] at h
        cases h
        exact .inl ⟨nofun, discharge_of_none hinst token _ _⟩
    | some inst =>
        rw [hinst, Option.map_some] at h
        dsimp only at h
        rw [discharge_modify] at h
        case hf => exact fun _ => rfl
        split at h
        · rename_i hopen
          rw [discharge_modify] at h
          case hf => exact fun _ => rfl
          cases h
          exact .inr ⟨inst, rfl, hopen, rfl⟩
        · rename_i hclosed
          cases h
          refine .inl ⟨fun other hother => ?_, rfl⟩
          cases hother
          exact (Bool.not_eq_true _).mp hclosed

/-- **What giving a task back does.** Its lease ends and its events wait again. -/
theorem abandonTask_inv (h : b.abandonTask token = .ok b') :
    ∃ id, b.leases.lookup token = some id
      ∧ b' = (b.discharge token id fun inst =>
          { inst with inFlight := [], pending := inst.inFlight ++ inst.pending }).enqueue id := by
  rw [abandonTask] at h
  split at h
  · cases h
  · rename_i id _ hrelease
    obtain ⟨hlookup, rfl⟩ := release_eq_ok hrelease
    cases h
    refine ⟨id, hlookup, ?_⟩
    rw [discharge_modify]
    case hf => exact fun _ => rfl

end Backend

end DurableWorkflow
