import DurableWorkflow.Proofs.Accounts

/-!
# What instances stay

Whatever happens to a backend while nobody records history, its instances stay: who they are, whose
children they are and what their histories are. One that has closed stays as it closed, and nobody
becomes its child any more. This is said once for the primitive operations and then for all that are
made of them, with the names of the instances that may be cancelled on the way.

## Main definitions

* `Instance.Lasts` — what an instance stays.
* `Backend.Lasts` — so do all, and only some may be cancelled.

## Main results

* `Backend.modify_lasts`, `Backend.deliver_lasts`, `Backend.create_lasts`, `Backend.close_lasts` —
  the primitive operations.
* `Backend.applyAll_lasts` — carrying out commands cancels the instance at most, and only if they
  say so.
-/

namespace DurableWorkflow

namespace Instance

/-- What an instance stays while nobody records history for it. -/
structure Lasts (inst inst' : Instance) : Prop where
  /-- It is the same run. -/
  info : inst'.info = inst.info
  /-- It is the same child. -/
  parent : inst'.parent = inst.parent
  /-- It has the same history. -/
  history : inst'.history = inst.history
  /-- Once it has closed it stays as it closed. -/
  status : inst.isOpen = false → inst'.status = inst.status

/-- An instance stays what it is. -/
theorem Lasts.refl (inst : Instance) : inst.Lasts inst :=
  ⟨rfl, rfl, rfl, fun _ => rfl⟩

/-- An instance that has closed stays closed. -/
theorem Lasts.isClosed {inst inst' : Instance} (h : inst.Lasts inst')
    (hclosed : inst.isOpen = false) : inst'.isOpen = false := by
  rw [isOpen, h.status hclosed]
  exact hclosed

/-- An instance stays what it was. -/
theorem Lasts.trans {a b c : Instance} (h : a.Lasts b) (h' : b.Lasts c) : a.Lasts c :=
  ⟨h'.info.trans h.info, h'.parent.trans h.parent, h'.history.trans h.history,
    fun hclosed => (h'.status (h.isClosed hclosed)).trans (h.status hclosed)⟩

end Instance

namespace Backend

/-- What a backend keeps while nobody records history: its instances stay, those that have closed
get no children, and only some may be cancelled. -/
structure Lasts (cancels : String → Prop) (b b' : Backend) : Prop where
  /-- Instances stay. -/
  old : ∀ id inst, b.get? id = some inst → ∃ inst', b'.get? id = some inst' ∧ inst.Lasts inst'
  /-- Nobody becomes the child of an instance that has closed. -/
  new : ∀ id inst' link, b.get? id = none → b'.get? id = some inst' → inst'.parent = some link →
    ∀ parent, b.get? link.workflowId = some parent → parent.isOpen = true
  /-- Who is cancelled was so, or may be cancelled. -/
  cancelled : ∀ id inst' reason, b'.get? id = some inst' → inst'.status = .cancelled reason →
    (∃ inst, b.get? id = some inst ∧ inst.status = .cancelled reason) ∨ cancels id

variable {cancels : String → Prop} {b b' c : Backend} {workflowId : String}

/-- A backend keeps what it has. -/
theorem Lasts.refl (b : Backend) : b.Lasts cancels b := by
  refine ⟨fun _ inst h => ⟨inst, h, .refl inst⟩, fun _ _ _ hnone h => ?_,
    fun _ inst _ h hcancelled => .inl ⟨inst, h, hcancelled⟩⟩
  rw [h] at hnone
  cases hnone

/-- What is kept twice is kept. -/
theorem Lasts.trans (h : b.Lasts cancels b') (h' : b'.Lasts cancels c) : b.Lasts cancels c := by
  refine ⟨?_, ?_, ?_⟩
  · intro id x hx
    obtain ⟨y, hy, hxy⟩ := h.old id x hx
    obtain ⟨z, hz, hyz⟩ := h'.old id y hy
    exact ⟨z, hz, hxy.trans hyz⟩
  · intro id z link hnone hz hlink parent hparent
    cases hy : b'.get? id with
    | none =>
        obtain ⟨later, hlater, hlasts⟩ := h.old _ parent hparent
        have hopen := h'.new id z link hy hz hlink later hlater
        cases hclosed : parent.isOpen with
        | true => rfl
        | false =>
            rw [hlasts.isClosed hclosed] at hopen
            cases hopen
    | some y =>
        obtain ⟨z', hz', hyz⟩ := h'.old id y hy
        rw [hz] at hz'
        cases hz'
        exact h.new id y link hnone hy (hyz.parent ▸ hlink) parent hparent
  · intro id z reason hz hcancelled
    rcases h'.cancelled id z reason hz hcancelled with ⟨y, hy, hcancelled'⟩ | hmay
    · exact h.cancelled id y reason hy hcancelled'
    · exact .inr hmay

/-- Nothing but instances matters. -/
theorem lasts_of_instances (h : b'.instances = b.instances) : b.Lasts cancels b' := by
  have hsame : b'.get? = b.get? := by
    funext id
    rw [get?, get?, h]
  obtain ⟨hold, hnew, hcancelled⟩ := Lasts.refl (b := b)
  refine ⟨?_, ?_, ?_⟩ <;> rw [hsame]
  · exact hold
  · exact hnew
  · exact hcancelled

/-! ### The primitive operations -/

/-- Queues do not touch it. -/
theorem Requeues.lasts (h : b.Requeues b') : b.Lasts cancels b' := by
  have hback {id : String} {inst' : Instance} (hinst' : b'.get? id = some inst') :
      ∃ inst, b.get? id = some inst ∧ inst' = { inst with queued := inst'.queued } := by
    have hrel := h.get? id
    rw [hinst'] at hrel
    generalize b.get? id = old at hrel
    cases hrel with
    | some hrel => exact ⟨_, rfl, hrel.1⟩
  refine ⟨?_, ?_, ?_⟩
  · intro id inst hinst
    have hrel := h.get? id
    rw [hinst] at hrel
    generalize b'.get? id = new at hrel
    cases hrel with
    | some hrel =>
        rw [hrel.1]
        exact ⟨_, rfl, rfl, rfl, rfl, fun _ => rfl⟩
  · intro id inst' link hnone hinst'
    obtain ⟨inst, hinst, -⟩ := hback hinst'
    rw [hnone] at hinst
    cases hinst
  · intro id inst' reason hinst' hcancelled
    obtain ⟨inst, hinst, heq⟩ := hback hinst'
    rw [heq] at hcancelled
    exact .inl ⟨inst, hinst, hcancelled⟩

/-- Changing one instance into what it stays. -/
theorem modify_lasts {f : Instance → Instance}
    (hname : ∀ inst, (f inst).info.workflowId = inst.info.workflowId)
    (hf : ∀ inst, b.get? workflowId = some inst → inst.Lasts (f inst))
    (hstatus : ∀ inst reason, b.get? workflowId = some inst → (f inst).status = .cancelled reason →
      inst.status = .cancelled reason ∨ cancels workflowId) :
    b.Lasts cancels (b.modify workflowId f) := by
  have hget (id : String) : (b.modify workflowId f).get? id
      = if id = workflowId then (b.get? id).map f else b.get? id :=
    get?_modify hname b workflowId id
  refine ⟨?_, ?_, ?_⟩
  · intro id inst hinst
    rw [hget, hinst]
    split
    · rename_i hid
      exact ⟨f inst, rfl, hf inst (hid ▸ hinst)⟩
    · exact ⟨inst, rfl, .refl inst⟩
  · intro id inst' link hnone hinst'
    rw [hget, hnone] at hinst'
    split at hinst' <;> cases hinst'
  · intro id inst' reason hinst' hcancelled
    rw [hget] at hinst'
    split at hinst'
    · rename_i hid
      subst hid
      obtain ⟨inst, hinst, rfl⟩ := Option.map_eq_some_iff.mp hinst'
      exact (hstatus inst reason hinst hcancelled).imp_left fun h => ⟨inst, hinst, h⟩
    · exact .inl ⟨inst', hinst', hcancelled⟩

/-- Delivering an event. -/
theorem deliver_lasts (b : Backend) (workflowId : String) (event : Event) :
    b.Lasts cancels (b.deliver workflowId event) := by
  rw [deliver]
  split
  · exact .refl b
  · split
    · have hmodify : b.Lasts cancels (b.modify workflowId fun inst =>
          { inst with pending := inst.pending ++ [event] }) := by
        refine modify_lasts (fun _ => rfl) ?_ ?_
        · exact fun _ _ => ⟨rfl, rfl, rfl, fun _ => rfl⟩
        · exact fun _ _ _ hcancelled => .inl hcancelled
      exact hmodify.trans (enqueue_requeues _ _).lasts
    · exact .refl b

/-- Creating an instance, whose parent is open if it has one that is known. -/
theorem create_lasts {info : RunInfo} (free : b.get? info.workflowId = none)
    {link : Option ParentLink} (hlink : ∀ parent other, link = some parent →
      b.get? parent.workflowId = some other → other.isOpen = true) (input : String) :
    b.Lasts cancels (b.create info link input) := by
  rw [create]
  refine .trans ⟨?_, ?_, ?_⟩ (enqueue_requeues _ _).lasts
  · intro id inst hinst
    refine ⟨inst, ?_, .refl inst⟩
    rw [get?_append free, if_neg, hinst]
    rintro rfl
    rw [free] at hinst
    cases hinst
  · intro id inst' parent hnone hinst' hparent other hother
    rw [get?_append free] at hinst'
    split at hinst'
    · cases hinst'
      exact hlink parent other hparent hother
    · rw [hnone] at hinst'
      cases hinst'
  · intro id inst' reason hinst' hcancelled
    rw [get?_append free] at hinst'
    split at hinst'
    · cases hinst'
      cases hcancelled
    · exact .inl ⟨inst', hinst', hcancelled⟩

/-- Closing an open instance. -/
theorem close_lasts {status : Status}
    (hopen : ∀ inst, b.get? workflowId = some inst → inst.isOpen = true)
    (hstatus : ∀ reason, status = .cancelled reason → cancels workflowId) :
    b.Lasts cancels (b.close workflowId status) := by
  have hshut : b.Lasts cancels (b.modify workflowId fun inst =>
      { inst with pending := [], queued := false, status }) := by
    refine modify_lasts (fun _ => rfl) ?_ ?_
    · intro inst hinst
      refine ⟨rfl, rfl, rfl, fun hclosed => ?_⟩
      rw [hopen inst hinst] at hclosed
      cases hclosed
    · exact fun _ reason _ hcancelled => .inr (hstatus reason hcancelled)
  rw [close]
  split
  · exact .refl b
  · dsimp only
    split
    · exact hshut
    · split
      · exact hshut.trans (deliver_lasts _ _ _)
      · exact hshut

/-! ### Commands -/

/-- An instance that stands open is open. -/
theorem isOpen_of_standing (h : b.standing.IsOpen workflowId) {inst : Instance}
    (hget : b.get? workflowId = some inst) : inst.isOpen = true := by
  obtain ⟨standing, hstanding, hrunning⟩ := h
  rw [standing_of_get? hget] at hstanding
  cases hstanding
  exact Instance.isOpen_iff.mpr hrunning

/-- Starting a child of an open instance. -/
theorem startChild_lasts (hopen : b.standing.IsOpen workflowId) (runId : String)
    (start : ChildStart) : b.Lasts cancels (b.startChild runId workflowId start).1 := by
  rw [startChild]
  split
  · exact deliver_lasts b _ _
  · rename_i hfree
    have free : b.get? start.workflowId = none := by simpa [contains] using hfree
    refine (create_lasts free ?_ _).trans (deliver_lasts _ _ _)
    rintro parent other ⟨⟩ hother
    exact isOpen_of_standing hopen hother

/-- Carrying out a command of an open instance. -/
theorem apply_lasts (hopen : b.standing.IsOpen workflowId) {command : Command}
    (hcommand : ∀ reason, command = .cancel reason → cancels workflowId) (runId : String) :
    b.Lasts cancels (b.apply runId workflowId command).1 := by
  have hinst (inst : Instance) (hget : b.get? workflowId = some inst) : inst.isOpen = true :=
    isOpen_of_standing hopen hget
  cases command with
  | startChild start => exact startChild_lasts hopen runId start
  | cancelChild seq childId =>
      rw [apply, cancelChild]
      split
      · exact deliver_lasts b _ _
      · exact .refl b
  | startTimer seq delayMs => exact .refl b
  | complete result => exact close_lasts hinst (by simp)
  | fail error => exact close_lasts hinst (by simp)
  | cancel reason => exact close_lasts hinst fun _ _ => hcommand reason rfl

/-- **Carrying out commands of an open instance** cancels it at most, and only if they say so. -/
theorem applyAll_lasts {log : Log} {commands : List Command} (hopen : b.standing.IsOpen workflowId)
    (once : ((log workflowId ++ commands).filterMap Command.introduces?).Nodup)
    (last : commands.Pairwise fun command _ => command.isTerminal = false)
    (hcommands : ∀ reason, .cancel reason ∈ commands → cancels workflowId)
    (names : Nat → String) : b.Lasts cancels (b.applyAll names workflowId commands).1 := by
  refine applyAll_induction (P := fun later _ _ => b.Lasts cancels later) ?_ names [] (.refl b)
    hopen once last
  intro later _ _ runId command hcommand hlasts hopen' _
  refine hlasts.trans (apply_lasts hopen' (fun reason heq => ?_) runId)
  exact hcommands reason (heq ▸ hcommand)

/-! ### Tasks, clients and alarms -/

/-- Ending a lease. -/
theorem discharge_lasts {f : Instance → Instance} (hf : ∀ inst : Instance, inst.Lasts (f inst))
    (hstatus : ∀ inst, (f inst).status = inst.status) (b : Backend) (token workflowId : String) :
    b.Lasts cancels (b.discharge token workflowId f) := by
  have hleases (leases : List (String × String)) : b.Lasts cancels { b with leases } :=
    lasts_of_instances rfl
  refine (hleases _).trans (modify_lasts (fun inst => ?_) (fun inst _ => ?_) ?_)
  · exact congrArg RunInfo.workflowId (hf { inst with lease := none }).info
  · have hlease : inst.Lasts { inst with lease := none } := ⟨rfl, rfl, rfl, fun _ => rfl⟩
    exact hlease.trans (hf { inst with lease := none })
  · exact fun inst reason _ hcancelled => .inl ((hstatus { inst with lease := none }).symm.trans
      hcancelled)

/-- Handing out a task, or none. -/
theorem dispatch_lasts {taskQueue : String} {result : Option Task}
    (h : b.dispatch taskQueue = (result, b')) : b.Lasts cancels b' := by
  rcases dispatch_inv h with ⟨-, hrequeues⟩ | ⟨b₁, inst, hrequeues, -, -, -, -, -, rfl⟩
  · exact hrequeues.lasts
  · refine hrequeues.lasts.trans ?_
    have hmodify : b₁.Lasts cancels (b₁.modify inst.info.workflowId fun inst =>
        { inst with
          queued := false, lease := some (tokenName b₁.tokens), inFlight := inst.pending
          pending := [] }) := by
      refine modify_lasts (fun _ => rfl) ?_ ?_
      · exact fun _ _ => ⟨rfl, rfl, rfl, fun _ => rfl⟩
      · exact fun _ _ _ hcancelled => .inl hcancelled
    exact hmodify.trans (lasts_of_instances rfl)

/-- Giving a task back. -/
theorem abandonTask_lasts {token : String} (h : b.abandonTask token = .ok b') :
    b.Lasts cancels b' := by
  obtain ⟨id, -, rfl⟩ := abandonTask_inv h
  have hdischarge : b.Lasts cancels (b.discharge token id fun inst =>
      { inst with inFlight := [], pending := inst.inFlight ++ inst.pending }) := by
    refine discharge_lasts ?_ ?_ b token id
    · exact fun _ => ⟨rfl, rfl, rfl, fun _ => rfl⟩
    · exact fun _ => rfl
  exact hdischarge.trans (enqueue_requeues _ _).lasts

/-- Starting a workflow from outside. -/
theorem startWorkflow_lasts {names : Nat → String} {request : StartRequest}
    {started : StartedWorkflow} {alarms : List Alarm}
    (h : b.startWorkflow names request = .ok (started, b', alarms)) : b.Lasts cancels b' := by
  obtain ⟨info, free, rfl, -⟩ := startWorkflow_inv h
  refine create_lasts free ?_ _
  intro parent other hparent
  cases hparent

/-- Asking a workflow to cancel. -/
theorem cancelWorkflow_lasts {reason : String} (h : b.cancelWorkflow workflowId reason = .ok b') :
    b.Lasts cancels b' := by
  rw [cancelWorkflow] at h
  split at h
  · cases h
    exact deliver_lasts b _ _
  · cases h

end Backend

end DurableWorkflow
