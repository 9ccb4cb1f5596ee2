import DurableWorkflow.Proofs.ClosedInstances

/-!
# Operations act on one instance

Settling a task, cancelling a workflow and the end of a timer or a timeout act on one instance. What
is recorded and commanded with a task is up to the worker, and commands name other instances: a name
may be taken already, be that of a stranger, of the parent or of the instance itself, or of a child
with another sequence number.

Whatever they name, the other instances stay as they are. The most that can happen to one of them is
that an event is added behind those that wait for it, as long as it is open, and only two kinds can
be: its child tells it how it closed, or its parent asks it to cancel.

## Main definitions

* `Instance.Hears` — an instance as it was, but for the events that wait for it.
* `Backend.actor?` — the instance that an operation acts on.
* `Backend.Reaches` — the events that an operation may add for another instance.
* `Backend.Leaves`, `Backend.Spares` — what a part of an operation does to an instance, and to all
  others than the one that acts.

## Main results

* `Backend.deliver_spares`, `Backend.create_spares`, `Backend.close_spares` — the parts of
  operations.
* `Backend.apply_spares`, `Backend.applyAll_spares` — commands spare other instances, one after the
  other.
* `Backend.completeTask_spares`, `Backend.after_spares` — so does completing a task, and every
  operation.
* `Backend.others_untouched` — what becomes of an instance that an operation does not act on.
-/

namespace DurableWorkflow

namespace Instance

/-- Whether an instance is as it was, but for events that were added behind those that wait for it
and for its place in the queue. -/
def Hears (inst : Instance) (news : List Event) (inst' : Instance) : Prop :=
  inst' = { inst with pending := inst.pending ++ news, queued := inst'.queued }

variable {inst inst' later : Instance} {news more : List Event}

/-- An instance that hears nothing is as it was. -/
theorem Hears.refl (inst : Instance) : inst.Hears [] inst := by
  rw [Hears, List.append_nil]

/-- An instance hears more. -/
theorem Hears.trans (h : inst.Hears news inst') (h' : inst'.Hears more later) :
    inst.Hears (news ++ more) later := by
  rw [Hears] at h h' ⊢
  rw [h', h, List.append_assoc]

/-- An instance that hears of something stays where it belongs. -/
theorem Hears.parent (h : inst.Hears news inst') : inst'.parent = inst.parent := by
  rw [h]

/-- An instance that hears of something is open if it was. -/
theorem Hears.isOpen (h : inst.Hears news inst') : inst'.isOpen = inst.isOpen := by
  rw [h]
  rfl

end Instance

namespace Backend

/-! ### Who acts, and who hears of it -/

/-- The instance that an operation acts on: that of the task which is settled, that which is
cancelled, or that of the alarm. -/
def actor? (b : Backend) : Operation → Option String
  | .complete _ token _ _ | .fail token _ | .abandon token => b.leases.lookup token
  | .cancel workflowId _ => some workflowId
  | .ring (.timer workflowId _ _) | .ring (.timeout workflowId _) => some workflowId
  | .start _ _ | .dispatch _ => none

/-- The commands that come with an operation. -/
def Operation.commands : Operation → List Command
  | .complete _ _ _ commands => commands
  | _ => []

/-- The events that an instance may add for another one, which has a name and belongs somewhere: if
that is its parent, how it closed; if it is its child and a command names it with its sequence
number, the request to cancel. -/
inductive Reaches (actor : String) (home : Option ParentLink) (commands : List Command)
    (closings : List Status) (id : String) (parent : Option ParentLink) : Event → Prop
  | report {seq : Nat} {status : Status} {event : Event} (belongs : home = some ⟨id, seq⟩)
      (closes : status ∈ closings) (tells : status.report? seq = some event) :
      Reaches actor home commands closings id parent event
  | request {seq : Nat} (named : .cancelChild seq id ∈ commands)
      (child : parent = some ⟨actor, seq⟩) :
      Reaches actor home commands closings id parent
        (.cancelRequested ("parent " ++ actor ++ " cancelled"))

/-- Whether an instance is left under its name as it was, but for admitted events that wait for it,
and these only if it is open. -/
def Leaves (b : Backend) (id : String) (inst : Instance) (admits : Event → Prop) : Prop :=
  ∃ inst' news, b.get? id = some inst' ∧ inst.Hears news inst'
    ∧ (news ≠ [] → inst.isOpen = true) ∧ ∀ event ∈ news, admits event

/-- Whether the other instances are spared: the instance that acts belongs where it did, and every
other one is left as it was, but for admitted events. -/
structure Spares (actor : String) (admits : String → Option ParentLink → Event → Prop)
    (b b' : Backend) : Prop where
  /-- The instance that acts belongs where it did. -/
  self : ∀ inst, b.get? actor = some inst →
    ∃ inst', b'.get? actor = some inst' ∧ inst'.parent = inst.parent
  /-- Every other one hears of what is admitted, at most. -/
  others : ∀ id inst, id ≠ actor → b.get? id = some inst →
    b'.Leaves id inst (admits id inst.parent)

variable {b b' c : Backend} {actor id workflowId token : String} {inst inst' : Instance}
  {admits : String → Option ParentLink → Event → Prop} {event : Event} {status : Status}

/-- An instance that hears nothing is left as it was. -/
theorem leaves_of_hears_nil (hget : b.get? id = some inst') (hhears : inst.Hears [] inst')
    (admits : Event → Prop) : b.Leaves id inst admits :=
  ⟨inst', [], hget, hhears, fun h => absurd rfl h, fun _ h => absurd h List.not_mem_nil⟩

/-- Nothing happens to others where nothing happens. -/
theorem Spares.refl (b : Backend) : Spares actor admits b b where
  self inst hget := ⟨inst, hget, rfl⟩
  others _ inst _ hget := leaves_of_hears_nil hget (.refl inst) _

/-- Others are spared by one part after the other. -/
theorem Spares.trans (h : Spares actor admits b b') (h' : Spares actor admits b' c) :
    Spares actor admits b c where
  self inst hget := by
    obtain ⟨inst', hget', hparent⟩ := h.self inst hget
    obtain ⟨later, hlater, hparent'⟩ := h'.self inst' hget'
    exact ⟨later, hlater, hparent'.trans hparent⟩
  others id inst hother hget := by
    obtain ⟨inst', news, hget', hhears, hopen, hadmits⟩ := h.others id inst hother hget
    obtain ⟨later, more, hlater, hhears', hopen', hadmits'⟩ := h'.others id inst' hother hget'
    refine ⟨later, news ++ more, hlater, hhears.trans hhears', fun hne => ?_, ?_⟩
    · by_cases hnews : news = []
      · rw [hnews, List.nil_append] at hne
        exact hhears.isOpen ▸ hopen' hne
      · exact hopen hnews
    · intro event hevent
      rcases List.mem_append.mp hevent with hnews | hmore
      · exact hadmits event hnews
      · exact hhears.parent ▸ hadmits' event hmore

/-- Others are spared by what changes the instance that acts and leaves it where it belongs. -/
theorem Spares.of_change {f : Instance → Instance} (hparent : ∀ inst, (f inst).parent = inst.parent)
    (h : ∀ id, b'.get? id = if id = actor then (b.get? id).map f else b.get? id) :
    Spares actor admits b b' where
  self inst hget := ⟨f inst, by rw [h, if_pos rfl, hget]; rfl, hparent inst⟩
  others id inst hother hget := by
    have hsame : b'.get? id = some inst := by rw [h, if_neg hother, hget]
    exact leaves_of_hears_nil hsame (.refl inst) _

/-- Others are spared by what leaves all instances as they were, but for admitted events. -/
theorem spares_of_leaves (h : ∀ id inst, b.get? id = some inst →
      b'.Leaves id inst fun event => id ≠ actor → admits id inst.parent event) :
    Spares actor admits b b' where
  self inst hget := by
    obtain ⟨inst', news, hget', hhears, -⟩ := h actor inst hget
    exact ⟨inst', hget', hhears.parent⟩
  others id inst hother hget := by
    obtain ⟨inst', news, hget', hhears, hopen, hadmits⟩ := h id inst hget
    exact ⟨inst', news, hget', hhears, hopen, fun event hevent => hadmits event hevent hother⟩

/-! ### The parts of operations -/

/-- An instance hears nothing of changes of queues. -/
theorem Requeues.hears (h : b.Requeues b') (hget : b.get? id = some inst) :
    ∃ inst', b'.get? id = some inst' ∧ inst.Hears [] inst' := by
  have hrel := h.get? id
  rw [hget] at hrel
  generalize b'.get? id = result at hrel
  cases hrel with
  | some hrequeued =>
      refine ⟨_, rfl, ?_⟩
      rw [Instance.Hears, List.append_nil]
      exact hrequeued.1

/-- Changes of queues spare all instances. -/
theorem Requeues.spares (h : b.Requeues b') : Spares actor admits b b' := by
  refine spares_of_leaves fun id inst hget => ?_
  obtain ⟨inst', hget', hhears⟩ := h.hears hget
  exact leaves_of_hears_nil hget' hhears _

/-- An event that is delivered is heard of by the instance it is for, if that is open. -/
theorem deliver_leaves (workflowId : String) (event : Event) (hget : b.get? id = some inst) :
    (b.deliver workflowId event).Leaves id inst fun other => other = event ∧ id = workflowId := by
  have hnothing : b.Leaves id inst fun other => other = event ∧ id = workflowId :=
    leaves_of_hears_nil hget (.refl inst) _
  rw [deliver]
  cases htarget : b.get? workflowId with
  | none => exact hnothing
  | some target =>
      dsimp only
      cases hopen : target.isOpen with
      | false => exact hnothing
      | true =>
          rw [if_pos rfl]
          have hmodify := get?_modify
            (f := fun inst => { inst with pending := inst.pending ++ [event] })
            (fun _ => rfl) b workflowId id
          have hqueue := enqueue_requeues (b.modify workflowId fun inst =>
            { inst with pending := inst.pending ++ [event] }) workflowId
          by_cases hid : id = workflowId
          · subst hid
            obtain rfl : inst = target := Option.some.inj (hget.symm.trans htarget)
            rw [if_pos rfl, hget] at hmodify
            obtain ⟨inst', hget', hhears⟩ := hqueue.hears hmodify
            have hheard : inst.Hears [event] { inst with pending := inst.pending ++ [event] } := rfl
            exact ⟨inst', [event], hget', hheard.trans hhears, fun _ => hopen,
              fun other hother => ⟨List.mem_singleton.mp hother, rfl⟩⟩
          · rw [if_neg hid, hget] at hmodify
            obtain ⟨inst', hget', hhears⟩ := hqueue.hears hmodify
            exact leaves_of_hears_nil hget' hhears _

/-- Delivering an event spares others, if it is admitted where it is delivered. -/
theorem deliver_spares (h : ∀ inst, workflowId ≠ actor → b.get? workflowId = some inst →
      admits workflowId inst.parent event) :
    Spares actor admits b (b.deliver workflowId event) := by
  refine spares_of_leaves fun id inst hget => ?_
  obtain ⟨inst', news, hget', hhears, hopen, hnews⟩ := deliver_leaves workflowId event hget
  refine ⟨inst', news, hget', hhears, hopen, fun other hmem hother => ?_⟩
  obtain ⟨rfl, rfl⟩ := hnews other hmem
  exact h inst hother hget

/-- Adding an instance under a free name spares all there were. -/
theorem create_spares {info : RunInfo} (free : b.get? info.workflowId = none)
    (parent : Option ParentLink) (input : String) :
    Spares actor admits b (b.create info parent input) := by
  rw [create]
  refine .trans (spares_of_leaves fun id inst hget => leaves_of_hears_nil ?_ (.refl inst) _)
    (enqueue_requeues _ info.workflowId).spares
  rw [get?_append free, if_neg, hget]
  rintro rfl
  rw [free] at hget
  cases hget

/-- Changing the instance that acts spares others. -/
theorem modify_spares {f : Instance → Instance} (hinfo : ∀ inst, (f inst).info = inst.info)
    (hparent : ∀ inst, (f inst).parent = inst.parent) :
    Spares actor admits b (b.modify actor f) :=
  .of_change hparent
    fun id => get?_modify (fun inst => congrArg RunInfo.workflowId (hinfo inst)) b actor id

/-- The end of a lease spares others. -/
theorem discharge_spares {f : Instance → Instance} (hinfo : ∀ inst, (f inst).info = inst.info)
    (hparent : ∀ inst, (f inst).parent = inst.parent) :
    Spares actor admits b (b.discharge token actor f) :=
  .of_change (f := fun inst => f { inst with lease := none }) (fun _ => hparent _)
    fun id => get?_discharge hinfo b token actor id

/-- An instance that closes spares others, if what it tells its parent is admitted there. -/
theorem close_spares (h : ∀ inst link event, b.get? actor = some inst → inst.parent = some link →
      status.report? link.seq = some event → ∀ parent, admits link.workflowId parent event) :
    Spares actor admits b (b.close actor status) := by
  rw [close]
  cases hget : b.get? actor with
  | none => exact .refl b
  | some inst =>
      dsimp only
      have hclosed : Spares actor admits b (b.modify actor fun inst =>
          { inst with pending := [], queued := false, status }) := by
        refine modify_spares ?_ ?_ <;> exact fun _ => rfl
      cases hparent : inst.parent with
      | none => exact hclosed
      | some link =>
          dsimp only
          cases hreport : status.report? link.seq with
          | none => exact hclosed
          | some event =>
              exact hclosed.trans (deliver_spares fun _ _ _ =>
                h inst link event hget hparent hreport _)

/-! ### Commands -/

section Commands

variable {commands : List Command} {closings : List Status}

/-- An instance that others were spared by spares them when it closes, too. -/
theorem Spares.close (h : Spares actor (Reaches actor inst.parent commands closings) b b')
    (hget : b.get? actor = some inst) (hstatus : status ∈ closings) :
    Spares actor (Reaches actor inst.parent commands closings) b (b'.close actor status) := by
  obtain ⟨inst', hget', hparent⟩ := h.self inst hget
  refine h.trans (close_spares fun other link event hother hlink hreport parent => ?_)
  obtain rfl : inst' = other := Option.some.inj (hget'.symm.trans hother)
  exact .report (hparent ▸ hlink) hstatus hreport

/-- **A command spares others**, whatever it names. -/
theorem apply_spares (hget : b.get? actor = some inst) (runId : String) {command : Command}
    (hcommand : command ∈ commands)
    (hclosing : ∀ status, command.closing? = some status → status ∈ closings) :
    Spares actor (Reaches actor inst.parent commands closings) b
      (b.apply runId actor command).1 := by
  cases command with
  | startTimer seq delayMs => exact .refl b
  | complete result => exact (Spares.refl b).close hget (hclosing _ rfl)
  | fail error => exact (Spares.refl b).close hget (hclosing _ rfl)
  | cancel reason => exact (Spares.refl b).close hget (hclosing _ rfl)
  | startChild start =>
      rw [apply, startChild]
      split
      · exact deliver_spares fun _ hother => absurd rfl hother
      · rename_i hfree
        have free : b.get? start.workflowId = none := contains_eq_false.mp (by simpa using hfree)
        exact (create_spares free _ _).trans (deliver_spares fun _ hother => absurd rfl hother)
  | cancelChild seq childId =>
      rw [apply, cancelChild]
      split
      · rename_i hchild
        refine deliver_spares fun child _ hknown => ?_
        rw [hknown] at hchild
        exact .request hcommand hchild
      · exact .refl b

/-- **Commands spare others**, one after the other. -/
theorem applyAll_spares (names : Nat → String) {batch : List Command}
    (hget : b.get? actor = some inst)
    (hbatch : ∀ command ∈ batch, command ∈ commands)
    (hclosing : ∀ command ∈ batch, ∀ status, command.closing? = some status → status ∈ closings) :
    Spares actor (Reaches actor inst.parent commands closings) b
      (b.applyAll names actor batch).1 := by
  induction batch generalizing b inst names with
  | nil => exact .refl b
  | cons command batch ih =>
      obtain ⟨hcommand, hrest⟩ := List.forall_mem_cons.mp hbatch
      obtain ⟨hstatus, hrest'⟩ := List.forall_mem_cons.mp hclosing
      have hfirst := apply_spares hget (names 0) hcommand hstatus
      -- the instance still belongs where it did when the next command is carried out
      obtain ⟨inst', hget', hparent⟩ := hfirst.self inst hget
      have hlater := ih (fun i => names (i + 1)) hget' hrest hrest'
      rw [hparent] at hlater
      exact hfirst.trans hlater

end Commands

/-! ### Operations -/

/-- Asking a workflow to cancel spares the others. -/
theorem cancelWorkflow_spares {reason : String} (h : b.cancelWorkflow actor reason = .ok b') :
    Spares actor admits b b' := by
  rw [cancelWorkflow] at h
  split at h <;> cases h
  exact deliver_spares fun _ hother => absurd rfl hother

/-- **Completing a task spares the others**, whatever is recorded and commanded. -/
theorem completeTask_spares {names : Nat → String} {delta : List Event}
    {commands : List Command} {alarms : List Alarm} (hactor : b.leases.lookup token = some actor)
    (h : b.completeTask names token delta commands = .ok (b', alarms)) :
    Spares actor (Reaches actor (b.get? actor >>= Instance.parent) commands
      (commands.filterMap Command.closing?)) b b' := by
  obtain ⟨id, inst, hlookup, hget, hcases⟩ := completeTask_inv h
  obtain rfl : actor = id := Option.some.inj (hactor.symm.trans hlookup)
  rw [hget]
  rcases hcases with ⟨-, -, rfl⟩ | ⟨-, b₁, happly, rfl⟩
  · refine discharge_spares ?_ ?_ <;> exact fun _ => rfl
  · have hrecorded : Spares actor
        (Reaches actor inst.parent commands (commands.filterMap Command.closing?)) b
        (b.recordDelta token actor delta) := by
      refine discharge_spares ?_ ?_ <;> exact fun _ => rfl
    obtain ⟨inst', hget', hparent⟩ := hrecorded.self inst hget
    have hbatch : Spares actor
        (Reaches actor inst'.parent commands (commands.filterMap Command.closing?))
        (b.recordDelta token actor delta)
        ((b.recordDelta token actor delta).applyAll names actor commands).1 :=
      applyAll_spares names hget' (fun _ hcommand => hcommand) fun command hcommand _ hstatus =>
        List.mem_filterMap.mpr ⟨command, hcommand, hstatus⟩
    rw [hparent, happly] at hbatch
    exact (hrecorded.trans hbatch).trans (enqueue_requeues b₁ actor).spares

/-- Failing a task spares the others. -/
theorem failTask_spares {error : Failure} (hactor : b.leases.lookup token = some actor)
    (h : b.failTask token error = .ok b') :
    Spares actor (Reaches actor (b.get? actor >>= Instance.parent) [] [.failed error]) b b' := by
  obtain ⟨id, hlookup, hcases⟩ := failTask_inv h
  obtain rfl : actor = id := Option.some.inj (hactor.symm.trans hlookup)
  rcases hcases with ⟨-, rfl⟩ | ⟨inst, hget, -, rfl⟩
  · refine discharge_spares ?_ ?_ <;> exact fun _ => rfl
  · rw [hget]
    refine Spares.close (discharge_spares ?_ ?_) hget (List.mem_singleton_self _) <;>
      exact fun _ => rfl

/-- Giving a task back spares the others. -/
theorem abandonTask_spares (hactor : b.leases.lookup token = some actor)
    (h : b.abandonTask token = .ok b') : Spares actor admits b b' := by
  obtain ⟨id, hlookup, rfl⟩ := abandonTask_inv h
  obtain rfl : actor = id := Option.some.inj (hactor.symm.trans hlookup)
  refine Spares.trans (discharge_spares ?_ ?_) (enqueue_requeues _ actor).spares <;>
    exact fun _ => rfl

/-- An instance that runs out of time spares the others. -/
theorem timeOut_spares (b : Backend) (actor : String) :
    Spares actor (Reaches actor (b.get? actor >>= Instance.parent) [] [.timedOut]) b
      (b.timeOut actor) := by
  rcases b.timeOut_inv actor with ⟨-, hsame⟩ | ⟨inst, hget, -, hclose⟩
  · rw [hsame]
    exact .refl b
  · rw [hclose, hget]
    refine Spares.close (modify_spares ?_ ?_) hget (List.mem_singleton_self _) <;>
      exact fun _ => rfl

/-- **Every operation spares the instances that it does not act on.** -/
theorem after_spares {operation : Operation} (hactor : b.actor? operation = some actor) :
    Spares actor (Reaches actor (b.get? actor >>= Instance.parent) operation.commands
      operation.closings) b (b.after operation) := by
  cases operation with
  | start names request => cases hactor
  | dispatch taskQueue => cases hactor
  | cancel workflowId reason =>
      cases hactor
      rw [after]
      split
      · rename_i hok
        exact cancelWorkflow_spares hok
      · exact .refl b
  | complete names token delta commands =>
      rw [after]
      split
      · rename_i hok
        exact completeTask_spares hactor hok
      · exact .refl b
  | fail token error =>
      rw [after]
      split
      · rename_i hok
        exact failTask_spares hactor hok
      · exact .refl b
  | abandon token =>
      rw [after]
      split
      · rename_i hok
        exact abandonTask_spares hactor hok
      · exact .refl b
  | ring alarm =>
      cases alarm with
      | timer workflowId seq afterMs =>
          cases hactor
          exact deliver_spares fun _ hother => absurd rfl hother
      | timeout workflowId afterMs =>
          cases hactor
          exact timeOut_spares b actor

/-! ### Other instances -/

/-- How a child closed is no request to cancel. -/
theorem report?_ne_cancelRequested (status : Status) (seq : Nat) (reason : String) :
    status.report? seq ≠ some (.cancelRequested reason) := by
  cases status <;> rintro ⟨⟩

/-- **What becomes of an instance that an operation does not act on.** Whatever is recorded and
commanded, it keeps its identity, its parent, its history, its status, its lease and what was handed
out. Events may be added behind those that wait for it, if it is open: from its child, how that
closed, and from its parent, the request to cancel. No command cancels an instance that is not the
child with the sequence number it gives. -/
theorem others_untouched (b : Backend) {operation : Operation}
    (hactor : b.actor? operation = some actor) (hother : id ≠ actor)
    (hget : b.get? id = some inst) :
    ∃ inst' news, (b.after operation).get? id = some inst'
      ∧ inst' = { inst with pending := inst.pending ++ news, queued := inst'.queued }
      ∧ (news ≠ [] → inst.isOpen = true)
      ∧ (∀ event ∈ news, Reaches actor (b.get? actor >>= Instance.parent) operation.commands
        operation.closings id inst.parent event)
      ∧ ((∀ seq, inst.parent = some ⟨actor, seq⟩ → .cancelChild seq id ∉ operation.commands) →
        ∀ reason, .cancelRequested reason ∉ news) := by
  obtain ⟨inst', news, hget', hhears, hopen, hreaches⟩ :=
    (after_spares hactor).others id inst hother hget
  refine ⟨inst', news, hget', hhears, hopen, hreaches, fun hstranger reason hmem => ?_⟩
  generalize hevent : Event.cancelRequested reason = event at hmem
  cases hreaches event hmem with
  | report _ _ tells => exact report?_ne_cancelRequested _ _ reason (hevent ▸ tells)
  | request named child => exact hstranger _ child named

/-- A child that has completed says that its parent is its child and should cancel. -/
def upstart : Operation :=
  .complete (namesFrom 3) (tokenName 2) [] [.complete "yes", .cancelChild 1 "parent"]

/-- The parent hears that its child has completed, and of no request to cancel. -/
theorem upstart_reports :
    ∃ inst inst' news, (empty.afterAll family).get? "parent" = some inst
      ∧ ((empty.afterAll family).after upstart).get? "parent" = some inst'
      ∧ inst' = { inst with pending := inst.pending ++ news, queued := inst'.queued }
      ∧ .childCompleted 1 "yes" ∈ inst'.pending
      ∧ ∀ reason, .cancelRequested reason ∉ news := by
  have hparent : ((empty.afterAll family).get? "parent").map Instance.parent = some none := by
    decide +kernel
  have hheard : (((empty.afterAll family).after upstart).get? "parent").map Instance.pending
      = some [.childStarted 1 (generatedName 2), .childCompleted 1 "yes"] := by
    decide +kernel
  have hactor : (empty.afterAll family).actor? upstart = some "child" := by decide +kernel
  obtain ⟨inst, hget, hroot⟩ := Option.map_eq_some_iff.mp hparent
  obtain ⟨inst', news, hget', hsame, -, -, hnone⟩ :=
    others_untouched (empty.afterAll family) hactor (by decide) hget
  rw [hget'] at hheard
  refine ⟨inst, inst', news, hget, hget', hsame, ?_, hnone fun seq hchild => ?_⟩
  · rw [Option.some.inj hheard]
    simp
  · rw [hroot] at hchild
    cases hchild

end Backend

end DurableWorkflow
