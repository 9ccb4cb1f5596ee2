import DurableWorkflow.Backend.Operations
import DurableWorkflow.Proofs.Replay

/-!
# What operations of the backend do to instances

Seen by its names, a backend is a partial function to instances. Delivering events and carrying out
commands only ever append to what is pending, close instances and add new ones; histories, events in
flight and leases stay as they are. This is said once for the primitive operations and then for all
that are made of them. How the queue stands matters to none of it, except that a leased instance is
never queued.

## Main definitions

* `Instance.Tidy` — how the parts of an instance fit together.
* `Instance.Later` — what an instance may become while nobody settles its task.
* `Backend.Requeues` — backends that differ in their queues only.
* `Backend.Keeps` — what delivering events and carrying out commands never touch.
* `Backend.Retains` — the histories of open instances stay.

## Main results

* `Backend.get?_modify`, `Backend.get?_append` — looking up after a change.
* `Backend.enqueue_requeues` — queueing an instance changes the queue only.
* `Backend.applyAll_keeps` — carrying out commands.
-/

namespace DurableWorkflow

namespace Instance

/-- How the parts of an instance fit together: without a task nothing is in flight, only instances
without a task are queued, and only inputs wait to be handed out. -/
structure Tidy (inst : Instance) : Prop where
  /-- Without a task nothing is in flight. -/
  inFlight : inst.lease = none → inst.inFlight = []
  /-- What is queued has no task. -/
  queued : inst.queued = true → inst.lease = none
  /-- Only inputs wait, or were handed out. -/
  inputs : ∀ event ∈ inst.inFlight ++ inst.pending, event.isRecord = false

/-- What an instance may become while nobody settles its task: events wait for it, and it closes. -/
structure Later (inst inst' : Instance) : Prop where
  /-- It is the same run. -/
  info : inst'.info = inst.info
  /-- Its task stays. -/
  lease : inst'.lease = inst.lease
  /-- It is not opened again. -/
  isOpen : inst'.isOpen = true → inst.isOpen = true
  /-- Its history stays as long as it is open. -/
  history : inst'.isOpen = true → inst'.history = inst.history
  /-- What was handed out stays as long as it is open. -/
  inFlight : inst'.isOpen = true → inst'.inFlight = inst.inFlight
  /-- Its parts still fit together. -/
  tidy : inst.Tidy → inst'.Tidy

/-- An instance is what it was. -/
theorem Later.refl (inst : Instance) : inst.Later inst :=
  ⟨rfl, rfl, id, fun _ => rfl, fun _ => rfl, id⟩

/-- What becomes of an instance later becomes of it. -/
theorem Later.trans {a b c : Instance} (h : a.Later b) (h' : b.Later c) : a.Later c where
  info := h'.info.trans h.info
  lease := h'.lease.trans h.lease
  isOpen := h.isOpen ∘ h'.isOpen
  history hopen := (h'.history hopen).trans (h.history (h'.isOpen hopen))
  inFlight hopen := (h'.inFlight hopen).trans (h.inFlight (h'.isOpen hopen))
  tidy := h'.tidy ∘ h.tidy

/-- Whether an instance is as it was created, but for the events that wait for it. -/
structure Fresh (inst : Instance) : Prop where
  /-- Nothing is recorded as long as it is open. -/
  history : inst.isOpen = true → inst.history = []
  /-- Its parts fit together. -/
  tidy : inst.Tidy

/-- An instance stays fresh while nobody settles its task. -/
theorem Fresh.later {a b : Instance} (fresh : a.Fresh) (h : a.Later b) : b.Fresh :=
  ⟨fun hopen => (h.history hopen).trans (fresh.history (h.isOpen hopen)), h.tidy fresh.tidy⟩

end Instance

namespace Backend

variable {b b' c : Backend} {id workflowId : String} {inst inst' : Instance}

/-! ### Looking up -/

/-- An instance is found under its name. -/
theorem get?_name (h : b.get? id = some inst) : inst.info.workflowId = id := by
  simpa using List.find?_some h

/-- A change of one instance that keeps its name is seen under that name only. -/
theorem get?_modify {f : Instance → Instance}
    (hf : ∀ inst, (f inst).info.workflowId = inst.info.workflowId) (b : Backend)
    (workflowId id : String) :
    (b.modify workflowId f).get? id
      = if id = workflowId then (b.get? id).map f else b.get? id := by
  simp only [get?, modify, List.find?_map]
  have hsame : ((fun inst : Instance => decide (inst.info.workflowId = id))
      ∘ fun inst => if inst.info.workflowId = workflowId then f inst else inst)
      = fun inst => decide (inst.info.workflowId = id) := by
    funext inst
    simp only [Function.comp]
    split
    · rw [hf]
    · rfl
  rw [hsame]
  cases hget : b.instances.find? fun inst => decide (inst.info.workflowId = id) with
  | none => split <;> rfl
  | some inst =>
      have hname : inst.info.workflowId = id := by simpa using List.find?_some hget
      simp only [Option.map_some, hname]
      split <;> rfl

/-- A new instance is seen under its name only, if that was not taken. -/
theorem get?_append (h : b.get? inst.info.workflowId = none) (id : String) :
    get? { b with instances := b.instances ++ [inst] } id
      = if id = inst.info.workflowId then some inst else b.get? id := by
  simp only [get?, List.find?_append] at h ⊢
  by_cases hid : id = inst.info.workflowId
  · subst hid
    simp [h]
  · have hother : ¬ inst.info.workflowId = id := fun h => hid h.symm
    simp [hid, hother]

/-- A name is taken if there is an instance under it. -/
theorem contains_eq_false : b.contains id = false ↔ b.get? id = none := by
  simp [contains]

/-! ### Queues -/

/-- Instances that differ in their place in the queue only: one may have joined it if there is no
task, or left it. -/
def Requeued (inst inst' : Instance) : Prop :=
  inst' = { inst with queued := inst'.queued }
    ∧ (inst'.queued = true → inst.queued = true ∨ inst.lease = none)

/-- Backends that differ in their queues and the tokens used only. -/
structure Requeues (b b' : Backend) : Prop where
  /-- The tasks are the same. -/
  leases : b'.leases = b.leases
  /-- No token comes back. -/
  tokens : b.tokens ≤ b'.tokens
  /-- The instances are the same but for their places in the queue. -/
  get? : ∀ id, Option.Rel Requeued (b.get? id) (b'.get? id)

/-- An instance keeps its place. -/
theorem Requeued.refl (inst : Instance) : Requeued inst inst :=
  ⟨rfl, .inl⟩

/-- An instance changes its place again. -/
theorem Requeued.trans {x y z : Instance} (h : Requeued x y) (h' : Requeued y z) :
    Requeued x z := by
  obtain ⟨hy, hqueued⟩ := h
  obtain ⟨hz, hqueued'⟩ := h'
  refine ⟨by rw [hz, hy], fun hlast => ?_⟩
  rcases hqueued' hlast with hmiddle | hlease
  · exact hqueued hmiddle
  · exact .inr (by rw [hy] at hlease; exact hlease)

/-- A backend has the queue it has. -/
theorem Requeues.refl (b : Backend) : b.Requeues b := by
  refine ⟨rfl, Nat.le_refl _, fun id => ?_⟩
  cases b.get? id with
  | none => exact .none
  | some inst => exact .some (.refl inst)

/-- Queues change again. -/
theorem Requeues.trans (h : b.Requeues b') (h' : b'.Requeues c) : b.Requeues c := by
  refine ⟨h'.leases.trans h.leases, Nat.le_trans h.tokens h'.tokens, fun id => ?_⟩
  have hfirst := h.get? id
  have hsecond := h'.get? id
  generalize b.get? id = x, b'.get? id = y, c.get? id = z at hfirst hsecond
  cases hfirst with
  | none => exact hsecond
  | some hfirst =>
      cases hsecond with
      | some hsecond => exact .some (hfirst.trans hsecond)

/-- A change of one instance's place in the queue changes the queue only. -/
theorem modify_requeues {b : Backend} {workflowId : String} {queued : Bool}
    (h : ∀ inst, b.get? workflowId = some inst → queued = true → inst.lease = none) :
    b.Requeues (b.modify workflowId fun inst => { inst with queued }) := by
  refine ⟨rfl, Nat.le_refl _, fun id => ?_⟩
  rw [get?_modify]
  case hf => exact fun _ => rfl
  cases hget : b.get? id with
  | none => split <;> exact .none
  | some inst =>
      split
      · rename_i hid
        subst hid
        exact .some ⟨rfl, fun hqueued => .inr (h inst hget hqueued)⟩
      · exact .some (.refl inst)

/-- Queueing an instance changes the queue only. -/
theorem enqueue_requeues (b : Backend) (workflowId : String) :
    b.Requeues (b.enqueue workflowId) := by
  rw [enqueue]
  split
  · exact .refl b
  · rename_i inst hget
    split
    · exact .refl b
    · rename_i hidle
      have hlease : inst.lease = none := by
        cases hlease : inst.lease with
        | none => rfl
        | some token => simp [hlease] at hidle
      have h : b.Requeues (b.modify workflowId fun inst => { inst with queued := true }) := by
        refine modify_requeues fun other hother _ => ?_
        rw [hget] at hother
        cases hother
        exact hlease
      exact ⟨h.leases, h.tokens, h.get?⟩

/-! ### What delivering events and carrying out commands never touch -/

/-- What delivering events and carrying out commands never touch: tasks stay, and so do instances
but for what waits for them and whether they have closed. There may be new instances. -/
structure Keeps (b b' : Backend) : Prop where
  /-- The tasks are the same. -/
  leases : b'.leases = b.leases
  /-- No token comes back. -/
  tokens : b.tokens ≤ b'.tokens
  /-- Instances stay. -/
  old : ∀ id inst, b.get? id = some inst → ∃ inst', b'.get? id = some inst' ∧ inst.Later inst'
  /-- New ones are fresh. -/
  new : ∀ id inst', b.get? id = none → b'.get? id = some inst' → inst'.Fresh

/-- A backend keeps what it has. -/
theorem Keeps.refl (b : Backend) : b.Keeps b := by
  refine ⟨rfl, Nat.le_refl _, fun _ inst h => ⟨inst, h, .refl inst⟩, fun _ _ hnone h => ?_⟩
  rw [h] at hnone
  cases hnone

/-- What is kept twice is kept. -/
theorem Keeps.trans (h : b.Keeps b') (h' : b'.Keeps c) : b.Keeps c := by
  refine ⟨h'.leases.trans h.leases, Nat.le_trans h.tokens h'.tokens, ?_, ?_⟩
  · intro id x hx
    obtain ⟨y, hy, hxy⟩ := h.old id x hx
    obtain ⟨z, hz, hyz⟩ := h'.old id y hy
    exact ⟨z, hz, hxy.trans hyz⟩
  · intro id z hnone hz
    cases hy : b'.get? id with
    | none => exact h'.new id z hy hz
    | some y =>
        obtain ⟨z', hz', hyz⟩ := h'.old id y hy
        rw [hz] at hz'
        cases hz'
        exact (h.new id y hnone hy).later hyz

/-- What handing tasks out and giving them back never touch either: instances stay, those that are
open have the histories they had, and new ones have none. -/
structure Retains (b b' : Backend) : Prop where
  /-- Instances stay. -/
  known : ∀ id, b'.get? id = none → b.get? id = none
  /-- Histories stay. -/
  histories : ∀ id inst', b'.get? id = some inst' → inst'.isOpen = true →
    (b.get? id = none ∧ inst'.history = [])
      ∨ ∃ inst, b.get? id = some inst ∧ inst.isOpen = true ∧ inst'.info = inst.info
        ∧ inst'.history = inst.history

/-- What is never touched is retained. -/
theorem Keeps.retains (h : b.Keeps b') : b.Retains b' := by
  refine ⟨fun id hnone => ?_, fun id inst' hinst' hopen => ?_⟩
  · cases hget : b.get? id with
    | none => rfl
    | some inst =>
        obtain ⟨later, hlater, -⟩ := h.old id inst hget
        rw [hnone] at hlater
        cases hlater
  · cases hget : b.get? id with
    | none => exact .inl ⟨rfl, (h.new id inst' hget hinst').history hopen⟩
    | some inst =>
        obtain ⟨later, hlater, hbecomes⟩ := h.old id inst hget
        rw [hinst'] at hlater
        cases hlater
        exact .inr ⟨inst, rfl, hbecomes.isOpen hopen, hbecomes.info, hbecomes.history hopen⟩

/-- What is retained twice is retained. -/
theorem Retains.trans (h : b.Retains b') (h' : b'.Retains c) : b.Retains c := by
  refine ⟨fun id hnone => h.known id (h'.known id hnone), fun id z hz hopen => ?_⟩
  rcases h'.histories id z hz hopen with ⟨hnone, hempty⟩ | ⟨y, hy, hopen', hinfo, hhistory⟩
  · exact .inl ⟨h.known id hnone, hempty⟩
  · rcases h.histories id y hy hopen' with ⟨hnone, hempty⟩ | ⟨x, hx, hopen'', hinfo', hhistory'⟩
    · exact .inl ⟨hnone, hhistory.trans hempty⟩
    · exact .inr ⟨x, hx, hopen'', hinfo.trans hinfo', hhistory.trans hhistory'⟩

/-- Queues do not touch it. -/
theorem Requeues.keeps (h : b.Requeues b') : b.Keeps b' := by
  refine ⟨h.leases, h.tokens, fun id inst hinst => ?_, fun id inst' hnone hinst' => ?_⟩
  · have hrel := h.get? id
    rw [hinst] at hrel
    generalize hinst' : b'.get? id = x at hrel
    cases hrel with
    | @some _ inst' hrel =>
        obtain ⟨heq, hqueued⟩ := hrel
        refine ⟨inst', rfl, ?_⟩
        rw [heq]
        refine ⟨rfl, rfl, fun h => h, fun _ => rfl, fun _ => rfl,
          fun tidy => ⟨tidy.inFlight, fun hlast => ?_, tidy.inputs⟩⟩
        rcases hqueued hlast with hfirst | hlease
        · exact tidy.queued hfirst
        · exact hlease
  · have hrel := h.get? id
    rw [hnone, hinst'] at hrel
    cases hrel

/-- Changing one instance into what it may become does not touch it. -/
theorem modify_keeps {f : Instance → Instance} (hf : ∀ inst : Instance, inst.Later (f inst))
    (b : Backend)
    (workflowId : String) : b.Keeps (b.modify workflowId f) := by
  have hget (id : String) : (b.modify workflowId f).get? id
      = if id = workflowId then (b.get? id).map f else b.get? id :=
    get?_modify (fun inst => congrArg RunInfo.workflowId (hf inst).info) b workflowId id
  refine ⟨rfl, Nat.le_refl _, fun id inst hinst => ?_, fun id inst' hnone hinst' => ?_⟩
  · rw [hget, hinst]
    split
    · exact ⟨f inst, rfl, hf inst⟩
    · exact ⟨inst, rfl, .refl inst⟩
  · rw [hget, hnone] at hinst'
    split at hinst' <;> cases hinst'

/-- Delivering an input does not touch it. -/
theorem deliver_keeps {event : Event} (input : event.isRecord = false) (b : Backend)
    (workflowId : String) : b.Keeps (b.deliver workflowId event) := by
  rw [deliver]
  split
  · exact .refl b
  · split
    · refine .trans (modify_keeps (fun inst => ?_) b workflowId) (enqueue_requeues _ _).keeps
      refine ⟨rfl, rfl, fun h => h, fun _ => rfl, fun _ => rfl,
        fun tidy => ⟨tidy.inFlight, tidy.queued, ?_⟩⟩
      intro other hother
      rw [← List.append_assoc, List.mem_append, List.mem_singleton] at hother
      rcases hother with hother | rfl
      · exact tidy.inputs other hother
      · exact input
    · exact .refl b

/-- Creating an instance under a free name does not touch it. -/
theorem create_keeps {info : RunInfo} (free : b.get? info.workflowId = none)
    (parent : Option ParentLink) (input : String) : b.Keeps (b.create info parent input) := by
  rw [create]
  refine .trans ?_ (enqueue_requeues _ _).keeps
  refine ⟨rfl, Nat.le_refl _, fun id inst hinst => ⟨inst, ?_, .refl inst⟩, ?_⟩
  · rw [get?_append free, if_neg, hinst]
    rintro rfl
    rw [free] at hinst
    cases hinst
  · intro id inst' hnone hinst'
    rw [get?_append free] at hinst'
    split at hinst'
    · cases hinst'
      exact ⟨fun _ => rfl, fun _ => rfl, nofun, by simp [Event.isRecord]⟩
    · rw [hnone] at hinst'
      cases hinst'

/-- What a parent hears when a child closes is an input. -/
theorem report?_isRecord {status : Status} {seq : Nat} {event : Event}
    (h : status.report? seq = some event) : event.isRecord = false := by
  cases status <;> cases h <;> rfl

/-- Changing an instance twice. -/
theorem modify_modify {f : Instance → Instance}
    (hf : ∀ inst, (f inst).info.workflowId = inst.info.workflowId) (b : Backend)
    (workflowId : String) (g : Instance → Instance) :
    (b.modify workflowId f).modify workflowId g = b.modify workflowId fun inst => g (f inst) := by
  simp only [modify, List.map_map]
  congr 2
  funext inst
  simp only [Function.comp]
  split
  · rename_i hname
    rw [if_pos ((hf inst).trans hname)]
  · rfl

/-- Nothing changes under a free name. -/
theorem modify_of_none (hnone : b.get? workflowId = none) (f : Instance → Instance) :
    b.modify workflowId f = b := by
  have hother : ∀ inst ∈ b.instances, ¬ inst.info.workflowId = workflowId := by
    simpa [get?] using hnone
  have hsame : b.instances.map (fun inst =>
      if inst.info.workflowId = workflowId then f inst else inst) = b.instances := by
    refine (List.map_congr_left fun inst hinst => if_neg (hother inst hinst)).trans ?_
    exact List.map_id' b.instances
  rw [modify, hsame]

/-- Changing an instance and closing it touches nothing else. -/
theorem modify_close_keeps {f : Instance → Instance} (hinfo : ∀ inst, (f inst).info = inst.info)
    (hlease : ∀ inst, (f inst).lease = inst.lease)
    (htidy : ∀ inst : Instance, inst.Tidy → (f inst).Tidy) {status : Status}
    (terminal : status.isTerminal = true) :
    b.Keeps ((b.modify workflowId f).close workflowId status) := by
  have hshut : b.Keeps ((b.modify workflowId f).modify workflowId
      fun inst => { inst with pending := [], queued := false, status }) := by
    rw [modify_modify fun inst => congrArg RunInfo.workflowId (hinfo inst)]
    refine modify_keeps (fun inst => ?_) b workflowId
    have hclosed : ({ f inst with pending := [], queued := false, status } : Instance).isOpen
        = false := by
      simp [Instance.isOpen, terminal]
    refine ⟨hinfo inst, hlease inst, ?_, ?_, ?_,
      fun tidy => ⟨(htidy inst tidy).inFlight, nofun, ?_⟩⟩
    · rw [hclosed]
      nofun
    · rw [hclosed]
      nofun
    · rw [hclosed]
      nofun
    · intro event hevent
      rw [List.append_nil] at hevent
      exact (htidy inst tidy).inputs event (List.mem_append_left _ hevent)
  rw [close]
  split
  · rename_i hnone
    rw [get?_modify fun inst => congrArg RunInfo.workflowId (hinfo inst), if_pos rfl,
      Option.map_eq_none_iff] at hnone
    rw [modify_of_none hnone]
    exact .refl b
  · dsimp only
    split
    · exact hshut
    · split
      · rename_i hreport
        exact hshut.trans (deliver_keeps (report?_isRecord hreport) _ _)
      · exact hshut

/-- Closing an instance does not touch it. -/
theorem close_keeps {status : Status} (terminal : status.isTerminal = true) (b : Backend)
    (workflowId : String) : b.Keeps (b.close workflowId status) := by
  have hself : b.modify workflowId (fun inst => inst) = b := by simp [modify]
  have h : b.Keeps ((b.modify workflowId fun inst => inst).close workflowId status) :=
    modify_close_keeps (fun _ => rfl) (fun _ => rfl) (fun _ tidy => tidy) terminal
  rwa [hself] at h

/-! ### Carrying out commands -/

/-- Starting a child does not touch it. -/
theorem startChild_keeps (b : Backend) (runId workflowId : String) (start : ChildStart) :
    b.Keeps (b.startChild runId workflowId start).1 := by
  rw [startChild]
  split
  · exact deliver_keeps rfl b workflowId
  · rename_i hfree
    have free : b.get? start.workflowId = none := by simpa [contains] using hfree
    exact (create_keeps free _ _).trans (deliver_keeps rfl _ _)

/-- Asking a child to cancel does not touch it. -/
theorem cancelChild_keeps (b : Backend) (workflowId : String) (seq : Nat) (childId : String) :
    b.Keeps (b.cancelChild workflowId seq childId) := by
  rw [cancelChild]
  split
  · exact deliver_keeps rfl b childId
  · exact .refl b

/-- Carrying out a command does not touch it. -/
theorem apply_keeps (b : Backend) (runId workflowId : String) (command : Command) :
    b.Keeps (b.apply runId workflowId command).1 := by
  cases command with
  | startChild start => exact startChild_keeps b runId workflowId start
  | cancelChild seq childId => exact cancelChild_keeps b workflowId seq childId
  | startTimer seq delayMs => exact .refl b
  | complete result => exact close_keeps rfl b workflowId
  | fail error => exact close_keeps rfl b workflowId
  | cancel reason => exact close_keeps rfl b workflowId

/-- **Carrying out commands leaves tasks, histories and what was handed out alone.** -/
theorem applyAll_keeps (b : Backend) (names : Nat → String) (workflowId : String)
    (commands : List Command) : b.Keeps (b.applyAll names workflowId commands).1 := by
  induction commands generalizing b names with
  | nil => exact .refl b
  | cons command commands ih => exact (apply_keeps b _ workflowId command).trans (ih _ _)

end Backend

end DurableWorkflow
