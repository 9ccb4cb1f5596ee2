import DurableWorkflow.Backend.Clock
import DurableWorkflow.Proofs.Places

/-!
# Where an open instance is

An open instance is leased to one worker, or it waits in its own queue, once, because there is
something to hand out, or there is nothing to hand out. This holds whatever clients and workers ask
for and in whichever order, and whatever workers record and command.

## Main definitions

* `Backend.Operation`, `Backend.after`, `Backend.afterAll` — what clients, workers and the clock can
  do to a backend, one operation or several.
* `Backend.InOrder` — the invariant of all operations.
* `Backend.Situation`, `Backend.Finds` — the three situations of an open instance.
* `Backend.Scheduled` — what is to be seen of a backend in order.

## Main results

* `Backend.InOrder.after`, `Backend.InOrder.afterAll` — operations keep everything in order.
* `Backend.scheduled_afterAll` — so every open instance is in one of the three situations.
-/

namespace DurableWorkflow

namespace Backend

/-! ### Operations -/

/-- What clients, workers and the clock can do to a backend, with the names that it draws for them.
Looking at an instance changes nothing and is left out. -/
inductive Operation where
  /-- Start a workflow. -/
  | start (names : Nat → String) (request : StartRequest)
  /-- Ask a workflow to cancel. -/
  | cancel (workflowId reason : String)
  /-- Take a task from a queue. -/
  | dispatch (taskQueue : String)
  /-- Complete a task. -/
  | complete (names : Nat → String) (token : String) (delta : List Event)
    (commands : List Command)
  /-- Fail a task. -/
  | fail (token : String) (error : Failure)
  /-- Give a task back. -/
  | abandon (token : String)
  /-- Let a timer fire or a workflow run out of time. -/
  | ring (alarm : Alarm)
  deriving Inhabited

/-- A backend after an operation. One that is refused changes nothing. -/
def after (b : Backend) : Operation → Backend
  | .start names request =>
    match b.startWorkflow names request with
    | .ok (_, b', _) => b'
    | .error _ => b
  | .cancel workflowId reason =>
    match b.cancelWorkflow workflowId reason with
    | .ok b' => b'
    | .error _ => b
  | .dispatch taskQueue => (b.dispatch taskQueue).2
  | .complete names token delta commands =>
    match b.completeTask names token delta commands with
    | .ok (b', _) => b'
    | .error _ => b
  | .fail token error =>
    match b.failTask token error with
    | .ok b' => b'
    | .error _ => b
  | .abandon token =>
    match b.abandonTask token with
    | .ok b' => b'
    | .error _ => b
  | .ring alarm => b.ring alarm

/-- A backend after several operations. -/
def afterAll (b : Backend) (operations : List Operation) : Backend :=
  operations.foldl after b

variable {b b' : Backend} {workflowId token id : String} {inst : Instance}

/-! ### The invariant -/

/-- Whether instances and leases fit together and all instances are in their places. -/
structure InOrder (b : Backend) : Prop where
  /-- Instances and leases fit together. -/
  sound : b.Sound
  /-- All instances are in their places. -/
  arranged : b.Arranged fun _ => False

/-- A backend without instances is in order. -/
theorem inOrder_empty : empty.InOrder :=
  ⟨sound_empty, arranged_empty _⟩

/-- Starting a workflow keeps everything in order. -/
theorem InOrder.startWorkflow (h : b.InOrder) {names : Nat → String} {request : StartRequest}
    {started : StartedWorkflow} {alarms : List Alarm}
    (hstart : b.startWorkflow names request = .ok (started, b', alarms)) : b'.InOrder := by
  obtain ⟨info, free, rfl, -⟩ := startWorkflow_inv hstart
  exact ⟨h.sound.keeps (create_keeps free none request.input),
    h.arranged.create free none request.input⟩

/-- Asking a workflow to cancel keeps everything in order. -/
theorem InOrder.cancelWorkflow (h : b.InOrder) {workflowId reason : String}
    (hcancel : b.cancelWorkflow workflowId reason = .ok b') : b'.InOrder := by
  rw [Backend.cancelWorkflow] at hcancel
  split at hcancel
  · cases hcancel
    exact ⟨h.sound.keeps (deliver_keeps rfl b workflowId), h.arranged.deliver workflowId _⟩
  · cases hcancel

/-- Handing out a task keeps everything in order. -/
theorem InOrder.dispatch (h : b.InOrder) {taskQueue : String} {result : Option Task}
    (hresult : b.dispatch taskQueue = (result, b')) : b'.InOrder :=
  ⟨(dispatch_shifts h.sound hresult).sound, (h.arranged.dispatch h.sound hresult).1⟩

/-- Dropping the events of a task whose instance has closed keeps everything in order. -/
theorem InOrder.discard (h : b.InOrder) (hlease : (token, workflowId) ∈ b.leases)
    (hclosed : ∀ inst, b.get? workflowId = some inst → inst.isOpen = false) :
    (b.discharge token workflowId fun inst => { inst with inFlight := [] }).InOrder := by
  refine ⟨(discard_shifts h.sound hlease hclosed).sound, Arranged.of_isClosed
    (h.arranged.discharge h.sound hlease fun inst => ⟨_, _, _, rfl⟩) fun inst' hinst' => ?_⟩
  rw [get?_discharge, if_pos rfl] at hinst'
  case hf => exact fun _ => rfl
  obtain ⟨inst, hget, rfl⟩ := Option.map_eq_some_iff.mp hinst'
  exact hclosed inst hget

/-- **Completing a task keeps everything in order**, whatever is recorded and commanded. -/
theorem InOrder.completeTask (h : b.InOrder) {names : Nat → String} {delta : List Event}
    {commands : List Command} {alarms : List Alarm}
    (hcomplete : b.completeTask names token delta commands = .ok (b', alarms)) : b'.InOrder := by
  obtain ⟨id, inst, hlookup, hget, ⟨hclosed, -, rfl⟩ | ⟨-, b₁, happly, rfl⟩⟩ :=
    completeTask_inv hcomplete
  · refine h.discard (mem_leases hlookup) fun other hother => ?_
    obtain rfl : inst = other := Option.some.inj (hget.symm.trans hother)
    exact hclosed
  · have hlease := mem_leases hlookup
    have hkeeps := applyAll_keeps (b.recordDelta token id delta) names id commands
    have harranged := Arranged.applyAll
      (h.arranged.discharge (f := fun inst =>
        { inst with inFlight := [], history := inst.history ++ delta })
        h.sound hlease fun inst => ⟨_, _, _, rfl⟩) names id commands
    rw [show b.discharge token id _ = b.recordDelta token id delta from rfl] at harranged
    rw [happly] at hkeeps harranged
    have hsound := (h.sound.recordDelta hlease delta).keeps hkeeps
    exact ⟨hsound.keeps (enqueue_requeues b₁ id).keeps, harranged.enqueue⟩

/-- Failing a task keeps everything in order. -/
theorem InOrder.failTask (h : b.InOrder) {error : Failure}
    (hfail : b.failTask token error = .ok b') : b'.InOrder := by
  obtain ⟨id, hlookup, ⟨hclosed, rfl⟩ | ⟨inst, -, -, rfl⟩⟩ := failTask_inv hfail
  · exact h.discard (mem_leases hlookup) hclosed
  · have hlease := mem_leases hlookup
    have terminal : (Status.failed error).isTerminal = true := rfl
    refine ⟨(h.sound.recordDelta hlease _).keeps (close_keeps terminal _ id),
      Arranged.of_isClosed (Arranged.close ?_ id terminal) fun inst => isOpen_close terminal⟩
    exact h.arranged.discharge h.sound hlease fun inst => ⟨_, _, _, rfl⟩

/-- Giving a task back keeps everything in order. -/
theorem InOrder.abandonTask (h : b.InOrder) (habandon : b.abandonTask token = .ok b') :
    b'.InOrder := by
  refine ⟨(abandonTask_shifts h.sound habandon).sound, ?_⟩
  obtain ⟨id, hlookup, rfl⟩ := abandonTask_inv habandon
  exact Arranged.enqueue
    (h.arranged.discharge h.sound (mem_leases hlookup) fun inst => ⟨_, _, _, rfl⟩)

/-- An alarm that goes off touches neither tasks nor instances, but for what waits for one and
whether it has closed. -/
theorem ring_keeps (b : Backend) (alarm : Alarm) : b.Keeps (b.ring alarm) := by
  cases alarm with
  | timer workflowId seq afterMs => exact deliver_keeps rfl b workflowId
  | timeout workflowId afterMs =>
      rcases b.timeOut_inv workflowId with ⟨-, hsame⟩ | ⟨inst, -, -, hclose⟩
      · rw [Backend.ring, hsame]
        exact .refl b
      · rw [Backend.ring, hclose]
        refine modify_close_keeps ?_ ?_ (fun inst tidy => ?_) rfl
        · exact fun _ => rfl
        · exact fun _ => rfl
        · exact ⟨tidy.inFlight, tidy.queued, tidy.inputs⟩

/-- An alarm that goes off keeps everything in order. -/
theorem InOrder.ring (h : b.InOrder) (alarm : Alarm) : (b.ring alarm).InOrder :=
  ⟨h.sound.keeps (ring_keeps b alarm), h.arranged.ring alarm⟩

/-- **Every operation keeps everything in order.** -/
theorem InOrder.after (h : b.InOrder) (operation : Operation) : (b.after operation).InOrder := by
  cases operation with
  | dispatch taskQueue => exact h.dispatch rfl
  | ring alarm => exact h.ring alarm
  | start names request =>
      rw [Backend.after]
      split
      · rename_i hok
        exact h.startWorkflow hok
      · exact h
  | cancel workflowId reason =>
      rw [Backend.after]
      split
      · rename_i hok
        exact h.cancelWorkflow hok
      · exact h
  | complete names token delta commands =>
      rw [Backend.after]
      split
      · rename_i hok
        exact h.completeTask hok
      · exact h
  | fail token error =>
      rw [Backend.after]
      split
      · rename_i hok
        exact h.failTask hok
      · exact h
  | abandon token =>
      rw [Backend.after]
      split
      · rename_i hok
        exact h.abandonTask hok
      · exact h

/-- **Everything is in order after any operations.** -/
theorem InOrder.afterAll (h : b.InOrder) (operations : List Operation) :
    (b.afterAll operations).InOrder := by
  induction operations generalizing b with
  | nil => exact h
  | cons operation operations ih => exact ih (h.after operation)

/-! ### Situations -/

/-- The situations that an open instance can be in. -/
inductive Situation where
  /-- A worker has its task. -/
  | leased
  /-- It waits to be handed out. -/
  | queued
  /-- There is nothing to hand out. -/
  | idle
  deriving DecidableEq, Inhabited

/-- How an instance is found in a situation. -/
def Finds (b : Backend) (id : String) (inst : Instance) : Situation → Prop
  | .leased =>
    (∃ token, inst.lease = some token ∧ b.leases.lookup token = some id)
      ∧ inst.queued = false ∧ b.places id = []
  | .queued =>
    inst.lease = none ∧ inst.queued = true ∧ inst.pending ≠ []
      ∧ b.places id = [(inst.info.taskQueue, id)]
  | .idle =>
    inst.lease = none ∧ inst.queued = false ∧ inst.pending = [] ∧ b.places id = []

/-- What is to be seen of a backend in order: where open instances are, whose leases there are, and
that all that is left to do is waiting for a worker. -/
structure Scheduled (b : Backend) : Prop where
  /-- An open instance is in one of three situations. -/
  situation : ∀ id inst, b.get? id = some inst → inst.isOpen = true →
    ∃! situation, b.Finds id inst situation
  /-- Tokens are outstanding once. -/
  once : (b.leases.map Prod.fst).Nodup
  /-- They are those of the instances with a lease. -/
  leases : ∀ token id, b.leases.lookup token = some id ↔
    ∃ inst, b.get? id = some inst ∧ inst.lease = some token
  /-- No instance has two. -/
  alone : ∀ token other id, b.leases.lookup token = some id → b.leases.lookup other = some id →
    token = other
  /-- An open instance without a task waits in its queue if there is something to hand out. -/
  waits : ∀ id inst, b.get? id = some inst → inst.isOpen = true → inst.lease = none →
    inst.inFlight ++ inst.pending ≠ [] → (inst.info.taskQueue, id) ∈ b.ready
  /-- What is handed out for a queue is a task of an open instance of that queue, and it has new
  events. -/
  served : ∀ taskQueue task b', b.dispatch taskQueue = (some task, b') →
    ∃ inst, b'.Serves taskQueue task inst

/-- An instance is found in one situation at most. -/
theorem Finds.unique {situation other : Situation} (h : b.Finds id inst situation)
    (h' : b.Finds id inst other) : other = situation := by
  cases situation <;> cases other <;> simp_all [Finds]

/-- What is among the leases once is looked up there. -/
theorem Arranged.lookup_iff {left : String → Prop} (h : b.Arranged left) :
    b.leases.lookup token = some id ↔ (token, id) ∈ b.leases := by
  refine ⟨mem_leases, fun hlease => ?_⟩
  cases hlookup : b.leases.lookup token with
  | none =>
      have hnone := List.lookup_eq_none_iff.mp hlookup (token, id) hlease
      simp at hnone
  | some other =>
      have hpair := List.inj_on_of_nodup_map h.once (mem_leases hlookup) hlease rfl
      exact congrArg (fun lease => some lease.2) hpair

/-- The tokens of the table are those of the instances with a lease. -/
theorem InOrder.lookup_iff (h : b.InOrder) :
    b.leases.lookup token = some id ↔
      ∃ inst, b.get? id = some inst ∧ inst.lease = some token := by
  rw [h.arranged.lookup_iff]
  refine ⟨h.sound.leased token id, ?_⟩
  rintro ⟨inst, hget, hlease⟩
  exact (h.arranged.placed id inst hget).held token hlease

/-- An open instance is in one of the three situations. -/
theorem InOrder.finds (h : b.InOrder) (hget : b.get? id = some inst)
    (hopen : inst.isOpen = true) : ∃ situation, b.Finds id inst situation := by
  have hplaced := h.arranged.placed id inst hget
  have hplaces := hplaced.places hopen
  cases hqueued : inst.queued with
  | true =>
      rw [hqueued, if_pos rfl] at hplaces
      exact ⟨.queued, (h.sound.tidy id inst hget).queued hqueued, hqueued,
        hplaced.pending hopen hqueued, hplaces⟩
  | false =>
      rw [hqueued] at hplaces
      cases hlease : inst.lease with
      | some token =>
          have hlookup := h.lookup_iff.mpr ⟨inst, hget, hlease⟩
          exact ⟨.leased, ⟨token, hlease, hlookup⟩, hqueued, hplaces⟩
      | none =>
          refine ⟨.idle, hlease, hqueued, ?_, hplaces⟩
          by_contra hpending
          have hwaits := (hplaced.waiting hopen hlease hpending).resolve_right fun hleft => hleft
          rw [hqueued] at hwaits
          cases hwaits

/-- What is to be seen of a backend in order. -/
theorem InOrder.scheduled (h : b.InOrder) : b.Scheduled where
  situation id inst hget hopen := by
    obtain ⟨situation, hfinds⟩ := h.finds hget hopen
    exact ⟨situation, hfinds, fun _ hother => hfinds.unique hother⟩
  once := h.arranged.once
  leases _ _ := h.lookup_iff
  alone token other id hlookup hother :=
    h.sound.lease_unique (mem_leases hother) (mem_leases hlookup)
  waits id inst hget hopen hlease hevents := by
    rw [(h.sound.tidy id inst hget).inFlight hlease, List.nil_append] at hevents
    have hplaced := h.arranged.placed id inst hget
    have hqueued := (hplaced.waiting hopen hlease hevents).resolve_right fun hleft => hleft
    have hplaces := hplaced.places hopen
    rw [hqueued, if_pos rfl] at hplaces
    have hentry : (inst.info.taskQueue, id) ∈ b.places id := hplaces ▸ List.mem_singleton_self _
    exact (List.mem_filter.mp hentry).1
  served _ _ _ hdispatch := (h.arranged.dispatch h.sound hdispatch).2 _ rfl

/-- **Whatever clients, workers and the clock do, every open instance is in one of three
situations**, leases and instances with a lease are one to one, and what is left to do waits for a
worker. -/
theorem scheduled_afterAll (operations : List Operation) :
    (empty.afterAll operations).Scheduled :=
  (inOrder_empty.afterAll operations).scheduled

/-- Two errands are ordered and one of them is picked up. -/
def errands : List Operation :=
  let errand (workflowId : String) : StartRequest :=
    { workflowType := "Errand", method := "run", workflowId := some workflowId, taskQueue := "town"
      input := "[]", timeout := none }
  [.start (namesFrom 0) (errand "first"), .start (namesFrom 2) (errand "second"),
    .dispatch "town"]

/-- The first errand is leased, the second waits. -/
theorem scheduled_errands :
    (empty.afterAll errands).Scheduled
      ∧ (∃ inst, (empty.afterAll errands).get? "first" = some inst ∧ inst.isOpen = true
        ∧ (empty.afterAll errands).Finds "first" inst .leased)
      ∧ ∃ inst, (empty.afterAll errands).get? "second" = some inst ∧ inst.isOpen = true
        ∧ (empty.afterAll errands).Finds "second" inst .queued := by
  refine ⟨scheduled_afterAll errands, ⟨_, rfl, rfl, ⟨tokenName 1, ?_, ?_⟩, ?_, ?_⟩,
    _, rfl, rfl, ?_, ?_, ?_, ?_⟩
  all_goals decide +kernel

end Backend

end DurableWorkflow
