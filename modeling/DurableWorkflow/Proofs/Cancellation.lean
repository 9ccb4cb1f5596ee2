import DurableWorkflow.Proofs.MainThread
import DurableWorkflow.Proofs.Petitions

/-!
# Cancelling an execution

Once a workflow was asked to cancel, every step ends with asking the pending children to cancel that
were not asked yet, and the execution closes as cancelled when none is pending. A child is asked
once, by the name it was started under, and never if it was detached or has ended. Between two steps
an execution that was asked and is open waits for children that were asked.

## Main definitions

* `firstCancel?` — the reason of the first request to cancel.
* `Execution.WindsDown` — what an open execution is like that was asked to cancel.
* `Execution.Cancels` — the invariant of an execution and the events that it accepted.
* `AskInOrder` — how a step asks children.

## Main results

* `Execution.settle_petitions` — how settling issues commands.
* `Execution.Cancels.step` — every event keeps the invariant.
* `Course.petitions_step` — how one step asks children to cancel.
-/

namespace DurableWorkflow

/-- The reason of the first request to cancel. -/
def firstCancel? (events : List Event) : Option String :=
  events.findSome? fun
    | .cancelRequested reason => some reason
    | _ => none

/-- Later requests to cancel do not change the first reason. -/
theorem firstCancel?_append (events later : List Event) :
    firstCancel? (events ++ later) = (firstCancel? events).or (firstCancel? later) :=
  List.findSome?_append

/-- There is a first reason once there was a request. -/
theorem firstCancel?_of_mem {events : List Event} {reason : String}
    (h : .cancelRequested reason ∈ events) : ∃ first, firstCancel? events = some first := by
  refine Option.isSome_iff_exists.mp (List.findSome?_isSome_iff.mpr ⟨_, h, rfl⟩)

/-- The first reason is that of a request. -/
theorem mem_of_firstCancel? {events : List Event} {reason : String}
    (h : firstCancel? events = some reason) : .cancelRequested reason ∈ events := by
  obtain ⟨event, hmem, hreason⟩ := List.exists_of_findSome?_eq_some h
  split at hreason
  · cases hreason
    exact hmem
  · cases hreason

namespace Execution

variable {x x' : Execution} {events : List Event} {event : Event} {issued : List Command}

/-- What an open execution is like that was asked to cancel: no result that completes it is there,
it waits for a child, and those it waits for were asked. -/
structure WindsDown (x : Execution) : Prop where
  /-- The main thread has not returned a value. -/
  result : ∀ value, x.context.mainResult ≠ some (.ok value)
  /-- There is something to wait for. -/
  pending : ∃ child ∈ x.children, child.isPending = true
  /-- All that is waited for was asked. -/
  marked : ∀ child ∈ x.children, child.isPending = true → child.cancelRequested = true

/-- Settling keeps the invariant of children and commands. -/
theorem petitioned_settle (h : x.context.Petitioned (issued ++ x.context.commands)) :
    x.settle.context.Petitioned (issued ++ x.settle.context.commands) := by
  have hclose {ctx : Context} {commands : List Command} (hctx : ctx.Petitioned commands)
      {command : Command} (hcommand : command.asks? = none) :
      ctx.Petitioned (commands ++ [command]) :=
    hctx.append (List.forall_mem_singleton.mpr hcommand)
  rcases x.settle_inv with ⟨result, -, hsettle⟩ | ⟨reason, -, -, hsettle⟩ | ⟨reason, -, -, hsettle⟩
    | ⟨failure, -, hsettle⟩ | hsettle <;> rw [hsettle]
  · rw [← List.append_assoc]
    exact (hclose h rfl).of_eq rfl rfl
  · rw [← List.append_assoc, ← List.append_assoc]
    exact (hclose h.petitions rfl).of_eq rfl rfl
  · rw [← List.append_assoc]
    exact h.petitions.of_eq rfl rfl
  · rw [← List.append_assoc]
    exact (hclose h rfl).of_eq rfl rfl
  · exact h

/-- An execution that was asked to cancel and stays open winds down. -/
theorem windsDown_settle {reason : String} (hreason : x.context.cancelReason = some reason)
    (hopen : x.settle.complete = false) : x.settle.WindsDown := by
  rw [settle] at hopen ⊢
  split
  · rename_i hresult
    rw [hresult] at hopen
    cases hopen
  · rename_i hresult
    simp only [hreason, foldl_issue_cancel, Children.requestCancel_eq] at hopen ⊢
    split
    · rename_i hnone
      rw [if_pos hnone] at hopen
      cases hopen
    · rename_i hsome
      refine ⟨fun value hvalue => hresult value hvalue, ?_, ?_⟩
      · rw [Bool.not_eq_true, List.isEmpty_eq_false_iff_exists_mem] at hsome
        obtain ⟨child, hchild⟩ := hsome
        exact ⟨child, List.mem_filter.mp hchild⟩
      · exact List.forall_mem_map.mpr fun child _ => child.cancelRequested_petition

/-- **How settling issues commands**: requests to cancel in the order of numbers, to children that
are pending, and after them perhaps a command that closes the execution. -/
theorem settle_petitions (h : x.context.Petitioned issued) :
    ∃ (requests : List (Nat × String)) (closing : List Command),
      x.settle.context.commands = x.context.commands
        ++ requests.map (fun request => .cancelChild request.1 request.2) ++ closing
      ∧ (requests.Pairwise fun request other => request.1 < other.1)
      ∧ (∀ command ∈ closing, command.isTerminal = true)
      ∧ (∀ request ∈ requests, (∃ reason, x.context.cancelReason = some reason)
        ∧ ∃ child ∈ x.settle.children, child.seq = request.1 ∧ child.workflowId = request.2
          ∧ child.isPending = true)
      ∧ ∀ reason, .cancel reason ∈ closing → x.context.cancelReason = some reason
        ∧ ∀ child ∈ x.settle.children, child.isPending = false := by
  have hascending : x.context.children.requestCancel.1.Pairwise fun request other =>
      request.1 < other.1 :=
    List.pairwise_map.mpr (h.ascending.filter _)
  have hasked : ∀ request ∈ x.context.children.requestCancel.1,
      ∃ child ∈ x.context.children.requestCancel.2.entries, child.seq = request.1
        ∧ child.workflowId = request.2 ∧ child.isPending = true := by
    refine List.forall_mem_map.mpr fun child hdue => ?_
    obtain ⟨hchild, hasked⟩ := List.mem_filter.mp hdue
    refine ⟨child.petition, List.mem_map_of_mem hchild, ?_⟩
    rw [child.petition_eq]
    exact ⟨rfl, rfl, (Bool.and_eq_true_iff.mp hasked).1⟩
  rcases x.settle_inv with ⟨result, -, hsettle⟩ | ⟨reason, hreason, hnone, hsettle⟩
    | ⟨reason, hreason, -, hsettle⟩ | ⟨failure, -, hsettle⟩ | hsettle <;> rw [hsettle]
  · refine ⟨[], [.complete result], by simp, .nil, by simp [Command.isTerminal], by simp, ?_⟩
    intro reason hcancel
    cases List.mem_singleton.mp hcancel
  · refine ⟨_, [.cancel reason], rfl, hascending, by simp [Command.isTerminal],
      fun request hrequest => ⟨⟨reason, hreason⟩, hasked request hrequest⟩, ?_⟩
    intro other hcancel
    cases List.mem_singleton.mp hcancel
    refine ⟨hreason, ?_⟩
    intro child hchild
    simpa using List.filter_eq_nil_iff.mp hnone child hchild
  · refine ⟨_, [], (List.append_nil _).symm, hascending, by simp,
      fun request hrequest => ⟨⟨reason, hreason⟩, hasked request hrequest⟩, by simp⟩
  · refine ⟨[], [.fail failure], by simp, .nil, by simp [Command.isTerminal], by simp, ?_⟩
    intro reason hcancel
    cases List.mem_singleton.mp hcancel
  · exact ⟨[], [], by simp, .nil, by simp, by simp, by simp⟩

/-! ### Steps -/

/-- The first request to cancel that is applied counts. -/
theorem cancelReason_applyInput {ctx ctx' : Context} (h : applyInput ctx event = .ok ctx') :
    ctx'.cancelReason = ctx.cancelReason.or (firstCancel? [event]) := by
  rcases applyInput_inv h with ⟨seq, transition, _, _, _, _, _, hnews, -, -, rfl⟩
    | ⟨_, _, _, rfl, rfl⟩ | ⟨reason, _, rfl, -⟩
  · cases event with
    | cancelRequested reason => cases hnews
    | _ => exact Option.or_none.symm
  · exact Option.or_none.symm
  · cases h
    rfl

/-- The invariant of an execution and the events that it accepted. -/
structure Cancels (x : Execution) (events : List Event) : Prop where
  /-- Children are what the issued commands say. -/
  petitioned : x.context.Petitioned (x.issued ++ x.context.commands)
  /-- The first request to cancel counts. -/
  reason : x.complete = false → x.context.cancelReason = firstCancel? events
  /-- An execution that was asked to cancel winds down. -/
  windsDown : x.complete = false → ∀ reason, x.context.cancelReason = some reason → x.WindsDown

/-- An input that is applied. -/
theorem Cancels.accept (h : x.Cancels events) (hopen : x.complete = false)
    (haccept : x.counted.accept event = .ok x') :
    x'.context.Petitioned (x.issued ++ x'.context.commands)
      ∧ x'.context.cancelReason = firstCancel? (events ++ [event]) := by
  rw [firstCancel?_append, ← h.reason hopen]
  rcases accept_inv haccept with ⟨-, context, happly, rfl⟩ | ⟨-, _, _, _, _, rfl, rfl⟩
  · refine ⟨?_, cancelReason_applyInput happly⟩
    obtain ⟨_, _, _, _, _, heq⟩ := applyInput_eq happly
    have hcommands : context.commands = x.context.commands := by
      rw [heq]
      rfl
    rw [hcommands]
    exact h.petitioned.applyInput happly
  · exact ⟨h.petitioned, Option.or_none.symm⟩

/-- **Every event keeps the invariant.** -/
theorem Cancels.step (h : x.Cancels events) (event : Event) :
    (x.step event).2.Cancels (events ++ x.accepted event) := by
  rcases x.admitted?_inv event with ⟨-, unconfirmed, complete, hstep, hcomplete, hnone⟩
    | ⟨x', -, haccept, hopen, hstep⟩
  · -- An event that is accepted, lets no thread run and leaves the execution open is a record.
    have hsame : complete = false → x.complete = false
        ∧ firstCancel? (events ++ x.accepted event) = firstCancel? events := by
      rintro rfl
      refine ⟨(hcomplete.resolve_right nofun).symm, ?_⟩
      rw [firstCancel?_append, accepted]
      split
      · rename_i outcome houtcome
        have hrecord := (hnone outcome houtcome).2.resolve_right nofun
        cases event with
        | cancelRequested reason => cases hrecord
        | _ => exact Option.or_none
      · exact Option.or_none
    rw [hstep]
    refine ⟨h.petitioned, ?_, ?_⟩
    · intro hopen
      exact (h.reason (hsame hopen).1).trans (hsame hopen).2.symm
    · intro hopen reason hreason
      obtain ⟨hresult, hpending, hmarked⟩ := h.windsDown (hsame hopen).1 reason hreason
      exact ⟨hresult, hpending, hmarked⟩
  · obtain ⟨hpetitioned, hreason⟩ := h.accept hopen haccept
    have hissued : x'.issued = x.issued := (accept_issued haccept).1
    have hsettled := petitioned_settle (hpetitioned.moves x'.runThreads_moves)
    have hreason' : x'.runThreads.context.cancelReason = firstCancel? (events ++ [event]) :=
      x'.runThreads_moves.fixed.2.2.2.trans hreason
    obtain ⟨_, _, _, hsettle⟩ := x'.runThreads.settle_eq
    have hkept : x'.runThreads.settle.context.cancelReason
        = x'.runThreads.context.cancelReason := by
      rw [hsettle]
    rw [hstep, accepted_of_ok hstep]
    refine ⟨?_, fun _ => hkept.trans hreason', ?_⟩
    · rw [issued_takeCommands, hissued]
      have htaken : x'.runThreads.settle.takeCommands.2.context.commands = [] := rfl
      rw [htaken, List.append_nil]
      exact hsettled.of_eq rfl rfl
    · intro hstill reason hsome
      have hwinds := windsDown_settle (hkept.symm.trans hsome) hstill
      exact ⟨hwinds.result, hwinds.pending, hwinds.marked⟩

end Execution

/-- What threads issue are commands that start something. -/
theorem Context.Moves.commands {c d : Context} (h : Moves c d) :
    ∃ new, d.commands = c.commands ++ new ∧ ∀ command ∈ new, command.introduces?.isSome = true := by
  induction h with
  | refl => exact ⟨[], (List.append_nil _).symm, List.forall_mem_nil _⟩
  | @tail b d _ hmove ih =>
      obtain ⟨new, hnew, hstarts⟩ := ih
      have hissue {command : Command} (hcommands : d.commands = b.commands ++ [command])
          (hcommand : command.introduces?.isSome = true) : ∃ new, d.commands = c.commands ++ new
          ∧ ∀ command ∈ new, command.introduces?.isSome = true := by
        refine ⟨new ++ [command], ?_, ?_⟩
        · rw [hcommands, hnew, List.append_assoc]
        · exact List.forall_mem_append.mpr ⟨hstarts, List.forall_mem_singleton.mpr hcommand⟩
      rcases hmove.inv with ⟨_, _, _, _, _, rfl⟩ | ⟨_, rfl⟩ | ⟨_, _, _, rfl⟩ | ⟨_, rfl⟩
      · exact ⟨new, hnew, hstarts⟩
      · exact hissue rfl rfl
      · exact hissue rfl rfl
      · exact ⟨new, hnew, hstarts⟩

/-- How the commands of a step ask children to cancel: after what threads issued, in the order of
numbers, and before what closes the execution. -/
structure AskInOrder (commands byThreads : List Command) (requests : List (Nat × String))
    (closing : List Command) : Prop where
  /-- The commands are those of the threads, the requests and those that close the execution. -/
  split : commands
    = byThreads ++ requests.map (fun request => .cancelChild request.1 request.2) ++ closing
  /-- Threads start timers and children. -/
  starts : ∀ command ∈ byThreads, command.introduces?.isSome = true
  /-- The numbers in the requests ascend. -/
  ascending : requests.Pairwise fun request other => request.1 < other.1
  /-- The last commands close the execution. -/
  closes : ∀ command ∈ closing, command.isTerminal = true

/-- Where the commands of a step are found by what they are. -/
theorem AskInOrder.mem {commands byThreads closing : List Command}
    {requests : List (Nat × String)} (h : AskInOrder commands byThreads requests closing)
    {command : Command} (hmem : command ∈ commands) : command ∈ byThreads
      ∨ (∃ request ∈ requests, .cancelChild request.1 request.2 = command) ∨ command ∈ closing := by
  rw [h.split] at hmem
  rcases List.mem_append.mp hmem with hmem | hclose
  · rcases List.mem_append.mp hmem with hthread | hask
    · exact .inl hthread
    · exact .inr (.inl (List.mem_map.mp hask))
  · exact .inr (.inr hclose)

namespace Course

variable {info : RunInfo} {program : Program} {converter : Converter} {x x' : Execution}
  {events : List Event} {turns : List (Turn Context Thread)}

/-- The invariant of cancelling holds after every course. -/
theorem cancels (course : Course info program converter x events turns) : x.Cancels events := by
  induction course with
  | new =>
      refine ⟨⟨.nil, ?_, ?_, ?_, ?_, .nil⟩, fun _ => rfl, fun _ reason hreason => by cases hreason⟩
      · exact List.forall_mem_nil _
      · exact List.forall_mem_nil _
      · exact List.forall_mem_nil _
      · exact List.forall_mem_nil _
  | mode replaying _ ih =>
      refine ⟨ih.petitioned.of_eq rfl rfl, ih.reason, ?_⟩
      intro hopen reason hreason
      obtain ⟨hresult, hpending, hmarked⟩ := ih.windsDown hopen reason hreason
      exact ⟨hresult, hpending, hmarked⟩
  | step event _ ih => exact ih.step event

/-- An execution that was asked to cancel winds down as long as it is open. -/
theorem windsDown (course : Course info program converter x events turns) {reason : String}
    (hrequested : .cancelRequested reason ∈ events) (hopen : x.complete = false) : x.WindsDown := by
  obtain ⟨first, hfirst⟩ := firstCancel?_of_mem hrequested
  exact course.cancels.windsDown hopen first ((course.cancels.reason hopen).trans hfirst)

/-- Children and commands agree after every course. -/
theorem petitioned (course : Course info program converter x events turns) :
    x.context.Petitioned x.issued := by
  have hpetitioned := course.cancels.petitioned
  rwa [course.booked.taken, List.append_nil] at hpetitioned

/-- **How one step asks children to cancel.** After what the threads of the step issued come the
requests in the order of numbers, each to a child that is pending once the workflow was asked, and
then perhaps a command that closes the execution; as cancelled for the first reason, if no child is
left to wait for. -/
theorem petitions_step (course : Course info program converter x events turns) {event : Event}
    {outcome : StepOutcome} (hstep : x.step event = (.ok outcome, x')) :
    (∃ byThreads requests closing, AskInOrder outcome.commands byThreads requests closing
        ∧ ∀ request ∈ requests, (∃ reason, .cancelRequested reason ∈ events ++ [event])
          ∧ ∃ child ∈ x'.children, child.seq = request.1 ∧ child.workflowId = request.2
            ∧ child.isPending = true)
      ∧ ∀ reason, .cancel reason ∈ outcome.commands →
        firstCancel? (events ++ [event]) = some reason
          ∧ ∀ child ∈ x'.children, child.isPending = false := by
  rcases x.admitted?_inv event with ⟨-, _, _, -, -, hnone⟩ | ⟨y, -, haccept, hopen, hrun⟩
  · rw [(hnone outcome (congrArg Prod.fst hstep)).1]
    exact ⟨⟨[], [], [], ⟨rfl, List.forall_mem_nil _, .nil, List.forall_mem_nil _⟩,
      List.forall_mem_nil _⟩, by simp⟩
  · rw [hrun] at hstep
    cases hstep
    obtain ⟨hpetitioned, hreason⟩ := course.cancels.accept hopen haccept
    have hran := hpetitioned.moves y.runThreads_moves
    have hreason' : y.runThreads.context.cancelReason = firstCancel? (events ++ [event]) :=
      y.runThreads_moves.fixed.2.2.2.trans hreason
    obtain ⟨byThreads, hcommands, hstarts⟩ := y.runThreads_moves.commands
    have hnone : y.context.commands = [] :=
      (Execution.accept_issued haccept).2.2.1.trans course.booked.taken
    rw [hnone, List.nil_append] at hcommands
    obtain ⟨requests, closing, hsettled, hascending, hterminal, hasked, hclosing⟩ :=
      Execution.settle_petitions hran
    rw [hcommands] at hsettled
    have horder : AskInOrder y.runThreads.settle.context.commands byThreads requests closing :=
      ⟨hsettled, hstarts, hascending, hterminal⟩
    refine ⟨⟨byThreads, requests, closing, horder, fun request hrequest => ?_⟩, ?_⟩
    · obtain ⟨⟨reason, hsome⟩, hchild⟩ := hasked request hrequest
      exact ⟨⟨reason, mem_of_firstCancel? (hreason'.symm.trans hsome)⟩, hchild⟩
    · intro reason hcancel
      rcases horder.mem hcancel with hthread | ⟨_, -, heq⟩ | hclose
      · cases hstarts _ hthread
      · cases heq
      · obtain ⟨hsome, hended⟩ := hclosing reason hclose
        exact ⟨hreason'.symm.trans hsome, hended⟩

/-- A program that sends a letter, and a parcel that it does not wait for. -/
def posting : Program :=
  let send (name : String) (detached : Bool) : Statement :=
    .perform (.callStart ⟨⟨"Mail", ["send"]⟩, ⟨some name, none, none, detached⟩⟩ "send"
      (.document .null)) ⟨none, none⟩
  ⟨none, [send "letter" false, send "parcel" true, .perform .forever ⟨none, none⟩]⟩

/-- The start of a run of it. -/
def postingStart : Event :=
  .executionStarted "Post" "take" "" none

/-- Asked to cancel, the program asks for its letter only. -/
example : (((Execution.new Execution.nap posting .json).step postingStart).2.step
    (.cancelRequested "strike")).1 = .ok ⟨[.cancelChild 1 "letter"], false⟩ :=
  Execution.eq_ok_of_toOption (by decide +kernel)

end Course

end DurableWorkflow
