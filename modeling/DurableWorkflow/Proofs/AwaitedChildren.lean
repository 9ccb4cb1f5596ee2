import DurableWorkflow.Proofs.Detachment

/-!
# Children that a cancelled workflow waits for

Before it closes as cancelled, a workflow waits for the children that it started. It does not wait
for those that were started detached, for those that a turn of it abandoned, and for those of which
it has heard the end. All this can be told from what was issued, what was heard and what the turns
did, and the marks that an execution keeps of its children say the same.

So the protocol of cancelling can be stated without these marks: who is asked to cancel, when a
workflow may close as cancelled, and what it is that it waits for until then.

## Main definitions

* `Awaited` — a workflow waits for the child of a start.
* `Petition` — what has to hold for a child that is asked to cancel.

## Main results

* `Course.isPending_iff`, `Course.isPending_iff_exists` — the marks of a child say whether it is
  awaited.
* `Course.asks_step`, `Course.not_awaited_of_cancel` — who is asked to cancel, and when an execution
  closes as cancelled.
* `Course.awaited_asked` — what a cancelled execution waits for.
* `Course.cancellation` — the protocol of cancelling.
-/

namespace DurableWorkflow

/-- Whether a workflow waits for the child of a start: it started the child, not as a detached one,
no turn abandoned it, and its end was not heard. -/
structure Awaited (issued : List Command) (events : List Event)
    (turns : List (Turn Context Thread)) (start : ChildStart) : Prop where
  /-- The child was started. -/
  started : .startChild start ∈ issued
  /-- It was not started as a detached one. -/
  attached : start.detached = false
  /-- It was not abandoned. -/
  kept : start.seq ∉ turns.flatMap Turn.abandons
  /-- Nothing that was heard of it is its end. -/
  unended : ∀ transition ∈ told start.seq events, transition.state.isTerminal = false

/-- What has to hold for a child that is asked to cancel: the workflow was asked, and by then it
waits for the child, which it started before under its number and name. -/
structure Petition (before : List Command) (events : List Event)
    (turns : List (Turn Context Thread)) (children : List Child) (seq : Nat) (workflowId : String) :
    Prop where
  /-- The workflow was asked. -/
  requested : ∃ reason, .cancelRequested reason ∈ events
  /-- It waits for the child of an earlier start. -/
  awaited : ∃ start, Awaited before events turns start ∧ start.seq = seq
    ∧ start.workflowId = workflowId
  /-- The child is marked neither as ended nor as detached. -/
  pending : ∃ child ∈ children, child.seq = seq ∧ child.workflowId = workflowId
    ∧ child.state.isTerminal = false ∧ child.detached = false

/-- A child that was started by the end of a step was started before the requests of the step. -/
theorem AskInOrder.startChild_mem {commands byThreads closing issued : List Command}
    {requests : List (Nat × String)} (h : AskInOrder commands byThreads requests closing)
    {start : ChildStart} (hstart : .startChild start ∈ issued ++ commands) :
    .startChild start ∈ issued ++ byThreads := by
  rcases List.mem_append.mp hstart with hbefore | hnow
  · exact List.mem_append_left _ hbefore
  · rcases h.mem hnow with hthread | ⟨_, -, heq⟩ | hclose
    · exact List.mem_append_right _ hthread
    · cases heq
    · cases h.closes _ hclose

/-- Only an open execution issues commands. -/
theorem Execution.isOpen_of_mem_commands {x x' : Execution} {event : Event} {outcome : StepOutcome}
    {command : Command} (hstep : x.step event = (.ok outcome, x'))
    (hcommand : command ∈ outcome.commands) : x.complete = false := by
  rcases x.admitted?_inv event with ⟨-, _, _, -, -, hnone⟩ | ⟨_, -, -, hopen, -⟩
  · rw [(hnone outcome (congrArg Prod.fst hstep)).1] at hcommand
    cases hcommand
  · exact hopen

namespace Course

variable {info : RunInfo} {program : Program} {converter : Converter} {x x' : Execution}
  {events heard : List Event} {turns : List (Turn Context Thread)} {child : Child}
  {start : ChildStart}

/-! ### Marks -/

/-- **The marks of a child say whether it is awaited.** -/
theorem isPending_iff (course : Course info program converter x events turns)
    (follows : x.context.Follows heard x.issued) (hchild : child ∈ x.children)
    (hstart : .startChild start ∈ x.issued) (hseq : start.seq = child.seq) :
    child.isPending = true ↔ Awaited x.issued heard turns start := by
  have hdetached : child.detached = true
      ↔ start.detached = true ∨ start.seq ∈ turns.flatMap Turn.abandons := by
    have hnumbers : (x.issued.filterMap Command.introduces?).Nodup :=
      course.booked.numbers ▸ List.nodup_range'
    rw [course.detached_iff hchild, hseq]
    refine or_congr_left ⟨?_, fun hdetached => ⟨start, hstart, hseq, hdetached⟩⟩
    rintro ⟨other, hother, hseq', hdetached⟩
    have hsame : start.seq = other.seq := hseq.trans hseq'.symm
    cases Command.eq_of_introduces hnumbers hother hstart rfl (congrArg some hsame)
    exact hdetached
  have hended : child.state.isTerminal = true
      ↔ ∃ transition ∈ told start.seq heard, transition.state.isTerminal = true :=
    hseq ▸ (follows.follows child hchild).isTerminal_iff
  rw [Child.isPending_iff, ← Bool.not_eq_true, ← Bool.not_eq_true, hdetached, hended, not_or]
  constructor
  · rintro ⟨⟨hattached, hkept⟩, hopen⟩
    refine ⟨hstart, Bool.eq_false_of_not_eq_true hattached, hkept, fun transition hmem => ?_⟩
    exact Bool.eq_false_of_not_eq_true fun hterminal => hopen ⟨transition, hmem, hterminal⟩
  · rintro ⟨-, hattached, hkept, hunended⟩
    refine ⟨⟨Bool.eq_false_iff.mp hattached, hkept⟩, ?_⟩
    rintro ⟨transition, hmem, hterminal⟩
    exact Bool.eq_false_iff.mp (hunended transition hmem) hterminal

/-- A pending child is that of an awaited start. -/
theorem exists_awaited (course : Course info program converter x events turns)
    (follows : x.context.Follows heard x.issued) (hchild : child ∈ x.children)
    (hpending : child.isPending = true) :
    ∃ start, Awaited x.issued heard turns start ∧ child.StartedBy start := by
  obtain ⟨start, hstart, hseq, -⟩ := course.petitioned.started child hchild
  obtain ⟨own, hget, hby⟩ := follows.children start hstart
  obtain rfl : own = child := course.petitioned.eq_of_seq (List.mem_of_find?_eq_some hget) hchild
    (hby.seq.trans hseq)
  exact ⟨start, (course.isPending_iff follows hchild hstart hseq).mp hpending, hby⟩

/-- The child of an awaited start is pending. -/
theorem exists_pending (course : Course info program converter x events turns)
    (follows : x.context.Follows heard x.issued) (awaited : Awaited x.issued heard turns start) :
    ∃ child ∈ x.children, child.StartedBy start ∧ child.isPending = true := by
  obtain ⟨child, hget, hby⟩ := follows.children start awaited.started
  have hchild : child ∈ x.children := List.mem_of_find?_eq_some hget
  exact ⟨child, hchild, hby,
    (course.isPending_iff follows hchild awaited.started hby.seq.symm).mpr awaited⟩

/-- A child is pending exactly if it is that of an awaited start. -/
theorem isPending_iff_exists (course : Course info program converter x events turns)
    (follows : x.context.Follows heard x.issued) (hchild : child ∈ x.children) :
    child.isPending = true
      ↔ ∃ start, Awaited x.issued heard turns start ∧ child.StartedBy start := by
  refine ⟨course.exists_awaited follows hchild, ?_⟩
  rintro ⟨start, awaited, hby⟩
  exact (course.isPending_iff follows hchild awaited.started hby.seq.symm).mpr awaited

/-! ### Steps -/

section Step

variable {event : Event} {outcome : StepOutcome}

/-- After an event that an open execution accepts, children are what was heard with it. -/
theorem follows_of_ok (course : Course info program converter x events turns)
    (hstep : x.step event = (.ok outcome, x')) (hopen : x.complete = false) :
    x'.context.Follows (events ++ [event]) x'.issued := by
  obtain ⟨applied, -, hsame, hfollows⟩ := course.follows
  rw [hsame hopen] at hfollows
  have hafter := Execution.follows_step course.booked hfollows hopen event
  rwa [hstep, Execution.accepted_of_ok hstep] at hafter

/-- **Who is asked to cancel.** A step asks children that may be asked, in order. -/
theorem asks_step (course : Course info program converter x events turns)
    (hstep : x.step event = (.ok outcome, x')) :
    ∃ byThreads requests closing, AskInOrder outcome.commands byThreads requests closing
      ∧ ∀ request ∈ requests, Petition (x.issued ++ byThreads) (events ++ [event])
        (turns ++ x.turns event) x'.children request.1 request.2 := by
  obtain ⟨⟨byThreads, requests, closing, horder, hasks⟩, -⟩ := course.petitions_step hstep
  refine ⟨byThreads, requests, closing, horder, fun request hrequest => ?_⟩
  obtain ⟨hrequested, child, hchild, hseq, hname, hpending⟩ := hasks request hrequest
  have hask : .cancelChild request.1 request.2 ∈ outcome.commands := by
    rw [horder.split]
    exact List.mem_append_left _ (List.mem_append_right _ (List.mem_map_of_mem hrequest))
  have follows := course.follows_of_ok hstep (Execution.isOpen_of_mem_commands hstep hask)
  obtain ⟨start, awaited, hby⟩ := (course.step_ok hstep).exists_awaited follows hchild hpending
  obtain ⟨hattached, hstate⟩ := Child.isPending_iff.mp hpending
  have hbefore := horder.startChild_mem (Execution.issued_step hstep ▸ awaited.started)
  exact ⟨hrequested, ⟨start, { awaited with started := hbefore }, hby.seq.symm.trans hseq,
    hby.workflowId.symm.trans hname⟩, ⟨child, hchild, hseq, hname, hstate, hattached⟩⟩

/-- **When an execution closes as cancelled**: nobody is awaited. -/
theorem not_awaited_of_cancel (course : Course info program converter x events turns)
    (hstep : x.step event = (.ok outcome, x')) {reason : String}
    (hcancel : .cancel reason ∈ outcome.commands) (start : ChildStart) :
    ¬ Awaited x'.issued (events ++ [event]) (turns ++ x.turns event) start := by
  intro awaited
  have follows := course.follows_of_ok hstep (Execution.isOpen_of_mem_commands hstep hcancel)
  obtain ⟨child, hchild, -, hpending⟩ := (course.step_ok hstep).exists_pending follows awaited
  rw [((course.petitions_step hstep).2 reason hcancel).2 child hchild] at hpending
  cases hpending

end Step

/-- **What a cancelled execution waits for**: as long as it is open somebody is awaited, and was
asked to cancel. -/
theorem awaited_asked (course : Course info program converter x events turns) {reason : String}
    (hrequested : .cancelRequested reason ∈ events) (hopen : x.complete = false) :
    (∃ start, Awaited x.issued events turns start
        ∧ ∃ child ∈ x.children, child.StartedBy start ∧ child.isPending = true)
      ∧ ∀ start, Awaited x.issued events turns start →
        .cancelChild start.seq start.workflowId ∈ x.issued := by
  obtain ⟨applied, -, hsame, follows⟩ := course.follows
  rw [hsame hopen] at follows
  have hwinds := course.windsDown hrequested hopen
  constructor
  · obtain ⟨child, hchild, hpending⟩ := hwinds.pending
    obtain ⟨start, awaited, hby⟩ := course.exists_awaited follows hchild hpending
    exact ⟨start, awaited, child, hchild, hby, hpending⟩
  · intro start awaited
    obtain ⟨child, hchild, hby, hpending⟩ := course.exists_pending follows awaited
    rw [← hby.seq, ← hby.workflowId]
    exact course.petitioned.asked child hchild (hwinds.marked child hchild hpending)

/-- **The protocol of cancelling.** Whatever happened to an execution, what an accepted event adds
to the issued commands asks children as they may be asked, and no child is asked twice. It closes
the execution as cancelled only for the first reason, and if no child is awaited. An execution that
was asked to cancel and is open afterwards waits for a child, and all those that it waits for were
asked; its main thread has not returned a value unless a thread panicked. As long as the execution
is open, the marks of its children say for whom it waits. -/
theorem cancellation (course : Course info program converter x events turns) {event : Event}
    {outcome : StepOutcome} (hstep : x.step event = (.ok outcome, x')) :
    x'.issued = x.issued ++ outcome.commands
      ∧ (x'.issued.filterMap Command.asks?).Nodup
      ∧ (∃ byThreads requests closing, AskInOrder outcome.commands byThreads requests closing
        ∧ ∀ request ∈ requests, Petition (x.issued ++ byThreads) (events ++ [event])
          (turns ++ x.turns event) x'.children request.1 request.2)
      ∧ (∀ reason, .cancel reason ∈ outcome.commands →
        firstCancel? (events ++ [event]) = some reason
          ∧ (∀ start, ¬ Awaited x'.issued (events ++ [event]) (turns ++ x.turns event) start)
          ∧ ∀ child ∈ x'.children, child.state.isTerminal = true ∨ child.detached = true)
      ∧ (∀ reason, .cancelRequested reason ∈ events ++ [event] → x'.complete = false →
        ((∀ turn ∈ turns ++ x.turns event, ¬ turn.Panics Thread.workload) →
          ∀ turn ∈ turns ++ x.turns event, ∀ value, ¬ turn.Returns value)
        ∧ (∃ start, Awaited x'.issued (events ++ [event]) (turns ++ x.turns event) start
          ∧ ∃ child ∈ x'.children, child.StartedBy start ∧ child.isPending = true)
        ∧ ∀ start, Awaited x'.issued (events ++ [event]) (turns ++ x.turns event) start →
          .cancelChild start.seq start.workflowId ∈ x'.issued)
      ∧ (x.complete = false → ∀ child ∈ x'.children, (child.isPending = true
        ↔ ∃ start, Awaited x'.issued (events ++ [event]) (turns ++ x.turns event) start
          ∧ child.StartedBy start)) := by
  have hlater := course.step_ok hstep
  refine ⟨Execution.issued_step hstep, hlater.petitioned.once, course.asks_step hstep, ?_, ?_, ?_⟩
  · intro reason hcancel
    obtain ⟨hfirst, hnone⟩ := (course.petitions_step hstep).2 reason hcancel
    exact ⟨hfirst, course.not_awaited_of_cancel hstep hcancel, fun child hchild =>
      Child.isPending_eq_false_iff.mp (hnone child hchild)⟩
  · intro reason hrequested hopen
    refine ⟨fun calm turn hturn value hreturns => ?_, hlater.awaited_asked hrequested hopen⟩
    exact (hlater.windsDown hrequested hopen).result value
      (hlater.result_of_returns calm hturn hreturns)
  · intro hopen child hchild
    exact hlater.isPending_iff_exists (course.follows_of_ok hstep hopen) hchild

/-- A program that sends a letter, a parcel that it does not wait for, and a postcard that it
abandons. -/
def mailing : Program :=
  let send (name : String) (detached : Bool) (store : Option String) : Statement :=
    .perform (.callStart ⟨⟨"Mail", ["send"]⟩, ⟨some name, none, none, detached⟩⟩ "send"
      (.document .null)) ⟨store, none⟩
  ⟨none, [send "letter" false none, send "parcel" true none, send "postcard" false (some "card"),
    .perform (.abandon "card") ⟨none, none⟩, .perform .forever ⟨none, none⟩]⟩

/-- A run that has sent them. -/
def mailed : Execution :=
  ((Execution.new Execution.nap mailing .json).step postingStart).2

/-- Asked to cancel, the program asks for its letter and waits for it, but not for its postcard. -/
theorem mailing_cancels :
    ∃ x' events turns, Course Execution.nap mailing .json x' events turns
      ∧ mailed.step (.cancelRequested "strike") = (.ok ⟨[.cancelChild 1 "letter"], false⟩, x')
      ∧ turns.flatMap Turn.abandons = [3]
      ∧ (∃ start, Awaited x'.issued events turns start)
      ∧ (∀ start, Awaited x'.issued events turns start →
        .cancelChild start.seq start.workflowId ∈ x'.issued)
      ∧ ∀ workflowId, .cancelChild 3 workflowId ∉ x'.issued := by
  have course : Course Execution.nap mailing .json mailed _ _ := .step postingStart .new
  have hok : (mailed.step (.cancelRequested "strike")).1 = .ok ⟨[.cancelChild 1 "letter"], false⟩ :=
    Execution.eq_ok_of_toOption (by decide +kernel)
  have hopen : (mailed.step (.cancelRequested "strike")).2.complete = false := by decide +kernel
  obtain ⟨hissued, -, -, -, hwaits, -⟩ := course.cancellation (Prod.ext hok rfl)
  obtain ⟨-, ⟨start, awaited, -⟩, hall⟩ :=
    hwaits "strike" (List.mem_append_right _ (List.mem_singleton_self _)) hopen
  refine ⟨_, _, _, course.step_ok (Prod.ext hok rfl), Prod.ext hok rfl, by decide +kernel,
    ⟨start, awaited⟩, hall, fun workflowId => ?_⟩
  have hstarted : mailed.issued
      = [.startChild ⟨1, "Mail", "send", "letter", "main", "null", none, false⟩,
        .startChild ⟨2, "Mail", "send", "parcel", "main", "null", none, true⟩,
        .startChild ⟨3, "Mail", "send", "postcard", "main", "null", none, false⟩] := by
    decide +kernel
  rw [hissued, hstarted]
  simp

end Course

end DurableWorkflow
