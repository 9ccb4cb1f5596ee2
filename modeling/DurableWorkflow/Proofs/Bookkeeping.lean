import DurableWorkflow.Proofs.Replay

/-!
# What an execution has issued

Whatever a program does and in whichever mode, an execution gives out sequence numbers in order,
each once, and after the command that closes it issues no other. A replayed execution has issued
exactly the commands whose records are in its history, so what it records after that continues the
numbers of the history.

## Main definitions

* `Command.introduces?` — the sequence number that a command gives out.
* `Execution.Booked` — the invariant of issued commands.
* `Task.Continues` — what a recording has to be to continue the history of a task.

## Main results

* `Execution.step_inv` — what a step does, in either mode.
* `Execution.Booked.step` — the invariant is kept by every event.
* `Execution.issued_replayTraced` — what a replayed execution has issued.
* `Task.perform_continues` — what a task records continues its history.
-/

namespace DurableWorkflow

/-- The sequence number that a command gives out. -/
def Command.introduces? : Command → Option Nat
  | .startChild start => some start.seq
  | .startTimer seq _ => some seq
  | _ => none

/-- A sequence number that is given out once belongs to one command. -/
theorem Command.eq_of_introduces {commands : List Command}
    (once : (commands.filterMap introduces?).Nodup) {a b : Command} (ha : a ∈ commands)
    (hb : b ∈ commands) {seq : Nat} (hseq : a.introduces? = some seq)
    (hseq' : b.introduces? = some seq) : a = b := by
  have hpairwise := List.pairwise_filterMap.mp once
  let same (a b : Command) : Prop :=
    a.introduces? = some seq → b.introduces? = some seq → a = b
  have hsame : ∀ ⦃x⦄, x ∈ commands → ∀ ⦃y⦄, y ∈ commands → same x y := by
    refine List.Pairwise.forall_of_forall_of_flip (fun _ _ _ _ => rfl) ?_ ?_
    · exact hpairwise.imp fun hne hx hy => absurd rfl (hne seq hx seq hy)
    · exact hpairwise.imp fun hne hx hy => absurd rfl (hne seq hy seq hx)
  exact hsame ha hb hseq hseq'

/-- A sequence number that is given out last was not given out before. -/
theorem Command.fresh_of_once {commands : List Command} {last : Command} {seq : Nat}
    (once : ((commands ++ [last]).filterMap introduces?).Nodup)
    (hseq : last.introduces? = some seq) {other : Command} (hother : other ∈ commands) :
    other.introduces? ≠ some seq := by
  intro hsame
  rw [List.filterMap_append, List.nodup_append] at once
  refine once.2.2 seq (List.mem_filterMap.mpr ⟨other, hother, hsame⟩) seq ?_ rfl
  exact List.mem_filterMap.mpr ⟨last, List.mem_singleton_self last, hseq⟩

/-- A record tells which command it was made of. -/
theorem Command.record_injective : Function.Injective record := by
  intro a b h
  cases a <;> cases b <;> simp_all [record]

/-- The numbers in some commands are in order, and none of these closes the instance. -/
structure Context.Numbered (issued : List Command) (ctx : Context) : Prop where
  /-- The numbers are those up to the last. -/
  numbers : (issued ++ ctx.commands).filterMap Command.introduces? = List.range' 1 ctx.lastSeq
  /-- Nothing closes the instance. -/
  isOpen : ∀ command ∈ ctx.commands, command.isTerminal = false

/-- Issuing a command with the next number. -/
theorem Context.Numbered.issue {issued : List Command} {ctx : Context} (h : ctx.Numbered issued)
    {command : Command} (hseq : command.introduces? = some (ctx.lastSeq + 1))
    (hopen : command.isTerminal = false) {ctx' : Context}
    (hcommands : ctx'.commands = ctx.commands ++ [command])
    (hlast : ctx'.lastSeq = ctx.lastSeq + 1) : ctx'.Numbered issued := by
  refine ⟨?_, ?_⟩
  · rw [hcommands, hlast, ← List.append_assoc, List.filterMap_append, h.numbers,
      List.range'_1_concat]
    simp [hseq, Nat.add_comm]
  · intro other hother
    rw [hcommands, List.mem_append, List.mem_singleton] at hother
    rcases hother with hother | rfl
    · exact h.isOpen other hother
    · exact hopen

/-- Whatever threads do, numbers are given out in order. -/
theorem Context.Numbered.moves {issued : List Command} {c d : Context} (h : c.Moves d)
    (numbered : c.Numbered issued) : d.Numbered issued := by
  induction h with
  | refl => exact numbered
  | tail _ h ih =>
      rcases h.inv with ⟨_, _, _, _, _, rfl⟩ | ⟨_, rfl⟩ | ⟨_, _, _, rfl⟩ | ⟨_, rfl⟩
      · exact ⟨ih.numbers, ih.isOpen⟩
      · refine ih.issue ?_ ?_ rfl rfl <;> rfl
      · refine ih.issue ?_ ?_ rfl rfl <;> rfl
      · exact ⟨ih.numbers, ih.isOpen⟩

namespace Execution

variable {x y : Execution}

/-- The invariant of the commands that an execution has issued. -/
structure Booked (x : Execution) : Prop where
  /-- All commands were taken. -/
  taken : x.context.commands = []
  /-- Sequence numbers are given out in order. -/
  numbers : x.issued.filterMap Command.introduces? = List.range' 1 x.context.lastSeq
  /-- Only the last command may close the instance. -/
  last : x.issued.Pairwise fun command _ => command.isTerminal = false
  /-- None has done so while the execution has not closed. -/
  isOpen : x.complete = false → ∀ command ∈ x.issued, command.isTerminal = false

/-- What a record does, in either mode: it is accepted as that of the first unconfirmed command. -/
theorem step_record_inv (x : Execution) {event : Event} (hrecord : event.isRecord = true) :
    ∃ unconfirmed, (x.step event).2 = { x.counted with unconfirmed }
      ∧ ∀ outcome, (x.step event).1 = .ok outcome → outcome.commands = []
        ∧ x.unconfirmed.map Command.record = event :: unconfirmed.map Command.record := by
  cases hunconfirmed : x.unconfirmed with
  | nil =>
      rw [step_unmatched hunconfirmed hrecord]
      refine ⟨[], ?_, fun _ h => by cases h⟩
      rw [← hunconfirmed]
      rfl
  | cons command unconfirmed =>
      have hself : x.recast x.context.replaying x.context.notes x.eventsApplied
          (command :: unconfirmed) = x := by
        rw [← hunconfirmed]
        rfl
      have hstep := step_record x x.context.replaying x.context.notes x.eventsApplied command
        unconfirmed event hrecord
      rw [hself] at hstep
      rw [hstep]
      refine ⟨unconfirmed, rfl, fun outcome houtcome => ?_⟩
      by_cases hmatch : command.record = event
      · rw [if_pos hmatch] at houtcome
        cases houtcome
        exact ⟨rfl, by rw [List.map_cons, hmatch]⟩
      · rw [if_neg hmatch] at houtcome
        cases houtcome

/-- What an input does, in either mode and if no command is unconfirmed: the execution may close, or
have closed, or refuse it, or it is accepted and the threads run. -/
theorem step_input_inv {event : Event} (hrecord : event.isRecord = false)
    (hunconfirmed : x.unconfirmed = []) :
    (∃ complete, (x.step event).2 = { x.counted with complete }
        ∧ (complete = x.complete ∨ complete = true)
        ∧ ∀ outcome, (x.step event).1 = .ok outcome → outcome.commands = [])
      ∨ ∃ x', x.counted.accept event = .ok x' ∧ x.complete = false
        ∧ x.step event = (.ok ⟨x'.runThreads.settle.context.commands,
            x'.runThreads.settle.complete⟩, x'.runThreads.settle.takeCommands.2) := by
  rw [step_input hunconfirmed hrecord]
  by_cases htime : event = .timedOut
  · rw [if_pos htime]
    refine .inl ⟨true, rfl, .inr rfl, ?_⟩
    rintro outcome ⟨⟩
    rfl
  · rw [if_neg htime]
    by_cases hclosed : x.complete = true
    · rw [if_pos hclosed]
      refine .inl ⟨x.complete, rfl, .inl rfl, ?_⟩
      rintro outcome ⟨⟩
      rfl
    · rw [if_neg hclosed]
      cases haccept : x.counted.accept event with
      | error e => exact .inl ⟨x.complete, rfl, .inl rfl, fun _ h => by cases h⟩
      | ok x' => exact .inr ⟨x', rfl, by simpa using hclosed, rfl⟩

/-- **What a step does, in either mode.** Either no thread runs, and only the unconfirmed commands
may change and whether the execution has closed; or an input is accepted. -/
theorem step_inv (x : Execution) (event : Event) :
    (∃ unconfirmed complete, (x.step event).2 = { x.counted with unconfirmed, complete }
        ∧ (complete = x.complete ∨ complete = true)
        ∧ ∀ outcome, (x.step event).1 = .ok outcome → outcome.commands = []
          ∧ x.unconfirmed.map Command.record = records [event] ++ unconfirmed.map Command.record)
      ∨ ∃ x', x.counted.accept event = .ok x' ∧ event.isRecord = false ∧ x.unconfirmed = []
        ∧ x.complete = false
        ∧ x.step event = (.ok ⟨x'.runThreads.settle.context.commands,
            x'.runThreads.settle.complete⟩, x'.runThreads.settle.takeCommands.2) := by
  cases hrecord : event.isRecord with
  | true =>
      obtain ⟨unconfirmed, hstep, hconfirmed⟩ := x.step_record_inv hrecord
      have hself : records [event] = [event] := by simp [records, hrecord]
      rw [hself]
      exact .inl ⟨unconfirmed, x.complete, hstep, .inl rfl, hconfirmed⟩
  | false =>
      have hnone : records [event] = [] := by simp [records, hrecord]
      rw [hnone]
      cases hunconfirmed : x.unconfirmed with
      | cons command unconfirmed =>
          rw [step_missing hunconfirmed hrecord]
          exact .inl ⟨x.unconfirmed, x.complete, rfl, .inl rfl, fun _ h => by cases h⟩
      | nil =>
          rcases step_input_inv hrecord hunconfirmed with
            ⟨complete, hstep, hcomplete, hnothing⟩ | ⟨x', haccept, hopen, hstep⟩
          · exact .inl ⟨x.unconfirmed, complete, hstep, hcomplete,
              fun outcome h => ⟨hnothing outcome h, by rw [hunconfirmed]; rfl⟩⟩
          · exact .inr ⟨x', haccept, rfl, rfl, hopen, hstep⟩

/-- What settling issues gives out no numbers, and only the last of it may close the instance. -/
theorem settle_commands (x : Execution) :
    ∃ extra, x.settle.context.commands = x.context.commands ++ extra
      ∧ (∀ command ∈ extra, command.introduces? = none)
      ∧ (extra.Pairwise fun command _ => command.isTerminal = false)
      ∧ (x.settle.complete = false → ∀ command ∈ extra, command.isTerminal = false) := by
  have hcancel : ∀ command ∈ x.context.children.requestCancel.1.map
      (fun request => Command.cancelChild request.1 request.2),
      command.introduces? = none ∧ command.isTerminal = false := by
    intro command hcommand
    obtain ⟨request, -, rfl⟩ := List.mem_map.mp hcommand
    exact ⟨rfl, rfl⟩
  rcases x.settle_inv with ⟨result, -, h⟩ | ⟨reason, -, -, h⟩ | ⟨reason, -, -, h⟩
    | ⟨failure, -, h⟩ | h
  · rw [h]
    exact ⟨[.complete result], rfl, by simp [Command.introduces?], List.pairwise_singleton _ _,
      nofun⟩
  · rw [h]
    refine ⟨x.context.children.requestCancel.1.map
      (fun request => .cancelChild request.1 request.2) ++ [.cancel reason],
      List.append_assoc _ _ _, ?_, ?_, nofun⟩
    · intro command hcommand
      rcases List.mem_append.mp hcommand with hcommand | hcommand
      · exact (hcancel command hcommand).1
      · cases List.mem_singleton.mp hcommand
        rfl
    · refine List.pairwise_append.mpr ⟨?_, List.pairwise_singleton _ _, ?_⟩
      · exact List.pairwise_of_forall_mem_list fun command hcommand _ _ =>
          (hcancel command hcommand).2
      · intro command hcommand _ _
        exact (hcancel command hcommand).2
  · rw [h]
    refine ⟨_, rfl, fun command hcommand => (hcancel command hcommand).1, ?_,
      fun _ command hcommand => (hcancel command hcommand).2⟩
    exact List.pairwise_of_forall_mem_list fun command hcommand _ _ => (hcancel command hcommand).2
  · rw [h]
    exact ⟨[.fail failure], rfl, by simp [Command.introduces?], List.pairwise_singleton _ _, nofun⟩
  · rw [h]
    exact ⟨[], by simp, nofun, .nil, fun _ => nofun⟩

/-- Accepting an input issues nothing. -/
theorem accept_issued {x' : Execution} {event : Event} (h : x.accept event = .ok x') :
    x'.issued = x.issued ∧ x'.complete = x.complete
      ∧ x'.context.commands = x.context.commands ∧ x'.context.lastSeq = x.context.lastSeq := by
  rcases accept_inv h with ⟨-, context, happly, rfl⟩ | ⟨-, _, _, _, _, -, rfl⟩
  · obtain ⟨_, _, _, _, _, rfl⟩ := applyInput_eq happly
    exact ⟨rfl, rfl, rfl, rfl⟩
  · exact ⟨rfl, rfl, rfl, rfl⟩

/-- What is taken after running the threads and settling was issued before or then. -/
theorem issued_takeCommands (x : Execution) : x.runThreads.settle.takeCommands.2.issued
    = x.issued ++ x.runThreads.settle.context.commands := by
  obtain ⟨_, _, hrun⟩ := x.runThreads_eq
  obtain ⟨_, _, _, hsettle⟩ := x.runThreads.settle_eq
  have hissued : x.runThreads.settle.issued = x.issued := by
    rw [hsettle, hrun]
  exact congrArg (· ++ x.runThreads.settle.context.commands) hissued

/-- What is issued when an accepted input runs the threads of an execution that is open. -/
theorem Booked.run {x' : Execution} (booked : x.Booked) {event : Event}
    (haccept : x.counted.accept event = .ok x') (hopen : x.complete = false) :
    x'.runThreads.settle.takeCommands.2.Booked := by
  obtain ⟨hissued, hcomplete, hcommands, hlast⟩ := accept_issued haccept
  have hnumbered : x'.context.Numbered x.issued := by
    refine ⟨?_, ?_⟩
    · rw [hcommands, hlast]
      exact (congrArg (List.filterMap _) (by rw [show x.counted.context.commands = [] from
        booked.taken, List.append_nil])).trans booked.numbers
    · rw [hcommands, show x.counted.context.commands = [] from booked.taken]
      nofun
  have hrun := hnumbered.moves x'.runThreads_moves
  obtain ⟨extra, hextra, hnone, hpairwise, hrest⟩ := settle_commands x'.runThreads
  have hlastSeq : x'.runThreads.settle.takeCommands.2.context.lastSeq
      = x'.runThreads.context.lastSeq := by
    obtain ⟨_, _, _, h⟩ := x'.runThreads.settle_eq
    rw [h]
    rfl
  have hold := booked.isOpen hopen
  refine ⟨rfl, ?_, ?_, ?_⟩
  · have hextraNone : extra.filterMap Command.introduces? = [] :=
      List.filterMap_eq_nil_iff.mpr hnone
    rw [issued_takeCommands, hissued, hextra, ← List.append_assoc, List.filterMap_append,
      hextraNone, List.append_nil, hlastSeq]
    exact hrun.numbers
  · rw [issued_takeCommands, hissued, hextra]
    refine List.pairwise_append.mpr ⟨booked.last, ?_, fun command hcommand _ _ =>
      hold command hcommand⟩
    refine List.pairwise_append.mpr ⟨?_, hpairwise, fun command hcommand _ _ =>
      hrun.isOpen command hcommand⟩
    exact List.pairwise_of_forall_mem_list fun command hcommand _ _ =>
      hrun.isOpen command hcommand
  · intro hfalse command hcommand
    rw [issued_takeCommands, hissued, hextra] at hcommand
    rcases List.mem_append.mp hcommand with hcommand | hcommand
    · exact hold command hcommand
    · rcases List.mem_append.mp hcommand with hcommand | hcommand
      · exact hrun.isOpen command hcommand
      · exact hrest hfalse command hcommand

/-- A new execution has issued nothing. -/
theorem booked_new (info : RunInfo) (program : Program) (converter : Converter) :
    (new info program converter).Booked :=
  ⟨rfl, rfl, .nil, fun _ => nofun⟩

/-- **Every event keeps the invariant**, in either mode and also if it is a divergence. -/
theorem Booked.step (booked : x.Booked) (event : Event) : (x.step event).2.Booked := by
  rcases x.step_inv event with ⟨_, complete, h, hcomplete, -⟩ | ⟨x', haccept, -, -, hopen, h⟩
  · rw [h]
    refine ⟨booked.taken, booked.numbers, booked.last, fun hfalse => booked.isOpen ?_⟩
    rcases hcomplete with rfl | rfl
    · exact hfalse
    · cases hfalse
  · rw [h]
    exact booked.run haccept hopen

/-- What a step gives is what it issues. -/
theorem issued_step {event : Event} {outcome : StepOutcome}
    (h : x.step event = (.ok outcome, y)) : y.issued = x.issued ++ outcome.commands := by
  rcases x.step_inv event with ⟨_, _, hstep, -, hnone⟩ | ⟨x', haccept, -, -, -, hstep⟩
  · rw [h] at hstep hnone
    rw [(hnone outcome rfl).1, List.append_nil, show y = _ from hstep]
    rfl
  · rw [hstep] at h
    cases h
    rw [issued_takeCommands, (accept_issued haccept).1]
    rfl

/-! ### Replaying and recording -/

/-- In replay the commands that are taken await their records. -/
theorem takeCommands_accept {x' : Execution} {event : Event}
    (haccept : x.counted.accept event = .ok x') (replaying : x.context.replaying = true) :
    x'.runThreads.settle.takeCommands.2.context.replaying = true
      ∧ x'.runThreads.settle.takeCommands.2.unconfirmed
        = x.unconfirmed ++ x'.runThreads.settle.context.commands := by
  have hx' : x'.context.replaying = true ∧ x'.unconfirmed = x.unconfirmed := by
    rcases accept_inv haccept with ⟨-, context, happly, rfl⟩ | ⟨-, _, _, _, _, -, rfl⟩
    · obtain ⟨_, _, _, _, _, rfl⟩ := applyInput_eq happly
      exact ⟨replaying, rfl⟩
    · exact ⟨replaying, rfl⟩
  have hmode : x'.runThreads.settle.context.replaying = true := by
    obtain ⟨_, _, _, hsettle⟩ := x'.runThreads.settle_eq
    rw [hsettle]
    exact x'.runThreads_moves.fixed.2.2.1.trans hx'.1
  have hunconfirmed : x'.runThreads.settle.unconfirmed = x.unconfirmed := by
    obtain ⟨_, _, hrun⟩ := x'.runThreads_eq
    obtain ⟨_, _, _, hsettle⟩ := x'.runThreads.settle_eq
    rw [hsettle, hrun]
    exact hx'.2
  refine ⟨hmode, ?_⟩
  simp only [takeCommands, hmode, ite_true, hunconfirmed]

/-- What was issued during replay has its record among the events applied, or awaits it. -/
theorem issued_applyAll {history : List Event} {earlier : List Event} (booked : x.Booked)
    (replaying : x.context.replaying = true)
    (hissued : x.issued.map Command.record
      = records earlier ++ x.unconfirmed.map Command.record)
    (h : x.applyAll history = (none, y)) :
    y.Booked ∧ y.issued.map Command.record
      = records (earlier ++ history) ++ y.unconfirmed.map Command.record := by
  induction history generalizing x earlier with
  | nil =>
      cases h
      rw [List.append_nil]
      exact ⟨booked, hissued⟩
  | cons event history ih =>
      rw [applyAll] at h
      rcases hstep : x.step event with ⟨e | outcome, x'⟩ <;> simp only [hstep] at h
      · cases h
      · have hbooked := booked.step event
        rw [hstep] at hbooked
        have hkept : x'.context.replaying = true ∧ x'.issued.map Command.record
            = records (earlier ++ [event]) ++ x'.unconfirmed.map Command.record := by
          rw [issued_step hstep, List.map_append, hissued, records_append]
          rcases x.step_inv event with ⟨unconfirmed, _, hx', -, hnone⟩
            | ⟨z, haccept, hinput, hunconfirmed, -, hrun⟩
          · rw [hstep] at hx' hnone
            obtain ⟨hcommands, hconfirmed⟩ := hnone outcome rfl
            rw [show x' = _ from hx', hcommands, hconfirmed]
            exact ⟨replaying, by simp⟩
          · have hnone : records [event] = [] := by simp [records, hinput]
            obtain ⟨hmode, htaken⟩ := takeCommands_accept haccept replaying
            rw [hstep] at hrun
            cases hrun
            rw [hmode, htaken, hunconfirmed, hnone]
            exact ⟨rfl, by simp⟩
        obtain ⟨hy, hissued'⟩ := ih hbooked hkept.1 hkept.2 h
        exact ⟨hy, by rw [hissued', List.append_assoc, List.singleton_append]⟩

/-- **A replayed execution has issued the commands whose records are in its history.** -/
theorem issued_replayTraced {info : RunInfo} {program : Program} {converter : Converter}
    {history : List Event} (h : replayTraced info program converter history = (none, x)) :
    x.Booked ∧ x.Live ∧ x.issued.map Command.record = records history := by
  cases history with
  | nil =>
      cases h
      exact ⟨booked_new info program converter, live_new info program converter, rfl⟩
  | cons event history =>
      simp only [replayTraced, List.isEmpty_cons, Bool.not_false] at h
      rcases happly : ((new info program converter).setReplaying true).applyAll (event :: history)
        with ⟨_ | e, z⟩ <;> simp only [happly] at h
      · have hnew : ((new info program converter).setReplaying true).Booked :=
          ⟨rfl, rfl, .nil, fun _ _ h => by cases h⟩
        obtain ⟨hz, hissued⟩ := issued_applyAll hnew rfl (rfl : _ = records [] ++ _) happly
        rw [finishReplay] at h
        cases hunconfirmed : z.unconfirmed with
        | cons command rest => simp [hunconfirmed] at h
        | nil =>
            simp only [hunconfirmed] at h
            cases h
            rw [hunconfirmed] at hissued
            exact ⟨⟨hz.taken, hz.numbers, hz.last, hz.isOpen⟩, ⟨rfl, hunconfirmed⟩,
              by simpa [setReplaying] using hissued⟩
      · cases h

/-- What a live execution records is what it issues. -/
theorem issued_record (booked : x.Booked) {events : List Event} {recording : Recording}
    (h : x.record events = (.ok recording, y)) :
    y.Booked ∧ y.issued = x.issued ++ recording.commands := by
  induction events generalizing x recording with
  | nil =>
      cases h
      exact ⟨booked, (List.append_nil _).symm⟩
  | cons event events ih =>
      obtain ⟨outcome, x', rest, hstep, hrest, rfl⟩ := record_cons_ok h
      have hbooked := booked.step event
      rw [hstep] at hbooked
      obtain ⟨hy, hissued⟩ := ih hbooked hrest
      refine ⟨hy, ?_⟩
      rw [hissued, issued_step hstep, List.append_assoc]
      rfl

end Execution

/-- What a recording has to be to continue the history of a task: it keeps its new inputs, has the
records of its commands, gives out new sequence numbers, and only its last command may close the
instance. -/
structure Task.Continues (task : Task) (delta : List Event) (commands : List Command) : Prop where
  /-- The inputs are those of the task. -/
  inputs : inputs delta = inputs task.newEvents
  /-- The records are those of the commands. -/
  records : records delta = commands.map Command.record
  /-- The sequence numbers are new. -/
  once : ∀ earlier, earlier.map Command.record = DurableWorkflow.records task.history →
    (earlier.filterMap Command.introduces?).Nodup →
    ((earlier ++ commands).filterMap Command.introduces?).Nodup
  /-- Only the last command may close the instance. -/
  last : commands.Pairwise fun command _ => command.isTerminal = false

/-- **What a task records continues its history.** -/
theorem Task.perform_continues {task : Task} {program : Program} {converter : Converter}
    {recording : Recording} (h : (task.perform program converter).1 = .ok recording) :
    task.Continues recording.delta recording.commands := by
  rw [perform] at h
  rcases hreplay : Execution.replayTraced task.info program converter task.history
    with ⟨_ | e, x⟩ <;> rw [hreplay] at h
  · obtain ⟨booked, live, hissued⟩ := Execution.issued_replayTraced hreplay
    have hrecord : x.record task.newEvents = (.ok recording, (x.record task.newEvents).2) :=
      Prod.ext h rfl
    obtain ⟨hy, hy'⟩ := Execution.issued_record booked hrecord
    refine ⟨?_, Execution.records_delta live hrecord, ?_, ?_⟩
    · rw [← Execution.inputs_delta live hrecord, inputs_inputs]
    · intro earlier hearlier _
      obtain rfl : earlier = x.issued :=
        (List.map_inj_right fun _ _ h => Command.record_injective h).mp
          (hearlier.trans hissued.symm)
      rw [← hy', hy.numbers]
      exact List.nodup_range'
    · have hlast := hy.last
      rw [hy'] at hlast
      exact (List.pairwise_append.mp hlast).2.1
  · cases h

end DurableWorkflow
