import DurableWorkflow.Proofs.Modes
import DurableWorkflow.Recording

/-!
# Replay accepts what was recorded

Replaying a history is feeding its inputs to a live execution while checking that every input is
followed by the records of exactly the commands it led to. So replay accepts a history if and only
if a live execution of the same program records it, and the execution it gives back differs from
that one in no way a workflow can show.

## Main definitions

* `Execution.Agrees` — executions that differ in their notes and their count of events only.
* `Execution.answers` — what an execution answers to further events.

## Main results

* `Execution.replayTraced_record` — what a live execution recorded can be replayed.
* `Execution.record_of_replayTraced` — what can be replayed is what a live execution records.
* `Execution.replay_accepts_iff_recorded` — replay accepts exactly the recorded histories.
-/

namespace DurableWorkflow

/-- The inputs of a history. -/
def inputs (history : List Event) : List Event :=
  history.filter fun event => !event.isRecord

/-- The records of a history. -/
def records (history : List Event) : List Event :=
  history.filter Event.isRecord

/-- The record of a command is a record. -/
@[simp] theorem Command.isRecord_record (command : Command) : command.record.isRecord = true := by
  cases command <;> rfl

/-- Commands have no inputs among their records. -/
@[simp] theorem inputs_map_record (commands : List Command) :
    inputs (commands.map Command.record) = [] := by
  simp [inputs]

/-- Commands have their records only. -/
@[simp] theorem records_map_record (commands : List Command) :
    records (commands.map Command.record) = commands.map Command.record := by
  simp [records]

/-- The inputs of two histories one after the other. -/
@[simp] theorem inputs_append (a b : List Event) : inputs (a ++ b) = inputs a ++ inputs b :=
  List.filter_append a b

/-- Inputs are inputs. -/
@[simp] theorem inputs_inputs (history : List Event) :
    inputs (inputs history) = inputs history := by
  simp [inputs]

/-- The records of two histories one after the other. -/
@[simp] theorem records_append (a b : List Event) : records (a ++ b) = records a ++ records b :=
  List.filter_append a b

namespace Recording

variable (first second : Recording) {event : Event} (commands : List Command)

/-- The history in two recordings. -/
@[simp] theorem delta_append : (first.append second).delta = first.delta ++ second.delta :=
  rfl

/-- The commands in two recordings. -/
@[simp] theorem commands_append :
    (first.append second).commands = first.commands ++ second.commands :=
  rfl

/-- The only input in the recording of an input is that input. -/
theorem inputs_ofStep (h : event.isRecord = false) :
    inputs (ofStep event commands).delta = [event] := by
  simp [ofStep, inputs, h]

/-- The records in the recording of an input are those of its commands. -/
theorem records_ofStep (h : event.isRecord = false) :
    records (ofStep event commands).delta = commands.map Command.record := by
  simp [ofStep, records, h]

end Recording

namespace Execution

variable {x y : Execution} {recording : Recording} {events : List Event}

/-! ### Recording -/

/-- Recording no events records nothing. -/
@[simp] theorem record_nil (x : Execution) : x.record [] = (.ok .empty, x) :=
  rfl

/-- A recording of events starts with the recording of the first. -/
theorem record_cons_ok {event : Event} (h : x.record (event :: events) = (.ok recording, y)) :
    ∃ outcome x' rest, x.step event = (.ok outcome, x') ∧ x'.record events = (.ok rest, y)
      ∧ recording = (Recording.ofStep event outcome.commands).append rest := by
  rw [record] at h
  rcases hstep : x.step event with ⟨_ | outcome, x'⟩ <;> rw [hstep] at h
  · cases h
  · rcases hrest : x'.record events with ⟨_ | rest, z⟩ <;> simp only [hrest] at h <;> cases h
    exact ⟨outcome, x', rest, rfl, hrest, rfl⟩

/-- The first event and the recording of the others make a recording. -/
theorem record_cons {event : Event} {outcome : StepOutcome} {x' : Execution} {rest : Recording}
    (hstep : x.step event = (.ok outcome, x')) (hrest : x'.record events = (.ok rest, y)) :
    x.record (event :: events)
      = (.ok ((Recording.ofStep event outcome.commands).append rest), y) := by
  simp only [record, hstep, hrest]

/-- Recordings are appended by recording one after the other. -/
theorem record_append {more : List Event} {rest : Recording} {z : Execution}
    (h : x.record events = (.ok recording, y)) (hmore : y.record more = (.ok rest, z)) :
    x.record (events ++ more) = (.ok (recording.append rest), z) := by
  induction events generalizing x recording with
  | nil =>
      cases h
      simpa [Recording.append, Recording.empty] using hmore
  | cons event events ih =>
      obtain ⟨outcome, x', tail, hstep, htail, rfl⟩ := record_cons_ok h
      rw [List.cons_append, record_cons hstep (ih htail)]
      simp [Recording.append]

/-- A recording of events can be cut wherever the events can. -/
theorem record_append_ok {more : List Event}
    (h : x.record (events ++ more) = (.ok recording, y)) :
    ∃ first x' rest, x.record events = (.ok first, x') ∧ x'.record more = (.ok rest, y)
      ∧ recording = first.append rest := by
  induction events generalizing x recording with
  | nil => exact ⟨.empty, x, recording, rfl, h, rfl⟩
  | cons event events ih =>
      obtain ⟨outcome, x', tail, hstep, htail, rfl⟩ := record_cons_ok h
      obtain ⟨first, x'', rest, hfirst, hrest, rfl⟩ := ih htail
      refine ⟨_, x'', rest, record_cons hstep hfirst, hrest, ?_⟩
      simp [Recording.append]

/-- A live execution accepts inputs only. -/
theorem Live.isRecord_of_step (live : x.Live) {event : Event} {outcome : StepOutcome}
    (h : x.step event = (.ok outcome, y)) : event.isRecord = false := by
  cases hrecord : event.isRecord with
  | false => rfl
  | true =>
      rw [step_unmatched live.unconfirmed hrecord] at h
      cases h

/-- A live execution records inputs only, and those are the inputs of its recording. -/
theorem inputs_delta (live : x.Live) (h : x.record events = (.ok recording, y)) :
    inputs recording.delta = events := by
  induction events generalizing x recording with
  | nil => cases h; rfl
  | cons event events ih =>
      obtain ⟨outcome, x', rest, hstep, hrest, rfl⟩ := record_cons_ok h
      have live' : x'.Live := by simpa [hstep] using live.step event
      have hinput := live.isRecord_of_step hstep
      rw [Recording.delta_append, inputs_append, Recording.inputs_ofStep _ hinput, ih live' hrest]
      rfl

/-- The records of a recording are those of its commands. -/
theorem records_delta (live : x.Live) (h : x.record events = (.ok recording, y)) :
    records recording.delta = recording.commands.map Command.record := by
  induction events generalizing x recording with
  | nil => cases h; rfl
  | cons event events ih =>
      obtain ⟨outcome, x', rest, hstep, hrest, rfl⟩ := record_cons_ok h
      have live' : x'.Live := by simpa [hstep] using live.step event
      have hinput := live.isRecord_of_step hstep
      rw [Recording.delta_append, records_append, Recording.records_ofStep _ hinput,
        ih live' hrest, Recording.commands_append, List.map_append]
      rfl

/-- Recording keeps an execution live. -/
theorem Live.record (live : x.Live) (events : List Event) : (x.record events).2.Live := by
  induction events generalizing x with
  | nil => exact live
  | cons event events ih =>
      have hnext := ih (live.step event)
      rw [Execution.record]
      split
      · rename_i hstep
        simpa [hstep] using live.step event
      · rename_i hstep
        rw [hstep] at hnext
        split <;> rename_i hrest <;> rw [hrest] at hnext <;> exact hnext

/-- Recording brings no code into an execution that is not replay-blind. -/
theorem IsBlind.record (blind : x.IsBlind) (live : x.Live) (events : List Event) :
    (x.record events).2.IsBlind := by
  induction events generalizing x with
  | nil => exact blind
  | cons event events ih =>
      have hnext := ih (blind.step live event) (live.step event)
      rw [Execution.record]
      split
      · rename_i hstep
        simpa [hstep] using blind.step live event
      · rename_i hstep
        rw [hstep] at hnext
        split <;> rename_i hrest <;> rw [hrest] at hnext <;> exact hnext

/-- **Recording does the same in both modes** once replay is over. -/
theorem record_recast (live : x.Live) (blind : x.IsBlind) (notes : List Note) (count : Nat)
    (h : x.record events = (.ok recording, y)) :
    ∃ notes', (x.recast false notes count []).record events
      = (.ok recording, y.recast false notes' (count + events.length) []) := by
  induction events generalizing x recording notes count with
  | nil => cases h; exact ⟨notes, rfl⟩
  | cons event events ih =>
      obtain ⟨outcome, x', rest, hstep, hrest, rfl⟩ := record_cons_ok h
      obtain ⟨notes₁, hrecast⟩ := step_recast live blind event false notes count
      have live' := live.step event
      have blind' := blind.step live event
      rw [hstep] at hrecast live' blind'
      obtain ⟨notes₂, hnext⟩ := ih live' blind' notes₁ (count + 1) hrest
      refine ⟨notes₂, ?_⟩
      rw [record_cons hrecast hnext, List.length_cons, Nat.add_assoc, Nat.add_comm 1]

/-! ### Applying a recorded history -/

/-- Applying events stops at the first divergence. -/
theorem applyAll_append (x : Execution) (first second : List Event) :
    x.applyAll (first ++ second)
      = match x.applyAll first with
        | (some e, y) => (some e, y)
        | (none, y) => y.applyAll second := by
  induction first generalizing x with
  | nil => rfl
  | cons event first ih =>
      simp only [List.cons_append, applyAll]
      rcases x.step event with ⟨_ | _, y⟩
      · rfl
      · exact ih y

/-- The records of the commands that await theirs confirm them. -/
theorem applyAll_records (x : Execution) (notes : List Note) (count : Nat)
    (unconfirmed : List Command) :
    (x.recast true notes count unconfirmed).applyAll (unconfirmed.map Command.record)
      = (none, x.recast true notes (count + unconfirmed.length) []) := by
  induction unconfirmed generalizing count with
  | nil => rfl
  | cons command unconfirmed ih =>
      have hstep := step_record x true notes count command unconfirmed command.record (by simp)
      simp only [ite_true] at hstep
      simp only [List.map_cons, applyAll, hstep, ih, List.length_cons]
      rw [Nat.add_assoc, Nat.add_comm 1]

/-- What a live execution records can be applied to it in replay. -/
theorem applyAll_delta (live : x.Live) (blind : x.IsBlind) (notes : List Note) (count : Nat)
    (h : x.record events = (.ok recording, y)) :
    ∃ notes', (x.recast true notes count []).applyAll recording.delta
      = (none, y.recast true notes' (count + recording.delta.length) []) := by
  induction events generalizing x recording notes count with
  | nil => cases h; exact ⟨notes, rfl⟩
  | cons event events ih =>
      obtain ⟨outcome, x', rest, hstep, hrest, rfl⟩ := record_cons_ok h
      obtain ⟨notes₁, hrecast⟩ := step_recast live blind event true notes count
      have live' := live.step event
      have blind' := blind.step live event
      rw [hstep] at hrecast live' blind'
      obtain ⟨notes₂, hnext⟩ := ih live' blind' notes₁
        (count + 1 + outcome.commands.length) hrest
      refine ⟨notes₂, ?_⟩
      simp only [Recording.delta_append, Recording.ofStep, List.cons_append, applyAll, hrecast,
        ite_true, applyAll_append, applyAll_records, hnext, List.length_cons, List.length_append,
        List.length_map]
      congr 2
      omega

/-- What can be applied to an execution in replay, so that no command awaits its record in the end,
is the missing records and then what the live execution records. -/
theorem record_of_applyAll (live : x.Live) (blind : x.IsBlind) {history : List Event}
    {notes : List Note} {count : Nat} {unconfirmed : List Command}
    (h : (x.recast true notes count unconfirmed).applyAll history = (none, y))
    (confirmed : y.unconfirmed = []) :
    ∃ recording z, x.record (inputs history) = (.ok recording, z)
      ∧ history = unconfirmed.map Command.record ++ recording.delta := by
  -- The commands that await their records are carried along: a record takes the first of them off,
  -- and an input is accepted only when none is left.
  induction history generalizing x notes count unconfirmed with
  | nil =>
      cases h
      obtain rfl : unconfirmed = [] := confirmed
      exact ⟨.empty, x, rfl, rfl⟩
  | cons event history ih =>
      cases hrecord : event.isRecord with
      | true =>
          have hinputs : inputs (event :: history) = inputs history := by simp [inputs, hrecord]
          cases unconfirmed with
          | nil =>
              rw [applyAll, step_unmatched rfl hrecord] at h
              cases h
          | cons command unconfirmed =>
              rw [applyAll, step_record _ _ _ _ _ _ _ hrecord] at h
              by_cases hmatch : command.record = event
              · rw [if_pos hmatch] at h
                obtain ⟨recording, z, hz, rfl⟩ := ih live blind h
                exact ⟨recording, z, hinputs ▸ hz, by rw [← hmatch]; rfl⟩
              · rw [if_neg hmatch] at h
                cases h
      | false =>
          have hinputs : inputs (event :: history) = event :: inputs history := by
            simp [inputs, hrecord]
          cases unconfirmed with
          | cons command unconfirmed =>
              rw [applyAll, step_missing rfl hrecord] at h
              cases h
          | nil =>
              obtain ⟨notes₁, hrecast⟩ := step_recast live blind event true notes count
              have live' := live.step event
              have blind' := blind.step live event
              rw [applyAll, hrecast] at h
              rcases hstep : x.step event with ⟨e | outcome, x'⟩ <;>
                rw [hstep] at h live' blind'
              · cases h
              · obtain ⟨recording, z, hz, rfl⟩ := ih live' blind' h
                refine ⟨_, z, hinputs ▸ record_cons hstep hz, ?_⟩
                simp [Recording.ofStep]

/-! ### Replay -/

/-- **What a live execution recorded can be replayed**, and replay gives that execution back but for
its notes and its count of events. -/
theorem replayTraced_record {program : Program} (blind : program.isReplayBlind) {info : RunInfo}
    {converter : Converter}
    (h : (new info program converter).record events = (.ok recording, y)) :
    ∃ notes, replayTraced info program converter recording.delta
      = (none, y.recast false notes recording.delta.length []) := by
  obtain ⟨notes, happly⟩ := applyAll_delta (live_new info program converter)
    (isBlind_new blind info converter) [] 0 h
  rw [Nat.zero_add] at happly
  cases events with
  | nil => cases h; exact ⟨[], rfl⟩
  | cons event events =>
      obtain ⟨outcome, _, rest, -, -, rfl⟩ := record_cons_ok h
      have hnew : (new info program converter).recast true [] 0 []
          = (new info program converter).setReplaying true := rfl
      rw [hnew] at happly
      refine ⟨notes, ?_⟩
      simp only [replayTraced, Recording.delta_append, Recording.ofStep, List.cons_append,
        List.isEmpty_cons, Bool.not_false] at happly ⊢
      rw [happly]
      rfl

/-- **What can be replayed is what a live execution records.** -/
theorem record_of_replayTraced {program : Program} (blind : program.isReplayBlind) {info : RunInfo}
    {converter : Converter} {history : List Event}
    (h : replayTraced info program converter history = (none, x)) :
    ∃ recording y, (new info program converter).record (inputs history) = (.ok recording, y)
      ∧ history = recording.delta := by
  cases history with
  | nil => exact ⟨.empty, _, rfl, rfl⟩
  | cons event history =>
      have hnew : (new info program converter).setReplaying true
          = (new info program converter).recast true [] 0 [] := rfl
      simp only [replayTraced, List.isEmpty_cons, Bool.not_false, hnew] at h
      rcases happly : ((new info program converter).recast true [] 0 []).applyAll (event :: history)
        with ⟨_ | e, z⟩ <;> simp only [happly] at h
      · have confirmed : z.unconfirmed = [] := by
          rw [finishReplay] at h
          rcases hz : z.unconfirmed with _ | ⟨command, rest⟩
          · rfl
          · simp [hz] at h
        obtain ⟨recording, y, hrecord, hdelta⟩ := record_of_applyAll
          (live_new info program converter) (isBlind_new blind info converter) happly confirmed
        exact ⟨recording, y, hrecord, hdelta⟩
      · cases h

/-! ### Replayed and live executions -/

/-- Whether two executions are the same but for what their code noted and how many events they
counted: they agree on program, scheduler with all threads and the order in which they blocked,
commands, children, timers, futures, the request to cancel and whether they have closed. -/
def Agrees (x y : Execution) : Prop :=
  x = { y with
    context := { y.context with notes := x.context.notes }
    eventsApplied := x.eventsApplied }

/-- What an execution answers to further events, also after a divergence. A divergence is placed
by counting from a given event on. -/
def answers (x : Execution) (first : Nat) : List Event → List (Except Nondeterminism StepOutcome)
  | [] => []
  | event :: events =>
    match x.step event with
    | (.ok outcome, x) => .ok outcome :: x.answers first events
    | (.error e, x) =>
      .error { e with eventIndex := e.eventIndex - first } :: x.answers first events

/-- Recasting a live execution as live changes its notes and its count only. -/
theorem Live.recast_eq (live : x.Live) (notes : List Note) (count : Nat) :
    x.recast false notes count []
      = { x with context := { x.context with notes }, eventsApplied := count } := by
  obtain ⟨hreplaying, hunconfirmed⟩ := live
  obtain ⟨program, context, scheduler, unconfirmed, issued, eventsApplied, started, complete⟩ := x
  subst hunconfirmed
  simp only [recast, Context.under]
  rw [← hreplaying]

/-- A live execution is its own recast. -/
theorem Live.recast_self (live : x.Live) :
    x.recast false x.context.notes x.eventsApplied [] = x :=
  live.recast_eq x.context.notes x.eventsApplied

/-- An event is counted. -/
theorem eventsApplied_step (live : x.Live) (event : Event) :
    (x.step event).2.eventsApplied = x.eventsApplied + 1 := by
  by_cases hrecord : event.isRecord = true
  · rw [step_unmatched live.unconfirmed hrecord]
    rfl
  · rw [step_input live.unconfirmed (by simpa using hrecord)]
    split
    · rfl
    · split
      · rfl
      · split
        · rfl
        · rename_i z haccept
          obtain ⟨_, _, hrun⟩ := z.runThreads_eq
          obtain ⟨_, _, _, hsettle⟩ := z.runThreads.settle_eq
          have hz : z.eventsApplied = x.counted.eventsApplied := by
            rcases accept_inv haccept with ⟨-, _, -, rfl⟩ | ⟨-, _, _, _, _, -, rfl⟩ <;> rfl
          rw [hsettle, hrun]
          exact hz

/-- Live executions that differ in notes and count of events answer alike. -/
theorem recast_answers (live : x.Live) (blind : x.IsBlind) (notes : List Note)
    {count first first' : Nat} (hle : first ≤ x.eventsApplied)
    (hcount : count + first = x.eventsApplied + first') (events : List Event) :
    (x.recast false notes count []).answers first' events = x.answers first events := by
  induction events generalizing x notes count with
  | nil => rfl
  | cons event events ih =>
      obtain ⟨notes₁, hrecast⟩ := step_recast live blind event false notes count
      obtain ⟨notes₂, hself⟩ := step_recast live blind event false x.context.notes x.eventsApplied
      have live' := live.step event
      have blind' := blind.step live event
      have happlied := eventsApplied_step live event
      rw [live.recast_self] at hself
      rcases hstep : x.step event with ⟨e | outcome, x'⟩ <;>
        rw [hstep] at hrecast hself live' blind' happlied <;> dsimp only at live' blind' happlied
      · have hplace : e.eventIndex = x.eventsApplied :=
          congrArg Nondeterminism.eventIndex (Except.error.inj (congrArg Prod.fst hself))
        have hindex : count - first' = x.eventsApplied - first := by omega
        simp only [answers, hrecast, hstep, hplace, hindex]
        rw [ih live' blind' notes₁ (by omega) (by omega)]
      · simp only [answers, hrecast, hstep, Bool.false_eq_true, ite_false]
        rw [ih live' blind' notes₁ (by omega) (by omega)]

/-- **Replay accepts exactly the histories that a live execution records.** A history can be
replayed if and only if a new live execution accepts each of its inputs in turn and the history is
what comes of recording that: each input followed by the records of the commands it led to. The
replayed execution and the live one then agree, and whatever events come next, both answer alike. -/
theorem replay_accepts_iff_recorded {program : Program} (blind : program.isReplayBlind)
    (info : RunInfo) (converter : Converter) (history : List Event) :
    ((∃ x, replay info program converter history = .ok x)
        ↔ ∃ recording y, (new info program converter).record (inputs history) = (.ok recording, y)
          ∧ history = recording.delta)
      ∧ ∀ x recording y, replay info program converter history = .ok x →
          (new info program converter).record (inputs history) = (.ok recording, y) →
          x.Agrees y ∧ ∀ events,
            x.answers x.eventsApplied events = y.answers y.eventsApplied events := by
  refine ⟨⟨?_, ?_⟩, ?_⟩
  · rintro ⟨x, hreplay⟩
    rw [replay] at hreplay
    rcases htraced : replayTraced info program converter history with ⟨_ | e, z⟩ <;>
      rw [htraced] at hreplay
    · exact record_of_replayTraced blind htraced
    · cases hreplay
  · rintro ⟨recording, y, hrecord, rfl⟩
    obtain ⟨notes, htraced⟩ := replayTraced_record blind hrecord
    exact ⟨_, by rw [replay, htraced]⟩
  · intro x recording y hreplay hrecord
    have live := (live_new info program converter).record (inputs history)
    have hblind := (isBlind_new blind info converter).record (live_new info program converter)
      (inputs history)
    rw [hrecord] at live hblind
    obtain ⟨notes, hx⟩ : ∃ notes, x = y.recast false notes history.length [] := by
      rw [replay] at hreplay
      rcases htraced : replayTraced info program converter history with ⟨_ | e, z⟩ <;>
        rw [htraced] at hreplay <;> cases hreplay
      obtain ⟨recording', y', hrecord', hdelta⟩ := record_of_replayTraced blind htraced
      rw [hrecord] at hrecord'
      cases hrecord'
      obtain ⟨notes, hrecorded⟩ := replayTraced_record blind hrecord
      rw [← hdelta, htraced] at hrecorded
      exact ⟨notes, congrArg Prod.snd hrecorded⟩
    subst hx
    exact ⟨live.recast_eq notes history.length,
      recast_answers live hblind notes (Nat.le_refl _) (Nat.add_comm _ _)⟩

/-- A program that sleeps for five milliseconds. -/
def napping : Program :=
  ⟨none, [.perform (.sleep ⟨5000000⟩) ⟨none, none⟩, .perform (.finish "rested") ⟨none, none⟩]⟩

/-- The identity of a run of it. -/
def nap : RunInfo :=
  ⟨"Nap", "take", "nap", "run-1", "main", none⟩

/-- The history of a nap from its start to its end. -/
def napHistory : List Event :=
  [.executionStarted "Nap" "take" "" none, .timerStarted 1 5, .timerFired 1, .completed "rested"]

/-- A result that is there is no divergence. -/
theorem eq_ok_of_toOption {α : Type} {result : Except Nondeterminism α} {value : α}
    (h : result.toOption = some value) : result = .ok value := by
  cases result with
  | ok other => exact congrArg Except.ok (Option.some.inj h)
  | error e => cases h

/-- The history of a nap can be replayed. -/
theorem replay_napHistory :
    napping.isReplayBlind = true ∧ ∃ x, replay nap napping .json napHistory = .ok x := by
  have blind : napping.isReplayBlind = true := by decide
  have hrecord : ((new nap napping .json).record (inputs napHistory)).1
      = .ok ⟨napHistory, [.startTimer 1 5, .complete "rested"]⟩ :=
    eq_ok_of_toOption (by decide +kernel)
  exact ⟨blind, (replay_accepts_iff_recorded blind nap .json napHistory).1.mpr
    ⟨_, _, Prod.ext hrecord rfl, rfl⟩⟩

end Execution

end DurableWorkflow
