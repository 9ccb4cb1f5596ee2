import DurableWorkflow.Proofs.Bookkeeping
import DurableWorkflow.Proofs.RefusedEvents

/-!
# The first divergence

Replay gives up with the place where it did so. That place is worth something if it is the first one
at which the history leaves those that the program can have: everything before it could still have
gone on to a history that is replayed, and nothing that begins as the history does up to there can.

A divergence may be a wrong record, a record too many, an input too early, one that fits no timer or
child, or that records are missing in the end. The first ones are met by a step, at an event that no
continuation can mend; whatever was applied before it only lacks the records of the commands that
still await theirs. The last one is met when all events are applied, and the missing records are all
that is missing.

## Main definitions

* `Execution.Begins` — whether a history can go on to one that is replayed.
* `Execution.Strays` — whether it is the shortest beginning of another one that cannot.

## Main results

* `Execution.applyAll_diverges` — where a divergence is met.
* `Execution.applyAll_awaited` — the records of the commands that await theirs can be applied.
* `Execution.replay_diverges_first` — replay reports the end of the shortest beginning that cannot
  go on to a history that is replayed; or, if there is none, a missing record after the last event.
-/

namespace DurableWorkflow

namespace Execution

variable {x x' y : Execution} {event : Event} {e : Nondeterminism} {info : RunInfo}
  {program : Program} {converter : Converter} {history first : List Event}

/-! ### Applying events -/

/-- Whatever an event does, it is counted and the identity of the run stays. -/
theorem step_counts (x : Execution) (event : Event) :
    (x.step event).2.eventsApplied = x.eventsApplied + 1
      ∧ (x.step event).2.context.info = x.context.info := by
  rcases x.step_inv event with ⟨_, _, hstep, -⟩ | ⟨y, haccept, -, -, -, hstep⟩
  · rw [hstep]
    exact ⟨rfl, rfl⟩
  · have hy : y.eventsApplied = x.eventsApplied + 1 ∧ y.context.info = x.context.info := by
      rcases accept_inv haccept with ⟨-, context, happly, rfl⟩ | ⟨-, _, _, _, _, -, rfl⟩
      · obtain ⟨_, _, _, _, _, rfl⟩ := applyInput_eq happly
        exact ⟨rfl, rfl⟩
      · exact ⟨rfl, rfl⟩
    obtain ⟨_, _, _, hsettle⟩ := y.runThreads.settle_eq
    have hinfo := y.runThreads_moves.fixed.1
    obtain ⟨_, _, hrun⟩ := y.runThreads_eq
    rw [hstep, hsettle]
    refine ⟨?_, hinfo.trans hy.2⟩
    rw [hrun]
    exact hy.1

/-- All events that are applied are counted, and the identity of the run stays. -/
theorem applyAll_counts (h : x.applyAll history = (none, y)) :
    y.eventsApplied = x.eventsApplied + history.length ∧ y.context.info = x.context.info := by
  induction history generalizing x with
  | nil =>
      cases h
      exact ⟨rfl, rfl⟩
  | cons event history ih =>
      have hcounts := x.step_counts event
      rw [applyAll] at h
      rcases hstep : x.step event with ⟨e | outcome, x'⟩ <;> simp only [hstep] at h hcounts
      · cases h
      · obtain ⟨hcount, hinfo⟩ := ih h
        refine ⟨?_, hinfo.trans hcounts.2⟩
        rw [hcount, hcounts.1, List.length_cons]
        omega

/-- **Where a divergence is met**: at an event that is refused after all events before it were
applied. -/
theorem applyAll_diverges (h : x.applyAll history = (some e, y)) :
    ∃ first event rest z, history = first ++ event :: rest ∧ x.applyAll first = (none, z)
      ∧ z.step event = (.error e, y) := by
  induction history generalizing x with
  | nil => cases h
  | cons event history ih =>
      rw [applyAll] at h
      rcases hstep : x.step event with ⟨e' | outcome, x'⟩ <;> simp only [hstep] at h
      · cases h
        exact ⟨[], event, history, x, rfl, rfl, hstep⟩
      · obtain ⟨first, last, rest, z, rfl, hfirst, hlast⟩ := ih h
        refine ⟨event :: first, last, rest, z, rfl, ?_, hlast⟩
        rw [applyAll, hstep]
        exact hfirst

/-- The records of the commands that await theirs can be applied, and then none does. -/
theorem applyAll_awaited (x : Execution) :
    ∃ y, x.applyAll (x.unconfirmed.map Command.record) = (none, y) ∧ y.unconfirmed = [] := by
  generalize hawaited : x.unconfirmed = awaited
  induction awaited generalizing x with
  | nil => exact ⟨x, rfl, hawaited⟩
  | cons command awaited ih =>
      have hstep := step_held hawaited command.isRecord_record
      rw [if_pos (by simp [Command.matchesRecord])] at hstep
      obtain ⟨y, hy, hnone⟩ := ih { x.counted with unconfirmed := awaited } rfl
      refine ⟨y, ?_, hnone⟩
      rw [List.map_cons, applyAll, hstep]
      exact hy

/-! ### Replay -/

/-- A history that holds an event is applied to an execution in replay, which is then left. -/
theorem replay_of_ne_nil (hevents : history ≠ []) :
    replay info program converter history
      = match ((new info program converter).setReplaying true).applyAll history with
        | (some e, _) => .error e
        | (none, x) => x.finishReplay := by
  obtain ⟨event, history, rfl⟩ := List.exists_cons_of_ne_nil hevents
  simp only [replay, replayTraced, List.isEmpty_cons, Bool.not_false]
  rcases ((new info program converter).setReplaying true).applyAll (event :: history)
    with ⟨_ | e, x⟩
  · dsimp only
    cases x.finishReplay <;> rfl
  · rfl

/-- Whether a history can go on to one that is replayed. -/
def Begins (info : RunInfo) (program : Program) (converter : Converter) (history : List Event) :
    Prop :=
  ∃ more x, replay info program converter (history ++ more) = .ok x

/-- What a history that can go on begins with can go on too. -/
theorem Begins.mono (begins : Begins info program converter history) (h : first <+: history) :
    Begins info program converter first := by
  obtain ⟨rest, rfl⟩ := h
  obtain ⟨more, x, hreplay⟩ := begins
  exact ⟨rest ++ more, x, by rw [← List.append_assoc, hreplay]⟩

/-- What can be applied can be replayed once the records are added that are still awaited. -/
theorem replay_awaited
    (h : ((new info program converter).setReplaying true).applyAll history = (none, y)) :
    ∃ x, replay info program converter (history ++ y.unconfirmed.map Command.record) = .ok x := by
  by_cases hempty : history ++ y.unconfirmed.map Command.record = []
  · rw [hempty]
    exact ⟨_, rfl⟩
  · obtain ⟨z, hz, hnone⟩ := y.applyAll_awaited
    refine ⟨z.setReplaying false, ?_⟩
    rw [replay_of_ne_nil hempty, applyAll_append, h]
    simp only [hz, finishReplay, hnone]

/-- Nothing goes on after an event that is refused. -/
theorem not_begins_of_refused
    (h : ((new info program converter).setReplaying true).applyAll first = (none, x))
    (hstep : x.step event = (.error e, y)) :
    ¬ Begins info program converter (first ++ [event]) := by
  rintro ⟨more, z, hreplay⟩
  rw [List.append_assoc, replay_of_ne_nil (by simp), applyAll_append, h] at hreplay
  simp only [List.singleton_append, applyAll, hstep] at hreplay
  cases hreplay

/-- Whether a list is the shortest beginning of a history that cannot go on to one that is
replayed. -/
structure Strays (info : RunInfo) (program : Program) (converter : Converter)
    (first history : List Event) : Prop where
  /-- The history begins with it. -/
  beginning : first <+: history
  /-- It cannot go on to a history that is replayed. -/
  stray : ¬ Begins info program converter first
  /-- Every other such beginning is at least as long. -/
  shortest : ∀ other, other <+: history → ¬ Begins info program converter other →
    first.length ≤ other.length

/-- Up to an event that is refused a history could go on. -/
theorem strays_of_refused {rest : List Event}
    (h : ((new info program converter).setReplaying true).applyAll first = (none, x))
    (hstep : x.step event = (.error e, y)) :
    Strays info program converter (first ++ [event]) (first ++ event :: rest) where
  beginning := ⟨rest, by rw [List.append_assoc, List.singleton_append]⟩
  stray := not_begins_of_refused h hstep
  shortest other hother hstray := by
    by_contra hshort
    rw [List.length_append, List.length_singleton] at hshort
    -- A shorter beginning is one of what was applied, and that only lacks some records.
    have hwithin : other <+: first :=
      List.prefix_of_prefix_length_le hother (List.prefix_append first _) (by omega)
    exact hstray (Begins.mono ⟨_, replay_awaited h⟩ hwithin)

/-- **Replay reports the first divergence.** It names the workflow. If a beginning of the history
cannot go on to a history that is replayed, it gives the index of the last event of the shortest
such beginning. If there is none, it gives the index of the last event of the history and a command
that was never recorded; and with the records of that and of the commands after it the history can
be replayed. -/
theorem replay_diverges_first (h : replay info program converter history = .error e) :
    e.workflowId = info.workflowId
      ∧ ((∃ other, other <+: history ∧ ¬ Begins info program converter other) →
        ∃ first event, Strays info program converter (first ++ [event]) history
          ∧ e.eventIndex = first.length)
      ∧ ((∀ other, other <+: history → Begins info program converter other) →
        history ≠ [] ∧ e.eventIndex = history.length - 1
          ∧ ∃ command more, e.divergence = .neverRecorded command
            ∧ e.message = "history ended but command " ++ command.inspect ++ " was never recorded"
            ∧ ∃ x, replay info program converter
              (history ++ (command :: more).map Command.record) = .ok x) := by
  have hevents : history ≠ [] := by
    rintro rfl
    cases h
  rw [replay_of_ne_nil hevents] at h
  rcases happly : ((new info program converter).setReplaying true).applyAll history
    with ⟨_ | e', y⟩ <;> simp only [happly] at h
  · obtain ⟨hcount, hinfo⟩ := applyAll_counts happly
    rw [finishReplay] at h
    cases hawaited : y.unconfirmed with
    | nil => simp [hawaited] at h
    | cons command more =>
        simp only [hawaited, Except.error.injEq] at h
        subst h
        have hreplay := replay_awaited happly
        rw [hawaited] at hreplay
        refine ⟨congrArg RunInfo.workflowId hinfo, ?_, fun _ => ⟨hevents, ?_, ?_⟩⟩
        · rintro ⟨other, hother, hstray⟩
          exact absurd (Begins.mono ⟨_, hreplay⟩ hother) hstray
        · rw [diverge, hcount]
          exact congrArg (· - 1) (Nat.zero_add _)
        · exact ⟨command, more, rfl, rfl, hreplay⟩
  · cases h
    obtain ⟨first, event, rest, z, rfl, hfirst, hstep⟩ := applyAll_diverges happly
    obtain ⟨hcount, hinfo⟩ := applyAll_counts hfirst
    obtain ⟨⟨divergence, rfl⟩, -⟩ := step_refused hstep
    have hstrays : Strays info program converter (first ++ [event]) (first ++ event :: rest) :=
      strays_of_refused hfirst hstep
    refine ⟨congrArg RunInfo.workflowId hinfo, fun _ => ⟨first, event, hstrays, ?_⟩, fun hall => ?_⟩
    · exact hcount.trans (Nat.zero_add _)
    · exact absurd (hall _ hstrays.beginning) hstrays.stray

/-- A nap for which another timer was recorded strays at that record. One of which only the start
was recorded lacks a record. -/
theorem nap_diverges :
    (∃ e, replay nap napping .json [napStart, .timerStarted 1 7, .timerFired 1] = .error e
        ∧ e.eventIndex = 1
        ∧ Strays nap napping .json [napStart, .timerStarted 1 7]
          [napStart, .timerStarted 1 7, .timerFired 1])
      ∧ ∃ e, replay nap napping .json [napStart] = .error e ∧ e.eventIndex = 0
        ∧ ∃ command more, e.divergence = .neverRecorded command
          ∧ ∃ x, replay nap napping .json
            (napStart :: (command :: more).map Command.record) = .ok x := by
  have happly : ((new nap napping .json).setReplaying true).applyAll [napStart]
      = (none, lyingDown) :=
    Prod.ext (by decide +kernel) rfl
  have hawaited : lyingDown.unconfirmed = [.startTimer 1 5] := by decide +kernel
  refine ⟨?_, ?_⟩
  · have hstep := step_held hawaited (rfl : (Event.timerStarted 1 7).isRecord = true)
    rw [if_neg (by decide)] at hstep
    have hreplay : replay nap napping .json [napStart, .timerStarted 1 7, .timerFired 1]
        = .error (lyingDown.counted.diverge
          (.differentRecord (.timerStarted 1 7) (.startTimer 1 5))) := by
      rw [replay_of_ne_nil (by simp),
        show [napStart, .timerStarted 1 7, .timerFired 1] = [napStart] ++ [_, _] from rfl,
        applyAll_append, happly]
      simp only [applyAll, hstep]
    have hplace : (lyingDown.counted.diverge
        (.differentRecord (.timerStarted 1 7) (.startTimer 1 5))).eventIndex = 1 := by
      decide +kernel
    obtain ⟨first, event, hstrays, hindex⟩ := (replay_diverges_first hreplay).2.1
      ⟨_, ⟨[.timerFired 1], rfl⟩, not_begins_of_refused happly hstep⟩
    refine ⟨_, hreplay, hplace, ?_⟩
    have hlength : (first ++ [event]).length = 2 := by
      rw [List.length_append, ← hindex, hplace]
      rfl
    have htake := List.prefix_iff_eq_take.mp hstrays.beginning
    rw [hlength] at htake
    rwa [htake] at hstrays
  · have hreplay : replay nap napping .json [napStart]
        = .error (lyingDown.diverge (.neverRecorded (.startTimer 1 5))) := by
      rw [replay_of_ne_nil (by simp), happly]
      simp only [finishReplay, hawaited]
    obtain ⟨-, -, hmissing⟩ := replay_diverges_first hreplay
    obtain ⟨-, hindex, command, more, hdivergence, -, hmore⟩ :=
      hmissing fun _ hother => Begins.mono ⟨_, replay_awaited happly⟩ hother
    exact ⟨_, hreplay, hindex, command, more, hdivergence, hmore⟩

end Execution

end DurableWorkflow
