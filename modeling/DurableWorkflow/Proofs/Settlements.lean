import DurableWorkflow.Proofs.Replay
import DurableWorkflow.Worker
import Mathlib.Data.ENat.Lattice

/-!
# How tasks are settled

A settlement branches over the answers of the backend. With given replies it goes one way: what the
worker does about its task, in order, and the answer that counts in the end.

Handing in a result is tried again as long as the backend refuses it with an error that may pass and
there are retries left. When they are used up the task is given back. So a task whose workflow could
be run, or has no implementation, is settled or given back whatever happens, unless the backend
refuses it for good. A task whose history diverges is not: the workflow is failed once, and when
that is refused the worker leaves the task as it is.

## Main definitions

* `Settlement.Replies`, `Settlement.play` — what a backend replies, and how a settlement then goes.
* `Settlement.spell` — how many answers in a row are errors that may pass.
* `Settlement.Effort.Settles` — whether a task is settled, or given back.

## Main results

* `Settlement.acknowledge_retries` — which calls and waits handing in a result takes.
* `Worker.process_settles` — which tasks are settled or given back.
-/

namespace DurableWorkflow

namespace Settlement

/-! ### How a settlement goes -/

/-- The answers of a backend: to each call, counted from zero, depending on what it asks for. -/
abbrev Replies : Type :=
  Nat → Request → Except BackendError Unit

/-- Something that a worker does about a task. -/
inductive Effort where
  /-- It makes a request and gets an answer. -/
  | asked (request : Request) (answer : Except BackendError Unit)
  /-- It waits. -/
  | waited (ms : Nat)

/-- The request that is made, if one is. -/
def Effort.request? : Effort → Option Request
  | .asked request _ => some request
  | .waited _ => none

/-- The time that is waited, if it is. -/
def Effort.wait? : Effort → Option Nat
  | .asked _ _ => none
  | .waited ms => some ms

/-- How a settlement goes with given replies after some calls: what is done about the task, and the
answer that counts. -/
def play (replies : Replies) (calls : Nat) : Settlement → List Effort × Except BackendError Unit
  | .finished answer => ([], answer)
  | .ask request next =>
    let rest := play replies (calls + 1) (next (replies calls request))
    (.asked request (replies calls request) :: rest.1, rest.2)
  | .wait ms next =>
    let rest := play replies calls next
    (.waited ms :: rest.1, rest.2)

/-- Whether an answer is an error that may pass. -/
def isPassing : Except BackendError Unit → Bool
  | .ok () => false
  | .error e => e.retryable

/-- How many of the first answers are errors that may pass; all of them may be. -/
noncomputable def spell (answers : Nat → Except BackendError Unit) : ℕ∞ :=
  ⨅ n : {n // isPassing (answers n) = false}, (n : ℕ∞)

/-- A spell is so long if all answers up to there are errors that may pass. -/
theorem coe_le_spell {answers : Nat → Except BackendError Unit} {n : Nat} :
    (n : ℕ∞) ≤ spell answers ↔ ∀ i < n, isPassing (answers i) = true := by
  rw [spell, le_iInf_iff, Subtype.forall]
  constructor
  · intro h i hless
    by_contra hlasts
    have hle : n ≤ i := ENat.natCast_le_natCast.mp (h i (Bool.eq_false_iff.mpr hlasts))
    exact absurd hle (Nat.not_le.mpr hless)
  · intro h i hlasts
    refine ENat.natCast_le_natCast.mpr (Nat.not_lt.mp fun hless => ?_)
    simp [h i hless] at hlasts

/-! ### Handing in a result -/

variable {replies : Replies} {token : String} {delta : List Event} {commands : List Command}

/-- What is done while attempts to hand in a result fail. -/
def failures (replies : Replies) (request : Request) (attempts n : Nat) : List Effort :=
  (List.range' attempts n).flatMap fun i =>
    [.asked request (replies i request), .waited (backoff i)]

/-- What is done at the last attempt: if even that fails, the task is given back. -/
def lastAttempt (replies : Replies) (token : String) (request : Request) (attempts : Nat) :
    List Effort :=
  .asked request (replies attempts request) ::
    if isPassing (replies attempts request) then
      [.asked (.abandon token) (replies (attempts + 1) (.abandon token))]
    else []

/-- An attempt is the last one if it succeeds, is refused for good or has no retry after it. -/
theorem play_retrying_last {attempts left : Nat}
    (h : left = 0 ∨ isPassing (replies attempts (.complete token delta commands)) = false) :
    (retrying token delta commands attempts left).play replies attempts
      = (lastAttempt replies token (.complete token delta commands) attempts,
        replies attempts (.complete token delta commands)) := by
  rw [lastAttempt]
  cases left with
  | zero =>
      rw [retrying, play]
      rcases replies attempts (.complete token delta commands) with e | ⟨⟩
      · cases hpassing : e.retryable <;> simp [isPassing, hpassing, play]
      · rfl
  | succ left =>
      have hlasts := h.resolve_left (Nat.succ_ne_zero left)
      rw [retrying, play, hlasts]
      rcases hanswer : replies attempts (.complete token delta commands) with e | ⟨⟩
      · rw [hanswer, isPassing] at hlasts
        simp [hlasts, play]
      · rfl

/-- After an error that may pass, with a retry left, the worker waits and tries again. -/
theorem play_retrying_again {attempts left : Nat}
    (h : isPassing (replies attempts (.complete token delta commands)) = true) :
    (retrying token delta commands attempts (left + 1)).play replies attempts
      = (.asked (.complete token delta commands) (replies attempts (.complete token delta commands))
          :: .waited (backoff attempts)
          :: ((retrying token delta commands (attempts + 1) left).play replies (attempts + 1)).1,
        ((retrying token delta commands (attempts + 1) left).play replies (attempts + 1)).2) := by
  rw [retrying, play]
  rcases hanswer : replies attempts (.complete token delta commands) with e | ⟨⟩
  · rw [hanswer, isPassing] at h
    simp [h, play]
  · rw [hanswer] at h
    cases h

/-- **How handing in a result goes**: attempts fail, and then comes the last one. -/
theorem play_retrying {attempts left n : Nat} (hn : n ≤ left)
    (hfail : ∀ i < n, isPassing (replies (attempts + i) (.complete token delta commands)) = true)
    (hlast : n = left
      ∨ isPassing (replies (attempts + n) (.complete token delta commands)) = false) :
    (retrying token delta commands attempts left).play replies attempts
      = (failures replies (.complete token delta commands) attempts n
          ++ lastAttempt replies token (.complete token delta commands) (attempts + n),
        replies (attempts + n) (.complete token delta commands)) := by
  induction n generalizing attempts left with
  | zero => exact play_retrying_last (hlast.imp_left Eq.symm)
  | succ n ih =>
      obtain ⟨left, rfl⟩ : ∃ rest, left = rest + 1 := ⟨left - 1, by omega⟩
      have hplace (i : Nat) : attempts + 1 + i = attempts + (i + 1) := by omega
      have hrest := @ih (attempts + 1) left (by omega)
        (fun i hi => hplace i ▸ hfail (i + 1) (by omega)) (hplace n ▸ hlast.imp_left (by omega))
      have hfirst : isPassing (replies attempts (.complete token delta commands)) = true :=
        hfail 0 (Nat.succ_pos n)
      rw [play_retrying_again hfirst, hrest, hplace, failures, failures, List.range'_succ]
      rfl

/-- The same from the beginning. -/
theorem play_acknowledge {retries n : Nat} (hn : n ≤ retries)
    (hfail : ∀ i < n, isPassing (replies i (.complete token delta commands)) = true)
    (hlast : n = retries ∨ isPassing (replies n (.complete token delta commands)) = false) :
    (acknowledge token delta commands retries).play replies 0
      = (failures replies (.complete token delta commands) 0 n
          ++ lastAttempt replies token (.complete token delta commands) n,
        replies n (.complete token delta commands)) := by
  have hplay : (retrying token delta commands 0 retries).play replies 0 = _ :=
    play_retrying hn (fun i hi => (Nat.zero_add i).symm ▸ hfail i hi)
      ((Nat.zero_add n).symm ▸ hlast)
  rwa [Nat.zero_add] at hplay

/-- The requests of failed attempts. -/
theorem failures_requests (replies : Replies) (request : Request) (attempts n : Nat) :
    (failures replies request attempts n).filterMap Effort.request? = List.replicate n request := by
  induction n generalizing attempts with
  | zero => rfl
  | succ n ih =>
      rw [failures, List.range'_succ, List.flatMap_cons, List.filterMap_append, ← failures, ih]
      rfl

/-- The waits between failed attempts. -/
theorem failures_waits (replies : Replies) (request : Request) (attempts n : Nat) :
    (failures replies request attempts n).filterMap Effort.wait?
      = (List.range' attempts n).map backoff := by
  induction n generalizing attempts with
  | zero => rfl
  | succ n ih =>
      rw [failures, List.range'_succ, List.flatMap_cons, List.filterMap_append, ← failures, ih]
      rfl

/-- The wait after a failed attempt is ten milliseconds, doubled for each attempt before it, up to
the sixteenth. -/
theorem backoff_eq (attempts : Nat) : backoff attempts = 10 * 2 ^ min attempts 16 := by
  rw [backoff, Nat.shiftLeft_eq]

/-- No wait is longer than that after the sixteenth retry. -/
theorem backoff_le (attempts : Nat) : backoff attempts ≤ 655360 := by
  rw [backoff_eq]
  calc
    10 * 2 ^ min attempts 16 ≤ 10 * 2 ^ 16 :=
      Nat.mul_le_mul_left 10 (Nat.pow_le_pow_right Nat.two_pos (Nat.min_le_right _ _))
    _ = 655360 := rfl

/-- Waits never become shorter. -/
theorem backoff_mono {attempts later : Nat} (h : attempts ≤ later) :
    backoff attempts ≤ backoff later := by
  rw [backoff_eq, backoff_eq]
  refine Nat.mul_le_mul_left 10 (Nat.pow_le_pow_right Nat.two_pos ?_)
  omega

/-- How many retries a spell of errors takes when there is a limit to them: each comes after an
error that may pass, and the last attempt fails like that only if the spell is longer than the
limit. -/
theorem exists_tries (answers : Nat → Except BackendError Unit) (retries : Nat) :
    ∃ tries : Nat, (tries : ℕ∞) = min (spell answers) retries ∧ tries ≤ retries
      ∧ (∀ i < tries, isPassing (answers i) = true)
      ∧ (isPassing (answers tries) = true ↔ (retries : ℕ∞) < spell answers)
      ∧ (tries = retries ∨ isPassing (answers tries) = false) := by
  obtain ⟨tries, htries⟩ := ENat.ne_top_iff_exists.mp
    (ne_top_of_le_ne_top (ENat.natCast_ne_top retries) (min_le_right (spell answers) retries))
  have hlimit : tries ≤ retries :=
    ENat.natCast_le_natCast.mp (htries ▸ min_le_right (spell answers) retries)
  have hbefore : ∀ i < tries, isPassing (answers i) = true :=
    coe_le_spell.mp (htries ▸ min_le_left (spell answers) retries)
  have hlast : isPassing (answers tries) = true ↔ (tries : ℕ∞) < spell answers := by
    rw [← ENat.natCast_add_one_le_iff, ← Nat.cast_succ, coe_le_spell, Nat.forall_lt_succ_right]
    exact (and_iff_right hbefore).symm
  have hlonger : (tries : ℕ∞) < spell answers ↔ (retries : ℕ∞) < spell answers := by
    rw [htries, min_lt_iff]
    exact or_iff_right (lt_irrefl _)
  refine ⟨tries, htries, hlimit, hbefore, hlast.trans hlonger, ?_⟩
  by_cases hpasses : isPassing (answers tries) = true
  · rw [min_eq_right (hlonger.mp (hlast.mp hpasses)).le] at htries
    exact .inl (ENat.natCast_inj.mp htries)
  · exact .inr (Bool.eq_false_iff.mpr hpasses)

/-- **How often handing in a result is tried.** Let the first answers be errors that may pass, any
number of them or all. The same request is made once and then again after each of these errors, as
far as there are retries, and the answer to the last one counts. Before each retry there is a wait,
of ten milliseconds at first and then longer, within bounds. The task is given back after the last
request if there were more errors than retries, and not otherwise. -/
theorem acknowledge_retries (token : String) (delta : List Event) (commands : List Command)
    (retries : Nat) (replies : Replies) :
    let request : Request := .complete token delta commands
    let errors := spell fun call => replies call request
    let settled := (acknowledge token delta commands retries).play replies 0
    ∃ tries : Nat, (tries : ℕ∞) = min errors retries
      ∧ settled.1.filterMap Effort.request?
        = List.replicate (tries + 1) request ++ (if retries < errors then [.abandon token] else [])
      ∧ settled.1.filterMap Effort.wait? = (List.range tries).map backoff
      ∧ settled.2 = replies tries request
      ∧ ∀ attempt, backoff attempt = 10 * 2 ^ min attempt 16
        ∧ backoff attempt ≤ backoff (attempt + 1)
        ∧ backoff attempt ≤ 655360 ∧ backoff attempt < UInt64.size := by
  intro request errors settled
  obtain ⟨tries, htries, hlimit, hbefore, hpasses, hlast⟩ :=
    exists_tries (fun call => replies call request) retries
  have hsettled : settled = (failures replies request 0 tries
      ++ lastAttempt replies token request tries, replies tries request) :=
    play_acknowledge hlimit hbefore hlast
  refine ⟨tries, htries, ?_, ?_, congrArg Prod.snd hsettled, ?_⟩
  · rw [hsettled, List.filterMap_append, failures_requests, List.replicate_succ', List.append_assoc]
    congr 1
    by_cases hlonger : (retries : ℕ∞) < errors
    · simp [lastAttempt, hpasses.mpr hlonger, hlonger, Effort.request?]
    · simp [lastAttempt, Bool.eq_false_iff.mpr fun h => hlonger (hpasses.mp h), hlonger,
        Effort.request?]
  · rw [hsettled, List.filterMap_append, failures_waits, List.range_eq_range', lastAttempt]
    split <;> exact List.append_nil _
  · intro attempt
    have hbound := backoff_le attempt
    refine ⟨backoff_eq attempt, backoff_mono (Nat.le_succ attempt), hbound, ?_⟩
    exact Nat.lt_of_le_of_lt hbound (by decide)

/-! ### Settled, or given back -/

/-- Whether something that is done about a task settles it, because a result or a failure is taken,
or gives it back. -/
def Effort.Settles (token : String) : Effort → Prop
  | .asked (.complete taken _ _) (.ok ()) => taken = token
  | .asked (.fail taken _) (.ok ()) => taken = token
  | .asked (.abandon given) _ => given = token
  | _ => False

/-- Whether no result and no failure is refused for good. -/
structure Replies.Mild (replies : Replies) : Prop where
  /-- Results are taken, or may be taken later. -/
  complete : ∀ call token delta commands, replies call (.complete token delta commands) = .ok ()
    ∨ isPassing (replies call (.complete token delta commands)) = true
  /-- So are failures. -/
  fail : ∀ call token error, replies call (.fail token error) = .ok ()
    ∨ isPassing (replies call (.fail token error)) = true

/-- **Handing in a result settles the task or gives it back**, unless it is refused for good. -/
theorem Replies.Mild.acknowledge_settles (mild : replies.Mild) (token : String) (delta : List Event)
    (commands : List Command) (retries : Nat) :
    ∃ effort ∈ ((acknowledge token delta commands retries).play replies 0).1,
      effort.Settles token := by
  obtain ⟨tries, -, hlimit, hbefore, -, hlast⟩ :=
    exists_tries (fun call => replies call (.complete token delta commands)) retries
  rw [play_acknowledge hlimit hbefore hlast]
  have hattempt (effort : Effort)
      (h : effort ∈ lastAttempt replies token (.complete token delta commands) tries) :
      effort ∈ failures replies (.complete token delta commands) 0 tries
        ++ lastAttempt replies token (.complete token delta commands) tries :=
    List.mem_append_right _ h
  rcases mild.complete tries token delta commands with htaken | hpasses
  · refine ⟨_, hattempt _ List.mem_cons_self, ?_⟩
    rw [htaken]
    exact (rfl : token = token)
  · refine ⟨.asked (.abandon token) (replies (tries + 1) (.abandon token)), hattempt _ ?_, rfl⟩
    rw [lastAttempt, if_pos hpasses]
    exact List.mem_cons_of_mem _ (List.mem_singleton_self _)

end Settlement

namespace Worker

open Settlement

/-- Whether the program of a task does not match its history. -/
def Diverges (worker : Worker) (task : Task) (divergence : Nondeterminism) : Prop :=
  ∃ program, worker.registry.resolve task.info.workflowType task.info.method = some program
    ∧ (task.perform program worker.converter).1 = .error divergence

/-- What a worker makes of a task: it hands in a recording, or fails a workflow that diverges. -/
theorem process_inv (worker : Worker) (task : Task) :
    ((∃ recording, (worker.process task).1 = worker.submit task recording)
        ∧ ∀ divergence, ¬ worker.Diverges task divergence)
      ∨ ∃ divergence, worker.Diverges task divergence
        ∧ (worker.process task).1 = .once (.fail task.token divergence.toFailure) := by
  cases hresolve : worker.registry.resolve task.info.workflowType task.info.method with
  | none =>
      refine .inl ⟨⟨worker.unregistered task, by rw [process, hresolve]⟩, ?_⟩
      rintro divergence ⟨program, hsome, -⟩
      rw [hresolve] at hsome
      cases hsome
  | some program =>
      rcases hperform : task.perform program worker.converter with ⟨divergence | recording, x⟩
      · refine .inr ⟨divergence, ⟨program, hresolve, by rw [hperform]⟩, ?_⟩
        simp only [process, hresolve, hperform]
      · refine .inl ⟨⟨recording, by simp only [process, hresolve, hperform]⟩, ?_⟩
        rintro divergence ⟨other, hsome, herror⟩
        obtain rfl : program = other := Option.some.inj (hresolve.symm.trans hsome)
        rw [hperform] at herror
        cases herror

/-- **Which tasks are settled or given back.** As long as the backend refuses neither results nor
failures for good, a worker is through with a task only after the backend took a result or a failure
of it, or after the worker gave it back; with one exception. A workflow that diverges is failed
once. When that is refused, although it may pass, nothing more is done about the task, which stays
with the worker. -/
theorem process_settles (worker : Worker) (task : Task) {replies : Replies} (mild : replies.Mild) :
    let efforts := ((worker.process task).1.play replies 0).1
    ((∃ effort ∈ efforts, effort.Settles task.token)
        ↔ ∀ divergence, worker.Diverges task divergence →
          isPassing (replies 0 (.fail task.token divergence.toFailure)) = false)
      ∧ ∀ divergence, worker.Diverges task divergence →
        efforts = [.asked (.fail task.token divergence.toFailure)
          (replies 0 (.fail task.token divergence.toFailure))] := by
  intro efforts
  rcases worker.process_inv task with ⟨⟨recording, hsubmit⟩, hnever⟩
    | ⟨divergence, hdiverges, honce⟩
  · have hsettles : ∃ effort ∈ efforts, effort.Settles task.token := by
      rw [show efforts = ((worker.submit task recording).play replies 0).1 by rw [← hsubmit]]
      exact mild.acknowledge_settles _ _ _ _
    exact ⟨iff_of_true hsettles fun divergence h => absurd h (hnever divergence),
      fun divergence h => absurd h (hnever divergence)⟩
  · have honly (other : Nondeterminism) (h : worker.Diverges task other) : other = divergence := by
      obtain ⟨program, hresolve, herror⟩ := hdiverges
      obtain ⟨program', hresolve', herror'⟩ := h
      obtain rfl : program = program' := Option.some.inj (hresolve.symm.trans hresolve')
      exact Except.error.inj (herror'.symm.trans herror)
    have hefforts : efforts = [.asked (.fail task.token divergence.toFailure)
        (replies 0 (.fail task.token divergence.toFailure))] := by
      rw [show efforts = ((Settlement.once (.fail task.token divergence.toFailure)).play
        replies 0).1 by rw [← honce]]
      rfl
    refine ⟨?_, fun other h => honly other h ▸ hefforts⟩
    rw [hefforts, List.exists_mem_cons_iff]
    rcases mild.fail 0 task.token divergence.toFailure with htaken | hpasses
    · rw [htaken]
      refine iff_of_true (.inl rfl) fun other h => ?_
      rw [honly other h, htaken]
      rfl
    · refine iff_of_false ?_ fun h => ?_
      · rcases hanswer : replies 0 (.fail task.token divergence.toFailure) with e | ⟨⟩
        · simp [Effort.Settles]
        · rw [hanswer] at hpasses
          cases hpasses
      · rw [h divergence hdiverges] at hpasses
        cases hpasses

/-- A program that sleeps for twenty milliseconds, and for five before that in replay only. -/
def restless : Program :=
  ⟨none, [.branch .replaying [.perform (.sleep ⟨5000000⟩) ⟨none, none⟩] [],
    .perform (.sleep ⟨20000000⟩) ⟨none, none⟩]⟩

/-- A worker that runs it and retries twice. -/
def sleeper : Worker :=
  ⟨⟨"main", [⟨⟨"Nap", ["take"]⟩, [("take", restless)]⟩]⟩, .json, ⟨10, 2⟩⟩

/-- The task in which it lies down. -/
def lieDown : Task :=
  ⟨"task:1", Execution.nap, [], [.executionStarted "Nap" "take" "" none]⟩

/-- The task in which it wakes up. -/
def wakeUp : Task :=
  ⟨"task:2", Execution.nap, [.executionStarted "Nap" "take" "" none, .timerStarted 1 20],
    [.timerFired 1]⟩

/-- A backend that is always busy. -/
def busy : Replies :=
  fun _ _ => .error ⟨"backend", .injected, true⟩

/-- A busy backend refuses nothing for good. -/
theorem busy_mild : busy.Mild :=
  ⟨fun _ _ _ _ => .inr rfl, fun _ _ _ => .inr rfl⟩

/-- A busy backend gets the first task back. -/
theorem lieDown_settles :
    busy.Mild ∧ ∃ effort ∈ ((sleeper.process lieDown).1.play busy 0).1,
      effort.Settles lieDown.token := by
  refine ⟨busy_mild, ((sleeper.process_settles lieDown busy_mild).1).mpr ?_⟩
  rintro divergence ⟨program, hresolve, hdiverges⟩
  obtain rfl : restless = program := Option.some.inj hresolve
  have hrecorded : (lieDown.perform restless sleeper.converter).1.toOption.isSome = true := by
    decide +kernel
  rw [hdiverges] at hrecorded
  cases hrecorded

/-- It does not get the second one back: the workflow diverges, the worker fails it once, and that
is all. -/
theorem wakeUp_left :
    busy.Mild ∧ (∃ divergence, sleeper.Diverges wakeUp divergence)
      ∧ (((sleeper.process wakeUp).1.play busy 0).1.length = 1)
      ∧ ¬ ∃ effort ∈ ((sleeper.process wakeUp).1.play busy 0).1, effort.Settles wakeUp.token := by
  have hnone : (wakeUp.perform restless sleeper.converter).1.toOption.isNone = true := by
    decide +kernel
  rcases sleeper.process_inv wakeUp with ⟨-, hnever⟩ | ⟨divergence, hdiverges, honce⟩
  · rcases hperform : (wakeUp.perform restless sleeper.converter).1 with divergence | recording
    · exact absurd ⟨restless, rfl, hperform⟩ (hnever divergence)
    · rw [hperform] at hnone
      cases hnone
  · rw [honce]
    refine ⟨busy_mild, ⟨divergence, hdiverges⟩, rfl, ?_⟩
    rintro ⟨effort, heffort, hsettles⟩
    cases List.mem_singleton.mp heffort
    cases hsettles

end Worker

end DurableWorkflow
