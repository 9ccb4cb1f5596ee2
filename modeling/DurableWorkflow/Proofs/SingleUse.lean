import DurableWorkflow.Proofs.RefusedOperations

/-!
# Tokens are used once

Everything that is done to a backend is put down in a transcript: what it was asked, by clients,
workers and the clock, and what it answered. Requests may come late, twice or out of thin air, and
refusals are put down like everything else.

The transcript knows which tokens are outstanding: those that were handed out with a task and under
which no task was settled. The leases of the backend know it too, and both agree. So a token settles
its task once, in one of three ways, and is refused ever after.

## Main definitions

* `Backend.Transcript`, `Backend.serveAll` — what was asked and answered.
* `Backend.Transcript.handedOut`, `Backend.Transcript.settled`, `Backend.Transcript.IsOut` — what it
  says of tokens.
* `Backend.Accounted` — the invariant of all operations.

## Main results

* `Backend.answer_leases` — what an operation does to the leases.
* `Backend.Accounted.next`, `Backend.accounted_serveAll` — operations keep leases and transcript in
  agreement.
* `Backend.refused_whole_settled_once` — a refusal changes nothing, a task is settled if and only if
  its token is outstanding, and tokens are handed out and settled once.
-/

namespace DurableWorkflow

open InPlace (wholly)

namespace Backend

/-! ### Transcripts -/

/-- The token of the task that an answer hands out, if it does. -/
def Answer.token? : Answer → Option String
  | .task (some handed) => some handed.token
  | _ => none

/-- What a backend was asked and what it answered, oldest first. -/
abbrev Transcript := List (Operation × Except BackendError Answer)

namespace Transcript

/-- The tokens that were handed out. -/
def handedOut (transcript : Transcript) : List String :=
  transcript.filterMap fun (_, reply) => reply.toOption.bind Answer.token?

/-- The tokens under which tasks were settled. -/
def settled (transcript : Transcript) : List String :=
  transcript.filterMap fun (operation, reply) => reply.toOption.bind fun _ => operation.token?

/-- Whether a token is outstanding. -/
def IsOut (transcript : Transcript) (token : String) : Prop :=
  token ∈ transcript.handedOut ∧ token ∉ transcript.settled

variable (transcript : Transcript) (operation : Operation)

/-- An answer may hand out a token. -/
theorem handedOut_answered (answer : Answer) :
    handedOut (transcript ++ [(operation, .ok answer)])
      = transcript.handedOut ++ answer.token?.toList := by
  simp only [handedOut, List.filterMap_append, List.filterMap_cons, List.filterMap_nil,
    Except.toOption, Option.bind_some]
  cases answer.token? <;> rfl

/-- An operation that is answered may settle a task. -/
theorem settled_answered (answer : Answer) :
    settled (transcript ++ [(operation, .ok answer)])
      = transcript.settled ++ operation.token?.toList := by
  simp only [settled, List.filterMap_append, List.filterMap_cons, List.filterMap_nil,
    Except.toOption, Option.bind_some]
  cases operation.token? <;> rfl

/-- A refusal hands out nothing. -/
theorem handedOut_refused (e : BackendError) :
    handedOut (transcript ++ [(operation, .error e)]) = transcript.handedOut := by
  rw [handedOut, List.filterMap_append]
  exact List.append_nil _

/-- A refusal settles nothing. -/
theorem settled_refused (e : BackendError) :
    settled (transcript ++ [(operation, .error e)]) = transcript.settled := by
  rw [settled, List.filterMap_append]
  exact List.append_nil _

end Transcript

/-- Serve an operation and put it down. -/
def serveNext : Backend × Transcript → Operation → Backend × Transcript
  | (b, transcript), operation =>
    match (answerInPlace operation).run b with
    | .ok (answer, _) b => (b, transcript ++ [(operation, .ok answer)])
    | .error e b => (b, transcript ++ [(operation, .error e)])

/-- Serve operations one after the other, from a backend without instances on. -/
def serveAll (operations : List Operation) : Backend × Transcript :=
  operations.foldl serveNext (empty, [])

variable {b b' : Backend} {token : String} {operation : Operation} {transcript : Transcript}

/-! ### Leases -/

/-- A task is completed by taking its token from the leases. -/
theorem completeTask_leases {names : Nat → String} {delta : List Event} {commands : List Command}
    {alarms : List Alarm} (h : b.completeTask names token delta commands = .ok (b', alarms)) :
    b.tokens ≤ b'.tokens ∧ b'.leases = b.leases.filter fun lease => lease.1 ≠ token := by
  obtain ⟨id, inst, -, -, ⟨-, -, rfl⟩ | ⟨-, b₁, happly, rfl⟩⟩ := completeTask_inv h
  · exact ⟨Nat.le_refl _, rfl⟩
  · have hkeeps := applyAll_keeps (b.recordDelta token id delta) names id commands
    rw [happly] at hkeeps
    have hqueued := hkeeps.trans (enqueue_requeues b₁ id).keeps
    exact ⟨hqueued.tokens, hqueued.leases⟩

/-- A task is failed by taking its token from the leases. -/
theorem failTask_leases {error : Failure} (h : b.failTask token error = .ok b') :
    b.tokens ≤ b'.tokens ∧ b'.leases = b.leases.filter fun lease => lease.1 ≠ token := by
  obtain ⟨id, -, ⟨-, rfl⟩ | ⟨inst, -, -, rfl⟩⟩ := failTask_inv h
  · exact ⟨Nat.le_refl _, rfl⟩
  · have hkeeps := close_keeps (rfl : (Status.failed error).isTerminal = true)
      (b.recordDelta token id [.failed error]) id
    exact ⟨hkeeps.tokens, hkeeps.leases⟩

/-- A task is given back by taking its token from the leases. -/
theorem abandonTask_leases (h : b.abandonTask token = .ok b') :
    b.tokens ≤ b'.tokens ∧ b'.leases = b.leases.filter fun lease => lease.1 ≠ token := by
  obtain ⟨id, -, rfl⟩ := abandonTask_inv h
  have hqueued := enqueue_requeues (b.discharge token id fun inst =>
    { inst with inFlight := [], pending := inst.inFlight ++ inst.pending }) id
  exact ⟨hqueued.keeps.tokens, hqueued.leases⟩

/-- **What an operation does to the leases.** It takes the token from them under which it settles a
task, or adds one that is newer than all there were, with the task it hands out; or they stay. -/
theorem answer_leases {answer : Answer} {alarms : List Alarm}
    (h : b.answer operation = .ok ((answer, alarms), b')) :
    b.tokens ≤ b'.tokens
      ∧ ((operation.token? = none ∧ answer.token? = none ∧ b'.leases = b.leases)
        ∨ (∃ token, operation.token? = some token ∧ answer.token? = none
          ∧ b'.leases = b.leases.filter fun lease => lease.1 ≠ token)
        ∨ ∃ n id, operation.token? = none ∧ answer.token? = some (tokenName n) ∧ b.tokens < n
          ∧ n ≤ b'.tokens ∧ b'.leases = b.leases ++ [(tokenName n, id)]) := by
  cases operation with
  | start names request =>
      obtain ⟨⟨workflow, b₁, alarms⟩, hstart, hsame⟩ := exists_of_map_eq_ok h
      cases hsame
      obtain ⟨info, free, rfl, -⟩ := startWorkflow_inv hstart
      have hkeeps := create_keeps free none request.input
      exact ⟨hkeeps.tokens, .inl ⟨rfl, rfl, hkeeps.leases⟩⟩
  | cancel workflowId reason =>
      obtain ⟨b₁, hcancel, hsame⟩ := exists_of_map_eq_ok h
      cases hsame
      rw [cancelWorkflow] at hcancel
      split at hcancel <;> cases hcancel
      have hkeeps := deliver_keeps (rfl : (Event.cancelRequested reason).isRecord = false) b
        workflowId
      exact ⟨hkeeps.tokens, .inl ⟨rfl, rfl, hkeeps.leases⟩⟩
  | dispatch taskQueue =>
      rcases hdispatch : b.dispatch taskQueue with ⟨handed, b₁⟩
      rw [Backend.answer, hdispatch] at h
      cases h
      rcases dispatch_inv hdispatch with ⟨rfl, hrequeues⟩
        | ⟨b₁, inst, hrequeues, htokens, -, -, -, rfl, rfl⟩
      · exact ⟨hrequeues.keeps.tokens, .inl ⟨rfl, rfl, hrequeues.leases⟩⟩
      · have hleases : (b₁.handOut inst.info.workflowId).leases
            = b.leases ++ [(tokenName b₁.tokens, inst.info.workflowId)] :=
          congrArg (· ++ _) hrequeues.leases
        exact ⟨Nat.le_of_lt htokens,
          .inr (.inr ⟨_, _, rfl, rfl, htokens, Nat.le_refl _, hleases⟩)⟩
  | complete names token delta commands =>
      obtain ⟨⟨b₁, alarms⟩, hcomplete, hsame⟩ := exists_of_map_eq_ok h
      cases hsame
      obtain ⟨htokens, hleases⟩ := completeTask_leases hcomplete
      exact ⟨htokens, .inr (.inl ⟨token, rfl, rfl, hleases⟩)⟩
  | fail token error =>
      obtain ⟨b₁, hfail, hsame⟩ := exists_of_map_eq_ok h
      cases hsame
      obtain ⟨htokens, hleases⟩ := failTask_leases hfail
      exact ⟨htokens, .inr (.inl ⟨token, rfl, rfl, hleases⟩)⟩
  | abandon token =>
      obtain ⟨b₁, habandon, hsame⟩ := exists_of_map_eq_ok h
      cases hsame
      obtain ⟨htokens, hleases⟩ := abandonTask_leases habandon
      exact ⟨htokens, .inr (.inl ⟨token, rfl, rfl, hleases⟩)⟩
  | ring alarm =>
      cases h
      exact ⟨(ring_keeps b alarm).tokens, .inl ⟨rfl, rfl, (ring_keeps b alarm).leases⟩⟩

/-! ### The invariant -/

/-- Whether a backend is in order and its leases agree with what was asked and answered. -/
structure Accounted (b : Backend) (transcript : Transcript) : Prop where
  /-- Everything is in order. -/
  inOrder : b.InOrder
  /-- Tokens that were handed out were used. -/
  used : ∀ token ∈ transcript.handedOut, ∃ n ≤ b.tokens, token = tokenName n
  /-- No token was handed out twice. -/
  handedOut : transcript.handedOut.Nodup
  /-- Only tasks were settled that had been handed out. -/
  known : ∀ token ∈ transcript.settled, token ∈ transcript.handedOut
  /-- No task was settled twice. -/
  settled : transcript.settled.Nodup
  /-- There are leases for the tokens that are outstanding. -/
  leased : ∀ token, token ∈ b.leases.map Prod.fst ↔ transcript.IsOut token

/-- A token has no lease if nothing is found under it. -/
theorem lookup_eq_none_iff :
    b.leases.lookup token = none ↔ token ∉ b.leases.map Prod.fst := by
  rw [List.lookup_eq_none_iff, List.mem_map]
  constructor
  · rintro h ⟨lease, hlease, rfl⟩
    simpa using h lease hlease
  · intro h lease hlease
    simp only [bne_iff_ne, ne_eq]
    exact fun htoken => h ⟨lease, hlease, htoken.symm⟩

/-- Settling a task takes its token from those that are outstanding. -/
theorem Accounted.settle (accounted : b.Accounted transcript) (inOrder : b'.InOrder)
    (htokens : b.tokens ≤ b'.tokens)
    (hleases : b'.leases = b.leases.filter fun lease => lease.1 ≠ token)
    (htoken : operation.token? = some token) {answer : Answer} (hnone : answer.token? = none)
    (hout : transcript.IsOut token) :
    b'.Accounted (transcript ++ [(operation, .ok answer)]) := by
  have hhanded : Transcript.handedOut (transcript ++ [(operation, .ok answer)])
      = transcript.handedOut := by
    rw [Transcript.handedOut_answered, hnone]
    exact List.append_nil _
  have hsettled : Transcript.settled (transcript ++ [(operation, .ok answer)])
      = transcript.settled ++ [token] := by
    rw [Transcript.settled_answered, htoken]
    rfl
  refine ⟨inOrder, ?_, ?_, ?_, ?_, fun other => ?_⟩
  · rw [hhanded]
    intro other hother
    obtain ⟨n, hn, rfl⟩ := accounted.used other hother
    exact ⟨n, Nat.le_trans hn htokens, rfl⟩
  · rw [hhanded]
    exact accounted.handedOut
  · rw [hhanded, hsettled]
    intro other hother
    rcases List.mem_append.mp hother with hother | hother
    · exact accounted.known other hother
    · rw [List.mem_singleton.mp hother]
      exact hout.1
  · rw [hsettled]
    exact accounted.settled.append (List.nodup_singleton _) fun other hother hsame =>
      hout.2 (List.mem_singleton.mp hsame ▸ hother)
  · have hleft : other ∈ b'.leases.map Prod.fst
        ↔ other ∈ b.leases.map Prod.fst ∧ other ≠ token := by
      rw [hleases]
      simp only [List.mem_map, List.mem_filter, decide_eq_true_eq]
      grind
    rw [hleft, accounted.leased, Transcript.IsOut, Transcript.IsOut, hhanded, hsettled,
      List.mem_append, List.mem_singleton]
    grind

/-- Handing out a task adds its token to those that are outstanding. -/
theorem Accounted.handOut (accounted : b.Accounted transcript) (inOrder : b'.InOrder) {n : Nat}
    (hnew : b.tokens < n) (hn : n ≤ b'.tokens) {id : String}
    (hleases : b'.leases = b.leases ++ [(tokenName n, id)])
    (hnone : operation.token? = none) {answer : Answer}
    (htoken : answer.token? = some (tokenName n)) :
    b'.Accounted (transcript ++ [(operation, .ok answer)]) := by
  have hhanded : Transcript.handedOut (transcript ++ [(operation, .ok answer)])
      = transcript.handedOut ++ [tokenName n] := by
    rw [Transcript.handedOut_answered, htoken]
    rfl
  have hsettled : Transcript.settled (transcript ++ [(operation, .ok answer)])
      = transcript.settled := by
    rw [Transcript.settled_answered, hnone]
    exact List.append_nil _
  have hfresh : tokenName n ∉ transcript.handedOut := by
    intro hold
    obtain ⟨m, hm, hsame⟩ := accounted.used _ hold
    have := tokenName_injective hsame
    omega
  refine ⟨inOrder, ?_, ?_, ?_, ?_, fun other => ?_⟩
  · rw [hhanded]
    intro other hother
    rcases List.mem_append.mp hother with hother | hother
    · obtain ⟨m, hm, rfl⟩ := accounted.used other hother
      exact ⟨m, by omega, rfl⟩
    · exact ⟨n, hn, List.mem_singleton.mp hother⟩
  · rw [hhanded]
    exact accounted.handedOut.append (List.nodup_singleton _) fun other hother hsame =>
      hfresh (List.mem_singleton.mp hsame ▸ hother)
  · rw [hhanded, hsettled]
    exact fun other hother => List.mem_append_left _ (accounted.known other hother)
  · rw [hsettled]
    exact accounted.settled
  · have hunsettled : tokenName n ∉ transcript.settled := fun h => hfresh (accounted.known _ h)
    rw [hleases, List.map_append, List.mem_append, accounted.leased, Transcript.IsOut,
      Transcript.IsOut, hhanded, hsettled, List.mem_append]
    simp only [List.map_cons, List.map_nil, List.mem_singleton]
    grind

/-- What neither hands out nor settles a task changes nothing in the accounts. -/
theorem Accounted.unchanged (accounted : b.Accounted transcript) (inOrder : b'.InOrder)
    (htokens : b.tokens ≤ b'.tokens) (hleases : b'.leases = b.leases) {transcript' : Transcript}
    (hhanded : transcript'.handedOut = transcript.handedOut)
    (hsettled : transcript'.settled = transcript.settled) : b'.Accounted transcript' := by
  refine ⟨inOrder, ?_, hhanded ▸ accounted.handedOut, ?_, hsettled ▸ accounted.settled, ?_⟩
  · rw [hhanded]
    intro token htoken
    obtain ⟨n, hn, rfl⟩ := accounted.used token htoken
    exact ⟨n, Nat.le_trans hn htokens, rfl⟩
  · rw [hhanded, hsettled]
    exact accounted.known
  · intro token
    rw [hleases, Transcript.IsOut, hhanded, hsettled]
    exact accounted.leased token

/-- A task cannot be settled if and only if its token is not outstanding. -/
theorem Accounted.refuses_iff (accounted : b.Accounted transcript)
    (htoken : operation.token? = some token) :
    (∃ e, b.answer operation = .error e) ↔ ¬ transcript.IsOut token := by
  rw [answer_error_iff accounted.inOrder.sound htoken, lookup_eq_none_iff, accounted.leased]

/-- **Every operation keeps leases and transcript in agreement**, also one that is refused. -/
theorem Accounted.next (accounted : b.Accounted transcript) (operation : Operation) :
    (serveNext (b, transcript) operation).1.Accounted (serveNext (b, transcript) operation).2 := by
  rw [serveNext, answerInPlace_run accounted.inOrder.sound]
  cases hanswer : b.answer operation with
  | error e =>
      exact accounted.unchanged accounted.inOrder (Nat.le_refl _) rfl
        (Transcript.handedOut_refused ..) (Transcript.settled_refused ..)
  | ok answered =>
      obtain ⟨⟨answer, alarms⟩, b'⟩ := answered
      have inOrder : b'.InOrder := after_of_answer hanswer ▸ accounted.inOrder.after operation
      dsimp only [wholly]
      rcases answer_leases hanswer with ⟨htokens, ⟨hnone, hanswer', hleases⟩
        | ⟨token, htoken, hanswer', hleases⟩ | ⟨n, id, hnone, htoken, hnew, hn, hleases⟩⟩
      · refine accounted.unchanged inOrder htokens hleases ?_ ?_
        · rw [Transcript.handedOut_answered, hanswer']
          exact List.append_nil _
        · rw [Transcript.settled_answered, hnone]
          exact List.append_nil _
      · have hout : transcript.IsOut token := by
          by_contra hnot
          obtain ⟨e, he⟩ := (accounted.refuses_iff htoken).mpr hnot
          rw [hanswer] at he
          cases he
        exact accounted.settle inOrder htokens hleases htoken hanswer' hout
      · exact accounted.handOut inOrder hnew hn hleases hnone htoken

/-- **Leases and transcript agree whatever is asked.** -/
theorem accounted_serveAll (operations : List Operation) :
    (serveAll operations).1.Accounted (serveAll operations).2 := by
  suffices h : ∀ state : Backend × Transcript, state.1.Accounted state.2 →
      (operations.foldl serveNext state).1.Accounted (operations.foldl serveNext state).2 from
    h (empty, []) ⟨inOrder_empty, nofun, List.nodup_nil, nofun, List.nodup_nil,
      fun _ => ⟨nofun, fun hout => nomatch hout.1⟩⟩
  induction operations with
  | nil => exact fun _ accounted => accounted
  | cons operation operations ih => exact fun _ accounted => ih _ (accounted.next operation)

/-! ### Refusals and tokens -/

/-- What was settled has been settled ever after. -/
theorem settled_append (operations later : List Operation)
    (h : token ∈ (serveAll operations).2.settled) :
    token ∈ (serveAll (operations ++ later)).2.settled := by
  rw [serveAll, List.foldl_append]
  change token ∈ (later.foldl serveNext (serveAll operations)).2.settled
  generalize serveAll operations = state at h
  induction later generalizing state with
  | nil => exact h
  | cons operation later ih =>
      obtain ⟨b, transcript⟩ := state
      refine ih _ ?_
      rw [serveNext]
      split
      · dsimp only
        rw [Transcript.settled_answered]
        exact List.mem_append_left _ h
      · dsimp only
        rw [Transcript.settled_refused]
        exact h

/-- **Refusals change nothing, and tokens are used once.** Whatever clients, workers and the clock
have asked of a backend: an operation that it refuses leaves it as it was, and no alarm is set; to
settle a task is refused if and only if its token is not outstanding; a token under which one was
settled is refused from then on, whatever is asked later; and no token is handed out twice, or
settles twice. -/
theorem refused_whole_settled_once (operations : List Operation) :
    (∀ (c c' : ClockedBackend) (operation : Operation) (e : BackendError),
        c.backend = (serveAll operations).1 →
        (ClockedBackend.answerInPlace operation).run c = .error e c' → c' = c)
      ∧ (∀ (operation : Operation) (token : String), operation.token? = some token →
        ((∃ e b', (answerInPlace operation).run (serveAll operations).1 = .error e b')
            ↔ ¬ (serveAll operations).2.IsOut token)
          ∧ (token ∈ (serveAll operations).2.settled → ∀ later, ∃ e b',
            (answerInPlace operation).run (serveAll (operations ++ later)).1 = .error e b'))
      ∧ (serveAll operations).2.handedOut.Nodup
      ∧ (serveAll operations).2.settled.Nodup := by
  have accounted := accounted_serveAll operations
  refine ⟨?_, fun operation token htoken => ⟨?_, fun hsettled later => ?_⟩, accounted.handedOut,
    accounted.settled⟩
  · intro c c' operation e hc h
    rw [ClockedBackend.answerInPlace_run (hc ▸ accounted.inOrder.sound)] at h
    cases hanswer : c.backend.answer operation with
    | error e' =>
        rw [hanswer] at h
        cases h
        rfl
    | ok answered =>
        rw [hanswer] at h
        cases h
  · rw [answerInPlace_error_iff accounted.inOrder.sound, accounted.refuses_iff htoken]
  · have hlater := accounted_serveAll (operations ++ later)
    rw [answerInPlace_error_iff hlater.inOrder.sound, hlater.refuses_iff htoken]
    exact fun hout => hout.2 (settled_append operations later hsettled)

/-- An errand is picked up and done. -/
def errandDone : List Operation :=
  errands ++ [.complete (namesFrom 4) (tokenName 1) [] [.complete "done"]]

/-- Whoever says afterwards that it failed is refused, now and later, and nothing changes. -/
theorem errandDone_refuses :
    tokenName 1 ∈ (serveAll errandDone).2.settled
      ∧ (∀ later, ∃ e b', (answerInPlace (.fail (tokenName 1) (.application "late"))).run
        (serveAll (errandDone ++ later)).1 = .error e b')
      ∧ ∃ e c', (ClockedBackend.answerInPlace (.fail (tokenName 1) (.application "late"))).run
        ⟨(serveAll errandDone).1, 0, [], 0⟩ = .error e c'
        ∧ c' = ⟨(serveAll errandDone).1, 0, [], 0⟩ := by
  have hsettled : tokenName 1 ∈ (serveAll errandDone).2.settled := by decide +kernel
  have hrun : ∃ c', (ClockedBackend.answerInPlace (.fail (tokenName 1) (.application "late"))).run
      ⟨(serveAll errandDone).1, 0, [], 0⟩
        = .error (.permanent "fail_task" (.unknownToken (tokenName 1))) c' := ⟨_, rfl⟩
  obtain ⟨c', hrun⟩ := hrun
  obtain ⟨hrefused, hout, -, -⟩ := refused_whole_settled_once errandDone
  exact ⟨hsettled, (hout _ _ rfl).2 hsettled, _, c', hrun, hrefused _ c' _ _ rfl hrun⟩

end Backend

end DurableWorkflow
