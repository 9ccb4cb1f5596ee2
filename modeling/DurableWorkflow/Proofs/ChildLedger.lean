import DurableWorkflow.Proofs.Standings
import DurableWorkflow.Proofs.Tracking

/-!
# The ledger of child starts

A workflow that starts a child gets one answer, and news of the child's end once it has closed. The
ledger is the invariant behind this: it relates how all instances stand to the commands carried out
for each of them. Sequence numbers are used once, so an answer belongs to one start and an instance
to one parent; what an open parent has heard about a sequence number is then determined by whether
its start was refused and, if not, by how the child stands.

## Main definitions

* `Log` — the commands carried out for each workflow.
* `Answered` — what a parent has heard about a child that it started.
* `Ledger` — the invariant.

## Main results

* `Ledger.deliver`, `Ledger.create`, `Ledger.close` — the ledger is kept by all that happens to
  standings from outside.
* `Ledger.applyAll` — it is kept when commands are carried out.
-/

namespace DurableWorkflow

/-- The commands carried out for each workflow. -/
abbrev Log : Type :=
  String → List Command

namespace Log

/-- Commands are carried out for a workflow. -/
def add (log : Log) (workflowId : String) (commands : List Command) : Log :=
  fun id => if id = workflowId then log id ++ commands else log id

variable {log : Log} {workflowId id : String} {commands : List Command}

/-- They are seen there. -/
theorem add_self (log : Log) (workflowId : String) (commands : List Command) :
    log.add workflowId commands workflowId = log workflowId ++ commands :=
  if_pos rfl

/-- They are not seen elsewhere. -/
theorem add_other (h : id ≠ workflowId) (commands : List Command) :
    log.add workflowId commands id = log id :=
  if_neg h

/-- What holds of each workflow and its commands, once more are carried out for one. -/
theorem forall_add {P : String → List Command → Prop} (h : ∀ id, P id (log id))
    (hself : P workflowId (log workflowId ++ commands)) (id : String) :
    P id (log.add workflowId commands id) := by
  by_cases hid : id = workflowId
  · subst hid
    rwa [add_self]
  · rw [add_other hid]
    exact h id

/-- Nothing is carried out. -/
@[simp] theorem add_nil (log : Log) (workflowId : String) : log.add workflowId [] = log := by
  funext id
  simp [add]

/-- Commands are carried out one after the other. -/
theorem add_add (log : Log) (workflowId : String) (first second : List Command) :
    (log.add workflowId first).add workflowId second = log.add workflowId (first ++ second) := by
  funext id
  simp only [add]
  split
  · rw [List.append_assoc]
  · rfl

/-- A command that was carried out was so before, or now. -/
theorem mem_add {command : Command} :
    command ∈ log.add workflowId commands id
      ↔ command ∈ log id ∨ id = workflowId ∧ command ∈ commands := by
  rw [add]
  split
  · rename_i hid
    simp [hid]
  · rename_i hid
    simp [hid]

end Log

/-- What a parent has heard about a child that it started: the start was refused as the name belongs
to another, and there is nothing more; or there is such a child, its start was reported with its run
and, once it has closed, its end was reported as well. -/
inductive Answered (σ : Standings) (parentId : String) (start : ChildStart) : List Event → Prop
  | refused (other : Standing) :
      σ start.workflowId = some other → other.parent ≠ some ⟨parentId, start.seq⟩ →
      Answered σ parentId start [.childStartFailed start.seq
        (.application ("workflow id " ++ start.workflowId ++ " already exists"))]
  | started (child : Standing) :
      σ start.workflowId = some child → child.parent = some ⟨parentId, start.seq⟩ →
      Answered σ parentId start
        (.childStarted start.seq child.info.runId :: (child.status.report? start.seq).toList)

/-- The invariant of standings and the commands carried out. -/
structure Ledger (σ : Standings) (log : Log) : Prop where
  /-- Commands are carried out for known workflows. -/
  known : ∀ id, log id ≠ [] → (σ id).isSome
  /-- Sequence numbers are given out once. -/
  once : ∀ id, ((log id).filterMap Command.introduces?).Nodup
  /-- A child was started by its parent, under its name. -/
  linked : ∀ id standing parent, σ id = some standing → standing.parent = some parent →
    ∃ start, .startChild start ∈ log parent.workflowId ∧ start.seq = parent.seq
      ∧ start.workflowId = id
  /-- What an open parent has heard about its children. -/
  answered : ∀ id standing start, σ id = some standing → standing.status = .running →
    .startChild start ∈ log id → Answered σ id start (news start.seq standing.received)
  /-- It has heard of no others. -/
  silent : ∀ id standing seq, σ id = some standing → standing.status = .running →
    (∀ start, .startChild start ∈ log id → start.seq ≠ seq) → news seq standing.received = []

/-! ### Answers -/

/-- An answer stands as long as the instance under the name keeps run and parent and, if it is the
child, does not close. -/
theorem Answered.mono {σ σ' : Standings} {parentId : String} {start : ChildStart}
    {events : List Event} (h : Answered σ parentId start events)
    (keeps : ∀ standing, σ start.workflowId = some standing →
      ∃ standing', σ' start.workflowId = some standing' ∧ standing'.info = standing.info
        ∧ standing'.parent = standing.parent
        ∧ (standing.parent = some ⟨parentId, start.seq⟩ → standing'.status = standing.status)) :
    Answered σ' parentId start events := by
  cases h with
  | refused other hother hparent =>
      obtain ⟨other', hother', -, hparent', -⟩ := keeps other hother
      exact .refused other' hother' (hparent' ▸ hparent)
  | started child hchild hparent =>
      obtain ⟨child', hchild', hinfo, hparent', hstatus⟩ := keeps child hchild
      rw [← hinfo, ← hstatus hparent]
      exact .started child' hchild' (hparent'.trans hparent)

/-- Delivering an event changes no answer. -/
theorem Answered.deliver {σ : Standings} {parentId : String} {start : ChildStart}
    {events : List Event} (h : Answered σ parentId start events) (workflowId : String)
    (event : Event) : Answered (σ.deliver workflowId event) parentId start events := by
  refine h.mono fun standing hstanding => ?_
  refine ⟨_, Standings.change_of_some hstanding workflowId _, ?_⟩
  split <;> simp

/-- Creating an instance under a free name changes no answer. -/
theorem Answered.create {σ : Standings} {parentId : String} {start : ChildStart}
    {events : List Event} (h : Answered σ parentId start events) {info : RunInfo}
    (free : σ info.workflowId = none) (parent : Option ParentLink) (input : String) :
    Answered (σ.create info parent input) parentId start events := by
  refine h.mono fun standing hstanding => ⟨standing, ?_, rfl, rfl, fun _ => rfl⟩
  refine (if_neg ?_).trans hstanding
  rintro heq
  rw [heq, free] at hstanding
  cases hstanding

/-- A new child answers its start. -/
theorem Answered.created (σ : Standings) {info : RunInfo} {parentId : String} {start : ChildStart}
    (hname : info.workflowId = start.workflowId) (input : String) :
    Answered (σ.create info (some ⟨parentId, start.seq⟩) input) parentId start
      [.childStarted start.seq info.runId] := by
  have hself := σ.create_self info (some ⟨parentId, start.seq⟩) input
  rw [hname] at hself
  exact .started _ hself rfl

namespace Ledger

variable {σ : Standings} {log : Log} {workflowId : String}

/-- Delivering an event keeps the ledger if it makes up for it. -/
theorem of_deliver {event : Event} (known : ∀ id, log id ≠ [] → (σ id).isSome)
    (once : ∀ id, ((log id).filterMap Command.introduces?).Nodup)
    (linked : ∀ id standing parent, σ id = some standing → standing.parent = some parent →
      ∃ start, .startChild start ∈ log parent.workflowId ∧ start.seq = parent.seq
        ∧ start.workflowId = id)
    (answered : ∀ id standing start, σ id = some standing → standing.status = .running →
      .startChild start ∈ log id → Answered σ id start
        (news start.seq (standing.received ++ if id = workflowId then [event] else [])))
    (silent : ∀ id standing seq, σ id = some standing → standing.status = .running →
      (∀ start, .startChild start ∈ log id → start.seq ≠ seq) →
      news seq (standing.received ++ if id = workflowId then [event] else []) = []) :
    Ledger (σ.deliver workflowId event) log := by
  refine ⟨?_, once, ?_, ?_, ?_⟩
  · intro id hlog
    rw [Standings.deliver, Standings.isSome_change]
    exact known id hlog
  · intro id standing' parent hstanding' hparent
    obtain ⟨standing, hstanding, rfl⟩ := Standings.change_inv hstanding'
    refine linked id standing parent hstanding ?_
    rw [← hparent]
    split <;> simp
  · intro id standing' start hstanding' hrunning' hstart
    obtain ⟨standing, hstanding, hrunning, -, hreceived⟩ :=
      Standings.deliver_running hstanding' hrunning'
    rw [hreceived]
    exact (answered id standing start hstanding hrunning hstart).deliver workflowId event
  · intro id standing' seq hstanding' hrunning' hseq
    obtain ⟨standing, hstanding, hrunning, -, hreceived⟩ :=
      Standings.deliver_running hstanding' hrunning'
    rw [hreceived]
    exact silent id standing seq hstanding hrunning hseq

/-- **Events that are no news of children do not touch the ledger.** -/
theorem deliver (ledger : Ledger σ log) {event : Event}
    (h : ∀ seq, event.isNewsOf seq = false) (workflowId : String) :
    Ledger (σ.deliver workflowId event) log := by
  have quiet (seq : Nat) (id : String) (received : List Event) :
      news seq (received ++ if id = workflowId then [event] else []) = news seq received := by
    split
    · rw [news_append, news_singleton_of_not (h seq), List.append_nil]
    · rw [List.append_nil]
  refine of_deliver ledger.known ledger.once ledger.linked ?_ ?_
  · intro id standing start hstanding hrunning hstart
    rw [quiet]
    exact ledger.answered id standing start hstanding hrunning hstart
  · intro id standing seq hstanding hrunning hseq
    rw [quiet]
    exact ledger.silent id standing seq hstanding hrunning hseq

/-- News of one child go to one workflow. -/
theorem news_delivered {event : Event} {seq : Nat}
    (h : ∀ other, event.isNewsOf other = decide (seq = other)) (received : List Event)
    (workflowId id : String) (other : Nat) :
    news other (received ++ if id = workflowId then [event] else [])
      = news other received ++ if id = workflowId ∧ other = seq then [event] else [] := by
  rw [news_append]
  by_cases hid : id = workflowId
  · rw [if_pos hid, news_singleton h]
    simp only [hid, true_and]
  · rw [if_neg hid, if_neg fun hmine => hid hmine.1]
    rfl

/-- A new instance has no commands. -/
theorem log_eq_nil (ledger : Ledger σ log) {id : String} (free : σ id = none) : log id = [] := by
  cases hlog : log id with
  | nil => rfl
  | cons command commands =>
      have hknown := ledger.known id (by simp [hlog])
      rw [free] at hknown
      cases hknown

/-- A sequence number belongs to one start. -/
theorem start_unique (ledger : Ledger σ log) {id : String} {first second : ChildStart}
    (hfirst : .startChild first ∈ log id) (hsecond : .startChild second ∈ log id)
    (hseq : first.seq = second.seq) : first = second := by
  have hcommand := Command.eq_of_introduces (ledger.once id) hfirst hsecond
    (rfl : Command.introduces? _ = some first.seq) (congrArg some hseq.symm)
  cases hcommand
  rfl

/-- **Starting a workflow from outside does not touch the ledger.** -/
theorem create (ledger : Ledger σ log) {info : RunInfo} (free : σ info.workflowId = none)
    (input : String) : Ledger (σ.create info none input) log := by
  refine ⟨?_, ledger.once, ?_, ?_, ?_⟩
  · intro id hlog
    exact Standings.isSome_create (ledger.known id hlog) info none input
  · intro id standing parent hstanding hparent
    rcases Standings.create_inv hstanding with ⟨rfl, rfl⟩ | ⟨-, hold⟩
    · cases hparent
    · exact ledger.linked id standing parent hold hparent
  · intro id standing start hstanding hrunning hstart
    rcases Standings.create_inv hstanding with ⟨rfl, rfl⟩ | ⟨-, hold⟩
    · rw [ledger.log_eq_nil free] at hstart
      cases hstart
    · exact (ledger.answered id standing start hold hrunning hstart).create free none input
  · intro id standing seq hstanding hrunning hseq
    rcases Standings.create_inv hstanding with ⟨rfl, rfl⟩ | ⟨-, hold⟩
    · rfl
    · exact ledger.silent id standing seq hold hrunning hseq

/-! ### Carrying out commands -/

/-- Commands that start no child and give out new sequence numbers do not touch the ledger. -/
theorem add (ledger : Ledger σ log) (known : (σ workflowId).isSome) {commands : List Command}
    (once : ((log workflowId ++ commands).filterMap Command.introduces?).Nodup)
    (hstart : ∀ start, .startChild start ∉ commands) : Ledger σ (log.add workflowId commands) := by
  have hmem {id : String} {start : ChildStart} :
      .startChild start ∈ log.add workflowId commands id ↔ .startChild start ∈ log id := by
    rw [Log.mem_add]
    simp [hstart]
  refine ⟨?_, ?_, ?_, ?_, ?_⟩
  · exact Log.forall_add (P := fun id commands => commands ≠ [] → (σ id).isSome) ledger.known
      fun _ => known
  · exact Log.forall_add (P := fun _ commands => (commands.filterMap Command.introduces?).Nodup)
      ledger.once once
  · simpa only [hmem] using ledger.linked
  · simpa only [hmem] using ledger.answered
  · simpa only [hmem] using ledger.silent

/-- Once a start was answered, the ledger is kept. Here an instance may have been created for it. -/
theorem of_start (ledger : Ledger σ log) {σ' : Standings} {start : ChildStart} {event : Event}
    (hparent : (σ workflowId).isSome)
    (once : ((log workflowId ++ [Command.startChild start]).filterMap Command.introduces?).Nodup)
    (hnews : ∀ seq, event.isNewsOf seq = decide (start.seq = seq))
    (known : ∀ id, (σ id).isSome → (σ' id).isSome)
    (created : ∀ id standing, σ' id = some standing → σ id = some standing
      ∨ σ id = none ∧ id = start.workflowId ∧ standing.parent = some ⟨workflowId, start.seq⟩
        ∧ ∀ seq, news seq standing.received = [])
    (others : ∀ id start events, Answered σ id start events → Answered σ' id start events)
    (answer : Answered σ' workflowId start [event]) :
    Ledger (σ'.deliver workflowId event) (log.add workflowId [.startChild start]) := by
  have fresh : ∀ other, .startChild other ∈ log workflowId → other.seq ≠ start.seq := by
    intro other hother hseq
    exact Command.fresh_of_once once rfl hother (congrArg some hseq)
  have hnew : .startChild start ∈ log.add workflowId [.startChild start] workflowId :=
    Log.mem_add.mpr (.inr ⟨rfl, List.mem_singleton_self _⟩)
  refine of_deliver ?_ ?_ ?_ ?_ ?_
  · refine Log.forall_add (P := fun id commands => commands ≠ [] → (σ' id).isSome) ?_ ?_
    · exact fun id hlog => known id (ledger.known id hlog)
    · exact fun _ => known workflowId hparent
  · exact Log.forall_add (P := fun _ commands => (commands.filterMap Command.introduces?).Nodup)
      ledger.once once
  · intro id standing link hstanding hlink
    rcases created id standing hstanding with hold | ⟨-, rfl, hmine, -⟩
    · obtain ⟨other, hmem, hseq, hname⟩ := ledger.linked id standing link hold hlink
      exact ⟨other, Log.mem_add.mpr (.inl hmem), hseq, hname⟩
    · rw [hmine] at hlink
      cases hlink
      exact ⟨start, hnew, rfl, rfl⟩
  · intro id standing other hstanding hopen hother
    rw [news_delivered hnews]
    -- the answer is news of the new start only, and nothing was heard about that before
    rcases Log.mem_add.mp hother with hmem | ⟨rfl, hmem⟩
    · rw [if_neg, List.append_nil]
      · rcases created id standing hstanding with hold | ⟨hfree, -⟩
        · exact others id other _ (ledger.answered id standing other hold hopen hmem)
        · rw [ledger.log_eq_nil hfree] at hmem
          cases hmem
      · rintro ⟨rfl, hseq⟩
        exact fresh other hmem hseq
    · cases List.mem_singleton.mp hmem
      have hsilent : news start.seq standing.received = [] := by
        rcases created id standing hstanding with hold | ⟨-, -, -, hnone⟩
        · exact ledger.silent id standing start.seq hold hopen fresh
        · exact hnone start.seq
      rw [hsilent, if_pos ⟨rfl, rfl⟩]
      exact answer
  · intro id standing seq hstanding hopen hseq
    rw [news_delivered hnews, if_neg, List.append_nil]
    · rcases created id standing hstanding with hold | ⟨-, -, -, hnone⟩
      · exact ledger.silent id standing seq hold hopen fun other hother =>
          hseq other (Log.mem_add.mpr (.inl hother))
      · exact hnone seq
    · rintro ⟨rfl, rfl⟩
      exact hseq start hnew rfl

/-- **Starting a child keeps the ledger**, whether its name is taken or not. -/
theorem startChild (ledger : Ledger σ log) (hparent : (σ workflowId).isSome) (start : ChildStart)
    (once : ((log workflowId ++ [Command.startChild start]).filterMap Command.introduces?).Nodup)
    (runId : String) :
    Ledger (σ.startChild runId workflowId start) (log.add workflowId [.startChild start]) := by
  rw [Standings.startChild]
  split
  · rename_i htaken
    obtain ⟨other, hother⟩ := Option.isSome_iff_exists.mp htaken
    refine ledger.of_start hparent once ?_ (fun _ h => h) (fun _ _ h => .inl h)
      (fun _ _ _ h => h) (.refused other hother ?_)
    · intro seq
      simp [Event.isNewsOf, Execution.childNews?]
    · intro hlink
      obtain ⟨first, hmem, hseq, -⟩ := ledger.linked _ other _ hother hlink
      exact Command.fresh_of_once once rfl hmem (congrArg some hseq)
  · rename_i hfree
    have free : σ start.workflowId = none := by simpa using hfree
    refine ledger.of_start hparent once ?_ (fun _ h => Standings.isSome_create h _ _ _) ?_
      (fun _ _ _ h => h.create free _ _) (Answered.created σ rfl _)
    · intro seq
      simp [Event.isNewsOf, Execution.childNews?]
    · intro id standing hstanding
      rcases Standings.create_inv hstanding with ⟨rfl, rfl⟩ | ⟨-, hold⟩
      · exact .inr ⟨free, rfl, rfl, fun _ => rfl⟩
      · exact .inl hold

/-! ### Closing -/

/-- An answer about a child stands when another instance has closed. -/
theorem answered_shut {parentId : String} {start : ChildStart} {events : List Event}
    {standing : Standing} (hstanding : σ workflowId = some standing)
    (hother : standing.parent ≠ some ⟨parentId, start.seq⟩)
    (h : Answered σ parentId start events) (status : Status) :
    Answered (σ.change workflowId fun standing => standing.shut status) parentId start events := by
  refine h.mono fun child hchild => ?_
  by_cases hid : start.workflowId = workflowId
  · rw [hid, hstanding] at hchild
    cases hchild
    rw [hid, Standings.change_self, hstanding]
    exact ⟨_, rfl, rfl, rfl, fun hlink => absurd hlink hother⟩
  · rw [Standings.change_other hid]
    exact ⟨child, hchild, rfl, rfl, fun _ => rfl⟩

/-- The answer about an open child is followed by the news that it has closed. -/
theorem answered_report (ledger : Ledger σ log) {standing : Standing} {parent : ParentLink}
    (hstanding : σ workflowId = some standing) (hrunning : standing.status = .running)
    (hparent : standing.parent = some parent) {start : ChildStart}
    (hstart : .startChild start ∈ log parent.workflowId) (hseq : start.seq = parent.seq)
    {status : Status} {event : Event} (hreport : status.report? parent.seq = some event)
    {events : List Event} (h : Answered σ parent.workflowId start events) :
    Answered (σ.change workflowId fun standing => standing.shut status) parent.workflowId start
      (events ++ [event]) := by
  obtain ⟨first, hmem, hfirst, rfl⟩ := ledger.linked workflowId standing parent hstanding hparent
  obtain rfl : start = first := ledger.start_unique hstart hmem (hseq.trans hfirst.symm)
  have hlink : some parent = some ⟨parent.workflowId, start.seq⟩ := by rw [hseq]
  cases h with
  | refused other hother hno =>
      rw [hstanding] at hother
      cases hother
      exact absurd (hparent.trans hlink) hno
  | started child hchild _ =>
      rw [hstanding] at hchild
      cases hchild
      have hshut : σ.change start.workflowId (fun standing => standing.shut status)
          start.workflowId = some (standing.shut status) := by
        rw [Standings.change_self, hstanding]
        rfl
      have hanswer := Answered.started (standing.shut status) hshut (hparent.trans hlink)
      have hevent : (standing.shut status).status.report? start.seq = some event := hseq ▸ hreport
      rw [hevent] at hanswer
      rw [hrunning]
      exact hanswer

/-- A parent of an open child has heard of its start and of nothing else. -/
theorem news_of_running (ledger : Ledger σ log) {standing other : Standing} {parent : ParentLink}
    (hstanding : σ workflowId = some standing) (hrunning : standing.status = .running)
    (hparent : standing.parent = some parent) (hother : σ parent.workflowId = some other)
    (hopen : other.status = .running) :
    ∃ start, .startChild start ∈ log parent.workflowId ∧ start.seq = parent.seq
      ∧ news start.seq other.received = [.childStarted start.seq standing.info.runId] := by
  obtain ⟨start, hstart, hseq, rfl⟩ := ledger.linked workflowId standing parent hstanding hparent
  refine ⟨start, hstart, hseq, ?_⟩
  have hanswer := ledger.answered parent.workflowId other start hother hopen hstart
  generalize news start.seq other.received = heard at hanswer
  cases hanswer with
  | refused known hknown hno =>
      rw [hstanding] at hknown
      cases hknown
      exact absurd (hseq ▸ hparent) hno
  | started child hchild _ =>
      rw [hstanding] at hchild
      cases hchild
      rw [hrunning]
      rfl

/-- Closing makes no instance unknown. -/
theorem known_shut (ledger : Ledger σ log) (workflowId : String) (status : Status) (id : String)
    (h : log id ≠ []) :
    (σ.change workflowId (fun standing => standing.shut status) id).isSome := by
  rw [Standings.isSome_change]
  exact ledger.known id h

/-- Children stay those of their parents when they close. -/
theorem linked_shut (ledger : Ledger σ log) (workflowId : String) (status : Status) (id : String)
    (standing : Standing) (parent : ParentLink)
    (h : σ.change workflowId (fun standing => standing.shut status) id = some standing)
    (hparent : standing.parent = some parent) :
    ∃ start, .startChild start ∈ log parent.workflowId ∧ start.seq = parent.seq
      ∧ start.workflowId = id := by
  obtain ⟨old, hold, rfl⟩ := Standings.change_inv h
  refine ledger.linked id old parent hold ?_
  rw [← hparent]
  split <;> rfl

/-- Closing an instance that is no child keeps the ledger. -/
theorem shut_root (ledger : Ledger σ log) {standing : Standing}
    (hstanding : σ workflowId = some standing) (hparent : standing.parent = none) {status : Status}
    (terminal : status.isTerminal = true) :
    Ledger (σ.change workflowId fun standing => standing.shut status) log := by
  refine ⟨ledger.known_shut workflowId status, ledger.once, ledger.linked_shut workflowId status,
    ?_, ?_⟩
  · intro id other start hother hopen hstart
    obtain ⟨-, hold⟩ := Standings.shut_running terminal hother hopen
    refine answered_shut hstanding ?_ (ledger.answered id other start hold hopen hstart) status
    rw [hparent]
    nofun
  · intro id other seq hother hopen hseq
    obtain ⟨-, hold⟩ := Standings.shut_running terminal hother hopen
    exact ledger.silent id other seq hold hopen hseq

/-- Closing a child keeps the ledger once its parent has heard of it. -/
theorem shut_child (ledger : Ledger σ log) {standing : Standing}
    (hstanding : σ workflowId = some standing) (hrunning : standing.status = .running)
    {parent : ParentLink} (hparent : standing.parent = some parent) {status : Status}
    (terminal : status.isTerminal = true) {event : Event}
    (hreport : status.report? parent.seq = some event) :
    Ledger ((σ.change workflowId fun standing => standing.shut status).deliver parent.workflowId
      event) log := by
  have hnews := Status.isNewsOf_report? hreport
  refine of_deliver (ledger.known_shut workflowId status) ledger.once
    (ledger.linked_shut workflowId status) ?_ ?_
  · intro id other start hother hopen hstart
    obtain ⟨-, hold⟩ := Standings.shut_running terminal hother hopen
    have hanswer := ledger.answered id other start hold hopen hstart
    rw [news_delivered hnews]
    -- the news concerns the parent and the start that made this child; all else stays
    by_cases hmine : id = parent.workflowId ∧ start.seq = parent.seq
    · rw [if_pos hmine]
      obtain ⟨rfl, hseq⟩ := hmine
      exact ledger.answered_report hstanding hrunning hparent hstart hseq hreport hanswer
    · rw [if_neg hmine, List.append_nil]
      refine answered_shut hstanding ?_ hanswer status
      rw [hparent]
      intro hlink
      cases hlink
      exact hmine ⟨rfl, rfl⟩
  · intro id other seq hother hopen hseq
    obtain ⟨-, hold⟩ := Standings.shut_running terminal hother hopen
    rw [news_delivered hnews, if_neg, List.append_nil]
    · exact ledger.silent id other seq hold hopen hseq
    · rintro ⟨rfl, rfl⟩
      obtain ⟨start, hmem, hstart, -⟩ :=
        ledger.linked workflowId standing parent hstanding hparent
      exact hseq start hmem hstart

/-- **Closing an open instance keeps the ledger**: its parent hears of it. -/
theorem close (ledger : Ledger σ log) {standing : Standing}
    (hstanding : σ workflowId = some standing) (hrunning : standing.status = .running)
    {status : Status} (terminal : status.isTerminal = true) :
    Ledger (σ.close workflowId status) log := by
  simp only [Standings.close, hstanding, Standings.report]
  cases hparent : standing.parent with
  | none => exact ledger.shut_root hstanding hparent terminal
  | some parent =>
      obtain ⟨event, hreport⟩ := Status.report?_of_terminal terminal parent.seq
      simp only [hreport]
      exact ledger.shut_child hstanding hrunning hparent terminal hreport

/-! ### Carrying out several commands -/

/-- Carrying out a command of an open instance keeps the ledger. -/
theorem apply (ledger : Ledger σ log) {standing : Standing}
    (hstanding : σ workflowId = some standing) (hrunning : standing.status = .running)
    {command : Command}
    (once : ((log workflowId ++ [command]).filterMap Command.introduces?).Nodup) (runId : String) :
    Ledger (σ.apply runId workflowId command) (log.add workflowId [command]) := by
  have hknown : (σ workflowId).isSome := by rw [hstanding]; rfl
  cases command with
  | startChild start => exact ledger.startChild hknown start once runId
  | cancelChild seq childId =>
      have hadd := ledger.add hknown once (by simp)
      simp only [Standings.apply, Standings.cancelChild]
      split
      · exact hadd.deliver (fun _ => rfl) childId
      · exact hadd
  | startTimer seq delayMs => exact ledger.add hknown once (by simp)
  | complete result => exact (ledger.add hknown once (by simp)).close hstanding hrunning rfl
  | fail error => exact (ledger.add hknown once (by simp)).close hstanding hrunning rfl
  | cancel reason => exact (ledger.add hknown once (by simp)).close hstanding hrunning rfl

end Ledger

/-- What is kept when a command of an open instance is carried out that gives out a new sequence
number, if any, is kept when several are of which only the last may close the instance. -/
theorem Backend.applyAll_induction {P : Backend → List Alarm → Log → Prop} {workflowId : String}
    {commands : List Command}
    (step : ∀ b alarms log runId command, command ∈ commands → P b alarms log →
      b.standing.IsOpen workflowId →
      ((log workflowId ++ [command]).filterMap Command.introduces?).Nodup →
      P (b.apply runId workflowId command).1 (alarms ++ (b.apply runId workflowId command).2)
        (log.add workflowId [command]))
    {b : Backend} {log : Log} (names : Nat → String) (alarms : List Alarm) (initial : P b alarms log)
    (hopen : b.standing.IsOpen workflowId)
    (once : ((log workflowId ++ commands).filterMap Command.introduces?).Nodup)
    (last : commands.Pairwise fun command _ => command.isTerminal = false) :
    P (b.applyAll names workflowId commands).1 (alarms ++ (b.applyAll names workflowId commands).2)
      (log.add workflowId commands) := by
  induction commands generalizing b names alarms log with
  | nil => simpa [applyAll] using initial
  | cons command commands ih =>
      obtain ⟨hfirst, hrest⟩ := List.pairwise_cons.mp last
      have honce : ((log workflowId ++ [command]).filterMap Command.introduces?).Nodup := by
        rw [← List.singleton_append, ← List.append_assoc, List.filterMap_append] at once
        exact (List.nodup_append.mp once).1
      have hnext := step b alarms log (names 0) command List.mem_cons_self initial hopen honce
      cases commands with
      | nil => simpa [applyAll] using hnext
      | cons next commands =>
          have hopen' : (b.apply (names 0) workflowId command).1.standing.IsOpen workflowId := by
            rw [standing_apply]
            exact hopen.apply (hfirst next List.mem_cons_self) _
          have hcommands : log.add workflowId (command :: next :: commands)
              = (log.add workflowId [command]).add workflowId (next :: commands) := by
            rw [Log.add_add, List.singleton_append]
          rw [hcommands, applyAll]
          dsimp only
          rw [← List.append_assoc]
          refine ih (fun b alarms log runId command hmem => ?_) _ _ hnext hopen' ?_ hrest
          · exact step b alarms log runId command (List.mem_cons_of_mem _ hmem)
          · rw [Log.add_self, List.append_assoc]
            exact once

/-- **Carrying out the commands of a task keeps the ledger**, if they give out new sequence numbers
and only the last of them may close the instance. -/
theorem Ledger.applyAll {b : Backend} {log : Log} {workflowId : String} {commands : List Command}
    (ledger : Ledger b.standing log) (hopen : b.standing.IsOpen workflowId)
    (once : ((log workflowId ++ commands).filterMap Command.introduces?).Nodup)
    (last : commands.Pairwise fun command _ => command.isTerminal = false) (names : Nat → String) :
    Ledger (b.applyAll names workflowId commands).1.standing (log.add workflowId commands) := by
  refine Backend.applyAll_induction (P := fun b _ log => Ledger b.standing log) ?_
    names [] ledger hopen once last
  intro b _ log runId command _ hledger hopen honce
  obtain ⟨standing, hstanding, hrunning⟩ := hopen
  rw [b.standing_apply]
  exact hledger.apply hstanding hrunning honce _

end DurableWorkflow
