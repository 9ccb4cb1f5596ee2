import DurableWorkflow.Proofs.ChildLedger

/-!
# What is delivered is due

All that an open instance hears after its start is due: its execution has issued the command that
the event answers, and it was not answered before. For children this is what the ledger says; for
timers it is that each is set once and is gone when it has fired. So whatever an instance hears, a
live execution of its program accepts it.

## Main definitions

* `Timers` — the invariant of timers.
* `Accepting` — what instances have heard is accepted.

## Main results

* `Timers.ring`, `Timers.apply` — timers fire once.
* `Accepting.deliver` — instances accept what is due.
* `Accepting.close`, `Accepting.apply` — what closing and commands deliver is due.
-/

namespace DurableWorkflow

open Execution

/-! ### Timers -/

/-- The timer behind an alarm. -/
def Alarm.timer? : Alarm → Option (String × Nat)
  | .timer workflowId seq _ => some (workflowId, seq)
  | .timeout _ _ => none

/-- The timers that are set. -/
def timersOf (alarms : List Alarm) : List (String × Nat) :=
  alarms.filterMap Alarm.timer?

/-- Alarms without timers set none. -/
theorem timersOf_append_of_nil {more : List Alarm} (h : timersOf more = []) (alarms : List Alarm) :
    timersOf (alarms ++ more) = timersOf alarms := by
  rw [timersOf, List.filterMap_append, ← timersOf, ← timersOf, h, List.append_nil]

/-- Whether a timer of an open instance has fired. -/
def Standings.Fired (σ : Standings) (id : String) (seq : Nat) : Prop :=
  ∃ standing, σ id = some standing ∧ standing.status = .running
    ∧ .timerFired seq ∈ standing.received

/-- The invariant of timers: each is set once, was started by its workflow, and is not set any more
once it has fired. -/
structure Timers (σ : Standings) (alarms : List Alarm) (log : Log) : Prop where
  /-- Each is set once. -/
  once : (timersOf alarms).Nodup
  /-- What is set was started. -/
  started : ∀ id seq, (id, seq) ∈ timersOf alarms → ∃ ms, .startTimer seq ms ∈ log id
  /-- What has fired was started and is not set any more. -/
  fired : ∀ id seq, σ.Fired id seq →
    (id, seq) ∉ timersOf alarms ∧ ∃ ms, .startTimer seq ms ∈ log id

namespace Standings

variable {σ : Standings} {workflowId id : String} {seq : Nat} {event : Event}

/-- The timer that fires is the one of the event that is delivered. -/
theorem Fired.of_deliver (h : (σ.deliver workflowId event).Fired id seq) :
    σ.Fired id seq ∨ (id = workflowId ∧ event = .timerFired seq) := by
  obtain ⟨standing', hstanding', hrunning', hmem⟩ := h
  obtain ⟨standing, hstanding, hrunning, -, hreceived⟩ := deliver_running hstanding' hrunning'
  rw [hreceived, List.mem_append] at hmem
  rcases hmem with hmem | hmem
  · exact .inl ⟨standing, hstanding, hrunning, hmem⟩
  · split at hmem
    · rename_i hid
      exact .inr ⟨hid, (List.mem_singleton.mp hmem).symm⟩
    · cases hmem

/-- Other events fire no timer. -/
theorem Fired.of_quiet (h : (σ.deliver workflowId event).Fired id seq)
    (hevent : event ≠ .timerFired seq) : σ.Fired id seq :=
  h.of_deliver.resolve_right fun hfired => hevent hfired.2

/-- No timer of a new instance has fired. -/
theorem Fired.of_create {info : RunInfo} {parent : Option ParentLink} {input : String}
    (h : (σ.create info parent input).Fired id seq) : σ.Fired id seq := by
  obtain ⟨standing, hstanding, hrunning, hmem⟩ := h
  rcases create_inv hstanding with ⟨-, rfl⟩ | ⟨-, hold⟩
  · simp at hmem
  · exact ⟨standing, hold, hrunning, hmem⟩

/-- Closing an instance fires no timer. -/
theorem Fired.of_close {status : Status} (terminal : status.isTerminal = true)
    (h : (σ.close workflowId status).Fired id seq) : σ.Fired id seq := by
  rw [close] at h
  split at h
  · exact h
  · rename_i old _
    have hshut : (σ.change workflowId fun standing => standing.shut status).Fired id seq := by
      rcases report_inv (σ.change workflowId fun standing => standing.shut status) old status with
        hreport | ⟨parent, event, -, hevent, hreport⟩ <;> rw [hreport] at h
      · exact h
      · refine h.of_quiet fun heq => ?_
        subst heq
        cases status <;> cases hevent
    obtain ⟨standing, hstanding, hrunning, hmem⟩ := hshut
    obtain ⟨-, hold⟩ := Standings.shut_running terminal hstanding hrunning
    exact ⟨standing, hold, hrunning, hmem⟩

/-- Commands fire no timer. -/
theorem Fired.of_apply {runId : String} {command : Command}
    (h : (σ.apply runId workflowId command).Fired id seq) : σ.Fired id seq := by
  cases command with
  | startChild start =>
      simp only [Standings.apply, startChild] at h
      split at h
      · exact h.of_quiet (by simp)
      · exact (h.of_quiet (by simp)).of_create
  | cancelChild childSeq childId =>
      simp only [Standings.apply, cancelChild] at h
      split at h
      · exact h.of_quiet (by simp)
      · exact h
  | startTimer => exact h
  | complete => exact h.of_close rfl
  | fail => exact h.of_close rfl
  | cancel => exact h.of_close rfl

end Standings

namespace Timers

variable {σ σ' : Standings} {alarms alarms' : List Alarm} {log log' : Log} {workflowId : String}

/-- Timers that are not touched stay what they are. -/
theorem mono (timers : Timers σ alarms log) (hfired : ∀ id seq, σ'.Fired id seq → σ.Fired id seq)
    (halarms : (timersOf alarms').Sublist (timersOf alarms)) (hlog : ∀ id, log id ⊆ log' id) :
    Timers σ' alarms' log' := by
  refine ⟨timers.once.sublist halarms, fun id seq hmem => ?_, fun id seq h => ?_⟩
  · obtain ⟨ms, hstart⟩ := timers.started id seq (halarms.subset hmem)
    exact ⟨ms, hlog id hstart⟩
  · obtain ⟨hnot, ms, hstart⟩ := timers.fired id seq (hfired id seq h)
    exact ⟨fun hmem => hnot (halarms.subset hmem), ms, hlog id hstart⟩

/-- A timer that goes off is gone. -/
theorem perm_erase {seq ms : Nat} (h : .timer workflowId seq ms ∈ alarms) :
    (timersOf alarms).Perm
      ((workflowId, seq) :: timersOf (alarms.erase (.timer workflowId seq ms))) :=
  (List.perm_cons_erase h).filterMap Alarm.timer?

/-- **A timer that goes off fires**, and it is due. -/
theorem ring (timers : Timers σ alarms log) {seq ms : Nat}
    (hmem : .timer workflowId seq ms ∈ alarms) :
    Timers (σ.deliver workflowId (.timerFired seq)) (alarms.erase (.timer workflowId seq ms)) log
      ∧ ∀ standing, σ workflowId = some standing → standing.status = .running →
        Due (log workflowId) standing.received (.timerFired seq) := by
  have hperm := perm_erase hmem
  have hset : (workflowId, seq) ∈ timersOf alarms := hperm.mem_iff.mpr List.mem_cons_self
  obtain ⟨hgone, honce⟩ := List.nodup_cons.mp (hperm.nodup_iff.mp timers.once)
  obtain ⟨ms', hstart⟩ := timers.started workflowId seq hset
  refine ⟨⟨honce, fun id other hother => ?_, fun id other hfired => ?_⟩,
    fun standing hstanding hrunning => ?_⟩
  · exact timers.started id other (hperm.mem_iff.mpr (List.mem_cons_of_mem _ hother))
  · rcases hfired.of_deliver with hbefore | ⟨rfl, hsame⟩
    · obtain ⟨hnot, hrest⟩ := timers.fired id other hbefore
      exact ⟨fun h => hnot (hperm.mem_iff.mpr (List.mem_cons_of_mem _ h)), hrest⟩
    · cases hsame
      exact ⟨hgone, ms', hstart⟩
  · refine .fired seq ms' hstart fun hfired => ?_
    exact (timers.fired workflowId seq ⟨standing, hstanding, hrunning, hfired⟩).1 hset

/-- A new timer is set once. -/
theorem startTimer (timers : Timers σ alarms log) {seq ms : Nat}
    (once : ((log workflowId ++ [Command.startTimer seq ms]).filterMap Command.introduces?).Nodup) :
    Timers σ (alarms ++ [.timer workflowId seq ms]) (log.add workflowId [.startTimer seq ms]) := by
  have hof : timersOf (alarms ++ [.timer workflowId seq ms])
      = timersOf alarms ++ [(workflowId, seq)] := List.filterMap_append
  have hfresh : ∀ ms', .startTimer seq ms' ∉ log workflowId := fun ms' h =>
    Command.fresh_of_once once rfl h rfl
  have hnew : (workflowId, seq) ∉ timersOf alarms := by
    intro hset
    obtain ⟨ms', hstart⟩ := timers.started workflowId seq hset
    exact hfresh ms' hstart
  have hmem : .startTimer seq ms ∈ log.add workflowId [.startTimer seq ms] workflowId :=
    Log.mem_add.mpr (.inr ⟨rfl, List.mem_singleton_self _⟩)
  refine ⟨?_, fun id other hother => ?_, fun id other hfired => ?_⟩
  · rw [hof]
    refine List.nodup_append.mpr ⟨timers.once, List.pairwise_singleton _ _, ?_⟩
    rintro timer hold _ hlast rfl
    exact hnew (List.mem_singleton.mp hlast ▸ hold)
  · rw [hof, List.mem_append, List.mem_singleton] at hother
    rcases hother with hold | hlast
    · obtain ⟨ms', hstart⟩ := timers.started id other hold
      exact ⟨ms', Log.mem_add.mpr (.inl hstart)⟩
    · cases hlast
      exact ⟨ms, hmem⟩
  · obtain ⟨hnot, ms', hstart⟩ := timers.fired id other hfired
    refine ⟨?_, ms', Log.mem_add.mpr (.inl hstart)⟩
    rw [hof, List.mem_append, List.mem_singleton]
    rintro (hold | hlast)
    · exact hnot hold
    · cases hlast
      exact hfresh ms' hstart

/-- **Commands keep the invariant of timers.** -/
theorem apply {b : Backend} (timers : Timers b.standing alarms log) {command : Command}
    (once : ((log workflowId ++ [command]).filterMap Command.introduces?).Nodup) (runId : String) :
    Timers (b.apply runId workflowId command).1.standing
      (alarms ++ (b.apply runId workflowId command).2) (log.add workflowId [command]) := by
  have hlog (id : String) : log id ⊆ log.add workflowId [command] id :=
    fun _ h => Log.mem_add.mpr (.inl h)
  have hfired : ∀ id seq, (b.apply runId workflowId command).1.standing.Fired id seq →
      b.standing.Fired id seq := by
    intro id seq h
    rw [b.standing_apply] at h
    exact h.of_apply
  have quiet (h : timersOf (b.apply runId workflowId command).2 = []) :
      Timers (b.apply runId workflowId command).1.standing
        (alarms ++ (b.apply runId workflowId command).2) (log.add workflowId [command]) := by
    refine timers.mono hfired ?_ hlog
    exact timersOf_append_of_nil h alarms ▸ List.Sublist.refl _
  cases command with
  | startTimer seq ms => exact timers.startTimer once
  | startChild start =>
      refine quiet ?_
      simp only [Backend.apply, Backend.startChild]
      split
      · rfl
      · cases start.timeoutMs <;> rfl
  | _ => exact quiet rfl

end Timers

/-! ### Accepting -/

/-- Whether live executions of the right programs accept what open instances have heard, and issue
the logged commands that give out numbers. -/
structure Accepting (code : String → String → Option Program) (converter : Converter)
    (σ : Standings) (log : Log) : Prop where
  /-- Commands belong to known workflows. -/
  known : ∀ id, log id ≠ [] → (σ id).isSome
  /-- An open instance has heard something. -/
  begun : ∀ id standing, σ id = some standing → standing.status = .running →
    standing.received ≠ []
  /-- A live execution accepts what it has heard. -/
  accepted : ∀ id standing program, σ id = some standing → standing.status = .running →
    code standing.info.workflowType standing.info.method = some program →
    ∃ recording x, (new standing.info program converter).record standing.received
        = (.ok recording, x)
      ∧ ∀ command ∈ log id, command.introduces?.isSome → command ∈ recording.commands

namespace Accepting

variable {code : String → String → Option Program} {converter : Converter} {σ : Standings}
  {log carried : Log} {workflowId : String}

/-- **Instances accept what is due.** -/
theorem deliver (accepting : Accepting code converter σ log) {event : Event}
    (due : ∀ standing, σ workflowId = some standing → standing.status = .running →
      Due (log workflowId) standing.received event) :
    Accepting code converter (σ.deliver workflowId event) log := by
  refine ⟨fun id hlog => ?_, fun id standing' hstanding' hrunning' => ?_,
    fun id standing' program hstanding' hrunning' hcode => ?_⟩
  · rw [Standings.deliver, Standings.isSome_change]
    exact accepting.known id hlog
  · obtain ⟨standing, hstanding, hrunning, -, hreceived⟩ :=
      Standings.deliver_running hstanding' hrunning'
    rw [hreceived]
    exact List.append_ne_nil_of_left_ne_nil (accepting.begun id standing hstanding hrunning) _
  · obtain ⟨standing, hstanding, hrunning, hinfo, hreceived⟩ :=
      Standings.deliver_running hstanding' hrunning'
    rw [hinfo] at hcode ⊢
    rw [hreceived]
    obtain ⟨recording, x, hrecord, hissued⟩ :=
      accepting.accepted id standing program hstanding hrunning hcode
    by_cases hid : id = workflowId
    · subst hid
      obtain ⟨rest, y, hrest⟩ :=
        record_due hrecord ((due standing hstanding hrunning).mono hissued)
      rw [if_pos rfl]
      refine ⟨recording.append rest, y, record_append hrecord hrest, fun command hmem hsome => ?_⟩
      exact List.mem_append_left _ (hissued command hmem hsome)
    · rw [if_neg hid, List.append_nil]
      exact ⟨recording, x, hrecord, hissued⟩

/-- An instance that closes has heard nothing wrong. -/
theorem shut (accepting : Accepting code converter σ log) {status : Status}
    (terminal : status.isTerminal = true) (workflowId : String) :
    Accepting code converter (σ.change workflowId fun standing => standing.shut status) log := by
  refine ⟨fun id hlog => ?_, fun id standing hstanding hrunning => ?_,
    fun id standing program hstanding hrunning hcode => ?_⟩
  · rw [Standings.isSome_change]
    exact accepting.known id hlog
  · obtain ⟨-, hold⟩ := Standings.shut_running terminal hstanding hrunning
    exact accepting.begun id standing hold hrunning
  · obtain ⟨-, hold⟩ := Standings.shut_running terminal hstanding hrunning
    exact accepting.accepted id standing program hold hrunning hcode

/-- A new instance accepts its start. -/
theorem create (accepting : Accepting code converter σ log) {info : RunInfo}
    (free : σ info.workflowId = none) (parent : Option ParentLink) (input : String) :
    Accepting code converter (σ.create info parent input) log := by
  refine ⟨fun id hlog => ?_, fun id standing hstanding hrunning => ?_,
    fun id standing program hstanding hrunning hcode => ?_⟩
  · exact Standings.isSome_create (accepting.known id hlog) info parent input
  · rcases Standings.create_inv hstanding with ⟨-, rfl⟩ | ⟨-, hold⟩
    · simp
    · exact accepting.begun id standing hold hrunning
  · rcases Standings.create_inv hstanding with ⟨rfl, rfl⟩ | ⟨-, hold⟩
    · obtain ⟨recording, x, hrecord⟩ := record_executionStarted info program converter
        info.workflowType info.method input info.parentWorkflowId
      refine ⟨recording, x, hrecord, fun command hmem _ => ?_⟩
      have hknown := accepting.known info.workflowId (List.ne_nil_of_mem hmem)
      rw [free] at hknown
      cases hknown
    · exact accepting.accepted id standing program hold hrunning hcode

/-- **An end that is reported is due.** -/
theorem close (accepting : Accepting code converter σ log) (ledger : Ledger σ carried)
    (hlog : ∀ id, carried id ⊆ log id) (hopen : σ.IsOpen workflowId) {status : Status}
    (terminal : status.isTerminal = true) :
    Accepting code converter (σ.close workflowId status) log := by
  obtain ⟨standing, hstanding, hrunning⟩ := hopen
  have hshut := accepting.shut terminal workflowId
  rw [Standings.close]
  rw [hstanding]
  dsimp only
  rcases Standings.report_inv (σ.change workflowId fun standing => standing.shut status) standing
    status with hreport | ⟨parent, event, hparent, hevent, hreport⟩ <;> rw [hreport]
  · exact hshut
  · refine hshut.deliver fun other hother hother' => ?_
    obtain ⟨-, hbefore⟩ := Standings.shut_running terminal hother hother'
    obtain ⟨start, hstart, hseq, hnews⟩ :=
      ledger.news_of_running hstanding hrunning hparent hbefore hother'
    exact .ended start _ (hlog _ hstart) hnews (hseq ▸ hevent)

/-- **The answer to a start is due.** -/
theorem startChild (accepting : Accepting code converter σ log) (ledger : Ledger σ carried)
    (hopen : σ.IsOpen workflowId) {start : ChildStart}
    (hstart : .startChild start ∈ log workflowId)
    (once : ((carried workflowId ++ [Command.startChild start]).filterMap
      Command.introduces?).Nodup) (runId : String) :
    Accepting code converter (σ.startChild runId workflowId start) log := by
  obtain ⟨known, hknown, -⟩ := hopen
  have silent {standing : Standing} (hstanding : σ workflowId = some standing)
      (hrunning : standing.status = .running) : news start.seq standing.received = [] := by
    refine ledger.silent _ standing start.seq hstanding hrunning fun other hother hseq => ?_
    exact Command.fresh_of_once once rfl hother (congrArg some hseq)
  rw [Standings.startChild]
  split
  · refine accepting.deliver fun standing hstanding hrunning => ?_
    exact .refused start _ hstart (silent hstanding hrunning)
  · rename_i hfree
    have free : σ start.workflowId = none := by simpa using hfree
    refine (accepting.create free _ _).deliver fun standing hstanding hrunning => ?_
    rcases Standings.create_inv hstanding with ⟨hname, -⟩ | ⟨-, hold⟩
    · have hname' : workflowId = start.workflowId := hname
      rw [hname', free] at hknown
      cases hknown
    · exact .started start runId hstart (silent hold hrunning)

/-- **What commands deliver is due.** -/
theorem apply (accepting : Accepting code converter σ log) (ledger : Ledger σ carried)
    (hlog : ∀ id, carried id ⊆ log id) (hopen : σ.IsOpen workflowId) {command : Command}
    (hcommand : command ∈ log workflowId)
    (once : ((carried workflowId ++ [command]).filterMap Command.introduces?).Nodup)
    (runId : String) :
    Accepting code converter (σ.apply runId workflowId command) log := by
  cases command with
  | startChild start => exact accepting.startChild ledger hopen hcommand once runId
  | cancelChild seq childId =>
      simp only [Standings.apply, Standings.cancelChild]
      split
      · refine accepting.deliver fun standing hstanding hrunning => ?_
        exact .cancel _ (accepting.begun childId standing hstanding hrunning)
      · exact accepting
  | startTimer seq ms => exact accepting
  | complete result => exact accepting.close ledger hlog hopen rfl
  | fail error => exact accepting.close ledger hlog hopen rfl
  | cancel reason => exact accepting.close ledger hlog hopen rfl

/-- Commands that the execution of their instance has issued may be carried out. -/
theorem add (accepting : Accepting code converter σ log) (known : (σ workflowId).isSome)
    {commands : List Command}
    (issued : ∀ standing program recording x, σ workflowId = some standing →
      standing.status = .running →
      code standing.info.workflowType standing.info.method = some program →
      (new standing.info program converter).record standing.received = (.ok recording, x) →
      ∀ command ∈ commands, command.introduces?.isSome → command ∈ recording.commands) :
    Accepting code converter σ (log.add workflowId commands) := by
  refine ⟨?_, accepting.begun, fun id standing program hstanding hrunning hcode => ?_⟩
  · exact Log.forall_add (P := fun id commands => commands ≠ [] → (σ id).isSome) accepting.known
      fun _ => known
  · obtain ⟨recording, x, hrecord, hissued⟩ :=
      accepting.accepted id standing program hstanding hrunning hcode
    refine ⟨recording, x, hrecord, fun command hmem hsome => ?_⟩
    rcases Log.mem_add.mp hmem with hold | ⟨rfl, hnew⟩
    · exact hissued command hold hsome
    · exact issued standing program recording x hstanding hrunning hcode hrecord command hnew hsome

/-- **Carrying out commands delivers what is due**, and sets each timer once. -/
theorem applyAll {b : Backend} {alarms : List Alarm} {commands : List Command}
    (accepting : Accepting code converter b.standing (log.add workflowId commands))
    (ledger : Ledger b.standing log) (timers : Timers b.standing alarms log)
    (hopen : b.standing.IsOpen workflowId)
    (once : ((log workflowId ++ commands).filterMap Command.introduces?).Nodup)
    (last : commands.Pairwise fun command _ => command.isTerminal = false) (names : Nat → String) :
    Timers (b.applyAll names workflowId commands).1.standing
        (alarms ++ (b.applyAll names workflowId commands).2) (log.add workflowId commands)
      ∧ Accepting code converter (b.applyAll names workflowId commands).1.standing
        (log.add workflowId commands) := by
  let full := log.add workflowId commands
  -- The commands carried out so far are among all those to be carried out.
  have hafter := Backend.applyAll_induction
    (P := fun b alarms done => Ledger b.standing done ∧ Timers b.standing alarms done
      ∧ Accepting code converter b.standing full ∧ ∀ id, done id ⊆ full id)
    ?step names alarms
    ⟨ledger, timers, accepting, fun id _ h => Log.mem_add.mpr (.inl h)⟩ hopen once last
  case step =>
    rintro b alarms done runId command hmem ⟨hledger, htimers, haccepting, hdone⟩ hopen honce
    have hcommand : command ∈ full workflowId := Log.mem_add.mpr (.inr ⟨rfl, hmem⟩)
    refine ⟨?_, htimers.apply honce runId, ?_, fun id other hother => ?_⟩
    · obtain ⟨standing, hstanding, hrunning⟩ := hopen
      rw [b.standing_apply]
      exact hledger.apply hstanding hrunning honce _
    · rw [b.standing_apply]
      exact haccepting.apply hledger hdone hopen hcommand honce _
    · rcases Log.mem_add.mp hother with hold | ⟨rfl, hnew⟩
      · exact hdone id hold
      · cases List.mem_singleton.mp hnew
        exact hcommand
  exact ⟨hafter.2.1, hafter.2.2.1⟩

end Accepting

end DurableWorkflow
