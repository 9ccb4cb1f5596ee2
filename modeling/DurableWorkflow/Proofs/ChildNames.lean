import DurableWorkflow.Proofs.Agreement
import DurableWorkflow.Proofs.ChildReports
import DurableWorkflow.Proofs.Starts

/-!
# The names of children

A child whose name is left open is called by the name of its parent and its number. Such names are
different for different parents and numbers at any depth, as the number can be read off the end of
the name. So in a system in which no child is given a name, no workflow that is started from outside
is given one that looks like that of a child, and names that nobody chose have no colons, every
start that is carried out finds its name free: the child is created, and no start is ever refused.

## Main definitions

* `childName` — the name of a child that was left open.
* `EndsNumbered` — a name looks like that of a child.
* `Standings.Named` — children stand under their names.
* `System.LeavesNames` — nobody in a system chooses a name of children.
* `System.NamesUntaken` — nobody has one who is no child.
* `System.NamesChildren` — what is so of the names of children then.

## Main results

* `childName_injective` — different children have different names.
* `Standings.Named.free`, `Standings.Named.apply` — a start finds its name free, and takes it.
* `System.Reachable.named` — children stand under their names in every reachable state.
* `System.Reachable.unrefused` — no start is ever refused.
* `System.Reachable.default_names` — names of children never collide.
-/

namespace DurableWorkflow

/-! ### Names -/

/-- The name of a child that was left open. -/
def childName (parentId : String) (seq : Nat) : String :=
  parentId ++ "::" ++ toString seq

/-- Whether a name ends in two colons and a number in decimal. -/
def EndsNumbered (id : String) : Prop :=
  ∃ stem digits : String, id = stem ++ "::" ++ digits ∧ digits ≠ ""
    ∧ ∀ c ∈ digits.toList, c.isDigit = true

/-- The digits of a number. -/
theorem isDigit_of_mem_toString {seq : Nat} {c : Char} (h : c ∈ (toString seq).toList) :
    c.isDigit = true := by
  rw [Nat.toString_eq_repr, Nat.toList_repr] at h
  exact Nat.isDigit_of_mem_toDigits (by decide) (by decide) h

/-- The name of a child ends in its number. -/
theorem endsNumbered_childName (parentId : String) (seq : Nat) :
    EndsNumbered (childName parentId seq) := by
  refine ⟨parentId, toString seq, rfl, fun hempty => ?_, fun c => isDigit_of_mem_toString⟩
  have hdigits := congrArg String.toList hempty
  rw [Nat.toString_eq_repr, Nat.toList_repr] at hdigits
  exact Nat.toDigits_ne_nil hdigits

/-- What follows the last two colons tells what stands before them. -/
theorem append_colons_inj {stem stem' digits digits' : List Char} (hdigits : ':' ∉ digits)
    (hdigits' : ':' ∉ digits')
    (h : stem ++ ':' :: ':' :: digits = stem' ++ ':' :: ':' :: digits') :
    stem = stem' ∧ digits = digits' := by
  rcases List.append_eq_append_iff.mp h with ⟨more, rfl, hmore⟩ | ⟨more, rfl, hmore⟩ <;>
    rcases more with _ | ⟨first, _ | ⟨second, more⟩⟩ <;> simp_all

/-- **Different children have different names**: the name tells the parent and the number. -/
theorem childName_injective {parentId parentId' : String} {seq seq' : Nat}
    (h : childName parentId seq = childName parentId' seq') :
    parentId = parentId' ∧ seq = seq' := by
  have hchars (id : String) (n : Nat) :
      (childName id n).toList = id.toList ++ ':' :: ':' :: Nat.toDigits 10 n := by
    simp [childName, Nat.toString_eq_repr, Nat.toList_repr]
  have hcolon (n : Nat) : ':' ∉ Nat.toDigits 10 n := fun hmem => by
    have hdigit := Nat.isDigit_of_mem_toDigits (by decide) (by decide) hmem
    revert hdigit
    decide
  have hlist := congrArg String.toList h
  rw [hchars, hchars] at hlist
  obtain ⟨hstem, hdigits⟩ := append_colons_inj (hcolon seq) (hcolon seq') hlist
  refine ⟨String.toList_inj.mp hstem, ?_⟩
  calc
    seq = Nat.ofDigitChars 10 (Nat.toDigits 10 seq) 0 := Nat.ofDigitChars_ten_toDigits.symm
    _ = Nat.ofDigitChars 10 (Nat.toDigits 10 seq') 0 := by rw [hdigits]
    _ = seq' := Nat.ofDigitChars_ten_toDigits

/-- A name without colons does not look like that of a child. -/
theorem not_endsNumbered_of_notMem {id : String} (h : ':' ∉ id.toList) : ¬ EndsNumbered id := by
  rintro ⟨stem, digits, rfl, -, -⟩
  simp at h

/-! ### Standings -/

/-- Whether an event refuses the start of a child. -/
def Event.isRefusal : Event → Bool
  | .childStartFailed _ _ => true
  | _ => false

/-- An event that refuses a start is of one kind. -/
theorem Event.exists_of_isRefusal {event : Event} (h : event.isRefusal = true) :
    ∃ seq cause, event = .childStartFailed seq cause := by
  cases event <;> cases h
  exact ⟨_, _, rfl⟩

namespace Standings

variable {σ σ' : Standings} {log : Log} {workflowId id runId : String} {command : Command}

/-- A change of what one has heard and whether one is open. -/
theorem parent_change {f : Standing → Standing} (hf : ∀ standing, (f standing).parent
      = standing.parent) (σ : Standings) (workflowId id : String) :
    (σ.change workflowId f id).map Standing.parent = (σ id).map Standing.parent := by
  rw [change]
  split
  · rw [Option.map_map]
    congr 1
    exact funext hf
  · rfl

/-- Delivering an event changes nobody's parent. -/
theorem parent_deliver (σ : Standings) (workflowId : String) (event : Event) (id : String) :
    (σ.deliver workflowId event id).map Standing.parent = (σ id).map Standing.parent :=
  parent_change (fun _ => by simp) σ workflowId id

/-- Nor does closing an instance. -/
theorem parent_close (σ : Standings) (workflowId : String) (status : Status) (id : String) :
    (σ.close workflowId status id).map Standing.parent = (σ id).map Standing.parent := by
  rw [close]
  cases σ workflowId with
  | none => rfl
  | some standing =>
      have hshut := parent_change (f := fun standing => standing.shut status) (fun _ => rfl) σ
        workflowId id
      dsimp only
      rcases (σ.change workflowId fun standing => standing.shut status).report_inv standing status
        with hreport | ⟨parent, event, -, -, hreport⟩ <;> rw [hreport]
      · exact hshut
      · exact (parent_deliver _ _ _ id).trans hshut

/-- Nor does a command that starts no child. -/
theorem parent_apply (hcommand : ∀ start, command ≠ .startChild start) (id : String) :
    (σ.apply runId workflowId command id).map Standing.parent = (σ id).map Standing.parent := by
  cases command with
  | startChild start => exact absurd rfl (hcommand start)
  | cancelChild seq childId =>
      rw [apply, cancelChild]
      split
      · exact parent_deliver σ childId _ id
      · rfl
  | startTimer => rfl
  | complete | fail | cancel => exact parent_close σ workflowId _ id

/-- A child that is started under a free name has its parent. -/
theorem parent_startChild {start : ChildStart} (free : σ start.workflowId = none) (id : String) :
    (σ.apply runId workflowId (.startChild start) id).map Standing.parent
      = if id = start.workflowId then some (some ⟨workflowId, start.seq⟩)
        else (σ id).map Standing.parent := by
  rw [apply, startChild, free]
  refine (parent_deliver _ _ _ id).trans ?_
  rw [create]
  split <;> rfl

/-- Whether children stand under their names, and nobody else does. -/
structure Named (σ : Standings) (log : Log) : Prop where
  /-- Who is no child does not have the name of one. -/
  topLevel : ∀ id, (σ id).map Standing.parent = some none → ¬ EndsNumbered id
  /-- Children are started under their names. -/
  starts : ∀ id start, .startChild start ∈ log id → start.workflowId = childName id start.seq
  /-- Those that were started stand there. -/
  found : ∀ id start, .startChild start ∈ log id →
    (σ start.workflowId).map Standing.parent = some (some ⟨id, start.seq⟩)

/-- Children stay where they stand. -/
theorem Named.stay (named : σ.Named log)
    (topLevel : ∀ id, (σ' id).map Standing.parent = some none → ¬ EndsNumbered id)
    (hstay : ∀ id link, (σ id).map Standing.parent = some link →
      (σ' id).map Standing.parent = some link) : σ'.Named log :=
  ⟨topLevel, named.starts, fun id start hstart => hstay _ _ (named.found id start hstart)⟩

/-- **A start finds its name free**, if it is the first with its number. -/
theorem Named.free (named : σ.Named log) (ledger : Ledger σ log) {start : ChildStart}
    (hname : start.workflowId = childName id start.seq)
    (hnew : ∀ other, .startChild other ∈ log id → other.seq ≠ start.seq) :
    σ start.workflowId = none := by
  by_contra htaken
  obtain ⟨standing, hstanding⟩ := Option.ne_none_iff_exists'.mp htaken
  cases hparent : standing.parent with
  | none =>
      refine named.topLevel start.workflowId (by rw [hstanding, Option.map_some, hparent]) ?_
      rw [hname]
      exact endsNumbered_childName id start.seq
  | some link =>
      obtain ⟨other, hother, -, hsame⟩ :=
        ledger.linked start.workflowId standing link hstanding hparent
      obtain ⟨hid, hseq⟩ := childName_injective
        ((named.starts _ other hother).symm.trans (hsame.trans hname))
      exact hnew other (hid ▸ hother) hseq

/-- **Carrying out a command leaves children under their names**, if it gives out a new number and
starts a child under its name only. -/
theorem Named.apply (named : σ.Named log) (ledger : Ledger σ log)
    (once : ((log workflowId ++ [command]).filterMap Command.introduces?).Nodup)
    (hname : ∀ start, command = .startChild start →
      start.workflowId = childName workflowId start.seq) :
    (σ.apply runId workflowId command).Named (log.add workflowId [command]) := by
  by_cases hcommand : ∃ start, command = .startChild start
  · obtain ⟨start, rfl⟩ := hcommand
    have hfree : σ start.workflowId = none :=
      named.free ledger (hname start rfl) fun other hother hseq =>
        Command.fresh_of_once once rfl hother (congrArg some hseq)
    refine ⟨fun id => ?_, fun id other hother => ?_, fun id other hother => ?_⟩
    · rw [parent_startChild hfree]
      split
      · nofun
      · exact named.topLevel id
    · rcases Log.mem_add.mp hother with hold | ⟨rfl, hnew⟩
      · exact named.starts id other hold
      · cases List.mem_singleton.mp hnew
        exact hname start rfl
    · rw [parent_startChild hfree]
      rcases Log.mem_add.mp hother with hold | ⟨rfl, hnew⟩
      · have hfound := named.found id other hold
        rw [if_neg, hfound]
        intro hsame
        rw [hsame, hfree] at hfound
        cases hfound
      · cases List.mem_singleton.mp hnew
        exact if_pos rfl
  · have hnone : ∀ start, command ≠ .startChild start :=
      fun start heq => hcommand ⟨start, heq⟩
    have hold {id : String} {start : ChildStart}
        (hstart : .startChild start ∈ log.add workflowId [command] id) :
        .startChild start ∈ log id := by
      refine (Log.mem_add.mp hstart).resolve_right ?_
      rintro ⟨-, hnew⟩
      exact hnone start (List.mem_singleton.mp hnew).symm
    refine ⟨fun id => ?_, fun id start hstart => named.starts id start (hold hstart),
      fun id start hstart => ?_⟩
    · rw [parent_apply hnone]
      exact named.topLevel id
    · rw [parent_apply hnone]
      exact named.found id start (hold hstart)

/-- **An open parent has heard of no refusal.** -/
theorem Named.unrefused (named : σ.Named log) (ledger : Ledger σ log) {standing : Standing}
    (hstanding : σ id = some standing) (hrunning : standing.status = .running) :
    ∀ event ∈ standing.received, event.isRefusal = false := by
  intro event hevent
  by_contra hrefusal
  obtain ⟨seq, cause, rfl⟩ := Event.exists_of_isRefusal (Bool.eq_true_of_not_eq_false hrefusal)
  have hnews : .childStartFailed seq cause ∈ news seq standing.received :=
    List.mem_filter.mpr ⟨hevent, by simp [Event.isNewsOf, Execution.childNews?]⟩
  by_cases hstart : ∃ start, .startChild start ∈ log id ∧ start.seq = seq
  · obtain ⟨start, hstart, rfl⟩ := hstart
    have hanswer := ledger.answered id standing start hstanding hrunning hstart
    generalize news start.seq standing.received = heard at hnews hanswer
    cases hanswer with
    | refused other hother hparent =>
        have hfound := named.found id start hstart
        rw [hother] at hfound
        exact hparent (Option.some.inj hfound)
    | started child hchild hparent =>
        cases hstatus : child.status <;> simp [hstatus, Status.report?] at hnews
  · rw [ledger.silent id standing seq hstanding hrunning fun start hstart' hseq =>
      hstart ⟨start, hstart', hseq⟩] at hnews
    cases hnews

end Standings

/-! ### Tasks -/

namespace Backend

variable {b b' : Backend} {log : Log} {id : String}

/-- Instances are whose children they are, whatever a client, a worker or the clock does. -/
theorem parent_after {link : Option ParentLink}
    (h : (b.standing id).map Standing.parent = some link) (operation : Operation) :
    ((b.after operation).standing id).map Standing.parent = some link := by
  have hparent (b : Backend) : (b.standing id).map Standing.parent
      = (b.file id).map File.parent := by
    rw [standing, file, Option.map_map, Option.map_map]
    rfl
  rw [hparent] at h ⊢
  obtain ⟨old, hold, rfl⟩ := Option.map_eq_some_iff.mp h
  rw [file_after hold, Option.map_some]
  split
  · cases operation with
    | ring alarm => cases alarm <;> rfl
    | _ => rfl
  · rfl

/-- **Completing a task leaves children under their names**, if what is handed in continues its
history and starts children under their names only. -/
theorem Accounts.named_completeTask (accounts : b.Accounts log) {task : Task}
    (honours : b.Honours task) {delta : List Event} {commands : List Command}
    (continues : task.Continues delta commands)
    (hnames : ∀ start, .startChild start ∈ commands →
      start.workflowId = childName task.info.workflowId start.seq)
    (named : b.standing.Named log) {names : Nat → String} {alarms : List Alarm}
    (h : b.completeTask names task.token delta commands = .ok (b', alarms)) :
    b'.standing.Named (b.carryOut log (.complete task.token delta commands)) := by
  obtain ⟨id, inst, hlookup, hget, ⟨hclosed, -, rfl⟩ | ⟨hopen, b₁, happly, rfl⟩⟩ :=
    completeTask_inv h
  · have hshifts := discard_shifts_of_isClosed accounts.sound (mem_leases hlookup) hget hclosed
    rw [carryOut_of_isClosed hlookup hget hclosed, hshifts.standing]
    exact named
  · have hlease := mem_leases hlookup
    obtain ⟨hinfo, hhistory, -⟩ := honours.outstanding hlease hget hopen
    have hid : task.info.workflowId = id := hinfo ▸ get?_name hget
    have hstanding := honours.standing_recordDelta continues hlease hget hopen
    rw [carryOut_of_isOpen hlookup hget hopen, (enqueue_requeues b₁ id).standing]
    have hledger : Ledger (b.recordDelta task.token id delta).standing log
        ∧ (b.recordDelta task.token id delta).standing.Named log := by
      rw [hstanding]
      exact ⟨accounts.ledger, named⟩
    have hisOpen : (b.recordDelta task.token id delta).standing.IsOpen id := by
      rw [hstanding]
      exact ⟨_, standing_of_get? hget, Instance.isOpen_iff.mp hopen⟩
    have honce := accounts.once continues hget hopen hhistory
    have hall := applyAll_induction
      (P := fun b _ log => Ledger b.standing log ∧ b.standing.Named log)
      ?_ names [] hledger hisOpen honce continues.last
    · rw [happly] at hall
      exact hall.2
    · rintro later _ log _ command hcommand ⟨hledger, hnamed⟩ ⟨standing, hself, hrunning⟩ honce
      rw [later.standing_apply]
      refine ⟨hledger.apply hself hrunning honce _, hnamed.apply hledger honce ?_⟩
      rintro start rfl
      exact hid ▸ hnames start hcommand

/-- What was carried out stays so when a request is served. -/
theorem mem_carryOut (b : Backend) {command : Command} (h : command ∈ log id)
    (request : Settlement.Request) : command ∈ b.carryOut log request id := by
  cases request with
  | complete token delta commands =>
      cases hlookup : b.leases.lookup token with
      | none => simpa only [carryOut, hlookup] using h
      | some workflowId =>
          cases hget : b.get? workflowId with
          | none => simpa only [carryOut, hlookup, hget] using h
          | some inst =>
              simp only [carryOut, hlookup, hget]
              split
              · exact Log.mem_add.mpr (.inl h)
              · exact h
  | fail | abandon => exact h

end Backend

/-! ### The system -/

/-- Whether a job leaves the names of all children open: no turn of its task starts a child through
a stub that names it. -/
def Job.LeavesNames (job : Job) : Prop :=
  ∀ program,
    job.worker.registry.resolve job.task.info.workflowType job.task.info.method = some program →
    ∀ turn ∈ job.task.turns program job.worker.converter, ∀ stub ∈ turn.stubs,
      stub.options.workflowId = none

/-- **A job that leaves names open** asks to start children under their names only. -/
theorem Job.Sound.names {fleet : Worker → Prop} {b : Backend} {job : Job}
    (sound : job.Sound fleet b) (leaves : job.LeavesNames) {token : String} {delta : List Event}
    {commands : List Command} (h : job.left.Asks (.complete token delta commands))
    {start : ChildStart} (hstart : .startChild start ∈ commands) :
    start.workflowId = childName job.task.info.workflowId start.seq := by
  rcases Worker.process_asks (sound.left _ h) with
    ⟨recording, hrequest, ⟨-, rfl⟩ | ⟨program, hresolve, hperform⟩⟩ | ⟨_, _, -, -, hrequest⟩
    | hrequest <;> cases hrequest
  · simp [Worker.unregistered] at hstart
  · obtain ⟨x, course, earlier, -, hissued⟩ := Task.perform_course hperform
    obtain ⟨stub, hstub, hmade⟩ := course.starts_made.2 start
      (hissued ▸ List.mem_append_right earlier hstart)
    obtain ⟨turn, hturn, hstub⟩ := List.mem_flatMap.mp hstub
    have hname := hmade.workflowId
    rw [leaves program hresolve turn hturn stub hstub] at hname
    exact hname

namespace System

variable {fleet : Worker → Prop} {source : Nat → String} {s s' : System}

/-- Whether nobody in a system chooses a name of children: no child was given a name, and no
workflow that was started from outside has a name that looks like that of a child, unless it is from
the source. -/
structure LeavesNames (source : Nat → String) (s : System) : Prop where
  /-- Workers leave the names of children open. -/
  jobs : ∀ job ∈ s.jobs, job.LeavesNames
  /-- Clients choose names that do not look like those of children. -/
  topLevel : ∀ id inst, s.backend.get? id = some inst → inst.parent = none →
    (∃ n, id = source n) ∨ ¬ EndsNumbered id

/-- Whether the names of children are untaken: no child was given a name, and who is no child does
not have the name of one. -/
structure NamesUntaken (s : System) : Prop where
  /-- Workers leave the names of children open. -/
  jobs : ∀ job ∈ s.jobs, job.LeavesNames
  /-- Who is no child does not have the name of one. -/
  topLevel : ∀ id, (s.backend.standing id).map Standing.parent = some none → ¬ EndsNumbered id

/-- Names of children that nobody chooses are untaken if those from the source have no colons. -/
theorem LeavesNames.untaken (leaves : s.LeavesNames source)
    (plain : ∀ n, ':' ∉ (source n).toList) : s.NamesUntaken := by
  refine ⟨leaves.jobs, fun id h => ?_⟩
  rw [Backend.standing, Option.map_map] at h
  obtain ⟨inst, hget, hparent⟩ := Option.map_eq_some_iff.mp h
  rcases leaves.topLevel id inst hget hparent with ⟨n, rfl⟩ | hnot
  · exact not_endsNumbered_of_notMem (plain n)
  · exact hnot

/-- Whose child an instance is stays, whatever happens. -/
theorem Step.parent (sound : s.Sound fleet) (h : Step fleet source s s') {id : String}
    {link : Option ParentLink} (hlink : (s.backend.standing id).map Standing.parent = some link) :
    (s'.backend.standing id).map Standing.parent = some link := by
  rcases h.does sound with hsame | ⟨operation, hafter, -⟩
  · rwa [hsame]
  · rw [hafter]
    exact Backend.parent_after hlink operation

/-- Tasks that a worker took stay taken. -/
theorem Step.jobs (h : Step fleet source s s') {job : Job} (hjob : job ∈ s.jobs) :
    ∃ job' ∈ s'.jobs, job'.worker = job.worker ∧ job'.task = job.task := by
  have hset {i : Nat} {old : Job} (hold : s.jobs[i]? = some old) (left : Settlement) :
      ∃ job' ∈ s.jobs.set i { old with left }, job'.worker = job.worker
        ∧ job'.task = job.task := by
    obtain ⟨j, hj⟩ := List.mem_iff_getElem?.mp hjob
    by_cases hij : i = j
    · subst hij
      rw [hold] at hj
      cases hj
      refine ⟨{ job with left }, List.mem_iff_getElem?.mpr ⟨i, ?_⟩, rfl, rfl⟩
      exact List.getElem?_set_self (List.getElem?_eq_some_iff.mp hold).1
    · exact ⟨job, List.mem_iff_getElem?.mpr ⟨j, (List.getElem?_set_ne hij).trans hj⟩, rfl, rfl⟩
  cases h with
  | start | cancel | idle | abandon | ring => exact ⟨job, hjob, rfl, rfl⟩
  | take => exact ⟨job, List.mem_append_left _ hjob, rfl, rfl⟩
  | serve answer hold => exact hset hold _
  | refuse error hold => exact hset hold _
  | wait hold => exact hset hold _

/-- Names of children that are untaken in the end always were. -/
theorem NamesUntaken.before (untaken : s'.NamesUntaken) (sound : s.Sound fleet)
    (h : Step fleet source s s') : s.NamesUntaken := by
  refine ⟨fun job hjob => ?_, fun id hlink => untaken.topLevel id (h.parent sound hlink)⟩
  obtain ⟨job', hjob', hworker, htask⟩ := h.jobs hjob
  have hleaves := untaken.jobs job' hjob'
  rw [Job.LeavesNames, hworker, htask] at hleaves
  exact hleaves

/-- **Whatever happens leaves children under their names.** -/
theorem Sound.named_step (sound : s.Sound fleet) (h : Step fleet source s s')
    (untaken : s'.NamesUntaken) (named : s.backend.standing.Named s.carriedOut) :
    s'.backend.standing.Named s'.carriedOut := by
  have hstay : s'.backend.standing.Named s.carriedOut :=
    named.stay untaken.topLevel fun _ _ => h.parent sound
  have hbefore := untaken.before sound h
  cases h with
  | @serve _ job _ request next backend alarms answer hjob hleft h =>
      cases request with
      | complete token delta commands =>
          have hmem := List.mem_of_getElem? hjob
          have hasks : job.left.Asks (.complete token delta commands) := hleft ▸ .now _
          have hsound := sound.jobs job hmem
          obtain ⟨rfl, continues⟩ := hsound.continues hasks
          exact sound.accounts.named_completeTask hsound.honoured continues
            (fun _ => hsound.names (hbefore.jobs job hmem) hasks) named h
      | fail | abandon => exact hstay
  | _ => exact hstay

/-- **Children stand under their names in every state that a system can come to**, if these are
untaken. -/
theorem Reachable.named (h : Reachable fleet source s) (untaken : s.NamesUntaken) :
    s.backend.standing.Named s.carriedOut := by
  induction h with
  | initial => exact ⟨nofun, nofun, nofun⟩
  | step hreachable hstep ih =>
      exact hreachable.sound.named_step hstep untaken
        (ih (untaken.before hreachable.sound hstep))

/-! ### Refusals -/

/-- An open instance has heard of no refusal. -/
theorem Reachable.unrefused_of_isOpen (h : Reachable fleet source s) (untaken : s.NamesUntaken)
    {id : String} {inst : Instance} (hstanding : s.backend.standing id = some inst.standing)
    (hopen : inst.isOpen = true) :
    ∀ event ∈ inst.history ++ inst.inFlight ++ inst.pending, event.isRefusal = false := by
  intro event hevent
  by_contra hrefusal
  have hinput : event.isRecord = false := by
    obtain ⟨seq, cause, rfl⟩ := Event.exists_of_isRefusal (Bool.eq_true_of_not_eq_false hrefusal)
    rfl
  have hreceived : event ∈ inst.standing.received := by
    rw [Instance.received_of_isOpen hopen]
    exact List.mem_filter.mpr ⟨hevent, by simp [hinput]⟩
  exact hrefusal ((h.named untaken).unrefused h.sound.accounts.ledger hstanding
    (Instance.isOpen_iff.mp hopen) event hreceived)

/-- A task in the hands of a worker was there before, or is handed out now. -/
theorem Step.task_inv (h : Step fleet source s s') {job' : Job} (hjob' : job' ∈ s'.jobs) :
    (∃ job ∈ s.jobs, job.task = job'.task)
      ∨ ∃ taskQueue backend, s.backend.dispatch taskQueue = (some job'.task, backend) := by
  have hset {i : Nat} {old : Job} (hold : s.jobs[i]? = some old) {left : Settlement}
      (hmem : job' ∈ s.jobs.set i { old with left }) : ∃ job ∈ s.jobs, job.task = job'.task := by
    rcases List.mem_or_eq_of_mem_set hmem with hmem | rfl
    · exact ⟨job', hmem, rfl⟩
    · exact ⟨old, List.mem_of_getElem? hold, rfl⟩
  cases h with
  | start | cancel | idle | abandon | ring => exact .inl ⟨job', hjob', rfl⟩
  | take _ hdispatch =>
      rcases List.mem_append.mp hjob' with hold | hnew
      · exact .inl ⟨job', hold, rfl⟩
      · cases List.mem_singleton.mp hnew
        exact .inr ⟨_, _, hdispatch⟩
  | serve answer hold => exact .inl (hset hold hjob')
  | refuse error hold => exact .inl (hset hold hjob')
  | wait hold => exact .inl (hset hold hjob')

/-- Whatever happens, no history gets a refusal. -/
theorem Reachable.unrefused_step (h : Reachable fleet source s) (untaken : s.NamesUntaken)
    (hstep : Step fleet source s s')
    (hhistory : ∀ id file, s.backend.file id = some file →
      ∀ event ∈ file.history, event.isRefusal = false) {id : String} {file : File}
    (hfile : s'.backend.file id = some file) : ∀ event ∈ file.history, event.isRefusal = false := by
  rcases hstep.does h.sound with hsame | ⟨operation, hafter, hcontinues⟩
  · exact hhistory id file (hsame ▸ hfile)
  · rw [hafter] at hfile
    cases hold : s.backend.file id with
    | none =>
        rcases Backend.file_after_of_none hold operation with hnone | ⟨parent, hnew⟩
        · rw [hnone] at hfile
          cases hfile
        · rw [hnew] at hfile
          cases hfile
          exact List.forall_mem_nil _
    | some old =>
        have hbefore := hhistory id old hold
        rw [Backend.file_after hold] at hfile
        cases hfile
        split
        · rename_i hsubject
          obtain ⟨hrunning, hsubject⟩ := hsubject
          cases operation with
          | complete names token delta commands =>
              obtain ⟨task, honours, rfl, continues⟩ := hcontinues names token delta commands rfl
              obtain ⟨inst, hget, rfl⟩ := Backend.get?_of_file hold
              have hopen := Instance.isOpen_iff.mpr hrunning
              obtain ⟨-, -, hinFlight⟩ :=
                honours.outstanding (Backend.mem_leases hsubject) hget hopen
              refine List.forall_mem_append.mpr ⟨hbefore, fun event hevent => ?_⟩
              by_contra hrefusal
              have hinput : event ∈ DurableWorkflow.inputs task.newEvents := by
                rw [← continues.inputs]
                refine List.mem_filter.mpr ⟨hevent, ?_⟩
                obtain ⟨seq, cause, rfl⟩ :=
                  Event.exists_of_isRefusal (Bool.eq_true_of_not_eq_false hrefusal)
                rfl
              refine hrefusal (h.unrefused_of_isOpen untaken (Backend.standing_of_get? hget) hopen
                event ?_)
              rw [hinFlight]
              exact List.mem_append_left _
                (List.mem_append_right _ (List.mem_filter.mp hinput).1)
          | fail token error =>
              exact List.forall_mem_append.mpr ⟨hbefore, List.forall_mem_singleton.mpr rfl⟩
          | ring alarm =>
              cases alarm with
              | timer => exact hbefore
              | timeout =>
                  exact List.forall_mem_append.mpr ⟨hbefore, List.forall_mem_singleton.mpr rfl⟩
          | _ => exact hbefore
        · exact hbefore

/-- **No start is ever refused**, if the names of children are untaken: no history has a refusal,
and no task that a worker took. -/
theorem Reachable.unrefused (h : Reachable fleet source s) (untaken : s.NamesUntaken) :
    (∀ id file, s.backend.file id = some file → ∀ event ∈ file.history, event.isRefusal = false)
      ∧ ∀ job ∈ s.jobs, ∀ event ∈ job.task.history ++ job.task.newEvents,
        event.isRefusal = false := by
  induction h with
  | initial => exact ⟨nofun, nofun⟩
  | step hreachable hstep ih =>
      have hbefore := untaken.before hreachable.sound hstep
      obtain ⟨hhistory, htasks⟩ := ih hbefore
      refine ⟨fun id file => hreachable.unrefused_step hbefore hstep hhistory, fun job' hjob' => ?_⟩
      rcases hstep.task_inv hjob' with ⟨job, hjob, htask⟩ | ⟨taskQueue, backend, hdispatch⟩
      · exact htask ▸ htasks job hjob
      · rcases Backend.dispatch_inv hdispatch with ⟨hnone, -⟩
          | ⟨b₁, inst, hrequeues, -, hget, -, hopen, hresult, -⟩
        · cases hnone
        · have hstanding := Backend.standing_of_get? hget
          rw [hrequeues.standing] at hstanding
          have hcalm := hreachable.unrefused_of_isOpen hbefore hstanding hopen
          rw [Option.some.inj hresult]
          simp only [List.forall_mem_append] at hcalm ⊢
          exact ⟨hcalm.1.1, hcalm.2⟩

/-! ### Starts that are carried out -/

/-- What was carried out stays so. -/
theorem Step.carriedOut (h : Step fleet source s s') {id : String} {command : Command}
    (hcommand : command ∈ s.carriedOut id) : command ∈ s'.carriedOut id := by
  cases h with
  | @serve _ job _ request next backend alarms answer hjob hleft h =>
      exact s.backend.mem_carryOut hcommand request
  | _ => exact hcommand

/-- What has to hold of the names of children: every start that was carried out is that of an
instance of its own, under the name of its parent with its number, and nobody heard of a refusal. -/
structure NamesChildren (s : System) : Prop where
  /-- Every start was carried out under the name of its parent with its number, and has led to its
  instance. -/
  starts : ∀ id start, .startChild start ∈ s.carriedOut id →
    start.workflowId = childName id start.seq
      ∧ ∃ inst, s.backend.get? (childName id start.seq) = some inst
        ∧ inst.parent = some ⟨id, start.seq⟩
  /-- All children have such names. -/
  children : ∀ id inst link, s.backend.get? id = some inst → inst.parent = some link →
    id = childName link.workflowId link.seq
  /-- No history has a refusal. -/
  histories : ∀ id inst, s.backend.get? id = some inst →
    ∀ event ∈ inst.history, event.isRefusal = false
  /-- Nothing that waits for an open instance is a refusal. -/
  waiting : ∀ id inst, s.backend.get? id = some inst → inst.isOpen = true →
    ∀ event ∈ inst.inFlight ++ inst.pending, event.isRefusal = false
  /-- No task that a worker took has a refusal. -/
  tasks : ∀ job ∈ s.jobs, ∀ event ∈ job.task.history ++ job.task.newEvents, event.isRefusal = false

/-- **A start that is carried out finds its name free.** -/
theorem Reachable.free (h : Reachable fleet source s) (hstep : Step fleet source s s')
    (untaken : s'.NamesUntaken) {id : String} {start : ChildStart}
    (hstart : .startChild start ∈ s'.carriedOut id)
    (hnew : .startChild start ∉ s.carriedOut id) : s.backend.get? start.workflowId = none := by
  have hsound := (h.step hstep).sound
  have hname := ((h.step hstep).named untaken).starts id start hstart
  have hfree := (h.named (untaken.before h.sound hstep)).free h.sound.accounts.ledger hname
    fun other hother hseq => hnew <| by
      rwa [← hsound.accounts.ledger.start_unique (hstep.carriedOut hother) hstart hseq]
  exact Option.map_eq_none_iff.mp hfree

/-- **Names of children never collide.** Let the names of the source have no colons. In every state
that a system can come to in which no child was given a name, and no workflow started from outside
was given one that looks like that of a child, children have the names of their parents with their
numbers, each start that was carried out has created its child, and no start was ever refused.
Whatever happens next, a start that is carried out finds its name free; and at any depth different
children have different names. -/
theorem Reachable.default_names (h : Reachable fleet source s)
    (plain : ∀ n, ':' ∉ (source n).toList) (leaves : s.LeavesNames source) :
    s.NamesChildren
      ∧ (∀ s', Step fleet source s s' → s'.LeavesNames source → ∀ id start,
        .startChild start ∈ s'.carriedOut id → .startChild start ∉ s.carriedOut id →
          s.backend.get? start.workflowId = none ∧ s'.NamesChildren)
      ∧ ∀ parentId parentId' seq seq', childName parentId seq = childName parentId' seq' →
        parentId = parentId' ∧ seq = seq' := by
  have names {s : System} (h : Reachable fleet source s) (untaken : s.NamesUntaken) :
      s.NamesChildren := by
    obtain ⟨hhistories, htasks⟩ := h.unrefused untaken
    have hnamed := h.named untaken
    refine ⟨fun id start hstart => ?_, fun id inst link hget hparent => ?_,
      fun id inst hget => hhistories id _ (Backend.file_of_get? hget), fun id inst hget hopen => ?_,
      htasks⟩
    · have hname := hnamed.starts id start hstart
      refine ⟨hname, ?_⟩
      have hfound := hnamed.found id start hstart
      rw [Backend.standing, Option.map_map, hname] at hfound
      exact Option.map_eq_some_iff.mp hfound
    · obtain ⟨start, hstart, hseq, hname⟩ :=
        h.sound.accounts.ledger.linked id _ link (Backend.standing_of_get? hget) hparent
      rw [← hname, hnamed.starts _ start hstart, hseq]
    · have hcalm := h.unrefused_of_isOpen untaken (Backend.standing_of_get? hget) hopen
      rw [List.append_assoc] at hcalm
      exact (List.forall_mem_append.mp hcalm).2
  refine ⟨names h (leaves.untaken plain), fun s' hstep hleaves id start hstart hnew => ?_,
    fun _ _ _ _ => childName_injective⟩
  have untaken := hleaves.untaken plain
  exact ⟨h.free hstep untaken hstart hnew, names (h.step hstep) untaken⟩

/-! ### A host that does not name its guest -/

/-- A program that starts a guest without a name and waits forever. -/
def inviting : Program :=
  ⟨none, [.perform (.callStart ⟨⟨"Guest", ["stay"]⟩, ⟨none, none, none, false⟩⟩ "stay"
    (.document .null)) ⟨none, none⟩, .perform .forever ⟨none, none⟩]⟩

/-- A worker that runs it. -/
def inviter : Worker :=
  ⟨⟨"main", [⟨⟨"Host", ["receive"]⟩, [("receive", inviting)]⟩]⟩, .json, ⟨10, 0⟩⟩

/-- What is recorded for the task in which it starts. -/
def invitation : Recording :=
  let start : ChildStart := ⟨1, "Guest", "stay", "host::1", "main", "null", none, false⟩
  ⟨hostTask.newEvents ++ [.childInitiated start], [.startChild start]⟩

/-- The guest. -/
def invitedInstance : Instance :=
  ⟨⟨"Guest", "stay", "host::1", Backend.generatedName 2, "main", some "host"⟩, some ⟨"host", 1⟩, [],
    [.executionStarted "Guest" "stay" "null" (some "host")], [], true, none, .running⟩

/-- The system once the task was completed. -/
def invited : System where
  backend := ⟨[{ hostInstance with history := invitation.delta }, invitedInstance],
    [("main", "host::1"), ("main", "host")], [], 1⟩
  alarms := []
  jobs := [⟨inviter, hostTask, .finished (.ok ())⟩]
  carriedOut := Log.add (fun _ => []) "host" invitation.commands

/-- What the worker does with the task. -/
theorem process_invitation : (inviter.process hostTask).1 = inviter.submit hostTask invitation :=
  Worker.process_of_perform rfl (Execution.eq_ok_of_toOption (by decide +kernel))

/-- A worker can start the guest. -/
theorem reachable_invited :
    Reachable (fun worker => worker = inviter) Backend.generatedName invited := by
  have hstart : Backend.empty.startWorkflow (Backend.namesFrom 0)
      ⟨"Host", "receive", some "host", "main", "", none⟩
      = .ok (⟨"host", Backend.generatedName 1⟩,
        ⟨[⟨hostRun, none, [], hostTask.newEvents, [], true, none, .running⟩],
          [("main", "host")], [], 0⟩, []) := rfl
  have htaken : Reachable (fun worker => worker = inviter) Backend.generatedName
      ⟨handed, [], [⟨inviter, hostTask, (inviter.process hostTask).1⟩], fun _ => []⟩ :=
    (Reachable.initial.step (.start hstart)).step (.take rfl rfl)
  rw [process_invitation] at htaken
  have hserve : handed.serve (Backend.namesFrom 2)
      (.complete hostTask.token invitation.delta invitation.commands)
      = .ok (invited.backend, []) := rfl
  have hserved := htaken.step (.serve (i := 0) (.ok ()) rfl
    (rfl : inviter.submit hostTask invitation = .ask _ _) hserve)
  exact hserved

/-- Hexadecimal digits are no colons. -/
theorem colon_notMem_toDigits (n : Nat) : ':' ∉ Nat.toDigits 16 n := by
  induction n using Nat.strongRecOn with
  | ind n ih =>
      rw [Nat.toDigits_eq_if (by decide)]
      split
      · simp
      · simpa using ih (n / 16) (by omega)

/-- Characters that are neither in a text nor among others are not in the text with those behind. -/
theorem notMem_append_ofList {c : Char} {stem : String} {chars : List Char}
    (hstem : c ∉ stem.toList) (hchars : c ∉ chars) : c ∉ (stem ++ String.ofList chars).toList := by
  simp [hstem, hchars]

/-- The names that are drawn here have no colons. -/
theorem colon_notMem_generatedName (n : Nat) : ':' ∉ (Backend.generatedName n).toList := by
  unfold Backend.generatedName
  refine notMem_append_ofList (by simp) fun hmem => ?_
  rcases List.mem_append.mp hmem with hmem | hmem
  · exact absurd (List.mem_replicate.mp hmem).2 (by decide)
  · exact colon_notMem_toDigits n hmem

/-- Nobody chooses a name of children here. -/
theorem leavesNames_invited : invited.LeavesNames Backend.generatedName := by
  refine ⟨List.forall_mem_singleton.mpr fun program hprogram => ?_, fun id inst hget hparent => ?_⟩
  · cases hprogram
    decide +kernel
  · refine .inr (not_endsNumbered_of_notMem ?_)
    have hinst : inst ∈ invited.backend.instances := List.mem_of_find?_eq_some hget
    obtain rfl := Backend.get?_name hget
    rcases List.mem_cons.mp hinst with rfl | hguest
    · decide +kernel
    · cases List.mem_singleton.mp hguest
      cases hparent

/-- The guest has the name of its host with its number. -/
theorem invited_under_own_name : invited.NamesChildren
    ∧ ∃ inst, invited.backend.get? "host::1" = some inst ∧ inst.parent = some ⟨"host", 1⟩ := by
  obtain ⟨hnames, -⟩ :=
    reachable_invited.default_names colon_notMem_generatedName leavesNames_invited
  exact ⟨hnames, (hnames.starts "host" ⟨1, "Guest", "stay", "host::1", "main", "null", none, false⟩
    List.mem_cons_self).2⟩

end System

end DurableWorkflow
