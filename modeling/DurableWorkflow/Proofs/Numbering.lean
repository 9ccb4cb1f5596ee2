import DurableWorkflow.Proofs.Resolution
import Mathlib.Data.List.Forall2
import Mathlib.Data.List.Perm.Subperm

/-!
# How children and timers are numbered

The numbers of the children and timers that an execution has started are those from one on, in the
order in which they were started, whichever threads did it. Under each of them one child or one
timer is registered, for good: in whatever becomes of the execution a child stays in its place with
its name and its future, a timer is armed with its future until it fires, and what is started later
is registered behind. A call that does not lead to a start registers nothing and uses no number.

## Main definitions

* `Child.bare` — what stays of a child throughout its life.
* `Context.Grows` — one context comes of another by registering what commands start.
* `Execution.Registers` — what is registered is what was started.

## Main results

* `Context.Grows.of_moves`, `Context.grows_applyInput` — threads and inputs only register.
* `Execution.grows_step` — so does every event.
* `Context.call_refused`, `Context.invoke_refused` — what leads to no start registers nothing.
* `Course.numbering` — numbers are given out in order, and what has one keeps it.
-/

namespace DurableWorkflow

/-! ### What commands start -/

namespace Command

/-- The start that a command orders, if it is that of a child. -/
def start? : Command → Option ChildStart
  | .startChild start => some start
  | _ => none

/-- The number of the timer that a command starts, if it does. -/
def timer? : Command → Option Nat
  | .startTimer seq _ => some seq
  | _ => none

/-- A command that gives out no number starts no child. -/
theorem start?_of_introduces? {command : Command} (h : command.introduces? = none) :
    command.start? = none := by
  cases command <;> first | rfl | cases h

/-- Nor does it start a timer. -/
theorem timer?_of_introduces? {command : Command} (h : command.introduces? = none) :
    command.timer? = none := by
  cases command <;> first | rfl | cases h

/-- The numbers that commands give out are those of the children and those of the timers. -/
theorem perm_introduces (commands : List Command) :
    ((commands.filterMap start?).map ChildStart.seq ++ commands.filterMap timer?).Perm
      (commands.filterMap introduces?) := by
  induction commands with
  | nil => exact .nil
  | cons command commands ih =>
      cases command with
      | startChild start => exact ih.cons start.seq
      | startTimer seq ms => exact List.perm_middle.trans (ih.cons seq)
      | _ => exact ih

end Command

/-! ### What stays of a child -/

/-- What stays of a child throughout its life: its number, interface, method, name and future. -/
def Child.bare (child : Child) : Child :=
  { child with runId := none, state := .starting, result := none, detached := false
               cancelRequested := false }

/-- Being the child that was started is up to what stays of it. -/
theorem Child.startedBy_bare {child : Child} {start : ChildStart} :
    child.bare.StartedBy start ↔ child.StartedBy start :=
  ⟨fun h => ⟨h.seq, h.workflowType, h.method, h.workflowId⟩,
    fun h => ⟨h.seq, h.workflowType, h.method, h.workflowId⟩⟩

/-- News change nothing that stays. -/
theorem Child.bare_apply {child child' : Child} {transition : ChildTransition}
    {outcome : Option Outcome} (h : child.apply transition = .ok (child', outcome)) :
    child'.bare = child.bare := by
  obtain ⟨-, rfl, -⟩ := Child.apply_eq h
  rfl

/-- Nor does what is asked of children. -/
theorem Children.Alike.bare {children children' : Children} (h : children.Alike children') :
    children'.entries.map Child.bare = children.entries.map Child.bare := by
  obtain ⟨f, hf, rfl⟩ := h
  rw [List.map_map]
  refine List.map_congr_left fun child _ => ?_
  obtain ⟨_, _, heq⟩ := hf child
  rw [Function.comp_apply, heq]
  rfl

/-- Putting a child in its own place. -/
theorem Children.bare_put {children : Children}
    (distinct : (children.entries.map Child.seq).Nodup) {seq : Nat} {child child' : Child}
    (hget : children.get? seq = some child) (hbare : child'.bare = child.bare) :
    (children.put child').entries.map Child.bare = children.entries.map Child.bare := by
  have hseq : child'.bare.seq = child.bare.seq := congrArg Child.seq hbare
  refine (List.map_map ..).trans (List.map_congr_left fun old hold => ?_)
  rw [Function.comp_apply]
  split
  · rename_i hsame
    have hchild : child ∈ children.entries := List.mem_of_find?_eq_some hget
    rw [hbare, List.inj_on_of_nodup_map distinct hold hchild (hsame.trans hseq)]
  · rfl

/-! ### Registering what is started -/

/-- Whether one context comes of another by registering what commands start. -/
structure Context.Grows (c : Context) (commands : List Command) (d : Context) : Prop where
  /-- The children that there were stay in place; those that were started come behind. -/
  children : ∃ started, d.children.entries.map Child.bare
      = c.children.entries.map Child.bare ++ started
    ∧ List.Forall₂ Child.StartedBy started (commands.filterMap Command.start?)
  /-- Timers that are armed were so before, or were started and come behind. -/
  timers : ∃ started : List (Nat × FutureId), d.timers.Sublist (c.timers ++ started)
    ∧ started.map Prod.fst = commands.filterMap Command.timer?

namespace Context

variable {c d e : Context} {commands later : List Command}

/-- Nothing is registered where children and timers stay as they are. -/
theorem Grows.of_alike (hchildren : d.children.entries.map Child.bare
      = c.children.entries.map Child.bare) (htimers : d.timers.Sublist c.timers)
    (hnone : ∀ command ∈ commands, command.introduces? = none) : c.Grows commands d := by
  have hstarts : commands.filterMap Command.start? = [] :=
    List.filterMap_eq_nil_iff.mpr fun command h => Command.start?_of_introduces? (hnone command h)
  have hfires : commands.filterMap Command.timer? = [] :=
    List.filterMap_eq_nil_iff.mpr fun command h => Command.timer?_of_introduces? (hnone command h)
  refine ⟨⟨[], ?_, ?_⟩, ⟨[], ?_, hfires.symm⟩⟩
  · rw [hchildren, List.append_nil]
  · rw [hstarts]
    exact .nil
  · rwa [List.append_nil]

/-- A context comes of itself. -/
theorem Grows.refl (c : Context) : c.Grows [] c :=
  .of_alike rfl (List.Sublist.refl _) (List.forall_mem_nil _)

/-- What is registered later comes behind. -/
theorem Grows.trans (h : c.Grows commands d) (h' : d.Grows later e) :
    c.Grows (commands ++ later) e := by
  obtain ⟨⟨children, hchildren, hstarts⟩, timers, htimers, hfires⟩ := h
  obtain ⟨⟨children', hchildren', hstarts'⟩, timers', htimers', hfires'⟩ := h'
  refine ⟨⟨children ++ children', ?_, ?_⟩, timers ++ timers', ?_, ?_⟩
  · rw [hchildren', hchildren, List.append_assoc]
  · rw [List.filterMap_append]
    exact List.rel_append hstarts hstarts'
  · rw [← List.append_assoc]
    exact htimers'.trans (htimers.append_right timers')
  · rw [List.map_append, hfires, hfires', List.filterMap_append]

/-- Starting a timer registers it. -/
theorem grows_startTimer (ctx : Context) (delay : Duration) :
    ctx.Grows [.startTimer (ctx.lastSeq + 1) delay.millis] (ctx.startTimer delay).2 :=
  ⟨⟨[], (List.append_nil _).symm, .nil⟩, [_], List.Sublist.refl _, rfl⟩

/-- Starting a child registers it. -/
theorem grows_startChild (ctx : Context) (stub : Stub) (method input : String) :
    ∃ start, (ctx.startChild stub method input).2.commands = ctx.commands ++ [.startChild start]
      ∧ ctx.Grows [.startChild start] (ctx.startChild stub method input).2 :=
  ⟨_, rfl, ⟨[_], List.map_append, .cons ⟨rfl, rfl, rfl, rfl⟩ .nil⟩, [],
    (List.append_nil ctx.timers).symm ▸ List.Sublist.refl _, rfl⟩

/-- **Whatever threads do**, what they start is registered, in the order of the commands. -/
theorem Grows.of_moves (h : c.Moves d) :
    ∃ issued, d.commands = c.commands ++ issued ∧ c.Grows issued d := by
  induction h with
  | refl => exact ⟨[], (List.append_nil _).symm, .refl c⟩
  | @tail b d _ hmove ih =>
      obtain ⟨issued, hissued, hgrows⟩ := ih
      have issue {new : List Command} (hcommands : d.commands = b.commands ++ new)
          (hnew : b.Grows new d) : ∃ issued, d.commands = c.commands ++ issued
          ∧ c.Grows issued d :=
        ⟨issued ++ new, by rw [hcommands, hissued, List.append_assoc], hgrows.trans hnew⟩
      rcases hmove.inv with ⟨_, _, _, _, _, rfl⟩ | ⟨delay, rfl⟩ | ⟨stub, method, input, rfl⟩
        | ⟨seq, rfl⟩
      · exact issue (List.append_nil _).symm (.of_alike rfl (List.Sublist.refl _) nofun)
      · exact issue rfl (b.grows_startTimer delay)
      · obtain ⟨start, hcommands, hstart⟩ := b.grows_startChild stub method input
        exact issue hcommands hstart
      · exact issue (List.append_nil _).symm
          (.of_alike (Children.alike_detach _ seq).bare (List.Sublist.refl _) nofun)

/-- **Whatever input comes**, nothing that is registered is overwritten. -/
theorem grows_applyInput {event : Event} (distinct : (c.children.entries.map Child.seq).Nodup)
    (happly : Execution.applyInput c event = .ok d) : c.Grows [] d := by
  rcases Execution.applyInput_inv happly with
    ⟨seq, transition, child, child', outcome, futures, woken, -, hget, hchild, rfl⟩
    | ⟨seq, futures, woken, -, rfl⟩ | ⟨reason, cancelReason, -, rfl⟩
  · exact .of_alike (Children.bare_put distinct hget (Child.bare_apply hchild))
      (List.Sublist.refl _) nofun
  · exact .of_alike rfl List.filter_sublist nofun
  · exact .of_alike rfl (List.Sublist.refl _) nofun

/-! ### Calls that start nothing -/

/-- The slot of a future that was just created. -/
theorem slot?_created (table : FutureTable Waker) :
    table.create.2.slot? table.create.1 = some ⟨none, []⟩ := by
  rw [FutureTable.slot?_create_eq, if_pos rfl]

/-- Making a future that has failed adds the future, which wakes nobody. -/
theorem failedFuture_failed (ctx : Context) (failure : Failure) :
    ∃ future futures, ctx.failedFuture failure = (⟨future, .immediate⟩, { ctx with futures })
      ∧ futures.outcome? future = some (.error failure) := by
  have hslot := slot?_created ctx.futures
  refine ⟨ctx.futures.create.1, (ctx.futures.create.2.resolve ctx.futures.create.1
    (.error failure)).2, Prod.ext rfl ?_, ?_⟩
  · have hwakers : (ctx.futures.create.2.resolve ctx.futures.create.1 (.error failure)).1
        = some [] := by
      rw [FutureTable.resolve, hslot]
    simp only [failedFuture, resolve, hwakers, Option.getD_some, List.foldl_nil]
  · rw [FutureTable.outcome?_resolve hslot, if_pos rfl, FutureTable.outcome?_of_slot? hslot,
      Option.none_or]

/-- **A call that cannot start anything** gives a future that has failed, and nothing else is new:
it issues no command, registers nothing and uses no number. -/
theorem call_refused (ctx : Context) {stub : Stub} {method : String} {args : Json}
    (h : stub.interface.declares method = false ∨ ∃ e, ctx.converter.encode args = .error e) :
    ∃ future futures failure,
      ctx.call stub method args = (⟨future, .immediate⟩, { ctx with futures })
      ∧ futures.outcome? future = some (.error failure) := by
  obtain ⟨failure, hcall⟩ : ∃ failure, ctx.call stub method args = ctx.failedFuture failure := by
    cases hdeclares : stub.interface.declares method with
    | false =>
        exact ⟨.unknownMethod stub.interface.name method, by
          simp only [call, hdeclares, Bool.false_eq_true, if_false]⟩
    | true =>
        obtain ⟨e, he⟩ := h.resolve_left (by simp [hdeclares])
        exact ⟨e.toFailure, by simp only [call, hdeclares, he, if_true]⟩
  obtain ⟨future, futures, heq, houtcome⟩ := ctx.failedFuture_failed failure
  exact ⟨future, futures, failure, hcall.trans heq, houtcome⟩

/-- **A reference that is not eligible** is refused, and nothing changes at all. -/
theorem invoke_refused (ctx : Context) {ref : MethodRef} (args : Json)
    (h : ref.eligibility ≠ .eligible ∨ ref.stub = none) :
    ∃ reason, ctx.invoke ref args = (.error (.ineligibleReference ref.name reason), ctx) := by
  rw [invoke]
  split
  · rename_i heligible hstub
    rcases h with h | h
    · exact absurd heligible h
    · rw [h] at hstub
      cases hstub
  · exact ⟨_, rfl⟩
  · exact ⟨_, rfl⟩

end Context

namespace Execution

variable {x : Execution} {event : Event}

/-- **Every event registers what it starts**, and overwrites nothing. -/
theorem grows_step (booked : x.Booked) (distinct : (x.children.map Child.seq).Nodup)
    (event : Event) : ∃ issued, (x.step event).2.issued = x.issued ++ issued
      ∧ x.context.Grows issued (x.step event).2.context := by
  rcases x.admitted?_inv event with ⟨-, unconfirmed, complete, hstep, -⟩
    | ⟨x', -, haccept, -, hstep⟩
  · rw [hstep]
    exact ⟨[], (List.append_nil _).symm, .refl _⟩
  · have haccepted : x.context.Grows [] x'.context := by
      rcases accept_inv haccept with ⟨-, context, happly, rfl⟩ | ⟨-, _, _, _, _, -, rfl⟩
      · exact Context.grows_applyInput distinct happly
      · exact .refl _
    obtain ⟨hissued, -, hcommands, -⟩ := accept_issued haccept
    obtain ⟨started, hstarted, hrun⟩ := Context.Grows.of_moves x'.runThreads_moves
    obtain ⟨extra, hextra, hnone, -, -⟩ := x'.runThreads.settle_commands
    have hsettle : x'.runThreads.context.Grows extra x'.runThreads.settle.context := by
      refine .of_alike x'.runThreads.alike_settle.bare ?_ hnone
      obtain ⟨_, _, _, heq⟩ := x'.runThreads.settle_eq
      rw [heq]
    have hall := (haccepted.trans hrun).trans hsettle
    refine ⟨started ++ extra, ?_, ?_⟩
    · have hnothing : x'.context.commands = [] := hcommands.trans booked.taken
      rw [hstep, issued_takeCommands, hissued, hextra, hstarted, hnothing, List.nil_append]
      rfl
    · rw [hstep]
      exact ⟨hall.children, hall.timers⟩

/-- What an execution has registered is what it has started. -/
structure Registers (x : Execution) (events : List Event) : Prop where
  /-- Numbers are given out in order, from one on. -/
  numbers : x.issued.filterMap Command.introduces? = List.range' 1 x.context.lastSeq
  /-- The children are those that were started, in order. -/
  children : List.Forall₂ Child.StartedBy x.children (x.issued.filterMap Command.start?)
  /-- The timers that were started have one future each; those are armed that have not fired. -/
  timers : ∃ registered : List (Nat × FutureId),
    registered.map Prod.fst = x.issued.filterMap Command.timer?
      ∧ x.context.timers = registered.filter fun timer => .timerFired timer.1 ∉ events
  /-- No number belongs to two of them. -/
  distinct : (x.children.map Child.seq ++ x.issued.filterMap Command.timer?).Nodup

end Execution

namespace Course

variable {info : RunInfo} {program : Program} {converter : Converter} {x y : Execution}
  {events : List Event} {turns later : List (Turn Context Thread)}

/-- Children that were started have the numbers of their starts. -/
theorem seqs_of_startedBy {children : List Child} {starts : List ChildStart}
    (h : List.Forall₂ Child.StartedBy children starts) :
    children.map Child.seq = starts.map ChildStart.seq := by
  induction h with
  | nil => rfl
  | cons hfirst _ ih => rw [List.map_cons, List.map_cons, hfirst.seq, ih]

/-- An execution that has registered what it started has children with different numbers, and so
have its timers. -/
theorem distinct_of_grows (booked : x.Booked)
    (h : (Context.new info converter).Grows x.issued x.context) :
    List.Forall₂ Child.StartedBy x.children (x.issued.filterMap Command.start?)
      ∧ (x.children.map Child.seq ++ x.issued.filterMap Command.timer?).Nodup := by
  obtain ⟨started, hchildren, hstarts⟩ := h.children
  have hstarted : List.Forall₂ Child.StartedBy x.children (x.issued.filterMap Command.start?) := by
    rw [show started = x.children.map Child.bare from hchildren.symm,
      List.forall₂_map_left_iff] at hstarts
    exact hstarts.imp fun _ _ => Child.startedBy_bare.mp
  have hnodup : (x.issued.filterMap Command.introduces?).Nodup :=
    booked.numbers ▸ List.nodup_range'
  refine ⟨hstarted, ?_⟩
  rw [seqs_of_startedBy hstarted]
  exact (Command.perm_introduces x.issued).nodup_iff.mpr hnodup

/-- **After every course what is registered is what was started.** -/
theorem grows (course : Course info program converter x events turns) :
    (Context.new info converter).Grows x.issued x.context := by
  induction course with
  | new => exact .refl _
  | mode replaying _ ih => exact ⟨ih.children, ih.timers⟩
  | step event course ih =>
      obtain ⟨issued, hissued, hgrows⟩ :=
        Execution.grows_step course.booked (distinct_of_grows course.booked ih).2.of_append_left event
      rw [hissued]
      exact ih.trans hgrows

/-- What becomes of an execution is a course as well. -/
theorem onward (course : Course info program converter x events turns) (h : x.Onward later y) :
    ∃ more, Course info program converter y (events ++ more) (turns ++ later) := by
  induction h with
  | here => exact ⟨[], by simpa using course⟩
  | mode replaying _ ih =>
      obtain ⟨more, hmore⟩ := ih
      exact ⟨more, .mode replaying hmore⟩
  | step event _ ih =>
      obtain ⟨more, hmore⟩ := ih
      have hstep := hmore.step event
      rw [List.append_assoc, List.append_assoc] at hstep
      exact ⟨_, hstep⟩

/-- **In whatever becomes of an execution** what is registered stays so. -/
theorem grows_onward (course : Course info program converter x events turns)
    (h : x.Onward later y) :
    ∃ issued, y.issued = x.issued ++ issued ∧ x.context.Grows issued y.context := by
  induction h with
  | here => exact ⟨[], (List.append_nil _).symm, .refl _⟩
  | mode replaying _ ih =>
      obtain ⟨issued, hissued, hgrows⟩ := ih
      exact ⟨issued, hissued, hgrows.children, hgrows.timers⟩
  | step event honward ih =>
      obtain ⟨issued, hissued, hgrows⟩ := ih
      obtain ⟨more, course'⟩ := course.onward honward
      obtain ⟨issued', hissued', hgrows'⟩ := Execution.grows_step course'.booked
        (distinct_of_grows course'.booked course'.grows).2.of_append_left event
      exact ⟨issued ++ issued', by rw [hissued', hissued, List.append_assoc],
        hgrows.trans hgrows'⟩

/-- Entries that are left of distinct ones, in order, are those that pass the test for it. -/
theorem eq_filter_of_sublist {α : Type} {left all : List α} {test : α → Bool}
    (h : left.Sublist all) (distinct : all.Nodup)
    (hleft : ∀ entry ∈ all, entry ∈ left ↔ test entry = true) : left = all.filter test := by
  have hpass : left.filter test = left :=
    List.filter_eq_self.mpr fun entry hentry => (hleft entry (h.subset hentry)).mp hentry
  have hsublist : left.Sublist (all.filter test) := hpass ▸ h.filter test
  refine hsublist.eq_of_length_le
    (List.Nodup.subperm (distinct.filter test) fun entry hentry => ?_).length_le
  obtain ⟨hmem, htest⟩ := List.mem_filter.mp hentry
  exact (hleft entry hmem).mpr htest

/-- Timers are armed from their start until they fire. -/
theorem registers (course : Course info program converter x events turns) :
    ∃ applied, applied <+: events ∧ (x.complete = false → applied = events)
      ∧ x.Registers applied := by
  obtain ⟨applied, hprefix, hopen, hfollows⟩ := course.follows
  obtain ⟨hchildren, hdistinct⟩ := distinct_of_grows course.booked course.grows
  obtain ⟨registered, hsublist, htimers⟩ := course.grows.timers
  have honce : (registered.map Prod.fst).Nodup := htimers ▸ hdistinct.of_append_right
  refine ⟨applied, hprefix, hopen, course.booked.numbers, hchildren, ⟨registered, htimers, ?_⟩,
    hdistinct⟩
  refine eq_filter_of_sublist hsublist honce.of_map fun timer htimer => ?_
  rw [decide_eq_true_iff]
  refine ⟨fun harmed => ((hfollows.timers timer.1).mp ⟨timer.2, harmed⟩).2, fun hunfired => ?_⟩
  have hstarted : timer.1 ∈ x.issued.filterMap Command.timer? :=
    htimers ▸ List.mem_map_of_mem htimer
  obtain ⟨command, hcommand, hseq⟩ := List.mem_filterMap.mp hstarted
  obtain ⟨ms, rfl⟩ : ∃ ms, command = .startTimer timer.1 ms := by
    cases command <;> cases hseq
    exact ⟨_, rfl⟩
  obtain ⟨future, harmed⟩ := (hfollows.timers timer.1).mpr ⟨⟨ms, hcommand⟩, hunfired⟩
  have hsame := List.inj_on_of_nodup_map honce (hsublist.subset harmed) htimer rfl
  exact hsame ▸ harmed

/-- **Numbers are dense, unique and stable.** After every course the children and timers that were
started have the numbers from one on, in the order of the commands, and under each of them one child
or timer is registered. In whatever becomes of the execution nothing that is registered is
overwritten: later commands follow the earlier ones, and register behind them. A call of a method
that is not declared, or with arguments that have no payload, gives a future that has failed, and a
reference that is not eligible is refused; neither issues a command, registers anything or uses a
number. -/
theorem numbering (course : Course info program converter x events turns) :
    (∃ applied, applied <+: events ∧ (x.complete = false → applied = events)
        ∧ x.Registers applied)
      ∧ (∀ later y, x.Onward later y →
        ∃ issued, y.issued = x.issued ++ issued ∧ x.context.Grows issued y.context)
      ∧ (∀ (ctx : Context) (stub : Stub) (method : String) (args : Json),
        stub.interface.declares method = false ∨ (∃ e, ctx.converter.encode args = .error e) →
          ∃ future futures failure,
            ctx.call stub method args = (⟨future, .immediate⟩, { ctx with futures })
            ∧ futures.outcome? future = some (.error failure))
      ∧ ∀ (ctx : Context) (ref : MethodRef) (args : Json),
        ref.eligibility ≠ .eligible ∨ ref.stub = none →
          ∃ reason, ctx.invoke ref args = (.error (.ineligibleReference ref.name reason), ctx) :=
  ⟨course.registers, fun _ _ honward => course.grows_onward honward,
    fun ctx _ _ _ h => ctx.call_refused h, fun ctx _ args h => ctx.invoke_refused args h⟩

/-- A program of which two threads start something in turns, and which asks in between for what
cannot be started. -/
def dispatching : Program :=
  let mail : Stub := ⟨⟨"Mail", ["send"]⟩, ⟨none, none, none, false⟩⟩
  let start (method : String) : Statement :=
    .perform (.callStart mail method (.document .null)) ⟨none, none⟩
  ⟨none, [.spawn [start "send"] none, .perform (.timer ⟨5000000⟩) ⟨none, none⟩, start "burn",
    .perform (.start mail "burn" (.document .null) false) ⟨none, some "refusal"⟩,
    .perform .pause ⟨none, none⟩, start "send", .perform .forever ⟨none, none⟩]⟩

/-- A run of it whose timer has fired. -/
def dispatched : Execution :=
  (((Execution.new Execution.nap dispatching .json).step postingStart).2.step (.timerFired 1)).2

/-- The timer has the first number and the children have the others, for good. -/
theorem dispatched_registers :
    dispatched.issued.filterMap Command.introduces? = [1, 2, 3]
      ∧ dispatched.children.map Child.seq = [2, 3] ∧ dispatched.context.timers = []
      ∧ ∀ later y, dispatched.Onward later y →
        ∃ issued, y.issued = dispatched.issued ++ issued
          ∧ dispatched.context.Grows issued y.context := by
  have course : Course Execution.nap dispatching .json dispatched _ _ :=
    .step (.timerFired 1) (.step postingStart .new)
  obtain ⟨⟨applied, -, -, hregisters⟩, honward, -⟩ := course.numbering
  have hlast : dispatched.context.lastSeq = 3 := by
    decide +kernel
  refine ⟨?_, by decide +kernel, by decide +kernel, honward⟩
  rw [hregisters.numbers, hlast]
  rfl

end Course

end DurableWorkflow
