import DurableWorkflow.Proofs.Bookkeeping

/-!
# What an execution waits for

An execution that has accepted some inputs has registered the children that it started, each in the
state that the inputs tell of, and its timers are armed until they fire. So which inputs it will
accept next can be told from the commands it has issued and the inputs it has got, whatever its
program is.

## Main definitions

* `news` — the events about the child with a sequence number.
* `Context.Tracks`, `Execution.Tracks` — what the children and timers of an execution have to do
  with the inputs it has accepted.
* `Due` — which inputs may come next.

## Main results

* `Execution.Tracks.step` — every accepted input keeps track.
* `Execution.record_executionStarted`, `Execution.record_due` — what is due is accepted.
-/

namespace DurableWorkflow

/-! ### News of children -/

/-- Whether an event tells about the child with a sequence number. -/
def Event.isNewsOf (seq : Nat) (event : Event) : Bool :=
  (Execution.childNews? event).map Prod.fst = some seq

/-- The events about the child with a sequence number. -/
def news (seq : Nat) (events : List Event) : List Event :=
  events.filter (Event.isNewsOf seq)

/-- Later events add their news. -/
@[simp] theorem news_append (seq : Nat) (a b : List Event) :
    news seq (a ++ b) = news seq a ++ news seq b :=
  List.filter_append a b

/-- There may be no news in an event. -/
theorem news_singleton_of_not {seq : Nat} {event : Event} (h : event.isNewsOf seq = false) :
    news seq [event] = [] := by
  simp [news, h]

/-- The news in an event about one child. -/
theorem news_singleton {seq : Nat} {event : Event}
    (h : ∀ other, event.isNewsOf other = decide (seq = other)) (other : Nat) :
    news other [event] = if other = seq then [event] else [] := by
  by_cases hother : other = seq
  · rw [if_pos hother]
    simp [news, h, hother]
  · rw [if_neg hother, news_singleton_of_not]
    rw [h]
    exact decide_eq_false (Ne.symm hother)

/-- What a parent hears when a child closes is news of it, and of no other. -/
theorem Status.isNewsOf_report? {status : Status} {seq : Nat} {event : Event}
    (h : status.report? seq = some event) (other : Nat) :
    event.isNewsOf other = decide (seq = other) := by
  cases status <;> cases h <;> simp [Event.isNewsOf, Execution.childNews?]

/-- There is something to hear when a child closes. -/
theorem Status.report?_of_terminal {status : Status} (terminal : status.isTerminal = true)
    (seq : Nat) : ∃ event, status.report? seq = some event := by
  cases status with
  | running => cases terminal
  | _ => exact ⟨_, rfl⟩

/-- Which child an event tells about. -/
theorem Event.isNewsOf_of_childNews {event : Event} {seq : Nat} {transition : ChildTransition}
    (h : Execution.childNews? event = some (seq, transition)) (other : Nat) :
    event.isNewsOf other = decide (seq = other) := by
  simp [isNewsOf, h]

/-- Other events tell about no child. -/
theorem Event.isNewsOf_of_none {event : Event} (h : Execution.childNews? event = none)
    (other : Nat) : event.isNewsOf other = false := by
  simp [isNewsOf, h]

/-- The state of a child that has not ended, by the events about it. -/
def ChildState.heard : List Event → Option ChildState
  | [] => some .starting
  | [.childStarted _ _] => some .running
  | _ => none

/-- A child of which something was heard and that has not ended has just been started. -/
theorem ChildState.heard_concat {events : List Event} {event : Event} {state : ChildState}
    (h : heard (events ++ [event]) = some state) :
    events = [] ∧ (∃ seq runId, event = .childStarted seq runId) ∧ state = .running := by
  rcases events with _ | ⟨first, _ | ⟨second, rest⟩⟩
  · cases event <;> simp_all [heard]
  · simp [heard] at h
  · simp [heard] at h

namespace Children

variable {children : Children} {child : Child} {seq : Nat}

/-- A child is found under its number. -/
theorem seq_of_get? (h : children.get? seq = some child) : child.seq = seq := by
  simpa using List.find?_some h

/-- Changing children without renumbering them. -/
theorem get?_map {f : Child → Child} (hf : ∀ child, (f child).seq = child.seq)
    (children : Children) (seq : Nat) :
    (⟨children.entries.map f⟩ : Children).get? seq = (children.get? seq).map f := by
  have hsame : ((fun child : Child => decide (child.seq = seq)) ∘ f)
      = fun child => decide (child.seq = seq) := by
    funext child
    simp [hf]
  rw [get?, get?, List.find?_map, hsame]

/-- Putting a child in the place of another. -/
theorem get?_put (children : Children) (child : Child) (seq : Nat) :
    (children.put child).get? seq
      = (children.get? seq).map fun old => if seq = child.seq then child else old := by
  rw [put, get?_map]
  · cases hget : children.get? seq with
    | none => rfl
    | some old =>
        obtain rfl := seq_of_get? hget
        rfl
  · intro old
    split
    · rename_i h
      exact h.symm
    · rfl

/-- Adding a child. -/
theorem get?_register (children : Children) (child : Child) (seq : Nat) :
    (children.register child).get? seq
      = (children.get? seq).or (if child.seq = seq then some child else none) := by
  rw [get?, register, List.find?_append, get?]
  congr 1
  by_cases h : child.seq = seq <;> simp [h]

/-- No child has a number above all others. -/
theorem get?_eq_none (h : ∀ child ∈ children.entries, child.seq < seq) :
    children.get? seq = none := by
  refine List.find?_eq_none.mpr fun child hchild => ?_
  have hlt := h child hchild
  simp only [decide_eq_true_eq]
  omega

/-- Whether children are the same but for what may change while nothing is heard about them. -/
def Matches (children children' : Children) : Prop :=
  ∃ f : Child → Child, (∀ child, (f child).seq = child.seq ∧ (f child).state = child.state)
    ∧ children' = ⟨children.entries.map f⟩

/-- Children match themselves. -/
theorem Matches.refl (children : Children) : children.Matches children :=
  ⟨id, fun _ => ⟨rfl, rfl⟩, by rw [List.map_id]⟩

/-- Asking children to cancel changes neither their numbers nor their states. -/
theorem matches_requestCancel (children : Children) :
    children.Matches children.requestCancel.2 := by
  refine ⟨_, fun child => ?_, rfl⟩
  split <;> exact ⟨rfl, rfl⟩

end Children

/-- A transition that a child accepts is applied. -/
theorem Child.apply_of_accepts {child : Child} {transition : ChildTransition}
    (h : child.accepts transition = true) :
    ∃ child' outcome, child.apply transition = .ok (child', outcome) := by
  simp only [apply]
  rw [if_pos h]
  cases transition <;> exact ⟨_, _, rfl⟩

/-- A child keeps its number, and it runs once it was started. -/
theorem Child.apply_inv {child child' : Child} {transition : ChildTransition}
    {outcome : Option Outcome} (h : child.apply transition = .ok (child', outcome)) :
    child'.seq = child.seq ∧ ∀ runId, transition = .started runId → child'.state = .running := by
  simp only [apply] at h
  split at h
  · cases transition with
    | started =>
        cases h
        exact ⟨rfl, fun _ _ => rfl⟩
    | _ =>
        cases h
        exact ⟨rfl, nofun⟩
  · cases h

/-! ### Keeping track -/

/-- What the children and timers of a context have to do with the inputs that it got and the
commands that were issued for it. -/
structure Context.Tracks (ctx : Context) (events : List Event) (issued : List Command) : Prop where
  /-- Children have numbers that were given out. -/
  below : ∀ child ∈ ctx.children.entries, child.seq ≤ ctx.lastSeq
  /-- Nothing was heard about others. -/
  unknown : ∀ seq, ctx.children.get? seq = none → news seq events = []
  /-- A child that has not ended is in the state that was heard of. -/
  states : ∀ seq child state, ctx.children.get? seq = some child →
    ChildState.heard (news seq events) = some state → child.state = state
  /-- Children that were started are registered. -/
  children : ∀ start, .startChild start ∈ issued → (ctx.children.get? start.seq).isSome
  /-- Timers that were started are armed until they fire. -/
  timers : ∀ seq ms, .startTimer seq ms ∈ issued → .timerFired seq ∉ events →
    (ctx.timers.lookup seq).isSome

/-- A timer stays armed when another one is disarmed. -/
theorem lookup_filter_of_ne {timers : List (Nat × FutureId)} {seq other : Nat} {future : FutureId}
    (hne : other ≠ seq) (h : timers.lookup other = some future) :
    (timers.filter fun timer => timer.1 ≠ seq).lookup other = some future := by
  induction timers with
  | nil => cases h
  | cons timer timers ih =>
      rw [List.lookup_cons] at h
      by_cases htimer : timer.1 = seq
      · have hother : (other == timer.1) = false := by simpa [htimer] using hne
        rw [hother] at h
        simpa [htimer] using ih h
      · have hfilter : (timer :: timers).filter (fun timer => timer.1 ≠ seq)
            = timer :: timers.filter fun timer => timer.1 ≠ seq := by
          simp [htimer]
        rw [hfilter, List.lookup_cons]
        cases hother : other == timer.1 with
        | true => rwa [hother] at h
        | false =>
            rw [hother] at h
            exact ih h

namespace Context.Tracks

variable {ctx ctx' : Context} {events : List Event} {issued issued' : List Command}

/-- Commands that give out no number start nothing. -/
theorem of_issued (h : ctx.Tracks events issued)
    (hissued : ∀ command ∈ issued', command.introduces?.isSome → command ∈ issued) :
    ctx.Tracks events issued' :=
  ⟨h.below, h.unknown, h.states, fun start hstart => h.children start (hissued _ hstart rfl),
    fun seq ms hstart => h.timers seq ms (hissued _ hstart rfl)⟩

/-- An event that is no news of children may come at any time. -/
theorem append (h : ctx.Tracks events issued) {event : Event}
    (hevent : ∀ seq, event.isNewsOf seq = false) : ctx.Tracks (events ++ [event]) issued := by
  have hnone (seq : Nat) : news seq (events ++ [event]) = news seq events := by
    rw [news_append, news_singleton_of_not (hevent seq), List.append_nil]
  refine ⟨h.below, ?_, ?_, h.children, ?_⟩
  · intro seq hseq
    rw [hnone]
    exact h.unknown seq hseq
  · intro seq child state hchild hstate
    rw [hnone] at hstate
    exact h.states seq child state hchild hstate
  · intro seq ms hstart hfired
    exact h.timers seq ms hstart fun hmem => hfired (List.mem_append_left _ hmem)

/-- Children may change as long as they keep their numbers and states. -/
theorem of_matches (h : ctx.Tracks events issued) (hmatches : ctx.children.Matches ctx'.children)
    (htimers : ctx'.timers = ctx.timers) (hlast : ctx'.lastSeq = ctx.lastSeq) :
    ctx'.Tracks events issued := by
  obtain ⟨f, hf, hchildren⟩ := hmatches
  have hget (seq : Nat) : ctx'.children.get? seq = (ctx.children.get? seq).map f := by
    rw [hchildren]
    exact Children.get?_map (fun child => (hf child).1) ctx.children seq
  refine ⟨?_, ?_, ?_, ?_, ?_⟩
  · intro child hchild
    rw [hchildren] at hchild
    obtain ⟨old, hold, rfl⟩ := List.mem_map.mp hchild
    rw [hlast, (hf old).1]
    exact h.below old hold
  · intro seq hnone
    rw [hget, Option.map_eq_none_iff] at hnone
    exact h.unknown seq hnone
  · intro seq child state hchild hheard
    rw [hget, Option.map_eq_some_iff] at hchild
    obtain ⟨old, hold, rfl⟩ := hchild
    rw [(hf old).2]
    exact h.states seq old state hold hheard
  · intro start hstart
    rw [hget, Option.isSome_map]
    exact h.children start hstart
  · rw [htimers]
    exact h.timers

/-- Starting a timer. -/
theorem startTimer (h : ctx.Tracks events (issued ++ ctx.commands)) (delay : Duration) :
    (ctx.startTimer delay).2.Tracks events (issued ++ (ctx.startTimer delay).2.commands) := by
  refine ⟨fun child hchild => Nat.le_succ_of_le (h.below child hchild), h.unknown, h.states, ?_, ?_⟩
  · intro start hstart
    refine h.children start ?_
    simpa [Context.startTimer, Context.issue] using hstart
  · intro seq ms hstart hfired
    have hlookup : (ctx.startTimer delay).2.timers.lookup seq
        = (ctx.timers.lookup seq).or
          (List.lookup seq [(ctx.lastSeq + 1, ctx.futures.create.1)]) := List.lookup_append
    rw [hlookup, Option.isSome_or]
    have hcases : .startTimer seq ms ∈ issued ++ ctx.commands ∨ seq = ctx.lastSeq + 1 := by
      simp only [Context.startTimer, Context.issue, List.mem_append, List.mem_singleton] at hstart ⊢
      rcases hstart with hstart | hstart | hstart
      · exact .inl (.inl hstart)
      · exact .inl (.inr hstart)
      · cases hstart
        exact .inr rfl
    rcases hcases with hold | rfl
    · rw [h.timers seq ms hold hfired, Bool.true_or]
    · simp

/-- Starting a child. -/
theorem startChild (h : ctx.Tracks events (issued ++ ctx.commands)) (stub : Stub)
    (method input : String) :
    (ctx.startChild stub method input).2.Tracks events
      (issued ++ (ctx.startChild stub method input).2.commands) := by
  obtain ⟨start, hseq, hchildren, hcommands⟩ : ∃ start : ChildStart, start.seq = ctx.lastSeq + 1
      ∧ (ctx.startChild stub method input).2.children
        = ctx.children.register (.ofStart start ctx.futures.create.1)
      ∧ (ctx.startChild stub method input).2.commands = ctx.commands ++ [.startChild start] :=
    ⟨_, rfl, rfl, rfl⟩
  have hnone : ctx.children.get? (ctx.lastSeq + 1) = none :=
    Children.get?_eq_none fun child hchild => Nat.lt_succ_of_le (h.below child hchild)
  have hget (seq : Nat) : (ctx.startChild stub method input).2.children.get? seq
      = (ctx.children.get? seq).or
        (if ctx.lastSeq + 1 = seq then some (.ofStart start ctx.futures.create.1) else none) := by
    rw [hchildren, Children.get?_register, Child.ofStart, hseq]
  refine ⟨?_, ?_, ?_, ?_, ?_⟩
  · intro child hchild
    rw [hchildren] at hchild
    rcases List.mem_append.mp hchild with hold | hnew
    · exact Nat.le_succ_of_le (h.below child hold)
    · cases List.mem_singleton.mp hnew
      exact Nat.le_of_eq hseq
  · intro seq hseq'
    rw [hget, Option.or_eq_none_iff] at hseq'
    exact h.unknown seq hseq'.1
  · intro seq child state hchild hheard
    rw [hget] at hchild
    by_cases hnew : ctx.lastSeq + 1 = seq
    · subst hnew
      rw [hnone, if_pos rfl] at hchild
      cases hchild
      rw [h.unknown _ hnone] at hheard
      cases hheard
      rfl
    · rw [if_neg hnew, Option.or_none] at hchild
      exact h.states seq child state hchild hheard
  · intro other hother
    rw [hget, Option.isSome_or]
    rw [hcommands, ← List.append_assoc, List.mem_append, List.mem_singleton] at hother
    rcases hother with hold | hnew
    · rw [h.children other hold, Bool.true_or]
    · cases hnew
      rw [if_pos hseq.symm, Option.isSome_some, Bool.or_true]
  · intro seq ms htimer hfired
    refine h.timers seq ms ?_ hfired
    rw [hcommands, ← List.append_assoc, List.mem_append, List.mem_singleton] at htimer
    rcases htimer with hold | hnew
    · exact hold
    · cases hnew

/-- **Whatever threads do, track is kept.** -/
theorem moves (h : ctx.Moves ctx') (tracks : ctx.Tracks events (issued ++ ctx.commands)) :
    ctx'.Tracks events (issued ++ ctx'.commands) := by
  induction h with
  | refl => exact tracks
  | tail _ h ih =>
      rcases h.inv with ⟨_, _, _, _, _, rfl⟩ | ⟨delay, rfl⟩ | ⟨stub, method, input, rfl⟩
        | ⟨seq, rfl⟩
      · exact ⟨ih.below, ih.unknown, ih.states, ih.children, ih.timers⟩
      · exact ih.startTimer delay
      · exact ih.startChild stub method input
      · refine ih.of_matches ⟨_, fun child => ?_, rfl⟩ rfl rfl
        split <;> exact ⟨rfl, rfl⟩

/-- A child changes when something is heard about it. -/
theorem put (h : ctx.Tracks events issued) {event : Event} {seq : Nat} {child child' : Child}
    (hnews : ∀ other, event.isNewsOf other = decide (seq = other))
    (hget : ctx.children.get? seq = some child) (hseq : child'.seq = child.seq)
    (hrunning : ∀ seq runId, event = .childStarted seq runId → child'.state = .running)
    (hchildren : ctx'.children = ctx.children.put child') (htimers : ctx'.timers = ctx.timers)
    (hlast : ctx'.lastSeq = ctx.lastSeq) : ctx'.Tracks (events ++ [event]) issued := by
  have hput (other : Nat) : ctx'.children.get? other
      = (ctx.children.get? other).map fun old => if other = seq then child' else old := by
    rw [hchildren, Children.get?_put, hseq, Children.seq_of_get? hget]
  have hheard (other : Nat) : news other (events ++ [event])
      = news other events ++ if other = seq then [event] else [] := by
    rw [news_append, news_singleton hnews]
  refine ⟨?_, ?_, ?_, ?_, ?_⟩
  · intro other hother
    rw [hchildren] at hother
    obtain ⟨old, hold, rfl⟩ := List.mem_map.mp hother
    rw [hlast]
    split
    · rename_i hsame
      exact hsame ▸ h.below old hold
    · exact h.below old hold
  · intro other hnone
    rw [hput, Option.map_eq_none_iff] at hnone
    have hother : other ≠ seq := by
      rintro rfl
      rw [hget] at hnone
      cases hnone
    rw [hheard, if_neg hother, List.append_nil]
    exact h.unknown other hnone
  · intro other now state hnow hstate
    rw [hput, Option.map_eq_some_iff] at hnow
    obtain ⟨old, hold, rfl⟩ := hnow
    rw [hheard] at hstate
    by_cases hother : other = seq
    · -- only the report of its start leaves a child in a state that can be heard of
      rw [if_pos hother] at hstate ⊢
      obtain ⟨-, ⟨_, runId, hevent⟩, rfl⟩ := ChildState.heard_concat hstate
      exact hrunning _ runId hevent
    · rw [if_neg hother, List.append_nil] at hstate
      rw [if_neg hother]
      exact h.states other old state hold hstate
  · intro start hstart
    rw [hput, Option.isSome_map]
    exact h.children start hstart
  · intro other ms hstart hfired
    rw [htimers]
    exact h.timers other ms hstart fun hmem => hfired (List.mem_append_left _ hmem)

/-- A timer is disarmed when it fires. -/
theorem disarm (h : ctx.Tracks events issued) (seq : Nat) (hchildren : ctx'.children = ctx.children)
    (htimers : ctx'.timers = ctx.timers.filter fun timer => timer.1 ≠ seq)
    (hlast : ctx'.lastSeq = ctx.lastSeq) : ctx'.Tracks (events ++ [.timerFired seq]) issued := by
  have hquiet : ctx.Tracks (events ++ [.timerFired seq]) issued :=
    h.append (Event.isNewsOf_of_none rfl)
  refine ⟨?_, ?_, ?_, ?_, ?_⟩
  · rw [hchildren, hlast]
    exact hquiet.below
  · rw [hchildren]
    exact hquiet.unknown
  · rw [hchildren]
    exact hquiet.states
  · rw [hchildren]
    exact hquiet.children
  · intro other ms hstart hfired
    obtain ⟨hbefore, hother⟩ : .timerFired other ∉ events ∧ other ≠ seq := by
      simpa using hfired
    obtain ⟨future, hfuture⟩ := Option.isSome_iff_exists.mp (h.timers other ms hstart hbefore)
    rw [htimers, lookup_filter_of_ne hother hfuture]
    rfl

/-- **Whatever input is applied, track is kept.** -/
theorem applyInput {event : Event} (h : ctx.Tracks events issued)
    (happly : Execution.applyInput ctx event = .ok ctx') :
    ctx'.Tracks (events ++ [event]) issued := by
  rcases Execution.applyInput_inv happly with
    ⟨seq, transition, child, child', outcome, futures, woken, hnews, hget, hchild, rfl⟩
    | ⟨seq, futures, woken, rfl, rfl⟩ | ⟨reason, cancelReason, rfl, rfl⟩
  · obtain ⟨hseq, hrunning⟩ := Child.apply_inv hchild
    refine h.put (Event.isNewsOf_of_childNews hnews) hget hseq ?_ rfl rfl rfl
    rintro _ runId rfl
    cases hnews
    exact hrunning runId rfl
  · exact h.disarm seq rfl rfl rfl
  · have hquiet : ctx.Tracks (events ++ [.cancelRequested reason]) issued :=
      h.append (Event.isNewsOf_of_none rfl)
    exact ⟨hquiet.below, hquiet.unknown, hquiet.states, hquiet.children, hquiet.timers⟩

end Context.Tracks

namespace Execution

variable {x y : Execution} {events : List Event} {event : Event} {recording : Recording}

/-- What an execution that has not closed has to do with the inputs that it has accepted. -/
structure Tracks (x : Execution) (events : List Event) : Prop where
  /-- The first input started it. -/
  started : x.complete = false → events ≠ [] → x.started = true
  /-- It keeps track of children and timers. -/
  context : x.complete = false → x.context.Tracks events x.issued

/-- A new execution has nothing to keep track of. -/
theorem tracks_new (info : RunInfo) (program : Program) (converter : Converter) :
    (new info program converter).Tracks [] := by
  refine ⟨fun _ h => absurd rfl h, fun _ => ⟨fun child h => ?_, fun _ _ => rfl,
    fun seq child state h => ?_, fun start h => ?_, fun seq ms h => ?_⟩⟩ <;> cases h

/-- Settling changes no child but for the request to cancel. -/
theorem settle_children (x : Execution) :
    x.context.children.Matches x.settle.context.children := by
  rcases x.settle_inv with ⟨_, -, h⟩ | ⟨_, -, -, h⟩ | ⟨_, -, -, h⟩ | ⟨_, -, h⟩ | h <;> rw [h]
  · exact .refl _
  · exact x.context.children.matches_requestCancel
  · exact x.context.children.matches_requestCancel
  · exact .refl _
  · exact .refl _

/-- Settling keeps track. -/
theorem tracks_settle {issued : List Command}
    (h : x.context.Tracks events (issued ++ x.context.commands)) :
    x.settle.context.Tracks events (issued ++ x.settle.context.commands) := by
  obtain ⟨extra, hcommands, hnone, -, -⟩ := x.settle_commands
  obtain ⟨_, _, _, heq⟩ := x.settle_eq
  have htracks : x.settle.context.Tracks events (issued ++ x.context.commands) := by
    refine h.of_matches x.settle_children ?_ ?_ <;> rw [heq]
  refine htracks.of_issued fun command hcommand hsome => ?_
  rw [hcommands, ← List.append_assoc, List.mem_append] at hcommand
  rcases hcommand with hold | hnew
  · exact hold
  · rw [hnone command hnew] at hsome
    cases hsome

/-- An accepted input keeps track. -/
theorem Tracks.accept (tracks : x.Tracks events) (hopen : x.complete = false)
    (h : x.accept event = .ok y) :
    y.started = true ∧ y.context.Tracks (events ++ [event]) y.issued := by
  rcases accept_inv h with ⟨hstarted, context, happly, rfl⟩ | ⟨-, _, _, _, _, rfl, rfl⟩
  · exact ⟨hstarted, (tracks.context hopen).applyInput happly⟩
  · exact ⟨rfl, (tracks.context hopen).append (Event.isNewsOf_of_none rfl)⟩

/-- **Every accepted input keeps track.** -/
theorem Tracks.step (live : x.Live) (booked : x.Booked) (tracks : x.Tracks events)
    {outcome : StepOutcome} (h : x.step event = (.ok outcome, y)) :
    y.Tracks (events ++ [event]) := by
  have closed {z : Execution} (hz : z.complete = true) : z.Tracks (events ++ [event]) := by
    refine ⟨fun hopen => ?_, fun hopen => ?_⟩ <;> rw [hz] at hopen <;> cases hopen
  rw [step_input live.unconfirmed (live.isRecord_of_step h)] at h
  split at h
  · cases h
    exact closed rfl
  · split at h
    · rename_i hcomplete
      cases h
      exact closed hcomplete
    · rename_i hopen
      split at h
      · cases h
      · rename_i x' haccept
        cases h
        have htracks : x.counted.Tracks events := ⟨tracks.started, tracks.context⟩
        have hfalse : x.complete = false := by simpa using hopen
        obtain ⟨hstarted, hcontext⟩ := htracks.accept hfalse haccept
        have hcommands : x'.context.commands = [] :=
          (accept_issued haccept).2.2.1.trans booked.taken
        have hrun : x'.runThreads.context.Tracks (events ++ [event])
            (x'.issued ++ x'.runThreads.context.commands) := by
          refine Context.Tracks.moves x'.runThreads_moves ?_
          rwa [hcommands, List.append_nil]
        obtain ⟨_, _, heq⟩ := x'.runThreads_eq
        obtain ⟨_, _, _, heq'⟩ := x'.runThreads.settle_eq
        refine ⟨fun _ _ => ?_, fun _ => ?_⟩
        · have hsettled : x'.runThreads.settle.started = true := by
            rw [heq', heq]
            exact hstarted
          exact hsettled
        · have hsettled := tracks_settle hrun
          rw [issued_takeCommands]
          exact ⟨hsettled.below, hsettled.unknown, hsettled.states, hsettled.children,
            hsettled.timers⟩

/-- Recording keeps track. -/
theorem Tracks.record (live : x.Live) (booked : x.Booked) {earlier : List Event}
    (tracks : x.Tracks earlier) (h : x.record events = (.ok recording, y)) :
    y.Tracks (earlier ++ events) := by
  induction events generalizing x earlier recording with
  | nil =>
      cases h
      rwa [List.append_nil]
  | cons event events ih =>
      obtain ⟨outcome, x', rest, hstep, hrest, rfl⟩ := record_cons_ok h
      have live' := live.step event
      have booked' := booked.step event
      rw [hstep] at live' booked'
      have hfinal := ih live' booked' (tracks.step live booked hstep) hrest
      rwa [List.append_assoc, List.singleton_append] at hfinal

end Execution

/-! ### What is due -/

/-- Which inputs may come next after some others, by the commands that were issued: the answer to
the start of a child and, once it was started, its end, a timer that has not fired, and requests to
cancel. -/
inductive Due (issued : List Command) (events : List Event) : Event → Prop
  | started (start : ChildStart) (runId : String) :
      .startChild start ∈ issued → news start.seq events = [] →
      Due issued events (.childStarted start.seq runId)
  | refused (start : ChildStart) (cause : Failure) :
      .startChild start ∈ issued → news start.seq events = [] →
      Due issued events (.childStartFailed start.seq cause)
  | ended (start : ChildStart) (runId : String) {status : Status} {event : Event} :
      .startChild start ∈ issued → news start.seq events = [.childStarted start.seq runId] →
      status.report? start.seq = some event → Due issued events event
  | fired (seq ms : Nat) :
      .startTimer seq ms ∈ issued → .timerFired seq ∉ events → Due issued events (.timerFired seq)
  | cancel (reason : String) : events ≠ [] → Due issued events (.cancelRequested reason)

namespace Due

variable {issued issued' : List Command} {events : List Event} {event : Event}

/-- What is due is an input. -/
theorem isRecord (due : Due issued events event) : event.isRecord = false := by
  cases due with
  | @ended _ _ status _ _ _ hreport => cases status <;> cases hreport <;> rfl
  | _ => rfl

/-- Nothing is due before the first input. -/
theorem ne_nil (due : Due issued events event) (h : events = [] → issued = []) : events ≠ [] := by
  intro hnil
  have hissued := h hnil
  subst hissued
  cases due with
  | cancel _ hstarted => exact hstarted hnil
  | _ => contradiction

/-- Only commands that give out numbers matter. -/
theorem mono (due : Due issued events event)
    (h : ∀ command ∈ issued, command.introduces?.isSome → command ∈ issued') :
    Due issued' events event := by
  cases due with
  | started start runId hstart hnews => exact .started start runId (h _ hstart rfl) hnews
  | refused start cause hstart hnews => exact .refused start cause (h _ hstart rfl) hnews
  | ended start runId hstart hnews hreport =>
      exact .ended start runId (h _ hstart rfl) hnews hreport
  | fired seq ms hstart hfired => exact .fired seq ms (h _ hstart rfl) hfired
  | cancel reason hstarted => exact .cancel reason hstarted

end Due

namespace Execution

variable {ctx : Context} {issued : List Command} {events : List Event} {event : Event}

/-- News that a child accepts are applied. -/
theorem applyInput_news {seq : Nat} {transition : ChildTransition} {child : Child}
    (hnews : childNews? event = some (seq, transition)) (hget : ctx.children.get? seq = some child)
    (haccepts : child.accepts transition = true) : ∃ ctx', applyInput ctx event = .ok ctx' := by
  obtain ⟨child', outcome, happly⟩ := Child.apply_of_accepts haccepts
  simp only [applyInput, hnews, Children.apply, hget, happly]
  cases outcome <;> exact ⟨_, rfl⟩

/-- **What is due is applied.** -/
theorem applyInput_due (tracks : ctx.Tracks events issued) (due : Due issued events event) :
    ∃ ctx', applyInput ctx event = .ok ctx' := by
  have child {start : ChildStart} {state : ChildState} (hstart : .startChild start ∈ issued)
      (hheard : ChildState.heard (news start.seq events) = some state) :
      ∃ child, ctx.children.get? start.seq = some child ∧ child.state = state := by
    obtain ⟨child, hchild⟩ := Option.isSome_iff_exists.mp (tracks.children start hstart)
    exact ⟨child, hchild, tracks.states start.seq child state hchild hheard⟩
  cases due with
  | started start runId hstart hnews =>
      obtain ⟨child, hchild, hstate⟩ := child hstart (by rw [hnews]; rfl)
      exact applyInput_news rfl hchild (by simp [Child.accepts, hstate])
  | refused start cause hstart hnews =>
      obtain ⟨child, hchild, hstate⟩ := child hstart (by rw [hnews]; rfl)
      exact applyInput_news rfl hchild (by simp [Child.accepts, hstate])
  | @ended start runId status event hstart hnews hreport =>
      obtain ⟨child, hchild, hstate⟩ := child hstart (by rw [hnews]; rfl)
      cases status <;> cases hreport <;>
        exact applyInput_news rfl hchild (by simp [Child.accepts, hstate, ChildState.isTerminal])
  | fired seq ms hstart hfired =>
      obtain ⟨future, hfuture⟩ := Option.isSome_iff_exists.mp (tracks.timers seq ms hstart hfired)
      have hnone : childNews? (.timerFired seq) = none := rfl
      simp only [applyInput, hnone, hfuture]
      exact ⟨_, rfl⟩
  | cancel reason hstarted => exact ⟨_, rfl⟩

variable {info : RunInfo} {program : Program} {converter : Converter} {x : Execution}
  {recording : Recording}

/-- A new execution accepts its start. -/
theorem record_executionStarted (info : RunInfo) (program : Program) (converter : Converter)
    (workflowType method input : String) (parent : Option String) :
    ∃ recording x, (new info program converter).record
      [.executionStarted workflowType method input parent] = (.ok recording, x) := by
  have hstep : ∃ outcome y, (new info program converter).step
      (.executionStarted workflowType method input parent) = (.ok outcome, y) := by
    rw [step_input rfl rfl]
    exact ⟨_, _, rfl⟩
  obtain ⟨outcome, y, hstep⟩ := hstep
  exact ⟨_, y, record_cons hstep (record_nil y)⟩

/-- **What is due is accepted**, whatever the program does. -/
theorem record_due (h : (new info program converter).record events = (.ok recording, x))
    (due : Due recording.commands events event) :
    ∃ rest y, x.record [event] = (.ok rest, y) := by
  have live := (live_new info program converter).record events
  have tracks := (tracks_new info program converter).record (live_new info program converter)
    (booked_new info program converter) h
  obtain ⟨booked, hissued⟩ := issued_record (booked_new info program converter) h
  rw [h] at live
  have hstep : ∃ outcome y, x.step event = (.ok outcome, y) := by
    rw [step_input live.unconfirmed due.isRecord]
    split
    · exact ⟨_, _, rfl⟩
    · split
      · exact ⟨_, _, rfl⟩
      · rename_i hopen
        have hfalse : x.complete = false := by simpa using hopen
        have hcommands : x.issued = recording.commands := hissued
        have hstarted : x.counted.started = true := by
          refine tracks.started hfalse (due.ne_nil fun hnil => ?_)
          subst hnil
          cases h
          rfl
        obtain ⟨ctx', happly⟩ := applyInput_due (tracks.context hfalse) (hcommands ▸ due)
        have haccept : x.counted.accept event = .ok { x.counted with context := ctx' } := by
          have hcontext : x.counted.context = x.context := rfl
          simp only [accept]
          rw [if_pos hstarted, hcontext, happly]
        rw [haccept]
        exact ⟨_, _, rfl⟩
  obtain ⟨outcome, y, hstep⟩ := hstep
  exact ⟨_, y, record_cons hstep (record_nil y)⟩

end Execution

end DurableWorkflow
