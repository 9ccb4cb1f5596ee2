import DurableWorkflow.Proofs.Cancellation

/-!
# The protocol of children and timers

An open execution accepts an event about a child exactly if it started the child and what it heard
of it is still a lifetime with the event: the start is acknowledged or refused once and at first,
and the end comes once and last. It accepts the firing of a timer exactly if it started the timer
and it has not fired. The state, the run and the result of a child are what the accepted events say,
whatever the program did in between.

## Main definitions

* `told` — what was heard of the child with a sequence number.
* `Lifetime` — what may be heard of a child.
* `Child.Follows` — a child is what was heard of it.
* `Context.Follows` — children and timers are what commands and events say.

## Main results

* `Child.Follows.accepts_iff`, `Child.Follows.apply` — one event about a child.
* `Context.Follows.moves`, `Context.Follows.applyInput` — threads and inputs keep the invariant.
* `Course.follows` — it holds after every course.
* `Course.protocol` — which events an execution accepts, and what becomes of its children.
-/

namespace DurableWorkflow

/-! ### The life of a child -/

/-- What was heard of the child with a sequence number, in order. -/
def told (seq : Nat) (events : List Event) : List ChildTransition :=
  events.filterMap fun event =>
    match Execution.childNews? event with
    | some (other, transition) => if other = seq then some transition else none
    | none => none

/-- Later events add what is heard in them. -/
theorem told_append (seq : Nat) (events later : List Event) :
    told seq (events ++ later) = told seq events ++ told seq later :=
  List.filterMap_append

/-- What is heard in an event about a child. -/
theorem told_singleton {event : Event} {seq : Nat} {transition : ChildTransition}
    (h : Execution.childNews? event = some (seq, transition)) (other : Nat) :
    told other [event] = if seq = other then [transition] else [] := by
  rw [told, List.filterMap_cons, h]
  split <;> rename_i hseq <;> simp_all

/-- Nothing is heard in other events. -/
theorem told_singleton_of_none {event : Event} (h : Execution.childNews? event = none)
    (seq : Nat) : told seq [event] = [] := by
  simp [told, h]

/-- What was heard of a child came with some event. -/
theorem mem_told {seq : Nat} {events : List Event} {transition : ChildTransition}
    (h : transition ∈ told seq events) :
    ∃ event ∈ events, Execution.childNews? event = some (seq, transition) := by
  obtain ⟨event, hevent, hnews⟩ := List.mem_filterMap.mp h
  refine ⟨event, hevent, ?_⟩
  split at hnews
  · rename_i other news hsome
    split at hnews <;> cases hnews
    rename_i hseq
    exact hseq ▸ hsome
  · cases hnews

namespace ChildTransition

/-- Whether a child that was started ends. -/
def isEnd : ChildTransition → Bool
  | .completed _ | .failed _ | .cancelled _ | .timedOut => true
  | .started _ | .startFailed _ => false

/-- The state that a child is in afterwards. -/
def state : ChildTransition → ChildState
  | .started _ => .running
  | .completed _ => .completed
  | .startFailed _ | .failed _ => .failed
  | .cancelled _ => .cancelled
  | .timedOut => .timedOut

/-- The run that is acknowledged. -/
def runId? : ChildTransition → Option String
  | .started runId => some runId
  | _ => none

end ChildTransition

/-- What may be heard of a child, once something was: its start was acknowledged or refused, or it
has come to an end, with or without the acknowledgement before. -/
inductive Lifetime : List ChildTransition → Prop
  | started (runId : String) : Lifetime [.started runId]
  | refused (cause : Failure) : Lifetime [.startFailed cause]
  | ended {transition : ChildTransition} : transition.isEnd = true → Lifetime [transition]
  | ran (runId : String) {transition : ChildTransition} :
      transition.isEnd = true → Lifetime [.started runId, transition]

/-- The last news of a lifetime come first, or they are an end after an acknowledgement. -/
theorem Lifetime.concat {news : List ChildTransition} {transition : ChildTransition}
    (h : Lifetime (news ++ [transition])) :
    news = [] ∨ ∃ runId, news = [.started runId] ∧ transition.isEnd = true := by
  rcases news with _ | ⟨first, _ | ⟨second, rest⟩⟩
  · exact .inl rfl
  · cases h with
    | ran runId hend => exact .inr ⟨runId, rfl, hend⟩
  · rcases rest with _ | ⟨third, rest⟩ <;> cases h

namespace Child

/-- Whether a child is the one that was started. -/
structure StartedBy (child : Child) (start : ChildStart) : Prop where
  /-- It has the number. -/
  seq : child.seq = start.seq
  /-- It has the interface. -/
  workflowType : child.workflowType = start.workflowType
  /-- It was started through the method. -/
  method : child.method = start.method
  /-- It has the name. -/
  workflowId : child.workflowId = start.workflowId

/-- Whether a child is what was heard of it. -/
structure Follows (child : Child) (news : List ChildTransition) : Prop where
  /-- Nothing was heard yet, or a lifetime. -/
  lifetime : news = [] ∨ Lifetime news
  /-- It is in the state that the last news say, and else about to start. -/
  state : child.state = (news.getLast?.map ChildTransition.state).getD .starting
  /-- Its run is the one that was acknowledged. -/
  runId : child.runId = news.findSome? ChildTransition.runId?
  /-- Its result is what the last news say, with its interface and name. -/
  result : child.result = (news.getLast?.bind child.ending).map Prod.snd

variable {child child' : Child} {news : List ChildTransition} {transition : ChildTransition}

/-- What is asked of a child does not matter. -/
theorem Follows.of_eq (h : child.Follows news) (htype : child'.workflowType = child.workflowType)
    (hname : child'.workflowId = child.workflowId) (hstate : child'.state = child.state)
    (hrun : child'.runId = child.runId) (hresult : child'.result = child.result) :
    child'.Follows news := by
  refine ⟨h.lifetime, hstate.trans h.state, hrun.trans h.runId, hresult.trans (h.result.trans ?_)⟩
  congr 2
  funext transition
  cases transition <;> simp [ending, htype, hname]

/-- **A child accepts news exactly if they make a lifetime** with what was heard before. -/
theorem Follows.accepts_iff (h : child.Follows news) :
    child.accepts transition = true ↔ Lifetime (news ++ [transition]) := by
  have hstate := h.state
  rcases h.lifetime with rfl | hlifetime
  · constructor
    · intro _
      cases transition with
      | started runId => exact .started runId
      | startFailed cause => exact .refused cause
      | _ => exact .ended rfl
    · intro _
      cases transition <;> simp_all [accepts, ChildState.isTerminal]
  · cases hlifetime with
    | started runId =>
        constructor
        · intro haccepts
          cases transition with
          | started | startFailed => simp_all [accepts, ChildTransition.state]
          | _ => exact .ran runId rfl
        · rintro ⟨⟩
          cases transition <;> simp_all [accepts, ChildTransition.state, ChildTransition.isEnd,
            ChildState.isTerminal]
    | refused cause =>
        have hrefuses : child.accepts transition = false := by
          cases transition <;> simp_all [accepts, ChildTransition.state, ChildState.isTerminal]
        simp only [hrefuses, Bool.false_eq_true, false_iff]
        rintro ⟨⟩
    | @ended last hend =>
        have hrefuses : child.accepts transition = false := by
          cases last <;> cases hend <;> cases transition <;>
            simp_all [accepts, ChildTransition.state, ChildState.isTerminal]
        simp only [hrefuses, Bool.false_eq_true, false_iff]
        rintro ⟨⟩
        cases hend
    | @ran runId last hend =>
        have hrefuses : child.accepts transition = false := by
          cases last <;> cases hend <;> cases transition <;>
            simp_all [accepts, ChildTransition.state, ChildState.isTerminal]
        simp only [hrefuses, Bool.false_eq_true, false_iff]
        rintro ⟨⟩

/-- A child that accepts news changes to the state, the run and the result that they say. -/
theorem apply_eq {outcome : Option Outcome} (h : child.apply transition = .ok (child', outcome)) :
    child.accepts transition = true ∧ child' = { child with
        state := transition.state
        runId := transition.runId?.or child.runId
        result := ((child.ending transition).map Prod.snd).or child.result }
      ∧ outcome = (child.ending transition).map Prod.snd := by
  simp only [apply] at h
  split at h
  · rename_i haccepts
    cases transition <;> cases h <;> exact ⟨haccepts, rfl, rfl⟩
  · cases h

/-- A child has ended exactly if its end is in the news. -/
theorem Follows.isTerminal_iff (h : child.Follows news) :
    child.state.isTerminal = true ↔ ∃ transition ∈ news, transition.state.isTerminal = true := by
  have hstate := h.state
  rcases h.lifetime with rfl | hlifetime
  · simp_all [ChildState.isTerminal]
  · cases hlifetime <;> simp_all [ChildTransition.state, ChildState.isTerminal]

/-- A child that accepts news has no result before. -/
theorem Follows.result_of_apply {outcome : Option Outcome} (h : child.Follows news)
    (happly : child.apply transition = .ok (child', outcome)) : child.result = none := by
  have hlifetime := h.accepts_iff.mp (apply_eq happly).1
  have hresult := h.result
  rcases hlifetime.concat with rfl | ⟨runId, rfl, -⟩
  · exact hresult
  · exact hresult

/-- **A child stays what was heard of it.** -/
theorem Follows.apply {outcome : Option Outcome} (h : child.Follows news)
    (happly : child.apply transition = .ok (child', outcome)) :
    child'.Follows (news ++ [transition]) := by
  have hnone := h.result_of_apply happly
  obtain ⟨haccepts, rfl, -⟩ := apply_eq happly
  have hlifetime := h.accepts_iff.mp haccepts
  have hrun := h.runId
  refine ⟨.inr hlifetime, ?_, ?_, ?_⟩
  · simp
  · rcases hlifetime.concat with rfl | ⟨runId, rfl, hend⟩
    · cases transition <;> simp_all [ChildTransition.runId?]
    · have hacknowledged : child.runId = some runId := hrun
      cases transition <;> cases hend <;> exact hacknowledged
  · rw [hnone, Option.or_none, List.getLast?_concat, Option.bind_some]
    cases transition <;> rfl

end Child

/-! ### Children and timers of a context -/

/-- Whether children are the same but for what is asked of them. -/
def Children.Alike (children children' : Children) : Prop :=
  ∃ f : Child → Child, (∀ child, ∃ detached cancelRequested,
    f child = { child with detached, cancelRequested })
    ∧ children' = ⟨children.entries.map f⟩

/-- Children are like themselves. -/
theorem Children.Alike.refl (children : Children) : children.Alike children :=
  ⟨id, fun child => ⟨child.detached, child.cancelRequested, rfl⟩, by rw [List.map_id]⟩

/-- Detaching a child. -/
theorem Children.alike_detach (children : Children) (seq : Nat) :
    children.Alike (children.detach seq) := by
  refine ⟨_, fun child => ?_, rfl⟩
  split <;> exact ⟨_, _, rfl⟩

/-- Asking children to cancel. -/
theorem Children.alike_requestCancel (children : Children) :
    children.Alike children.requestCancel.2 := by
  refine ⟨_, fun child => ?_, rfl⟩
  split <;> exact ⟨_, _, rfl⟩

namespace Execution

variable {ctx ctx' : Context} {event : Event} {seq : Nat}

/-- A timer that is armed fires, and resolves its future. -/
theorem applyInput_timerFired (ctx : Context) (seq : Nat) : applyInput ctx (.timerFired seq)
    = match ctx.timers.lookup seq with
      | some future => .ok (({ ctx with
          timers := ctx.timers.filter fun timer => timer.1 ≠ seq } : Context).resolve future
            (.ok ""))
      | none => .error (.unknownTimer seq) :=
  rfl

/-- Timers that are armed are found by their numbers. -/
theorem lookup_isSome {timers : List (Nat × FutureId)} :
    (timers.lookup seq).isSome = true ↔ ∃ future, (seq, future) ∈ timers := by
  simp [List.lookup_isSome_iff]

/-- A timer fires exactly if it is armed. -/
theorem applyInput_timerFired_iff :
    (∃ ctx', applyInput ctx (.timerFired seq) = .ok ctx')
      ↔ ∃ future, (seq, future) ∈ ctx.timers := by
  rw [applyInput_timerFired, ← lookup_isSome]
  cases ctx.timers.lookup seq <;> simp

/-- News of a child fit exactly if there is the child and it accepts them. -/
theorem applyInput_news_iff {transition : ChildTransition}
    (hnews : childNews? event = some (seq, transition)) : (∃ ctx', applyInput ctx event = .ok ctx')
      ↔ ∃ child, ctx.children.get? seq = some child ∧ child.accepts transition = true := by
  constructor
  · rintro ⟨ctx', happly⟩
    rcases applyInput_inv happly with ⟨_, _, child, _, _, _, _, hnews', hget, hchild, -⟩
      | ⟨_, _, _, rfl, -⟩ | ⟨_, _, rfl, -⟩
    · cases hnews.symm.trans hnews'
      exact ⟨child, hget, (Child.apply_eq hchild).1⟩
    · cases hnews
    · cases hnews
  · rintro ⟨child, hget, haccepts⟩
    exact applyInput_news hnews hget haccepts

/-- What is wrong with news of a child that do not fit. -/
theorem applyInput_news_error {transition : ChildTransition} {divergence : Divergence}
    (hnews : childNews? event = some (seq, transition))
    (happly : applyInput ctx event = .error divergence) :
    ∃ fault, divergence = .lifecycle fault := by
  simp only [applyInput, hnews] at happly
  split at happly
  · cases happly
    exact ⟨_, rfl⟩
  · split at happly <;> cases happly

end Execution

/-- What the children and timers of a context have to do with the commands that were issued for it
and the events that were applied to it. -/
structure Context.Follows (ctx : Context) (events : List Event) (issued : List Command) :
    Prop where
  /-- Whoever was started is a child. -/
  children : ∀ start, .startChild start ∈ issued →
    ∃ child, ctx.children.get? start.seq = some child ∧ child.StartedBy start
  /-- Children have numbers that were given out. -/
  below : ∀ child ∈ ctx.children.entries, child.seq ≤ ctx.lastSeq
  /-- A child is what was heard of it. -/
  follows : ∀ child ∈ ctx.children.entries, child.Follows (told child.seq events)
  /-- A timer is armed if it was started and has not fired. -/
  timers : ∀ seq, (∃ future, (seq, future) ∈ ctx.timers)
    ↔ (∃ ms, .startTimer seq ms ∈ issued) ∧ .timerFired seq ∉ events
  /-- So have timers. -/
  armed : ∀ timer ∈ ctx.timers, timer.1 ≤ ctx.lastSeq
  /-- Nothing was heard of children with numbers that were not given out. -/
  unheard : ∀ seq, ctx.lastSeq < seq → told seq events = []
  /-- No timer fired with such a number. -/
  unfired : ∀ seq, ctx.lastSeq < seq → .timerFired seq ∉ events

namespace Context.Follows

variable {ctx ctx' : Context} {events : List Event} {issued issued' : List Command}

/-- Only commands that start something matter. -/
theorem of_issued (h : ctx.Follows events issued)
    (hsame : ∀ command, command.introduces?.isSome → (command ∈ issued' ↔ command ∈ issued)) :
    ctx.Follows events issued' := by
  refine ⟨?_, h.below, h.follows, ?_, h.armed, h.unheard, h.unfired⟩
  · intro start hstart
    exact h.children start ((hsame _ rfl).mp hstart)
  · intro seq
    have htimer (ms : Nat) : .startTimer seq ms ∈ issued' ↔ .startTimer seq ms ∈ issued :=
      hsame _ rfl
    simp only [htimer]
    exact h.timers seq

/-- Other events may come at any time. -/
theorem append (h : ctx.Follows events issued) {event : Event}
    (hchild : Execution.childNews? event = none) (htimer : ∀ seq, event ≠ .timerFired seq) :
    ctx.Follows (events ++ [event]) issued := by
  have htold (seq : Nat) : told seq (events ++ [event]) = told seq events := by
    rw [told_append, told_singleton_of_none hchild, List.append_nil]
  have hfired (seq : Nat) : .timerFired seq ∈ events ++ [event] ↔ .timerFired seq ∈ events := by
    simp [(htimer seq).symm]
  refine ⟨h.children, h.below, ?_, ?_, h.armed, ?_, ?_⟩
  · intro child hmem
    rw [htold]
    exact h.follows child hmem
  · intro seq
    rw [hfired]
    exact h.timers seq
  · intro seq hseq
    rw [htold]
    exact h.unheard seq hseq
  · intro seq hseq
    rw [hfired]
    exact h.unfired seq hseq

/-- What is asked of children does not matter. -/
theorem of_alike (h : ctx.Follows events issued) (halike : ctx.children.Alike ctx'.children)
    (htimers : ctx'.timers = ctx.timers) (hlast : ctx'.lastSeq = ctx.lastSeq) :
    ctx'.Follows events issued := by
  obtain ⟨f, hf, hchildren⟩ := halike
  have hseq (child : Child) : (f child).seq = child.seq := by
    obtain ⟨_, _, heq⟩ := hf child
    rw [heq]
  refine ⟨?_, ?_, ?_, ?_, ?_, ?_, ?_⟩
  · intro start hstart
    obtain ⟨child, hget, hby⟩ := h.children start hstart
    refine ⟨f child, ?_, ?_⟩
    · rw [hchildren, Children.get?_map hseq, hget, Option.map_some]
    · obtain ⟨_, _, heq⟩ := hf child
      rw [heq]
      exact ⟨hby.seq, hby.workflowType, hby.method, hby.workflowId⟩
  · rw [hchildren, hlast]
    refine List.forall_mem_map.mpr fun child hmem => ?_
    rw [hseq]
    exact h.below child hmem
  · rw [hchildren]
    refine List.forall_mem_map.mpr fun child hmem => ?_
    obtain ⟨_, _, heq⟩ := hf child
    rw [heq]
    exact (h.follows child hmem).of_eq rfl rfl rfl rfl rfl
  · rw [htimers]
    exact h.timers
  · rw [htimers, hlast]
    exact h.armed
  · rw [hlast]
    exact h.unheard
  · rw [hlast]
    exact h.unfired

/-- Starting a timer. -/
theorem startTimer (h : ctx.Follows events (issued ++ ctx.commands)) (delay : Duration) :
    (ctx.startTimer delay).2.Follows events (issued ++ (ctx.startTimer delay).2.commands) := by
  obtain ⟨future, htimers, hcommands, hchildren, hlast⟩ : ∃ future,
      (ctx.startTimer delay).2.timers = ctx.timers ++ [(ctx.lastSeq + 1, future)]
        ∧ (ctx.startTimer delay).2.commands
          = ctx.commands ++ [.startTimer (ctx.lastSeq + 1) delay.millis]
        ∧ (ctx.startTimer delay).2.children = ctx.children
        ∧ (ctx.startTimer delay).2.lastSeq = ctx.lastSeq + 1 :=
    ⟨_, rfl, rfl, rfl, rfl⟩
  rw [hcommands, ← List.append_assoc]
  refine ⟨?_, ?_, ?_, ?_, ?_, ?_, ?_⟩
  · intro start hstart
    rw [hchildren]
    refine h.children start ?_
    simpa using hstart
  · intro child hmem
    rw [hchildren] at hmem
    exact hlast ▸ Nat.le_succ_of_le (h.below child hmem)
  · rw [hchildren]
    exact h.follows
  · intro seq
    have hnew : .timerFired (ctx.lastSeq + 1) ∉ events := h.unfired _ (Nat.lt_succ_self _)
    have hold := h.timers seq
    rw [htimers]
    by_cases hseq : seq = ctx.lastSeq + 1
    · subst hseq
      refine ⟨fun _ => ⟨⟨delay.millis, ?_⟩, hnew⟩, fun _ => ⟨future, ?_⟩⟩
      · exact List.mem_append_right _ (List.mem_singleton_self _)
      · exact List.mem_append_right _ (List.mem_singleton_self _)
    · simpa [hseq, Ne.symm hseq] using hold
  · rw [htimers, hlast]
    refine List.forall_mem_append.mpr ⟨fun timer hmem => ?_, ?_⟩
    · exact Nat.le_succ_of_le (h.armed timer hmem)
    · exact List.forall_mem_singleton.mpr (Nat.le_refl _)
  · intro seq hseq
    exact h.unheard seq (by omega)
  · intro seq hseq
    exact h.unfired seq (by omega)

/-- Starting a child. -/
theorem startChild (h : ctx.Follows events (issued ++ ctx.commands)) (stub : Stub)
    (method input : String) : (ctx.startChild stub method input).2.Follows events
      (issued ++ (ctx.startChild stub method input).2.commands) := by
  obtain ⟨start, future, hseq, hchildren, hcommands, htimers, hlast⟩ :
      ∃ start future, start.seq = ctx.lastSeq + 1
        ∧ (ctx.startChild stub method input).2.children
          = ctx.children.register (.ofStart start future)
        ∧ (ctx.startChild stub method input).2.commands = ctx.commands ++ [.startChild start]
        ∧ (ctx.startChild stub method input).2.timers = ctx.timers
        ∧ (ctx.startChild stub method input).2.lastSeq = ctx.lastSeq + 1 :=
    ⟨_, _, rfl, rfl, rfl, rfl, rfl⟩
  rw [hcommands, ← List.append_assoc]
  refine ⟨?_, ?_, ?_, ?_, ?_, ?_, ?_⟩
  · intro other hother
    rw [hchildren, Children.get?_register]
    rcases List.mem_append.mp hother with hold | hnew
    · obtain ⟨child, hget, hby⟩ := h.children other hold
      exact ⟨child, by rw [hget, Option.some_or], hby⟩
    · cases List.mem_singleton.mp hnew
      have hnone : ctx.children.get? start.seq = none :=
        Children.get?_eq_none fun child hchild => by
          have hbelow := h.below child hchild
          omega
      refine ⟨.ofStart start future, ?_, rfl, rfl, rfl, rfl⟩
      rw [hnone, Option.none_or]
      exact if_pos rfl
  · rw [hchildren, hlast]
    refine List.forall_mem_append.mpr ⟨fun child hmem => ?_, ?_⟩
    · exact Nat.le_succ_of_le (h.below child hmem)
    · exact List.forall_mem_singleton.mpr (Nat.le_of_eq hseq)
  · rw [hchildren]
    refine List.forall_mem_append.mpr ⟨h.follows, List.forall_mem_singleton.mpr ?_⟩
    have hnothing : told (Child.ofStart start future).seq events = [] :=
      h.unheard start.seq (by omega)
    rw [hnothing]
    exact ⟨.inl rfl, rfl, rfl, rfl⟩
  · intro seq
    rw [htimers]
    simpa using h.timers seq
  · rw [htimers, hlast]
    intro timer hmem
    exact Nat.le_succ_of_le (h.armed timer hmem)
  · intro seq hseq
    exact h.unheard seq (by omega)
  · intro seq hseq
    exact h.unfired seq (by omega)

/-- **Whatever threads do.** -/
theorem moves (h : ctx.Moves ctx') (follows : ctx.Follows events (issued ++ ctx.commands)) :
    ctx'.Follows events (issued ++ ctx'.commands) := by
  induction h with
  | refl => exact follows
  | tail _ hmove ih =>
      rcases hmove.inv with ⟨_, _, _, _, _, rfl⟩ | ⟨delay, rfl⟩ | ⟨stub, method, input, rfl⟩
        | ⟨seq, rfl⟩
      · exact ⟨ih.children, ih.below, ih.follows, ih.timers, ih.armed, ih.unheard, ih.unfired⟩
      · exact ih.startTimer delay
      · exact ih.startChild stub method input
      · exact ih.of_alike (Children.alike_detach _ seq) rfl rfl

/-- Something is heard of a child. -/
theorem put (h : ctx.Follows events issued) {event : Event} {seq : Nat} {child child' : Child}
    {transition : ChildTransition} {outcome : Option Outcome}
    (hnews : Execution.childNews? event = some (seq, transition))
    (hget : ctx.children.get? seq = some child)
    (happly : child.apply transition = .ok (child', outcome))
    (hchildren : ctx'.children = ctx.children.put child') (htimers : ctx'.timers = ctx.timers)
    (hlast : ctx'.lastSeq = ctx.lastSeq) : ctx'.Follows (events ++ [event]) issued := by
  obtain ⟨-, heq, -⟩ := Child.apply_eq happly
  have hchild : child ∈ ctx.children.entries := List.mem_of_find?_eq_some hget
  have hseq : child.seq = seq := Children.seq_of_get? hget
  have hseq' : child'.seq = seq := by rw [heq, ← hseq]
  have htold (other : Nat) : told other (events ++ [event])
      = told other events ++ if seq = other then [transition] else [] := by
    rw [told_append, told_singleton hnews]
  have hfired (other : Nat) : .timerFired other ∈ events ++ [event]
      ↔ .timerFired other ∈ events := by
    have hother : event ≠ .timerFired other := by
      rintro rfl
      cases hnews
    simp [hother.symm]
  refine ⟨?_, ?_, ?_, ?_, ?_, ?_, ?_⟩
  · intro start hstart
    obtain ⟨old, hold, hby⟩ := h.children start hstart
    rw [hchildren, Children.get?_put, hold, Option.map_some]
    refine ⟨_, rfl, ?_⟩
    split
    · rename_i hsame
      rw [hsame, hseq', hget] at hold
      cases hold
      rw [heq]
      exact ⟨hby.seq, hby.workflowType, hby.method, hby.workflowId⟩
    · exact hby
  · rw [hchildren, hlast]
    refine List.forall_mem_map.mpr fun old hold => ?_
    split
    · rw [hseq', ← hseq]
      exact h.below child hchild
    · exact h.below old hold
  · rw [hchildren]
    refine List.forall_mem_map.mpr fun old hold => ?_
    split
    · rw [hseq', htold, if_pos rfl, ← hseq]
      exact (h.follows child hchild).apply happly
    · rename_i hother
      rw [htold, if_neg (fun h => hother (h.symm.trans hseq'.symm)), List.append_nil]
      exact h.follows old hold
  · intro other
    rw [htimers, hfired]
    exact h.timers other
  · rw [htimers, hlast]
    exact h.armed
  · intro other hother
    rw [hlast] at hother
    have hbelow := h.below child hchild
    rw [htold, if_neg (by omega), List.append_nil]
    exact h.unheard other hother
  · intro other hother
    rw [hfired]
    exact h.unfired other (hlast ▸ hother)

/-- A timer fires. -/
theorem disarm (h : ctx.Follows events issued) {seq : Nat}
    (harmed : ∃ future, (seq, future) ∈ ctx.timers) (hchildren : ctx'.children = ctx.children)
    (htimers : ctx'.timers = ctx.timers.filter fun timer => timer.1 ≠ seq)
    (hlast : ctx'.lastSeq = ctx.lastSeq) : ctx'.Follows (events ++ [.timerFired seq]) issued := by
  have htold (other : Nat) : told other (events ++ [.timerFired seq]) = told other events := by
    rw [told_append, told_singleton_of_none rfl, List.append_nil]
  refine ⟨?_, ?_, ?_, ?_, ?_, ?_, ?_⟩
  · rw [hchildren]
    exact h.children
  · rw [hchildren, hlast]
    exact h.below
  · rw [hchildren]
    intro child hmem
    rw [htold]
    exact h.follows child hmem
  · intro other
    have hother := h.timers other
    rw [htimers]
    by_cases hsame : other = seq
    · subst hsame
      simp
    · simpa [hsame] using hother
  · rw [htimers, hlast]
    intro timer hmem
    exact h.armed timer (List.mem_filter.mp hmem).1
  · intro other hother
    rw [htold]
    exact h.unheard other (hlast ▸ hother)
  · intro other hother hfired
    rcases List.mem_append.mp hfired with hold | hnew
    · exact h.unfired other (hlast ▸ hother) hold
    · cases List.mem_singleton.mp hnew
      obtain ⟨future, hmem⟩ := harmed
      have hgiven := h.armed _ hmem
      omega

/-- **Whatever input comes.** -/
theorem applyInput {event : Event} (h : ctx.Follows events issued)
    (happly : Execution.applyInput ctx event = .ok ctx') :
    ctx'.Follows (events ++ [event]) issued := by
  rcases Execution.applyInput_inv happly with
    ⟨seq, transition, child, child', outcome, futures, woken, hnews, hget, hchild, rfl⟩
    | ⟨seq, futures, woken, rfl, rfl⟩ | ⟨reason, cancelReason, rfl, rfl⟩
  · exact h.put hnews hget hchild rfl rfl rfl
  · exact h.disarm (Execution.applyInput_timerFired_iff.mp ⟨_, happly⟩) rfl rfl rfl
  · have hquiet : ctx.Follows (events ++ [.cancelRequested reason]) issued :=
      h.append rfl (by simp)
    exact ⟨hquiet.children, hquiet.below, hquiet.follows, hquiet.timers, hquiet.armed,
      hquiet.unheard, hquiet.unfired⟩

end Context.Follows

/-! ### What an execution accepts -/

namespace Execution

variable {x x' : Execution} {events : List Event} {event : Event}

/-- Whether an execution accepts an event. -/
def Accepts (x : Execution) (event : Event) : Prop :=
  ∃ outcome, (x.step event).1 = .ok outcome

/-- Settling leaves the children alone but for asking them to cancel. -/
theorem alike_settle (x : Execution) : x.context.children.Alike x.settle.context.children := by
  rcases x.settle_inv with ⟨_, -, h⟩ | ⟨_, -, -, h⟩ | ⟨_, -, -, h⟩ | ⟨_, -, h⟩ | h <;> rw [h]
  · exact .refl _
  · exact x.context.children.alike_requestCancel
  · exact x.context.children.alike_requestCancel
  · exact .refl _
  · exact .refl _

/-- Settling keeps children and timers. -/
theorem follows_settle {issued : List Command}
    (h : x.context.Follows events (issued ++ x.context.commands)) :
    x.settle.context.Follows events (issued ++ x.settle.context.commands) := by
  obtain ⟨extra, hcommands, hnone, -, -⟩ := x.settle_commands
  obtain ⟨_, _, _, heq⟩ := x.settle_eq
  have htimers : x.settle.context.timers = x.context.timers := by rw [heq]
  have hlast : x.settle.context.lastSeq = x.context.lastSeq := by rw [heq]
  have hfollows : x.settle.context.Follows events (issued ++ x.context.commands) :=
    h.of_alike x.alike_settle htimers hlast
  refine hfollows.of_issued fun command hsome => ?_
  have hother : command ∉ extra := by
    intro hmem
    rw [hnone command hmem] at hsome
    cases hsome
  simp [hcommands, hother]

/-- **Every event keeps children and timers what was issued and accepted**, also the one that closes
the execution. -/
theorem follows_step (booked : x.Booked) (h : x.context.Follows events x.issued)
    (hopen : x.complete = false) (event : Event) :
    (x.step event).2.context.Follows (events ++ x.accepted event) (x.step event).2.issued := by
  rcases x.admitted?_inv event with ⟨hadmitted, unconfirmed, complete, hstep, -, hnone⟩
    | ⟨x', -, haccept, -, hstep⟩
  · have hsame : x.context.Follows (events ++ x.accepted event) x.issued := by
      rcases hresult : x.step event with ⟨e | outcome, y⟩
      · rw [accepted, hresult, List.append_nil]
        exact h
      · rw [accepted_of_ok hresult]
        have hquiet : event.isRecord = true ∨ event = .timedOut := by
          refine (hnone outcome (congrArg Prod.fst hresult)).2.imp_right fun hclosed => ?_
          refine timedOut_of_closes hadmitted hresult hopen ?_
          rw [hresult] at hstep
          rw [show y = _ from hstep]
          exact hclosed
        rcases hquiet with hrecord | rfl
        · have hnews : childNews? event = none ∧ ∀ seq, event ≠ .timerFired seq := by
            cases event <;> simp_all [Event.isRecord, childNews?]
          exact h.append hnews.1 hnews.2
        · exact h.append rfl (by simp)
    rw [hstep]
    exact ⟨hsame.children, hsame.below, hsame.follows, hsame.timers, hsame.armed, hsame.unheard,
      hsame.unfired⟩
  · obtain ⟨hissued, -, hcommands, -⟩ := accept_issued haccept
    have hnothing : x'.context.commands = [] := hcommands.trans booked.taken
    have haccepted : x'.context.Follows (events ++ [event])
        (x'.issued ++ x'.context.commands) := by
      rw [hnothing, List.append_nil, hissued]
      rcases accept_inv haccept with ⟨-, context, happly, rfl⟩ | ⟨-, _, _, _, _, rfl, rfl⟩
      · exact h.applyInput happly
      · exact h.append rfl (by simp)
    have hsettled := follows_settle (haccepted.moves x'.runThreads_moves)
    rw [hstep, accepted_of_ok hstep, issued_takeCommands]
    exact ⟨hsettled.children, hsettled.below, hsettled.follows, hsettled.timers, hsettled.armed,
      hsettled.unheard, hsettled.unfired⟩

/-- An open execution that awaits no record accepts an input that is no timeout exactly if the
input can be applied; else it says what is wrong and stays as it is. -/
theorem accepts_iff (hstarted : x.started = true) (hopen : x.complete = false)
    (hconfirmed : x.unconfirmed = []) (hinput : event.isRecord = false)
    (htime : event ≠ .timedOut) :
    (x.Accepts event ↔ ∃ ctx', applyInput x.context event = .ok ctx')
      ∧ (¬ x.Accepts event → ∃ divergence, applyInput x.context event = .error divergence
        ∧ x.step event = (.error (x.counted.diverge divergence), x.counted)) := by
  have hstep := step_input hconfirmed hinput
  rw [if_neg htime, if_neg (by simp [hopen])] at hstep
  have hstarted' : x.counted.started = true := hstarted
  rw [Accepts]
  cases happly : applyInput x.context event with
  | ok ctx' =>
      have haccept : x.counted.accept event = .ok { x.counted with context := ctx' } := by
        simp only [accept]
        rw [if_pos hstarted', show applyInput x.counted.context event = _ from happly]
      rw [haccept] at hstep
      rw [hstep]
      exact ⟨⟨fun _ => ⟨ctx', rfl⟩, fun _ => ⟨_, rfl⟩⟩, fun hrefused => absurd ⟨_, rfl⟩ hrefused⟩
  | error divergence =>
      have haccept : x.counted.accept event = .error (x.counted.diverge divergence) := by
        simp only [accept]
        rw [if_pos hstarted', show applyInput x.counted.context event = _ from happly]
      rw [haccept] at hstep
      rw [hstep]
      refine ⟨⟨?_, ?_⟩, fun _ => ⟨divergence, rfl, rfl⟩⟩
      · rintro ⟨_, hok⟩
        cases hok
      · rintro ⟨_, hok⟩
        cases hok

end Execution

namespace Course

variable {info : RunInfo} {program : Program} {converter : Converter} {x x' : Execution}
  {events : List Event} {turns : List (Turn Context Thread)}

/-- After every course, children and timers are what was issued and what was accepted until the
execution closed. -/
theorem follows (course : Course info program converter x events turns) :
    ∃ applied, applied <+: events ∧ (x.complete = false → applied = events)
      ∧ x.context.Follows applied x.issued := by
  induction course with
  | new =>
      refine ⟨[], List.nil_prefix, fun _ => rfl, ?_⟩
      refine ⟨fun _ => nofun, List.forall_mem_nil _, List.forall_mem_nil _, fun seq => ?_,
        List.forall_mem_nil _, fun _ _ => rfl, fun _ _ => nofun⟩
      simp [Execution.new, Context.new]
  | mode replaying _ ih =>
      obtain ⟨applied, hprefix, hopen, h⟩ := ih
      exact ⟨applied, hprefix, hopen, h.children, h.below, h.follows, h.timers, h.armed, h.unheard,
        h.unfired⟩
  | @step x events turns event course ih =>
      obtain ⟨applied, hprefix, hsame, h⟩ := ih
      cases hopen : x.complete with
      | false =>
          rw [hsame hopen] at h
          exact ⟨_, List.prefix_refl _, fun _ => rfl,
            Execution.follows_step course.booked h hopen event⟩
      | true =>
          rcases x.admitted?_inv event with ⟨-, _, complete, hstep, hcomplete, -⟩
            | ⟨_, -, -, hopen', -⟩
          · rw [hstep]
            refine ⟨applied, hprefix.trans (List.prefix_append _ _), ?_, ?_⟩
            · intro hfalse
              rcases hcomplete with rfl | rfl
              · rw [hopen] at hfalse
                cases hfalse
              · cases hfalse
            · exact ⟨h.children, h.below, h.follows, h.timers, h.armed, h.unheard, h.unfired⟩
          · rw [hopen] at hopen'
            cases hopen'

/-- A child with a number was started under it. -/
theorem exists_start (course : Course info program converter x events turns) {child : Child}
    (hchild : child ∈ x.children) : ∃ start, .startChild start ∈ x.issued
      ∧ start.seq = child.seq := by
  obtain ⟨start, hstart, hseq, -⟩ := course.petitioned.started child hchild
  exact ⟨start, hstart, hseq⟩

/-- **The protocol of children and timers.** A started execution that is open and awaits no record
accepts an event about a child exactly if it started the child and the event makes a lifetime with
what was heard of it; it accepts the firing of a timer exactly if it started the timer and it has
not fired. Other such events are divergences and change nothing. After an accepted event everybody
that was started is a child, and every child is what was heard of it. -/
theorem protocol (course : Course info program converter x events turns)
    (hstarted : x.started = true) (hopen : x.complete = false) (hconfirmed : x.unconfirmed = []) :
    (∀ event seq transition, Execution.childNews? event = some (seq, transition) →
        (x.Accepts event ↔ (∃ start, .startChild start ∈ x.issued ∧ start.seq = seq)
          ∧ Lifetime (told seq (events ++ [event])))
        ∧ (¬ x.Accepts event → ∃ fault,
          x.step event = (.error (x.counted.diverge (.lifecycle fault)), x.counted)))
      ∧ (∀ seq, (x.Accepts (.timerFired seq) ↔ (∃ ms, .startTimer seq ms ∈ x.issued)
          ∧ .timerFired seq ∉ events)
        ∧ (¬ x.Accepts (.timerFired seq) →
          x.step (.timerFired seq) = (.error (x.counted.diverge (.unknownTimer seq)), x.counted)))
      ∧ ∀ event, (∀ start, .startChild start ∈ (x.step event).2.issued →
          ∃ child ∈ (x.step event).2.children, child.StartedBy start)
        ∧ ∀ child ∈ (x.step event).2.children,
          child.Follows (told child.seq (events ++ x.accepted event)) := by
  obtain ⟨applied, -, hsame, hfollows⟩ := course.follows
  rw [hsame hopen] at hfollows
  refine ⟨?_, ?_, ?_⟩
  · intro event seq transition hnews
    have hinput : event.isRecord = false := by
      cases event <;> cases hnews <;> rfl
    have htime : event ≠ .timedOut := by
      rintro rfl
      cases hnews
    obtain ⟨haccepts, hrefused⟩ :=
      Execution.accepts_iff hstarted hopen hconfirmed hinput htime
    refine ⟨?_, ?_⟩
    · rw [haccepts, Execution.applyInput_news_iff hnews, told_append, told_singleton hnews,
        if_pos rfl]
      constructor
      · rintro ⟨child, hget, haccept⟩
        have hchild : child ∈ x.context.children.entries := List.mem_of_find?_eq_some hget
        obtain rfl := Children.seq_of_get? hget
        exact ⟨course.exists_start hchild, (hfollows.follows child hchild).accepts_iff.mp haccept⟩
      · rintro ⟨⟨start, hstart, rfl⟩, hlifetime⟩
        obtain ⟨child, hget, -⟩ := hfollows.children start hstart
        have hchild := hfollows.follows child (List.mem_of_find?_eq_some hget)
        rw [Children.seq_of_get? hget] at hchild
        exact ⟨child, hget, hchild.accepts_iff.mpr hlifetime⟩
    · intro hnot
      obtain ⟨divergence, happly, hstep⟩ := hrefused hnot
      obtain ⟨fault, rfl⟩ := Execution.applyInput_news_error hnews happly
      exact ⟨fault, hstep⟩
  · intro seq
    obtain ⟨haccepts, hrefused⟩ :=
      @Execution.accepts_iff x (.timerFired seq) hstarted hopen hconfirmed rfl nofun
    refine ⟨?_, ?_⟩
    · rw [haccepts, Execution.applyInput_timerFired_iff]
      exact hfollows.timers seq
    · intro hnot
      obtain ⟨divergence, happly, hstep⟩ := hrefused hnot
      rw [Execution.applyInput_timerFired] at happly
      split at happly <;> cases happly
      exact hstep
  · intro event
    have hafter := Execution.follows_step course.booked hfollows hopen event
    refine ⟨?_, hafter.follows⟩
    intro start hstart
    obtain ⟨child, hget, hby⟩ := hafter.children start hstart
    exact ⟨child, List.mem_of_find?_eq_some hget, hby⟩

/-- A run that has sent a letter and a parcel. -/
def posted : Execution :=
  ((Execution.new Execution.nap posting .json).step postingStart).2

/-- It accepts the end of the letter, but neither that of a third child nor the firing of a timer.
-/
theorem posted_accepts : posted.Accepts (.childCompleted 1 "read")
    ∧ (¬ posted.Accepts (.childCompleted 3 "read")) ∧ ¬ posted.Accepts (.timerFired 1) := by
  have course : Course Execution.nap posting .json posted _ _ := .step postingStart .new
  have hissued : posted.issued
      = [.startChild ⟨1, "Mail", "send", "letter", "main", "null", none, false⟩,
        .startChild ⟨2, "Mail", "send", "parcel", "main", "null", none, true⟩] := by
    decide +kernel
  obtain ⟨hchildren, htimers, -⟩ :=
    course.protocol (by decide +kernel) (by decide +kernel) (by decide +kernel)
  refine ⟨?_, ?_, ?_⟩
  · refine (hchildren (.childCompleted 1 "read") 1 (.completed "read") rfl).1.mpr ⟨?_, ?_⟩
    · exact ⟨_, hissued ▸ List.mem_cons_self, rfl⟩
    · have htold : told 1 (([] ++ (Execution.new Execution.nap posting .json).accepted postingStart)
          ++ [.childCompleted 1 "read"]) = [.completed "read"] := by
        decide +kernel
      rw [htold]
      exact .ended rfl
  · intro haccepts
    obtain ⟨⟨start, hstart, hseq⟩, -⟩ :=
      (hchildren (.childCompleted 3 "read") 3 (.completed "read") rfl).1.mp haccepts
    rw [hissued] at hstart
    rcases List.mem_cons.mp hstart with heq | hstart
    · cases heq
      cases hseq
    · cases List.mem_singleton.mp hstart
      cases hseq
  · intro haccepts
    obtain ⟨⟨ms, hms⟩, -⟩ := (htimers 1).1.mp haccepts
    simp [hissued] at hms

end Course

end DurableWorkflow
