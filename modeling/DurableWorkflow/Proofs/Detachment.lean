import DurableWorkflow.Proofs.Resolution

/-!
# Which children are detached

A child that cancelling its parent leaves alone was started so, or a turn of the run abandoned it.
Nothing else detaches a child, and nothing attaches one again. In turn, a child that is started
detached or abandoned is there and has the mark, and whoever has the mark keeps it.

That abandoning marks somebody is not a matter of course, as it goes by the number in a future. A
thread holds futures only that were yielded to it, and one for a child was yielded when the child
was started.

## Main definitions

* `Context.Attached` — the children of a context are attached but for those that were started
  detached or abandoned.
* `Children.Retains` — children stay, and keep the mark that they are detached.
* `Context.Released` — the children that were abandoned are there, and detached.

## Main results

* `Context.Attached.run`, `Context.Released.run` — what an operation does.
* `Scheduler.attached_preserves`, `Execution.attached_step` — passes and events keep children
  attached that nobody abandons.
* `Context.Moves.retains`, `Execution.retains_accept`, `Execution.retains_settle` — the mark lasts.
* `Scheduler.released_preserves`, `Execution.released_step` — passes and events keep those detached
  that somebody abandoned.
* `Course.attached`, `Course.released` — both hold after every course.
* `Course.detached_iff` — so the mark says that a child was started detached or abandoned.
-/

namespace DurableWorkflow

/-- The children that operations abandon, one by one. -/
theorem Op.filterMap_abandoned?_cons (op : Op) (ops : List Op) :
    (op :: ops).filterMap abandoned? = op.abandoned?.toList ++ ops.filterMap abandoned? := by
  rw [List.filterMap_cons]
  cases op.abandoned? <;> rfl

/-- Whether children are attached but for those that were started detached, or abandoned. -/
def Context.Attached (ctx : Context) (issued : List Command) (abandoned : List Nat) : Prop :=
  ∀ child ∈ ctx.children.entries, child.detached = true →
    (∃ start, .startChild start ∈ issued ∧ start.seq = child.seq ∧ start.detached = true)
      ∨ child.seq ∈ abandoned

namespace Context.Attached

variable {ctx ctx' : Context} {issued issued' : List Command} {abandoned abandoned' : List Nat}

/-- Whoever has the number of a child, and is detached only if it is, may take its place. -/
theorem mono (h : ctx.Attached issued abandoned)
    (hsame : ∀ child ∈ ctx'.children.entries, child.detached = true →
      ∃ old ∈ ctx.children.entries, old.seq = child.seq ∧ old.detached = true)
    (hissued : issued ⊆ issued') (habandoned : abandoned ⊆ abandoned') :
    ctx'.Attached issued' abandoned' := by
  intro child hchild hdetached
  obtain ⟨old, hold, hseq, hold'⟩ := hsame child hchild hdetached
  rw [← hseq]
  refine (h old hold hold').imp ?_ fun hmem => habandoned hmem
  rintro ⟨start, hstart, hstarted⟩
  exact ⟨start, hissued hstart, hstarted⟩

/-- Children that stay are attached as before. -/
theorem of_eq (h : ctx.Attached issued abandoned) (hchildren : ctx'.children = ctx.children)
    (hissued : issued ⊆ issued') (habandoned : abandoned ⊆ abandoned') :
    ctx'.Attached issued' abandoned' :=
  h.mono (fun child hchild hdetached => ⟨child, hchildren ▸ hchild, rfl, hdetached⟩) hissued
    habandoned

/-- **What an operation does**: it may start a detached child, or abandon one. -/
theorem run (h : ctx.Attached (issued ++ ctx.commands) abandoned) (op : Op) :
    (op.run ctx).Attached (issued ++ (op.run ctx).commands)
      (abandoned ++ op.abandoned?.toList) := by
  have hmore : abandoned ⊆ abandoned ++ op.abandoned?.toList := List.subset_append_left _ _
  cases op with
  | startTimer delay =>
      refine h.of_eq rfl ?_ hmore
      exact List.append_subset.mpr ⟨List.subset_append_left _ _,
        List.subset_append_of_subset_right _ (List.subset_append_left _ _)⟩
  | startChild stub method input =>
      obtain ⟨start, hchildren, hcommands⟩ : ∃ start : ChildStart,
          (ctx.startChild stub method input).2.children.entries
            = ctx.children.entries ++ [.ofStart start (ctx.futures.slots.length + 1)]
          ∧ (ctx.startChild stub method input).2.commands = ctx.commands ++ [.startChild start] :=
        ⟨_, rfl, rfl⟩
      have hissued : issued ++ ctx.commands
          ⊆ issued ++ (ctx.startChild stub method input).2.commands := by
        rw [hcommands, ← List.append_assoc]
        exact List.subset_append_left _ _
      have hearlier : ctx.Attached (issued ++ (ctx.startChild stub method input).2.commands) _ :=
        h.of_eq rfl hissued hmore
      rw [Op.run, Attached, hchildren]
      refine List.forall_mem_append.mpr ⟨hearlier,
        List.forall_mem_singleton.mpr fun hdetached => .inl ⟨start, ?_, rfl, hdetached⟩⟩
      rw [hcommands]
      exact List.mem_append_right _ (List.mem_append_right _ (List.mem_singleton_self _))
  | failedFuture failure =>
      obtain ⟨futures, woken, heq⟩ := resolve_eq { ctx with futures := ctx.futures.create.2 }
        ctx.futures.create.1 (.error failure)
      have hrun : Op.run ctx (.failedFuture failure) = { ctx with futures, woken } := heq
      rw [hrun]
      exact h.of_eq rfl (List.Subset.refl _) hmore
  | poll future waker => exact h.of_eq rfl (List.Subset.refl _) hmore
  | wake waker =>
      obtain ⟨woken, heq⟩ := ctx.wake_eq waker
      rw [Op.run, heq]
      exact h.of_eq rfl (List.Subset.refl _) hmore
  | note remark => exact h.of_eq rfl (List.Subset.refl _) hmore
  | spawn bindings steps => exact h.of_eq rfl (List.Subset.refl _) hmore
  | abandon future =>
      obtain ⟨id, kind⟩ := future
      cases kind with
      | child seq =>
          have hearlier : ctx.Attached (issued ++ ctx.commands) _ :=
            h.of_eq rfl (List.Subset.refl _) hmore
          refine List.forall_mem_map.mpr fun child hchild => ?_
          split
          · rename_i hseq
            exact fun _ => .inr (List.mem_append_right _ (by simp [Op.abandoned?, hseq]))
          · exact hearlier child hchild
      | timer | thread | immediate => exact h.of_eq rfl (List.Subset.refl _) hmore

/-- What several operations do. -/
theorem foldl_run (h : ctx.Attached (issued ++ ctx.commands) abandoned) (ops : List Op) :
    (ops.foldl Op.run ctx).Attached (issued ++ (ops.foldl Op.run ctx).commands)
      (abandoned ++ ops.filterMap Op.abandoned?) := by
  induction ops generalizing ctx abandoned with
  | nil =>
      rw [List.filterMap_nil, List.append_nil]
      exact h
  | cons op ops ih =>
      rw [op.filterMap_abandoned?_cons, ← List.append_assoc]
      exact ih (h.run op)

/-- What a turn does. -/
theorem turn {turn : Turn Context Thread} (h : turn.state.Attached (issued ++ turn.state.commands)
    abandoned) : (turn.result Thread.workload).2.Attached
      (issued ++ (turn.result Thread.workload).2.commands) (abandoned ++ turn.abandons) := by
  have hops := h.foldl_run turn.ops
  rcases turn.result_eq with heq | ⟨outcome, heq⟩ <;> rw [heq]
  · exact hops
  · obtain ⟨_, _, _, hend⟩ :=
      (turn.ops.foldl Op.run turn.state).conclude_eq turn.body.role outcome
    rw [hend]
    exact hops.of_eq rfl (List.Subset.refl _) (List.Subset.refl _)

/-- What an input does: news of a child leave it attached or detached. -/
theorem applyInput {event : Event} (h : ctx.Attached issued abandoned)
    (happly : Execution.applyInput ctx event = .ok ctx') : ctx'.Attached issued abandoned := by
  rcases Execution.applyInput_inv happly
    with ⟨_, _, child, child', _, _, _, -, hget, hchild, rfl⟩ | ⟨_, _, _, -, rfl⟩ | ⟨_, _, -, rfl⟩
  · obtain ⟨hseq, hdetached⟩ : child'.seq = child.seq ∧ child'.detached = child.detached := by
      rw [(Child.apply_eq hchild).2.1]
      exact ⟨rfl, rfl⟩
    refine h.mono ?_ (List.Subset.refl _) (List.Subset.refl _)
    refine List.forall_mem_map.mpr fun old hold => ?_
    split
    · intro hnew
      exact ⟨child, List.mem_of_find?_eq_some hget, hseq.symm, hdetached.symm.trans hnew⟩
    · exact fun hnew => ⟨old, hold, rfl, hnew⟩
  · exact h
  · exact h

end Context.Attached

/-! ### Executions -/

/-- A scheduling pass keeps the children attached that nobody abandons. -/
theorem Scheduler.attached_preserves (issued : List Command) :
    Thread.workload.Preserves fun log _ ctx =>
      ctx.Attached (issued ++ ctx.commands) (log.flatMap Turn.abandons) := by
  have hturn {log : List (Turn Context Thread)} (turn : Turn Context Thread)
      (h : turn.state.Attached (issued ++ turn.state.commands) (log.flatMap Turn.abandons)) :
      (turn.result Thread.workload).2.Attached (issued ++ (turn.result Thread.workload).2.commands)
        ((log ++ [turn]).flatMap Turn.abandons) := by
    rw [List.flatMap_append, List.flatMap_singleton]
    exact h.turn
  exact {
    gather := fun h => h.of_eq rfl (List.Subset.refl _) (List.Subset.refl _)
    skip := fun h _ _ => h
    ended := fun {log s ctx id queue thread} h _ _ _ => hturn ⟨id, thread.body, ctx⟩ h
    pending := fun {log s ctx id queue thread body} h _ _ _ => hturn ⟨id, thread.body, ctx⟩ h }

namespace Execution

variable {x x' : Execution} {turns : List (Turn Context Thread)} {event : Event}

/-- Letting the threads run keeps the children attached that nobody abandons. -/
theorem attached_runThreads
    (h : x.context.Attached (x.issued ++ x.context.commands) (turns.flatMap Turn.abandons)) :
    x.runThreads.context.Attached (x.issued ++ x.runThreads.context.commands)
      ((turns ++ x.passTurns).flatMap Turn.abandons) := by
  have hpass := (Scheduler.attached_preserves x.issued).run (pollBound x.scheduler x.context)
    (s := x.scheduler) h
  rcases x.runThreads_inv with ⟨-, failure, hrun⟩ | ⟨-, hrun⟩ <;> rw [hrun]
  · exact hpass.of_eq rfl (List.Subset.refl _) (List.Subset.refl _)
  · exact hpass

/-- Settling detaches nobody. -/
theorem attached_settle {issued : List Command} {abandoned : List Nat}
    (h : x.context.Attached (issued ++ x.context.commands) abandoned) :
    x.settle.context.Attached (issued ++ x.settle.context.commands) abandoned := by
  obtain ⟨extra, hcommands, -⟩ := x.settle_commands
  have hissued : issued ++ x.context.commands ⊆ issued ++ x.settle.context.commands := by
    rw [hcommands, ← List.append_assoc]
    exact List.subset_append_left _ _
  have hasked : ∀ child ∈ x.context.children.requestCancel.2.entries, child.detached = true →
      ∃ old ∈ x.context.children.entries, old.seq = child.seq ∧ old.detached = true := by
    rw [Children.requestCancel_eq]
    refine List.forall_mem_map.mpr fun child hchild => ?_
    rw [child.petition_eq]
    exact fun hdetached => ⟨child, hchild, rfl, hdetached⟩
  have hchildren : x.settle.context.children = x.context.children
      ∨ x.settle.context.children = x.context.children.requestCancel.2 := by
    rcases x.settle_inv with ⟨_, -, hsettle⟩ | ⟨_, -, -, hsettle⟩ | ⟨_, -, -, hsettle⟩
      | ⟨_, -, hsettle⟩ | hsettle <;> rw [hsettle]
    · exact .inl rfl
    · exact .inr rfl
    · exact .inr rfl
    · exact .inl rfl
    · exact .inl rfl
  rcases hchildren with hsame | hsame
  · exact h.of_eq hsame hissued (List.Subset.refl _)
  · exact h.mono (hsame ▸ hasked) hissued (List.Subset.refl _)

/-- **Every event keeps the children attached that nobody abandons.** -/
theorem attached_step (taken : x.context.commands = [])
    (h : x.context.Attached x.issued (turns.flatMap Turn.abandons)) (event : Event) :
    (x.step event).2.context.Attached (x.step event).2.issued
      ((turns ++ x.turns event).flatMap Turn.abandons) := by
  rcases x.admitted?_inv event with ⟨hadmitted, _, _, hstep, -, -⟩
    | ⟨x', hadmitted, haccept, -, hstep⟩ <;> rw [hstep, Execution.turns, hadmitted]
  · rw [List.append_nil]
    exact h
  · obtain ⟨hissued, -, hcommands, -⟩ := accept_issued haccept
    have hnothing : x'.context.commands = [] := hcommands.trans taken
    have hissued' : x'.issued = x.issued := hissued
    have haccepted : x'.context.Attached (x'.issued ++ x'.context.commands)
        (turns.flatMap Turn.abandons) := by
      rw [hnothing, List.append_nil, hissued']
      rcases accept_inv haccept with ⟨-, context, happly, rfl⟩ | ⟨-, _, _, _, _, -, rfl⟩
      · exact h.applyInput happly
      · exact h
    have hsettled := attached_settle (attached_runThreads haccepted)
    rw [issued_takeCommands]
    exact hsettled.of_eq rfl (List.Subset.refl _) (List.Subset.refl _)

end Execution

/-- **Children are attached after every course**, but for those that were started detached or that
a turn abandoned. -/
theorem Course.attached {info : RunInfo} {program : Program} {converter : Converter} {x : Execution}
    {events : List Event} {turns : List (Turn Context Thread)}
    (course : Course info program converter x events turns) :
    x.context.Attached x.issued (turns.flatMap Turn.abandons) := by
  induction course with
  | new => exact List.forall_mem_nil _
  | mode replaying _ ih => exact ih
  | step event course ih => exact Execution.attached_step course.booked.taken ih event

/-! ### The mark lasts -/

/-- Whether children stay, and keep the mark that they are detached. -/
def Children.Retains (children children' : Children) : Prop :=
  ∀ child ∈ children.entries, ∃ later ∈ children'.entries, later.seq = child.seq
    ∧ (child.detached = true → later.detached = true)

namespace Children

variable {children children' children'' : Children}

/-- Children stay where nothing happens. -/
theorem Retains.refl (children : Children) : children.Retains children :=
  fun child hchild => ⟨child, hchild, rfl, id⟩

/-- They stay over one change after the other. -/
theorem Retains.trans (h : children.Retains children') (h' : children'.Retains children'') :
    children.Retains children'' := by
  intro child hchild
  obtain ⟨later, hlater, hseq, hmark⟩ := h child hchild
  obtain ⟨last, hlast, hseq', hmark'⟩ := h' later hlater
  exact ⟨last, hlast, hseq'.trans hseq, fun hdetached => hmark' (hmark hdetached)⟩

/-- A change of each child that leaves it its number and its mark. -/
theorem retains_map {f : Child → Child} (hf : ∀ child ∈ children.entries,
      (f child).seq = child.seq ∧ (child.detached = true → (f child).detached = true)) :
    children.Retains ⟨children.entries.map f⟩ :=
  fun child hchild => ⟨f child, List.mem_map_of_mem hchild, hf child hchild⟩

/-- Detaching a child leaves the others theirs. -/
theorem retains_detach (children : Children) (seq : Nat) :
    children.Retains (children.detach seq) := by
  refine retains_map fun child _ => ?_
  split <;> simp

/-- Asking children to cancel. -/
theorem retains_requestCancel (children : Children) :
    children.Retains children.requestCancel.2 := by
  rw [requestCancel_eq]
  refine retains_map fun child _ => ?_
  rw [child.petition_eq]
  exact ⟨rfl, id⟩

/-- **A child that is detached has the mark.** -/
theorem exists_detached_detach {child : Child} (hchild : child ∈ children.entries) :
    ∃ later ∈ (children.detach child.seq).entries, later.seq = child.seq
      ∧ later.detached = true := by
  refine ⟨_, List.mem_map_of_mem hchild, ?_⟩
  rw [if_pos rfl]
  exact ⟨rfl, rfl⟩

end Children

/-- **Whatever threads do, no child is attached again.** -/
theorem Context.Moves.retains {ctx ctx' : Context} (h : ctx.Moves ctx') :
    ctx.children.Retains ctx'.children := by
  induction h with
  | refl => exact .refl _
  | @tail b c _ hmove ih =>
      refine ih.trans ?_
      rcases hmove.inv with ⟨_, _, _, _, _, rfl⟩ | ⟨delay, rfl⟩ | ⟨stub, method, input, rfl⟩
        | ⟨seq, rfl⟩
      · exact .refl _
      · exact .refl _
      · exact fun child hchild => ⟨child, List.mem_append_left _ hchild, rfl, id⟩
      · exact b.children.retains_detach seq

namespace Execution

variable {x x' : Execution}

/-- Nor does an input attach one. -/
theorem retains_accept {event : Event} {issued : List Command}
    (petitioned : x.context.Petitioned issued) (haccept : x.counted.accept event = .ok x') :
    x.context.children.Retains x'.context.children := by
  rcases accept_inv haccept with ⟨-, context, happly, rfl⟩ | ⟨-, _, _, _, _, -, rfl⟩
  · rcases applyInput_inv happly with ⟨_, _, child, child', _, _, _, -, hget, hchild, rfl⟩
      | ⟨_, _, _, -, rfl⟩ | ⟨_, _, -, rfl⟩
    · obtain ⟨hseq, hdetached⟩ : child'.seq = child.seq ∧ child'.detached = child.detached := by
        rw [(Child.apply_eq hchild).2.1]
        exact ⟨rfl, rfl⟩
      refine Children.retains_map fun old hold => ?_
      split
      · rename_i hsame
        obtain rfl : old = child := petitioned.eq_of_seq hold (List.mem_of_find?_eq_some hget)
          (hsame.trans hseq)
        exact ⟨hseq, hdetached.trans⟩
      · exact ⟨rfl, id⟩
    · exact .refl _
    · exact .refl _
  · exact .refl _

/-- Nor does settling. -/
theorem retains_settle (x : Execution) : x.context.children.Retains x.settle.context.children := by
  rcases x.settle_inv with ⟨_, -, h⟩ | ⟨_, -, -, h⟩ | ⟨_, -, -, h⟩ | ⟨_, -, h⟩ | h <;> rw [h]
  · exact .refl _
  · exact x.context.children.retains_requestCancel
  · exact x.context.children.retains_requestCancel
  · exact .refl _
  · exact .refl _

end Execution

/-! ### Children that were abandoned -/

/-- Whether the children that were abandoned are there, and detached. -/
def Context.Released (ctx : Context) (abandoned : List Nat) : Prop :=
  ∀ seq ∈ abandoned, ∃ child ∈ ctx.children.entries, child.seq = seq ∧ child.detached = true

namespace Context.Released

variable {ctx ctx' : Context} {yielded : List FutureRef} {issued : List Command}
  {abandoned : List Nat}

/-- They stay so as long as no child is attached again. -/
theorem of_retains (h : ctx.Released abandoned) (hretains : ctx.children.Retains ctx'.children) :
    ctx'.Released abandoned := by
  intro seq hseq
  obtain ⟨child, hchild, rfl, hdetached⟩ := h seq hseq
  obtain ⟨later, hlater, hsame, hmark⟩ := hretains child hchild
  exact ⟨later, hlater, hsame, hmark hdetached⟩

/-- **What an operation does**: it may abandon a child, and then this is detached. -/
theorem run (h : ctx.Released abandoned) (sourced : ctx.Sourced yielded issued) {op : Op}
    (huses : op.uses ⊆ yielded) :
    (op.run ctx).Released (abandoned ++ op.abandoned?.toList) := by
  have hlasts : (op.run ctx).Released abandoned :=
    h.of_retains (Moves.retains (.single (.deed (op.deed ctx))))
  refine List.forall_mem_append.mpr ⟨hlasts, fun seq hseq => ?_⟩
  cases op with
  | abandon future =>
      obtain ⟨id, kind⟩ := future
      cases kind with
      | child number =>
          obtain rfl : seq = number := List.mem_singleton.mp hseq
          -- the future is that of a child, as it was yielded
          have hchild : (⟨id, .child seq⟩ : FutureRef) ∈ ctx.children.entries.map Child.ref := by
            rw [sourced.children]
            exact List.mem_filter.mpr ⟨huses List.mem_cons_self, rfl⟩
          obtain ⟨child, hmem, href⟩ := List.mem_map.mp hchild
          cases href
          exact Children.exists_detached_detach hmem
      | timer | thread | immediate => cases hseq
  | _ => cases hseq

/-- What several operations do. -/
theorem foldl_run (h : ctx.Released abandoned)
    (sourced : ctx.Sourced yielded (issued ++ ctx.commands)) {ops : List Op}
    (hinformed : Op.Informed yielded ctx ops) :
    (ops.foldl Op.run ctx).Released (abandoned ++ ops.filterMap Op.abandoned?) := by
  induction ops generalizing ctx yielded abandoned with
  | nil =>
      rw [List.filterMap_nil, List.append_nil]
      exact h
  | cons op ops ih =>
      obtain ⟨huses, hrest⟩ := hinformed
      rw [op.filterMap_abandoned?_cons, ← List.append_assoc]
      exact ih (h.run sourced huses) (sourced.run huses) hrest

/-- What a turn does. -/
theorem turn {turn : Turn Context Thread} (h : turn.state.Released abandoned)
    (sourced : turn.state.Sourced yielded (issued ++ turn.state.commands))
    (hbody : turn.body.Holds yielded) :
    (turn.result Thread.workload).2.Released (abandoned ++ turn.abandons) := by
  have hinformed : Op.Informed yielded turn.state turn.ops :=
    (Thread.poll_traces turn.thread turn.state hbody.refs).1
  have hops := h.foldl_run sourced hinformed
  rcases turn.result_eq with heq | ⟨outcome, heq⟩ <;> rw [heq]
  · exact hops
  · exact hops.of_retains (Moves.retains (.single (.conclude _ turn.body.role outcome)))

end Context.Released

/-- A scheduling pass keeps those detached that somebody abandoned. -/
theorem Scheduler.released_preserves (issued : List Command) :
    Thread.workload.Preserves fun log s ctx =>
      Sourced issued log s ctx ∧ ctx.Released (log.flatMap Turn.abandons) := by
  have sourced := sourced_preserves issued
  have hturn {log : List (Turn Context Thread)} {s : Scheduler Thread}
      (turn : Turn Context Thread) (h : Sourced issued log s turn.state)
      (hbody : turn.body.Holds (log.flatMap Turn.yields))
      (released : turn.state.Released (log.flatMap Turn.abandons)) :
      (turn.result Thread.workload).2.Released ((log ++ [turn]).flatMap Turn.abandons) := by
    rw [List.flatMap_append, List.flatMap_singleton]
    exact released.turn h.context hbody
  exact {
    gather := fun h => ⟨sourced.gather h.1, h.2⟩
    skip := fun h hqueue hget => ⟨sourced.skip h.1 hqueue hget, h.2⟩
    ended := fun {log s ctx id queue thread} h hqueue hget hended =>
      ⟨sourced.ended h.1 hqueue hget hended,
        hturn ⟨id, thread.body, ctx⟩ h.1 (h.1.threads thread (get?_eq_some hget).1) h.2⟩
    pending := fun {log s ctx id queue thread body} h hqueue hget hbody =>
      ⟨sourced.pending h.1 hqueue hget hbody,
        hturn ⟨id, thread.body, ctx⟩ h.1 (h.1.threads thread (get?_eq_some hget).1) h.2⟩ }

namespace Execution

variable {x : Execution} {turns : List (Turn Context Thread)} {events : List Event}

/-- Letting the threads run keeps those detached that somebody abandoned. -/
theorem released_runThreads (sourced : Scheduler.Sourced x.issued turns x.scheduler x.context)
    (h : x.context.Released (turns.flatMap Turn.abandons)) :
    x.runThreads.context.Released ((turns ++ x.passTurns).flatMap Turn.abandons) := by
  have hpass := (Scheduler.released_preserves x.issued).run (pollBound x.scheduler x.context)
    ⟨sourced, h⟩
  rcases x.runThreads_inv with ⟨-, failure, hrun⟩ | ⟨-, hrun⟩ <;> rw [hrun]
  · exact hpass.2
  · exact hpass.2

/-- **Every event keeps those detached that somebody abandoned.** -/
theorem released_step (booked : x.Booked) (petitioned : x.context.Petitioned x.issued)
    (follows : x.complete = false → x.context.Follows events x.issued)
    (sourced : Scheduler.Sourced x.issued turns x.scheduler x.context)
    (h : x.context.Released (turns.flatMap Turn.abandons)) (event : Event) :
    (x.step event).2.context.Released ((turns ++ x.turns event).flatMap Turn.abandons) := by
  rcases x.admitted?_inv event with ⟨hadmitted, _, _, hstep, -, -⟩
    | ⟨x', hadmitted, haccept, hopen, hstep⟩ <;> rw [hstep, Execution.turns, hadmitted]
  · rw [List.append_nil]
    exact h
  · have once : (x.issued.filterMap Command.introduces?).Nodup :=
      booked.numbers ▸ List.nodup_range'
    have haccepted := sourced_accept once booked.taken petitioned (follows hopen) sourced haccept
    have hissued : x'.issued = x.issued := (accept_issued haccept).1
    rw [← hissued] at haccepted
    have hran := released_runThreads haccepted (h.of_retains (retains_accept petitioned haccept))
    exact hran.of_retains x'.runThreads.retains_settle

end Execution

namespace Course

variable {info : RunInfo} {program : Program} {converter : Converter} {x : Execution}
  {events : List Event} {turns : List (Turn Context Thread)}

/-- **Those are detached after every course** that a turn abandoned. -/
theorem released (course : Course info program converter x events turns) :
    x.context.Released (turns.flatMap Turn.abandons) := by
  induction course with
  | new => exact List.forall_mem_nil _
  | mode replaying _ ih => exact ih
  | @step x events turns event course ih =>
      obtain ⟨applied, -, hsame, hfollows⟩ := course.follows
      have hopenFollows (hopen : x.complete = false) : x.context.Follows events x.issued :=
        hsame hopen ▸ hfollows
      exact Execution.released_step course.booked course.petitioned hopenFollows course.sourced ih
        event

/-- **A child is detached exactly if it was started so or a turn abandoned it.** -/
theorem detached_iff (course : Course info program converter x events turns) {child : Child}
    (hchild : child ∈ x.children) : child.detached = true
      ↔ (∃ start, .startChild start ∈ x.issued ∧ start.seq = child.seq ∧ start.detached = true)
        ∨ child.seq ∈ turns.flatMap Turn.abandons := by
  refine ⟨course.attached child hchild, ?_⟩
  rintro (⟨start, hstart, hseq, hdetached⟩ | habandoned)
  · have hnumbers : (x.issued.filterMap Command.introduces?).Nodup :=
      course.booked.numbers ▸ List.nodup_range'
    obtain ⟨own, hown, hseq', -, hmark⟩ := course.petitioned.started child hchild
    cases Command.eq_of_introduces hnumbers hstart hown rfl (congrArg some (hseq'.trans hseq.symm))
    exact hmark hdetached
  · obtain ⟨other, hother, hseq, hdetached⟩ := course.released child.seq habandoned
    rwa [course.petitioned.eq_of_seq hother hchild hseq] at hdetached

end Course

end DurableWorkflow
