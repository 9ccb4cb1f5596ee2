import DurableWorkflow.Proofs.Outcomes
import DurableWorkflow.Proofs.Protocol

/-!
# Where futures come from

Every future of an execution was yielded once, for one thing: a child, a timer, a thread or a
failure known from the start. The futures that threads yielded, in order, are the futures that there
are, so a future belongs to the one thing that it was yielded for. Threads hold no others, and so
whoever looks at a future sees its outcome or that it has none.

## Main definitions

* `Command.kind?` — what a command yields a future for.
* `Thread.Holds` — a thread holds futures only that were yielded.
* `Context.Sourced` — the futures of a context are those that were yielded.

## Main results

* `Context.Sourced.run`, `Context.Sourced.foldl_run` — operations keep the futures right.
* `Context.Sourced.conclude` — so does the end of a thread.
* `Context.Sourced.applyInput` — so does an input.
-/

namespace DurableWorkflow

/-! ### Kinds -/

/-- Whether a future is that of a child. -/
def FutureKind.isChild : FutureKind → Bool
  | .child _ => true
  | .timer _ | .thread | .immediate => false

/-- Whether a command was issued for a future. -/
def FutureKind.isOrdered : FutureKind → Bool
  | .child _ | .timer _ => true
  | .thread | .immediate => false

/-- The sequence number of what a future stands for. -/
def FutureKind.seq? : FutureKind → Option Nat
  | .child seq | .timer seq => some seq
  | .thread | .immediate => none

/-- What a command yields a future for. -/
def Command.kind? : Command → Option FutureKind
  | .startChild start => some (.child start.seq)
  | .startTimer seq _ => some (.timer seq)
  | _ => none

/-- What a command yields a future for has the number that the command gives out. -/
theorem Command.introduces?_eq (command : Command) :
    command.introduces? = command.kind? >>= FutureKind.seq? := by
  cases command <;> rfl

/-- If numbers are given out once, commands yield futures for different things. -/
theorem Command.nodup_kinds {issued : List Command}
    (once : (issued.filterMap Command.introduces?).Nodup) :
    (issued.filterMap Command.kind?).Nodup := by
  have hseqs : issued.filterMap Command.introduces?
      = (issued.filterMap Command.kind?).filterMap FutureKind.seq? := by
    rw [List.filterMap_filterMap]
    exact List.filterMap_congr fun command _ => command.introduces?_eq
  rw [hseqs] at once
  have hsome : ∀ kind ∈ issued.filterMap Command.kind?, kind.seq?.isSome = true := by
    intro kind hkind
    obtain ⟨command, -, hcommand⟩ := List.mem_filterMap.mp hkind
    cases command <;> cases hcommand <;> rfl
  refine (List.pairwise_filterMap.mp once).imp_of_mem ?_
  rintro a b ha - hne rfl
  obtain ⟨seq, hseq⟩ := Option.isSome_iff_exists.mp (hsome a ha)
  exact hne seq hseq seq hseq rfl

/-- The number of a future that is that of a thread. -/
def FutureRef.thread? (ref : FutureRef) : Option FutureId :=
  match ref.kind with
  | .thread => some ref.id
  | .child _ | .timer _ | .immediate => none

/-- The future that the end of a thread resolves, if it was spawned. -/
def Thread.future? (thread : Thread) : Option FutureId :=
  match thread.role with
  | .spawned id => some id
  | .main _ => none

/-- The future of a child. -/
def Child.ref (child : Child) : FutureRef :=
  ⟨child.future, .child child.seq⟩

/-! ### Contexts -/

/-- Making a future that has failed changes futures and wakes only. -/
theorem Context.failedFuture_eq (ctx : Context) (failure : Failure) :
    ∃ futures woken, (ctx.failedFuture failure).2 = { ctx with futures, woken } := by
  obtain ⟨futures, woken, heq⟩ := resolve_eq { ctx with futures := ctx.futures.create.2 }
    ctx.futures.create.1 (.error failure)
  exact ⟨futures, woken, heq⟩

/-- Whether a thread holds futures only that were yielded, and one was yielded for it. -/
structure Thread.Holds (thread : Thread) (yielded : List FutureRef) : Prop where
  /-- What it holds was yielded. -/
  refs : thread.refs ⊆ yielded
  /-- So was its own future, if it has one. -/
  role : ∀ id, thread.role = .spawned id → ⟨id, .thread⟩ ∈ yielded

/-- Futures that were yielded stay so. -/
theorem Thread.Holds.mono {thread : Thread} {yielded yielded' : List FutureRef}
    (h : thread.Holds yielded) (hsubset : yielded ⊆ yielded') : thread.Holds yielded' :=
  ⟨List.Subset.trans h.refs hsubset, fun id hrole => hsubset (h.role id hrole)⟩

/-- What the futures of a context have to do with those that were yielded and the commands that were
issued. -/
structure Context.Sourced (ctx : Context) (yielded : List FutureRef) (issued : List Command) :
    Prop where
  /-- The futures that there are were yielded, each once. -/
  ids : yielded.map FutureRef.id = List.range' 1 ctx.futures.slots.length
  /-- Those of children and timers are those of the commands. -/
  orders : (yielded.filter fun ref => ref.kind.isOrdered).map FutureRef.kind
    = issued.filterMap Command.kind?
  /-- Those of children are theirs. -/
  children : ctx.children.entries.map Child.ref = yielded.filter fun ref => ref.kind.isChild
  /-- The result of a child is the outcome of its future. -/
  results : ∀ child ∈ ctx.children.entries, ctx.futures.outcome? child.future = child.result
  /-- A timer is armed as long as its future has no outcome. -/
  timers : ∀ seq id, (seq, id) ∈ ctx.timers
    ↔ ⟨id, .timer seq⟩ ∈ yielded ∧ ctx.futures.outcome? id = none
  /-- Threads that were spawned hold futures that were yielded. -/
  spawned : ∀ thread ∈ ctx.spawned, thread.Holds yielded

namespace Context.Sourced

variable {ctx ctx' : Context} {yielded : List FutureRef} {issued issued' : List Command}

/-- A future that was yielded is there. -/
theorem id_le (h : ctx.Sourced yielded issued) {ref : FutureRef} (href : ref ∈ yielded) :
    0 < ref.id ∧ ref.id ≤ ctx.futures.slots.length := by
  have hid : ref.id ∈ yielded.map FutureRef.id := List.mem_map_of_mem href
  rw [h.ids, List.mem_range'_1] at hid
  exact ⟨hid.1, Nat.le_of_lt_succ (by rw [Nat.succ_eq_add_one, Nat.add_comm]; exact hid.2)⟩

/-- It has a slot. -/
theorem slot? (h : ctx.Sourced yielded issued) {ref : FutureRef} (href : ref ∈ yielded) :
    ∃ slot, ctx.futures.slot? ref.id = some slot :=
  FutureTable.slot?_isSome.mpr (h.id_le href)

/-- A future was yielded for one thing. -/
theorem eq_of_id (h : ctx.Sourced yielded issued) {ref other : FutureRef} (href : ref ∈ yielded)
    (hother : other ∈ yielded) (hid : ref.id = other.id) : ref = other := by
  have hnodup : (yielded.map FutureRef.id).Nodup := h.ids ▸ List.nodup_range'
  exact List.inj_on_of_nodup_map hnodup href hother hid

/-- A child or timer has one future. -/
theorem eq_of_kind (h : ctx.Sourced yielded issued)
    (once : (issued.filterMap Command.introduces?).Nodup) {ref other : FutureRef}
    (href : ref ∈ yielded) (hother : other ∈ yielded) (hordered : ref.kind.isOrdered = true)
    (hkind : ref.kind = other.kind) : ref = other := by
  have hnodup : ((yielded.filter fun ref => ref.kind.isOrdered).map FutureRef.kind).Nodup :=
    h.orders ▸ Command.nodup_kinds once
  refine List.inj_on_of_nodup_map hnodup (List.mem_filter.mpr ⟨href, hordered⟩)
    (List.mem_filter.mpr ⟨hother, ?_⟩) hkind
  rw [← hkind]
  exact hordered

/-- The future of a child was yielded for it. -/
theorem ref_mem (h : ctx.Sourced yielded issued) {child : Child}
    (hchild : child ∈ ctx.children.entries) : child.ref ∈ yielded := by
  have hmem : child.ref ∈ ctx.children.entries.map Child.ref := List.mem_map_of_mem hchild
  rw [h.children] at hmem
  exact (List.mem_filter.mp hmem).1

/-- Where a future is yielded. What was there stays; what is new has that future. -/
theorem grow (h : ctx.Sourced yielded issued) {ref : FutureRef}
    (hid : ref.id = ctx.futures.slots.length + 1)
    (hlength : ctx'.futures.slots.length = ctx.futures.slots.length + 1)
    (houtcomes : ∀ id ≤ ctx.futures.slots.length,
      ctx'.futures.outcome? id = ctx.futures.outcome? id)
    (horders : issued'.filterMap Command.kind? = issued.filterMap Command.kind?
      ++ ([ref].filter fun ref => ref.kind.isOrdered).map FutureRef.kind)
    (hchildren : ctx'.children.entries.map Child.ref = ctx.children.entries.map Child.ref
      ++ [ref].filter fun ref => ref.kind.isChild)
    (hresults : ∀ child ∈ ctx'.children.entries, child ∈ ctx.children.entries
      ∨ ctx'.futures.outcome? child.future = child.result)
    (htimers : ∀ seq id, (seq, id) ∈ ctx'.timers
      ↔ (seq, id) ∈ ctx.timers ∨ (ref = ⟨id, .timer seq⟩ ∧ ctx'.futures.outcome? id = none))
    (hspawned : ∀ thread ∈ ctx'.spawned, thread ∈ ctx.spawned ∨ thread.Holds (yielded ++ [ref])) :
    ctx'.Sourced (yielded ++ [ref]) issued' := by
  have hsame {other : FutureRef} (hother : other ∈ yielded) :
      ctx'.futures.outcome? other.id = ctx.futures.outcome? other.id :=
    houtcomes other.id (h.id_le hother).2
  refine ⟨?_, ?_, ?_, ?_, ?_, ?_⟩
  · rw [List.map_append, h.ids, hlength, List.range'_1_concat, List.map_singleton, hid,
      Nat.add_comm]
  · rw [List.filter_append, List.map_append, h.orders, horders]
  · rw [hchildren, h.children, List.filter_append]
  · intro child hchild
    rcases hresults child hchild with hold | hnew
    · exact (hsame (h.ref_mem hold)).trans (h.results child hold)
    · exact hnew
  · intro seq id
    rw [htimers, h.timers, List.mem_append, List.mem_singleton, or_and_right]
    refine or_congr ⟨?_, ?_⟩ ?_
    · rintro ⟨hmem, hnone⟩
      exact ⟨hmem, (hsame hmem).trans hnone⟩
    · rintro ⟨hmem, hnone⟩
      exact ⟨hmem, (hsame hmem).symm.trans hnone⟩
    · rw [eq_comm]
  · intro thread hthread
    rcases hspawned thread hthread with hold | hnew
    · exact (h.spawned thread hold).mono (List.subset_append_left _ _)
    · exact hnew

/-- Where no future is yielded, and none of a child or timer gets an outcome. -/
theorem stay (h : ctx.Sourced yielded issued)
    (hlength : ctx'.futures.slots.length = ctx.futures.slots.length)
    (houtcomes : ∀ ref ∈ yielded, ref.kind.isOrdered = true →
      ctx'.futures.outcome? ref.id = ctx.futures.outcome? ref.id)
    (horders : issued'.filterMap Command.kind? = issued.filterMap Command.kind?)
    (hchildren : ctx.children.Alike ctx'.children) (htimers : ctx'.timers = ctx.timers)
    (hspawned : ctx'.spawned ⊆ ctx.spawned) : ctx'.Sourced yielded issued' := by
  obtain ⟨f, hf, heq⟩ := hchildren
  refine ⟨?_, ?_, ?_, ?_, ?_, ?_⟩
  · rw [hlength]
    exact h.ids
  · rw [horders]
    exact h.orders
  · rw [heq, ← h.children, List.map_map]
    refine List.map_congr_left fun child _ => ?_
    obtain ⟨_, _, hchild⟩ := hf child
    rw [Function.comp_apply, hchild]
    rfl
  · rw [heq]
    refine List.forall_mem_map.mpr fun child hmem => ?_
    obtain ⟨_, _, hchild⟩ := hf child
    rw [hchild]
    exact (houtcomes child.ref (h.ref_mem hmem) rfl).trans (h.results child hmem)
  · intro seq id
    rw [htimers, h.timers]
    refine and_congr_right fun hmem => ?_
    rw [houtcomes _ hmem rfl]
  · intro thread hthread
    exact h.spawned thread (hspawned hthread)

/-- Without commands, only the state that operations change matters. -/
theorem of_eq (h : ctx.Sourced yielded issued) (hfutures : ctx'.futures = ctx.futures)
    (hchildren : ctx'.children = ctx.children) (htimers : ctx'.timers = ctx.timers)
    (hspawned : ctx'.spawned ⊆ ctx.spawned)
    (horders : issued'.filterMap Command.kind? = issued.filterMap Command.kind?) :
    ctx'.Sourced yielded issued' := by
  refine h.stay ?_ (fun _ _ _ => ?_) horders ?_ htimers hspawned
  · rw [hfutures]
  · rw [hfutures]
  · rw [hchildren]
    exact .refl _

/-- Starting a timer. -/
theorem startTimer (h : ctx.Sourced yielded (issued ++ ctx.commands)) (delay : Duration) :
    (ctx.startTimer delay).2.Sourced (yielded ++ [(ctx.startTimer delay).1])
      (issued ++ (ctx.startTimer delay).2.commands) := by
  have hcommands : (ctx.startTimer delay).2.commands
      = ctx.commands ++ [.startTimer (ctx.lastSeq + 1) delay.millis] :=
    rfl
  refine h.grow rfl ctx.futures.length_create (fun id _ => ctx.futures.outcome?_create id) ?_
    (List.append_nil _).symm (fun _ => .inl) ?_ (fun _ => .inl)
  · rw [hcommands, ← List.append_assoc, List.filterMap_append]
    rfl
  · intro seq id
    have htimers : (ctx.startTimer delay).2.timers
        = ctx.timers ++ [(ctx.lastSeq + 1, ctx.futures.create.1)] :=
      rfl
    rw [htimers, List.mem_append, List.mem_singleton]
    refine or_congr_right ⟨?_, ?_⟩
    · rintro ⟨⟩
      exact ⟨rfl, (ctx.futures.outcome?_create _).trans
        (FutureTable.outcome?_of_lt (Nat.lt_succ_self _))⟩
    · rintro ⟨heq, -⟩
      cases heq
      rfl

/-- Starting a child. -/
theorem startChild (h : ctx.Sourced yielded (issued ++ ctx.commands)) (stub : Stub)
    (method input : String) : (ctx.startChild stub method input).2.Sourced
      (yielded ++ [(ctx.startChild stub method input).1])
      (issued ++ (ctx.startChild stub method input).2.commands) := by
  obtain ⟨start, hseq, hchildren, hcommands⟩ : ∃ start : ChildStart, start.seq = ctx.lastSeq + 1
      ∧ (ctx.startChild stub method input).2.children.entries
        = ctx.children.entries ++ [.ofStart start (ctx.futures.slots.length + 1)]
      ∧ (ctx.startChild stub method input).2.commands = ctx.commands ++ [.startChild start] :=
    ⟨_, rfl, rfl, rfl⟩
  refine h.grow rfl ctx.futures.length_create (fun id _ => ctx.futures.outcome?_create id) ?_ ?_ ?_
    ?_ (fun _ => .inl)
  · rw [hcommands, ← List.append_assoc, List.filterMap_append]
    exact congrArg (fun seq => _ ++ [FutureKind.child seq]) hseq
  · rw [hchildren, List.map_append]
    exact congrArg (fun seq => _ ++ [FutureRef.mk _ (.child seq)]) hseq
  · rw [hchildren]
    refine List.forall_mem_append.mpr ⟨fun _ => .inl, List.forall_mem_singleton.mpr (.inr ?_)⟩
    exact (ctx.futures.outcome?_create _).trans (FutureTable.outcome?_of_lt (Nat.lt_succ_self _))
  · intro seq id
    refine ⟨.inl, fun hmem => hmem.resolve_right ?_⟩
    rintro ⟨heq, -⟩
    cases heq

/-- Making a future that has failed. -/
theorem failedFuture (h : ctx.Sourced yielded issued) (failure : Failure) :
    (ctx.failedFuture failure).2.Sourced (yielded ++ [(ctx.failedFuture failure).1]) issued := by
  obtain ⟨slot, hslot⟩ : ∃ slot, ctx.futures.create.2.slot? (ctx.futures.slots.length + 1)
      = some slot :=
    FutureTable.slot?_isSome.mpr ⟨Nat.succ_pos _, Nat.le_of_eq ctx.futures.length_create.symm⟩
  obtain ⟨futures, woken, heq⟩ := ctx.failedFuture_eq failure
  have hfutures : (ctx.failedFuture failure).2.futures
      = (ctx.futures.create.2.resolve (ctx.futures.slots.length + 1) (.error failure)).2 :=
    Context.futures_resolve _ _ _
  have hsame : (ctx.failedFuture failure).2.children = ctx.children
      ∧ (ctx.failedFuture failure).2.timers = ctx.timers
      ∧ (ctx.failedFuture failure).2.spawned = ctx.spawned := by
    rw [heq]
    exact ⟨rfl, rfl, rfl⟩
  refine h.grow rfl ?_ ?_ (List.append_nil _).symm ?_ ?_ ?_ ?_
  · rw [hfutures, FutureTable.length_resolve, FutureTable.length_create]
  · intro id hid
    rw [hfutures, FutureTable.outcome?_resolve hslot, if_neg (Nat.ne_of_lt (Nat.lt_succ_of_le hid)),
      FutureTable.outcome?_create]
  · rw [hsame.1]
    exact (List.append_nil _).symm
  · rw [hsame.1]
    exact fun _ => .inl
  · intro seq id
    rw [hsame.2.1]
    refine ⟨.inl, fun hmem => hmem.resolve_right ?_⟩
    rintro ⟨heq, -⟩
    cases heq
  · rw [hsame.2.2]
    exact fun _ => .inl

/-- Spawning a thread. -/
theorem spawn (h : ctx.Sourced yielded issued) {bindings : Variables} (steps : List Statement)
    (hbindings : bindings.refs ⊆ yielded) :
    (ctx.spawn bindings steps).2.Sourced (yielded ++ [(ctx.spawn bindings steps).1]) issued := by
  refine h.grow rfl ctx.futures.length_create (fun id _ => ctx.futures.outcome?_create id)
    (List.append_nil _).symm (List.append_nil _).symm (fun _ => .inl) ?_ ?_
  · intro seq id
    refine ⟨.inl, fun hmem => hmem.resolve_right ?_⟩
    rintro ⟨heq, -⟩
    cases heq
  · refine List.forall_mem_append.mpr ⟨fun _ => .inl, List.forall_mem_singleton.mpr (.inr ⟨?_, ?_⟩)⟩
    · rw [Thread.refs, List.append_nil]
      exact List.subset_append_of_subset_left _ hbindings
    · rintro id ⟨⟩
      exact List.mem_append_right _ (List.mem_singleton_self _)

/-- **An operation keeps the futures right**, if it uses futures that were yielded. -/
theorem run (h : ctx.Sourced yielded (issued ++ ctx.commands)) {op : Op}
    (huses : op.uses ⊆ yielded) : (op.run ctx).Sourced (yielded ++ (op.yielded? ctx).toList)
      (issued ++ (op.run ctx).commands) := by
  cases op with
  | startTimer delay => exact h.startTimer delay
  | startChild stub method input => exact h.startChild stub method input
  | failedFuture failure =>
      have hcommands : (ctx.failedFuture failure).2.commands = ctx.commands := by
        obtain ⟨futures, woken, heq⟩ := ctx.failedFuture_eq failure
        rw [heq]
      have hyields := h.failedFuture failure
      rw [← hcommands] at hyields
      exact hyields
  | spawn bindings steps => exact h.spawn steps huses
  | poll future waker =>
      rw [Op.yielded?, Option.toList_none, List.append_nil]
      exact h.stay (FutureTable.length_poll _ _ _)
        (fun ref _ _ => ctx.futures.outcome?_poll future.id waker ref.id) rfl (.refl _) rfl
        (List.Subset.refl _)
  | wake waker =>
      rw [Op.yielded?, Option.toList_none, List.append_nil]
      obtain ⟨woken, heq⟩ := ctx.wake_eq waker
      rw [Op.run, heq]
      exact h.of_eq rfl rfl rfl (List.Subset.refl _) rfl
  | abandon future =>
      rw [Op.yielded?, Option.toList_none, List.append_nil, Op.run, Context.abandon]
      split
      · exact h.stay rfl (fun _ _ _ => rfl) rfl (Children.alike_detach _ _) rfl
          (List.Subset.refl _)
      · exact h
  | note remark =>
      rw [Op.yielded?, Option.toList_none, List.append_nil]
      exact h.of_eq rfl rfl rfl (List.Subset.refl _) rfl

/-- The end of a thread keeps the futures right. -/
theorem conclude (h : ctx.Sourced yielded (issued ++ ctx.commands)) {role : Role}
    (hrole : ∀ id, role = .spawned id → ⟨id, .thread⟩ ∈ yielded) (outcome : Outcome) :
    (Thread.conclude role outcome ctx).Sourced yielded
      (issued ++ (Thread.conclude role outcome ctx).commands) := by
  obtain ⟨futures, woken, mainResult, heq⟩ := ctx.conclude_eq role outcome
  have hcommands : (Thread.conclude role outcome ctx).commands = ctx.commands := by rw [heq]
  rw [hcommands]
  rcases role with typed | id
  · cases typed <;> exact h.of_eq rfl rfl rfl (List.Subset.refl _) rfl
  · have hown := hrole id rfl
    obtain ⟨slot, hslot⟩ := h.slot? hown
    have hfutures : (Thread.conclude (.spawned id) outcome ctx).futures
        = (ctx.futures.resolve id outcome).2 :=
      ctx.futures_resolve id outcome
    refine h.stay ?_ ?_ rfl ?_ ?_ ?_
    · rw [hfutures, FutureTable.length_resolve]
    · -- The future of the thread is that of no child and of no timer.
      intro ref href hordered
      have hother : ref.id ≠ id := by
        intro hid
        have hsame := h.eq_of_id href hown hid
        rw [hsame] at hordered
        cases hordered
      rw [hfutures, FutureTable.outcome?_resolve hslot, if_neg hother]
    · rw [heq]
      exact .refl _
    · rw [heq]
    · rw [heq]
      exact List.Subset.refl _

/-- Something is heard of a child; the outcome of its future is its result afterwards. -/
theorem put (h : ctx.Sourced yielded issued) {child child' : Child}
    (unique : ∀ other ∈ ctx.children.entries, other.seq = child.seq → other = child)
    (hchild : child ∈ ctx.children.entries) (hseq : child'.seq = child.seq)
    (hfuture : child'.future = child.future)
    (hlength : ctx'.futures.slots.length = ctx.futures.slots.length)
    (houtcomes : ∀ id, ctx'.futures.outcome? id
      = if id = child.future then child'.result else ctx.futures.outcome? id)
    (hchildren : ctx'.children = ctx.children.put child') (htimers : ctx'.timers = ctx.timers)
    (hspawned : ctx'.spawned = ctx.spawned) : ctx'.Sourced yielded issued := by
  have hown := h.ref_mem hchild
  refine ⟨hlength ▸ h.ids, h.orders, ?_, ?_, ?_, hspawned ▸ h.spawned⟩
  · rw [hchildren, ← h.children, Children.put, List.map_map]
    refine List.map_congr_left fun old hold => ?_
    rw [Function.comp_apply]
    split
    · rename_i hsame
      rw [unique old hold (hsame.trans hseq), Child.ref, Child.ref, hseq, hfuture]
    · rfl
  · rw [hchildren]
    refine List.forall_mem_map.mpr fun old hold => ?_
    split
    · rw [houtcomes, if_pos hfuture]
    · rename_i hother
      have hdiffer : old.future ≠ child.future := by
        intro hid
        have hsame := h.eq_of_id (h.ref_mem hold) hown hid
        exact hother ((FutureKind.child.inj (congrArg FutureRef.kind hsame)).trans hseq.symm)
      rw [houtcomes, if_neg hdiffer]
      exact h.results old hold
  · intro seq id
    rw [htimers, h.timers]
    refine and_congr_right fun hmem => ?_
    have hdiffer : id ≠ child.future := by
      intro hid
      have hsame := congrArg FutureRef.kind (h.eq_of_id hmem hown hid)
      cases hsame
    rw [houtcomes, if_neg hdiffer]

/-- A timer fires. -/
theorem disarm (h : ctx.Sourced yielded issued)
    (once : (issued.filterMap Command.introduces?).Nodup) {seq : Nat} {future : FutureId}
    (harmed : (seq, future) ∈ ctx.timers) (outcome : Outcome)
    (hlength : ctx'.futures.slots.length = ctx.futures.slots.length)
    (houtcomes : ∀ id, ctx'.futures.outcome? id
      = if id = future then some outcome else ctx.futures.outcome? id)
    (hchildren : ctx'.children = ctx.children)
    (htimers : ctx'.timers = ctx.timers.filter fun timer => timer.1 ≠ seq)
    (hspawned : ctx'.spawned = ctx.spawned) : ctx'.Sourced yielded issued := by
  obtain ⟨hown, -⟩ := (h.timers seq future).mp harmed
  refine ⟨hlength ▸ h.ids, h.orders, hchildren ▸ h.children, ?_, ?_, hspawned ▸ h.spawned⟩
  · rw [hchildren]
    intro child hchild
    have hdiffer : child.future ≠ future := by
      intro hid
      have hsame := congrArg FutureRef.kind (h.eq_of_id (h.ref_mem hchild) hown hid)
      cases hsame
    rw [houtcomes, if_neg hdiffer]
    exact h.results child hchild
  · intro other id
    rw [htimers, List.mem_filter, h.timers, houtcomes]
    constructor
    · rintro ⟨⟨hmem, hnone⟩, hother⟩
      have hdiffer : id ≠ future := by
        intro hid
        have hsame := congrArg FutureRef.kind (h.eq_of_id hmem hown hid)
        cases hsame
        simp at hother
      rw [if_neg hdiffer]
      exact ⟨hmem, hnone⟩
    · rintro ⟨hmem, hnone⟩
      split at hnone
      · cases hnone
      · rename_i hdiffer
        refine ⟨⟨hmem, hnone⟩, ?_⟩
        rw [decide_eq_true_eq]
        rintro rfl
        exact hdiffer (congrArg FutureRef.id (h.eq_of_kind once hmem hown rfl rfl))

/-- **An input keeps the futures right.** -/
theorem applyInput {event : Event} {events : List Event} (h : ctx.Sourced yielded issued)
    (once : (issued.filterMap Command.introduces?).Nodup) (petitioned : ctx.Petitioned issued)
    (follows : ctx.Follows events issued) (happly : Execution.applyInput ctx event = .ok ctx') :
    ctx'.Sourced yielded issued := by
  rcases Execution.applyInput_inv happly with ⟨_, _, _, _, _, _, _, hnews, -, -, -⟩
    | ⟨seq, _, _, rfl, -⟩ | ⟨_, _, -, rfl⟩
  · obtain ⟨child, child', outcome, hget, hchild, rfl⟩ :=
      Execution.applyInput_news_inv hnews happly
    have hmem : child ∈ ctx.children.entries := List.mem_of_find?_eq_some hget
    have hresult := (follows.follows child hmem).result_of_apply hchild
    obtain ⟨-, heq, houtcome⟩ := Child.apply_eq hchild
    have hkept : child'.seq = child.seq ∧ child'.future = child.future
        ∧ child'.result = outcome := by
      rw [heq, houtcome, hresult]
      exact ⟨rfl, rfl, Option.or_none⟩
    have hnone : ctx.futures.outcome? child.future = none := (h.results child hmem).trans hresult
    have unique : ∀ other ∈ ctx.children.entries, other.seq = child.seq → other = child :=
      fun other hother hseq => petitioned.eq_of_seq hother hmem hseq
    cases outcome with
    | none =>
        dsimp only
        refine h.put unique hmem hkept.1 hkept.2.1 rfl (fun id => ?_) rfl rfl rfl
        split
        · rename_i hid
          rw [hid, hnone, hkept.2.2]
        · rfl
    | some outcome =>
        dsimp only
        obtain ⟨slot, hslot⟩ : ∃ slot, ctx.futures.slot? child.future = some slot :=
          h.slot? (h.ref_mem hmem)
        obtain ⟨futures, woken, hresolve⟩ := Context.resolve_eq
          { ctx with children := ctx.children.put child' } child'.future outcome
        refine h.put unique hmem hkept.1 hkept.2.1 ?_ (fun id => ?_) ?_ ?_ ?_
        · rw [Context.futures_resolve, FutureTable.length_resolve]
        · rw [Context.futures_resolve, hkept.2.1, FutureTable.outcome?_resolve hslot, hnone,
            hkept.2.2, Option.none_or]
        · rw [hresolve]
        · rw [hresolve]
        · rw [hresolve]
  · obtain ⟨future, harmed, rfl⟩ := Execution.applyInput_timerFired_inv happly
    obtain ⟨hown, hnone⟩ := (h.timers seq future).mp harmed
    obtain ⟨slot, hslot⟩ : ∃ slot, ctx.futures.slot? future = some slot := h.slot? hown
    obtain ⟨futures, woken, hresolve⟩ := Context.resolve_eq
      { ctx with timers := ctx.timers.filter fun timer => timer.1 ≠ seq } future (.ok "")
    refine h.disarm once harmed (.ok "") ?_ (fun id => ?_) ?_ ?_ ?_
    · rw [Context.futures_resolve, FutureTable.length_resolve]
    · rw [Context.futures_resolve, FutureTable.outcome?_resolve hslot, hnone, Option.none_or]
    · rw [hresolve]
    · rw [hresolve]
    · rw [hresolve]
  · exact h.of_eq rfl rfl rfl (List.Subset.refl _) rfl

/-- Several operations keep the futures right, and what they see of them are outcomes that stay. -/
theorem foldl_run (h : ctx.Sourced yielded (issued ++ ctx.commands)) {ops : List Op}
    (hinformed : Op.Informed yielded ctx ops) :
    (ops.foldl Op.run ctx).Sourced (yielded ++ Op.yields ctx ops)
        (issued ++ (ops.foldl Op.run ctx).commands)
      ∧ ∀ ref outcome, (ref, some outcome) ∈ Op.sights ctx ops →
        ref ∈ yielded ++ Op.yields ctx ops
          ∧ (ops.foldl Op.run ctx).futures.outcome? ref.id = some outcome := by
  induction ops generalizing ctx yielded with
  | nil =>
      rw [Op.yields, List.append_nil]
      exact ⟨h, fun _ _ hsight => (List.not_mem_nil hsight).elim⟩
  | cons op ops ih =>
      obtain ⟨huses, hrest⟩ := hinformed
      obtain ⟨hafter, hsights⟩ := ih (h.run huses) hrest
      rw [Op.yields, ← List.append_assoc]
      refine ⟨hafter, fun ref outcome hsight => ?_⟩
      rcases List.mem_append.mp hsight with hnow | hlater
      · cases op with
        | poll future waker =>
            have hseen := List.mem_singleton.mp hnow
            obtain rfl : ref = future := congrArg Prod.fst hseen
            have href : ref ∈ yielded := huses List.mem_cons_self
            obtain ⟨slot, hslot⟩ := h.slot? href
            have houtcome : ctx.futures.outcome? ref.id = some outcome :=
              (FutureTable.poll_fst hslot waker).symm.trans (congrArg Prod.snd hseen).symm
            exact ⟨List.mem_append_left _ (List.mem_append_left _ href),
              Op.keeps_foldl (.poll ref waker :: ops) ctx ref.id outcome houtcome⟩
        | _ => cases hnow
      · exact hsights ref outcome hlater

end Context.Sourced

end DurableWorkflow
