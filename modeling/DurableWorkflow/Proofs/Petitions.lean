import DurableWorkflow.Proofs.Tracking
import Mathlib.Data.List.Nodup

/-!
# Requests to cancel children

What a child record says about the past is in the commands that were issued: a child was started by
an earlier command, and it is marked as asked to cancel exactly if a command asks it. That is the
invariant. A step of a thread adds commands or children, an input changes the state of a child, and
settling turns the marks that it sets into commands.

## Main definitions

* `Command.asks?` — the child that a command asks to cancel.
* `Context.Petitioned` — the invariant of children and commands.
* `Children.Correspond` — how children may change together with what is issued.
* `Child.isDue`, `Children.petitions` — who is asked when a workflow settles, and how.

## Main results

* `Context.Petitioned.moves`, `Context.Petitioned.applyInput` — threads and inputs keep it.
* `Context.Petitioned.petitions` — settling keeps it.
-/

namespace DurableWorkflow

/-- The number of the child that a command asks to cancel. -/
def Command.asks? : Command → Option Nat
  | .cancelChild seq _ => some seq
  | _ => none

/-! ### Children and commands -/

/-- What the children of a context have to do with the commands that were issued for it. -/
structure Context.Petitioned (ctx : Context) (issued : List Command) : Prop where
  /-- The numbers of children ascend. -/
  ascending : ctx.children.entries.Pairwise fun child other => child.seq < other.seq
  /-- They were given out. -/
  bounded : ∀ child ∈ ctx.children.entries, child.seq ≤ ctx.lastSeq
  /-- A child was started under its number and name, and is detached if it was started so. -/
  started : ∀ child ∈ ctx.children.entries, ∃ start, .startChild start ∈ issued
    ∧ start.seq = child.seq ∧ start.workflowId = child.workflowId
    ∧ (start.detached = true → child.detached = true)
  /-- A child that is marked was asked by its name. -/
  asked : ∀ child ∈ ctx.children.entries, child.cancelRequested = true →
    .cancelChild child.seq child.workflowId ∈ issued
  /-- Who was asked is a child that is marked. -/
  marked : ∀ seq ∈ issued.filterMap Command.asks?, ∃ child ∈ ctx.children.entries,
    child.seq = seq ∧ child.cancelRequested = true
  /-- Nobody was asked twice. -/
  once : (issued.filterMap Command.asks?).Nodup

/-- Whether a change of children corresponds to commands: who gets a mark is asked, once, and who is
asked gets a mark. -/
structure Children.Correspond (children : Children) (f : Child → Child) (commands : List Command) :
    Prop where
  /-- Children keep their numbers and names, and are not attached again. -/
  same : ∀ child ∈ children.entries, (f child).seq = child.seq
    ∧ (f child).workflowId = child.workflowId
    ∧ (child.detached = true → (f child).detached = true)
  /-- They keep their marks. -/
  keeps : ∀ child ∈ children.entries, child.cancelRequested = true →
    (f child).cancelRequested = true
  /-- Who gets a mark is asked. -/
  marks : ∀ child ∈ children.entries, (f child).cancelRequested = true →
    child.cancelRequested = true ∨ .cancelChild child.seq child.workflowId ∈ commands
  /-- Who is asked gets a mark. -/
  asks : ∀ seq ∈ commands.filterMap Command.asks?, ∃ child ∈ children.entries, child.seq = seq
    ∧ child.cancelRequested = false ∧ (f child).cancelRequested = true
  /-- Nobody is asked twice. -/
  once : (commands.filterMap Command.asks?).Nodup

namespace Context.Petitioned

variable {ctx ctx' : Context} {issued : List Command}

/-- Children with the same number are the same. -/
theorem eq_of_seq (h : ctx.Petitioned issued) {child other : Child}
    (hchild : child ∈ ctx.children.entries) (hother : other ∈ ctx.children.entries)
    (hseq : child.seq = other.seq) : child = other := by
  have hnodup : (ctx.children.entries.map Child.seq).Nodup :=
    List.pairwise_map.mpr (h.ascending.imp Nat.ne_of_lt)
  exact List.inj_on_of_nodup_map hnodup hchild hother hseq

/-- Commands may be issued that ask nobody. -/
theorem append (h : ctx.Petitioned issued) {commands : List Command}
    (hnone : ∀ command ∈ commands, command.asks? = none) : ctx.Petitioned (issued ++ commands) := by
  have hsame : (issued ++ commands).filterMap Command.asks? = issued.filterMap Command.asks? := by
    rw [List.filterMap_append, List.filterMap_eq_nil_iff.mpr hnone, List.append_nil]
  refine ⟨h.ascending, h.bounded, ?_, ?_, ?_, ?_⟩
  · intro child hchild
    obtain ⟨start, hstart, hrest⟩ := h.started child hchild
    exact ⟨start, List.mem_append_left _ hstart, hrest⟩
  · intro child hchild hmark
    exact List.mem_append_left _ (h.asked child hchild hmark)
  · rw [hsame]
    exact h.marked
  · rw [hsame]
    exact h.once

/-- Only the children and the last number matter. -/
theorem of_eq (h : ctx.Petitioned issued) (hchildren : ctx'.children = ctx.children)
    (hlast : ctx'.lastSeq = ctx.lastSeq) : ctx'.Petitioned issued := by
  refine ⟨?_, ?_, ?_, ?_, ?_, h.once⟩ <;> rw [hchildren]
  · exact h.ascending
  · rw [hlast]
    exact h.bounded
  · exact h.started
  · exact h.asked
  · exact h.marked

/-- **Children may change together with what is issued**, as long as they correspond. -/
theorem map (h : ctx.Petitioned issued) {f : Child → Child} {commands : List Command}
    (hf : ctx.children.Correspond f commands) :
    ({ ctx with children := ⟨ctx.children.entries.map f⟩ } : Context).Petitioned
      (issued ++ commands) := by
  refine ⟨List.pairwise_map.mpr ?_, List.forall_mem_map.mpr ?_, List.forall_mem_map.mpr ?_,
    List.forall_mem_map.mpr ?_, ?_, ?_⟩
  · refine h.ascending.imp_of_mem fun hchild hother hless => ?_
    rwa [(hf.same _ hchild).1, (hf.same _ hother).1]
  · intro child hchild
    rw [(hf.same child hchild).1]
    exact h.bounded child hchild
  · intro child hchild
    obtain ⟨hseq, hname, hdetached⟩ := hf.same child hchild
    obtain ⟨start, hstart, hseq', hname', hdetached'⟩ := h.started child hchild
    exact ⟨start, List.mem_append_left _ hstart, hseq'.trans hseq.symm, hname'.trans hname.symm,
      fun hstart => hdetached (hdetached' hstart)⟩
  · intro child hchild hmark
    obtain ⟨hseq, hname, -⟩ := hf.same child hchild
    rw [hseq, hname]
    rcases hf.marks child hchild hmark with hmarked | hnew
    · exact List.mem_append_left _ (h.asked child hchild hmarked)
    · exact List.mem_append_right _ hnew
  · intro seq hmem
    rw [List.filterMap_append] at hmem
    obtain ⟨child, hchild, hnumber, hmark⟩ : ∃ child ∈ ctx.children.entries, child.seq = seq
        ∧ (f child).cancelRequested = true := by
      rcases List.mem_append.mp hmem with hold | hnew
      · obtain ⟨child, hchild, hnumber, hmarked⟩ := h.marked seq hold
        exact ⟨child, hchild, hnumber, hf.keeps child hchild hmarked⟩
      · obtain ⟨child, hchild, hnumber, -, hmark⟩ := hf.asks seq hnew
        exact ⟨child, hchild, hnumber, hmark⟩
    exact ⟨f child, List.mem_map_of_mem hchild, (hf.same child hchild).1.trans hnumber, hmark⟩
  · rw [List.filterMap_append]
    refine List.nodup_append.mpr ⟨h.once, hf.once, ?_⟩
    rintro seq hold other hnew rfl
    obtain ⟨child, hchild, hnumber, hmarked⟩ := h.marked seq hold
    obtain ⟨other, hother, hnumber', hunmarked, -⟩ := hf.asks seq hnew
    obtain rfl := h.eq_of_seq hchild hother (hnumber.trans hnumber'.symm)
    rw [hmarked] at hunmarked
    cases hunmarked

/-- Children may change as long as they keep their numbers, names and marks and are not attached
again. -/
theorem map_of_same (h : ctx.Petitioned issued) {f : Child → Child}
    (hf : ∀ child ∈ ctx.children.entries, (f child).seq = child.seq
      ∧ (f child).workflowId = child.workflowId
      ∧ (f child).cancelRequested = child.cancelRequested
      ∧ (child.detached = true → (f child).detached = true)) :
    ({ ctx with children := ⟨ctx.children.entries.map f⟩ } : Context).Petitioned issued := by
  have hnone : ctx.children.Correspond f [] := by
    refine ⟨?_, ?_, ?_, List.forall_mem_nil _, .nil⟩
    · intro child hchild
      obtain ⟨hseq, hname, -, hdetached⟩ := hf child hchild
      exact ⟨hseq, hname, hdetached⟩
    · intro child hchild hmark
      exact (hf child hchild).2.2.1.trans hmark
    · intro child hchild hmark
      exact .inl ((hf child hchild).2.2.1.symm.trans hmark)
  have hmapped := h.map hnone
  rwa [List.append_nil] at hmapped

/-- Starting a timer. -/
theorem startTimer (h : ctx.Petitioned (issued ++ ctx.commands)) (delay : Duration) :
    (ctx.startTimer delay).2.Petitioned (issued ++ (ctx.startTimer delay).2.commands) := by
  have happend : ctx.Petitioned (issued ++ ctx.commands ++ [.startTimer (ctx.lastSeq + 1)
      delay.millis]) := h.append fun command hcommand => by
    cases List.mem_singleton.mp hcommand
    rfl
  rw [List.append_assoc] at happend
  refine ⟨happend.ascending, ?_, happend.started, happend.asked, happend.marked, happend.once⟩
  intro child hchild
  exact Nat.le_succ_of_le (happend.bounded child hchild)

/-- Starting a child. -/
theorem startChild (h : ctx.Petitioned (issued ++ ctx.commands)) (stub : Stub)
    (method input : String) :
    (ctx.startChild stub method input).2.Petitioned
      (issued ++ (ctx.startChild stub method input).2.commands) := by
  obtain ⟨start, future, hseq, hchildren, hcommands, hlast⟩ :
      ∃ start future, start.seq = ctx.lastSeq + 1
        ∧ (ctx.startChild stub method input).2.children.entries
          = ctx.children.entries ++ [.ofStart start future]
        ∧ (ctx.startChild stub method input).2.commands = ctx.commands ++ [.startChild start]
        ∧ (ctx.startChild stub method input).2.lastSeq = ctx.lastSeq + 1 :=
    ⟨_, _, rfl, rfl, rfl, rfl⟩
  have happend : ctx.Petitioned (issued ++ ctx.commands ++ [.startChild start]) :=
    h.append fun command hcommand => by
      cases List.mem_singleton.mp hcommand
      rfl
  rw [hcommands, ← List.append_assoc]
  refine ⟨?_, ?_, ?_, ?_, ?_, happend.once⟩ <;> rw [hchildren]
  · refine List.pairwise_append.mpr ⟨h.ascending, List.pairwise_singleton _ _, ?_⟩
    intro child hchild other hother
    cases List.mem_singleton.mp hother
    have hbounded := h.bounded child hchild
    simp only [Child.ofStart]
    omega
  · rw [hlast]
    refine List.forall_mem_append.mpr ⟨fun child hchild => ?_, ?_⟩
    · exact Nat.le_succ_of_le (h.bounded child hchild)
    · exact List.forall_mem_singleton.mpr (Nat.le_of_eq hseq)
  · refine List.forall_mem_append.mpr ⟨happend.started, List.forall_mem_singleton.mpr ?_⟩
    exact ⟨start, by simp, rfl, rfl, fun hdetached => hdetached⟩
  · refine List.forall_mem_append.mpr ⟨happend.asked, List.forall_mem_singleton.mpr ?_⟩
    intro hmark
    cases hmark
  · intro seq hmem
    obtain ⟨child, hchild, hrest⟩ := happend.marked seq hmem
    exact ⟨child, List.mem_append_left _ hchild, hrest⟩

/-- **Whatever threads do.** -/
theorem moves (h : ctx.Moves ctx') (petitioned : ctx.Petitioned (issued ++ ctx.commands)) :
    ctx'.Petitioned (issued ++ ctx'.commands) := by
  induction h with
  | refl => exact petitioned
  | tail _ hmove ih =>
      rcases hmove.inv with ⟨_, _, _, _, _, rfl⟩ | ⟨delay, rfl⟩ | ⟨stub, method, input, rfl⟩
        | ⟨seq, rfl⟩
      · exact ih.of_eq rfl rfl
      · exact ih.startTimer delay
      · exact ih.startChild stub method input
      · refine ih.map_of_same fun child _ => ?_
        split <;> simp

/-- A child changes its state. -/
theorem put (h : ctx.Petitioned issued) {seq : Nat} {child child' : Child}
    {transition : ChildTransition} {outcome : Option Outcome}
    (hget : ctx.children.get? seq = some child)
    (happly : child.apply transition = .ok (child', outcome)) :
    ({ ctx with children := ctx.children.put child' } : Context).Petitioned issued := by
  have hkept : child'.seq = child.seq ∧ child'.workflowId = child.workflowId
      ∧ child'.cancelRequested = child.cancelRequested ∧ child'.detached = child.detached := by
    simp only [Child.apply] at happly
    split at happly
    · cases transition <;> cases happly <;> exact ⟨rfl, rfl, rfl, rfl⟩
    · cases happly
  refine h.map_of_same fun old hold => ?_
  split
  · rename_i hseq
    have hchild : child ∈ ctx.children.entries := List.mem_of_find?_eq_some hget
    obtain rfl := h.eq_of_seq hold hchild (hseq.trans hkept.1)
    exact ⟨hkept.1, hkept.2.1, hkept.2.2.1, fun hdetached => hkept.2.2.2.trans hdetached⟩
  · exact ⟨rfl, rfl, rfl, fun hdetached => hdetached⟩

/-- **Whatever input comes.** -/
theorem applyInput {event : Event} (h : ctx.Petitioned issued)
    (happly : Execution.applyInput ctx event = .ok ctx') : ctx'.Petitioned issued := by
  rcases Execution.applyInput_inv happly with ⟨_, _, _, _, _, _, _, -, hget, hchild, rfl⟩
    | ⟨_, _, _, -, rfl⟩ | ⟨_, _, -, rfl⟩
  · exact (h.put hget hchild).of_eq rfl rfl
  · exact h.of_eq rfl rfl
  · exact h.of_eq rfl rfl

end Context.Petitioned

/-! ### Settling -/

namespace Child

/-- A pending child is attached and has not ended. -/
theorem isPending_iff {child : Child} :
    child.isPending = true ↔ child.detached = false ∧ child.state.isTerminal = false := by
  simp [isPending]

/-- Other children have ended or are detached. -/
theorem isPending_eq_false_iff {child : Child} :
    child.isPending = false ↔ child.state.isTerminal = true ∨ child.detached = true := by
  cases hdetached : child.detached <;> simp [isPending, hdetached]

/-- Whether settling asks a child to cancel. -/
def isDue (child : Child) : Bool :=
  child.isPending && !child.cancelRequested

/-- A child after settling. -/
def petition (child : Child) : Child :=
  if child.isDue then { child with cancelRequested := true } else child

/-- Settling changes the mark of a child only. -/
theorem petition_eq (child : Child) :
    child.petition = { child with cancelRequested := child.cancelRequested || child.isDue } := by
  rw [petition]
  cases hdue : child.isDue <;> simp

/-- Settling leaves no pending child that was not asked. -/
theorem cancelRequested_petition (child : Child) (h : child.petition.isPending = true) :
    child.petition.cancelRequested = true := by
  rw [petition_eq] at h ⊢
  have hpending : child.isPending = true := h
  cases hmark : child.cancelRequested <;> simp [isDue, hpending, hmark]

end Child

namespace Children

variable (children : Children)

/-- Settling asks the children that are due, by number and name. -/
theorem requestCancel_eq : children.requestCancel
    = ((children.entries.filter Child.isDue).map fun child => (child.seq, child.workflowId),
      ⟨children.entries.map Child.petition⟩) :=
  rfl

/-- The requests as commands. -/
def petitions : List Command :=
  children.requestCancel.1.map fun request => .cancelChild request.1 request.2

/-- The requests name the children that are due. -/
theorem petitions_eq : children.petitions
    = (children.entries.filter Child.isDue).map fun child =>
      .cancelChild child.seq child.workflowId := by
  rw [petitions, requestCancel_eq, List.map_map]
  rfl

/-- The numbers in the requests. -/
theorem filterMap_asks?_petitions : children.petitions.filterMap Command.asks?
    = (children.entries.filter Child.isDue).map Child.seq := by
  rw [petitions_eq, List.filterMap_map]
  exact congrFun List.filterMap_eq_map _

end Children

/-- What settling does to children corresponds to its requests. -/
theorem Context.Petitioned.correspond {ctx : Context} {issued : List Command}
    (h : ctx.Petitioned issued) :
    ctx.children.Correspond Child.petition ctx.children.petitions := by
  refine ⟨?_, ?_, ?_, ?_, ?_⟩
  · intro child _
    rw [child.petition_eq]
    exact ⟨rfl, rfl, fun hdetached => hdetached⟩
  · intro child _ hmark
    simp [child.petition_eq, hmark]
  · intro child hchild hmark
    cases hmarked : child.cancelRequested with
    | true => exact .inl rfl
    | false =>
        rw [child.petition_eq, hmarked] at hmark
        rw [Children.petitions_eq]
        exact .inr (List.mem_map_of_mem (List.mem_filter.mpr ⟨hchild, by simpa using hmark⟩))
  · intro seq hseq
    rw [Children.filterMap_asks?_petitions] at hseq
    obtain ⟨child, hdue, rfl⟩ := List.mem_map.mp hseq
    obtain ⟨hchild, hasked⟩ := List.mem_filter.mp hdue
    refine ⟨child, hchild, rfl, ?_, ?_⟩
    · simpa using (Bool.and_eq_true_iff.mp hasked).2
    · simp [child.petition_eq, hasked]
  · rw [Children.filterMap_asks?_petitions]
    exact List.pairwise_map.mpr ((h.ascending.imp Nat.ne_of_lt).filter _)

/-- **Settling keeps the invariant**: who is due is asked and marked. -/
theorem Context.Petitioned.petitions {ctx : Context} {issued : List Command}
    (h : ctx.Petitioned issued) :
    ({ ctx with children := ctx.children.requestCancel.2 } : Context).Petitioned
      (issued ++ ctx.children.petitions) :=
  h.map h.correspond

end DurableWorkflow
