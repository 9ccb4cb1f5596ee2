import Mathlib.Data.List.Induction
import Mathlib.Data.List.Nodup
import DurableWorkflow.Registry

/-!
# Registration

An interface is declared method by method, and an implementation of it is built from programs that
are provided one after the other. It is built if the methods with programs are the declared ones.
Otherwise the first program for a method that is not declared is blamed, and if there is none, the
first declared method without a program. Of several programs for a method the last one counts.

Workers register implementations in batches. A batch is taken up to the first implementation whose
workflow type has one already; whatever was taken stays. So a registry has one implementation for
each type, the first that was registered, and resolves just the methods that it declares.

## Main definitions

* `Implementation.Verdict` — what building an implementation comes to.
* `Implementation.Built` — an implementation that was built.
* `Registry.registerBatches` — batches registered one after the other.

## Main results

* `Implementation.build_verdict` — the verdict on any declarations and programs.
* `Registry.registerAll_takes` — what a batch comes to.
* `Registry.resolve_eq`, `Registry.isSome_resolve` — what a registry resolves.
* `registration_unambiguous` — all of it, for any sequence of calls.
-/

namespace DurableWorkflow

/-! ### Interfaces -/

namespace Interface

variable {name method : String} {declared : List String}

/-- One more declaration counts unless the method was declared before. -/
theorem methods_concat (name : String) (declared : List String) (method : String) :
    (ofDeclarations name (declared ++ [method])).methods
      = if method ∈ (ofDeclarations name declared).methods
        then (ofDeclarations name declared).methods
        else (ofDeclarations name declared).methods ++ [method] := by
  rw [ofDeclarations, List.foldl_append]
  rfl

/-- **The first method of a kind is the first declaration of that kind**, although of several
declarations of a method one is kept. -/
theorem find?_methods (p : String → Bool) (declared : List String) :
    (ofDeclarations name declared).methods.find? p = declared.find? p := by
  induction declared using List.reverseRecOn with
  | nil => rfl
  | append_singleton declared method ih =>
      rw [methods_concat, List.find?_append, ← ih]
      split
      · rename_i hmem
        cases hfind : (ofDeclarations name declared).methods.find? p with
        | some first => rfl
        | none =>
            have hmethod : p method = false := by
              simpa using List.find?_eq_none.mp hfind method hmem
            rw [Option.none_or, List.find?_cons_of_neg (by simp [hmethod]), List.find?_nil]
      · rw [List.find?_append]

/-- An interface declares what was declared. -/
theorem declares_iff :
    (ofDeclarations name declared).declares method = true ↔ method ∈ declared := by
  have hfound : ((ofDeclarations name declared).methods.find? fun other => other = method).isSome
      = (declared.find? fun other => other = method).isSome :=
    congrArg Option.isSome (find?_methods _ declared)
  rw [Bool.eq_iff_iff, List.find?_isSome, List.find?_isSome] at hfound
  simpa [declares] using hfound

end Interface

/-! ### Implementations -/

namespace Implementation

/-- What building an implementation comes to, of an interface that was declared method by method,
and with programs that were provided one after the other. -/
inductive Verdict (name : String) (declared : List String) (provided : List (String × Program)) :
    Except RegistryError Implementation → Prop
  /-- The methods with programs are the declared ones. Each has the last program that was provided
  for it. -/
  | built {implementation : Implementation} :
      (∀ method, method ∈ provided.map Prod.fst ↔ method ∈ declared) →
      implementation.interface = .ofDeclarations name declared →
      (∀ method ∈ declared, ∃ before program after, provided = before ++ (method, program) :: after
        ∧ method ∉ after.map Prod.fst ∧ implementation.program? method = some program) →
      (∀ method, method ∉ declared → implementation.program? method = none) →
      Verdict name declared provided (.ok implementation)
  /-- A program was provided for a method that is not declared, for the first time. -/
  | undeclared {before after : List (String × Program)} {method : String} {program : Program} :
      provided = before ++ (method, program) :: after → method ∉ declared →
      (∀ other ∈ before.map Prod.fst, other ∈ declared) →
      Verdict name declared provided (.error (.undeclaredMethod name method))
  /-- All programs are for declared methods, and a declared method has none, which is the first such
  declaration. -/
  | missing {before after : List String} {method : String} :
      (∀ other ∈ provided.map Prod.fst, other ∈ declared) →
      declared = before ++ method :: after → method ∉ provided.map Prod.fst →
      (∀ other ∈ before, other ∈ provided.map Prod.fst) →
      Verdict name declared provided (.error (.missingMethod name method))

/-- An implementation that was built, of an interface that was declared method by method. -/
def Built (implementation : Implementation) : Prop :=
  ∃ name declared provided,
    build (.ofDeclarations name declared) provided = .ok implementation

/-- The last program that was provided for a method counts. -/
theorem lookup_reverse {provided : List (String × Program)} {method : String}
    (h : method ∈ provided.map Prod.fst) :
    ∃ before program after, provided = before ++ (method, program) :: after
      ∧ method ∉ after.map Prod.fst ∧ provided.reverse.lookup method = some program := by
  cases hlookup : provided.reverse.lookup method with
  | none =>
      obtain ⟨entry, hmem, rfl⟩ := List.mem_map.mp h
      simpa using List.lookup_eq_none_iff.mp hlookup entry (List.mem_reverse.mpr hmem)
  | some program =>
      obtain ⟨after, before, hsplit, hafter⟩ := List.lookup_eq_some_iff.mp hlookup
      refine ⟨before.reverse, program, after.reverse, ?_, ?_, rfl⟩
      · rw [List.reverse_eq_append_iff.mp hsplit, List.reverse_cons, List.append_assoc,
          List.singleton_append]
      · intro hmem
        obtain ⟨entry, hentry, rfl⟩ := List.mem_map.mp hmem
        simpa using hafter entry (List.mem_reverse.mp hentry)

/-- A method for which no program was provided has none. -/
theorem lookup_reverse_of_not_mem {provided : List (String × Program)} {method : String}
    (h : method ∉ provided.map Prod.fst) : provided.reverse.lookup method = none := by
  refine List.lookup_eq_none_iff.mpr fun entry hentry => bne_iff_ne.mpr ?_
  rintro rfl
  exact h (List.mem_map_of_mem (List.mem_reverse.mp hentry))

/-- **The verdict on an implementation**, whatever was declared and provided. -/
theorem build_verdict (name : String) (declared : List String)
    (provided : List (String × Program)) :
    Verdict name declared provided (build (.ofDeclarations name declared) provided) := by
  rw [build]
  split
  · rename_i method program hfind
    obtain ⟨hmethod, before, after, hsplit, hbefore⟩ := List.find?_eq_some_iff_append.mp hfind
    refine .undeclared hsplit ?_ ?_
    · intro hdeclared
      have hdeclares : (Interface.ofDeclarations name declared).declares method = true :=
        Interface.declares_iff.mpr hdeclared
      simp [hdeclares] at hmethod
    · intro other hother
      obtain ⟨entry, hentry, rfl⟩ := List.mem_map.mp hother
      simpa [Interface.declares_iff] using hbefore entry hentry
  · rename_i hnone
    have hdeclared : ∀ method ∈ provided.map Prod.fst, method ∈ declared := by
      intro method hmethod
      obtain ⟨entry, hentry, rfl⟩ := List.mem_map.mp hmethod
      simpa [Interface.declares_iff] using List.find?_eq_none.mp hnone entry hentry
    rw [Interface.find?_methods]
    split
    · rename_i method hfind
      obtain ⟨hmethod, before, after, hsplit, hbefore⟩ := List.find?_eq_some_iff_append.mp hfind
      refine .missing hdeclared hsplit ?_ ?_
      · simpa using hmethod
      · intro other hother
        simpa using hbefore other hother
    · rename_i hfind
      have hprovided : ∀ method ∈ declared, method ∈ provided.map Prod.fst := by
        intro method hmethod
        simpa using List.find?_eq_none.mp hfind method hmethod
      refine .built (fun method => ⟨hdeclared method, hprovided method⟩) rfl ?_ ?_
      · exact fun method hmethod => lookup_reverse (hprovided method hmethod)
      · exact fun method hmethod =>
          lookup_reverse_of_not_mem fun hmem => hmethod (hdeclared method hmem)

variable {name : String} {declared : List String} {provided : List (String × Program)}
  {implementation : Implementation} {method : String}

/-- **An implementation is built if the methods with programs are the declared ones.** -/
theorem build_ok_iff :
    (∃ implementation, build (.ofDeclarations name declared) provided = .ok implementation)
      ↔ ∀ method, method ∈ provided.map Prod.fst ↔ method ∈ declared := by
  have hverdict := build_verdict name declared provided
  cases hbuild : build (.ofDeclarations name declared) provided with
  | ok implementation =>
      rw [hbuild] at hverdict
      cases hverdict with
      | built hsame => exact ⟨fun _ => hsame, fun _ => ⟨implementation, rfl⟩⟩
  | error e =>
      rw [hbuild] at hverdict
      refine ⟨nofun, fun hsame => ?_⟩
      cases hverdict with
      | undeclared hsplit hmethod =>
          refine absurd ((hsame _).mp ?_) hmethod
          exact List.mem_map_of_mem (hsplit ▸ List.mem_append_right _ List.mem_cons_self)
      | missing _ hsplit hmethod =>
          refine absurd ((hsame _).mpr ?_) hmethod
          exact hsplit ▸ List.mem_append_right _ List.mem_cons_self

/-- An implementation that was built has programs for what its interface declares, and no other. -/
theorem Built.isSome_program? (h : implementation.Built) :
    (implementation.program? method).isSome = true
      ↔ implementation.interface.declares method = true := by
  obtain ⟨name, declared, provided, hbuild⟩ := h
  have hverdict := build_verdict name declared provided
  rw [hbuild] at hverdict
  cases hverdict with
  | built _ hinterface hsome hnone =>
      rw [hinterface, Interface.declares_iff]
      by_cases hdeclared : method ∈ declared
      · obtain ⟨_, program, _, _, _, hprogram⟩ := hsome method hdeclared
        simp [hprogram, hdeclared]
      · simp [hnone method hdeclared, hdeclared]

end Implementation

/-! ### Registries -/

namespace Registry

/-- The workflow types of implementations, in their order. -/
def types (implementations : List Implementation) : List String :=
  implementations.map fun implementation => implementation.interface.name

/-- What registering a batch comes to. -/
inductive Takes (registry : Registry) :
    List Implementation → Option RegistryError × Registry → Prop
  /-- All of it is taken; no two have one type. -/
  | all {batch : List Implementation} :
      (types (registry.implementations ++ batch)).Nodup →
      Takes registry batch
        (none, { registry with implementations := registry.implementations ++ batch })
  /-- It is taken up to an implementation whose type is that of another. -/
  | upTo {taken rest : List Implementation} {refused : Implementation} :
      (types (registry.implementations ++ taken)).Nodup →
      refused.interface.name ∈ types (registry.implementations ++ taken) →
      Takes registry (taken ++ refused :: rest)
        (some (.duplicate refused.interface.name registry.taskQueue),
          { registry with implementations := registry.implementations ++ taken })

/-- A new registry of a queue after batches were registered one after the other. -/
def ofBatches (taskQueue : String) (batches : List (List Implementation)) : Registry :=
  batches.foldl (fun registry batch => (registry.registerAll batch).2) (empty taskQueue)

variable {registry : Registry} {implementation : Implementation} {batch : List Implementation}
  {result : Option RegistryError × Registry} {taskQueue workflowType method : String}
  {batches : List (List Implementation)}

/-- Which types are taken. -/
theorem has_iff :
    registry.has workflowType = true ↔ workflowType ∈ types registry.implementations := by
  simp [has, get?, types, List.find?_isSome]

/-- One more implementation is taken first. -/
theorem Takes.cons
    (h : Takes { registry with implementations := registry.implementations ++ [implementation] }
      batch result) : registry.Takes (implementation :: batch) result := by
  have happend (more : List Implementation) :
      registry.implementations ++ [implementation] ++ more
        = registry.implementations ++ implementation :: more := by
    rw [List.append_assoc, List.singleton_append]
  cases h with
  | all honce =>
      rw [happend] at honce ⊢
      exact .all honce
  | @upTo taken rest refused honce htaken =>
      rw [happend] at honce htaken ⊢
      rw [← List.cons_append]
      exact .upTo honce htaken

/-- **A batch is taken up to the first implementation whose type is taken.** -/
theorem registerAll_takes (once : (types registry.implementations).Nodup)
    (batch : List Implementation) : registry.Takes batch (registry.registerAll batch) := by
  induction batch generalizing registry with
  | nil =>
      have hall : registry.Takes []
          (none, { registry with implementations := registry.implementations ++ [] }) :=
        .all (by rwa [List.append_nil])
      rwa [List.append_nil] at hall
  | cons implementation batch ih =>
      rw [registerAll, register]
      by_cases htaken : implementation.interface.name ∈ types registry.implementations
      · rw [if_pos (has_iff.mpr htaken)]
        have hnone : registry.Takes ([] ++ implementation :: batch)
            (some (.duplicate implementation.interface.name registry.taskQueue),
              { registry with implementations := registry.implementations ++ [] }) :=
          .upTo (by rwa [List.append_nil]) (by rwa [List.append_nil])
        rwa [List.append_nil] at hnone
      · rw [if_neg fun hhas => htaken (has_iff.mp hhas)]
        refine Takes.cons (ih ?_)
        rw [types, List.map_append, List.map_singleton]
        exact List.nodup_append_comm.mp (List.nodup_cons.mpr ⟨htaken, once⟩)

/-- What is taken of a batch joins the implementations, each type of which stays one. -/
theorem Takes.grows (h : registry.Takes batch result) :
    (types result.2.implementations).Nodup
      ∧ ∃ taken, taken <+: batch
        ∧ result.2 = { registry with implementations := registry.implementations ++ taken } := by
  cases h with
  | all honce => exact ⟨honce, batch, List.prefix_rfl, rfl⟩
  | @upTo taken rest refused honce htaken => exact ⟨honce, taken, List.prefix_append _ _, rfl⟩

/-- One more batch is registered. -/
theorem ofBatches_concat (taskQueue : String) (batches : List (List Implementation))
    (batch : List Implementation) :
    ofBatches taskQueue (batches ++ [batch])
      = ((ofBatches taskQueue batches).registerAll batch).2 := by
  rw [ofBatches, List.foldl_append]
  rfl

/-- **Each type has one implementation**, and they all come from the batches. -/
theorem types_nodup (taskQueue : String) (batches : List (List Implementation)) :
    (types (ofBatches taskQueue batches).implementations).Nodup
      ∧ ∀ implementation ∈ (ofBatches taskQueue batches).implementations,
        ∃ batch ∈ batches, implementation ∈ batch := by
  induction batches using List.reverseRecOn with
  | nil => exact ⟨List.nodup_nil, nofun⟩
  | append_singleton batches batch ih =>
      obtain ⟨honce, taken, htaken, hresult⟩ := (registerAll_takes ih.1 batch).grows
      rw [ofBatches_concat]
      refine ⟨honce, fun implementation hmem => ?_⟩
      rw [hresult] at hmem
      rcases List.mem_append.mp hmem with hold | hnew
      · obtain ⟨earlier, hearlier, hmem⟩ := ih.2 implementation hold
        exact ⟨earlier, List.mem_append_left _ hearlier, hmem⟩
      · exact ⟨batch, List.mem_append_right _ List.mem_cons_self, htaken.subset hnew⟩

/-- **The implementation of a type is never replaced.** -/
theorem get?_ofBatches_append (more : List (List Implementation))
    (h : (ofBatches taskQueue batches).get? workflowType = some implementation) :
    (ofBatches taskQueue (batches ++ more)).get? workflowType = some implementation := by
  induction more using List.reverseRecOn with
  | nil => rwa [List.append_nil]
  | append_singleton more batch ih =>
      have honce := (types_nodup taskQueue (batches ++ more)).1
      obtain ⟨-, taken, -, hresult⟩ := (registerAll_takes honce batch).grows
      rw [← List.append_assoc, ofBatches_concat, hresult, get?, List.find?_append, ← get?, ih,
        Option.some_or]

/-- **A registry resolves the programs of its implementations.** -/
theorem resolve_eq (once : (types registry.implementations).Nodup)
    (hmem : implementation ∈ registry.implementations) (method : String) :
    registry.resolve implementation.interface.name method = implementation.program? method := by
  have hget : registry.get? implementation.interface.name = some implementation := by
    cases hfind : registry.get? implementation.interface.name with
    | none =>
        simpa using List.find?_eq_none.mp hfind implementation hmem
    | some found =>
        have hname : found.interface.name = implementation.interface.name := by
          simpa using List.find?_some hfind
        have hfound := List.mem_of_find?_eq_some hfind
        rw [List.inj_on_of_nodup_map once hfound hmem hname]
  rw [resolve, hget]
  rfl

/-- **What a registry resolves** is what its implementations declare, if they were built. -/
theorem isSome_resolve (once : (types registry.implementations).Nodup)
    (built : ∀ implementation ∈ registry.implementations, implementation.Built) :
    (registry.resolve workflowType method).isSome = true
      ↔ ∃ implementation ∈ registry.implementations, implementation.interface.name = workflowType
        ∧ implementation.interface.declares method = true := by
  constructor
  · intro hsome
    cases hget : registry.get? workflowType with
    | none =>
        rw [resolve, hget] at hsome
        cases hsome
    | some implementation =>
        have hmem := List.mem_of_find?_eq_some hget
        have hname : implementation.interface.name = workflowType := by
          simpa using List.find?_some hget
        rw [← hname, resolve_eq once hmem] at hsome
        exact ⟨implementation, hmem, hname, (built implementation hmem).isSome_program?.mp hsome⟩
  · rintro ⟨implementation, hmem, rfl, hdeclares⟩
    rw [resolve_eq once hmem]
    exact (built implementation hmem).isSome_program?.mpr hdeclares

end Registry

/-! ### Any registrations -/

open Implementation Registry

/-- **Registration is complete and unambiguous.** Whatever is declared and provided, an
implementation is built if the methods with programs are the declared ones, with the last program
that was provided for each, and otherwise the first culprit is blamed. Whatever batches of
implementations that were built were registered, the next one is taken up to the first whose type is
taken; implementations that were registered stay, however many more batches come; and a registry
resolves just the methods that its implementations declare, to their programs. -/
theorem registration_unambiguous (name : String) (declared : List String)
    (provided : List (String × Program)) (taskQueue : String)
    (batches : List (List Implementation))
    (built : ∀ batch ∈ batches, ∀ implementation ∈ batch, implementation.Built) :
    ((∃ implementation, build (.ofDeclarations name declared) provided = .ok implementation)
        ↔ ∀ method, method ∈ provided.map Prod.fst ↔ method ∈ declared)
      ∧ Verdict name declared provided (build (.ofDeclarations name declared) provided)
      ∧ (∀ batch, (ofBatches taskQueue batches).Takes batch
        ((ofBatches taskQueue batches).registerAll batch))
      ∧ (∀ more workflowType implementation,
        (ofBatches taskQueue batches).get? workflowType = some implementation →
          (ofBatches taskQueue (batches ++ more)).get? workflowType = some implementation)
      ∧ (∀ implementation ∈ (ofBatches taskQueue batches).implementations, ∀ method,
        (ofBatches taskQueue batches).resolve implementation.interface.name method
          = implementation.program? method)
      ∧ ∀ workflowType method,
        ((ofBatches taskQueue batches).resolve workflowType method).isSome = true
          ↔ ∃ implementation ∈ (ofBatches taskQueue batches).implementations,
            implementation.interface.name = workflowType
              ∧ implementation.interface.declares method = true := by
  obtain ⟨honce, hsource⟩ := types_nodup taskQueue batches
  have hbuilt : ∀ implementation ∈ (ofBatches taskQueue batches).implementations,
      implementation.Built := by
    intro implementation hmem
    obtain ⟨batch, hbatch, hmem⟩ := hsource implementation hmem
    exact built batch hbatch implementation hmem
  refine ⟨build_ok_iff, build_verdict name declared provided, registerAll_takes honce, ?_,
    fun implementation hmem => resolve_eq honce hmem, fun _ _ => isSome_resolve honce hbuilt⟩
  exact fun more workflowType implementation => get?_ofBatches_append more

/-- Reading a book in one sitting. -/
def skimming : Program :=
  ⟨none, [.perform (.finish "skimmed") ⟨none, none⟩]⟩

/-- Reading a book for real. -/
def poring : Program :=
  ⟨none, [.perform (.sleep ⟨5000000⟩) ⟨none, none⟩, .perform (.finish "read") ⟨none, none⟩]⟩

/-- A reader who first would skim and then decides otherwise. -/
def reader : Implementation :=
  ⟨⟨"Read", ["open", "close"]⟩, [("open", poring), ("close", skimming), ("open", skimming)]⟩

/-- A reader who skims. -/
def skimmer : Implementation :=
  ⟨⟨"Read", ["open"]⟩, [("open", skimming)]⟩

/-- Somebody who does something else. -/
def writer : Implementation :=
  ⟨⟨"Write", ["open"]⟩, [("open", poring)]⟩

/-- Of two batches the first is taken as far as the second reader, and the writer after it is only
taken with the second batch. The first reader stays, and reads for real. -/
theorem readers_unambiguous :
    (∀ batch ∈ [[reader, skimmer, writer], [writer]], ∀ implementation ∈ batch,
        implementation.Built)
      ∧ build (.ofDeclarations "Read" ["open", "close", "open"])
          [("open", skimming), ("close", skimming), ("open", poring)] = .ok reader
      ∧ (ofBatches "main" [[reader, skimmer, writer], [writer]]).implementations
        = [reader, writer]
      ∧ (ofBatches "main" [[reader, skimmer, writer], [writer]]).resolve "Read" "open"
        = some poring
      ∧ ((ofBatches "main" [[reader, skimmer, writer], [writer]]).resolve "Write" "close").isSome
        = false := by
  have hreader : build (.ofDeclarations "Read" ["open", "close", "open"])
      [("open", skimming), ("close", skimming), ("open", poring)] = .ok reader := rfl
  have built : ∀ batch ∈ [[reader, skimmer, writer], [writer]], ∀ implementation ∈ batch,
      implementation.Built := by
    have hskimmer : skimmer.Built := ⟨"Read", ["open"], [("open", skimming)], rfl⟩
    have hwriter : writer.Built := ⟨"Write", ["open"], [("open", poring)], rfl⟩
    simp only [List.forall_mem_cons, List.not_mem_nil, false_imp_iff, implies_true, and_true]
    exact ⟨⟨⟨_, _, _, hreader⟩, hskimmer, hwriter⟩, hwriter⟩
  obtain ⟨-, -, -, -, hresolve, hsome⟩ := registration_unambiguous "Read" ["open", "close", "open"]
    [("open", skimming), ("close", skimming), ("open", poring)] "main"
    [[reader, skimmer, writer], [writer]] built
  refine ⟨built, hreader, rfl, hresolve reader List.mem_cons_self "open", ?_⟩
  rw [Bool.eq_false_iff, ne_eq, hsome]
  rintro ⟨implementation, hmem, hname, hdeclares⟩
  have hregistered : implementation ∈ [reader, writer] := hmem
  rcases List.mem_pair.mp hregistered with rfl | rfl
  · exact absurd hname (by decide)
  · exact absurd hdeclares (by decide)

end DurableWorkflow
