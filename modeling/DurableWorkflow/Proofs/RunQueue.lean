import DurableWorkflow.Proofs.Turns

/-!
# What happens to a scheduler

A scheduler is changed in four ways: a thread is spawned, wakes are collected, and the next thread
has a turn after which it blocks or is gone. Whatever workload a pass runs, it is a sequence of
these. The run queue is served in the order in which it is filled: the threads that enter it, in
order, are those that have had their turns since and those that still wait.

In every state that a new scheduler comes to, the run queue holds each thread that can run once, and
no other. A blocked thread has a stamp that counts the turns before its last one after which a
thread blocked. So no two threads have the same stamp, and the order of stamps is the order in which
threads blocked.

## Main definitions

* `Happening`, `Scheduler.Undergoes` — what happens to a scheduler.
* `entered`, `served` — the threads that enter the run queue, and those that have turns.
* `Scheduler.Regular` — what a scheduler is like to which something happened.

## Main results

* `Scheduler.Undergoes.served_in_order` — the run queue is served in order.
* `Scheduler.Undergoes.regular` — the invariant of all states.
* `Scheduler.Regular.run_polled` — what a pass does to a scheduler.
-/

namespace DurableWorkflow

variable {σ τ : Type}

/-- Something that happens to a scheduler. -/
inductive Happening where
  /-- A thread is spawned. -/
  | spawned (id : ThreadId)
  /-- Wakes are collected, and threads resume. -/
  | resumed (ids : List ThreadId)
  /-- The next thread has a turn, after which it blocks or is gone. -/
  | turn (id : ThreadId) (blocks : Bool)

/-- The threads that enter the run queue. -/
def Happening.entries : Happening → List ThreadId
  | .spawned id => [id]
  | .resumed ids => ids
  | .turn _ _ => []

/-- The thread that has a turn, if one has. -/
def Happening.turn? : Happening → Option ThreadId
  | .turn id _ => some id
  | .spawned _ | .resumed _ => none

/-- The thread that has a turn, if one has, and whether it is gone after it. -/
def Happening.poll? : Happening → Option (ThreadId × Bool)
  | .turn id blocks => some (id, !blocks)
  | .spawned _ | .resumed _ => none

/-- The thread that is spawned, if one is. -/
def Happening.spawned? : Happening → Option ThreadId
  | .spawned id => some id
  | .resumed _ | .turn _ _ => none

/-- Whether a thread blocks. -/
def Happening.blocks : Happening → Bool
  | .turn _ blocks => blocks
  | .spawned _ | .resumed _ => false

/-- The threads that enter the run queue, in order. -/
def entered (log : List Happening) : List ThreadId :=
  log.flatMap Happening.entries

/-- The threads that have turns, in order. -/
def served (log : List Happening) : List ThreadId :=
  log.filterMap Happening.turn?

/-- The threads that have turns, in order, each with whether it is gone after its turn. -/
def polled (log : List Happening) : List (ThreadId × Bool) :=
  log.filterMap Happening.poll?

/-- How many turns left their thread blocked. -/
def blocks (log : List Happening) : Nat :=
  log.countP Happening.blocks

/-- Entries when one more thing happened. -/
theorem entered_concat (log : List Happening) (happening : Happening) :
    entered (log ++ [happening]) = entered log ++ happening.entries := by
  rw [entered, List.flatMap_append, List.flatMap_singleton, entered]

/-- Turns when one more thing happened. -/
theorem served_concat (log : List Happening) (happening : Happening) :
    served (log ++ [happening]) = served log ++ happening.turn?.toList := by
  rw [served, List.filterMap_append, served]
  cases happening <;> rfl

/-- Turns with their ends, when one more thing happened. -/
theorem polled_concat (log : List Happening) (happening : Happening) :
    polled (log ++ [happening]) = polled log ++ happening.poll?.toList := by
  rw [polled, List.filterMap_append, polled]
  cases happening <;> rfl

/-- The threads that have turns, without how those end. -/
theorem map_fst_polled (log : List Happening) : (polled log).map Prod.fst = served log := by
  rw [polled, served, List.map_filterMap]
  refine List.filterMap_congr fun happening _ => ?_
  cases happening <;> rfl

/-- Turns that left their thread blocked, when one more thing happened. -/
theorem blocks_concat (log : List Happening) (happening : Happening) :
    blocks (log ++ [happening]) = blocks log + happening.blocks.toNat := by
  rw [blocks, List.countP_append, List.countP_singleton, blocks]
  cases happening.blocks <;> rfl

/-- An element of a list with one more at its end is the last one, or it was there before. -/
theorem split_concat {α : Type} {log before after : List α} {last x : α}
    (h : log ++ [last] = before ++ x :: after) :
    (after = [] ∧ log = before ∧ last = x)
      ∨ ∃ between, after = between ++ [last] ∧ log = before ++ x :: between := by
  rcases List.eq_nil_or_concat after with rfl | ⟨between, other, rfl⟩
  · obtain ⟨hbefore, hlast⟩ := List.append_inj' h rfl
    exact .inl ⟨rfl, hbefore, List.singleton_inj.mp hlast⟩
  · rw [List.concat_eq_append, ← List.cons_append, ← List.append_assoc] at h
    obtain ⟨hbefore, hlast⟩ := List.append_inj' h rfl
    rw [List.singleton_inj.mp hlast]
    exact .inr ⟨between, List.concat_eq_append, hbefore⟩

/-- Whether a thread blocked in its last turn, and how many turns before that left their thread
blocked. -/
def LastBlocked (log : List Happening) (id : ThreadId) (since : Nat) : Prop :=
  ∃ before after, log = before ++ .turn id true :: after ∧ blocks before = since
    ∧ id ∉ served after

/-- Whether numbers first appear in ascending order, without a gap. -/
def FirstsAscend (ids : List ThreadId) : Prop :=
  ∀ before id after, ids = before ++ id :: after → ∀ earlier < id, earlier ∈ before

section Logs

variable {log : List Happening} {happening : Happening} {id : ThreadId} {since : Nat}

/-- A thread that has no turn blocked last when it did before. -/
theorem LastBlocked.concat (h : LastBlocked log id since) (hother : happening.turn? ≠ some id) :
    LastBlocked (log ++ [happening]) id since := by
  obtain ⟨before, after, rfl, hsince, hlast⟩ := h
  refine ⟨before, after ++ [happening], by simp, hsince, ?_⟩
  rw [served_concat, List.mem_append, Option.mem_toList]
  exact not_or.mpr ⟨hlast, hother⟩

/-- A thread has blocked in a turn that comes last. -/
theorem lastBlocked_concat (log : List Happening) (id : ThreadId) :
    LastBlocked (log ++ [.turn id true]) id (blocks log) :=
  ⟨log, [], rfl, rfl, List.not_mem_nil⟩

/-- A thread that blocked had a turn. -/
theorem LastBlocked.mem_served (h : LastBlocked log id since) : id ∈ served log := by
  obtain ⟨before, after, rfl, -, -⟩ := h
  exact List.mem_filterMap.mpr ⟨_, List.mem_append_right _ List.mem_cons_self, rfl⟩

/-- Numbers appear in order up to any place. -/
theorem FirstsAscend.of_start {ids more : List ThreadId} (h : FirstsAscend more)
    (hfirst : ids <+: more) : FirstsAscend ids := by
  obtain ⟨rest, rfl⟩ := hfirst
  rintro before id after rfl
  exact h before id (after ++ rest) (List.append_assoc _ _ _)

/-- Numbers may be added when all smaller ones are there. -/
theorem FirstsAscend.append {ids more : List ThreadId} (h : FirstsAscend ids)
    (hmore : ∀ id ∈ more, ∀ earlier < id, earlier ∈ ids) : FirstsAscend (ids ++ more) := by
  intro before id after hsplit earlier hearlier
  rcases List.append_eq_append_iff.mp hsplit with ⟨middle, rfl, hrest⟩ | ⟨middle, rfl, hrest⟩
  · refine List.mem_append_left _ (hmore id ?_ earlier hearlier)
    exact hrest ▸ List.mem_append_right _ List.mem_cons_self
  · cases middle with
    | nil =>
        rw [List.append_nil] at hmore
        exact hmore id (by rw [← List.nil_append more, ← hrest]; exact List.mem_cons_self) earlier
          hearlier
    | cons other middle =>
        obtain ⟨rfl, -⟩ := List.cons.inj hrest
        exact h before id middle rfl earlier hearlier

end Logs

namespace Scheduler

/-- The threads that a collection resumes, with their stamps, in their order. -/
def ready (s : Scheduler τ) (wakes : List ThreadId) : List (Nat × ThreadId) :=
  (s.threads.filterMap (stampIn wakes)).foldr insertStamped []

/-- What happened to a scheduler on its way to another state, whatever its threads did. -/
inductive Undergoes : Scheduler τ → List Happening → Scheduler τ → Prop
  | nothing (s : Scheduler τ) : Undergoes s [] s
  | spawn {s s' : Scheduler τ} {log : List Happening} (body : τ) : Undergoes s log s' →
      Undergoes s (log ++ [.spawned s'.nextThread]) (s'.spawn body)
  | collect {s s' : Scheduler τ} {log : List Happening} (wakes : List ThreadId) :
      Undergoes s log s' →
      Undergoes s (log ++ [.resumed ((s'.ready wakes).map Prod.snd)]) (s'.collect wakes)
  | finish {s s' : Scheduler τ} {log : List Happening} {id : ThreadId} {queue : List ThreadId}
      {thread : LiveThread τ} : Undergoes s log s' → s'.runQueue = id :: queue →
      s'.get? id = some thread →
      Undergoes s (log ++ [.turn id false]) (finish { s' with runQueue := queue } id)
  | block {s s' : Scheduler τ} {log : List Happening} {id : ThreadId} {queue : List ThreadId}
      {thread : LiveThread τ} (body : τ) : Undergoes s log s' → s'.runQueue = id :: queue →
      s'.get? id = some thread →
      Undergoes s (log ++ [.turn id true]) (block { s' with runQueue := queue } id body)

variable {s s' s'' : Scheduler τ} {log later : List Happening} {id : ThreadId}
  {queue : List ThreadId} {thread : LiveThread τ}

/-- One thing after another happens. -/
theorem Undergoes.trans (h : Undergoes s log s') (h' : Undergoes s' later s'') :
    Undergoes s (log ++ later) s'' := by
  induction h' with
  | nothing => rwa [List.append_nil]
  | spawn body _ ih => exact List.append_assoc log _ _ ▸ ih.spawn body
  | collect wakes _ ih => exact List.append_assoc log _ _ ▸ ih.collect wakes
  | finish _ hqueue hget ih => exact List.append_assoc log _ _ ▸ ih.finish hqueue hget
  | block body _ hqueue hget ih => exact List.append_assoc log _ _ ▸ ih.block body hqueue hget

/-- **The run queue is served in order**: the threads that waited and those that entered it since
are those that had turns, in the same order, and then those that wait. -/
theorem Undergoes.served_in_order (h : Undergoes s log s') :
    s.runQueue ++ entered log = served log ++ s'.runQueue := by
  induction h with
  | nothing => exact List.append_nil _
  | spawn body _ ih | collect wakes _ ih =>
      rw [entered_concat, served_concat, ← List.append_assoc, ih, List.append_assoc,
        List.append_assoc]
      rfl
  | finish _ hqueue _ ih | block body _ hqueue _ ih =>
      rw [entered_concat, served_concat, ← List.append_assoc, ih, hqueue, Happening.entries,
        List.append_nil, List.append_assoc]
      rfl

/-! ### Stamps -/

/-- Which threads a collection resumes: those that are blocked and were woken. -/
theorem mem_ready {wakes : List ThreadId} {since : Nat} :
    (since, id) ∈ s.ready wakes
      ↔ ∃ thread ∈ s.threads, thread.id = id ∧ thread.state = .blocked since ∧ id ∈ wakes := by
  rw [ready, (foldr_insertStamped_perm _).mem_iff, List.mem_filterMap]
  constructor
  · rintro ⟨thread, hmem, hstamp⟩
    obtain ⟨rfl, hwoken, hstate⟩ := stampIn_eq_some hstamp
    exact ⟨thread, hmem, rfl, hstate, hwoken⟩
  · rintro ⟨thread, hmem, rfl, hstate, hwoken⟩
    exact ⟨thread, hmem, by simp [stampIn, hstate, hwoken]⟩

/-- Only threads that live are resumed, and each once. -/
theorem ready_ids_nodup (once : (s.threads.map LiveThread.id).Nodup) (wakes : List ThreadId) :
    ((s.ready wakes).map Prod.snd).Nodup := by
  have hids : (s.threads.filterMap (stampIn wakes)).map Prod.snd
      = (s.threads.filter fun thread => (stampIn wakes thread).isSome).map LiveThread.id := by
    induction s.threads with
    | nil => rfl
    | cons thread threads ih =>
        rw [List.filterMap_cons, List.filter_cons]
        cases hstamp : stampIn wakes thread with
        | none => simpa using ih
        | some entry => simpa [(stampIn_eq_some hstamp).1] using ih
  rw [ready, ((foldr_insertStamped_perm _).map Prod.snd).nodup_iff, hids]
  exact once.sublist (List.filter_sublist.map _)

/-- Putting a stamped thread in its place keeps the order of stamps. -/
theorem insertStamped_pairwise (entry : Nat × ThreadId) {entries : List (Nat × ThreadId)}
    (h : entries.Pairwise fun a b => a.1 ≤ b.1) :
    (insertStamped entry entries).Pairwise fun a b => a.1 ≤ b.1 := by
  induction entries with
  | nil => exact List.pairwise_singleton _ _
  | cons other entries ih =>
      obtain ⟨hother, hentries⟩ := List.pairwise_cons.mp h
      rw [insertStamped]
      split
      · rename_i hless
        refine List.pairwise_cons.mpr ⟨fun later hlater => ?_, h⟩
        rcases List.mem_cons.mp hlater with rfl | hlater
        · exact Nat.le_of_lt hless
        · exact Nat.le_trans (Nat.le_of_lt hless) (hother later hlater)
      · rename_i hless
        refine List.pairwise_cons.mpr ⟨fun later hlater => ?_, ih hentries⟩
        rcases List.mem_cons.mp ((insertStamped_perm entry entries).mem_iff.mp hlater)
          with rfl | hlater
        · exact Nat.not_lt.mp hless
        · exact hother later hlater

/-- The threads that are resumed are in the order of their stamps. -/
theorem ready_pairwise (s : Scheduler τ) (wakes : List ThreadId) :
    (s.ready wakes).Pairwise fun a b => a.1 ≤ b.1 := by
  rw [ready]
  induction s.threads.filterMap (stampIn wakes) with
  | nil => exact List.Pairwise.nil
  | cons entry entries ih => exact insertStamped_pairwise entry ih

/-! ### The invariant -/

/-- What a new scheduler is like to which something happened. -/
structure Regular (log : List Happening) (s : Scheduler τ) : Prop where
  /-- Threads have numbers of their own, and those that can run wait. -/
  orderly : s.Orderly
  /-- No thread waits twice. -/
  once : s.runQueue.Nodup
  /-- Only threads wait that can run. -/
  waiting : ∀ id ∈ s.runQueue, ∃ thread ∈ s.threads, thread.id = id ∧ thread.state = .runnable
  /-- The next stamp is the number of turns that left their thread blocked. -/
  clock : s.blockClock = blocks log
  /-- A stamp is the number of those turns before the last one of its thread. -/
  stamped : ∀ thread ∈ s.threads, ∀ since, thread.state = .blocked since →
    LastBlocked log thread.id since
  /-- Every thread that was spawned has entered the run queue. -/
  spawned : ∀ id < s.nextThread, id ∈ entered log
  /-- Threads have entered it in the order in which they were spawned, at first. -/
  firsts : FirstsAscend (entered log)

/-- Nothing has happened to a new scheduler. -/
theorem regular_empty : (empty : Scheduler τ).Regular [] where
  orderly := orderly_empty
  once := List.nodup_nil
  waiting := nofun
  clock := rfl
  stamped := nofun
  spawned := nofun
  firsts := by
    intro before id after hsplit
    simp [entered] at hsplit

/-- A live thread has a number that was given out. -/
theorem Regular.lt_nextThread (h : s.Regular log) (hmem : id ∈ s.runQueue) : id < s.nextThread := by
  obtain ⟨thread, hthread, rfl, -⟩ := h.waiting id hmem
  exact h.orderly.fresh thread hthread

/-- The next thread of the run queue lives. -/
theorem Regular.get?_ne_none (h : s.Regular log) (hqueue : s.runQueue = id :: queue) :
    s.get? id ≠ none := by
  obtain ⟨thread, hmem, hid, -⟩ := h.waiting id (hqueue ▸ List.mem_cons_self)
  intro hnone
  simpa [hid] using List.find?_eq_none.mp hnone thread hmem

/-- Spawning a thread. -/
theorem Regular.spawn (h : s.Regular log) (body : τ) :
    (s.spawn body).Regular (log ++ [.spawned s.nextThread]) where
  orderly := h.orderly.spawn body
  once := by
    refine List.nodup_append.mpr ⟨h.once, List.nodup_singleton _, ?_⟩
    intro id hid other hother
    rw [List.mem_singleton.mp hother]
    exact Nat.ne_of_lt (h.lt_nextThread hid)
  waiting := by
    intro id hid
    rcases List.mem_append.mp hid with hid | hid
    · obtain ⟨thread, hmem, hthread⟩ := h.waiting id hid
      exact ⟨thread, List.mem_append_left _ hmem, hthread⟩
    · cases List.mem_singleton.mp hid
      exact ⟨_, List.mem_append_right _ (List.mem_singleton_self _), rfl, rfl⟩
  clock := by
    rw [blocks_concat]
    exact h.clock
  stamped := by
    intro thread hmem since hstate
    rcases List.mem_append.mp hmem with hmem | hmem
    · exact (h.stamped thread hmem since hstate).concat (Option.some_ne_none _).symm
    · cases List.mem_singleton.mp hmem
      cases hstate
  spawned := by
    intro id hless
    rw [entered_concat]
    rcases Nat.lt_succ_iff_lt_or_eq.mp hless with hless | rfl
    · exact List.mem_append_left _ (h.spawned id hless)
    · exact List.mem_append_right _ (List.mem_singleton_self _)
  firsts := by
    rw [entered_concat]
    refine h.firsts.append fun id hid earlier hless => h.spawned earlier ?_
    rwa [List.mem_singleton.mp hid] at hless

/-- Collecting wakes. -/
theorem Regular.collect (h : s.Regular log) (wakes : List ThreadId) :
    (s.collect wakes).Regular (log ++ [.resumed ((s.ready wakes).map Prod.snd)]) where
  orderly := h.orderly.collect wakes
  once := by
    refine List.nodup_append.mpr ⟨h.once, ready_ids_nodup h.orderly.once wakes, ?_⟩
    -- Threads that wait can run, and those that are resumed were blocked.
    rintro id hid other hother rfl
    obtain ⟨⟨since, _⟩, hready, rfl⟩ := List.mem_map.mp hother
    obtain ⟨thread, hmem, hthread, hrunnable⟩ := h.waiting _ hid
    obtain ⟨thread', hmem', hthread', hblocked, -⟩ := mem_ready.mp hready
    obtain rfl : thread = thread' :=
      List.inj_on_of_nodup_map h.orderly.once hmem hmem' (hthread.trans hthread'.symm)
    rw [hrunnable] at hblocked
    cases hblocked
  waiting := by
    intro id hid
    rcases List.mem_append.mp hid with hid | hid
    · obtain ⟨thread, hmem, hthread, hrunnable⟩ := h.waiting id hid
      refine ⟨_, List.mem_map_of_mem hmem, ?_⟩
      split
      · exact ⟨hthread, rfl⟩
      · exact ⟨hthread, hrunnable⟩
    · obtain ⟨⟨since, _⟩, hready, rfl⟩ := List.mem_map.mp hid
      obtain ⟨thread, hmem, hthread, hblocked, hwoken⟩ := mem_ready.mp hready
      refine ⟨_, List.mem_map_of_mem hmem, ?_⟩
      have hstamp : (stampIn wakes thread).isSome = true := by
        simp [stampIn, hblocked, hthread, hwoken]
      rw [if_pos hstamp]
      exact ⟨hthread, rfl⟩
  clock := by
    rw [blocks_concat]
    exact h.clock
  stamped := by
    intro thread hmem since hstate
    obtain ⟨old, hold, rfl⟩ := List.mem_map.mp hmem
    split at hstate
    · cases hstate
    · rename_i hasleep
      rw [if_neg hasleep]
      exact (h.stamped old hold since hstate).concat (Option.some_ne_none _).symm
  spawned := by
    intro id hless
    rw [entered_concat]
    exact List.mem_append_left _ (h.spawned id hless)
  firsts := by
    rw [entered_concat]
    refine h.firsts.append fun id hid earlier hless => h.spawned earlier ?_
    obtain ⟨⟨since, _⟩, hready, rfl⟩ := List.mem_map.mp hid
    obtain ⟨thread, hmem, rfl, -⟩ := mem_ready.mp hready
    exact Nat.lt_trans hless (h.orderly.fresh thread hmem)

/-- What a turn leaves of the run queue. -/
theorem Regular.tail (h : s.Regular log) (hqueue : s.runQueue = id :: queue) :
    queue.Nodup ∧ ∀ other ∈ queue, other ≠ id
      ∧ ∃ thread ∈ s.threads, thread.id = other ∧ thread.state = .runnable := by
  have honce := h.once
  rw [hqueue, List.nodup_cons] at honce
  refine ⟨honce.2, fun other hother => ⟨?_, h.waiting other ?_⟩⟩
  · rintro rfl
    exact honce.1 hother
  · exact hqueue ▸ List.mem_cons_of_mem _ hother

/-- A turn after which the thread is gone. -/
theorem Regular.finish (h : s.Regular log) (hqueue : s.runQueue = id :: queue) :
    (Scheduler.finish { s with runQueue := queue } id).Regular (log ++ [.turn id false]) where
  orderly := h.orderly.finish hqueue
  once := (h.tail hqueue).1
  waiting := by
    intro other hother
    obtain ⟨hne, thread, hmem, rfl, hrunnable⟩ := (h.tail hqueue).2 other hother
    exact ⟨thread, List.mem_filter.mpr ⟨hmem, by simpa using hne⟩, rfl, hrunnable⟩
  clock := by
    rw [blocks_concat]
    exact h.clock
  stamped := by
    intro thread hmem since hstate
    obtain ⟨hold, hne⟩ := List.mem_filter.mp hmem
    refine (h.stamped thread hold since hstate).concat fun hturn => ?_
    exact absurd (Option.some.inj hturn).symm (by simpa using hne)
  spawned := by
    intro other hless
    rw [entered_concat, Happening.entries, List.append_nil]
    exact h.spawned other hless
  firsts := by
    rw [entered_concat, Happening.entries, List.append_nil]
    exact h.firsts

/-- A turn after which the thread blocks. -/
theorem Regular.block (h : s.Regular log) (hqueue : s.runQueue = id :: queue) (body : τ) :
    (Scheduler.block { s with runQueue := queue } id body).Regular (log ++ [.turn id true]) where
  orderly := h.orderly.block hqueue body
  once := (h.tail hqueue).1
  waiting := by
    intro other hother
    obtain ⟨hne, thread, hmem, rfl, hrunnable⟩ := (h.tail hqueue).2 other hother
    refine ⟨_, List.mem_map_of_mem hmem, ?_⟩
    rw [if_neg hne]
    exact ⟨rfl, hrunnable⟩
  clock := by
    rw [blocks_concat]
    exact congrArg Nat.succ h.clock
  stamped := by
    intro thread hmem since hstate
    rcases mem_threads_block hmem with ⟨rfl, -⟩ | ⟨hold, hne⟩
    · cases hstate
      exact h.clock ▸ lastBlocked_concat log id
    · exact (h.stamped thread hold since hstate).concat fun hturn =>
        hne (Option.some.inj hturn).symm
  spawned := by
    intro other hless
    rw [entered_concat, Happening.entries, List.append_nil]
    exact h.spawned other hless
  firsts := by
    rw [entered_concat, Happening.entries, List.append_nil]
    exact h.firsts

/-- **Whatever happens keeps a scheduler regular.** -/
theorem Regular.undergo (h : s.Regular log) (h' : Undergoes s later s') :
    s'.Regular (log ++ later) := by
  induction h' with
  | nothing => rwa [List.append_nil]
  | spawn body _ ih => exact List.append_assoc log _ _ ▸ ih.spawn body
  | collect wakes _ ih => exact List.append_assoc log _ _ ▸ ih.collect wakes
  | finish _ hqueue _ ih => exact List.append_assoc log _ _ ▸ ih.finish hqueue
  | block body _ hqueue _ ih => exact List.append_assoc log _ _ ▸ ih.block hqueue body

/-- **What a new scheduler is like after anything happened to it.** -/
theorem Undergoes.regular (h : Undergoes empty log s) : s.Regular log :=
  regular_empty.undergo h

/-- **Every thread is spawned once**, under the next number. -/
theorem Undergoes.spawned_eq (h : Undergoes empty log s) :
    log.filterMap Happening.spawned? = List.range s.nextThread := by
  induction h with
  | nothing => rfl
  | spawn body _ ih =>
      rw [List.filterMap_append, ih]
      exact List.range_succ.symm
  | collect _ _ ih | finish _ _ _ ih | block _ _ _ _ ih =>
      rw [List.filterMap_append, ih]
      exact List.append_nil _

/-- **A thread that resumes has had a turn**: it enters the run queue first when it is spawned. -/
theorem Undergoes.mem_served_of_resumed (h : Undergoes empty log s) {before after : List Happening}
    {ids : List ThreadId} (hsplit : log = before ++ .resumed ids :: after) (hid : id ∈ ids) :
    id ∈ served before := by
  induction h generalizing after with
  | nothing => simp at hsplit
  | spawn _ _ ih | finish _ _ _ ih | block _ _ _ _ ih =>
      rcases split_concat hsplit with ⟨-, -, hlast⟩ | ⟨between, -, hbefore⟩
      · cases hlast
      · exact ih hbefore
  | collect _ hlog ih =>
      rcases split_concat hsplit with ⟨-, rfl, hlast⟩ | ⟨between, -, hbefore⟩
      · -- Those that are resumed were blocked, and so have had turns.
        cases hlast
        obtain ⟨⟨since, _⟩, hready, rfl⟩ := List.mem_map.mp hid
        obtain ⟨thread, hmem, rfl, hstate, -⟩ := mem_ready.mp hready
        exact (hlog.regular.stamped thread hmem since hstate).mem_served
      · exact ih hbefore

/-! ### Passes -/

/-- Threads are spawned one after the other. -/
theorem Undergoes.foldl_spawn (h : Undergoes s log s') (bodies : List τ) :
    ∃ more, Undergoes s (log ++ more) (bodies.foldl Scheduler.spawn s') ∧ polled more = [] := by
  induction bodies generalizing log s' with
  | nil => exact ⟨[], (List.append_nil log).symm ▸ h, rfl⟩
  | cons body bodies ih =>
      obtain ⟨more, hmore, hpolled⟩ := ih (h.spawn body)
      refine ⟨.spawned s'.nextThread :: more, ?_, hpolled⟩
      rwa [List.append_assoc] at hmore

/-- Spawned and woken threads are taken in without a turn. -/
theorem Undergoes.gather (h : Undergoes s log s') (w : Workload σ τ) (a : σ) :
    ∃ more, Undergoes s (log ++ more) (s'.gather w a).1 ∧ polled more = [] := by
  obtain ⟨more, hmore, hpolled⟩ := h.foldl_spawn (w.adopt a).1
  refine ⟨_, List.append_assoc log more _ ▸ hmore.collect (w.wakes (w.adopt a).2).1, ?_⟩
  rw [polled_concat, hpolled]
  rfl

/-- **What a pass does to a scheduler**, whatever its workload: the threads that have turns in the
pass are those that have turns in what happens, and they are gone after the same turns. -/
theorem Regular.run_polled (h : s.Regular log) (w : Workload σ τ) (polls : Nat) (a : σ) :
    ∃ later, Undergoes s later (s.run w polls a).2.1
      ∧ polled later = (s.turns w polls a).map fun turn => (turn.thread, turn.ends w) := by
  have hpass : w.Preserves fun turns s' _ => ∃ later, Undergoes s later s'
      ∧ polled later = turns.map fun turn => (turn.thread, turn.ends w) :=
    { gather := by
        rintro turns s' a ⟨later, hlater, hpolled⟩
        obtain ⟨more, hmore, hnone⟩ := hlater.gather w a
        refine ⟨_, hmore, ?_⟩
        rw [polled, List.filterMap_append, ← polled, ← polled, hnone, List.append_nil, hpolled]
      skip := by
        rintro turns s' a id queue ⟨later, hlater, -⟩ hqueue hget
        exact absurd hget ((h.undergo hlater).get?_ne_none hqueue)
      ended := by
        rintro turns s' a id queue thread ⟨later, hlater, hpolled⟩ hqueue hget hended
        have hends : Turn.ends w ⟨id, thread.body, a⟩ = true := Turn.ends_of_ended hended
        refine ⟨_, hlater.finish hqueue hget, ?_⟩
        rw [polled_concat, hpolled, List.map_append, List.map_singleton, hends]
        rfl
      pending := by
        rintro turns s' a id queue thread body ⟨later, hlater, hpolled⟩ hqueue hget hpending
        have hends : Turn.ends w ⟨id, thread.body, a⟩ = false := Turn.ends_of_pending hpending
        refine ⟨_, hlater.block body hqueue hget, ?_⟩
        rw [polled_concat, hpolled, List.map_append, List.map_singleton, hends]
        rfl }
  have hstart : ∃ later, Undergoes s later s
      ∧ polled later = ([] : List (Turn σ τ)).map fun turn => (turn.thread, turn.ends w) :=
    ⟨[], .nothing s, rfl⟩
  simpa using hpass.run polls (a := a) hstart

/-- The threads that have turns in a pass are those that have turns in what it does. -/
theorem Regular.run (h : s.Regular log) (w : Workload σ τ) (polls : Nat) (a : σ) :
    ∃ later, Undergoes s later (s.run w polls a).2.1
      ∧ served later = (s.turns w polls a).map Turn.thread := by
  obtain ⟨later, hlater, hpolled⟩ := h.run_polled w polls a
  refine ⟨later, hlater, ?_⟩
  rw [← map_fst_polled, hpolled, List.map_map]
  rfl

end Scheduler

end DurableWorkflow
