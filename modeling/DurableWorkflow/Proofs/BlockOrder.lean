import Mathlib.Data.List.Induction
import DurableWorkflow.Proofs.RunQueue

/-!
# Threads resume in the order in which they blocked

Wakes may come in any order and more than once, for threads that are blocked, that can run or that
are gone. Taken one by one, each makes its thread runnable if it is blocked, so that a second wake
of the same thread finds nothing to do; what counts in the end is only which threads were woken. The
threads that resume enter the run queue in the order of their stamps, which is that of their last
turns.

## Main definitions

* `Scheduler.collectInTurn` — collecting wakes one by one.
* `BlockedBefore` — one thread blocked before another.

## Main results

* `Scheduler.collectInTurn_eq` — taken one by one, wakes come to the same.
* `Scheduler.Undergoes.resumes_in_order` — the order in which threads resume and have their turns.
-/

namespace DurableWorkflow

variable {σ τ : Type}

/-- Whether one thread blocked before another, each in its last turn. -/
def BlockedBefore (log : List Happening) (id other : ThreadId) : Prop :=
  ∃ before between after, log = before ++ .turn id true :: (between ++ .turn other true :: after)
    ∧ id ∉ served between ∧ id ∉ served after ∧ other ∉ served after

section Logs

variable {log : List Happening} {id other : ThreadId} {since later : Nat}

/-- Of two threads the one blocked first whose last turn came after fewer turns that left their
thread blocked. -/
theorem LastBlocked.blockedBefore (h : LastBlocked log id since) (h' : LastBlocked log other later)
    (hless : since < later) : BlockedBefore log id other := by
  obtain ⟨before, rest, rfl, rfl, hlast⟩ := h
  obtain ⟨before', after, hlog, rfl, hlast'⟩ := h'
  rcases List.append_eq_append_iff.mp hlog with ⟨middle, rfl, hrest⟩ | ⟨middle, rfl, -⟩
  · rcases List.cons_eq_append_iff.mp hrest with ⟨rfl, -⟩ | ⟨between, rfl, rfl⟩
    · rw [List.append_nil] at hless
      exact absurd hless (Nat.lt_irrefl _)
    · rw [served, List.filterMap_append, List.mem_append, not_or] at hlast
      exact ⟨before, between, after, rfl, hlast.1,
        fun hid => hlast.2 (List.mem_cons_of_mem _ hid), hlast'⟩
  · rw [blocks, blocks, List.countP_append] at hless
    exact absurd hless (Nat.not_lt.mpr (Nat.le_add_right _ _))

/-- Two threads that blocked last after as many turns that left their thread blocked are one. -/
theorem LastBlocked.unique (h : LastBlocked log id since) (h' : LastBlocked log other since) :
    id = other := by
  obtain ⟨before, rest, rfl, rfl, -⟩ := h
  obtain ⟨before', after, hlog, hsame, -⟩ := h'
  rcases List.append_eq_append_iff.mp hlog with ⟨middle, rfl, hrest⟩ | ⟨middle, rfl, hrest⟩
  all_goals
    rw [blocks, blocks, List.countP_append] at hsame
    cases middle with
    | nil => simp_all
    | cons happening middle =>
        -- The turn between the two left its thread blocked, so it counts.
        obtain ⟨rfl, -⟩ := List.cons.inj hrest
        simp [Happening.blocks] at hsame

end Logs

namespace Scheduler

/-! ### Wakes one by one -/

/-- Deal with a wake: its thread becomes runnable if it is blocked, and is noted with its stamp. -/
def rouse (noted : List (LiveThread τ) × List (Nat × ThreadId)) (id : ThreadId) :
    List (LiveThread τ) × List (Nat × ThreadId) :=
  match noted.1.find? fun thread => thread.id = id with
  | some ⟨_, .blocked since, _⟩ =>
    (noted.1.map fun thread =>
        if thread.id = id then { thread with state := .runnable } else thread,
      noted.2 ++ [(since, id)])
  | _ => noted

/-- Whether a stamped thread comes before another: that with the smaller stamp, and of two with the
same the one with the smaller number. -/
def stampedBefore (a b : Nat × ThreadId) : Bool :=
  a.1 < b.1 || (a.1 = b.1 && a.2 ≤ b.2)

/-- Which of two stamped threads comes first. -/
theorem stampedBefore_iff {a b : Nat × ThreadId} :
    stampedBefore a b = true ↔ a.1 < b.1 ∨ a.1 = b.1 ∧ a.2 ≤ b.2 := by
  simp [stampedBefore]

/-- Collect wakes one by one, in the order in which they came, and let the threads that were noted
join the run queue in the order of their stamps. -/
def collectInTurn (s : Scheduler τ) (wakes : List ThreadId) : Scheduler τ :=
  let noted := wakes.foldl rouse (s.threads, [])
  { s with
    threads := noted.1
    runQueue := s.runQueue ++ (noted.2.mergeSort stampedBefore).map Prod.snd }

/-- A thread that was woken can run. -/
def stir (wakes : List ThreadId) (thread : LiveThread τ) : LiveThread τ :=
  if (stampIn wakes thread).isSome then { thread with state := .runnable } else thread

variable {s s' : Scheduler τ} {log : List Happening} {wakes : List ThreadId}

/-- A wake does nothing to the stamp of another thread, of one that can run, and of one that was
woken before. -/
theorem stampIn_concat {id : ThreadId} {thread : LiveThread τ}
    (h : thread.id = id → thread.state = .runnable ∨ id ∈ wakes) :
    stampIn (wakes ++ [id]) thread = stampIn wakes thread := by
  rw [stampIn, stampIn]
  split
  · rename_i since hstate
    by_cases hid : thread.id = id
    · have hwoken : id ∈ wakes := (h hid).resolve_left (by simp [hstate])
      simp [hid, hwoken]
    · simp [hid]
  · rfl

/-- A thread is found by its number, whatever was woken. -/
theorem find?_map_stir {threads : List (LiveThread τ)} (once : (threads.map LiveThread.id).Nodup)
    {thread : LiveThread τ} (hmem : thread ∈ threads) :
    (threads.map (stir wakes)).find? (fun other => other.id = thread.id)
      = some (stir wakes thread) := by
  have hid (other : LiveThread τ) : (stir wakes other).id = other.id := by
    rw [stir]
    split <;> rfl
  cases hfound : (threads.map (stir wakes)).find? fun other => other.id = thread.id with
  | none =>
      simpa [hid] using List.find?_eq_none.mp hfound _ (List.mem_map_of_mem hmem)
  | some found =>
      obtain ⟨other, hmem', rfl⟩ := List.mem_map.mp (List.mem_of_find?_eq_some hfound)
      have hsame : other.id = thread.id := by simpa [hid] using List.find?_some hfound
      rw [List.inj_on_of_nodup_map once hmem' hmem hsame]

/-- A wake does nothing unless it is the first one of a blocked thread. -/
theorem rouse_of_idle {threads : List (LiveThread τ)} {id : ThreadId}
    (h : ∀ thread ∈ threads, thread.id = id → thread.state = .runnable ∨ id ∈ wakes)
    (noted : List (Nat × ThreadId)) :
    rouse (threads.map (stir wakes), noted) id = (threads.map (stir (wakes ++ [id])), noted) := by
  have hsame : threads.map (stir (wakes ++ [id])) = threads.map (stir wakes) :=
    List.map_congr_left fun thread hmem => by rw [stir, stir, stampIn_concat (h thread hmem)]
  rw [rouse, hsame]
  split
  · rename_i number since body hfind
    -- A thread that is found blocked was so all the time and was not woken.
    obtain ⟨thread, hmem, hthread⟩ := List.mem_map.mp (List.mem_of_find?_eq_some hfind)
    rw [stir] at hthread
    split at hthread
    · cases hthread
    · rename_i hasleep
      have hid : number = id := by simpa using List.find?_some hfind
      subst hthread hid
      rcases h _ hmem rfl with hrunnable | hwoken
      · cases hrunnable
      · simp [stampIn, hwoken] at hasleep
  · rfl

/-- The first wake of a blocked thread makes it runnable, and the thread is noted. -/
theorem rouse_of_blocked {threads : List (LiveThread τ)} {thread : LiveThread τ} {since : Nat}
    (once : (threads.map LiveThread.id).Nodup) (hmem : thread ∈ threads)
    (hstate : thread.state = .blocked since) (hfirst : thread.id ∉ wakes)
    (noted : List (Nat × ThreadId)) :
    rouse (threads.map (stir wakes), noted) thread.id
      = (threads.map (stir (wakes ++ [thread.id])), noted ++ [(since, thread.id)]) := by
  have hstir : stir wakes thread = thread := by simp [stir, stampIn, hstate, hfirst]
  have hfound : (threads.map (stir wakes)).find? (fun other => other.id = thread.id)
      = some (stir wakes thread) := find?_map_stir once hmem
  obtain ⟨id, _, body⟩ := thread
  subst hstate
  rw [rouse, hfound, hstir, List.map_map]
  refine Prod.ext (List.map_congr_left fun other hmem' => ?_) rfl
  by_cases hid : other.id = id
  · obtain rfl := List.inj_on_of_nodup_map once hmem' hmem hid
    rw [Function.comp_apply, hstir]
    simp [stir, stampIn]
  · rw [Function.comp_apply, stir, stir, stampIn_concat fun h => absurd h hid]
    split <;> rfl

/-- Which threads have a stamp after the first wake of a blocked thread: it is one more. -/
theorem mem_stamped_concat {threads : List (LiveThread τ)} {thread : LiveThread τ} {since : Nat}
    (once : (threads.map LiveThread.id).Nodup) (hmem : thread ∈ threads)
    (hstate : thread.state = .blocked since) (entry : Nat × ThreadId) :
    entry ∈ threads.filterMap (stampIn (wakes ++ [thread.id]))
      ↔ entry ∈ threads.filterMap (stampIn wakes) ∨ entry = (since, thread.id) := by
  have hstamp : stampIn (wakes ++ [thread.id]) thread = some (since, thread.id) := by
    simp [stampIn, hstate]
  rw [List.mem_filterMap, List.mem_filterMap]
  constructor
  · rintro ⟨other, hmem', hentry⟩
    by_cases hid : other.id = thread.id
    · obtain rfl := List.inj_on_of_nodup_map once hmem' hmem hid
      exact .inr (Option.some.inj (hentry.symm.trans hstamp))
    · rw [stampIn_concat fun h => absurd h hid] at hentry
      exact .inl ⟨other, hmem', hentry⟩
  · rintro (⟨other, hmem', hentry⟩ | rfl)
    · refine ⟨other, hmem', ?_⟩
      rwa [stampIn_concat fun h => Or.inr ?_]
      exact h ▸ (stampIn_eq_some hentry).2.1
    · exact ⟨thread, hmem, hstamp⟩

/-- **What dealing with wakes one by one comes to**: the threads that were woken can run, and each
of them that was blocked is noted once. -/
theorem foldl_rouse {threads : List (LiveThread τ)} (once : (threads.map LiveThread.id).Nodup)
    (wakes : List ThreadId) :
    ∃ noted, wakes.foldl rouse (threads, []) = (threads.map (stir wakes), noted) ∧ noted.Nodup
      ∧ ∀ entry, entry ∈ noted ↔ entry ∈ threads.filterMap (stampIn wakes) := by
  induction wakes using List.reverseRecOn with
  | nil =>
      have hnone (thread : LiveThread τ) : stampIn [] thread = none := by
        rw [stampIn]
        split <;> simp
      have hstir : stir (τ := τ) [] = id := funext fun thread => by simp [stir, hnone]
      exact ⟨[], by simp [hstir], List.nodup_nil, by simp [hnone]⟩
  | append_singleton wakes id ih =>
      obtain ⟨noted, hfold, honce, hnoted⟩ := ih
      rw [List.foldl_append, hfold, List.foldl_cons, List.foldl_nil]
      by_cases hidle : ∀ thread ∈ threads, thread.id = id → thread.state = .runnable ∨ id ∈ wakes
      · refine ⟨noted, rouse_of_idle hidle noted, honce, fun entry => ?_⟩
        rw [hnoted, List.filterMap_congr fun thread hmem => stampIn_concat (hidle thread hmem)]
      · push Not at hidle
        obtain ⟨thread, hmem, rfl, hblocked, hfirst⟩ := hidle
        obtain ⟨since, hstate⟩ : ∃ since, thread.state = .blocked since := by
          cases hstate : thread.state with
          | runnable => exact absurd hstate hblocked
          | blocked since => exact ⟨since, rfl⟩
        refine ⟨_, rouse_of_blocked once hmem hstate hfirst noted, ?_, fun entry => ?_⟩
        · refine List.nodup_append.mpr ⟨honce, List.nodup_singleton _, ?_⟩
          rintro entry hentry _ hnew rfl
          obtain ⟨other, -, hstamp⟩ := List.mem_filterMap.mp ((hnoted entry).mp hentry)
          rw [List.mem_singleton.mp hnew] at hstamp
          obtain ⟨hid : thread.id = other.id, hwoken, -⟩ := stampIn_eq_some hstamp
          exact hfirst (hid ▸ hwoken)
        · rw [List.mem_append, List.mem_singleton, hnoted, mem_stamped_concat once hmem hstate]

/-! ### What a collection comes to -/

/-- Which threads are resumed, and in which order, is settled by which were woken. -/
theorem collect_congr (s : Scheduler τ) {wakes' : List ThreadId}
    (same : ∀ id, id ∈ wakes ↔ id ∈ wakes') : s.collect wakes = s.collect wakes' := by
  have hstamp : stampIn (τ := τ) wakes = stampIn wakes' :=
    funext fun thread => by simp only [stampIn, same]
  rw [collect, collect, hstamp]

/-- **Threads resume in the order in which they blocked.** -/
theorem Regular.ready_ascend (h : s.Regular log) (wakes : List ThreadId) :
    (s.ready wakes).Pairwise fun a b => a.1 < b.1 ∧ BlockedBefore log a.2 b.2 := by
  have hdistinct : (s.ready wakes).Pairwise fun a b => a.2 ≠ b.2 :=
    List.pairwise_map.mp (ready_ids_nodup h.orderly.once wakes)
  refine ((ready_pairwise s wakes).and hdistinct).imp_of_mem fun {a b} ha hb hab => ?_
  obtain ⟨thread, hmem, hid, hstate, -⟩ := mem_ready.mp ha
  obtain ⟨thread', hmem', hid', hstate', -⟩ := mem_ready.mp hb
  have hlast := hid ▸ h.stamped thread hmem a.1 hstate
  have hlast' := hid' ▸ h.stamped thread' hmem' b.1 hstate'
  have hless : a.1 < b.1 :=
    Nat.lt_of_le_of_ne hab.1 fun hsame => hab.2 (hlast.unique (hsame ▸ hlast'))
  exact ⟨hless, hlast.blockedBefore hlast' hless⟩

/-- **Taken one by one, wakes come to the same.** -/
theorem Regular.collectInTurn_eq (h : s.Regular log) (wakes : List ThreadId) :
    s.collectInTurn wakes = s.collect wakes := by
  obtain ⟨noted, hfold, honce, hnoted⟩ := foldl_rouse h.orderly.once wakes
  have hperm : noted.Perm (s.ready wakes) := by
    refine (List.perm_ext_iff_of_nodup honce ?_).mpr fun entry => ?_
    · exact (ready_ids_nodup h.orderly.once wakes).of_map _
    · rw [hnoted, ready, (foldr_insertStamped_perm _).mem_iff]
  have hready : noted.mergeSort stampedBefore = s.ready wakes := by
    refine @List.Perm.eq_of_pairwise _ (fun a b => stampedBefore a b = true) _ _ ?_
      (List.pairwise_mergeSort ?_ ?_ noted) ?_ ((List.mergeSort_perm noted _).trans hperm)
    · intro a b _ _ hab hba
      rw [stampedBefore_iff] at hab hba
      ext <;> grind
    · intro a b c hab hbc
      rw [stampedBefore_iff] at *
      grind
    · intro a b
      rw [Bool.or_eq_true, stampedBefore_iff, stampedBefore_iff]
      grind
    · exact (h.ready_ascend wakes).imp fun hless => stampedBefore_iff.mpr (.inl hless.1)
  rw [collectInTurn, hfold, hready, Scheduler.collect, ready]
  rfl

/-- A thread of a regular scheduler is resumed if it is blocked and was woken. -/
theorem Regular.isSome_stampIn (h : s.Regular log) {thread : LiveThread τ}
    (hmem : thread ∈ s.threads) :
    (stampIn wakes thread).isSome = true ↔ thread.id ∈ (s.ready wakes).map Prod.snd := by
  rw [List.mem_map]
  constructor
  · intro hsome
    obtain ⟨⟨since, id⟩, hstamp⟩ := Option.isSome_iff_exists.mp hsome
    obtain ⟨rfl, hwoken, hstate⟩ := stampIn_eq_some hstamp
    exact ⟨_, mem_ready.mpr ⟨thread, hmem, rfl, hstate, hwoken⟩, rfl⟩
  · rintro ⟨⟨since, _⟩, hready, rfl⟩
    obtain ⟨other, hmem', hid, hstate, hwoken⟩ := mem_ready.mp hready
    obtain rfl := List.inj_on_of_nodup_map h.orderly.once hmem' hmem hid
    simp [stampIn, hstate, hwoken]

/-- **Threads resume in the order in which they blocked, whatever the order of the wakes.** In any
state that a new scheduler comes to, wakes of the same threads, in any order and however often, one
by one or at once, come to the same. The blocked threads among them enter the run queue, each once,
in the order of their stamps, which is the order of their last turns; they can run, and nothing else
changes. From then on the run queue is served in order: first the threads that waited, then those
that were resumed, then whatever enters it later. Threads that are spawned have their first turns in
the order in which they were spawned. And this is what every pass does, whatever its workload. -/
theorem Undergoes.resumes_in_order (life : Undergoes empty log s) {wakes' : List ThreadId}
    (same : ∀ id, id ∈ wakes ↔ id ∈ wakes') :
    ∃ resumed : List (Nat × ThreadId),
      (∀ since id, (since, id) ∈ resumed
        ↔ ∃ thread ∈ s.threads, thread.id = id ∧ thread.state = .blocked since ∧ id ∈ wakes)
      ∧ resumed.Pairwise (fun a b => a.1 < b.1 ∧ BlockedBefore log a.2 b.2)
      ∧ (resumed.map Prod.snd).Nodup
      ∧ s.collect wakes =
        { s with
          threads := s.threads.map fun thread =>
            if thread.id ∈ resumed.map Prod.snd then { thread with state := .runnable } else thread
          runQueue := s.runQueue ++ resumed.map Prod.snd }
      ∧ s.collect wakes' = s.collect wakes
      ∧ s.collectInTurn wakes = s.collect wakes
      ∧ s.collectInTurn wakes' = s.collect wakes
      ∧ (∀ later s', Undergoes (s.collect wakes) later s' →
        s.runQueue ++ resumed.map Prod.snd ++ entered later = served later ++ s'.runQueue
          ∧ FirstsAscend (served (log ++ .resumed (resumed.map Prod.snd) :: later)))
      ∧ ∀ {σ : Type} (w : Workload σ τ) (polls : Nat) (a : σ), ∃ later,
        Undergoes (s.collect wakes) later ((s.collect wakes).run w polls a).2.1
          ∧ served later = ((s.collect wakes).turns w polls a).map Turn.thread := by
  have hregular : s.Regular log := life.regular
  refine ⟨s.ready wakes, fun _ _ => mem_ready, hregular.ready_ascend wakes,
    ready_ids_nodup hregular.orderly.once wakes, ?_, (s.collect_congr same).symm,
    hregular.collectInTurn_eq wakes, ?_, ?_, (hregular.collect wakes).run⟩
  · rw [Scheduler.collect, ready]
    congr 1
    refine List.map_congr_left fun thread hmem => ?_
    exact if_congr (hregular.isSome_stampIn hmem) rfl rfl
  · exact (hregular.collectInTurn_eq wakes').trans (s.collect_congr same).symm
  · intro later s' hlater
    refine ⟨hlater.served_in_order, ?_⟩
    -- Those that had turns since the beginning are the first of those that entered the run queue.
    have hall := (life.collect wakes).trans hlater
    rw [List.append_assoc] at hall
    exact hall.regular.firsts.of_start ⟨s'.runQueue, hall.served_in_order.symm⟩

/-- Two threads, the first of which resumed once and blocked again, after the second. -/
def overtaken : Scheduler Unit :=
  ⟨[⟨0, .blocked 2, ()⟩, ⟨1, .blocked 1, ()⟩], [], [], 2, 3⟩

/-- What happened to them. -/
def overtaking : List Happening :=
  [.spawned 0, .spawned 1, .turn 0 true, .turn 1 true, .resumed [0], .turn 0 true]

/-- How the two threads came to block. -/
theorem undergoes_overtaking : Undergoes empty overtaking overtaken :=
  have spawned := ((Undergoes.nothing empty).spawn ()).spawn ()
  have blocked := (spawned.block () rfl rfl).block () rfl rfl
  (blocked.collect [0]).block () rfl rfl

/-- The second of the two threads resumes first, although its wake came last. -/
theorem overtaken_resumes :
    Undergoes empty overtaking overtaken ∧ (∀ id, id ∈ [0, 0, 7, 1] ↔ id ∈ [7, 1, 0])
      ∧ overtaken.collect [7, 1, 0] = overtaken.collect [0, 0, 7, 1]
      ∧ overtaken.collectInTurn [0, 0, 7, 1] = overtaken.collect [0, 0, 7, 1]
      ∧ (overtaken.collect [0, 0, 7, 1]).runQueue = [1, 0] := by
  have same : ∀ id, id ∈ [0, 0, 7, 1] ↔ id ∈ [7, 1, 0] := by
    intro id
    simp only [List.mem_cons, List.not_mem_nil]
    tauto
  obtain ⟨resumed, -, -, -, -, hagree, hturn, -⟩ := undergoes_overtaking.resumes_in_order same
  exact ⟨undergoes_overtaking, same, hagree, hturn, rfl⟩

end Scheduler

end DurableWorkflow
