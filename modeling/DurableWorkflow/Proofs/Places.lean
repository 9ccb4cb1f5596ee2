import DurableWorkflow.Proofs.Accounts
import Mathlib.Data.List.Nodup

/-!
# The places of instances

Whether an instance is queued, leased or idle is kept in four places: its own mark, the entries of
the queues, its lease and the table of leases. All that operations are made of keeps these in step.

While a task is settled its instance may be left outside: its lease has ended and events may wait
for it that nobody has queued it for. The invariant is therefore stated with a set of instances that
may be left so; settling ends with queueing the instance, which takes it out of that set.

## Main definitions

* `Backend.places` — the entries of an instance in the queues.
* `Backend.Placed`, `Backend.Arranged` — an instance, or every instance, is where its parts say.
* `Backend.Serves` — a task is that of an open instance.

## Main results

* `Backend.Arranged.enqueue` — queueing an instance takes care of it.
* `Backend.Arranged.applyAll`, `Backend.Arranged.discharge` — carrying out commands and ending a
  lease keep everything in place.
* `Backend.Arranged.dispatch` — so does a dispatch, which hands out a task of its queue.
-/

namespace DurableWorkflow

namespace Backend

/-! ### Places -/

/-- The entries of an instance in the queues. -/
def places (b : Backend) (id : String) : List (String × String) :=
  b.ready.filter fun entry => entry.2 = id

/-- Whether an instance is where its parts say. Of one that has closed only the lease counts; one
that is open may be left outside of the queues although events wait for it if it is `left`. -/
structure Placed (b : Backend) (left : Prop) (id : String) (inst : Instance) : Prop where
  /-- It has one entry, in its own queue, if it is queued, and none otherwise. -/
  places : inst.isOpen = true →
    b.places id = if inst.queued then [(inst.info.taskQueue, id)] else []
  /-- It is queued only if there is something to hand out. -/
  pending : inst.isOpen = true → inst.queued = true → inst.pending ≠ []
  /-- It is queued if there is something to hand out and it has no task. -/
  waiting : inst.isOpen = true → inst.lease = none → inst.pending ≠ [] →
    inst.queued = true ∨ left
  /-- Its lease is in the table. -/
  held : ∀ token, inst.lease = some token → (token, id) ∈ b.leases

/-- Whether all instances are where their parts say, but for some that may be left outside of the
queues. -/
structure Arranged (left : String → Prop) (b : Backend) : Prop where
  /-- Tokens are in the table once. -/
  once : (b.leases.map Prod.fst).Nodup
  /-- The queues have no entries of unknown instances. -/
  unknown : ∀ id, b.get? id = none → b.places id = []
  /-- Instances are in their places. -/
  placed : ∀ id inst, b.get? id = some inst → b.Placed (left id) id inst

variable {b b' : Backend} {left : String → Prop} {workflowId token id : String} {inst : Instance}

/-- A backend without instances has nothing out of place. -/
theorem arranged_empty (left : String → Prop) : empty.Arranged left :=
  ⟨List.nodup_nil, fun _ _ => rfl, nofun⟩

/-- An instance that may not be left outside may be left there. -/
theorem Placed.mono {left left' : Prop} (h : b.Placed left id inst) (hleft : left → left') :
    b.Placed left' id inst :=
  ⟨h.places, h.pending,
    fun hopen hlease hpending => (h.waiting hopen hlease hpending).imp_right hleft, h.held⟩

/-- An instance that has closed is not left outside of the queues. -/
theorem Placed.of_isClosed {left left' : Prop} (h : b.Placed left id inst)
    (hclosed : inst.isOpen = false) : b.Placed left' id inst := by
  refine ⟨?_, ?_, ?_, h.held⟩ <;> intro hopen <;> rw [hclosed] at hopen <;> cases hopen

/-- An instance that has closed is not left outside. -/
theorem Arranged.of_isClosed (h : b.Arranged fun id => id = workflowId ∨ left id)
    (hclosed : ∀ inst, b.get? workflowId = some inst → inst.isOpen = false) : b.Arranged left := by
  refine ⟨h.once, h.unknown, fun id inst hget => ?_⟩
  by_cases hid : id = workflowId
  · subst hid
    exact (h.placed id inst hget).of_isClosed (hclosed inst hget)
  · exact (h.placed id inst hget).mono fun hleft => hleft.resolve_left hid

/-- A change of one instance that leaves it in its place. -/
theorem Arranged.modify (h : b.Arranged left) {left' : String → Prop}
    (hleft : ∀ id, id ≠ workflowId → left id → left' id) {f : Instance → Instance}
    (hname : ∀ inst, (f inst).info.workflowId = inst.info.workflowId)
    (hplaced : ∀ inst, b.get? workflowId = some inst → b.Placed (left workflowId) workflowId inst →
      b.Placed (left' workflowId) workflowId (f inst)) :
    (b.modify workflowId f).Arranged left' := by
  have hget (id : String) := get?_modify hname b workflowId id
  refine ⟨h.once, fun id hnone => ?_, fun id inst' hinst' => ?_⟩
  · rw [hget] at hnone
    refine h.unknown id ?_
    split at hnone
    · exact Option.map_eq_none_iff.mp hnone
    · exact hnone
  · rw [hget] at hinst'
    split at hinst'
    · rename_i hid
      subst hid
      obtain ⟨inst, hinst, rfl⟩ := Option.map_eq_some_iff.mp hinst'
      have hmoved := hplaced inst hinst (h.placed id inst hinst)
      exact ⟨hmoved.places, hmoved.pending, hmoved.waiting, hmoved.held⟩
    · rename_i hid
      have hkept := (h.placed id inst' hinst').mono (hleft id hid)
      exact ⟨hkept.places, hkept.pending, hkept.waiting, hkept.held⟩

/-! ### Queueing -/

/-- Entries of other instances do not count. -/
theorem filter_concat_of_ne {ready : List (String × String)} {entry : String × String}
    (h : entry.2 ≠ id) :
    (ready ++ [entry]).filter (fun entry => entry.2 = id)
      = ready.filter fun entry => entry.2 = id := by
  simp [List.filter_append, h]

/-- A new entry of an instance comes last. -/
theorem filter_concat_self (ready : List (String × String)) (taskQueue id : String) :
    (ready ++ [(taskQueue, id)]).filter (fun entry => entry.2 = id)
      = ready.filter (fun entry => entry.2 = id) ++ [(taskQueue, id)] := by
  simp [List.filter_append]

/-- **Queueing an instance takes care of it**: it is no longer left outside. -/
theorem Arranged.enqueue (h : b.Arranged fun id => id = workflowId ∨ left id) :
    (b.enqueue workflowId).Arranged left := by
  rw [Backend.enqueue]
  split
  · rename_i hnone
    refine ⟨h.once, h.unknown, fun id inst hget => (h.placed id inst hget).mono fun hleft => ?_⟩
    refine hleft.resolve_left ?_
    rintro rfl
    rw [hnone] at hget
    cases hget
  · rename_i inst hinst
    have hplaced := h.placed workflowId inst hinst
    split
    · rename_i hstay
      -- the instance is queued already, or there is no reason to queue it
      refine ⟨h.once, h.unknown, fun id other hget => ?_⟩
      by_cases hid : id = workflowId
      · subst hid
        obtain rfl : inst = other := Option.some.inj (hinst.symm.trans hget)
        refine ⟨hplaced.places, hplaced.pending, fun hopen hlease hpending => .inl ?_,
          hplaced.held⟩
        simpa [hopen, hlease, hpending] using hstay
      · exact (h.placed id other hget).mono fun hleft => hleft.resolve_left hid
    · rename_i hidle
      simp only [Bool.or_eq_true, not_or, Bool.not_eq_true, Option.isSome_eq_false_iff,
        Option.isNone_iff_eq_none, List.isEmpty_eq_false_iff, Bool.not_eq_eq_eq_not,
        Bool.not_true, Bool.not_eq_false] at hidle
      obtain ⟨⟨⟨hqueued, hlease⟩, hpending⟩, hopen⟩ := hidle
      have hget (id : String) : (b.modify workflowId fun inst =>
          { inst with queued := true }).get? id = if id = workflowId then
            (b.get? id).map fun inst => { inst with queued := true } else b.get? id := by
        refine get?_modify ?_ b workflowId id
        exact fun _ => rfl
      have hnowhere : b.ready.filter (fun entry => entry.2 = workflowId) = [] := by
        have := hplaced.places hopen
        rwa [hqueued] at this
      refine ⟨h.once, fun id hnone => ?_, fun id other hother => ?_⟩
      · have hne : id ≠ workflowId := by
          rintro rfl
          have hsome := (hget id).symm.trans hnone
          rw [if_pos rfl, hinst] at hsome
          cases hsome
        have hold : b.get? id = none := by
          have hnone' := (hget id).symm.trans hnone
          rwa [if_neg hne] at hnone'
        exact (filter_concat_of_ne (Ne.symm hne)).trans (h.unknown id hold)
      · have hother' := (hget id).symm.trans hother
        by_cases hid : id = workflowId
        · subst hid
          rw [if_pos rfl, hinst] at hother'
          cases hother'
          refine ⟨fun _ => ?_, fun _ _ => hpending, fun _ _ _ => .inl rfl, hplaced.held⟩
          refine (filter_concat_self b.ready inst.info.taskQueue id).trans ?_
          rw [hnowhere]
          rfl
        · rw [if_neg hid] at hother'
          have hkept := h.placed id other hother'
          refine ⟨fun hopen => ?_, hkept.pending, fun hopen hlease hpending => ?_, hkept.held⟩
          · exact (filter_concat_of_ne (Ne.symm hid)).trans (hkept.places hopen)
          · exact (hkept.waiting hopen hlease hpending).imp_right fun hleft =>
              hleft.resolve_left hid

/-! ### Delivering, creating and closing -/

/-- Delivering an event. -/
theorem Arranged.deliver (h : b.Arranged left) (workflowId : String) (event : Event) :
    (b.deliver workflowId event).Arranged left := by
  rw [Backend.deliver]
  split
  · exact h
  · split
    · refine Arranged.enqueue (h.modify (fun _ _ => .inr) ?_ fun inst _ hplaced => ?_)
      · exact fun _ => rfl
      · exact ⟨hplaced.places, fun _ _ => by simp, fun _ _ _ => .inr (.inl rfl), hplaced.held⟩
    · exact h

/-- Creating an instance under a free name. -/
theorem Arranged.create (h : b.Arranged left) {info : RunInfo}
    (free : b.get? info.workflowId = none) (parent : Option ParentLink) (input : String) :
    (b.create info parent input).Arranged left := by
  rw [Backend.create]
  refine Arranged.enqueue ⟨h.once, fun id hnone => ?_, fun id inst hinst => ?_⟩
  · rw [get?_append free] at hnone
    split at hnone
    · cases hnone
    · exact h.unknown id hnone
  · rw [get?_append free] at hinst
    split at hinst
    · rename_i hid
      cases hinst
      subst hid
      refine ⟨fun _ => h.unknown _ free, fun _ hqueued => ?_, fun _ _ _ => .inr (.inl rfl),
        fun _ hlease => ?_⟩
      · cases hqueued
      · cases hlease
    · have hkept : b.Placed (id = info.workflowId ∨ left id) id inst :=
        (h.placed id inst hinst).mono .inr
      exact ⟨hkept.places, hkept.pending, hkept.waiting, hkept.held⟩

/-- Closing an instance. -/
theorem Arranged.close (h : b.Arranged left) (workflowId : String) {status : Status}
    (terminal : status.isTerminal = true) : (b.close workflowId status).Arranged left := by
  have hshut : (b.modify workflowId fun inst =>
      { inst with pending := [], queued := false, status }).Arranged left := by
    refine h.modify (fun _ _ => id) ?_ fun inst _ hplaced => ?_
    · exact fun _ => rfl
    · have hclosed : ({ inst with pending := [], queued := false, status } : Instance).isOpen
          = false := by
        simp [Instance.isOpen, terminal]
      refine ⟨?_, ?_, ?_, hplaced.held⟩ <;> intro hopen <;> rw [hclosed] at hopen <;> cases hopen
  rw [Backend.close]
  split
  · exact h
  · dsimp only
    split
    · exact hshut
    · split
      · exact hshut.deliver _ _
      · exact hshut

/-- An alarm that goes off. -/
theorem Arranged.ring (h : b.Arranged left) (alarm : Alarm) : (b.ring alarm).Arranged left := by
  cases alarm with
  | timer workflowId seq afterMs => exact h.deliver workflowId _
  | timeout workflowId afterMs =>
      rcases b.timeOut_inv workflowId with ⟨-, hsame⟩ | ⟨inst, -, -, hclose⟩
      · rw [Backend.ring, hsame]
        exact h
      · rw [Backend.ring, hclose]
        refine Arranged.close (h.modify (fun _ _ => id) ?_ fun inst _ hplaced => ?_) _ rfl
        · exact fun _ => rfl
        · exact ⟨hplaced.places, hplaced.pending, hplaced.waiting, hplaced.held⟩

/-! ### Carrying out commands -/

/-- Carrying out a command. -/
theorem Arranged.apply (h : b.Arranged left) (runId workflowId : String) (command : Command) :
    (b.apply runId workflowId command).1.Arranged left := by
  cases command with
  | startChild start =>
      simp only [Backend.apply, Backend.startChild]
      split
      · exact h.deliver workflowId _
      · rename_i hfree
        have free : b.get? start.workflowId = none := by simpa [contains] using hfree
        refine Arranged.deliver (h.create ?_ _ _) workflowId _
        exact free
  | cancelChild seq childId =>
      simp only [Backend.apply, Backend.cancelChild]
      split
      · exact h.deliver childId _
      · exact h
  | startTimer seq delayMs => exact h
  | complete result => exact h.close workflowId rfl
  | fail error => exact h.close workflowId rfl
  | cancel reason => exact h.close workflowId rfl

/-- **Carrying out commands keeps all instances in place.** -/
theorem Arranged.applyAll (h : b.Arranged left) (names : Nat → String) (workflowId : String)
    (commands : List Command) : (b.applyAll names workflowId commands).1.Arranged left := by
  induction commands generalizing b names with
  | nil => exact h
  | cons command commands ih => exact ih (h.apply _ workflowId command) _

/-! ### Settling -/

/-- **The end of a lease** keeps all instances in place, but for the one whose lease it was: it may
be left outside of the queues. -/
theorem Arranged.discharge (h : b.Arranged left) (sound : b.Sound)
    (hlease : (token, workflowId) ∈ b.leases) {f : Instance → Instance}
    (hf : ∀ inst, ∃ history pending inFlight, f inst = { inst with history, pending, inFlight }) :
    (b.discharge token workflowId f).Arranged fun id => id = workflowId ∨ left id := by
  have hinfo (inst : Instance) : (f inst).info = inst.info := by
    obtain ⟨_, _, _, hinst⟩ := hf inst
    rw [hinst]
  refine ⟨h.once.sublist (List.filter_sublist.map _), fun id hnone => ?_, fun id inst' hinst' => ?_⟩
  · rw [get?_discharge hinfo] at hnone
    refine h.unknown id ?_
    split at hnone
    · exact Option.map_eq_none_iff.mp hnone
    · exact hnone
  · rw [get?_discharge hinfo] at hinst'
    split at hinst'
    · rename_i hid
      subst hid
      obtain ⟨inst, hinst, rfl⟩ := Option.map_eq_some_iff.mp hinst'
      obtain ⟨other, hother, htoken⟩ := sound.leased token id hlease
      obtain rfl : inst = other := Option.some.inj (hinst.symm.trans hother)
      have hqueued : inst.queued = false := by
        cases hqueued : inst.queued with
        | false => rfl
        | true =>
            have hnone := (sound.tidy id inst hinst).queued hqueued
            rw [htoken] at hnone
            cases hnone
      obtain ⟨history, pending, inFlight, hsame⟩ := hf { inst with lease := none }
      rw [hsame]
      refine ⟨fun hopen => ?_, fun _ hlast => ?_, fun _ _ _ => .inr (.inl rfl), nofun⟩
      · exact (h.placed id inst hinst).places hopen
      · rw [show inst.queued = true from hlast] at hqueued
        cases hqueued
    · rename_i hid
      have hkept := h.placed id inst' hinst'
      refine ⟨hkept.places, hkept.pending, fun hopen hnone hpending => ?_, fun other hother => ?_⟩
      · exact (hkept.waiting hopen hnone hpending).imp_right .inr
      · have hmem := hkept.held other hother
        refine List.mem_filter.mpr ⟨hmem, ?_⟩
        have hne : other ≠ token := by
          rintro rfl
          have hpair := List.inj_on_of_nodup_map h.once hmem hlease rfl
          exact hid (congrArg Prod.snd hpair)
        simpa using hne

/-! ### Handing out -/

/-- Take an entry out of the queues, which uses up a token. -/
def unqueue (b : Backend) (entry : String × String) : Backend :=
  { b with ready := b.ready.erase entry, tokens := b.tokens + 1 }

/-- Instances stay. -/
@[simp] theorem get?_unqueue (b : Backend) (entry : String × String) (id : String) :
    (b.unqueue entry).get? id = b.get? id :=
  rfl

/-- The entry is taken from the places of its instance. -/
theorem places_unqueue (b : Backend) (entry : String × String) (id : String) :
    (b.unqueue entry).places id = (b.places id).erase entry :=
  (List.erase_filter ..).symm

/-- Other instances keep their places. -/
theorem places_unqueue_of_ne {entry : String × String} (h : id ≠ entry.2) :
    (b.unqueue entry).places id = b.places id := by
  rw [places_unqueue]
  refine List.erase_of_not_mem fun hmem => h ?_
  have hid : entry.2 = id := by simpa using (List.mem_filter.mp hmem).2
  exact hid.symm

/-- The first entry of a queue. -/
theorem popReady_eq_some {taskQueue : String} (h : b.popReady taskQueue = some (workflowId, b')) :
    (taskQueue, workflowId) ∈ b.ready
      ∧ { b' with tokens := b'.tokens + 1 } = b.unqueue (taskQueue, workflowId) := by
  rw [popReady] at h
  split at h
  · rename_i entry hfind
    have hqueue : entry.1 = taskQueue := by simpa using List.find?_some hfind
    subst hqueue
    cases h
    exact ⟨List.mem_of_find?_eq_some hfind, rfl⟩
  · cases h

/-- What an entry of a queue says of an open instance: it is queued, in its own queue, and has no
other entry. -/
theorem Placed.of_mem {left : Prop} {taskQueue : String} (h : b.Placed left id inst)
    (hopen : inst.isOpen = true) (hmem : (taskQueue, id) ∈ b.ready) :
    inst.queued = true ∧ inst.info.taskQueue = taskQueue
      ∧ b.places id = [(taskQueue, id)] := by
  have hentry : (taskQueue, id) ∈ b.places id := List.mem_filter.mpr ⟨hmem, by simp⟩
  have hplaces := h.places hopen
  cases hqueued : inst.queued with
  | false =>
      rw [hqueued] at hplaces
      rw [hplaces] at hentry
      cases hentry
  | true =>
      rw [hqueued, if_pos rfl] at hplaces
      rw [hplaces] at hentry
      have hqueue : taskQueue = inst.info.taskQueue :=
        congrArg Prod.fst (List.mem_singleton.mp hentry)
      exact ⟨rfl, hqueue.symm, by rw [hplaces, hqueue]⟩

/-- Passing over the entry of an instance that has closed. -/
theorem Arranged.pass (h : b.Arranged left) (hget : b.get? workflowId = some inst)
    (hclosed : inst.isOpen = false) (taskQueue : String) :
    ((b.unqueue (taskQueue, workflowId)).modify workflowId fun inst =>
      { inst with queued := false }).Arranged left := by
  have hunqueued : (b.unqueue (taskQueue, workflowId)).Arranged left := by
    refine ⟨h.once, fun id hnone => ?_, fun id other hother => ?_⟩
    · rw [places_unqueue, h.unknown id hnone]
      rfl
    · have hkept := h.placed id other hother
      by_cases hid : id = workflowId
      · subst hid
        obtain rfl : inst = other := Option.some.inj (hget.symm.trans hother)
        refine ⟨?_, ?_, ?_, hkept.held⟩ <;> intro hopen <;> rw [hclosed] at hopen <;> cases hopen
      · exact ⟨fun hopen => (places_unqueue_of_ne hid).trans (hkept.places hopen),
          hkept.pending, hkept.waiting, hkept.held⟩
  refine hunqueued.modify (fun _ _ => id) ?_ fun other hother hplaced => ?_
  · exact fun _ => rfl
  · obtain rfl : inst = other := Option.some.inj (hget.symm.trans hother)
    refine ⟨?_, ?_, ?_, hplaced.held⟩ <;> intro hopen <;>
      rw [show inst.isOpen = true from hopen] at hclosed <;> cases hclosed

/-- Handing out the instance of an entry under a new token. -/
theorem Arranged.handOut (h : b.Arranged left) {taskQueue : String}
    (used : ∀ token id, (token, id) ∈ b.leases → ∃ n ≤ b.tokens, token = tokenName n)
    (hmem : (taskQueue, workflowId) ∈ b.ready) (hget : b.get? workflowId = some inst)
    (hopen : inst.isOpen = true) :
    ((b.unqueue (taskQueue, workflowId)).handOut workflowId).Arranged left := by
  have hget' (id : String) := get?_handOut (b.unqueue (taskQueue, workflowId)) workflowId id
  obtain ⟨-, -, hplaces⟩ := (h.placed workflowId inst hget).of_mem hopen hmem
  refine ⟨?_, fun id hnone => ?_, fun id other hother => ?_⟩
  · -- the new token is larger than all that were used
    rw [Backend.handOut, List.map_append, List.nodup_append]
    refine ⟨h.once, List.nodup_singleton _, fun token htoken other hother heq => ?_⟩
    obtain ⟨⟨token, id⟩, hlease, rfl⟩ := List.mem_map.mp htoken
    obtain ⟨n, hn, htoken⟩ := used token id hlease
    have hnew : other = tokenName (b.tokens + 1) := List.mem_singleton.mp hother
    have hsame := tokenName_injective (htoken.symm.trans (heq.trans hnew))
    omega
  · rw [hget'] at hnone
    split at hnone
    · rename_i hid
      rw [hid, get?_unqueue, hget] at hnone
      cases hnone
    · rename_i hid
      exact (places_unqueue_of_ne hid).trans (h.unknown id hnone)
  · rw [hget'] at hother
    split at hother
    · rename_i hid
      rw [hid, get?_unqueue, hget] at hother
      cases hother
      subst hid
      refine ⟨fun _ => ?_, fun _ hqueued => ?_, fun _ hnone => ?_, fun token htoken => ?_⟩
      · refine (places_unqueue b (taskQueue, id) id).trans ?_
        rw [hplaces]
        simp
      · cases hqueued
      · cases hnone
      · obtain rfl := Option.some.inj htoken
        exact List.mem_append_right _ (List.mem_singleton_self _)
    · rename_i hid
      have hkept := h.placed id other hother
      exact ⟨fun hopen => (places_unqueue_of_ne hid).trans (hkept.places hopen),
        hkept.pending, hkept.waiting, fun token htoken =>
          List.mem_append_left _ (hkept.held token htoken)⟩

/-- Whether a task is that of an open instance of a queue which holds its lease and has got its
events, and there are some. -/
structure Serves (b : Backend) (taskQueue : String) (task : Task) (inst : Instance) : Prop where
  /-- The instance is known. -/
  known : b.get? task.info.workflowId = some inst
  /-- It is open. -/
  isOpen : inst.isOpen = true
  /-- The task says whose it is. -/
  info : task.info = inst.info
  /-- The instance is one of the queue. -/
  taskQueue : inst.info.taskQueue = taskQueue
  /-- It is leased under the token of the task. -/
  lease : inst.lease = some task.token
  /-- Its history is handed out. -/
  history : task.history = inst.history
  /-- Its new events are handed out. -/
  newEvents : task.newEvents = inst.inFlight
  /-- There are some. -/
  nonempty : task.newEvents ≠ []

/-- What is handed out is a task of the queue. -/
theorem serves_handOut {taskQueue : String} (hget : b.get? workflowId = some inst)
    (hopen : inst.isOpen = true) (hqueue : inst.info.taskQueue = taskQueue)
    (hpending : inst.pending ≠ []) :
    (b.handOut workflowId).Serves taskQueue
      ⟨tokenName b.tokens, inst.info, inst.history, inst.pending⟩
      { inst with
        queued := false, lease := some (tokenName b.tokens), inFlight := inst.pending
        pending := [] } := by
  refine ⟨?_, hopen, rfl, hqueue, rfl, rfl, rfl, hpending⟩
  rw [get?_handOut, get?_name hget, if_pos rfl, hget]
  rfl

/-- Looking at some entries of a queue keeps all instances in place and hands out a task of the
queue, if any. -/
theorem Arranged.dispatchWithin {entries : Nat} {taskQueue : String} {result : Option Task}
    (h : b.Arranged left)
    (used : ∀ token id, (token, id) ∈ b.leases → ∃ n ≤ b.tokens, token = tokenName n)
    (hresult : Backend.dispatchWithin entries b taskQueue = (result, b')) :
    b'.Arranged left ∧ ∀ task, result = some task → ∃ inst, b'.Serves taskQueue task inst := by
  induction entries generalizing b with
  | zero =>
      cases hresult
      exact ⟨h, nofun⟩
  | succ entries ih =>
      rw [Backend.dispatchWithin] at hresult
      split at hresult
      · cases hresult
        exact ⟨h, nofun⟩
      · rename_i workflowId popped hpop
        obtain ⟨hmem, hunqueue⟩ := popReady_eq_some hpop
        have used' : ∀ token id, (token, id) ∈ b.leases →
            ∃ n ≤ b.tokens + 1, token = tokenName n := by
          intro token id hlease
          obtain ⟨n, hn, htoken⟩ := used token id hlease
          exact ⟨n, by omega, htoken⟩
        have htokens : popped.tokens + 1 = b.tokens + 1 := congrArg Backend.tokens hunqueue
        dsimp only at hresult
        rw [htokens] at hunqueue hresult
        rw [hunqueue, get?_unqueue] at hresult
        cases hget : b.get? workflowId with
        | none =>
            -- an instance that is not known has no entries
            have hentry : (taskQueue, workflowId) ∈ b.places workflowId :=
              List.mem_filter.mpr ⟨hmem, by simp⟩
            rw [h.unknown workflowId hget] at hentry
            cases hentry
        | some inst =>
            rw [hget] at hresult
            dsimp only at hresult
            cases hopen : inst.isOpen with
            | false =>
                rw [hopen, if_pos (by simp)] at hresult
                exact ih (h.pass hget hopen taskQueue) used' hresult
            | true =>
                obtain ⟨hqueued, hqueue, -⟩ := (h.placed workflowId inst hget).of_mem hopen hmem
                rw [hopen, hqueued, if_neg (by simp)] at hresult
                cases hresult
                have hpending := (h.placed workflowId inst hget).pending hopen hqueued
                have hget' : (b.unqueue (taskQueue, workflowId)).get? workflowId = some inst :=
                  hget
                refine ⟨h.handOut used hmem hget hopen, fun task htask => ?_⟩
                cases htask
                exact ⟨_, serves_handOut hget' hopen hqueue hpending⟩

/-- **A dispatch keeps all instances in place** and hands out a task of the queue, if any. -/
theorem Arranged.dispatch {taskQueue : String} {result : Option Task} (h : b.Arranged left)
    (sound : b.Sound) (hresult : b.dispatch taskQueue = (result, b')) :
    b'.Arranged left ∧ ∀ task, result = some task → ∃ inst, b'.Serves taskQueue task inst :=
  h.dispatchWithin sound.used hresult

end Backend

end DurableWorkflow
