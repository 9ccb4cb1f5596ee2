import DurableWorkflow.Proofs.Conduct

/-!
# Waiting and waking

A thread that polls a future in vain leaves its waker in the slot of the future. From then on the
slot stays as it is until the future is resolved, and resolving it wakes the thread: whatever
threads do, whoever waited for a future still does, or has been woken.

## Main definitions

* `Context.Awaits`, `Context.Minds` — a waker is left for an unresolved future; or its thread was
  woken.
* `Context.Heeds` — nobody is forgotten between two contexts.

## Main results

* `FutureTable.poll_inv`, `FutureTable.resolve_inv` — what polling and resolving do.
* `Context.woken_foldl_wake` — whom wakers wake, and in which order.
* `Context.heeds_resolve` — resolving a future wakes everybody who waits for it.
* `Thread.poll_heeds` — a poll of a thread forgets nobody.
-/

namespace DurableWorkflow

/-! ### Slots -/

namespace FutureTable

variable {ω : Type} {table : FutureTable ω} {id other : FutureId} {slot : FutureSlot ω}

/-- The slot of a future after one was replaced. -/
theorem slot?_setSlot (h : table.slot? id = some slot) (new : FutureSlot ω) (other : FutureId) :
    (table.setSlot id new).slot? other = if other = id then some new else table.slot? other := by
  rw [slot?] at h
  split at h
  · cases h
  · rename_i hid
    obtain ⟨hlength, -⟩ := List.getElem?_eq_some_iff.mp h
    simp only [slot?, setSlot]
    by_cases hother : other = 0
    · simp [hother, Ne.symm hid]
    · by_cases hsame : other = id
      · simp [hsame, hid, hlength]
      · have hplace : id - 1 ≠ other - 1 := fun heq =>
          hsame (Nat.sub_one_cancel (Nat.pos_of_ne_zero hother) (Nat.pos_of_ne_zero hid) heq.symm)
        simp [hsame, hother, List.getElem?_set_ne hplace]

/-- Known futures keep their slots when one is created. -/
theorem slot?_create (h : table.slot? id = some slot) : table.create.2.slot? id = some slot := by
  rw [slot?] at h ⊢
  split at h
  · cases h
  · rename_i hid
    obtain ⟨hlength, -⟩ := List.getElem?_eq_some_iff.mp h
    rw [if_neg hid, create]
    exact (List.getElem?_append_left hlength).trans h

/-- What polling does: it gives an outcome and changes nothing, or the future is unresolved and the
waker waits for it afterwards. -/
theorem poll_inv [DecidableEq ω] (table : FutureTable ω) (id : FutureId) (waker : ω) :
    (∃ outcome, table.poll id waker = (some outcome, table))
      ∨ ∃ slot, table.slot? id = some slot ∧ slot.result = none
        ∧ ((waker ∈ slot.continuations ∧ table.poll id waker = (none, table))
          ∨ table.poll id waker
            = (none, table.setSlot id ⟨none, slot.continuations ++ [waker]⟩)) := by
  rw [poll]
  split
  · exact .inl ⟨_, rfl⟩
  · rename_i slot hslot
    split
    · exact .inl ⟨_, rfl⟩
    · rename_i hresult
      split
      · rename_i hmem
        exact .inr ⟨slot, hslot, hresult, .inl ⟨hmem, rfl⟩⟩
      · exact .inr ⟨slot, hslot, hresult, .inr rfl⟩

/-- What resolving does: nothing, or an unresolved future gets its outcome and its wakers are handed
back. -/
theorem resolve_inv (table : FutureTable ω) (id : FutureId) (outcome : Outcome) :
    table.resolve id outcome = (none, table)
      ∨ ∃ slot, table.slot? id = some slot ∧ slot.result = none
        ∧ table.resolve id outcome
          = (some slot.continuations, table.setSlot id ⟨some outcome, []⟩) := by
  rw [resolve]
  split
  · exact .inl rfl
  · rename_i slot hslot
    split
    · exact .inl rfl
    · rename_i hresult
      exact .inr ⟨slot, hslot, hresult, rfl⟩

end FutureTable

/-! ### Nobody is forgotten -/

/-- The thread that a waker wakes, if it wakes one. -/
def Waker.thread? : Waker → Option ThreadId
  | .thread id => some id
  | .inert => none

namespace Context

/-- Whether a waker is left for an unresolved future. -/
def Awaits (ctx : Context) (future : FutureId) (waker : Waker) : Prop :=
  ∃ slot, ctx.futures.slot? future = some slot ∧ slot.result = none ∧ waker ∈ slot.continuations

/-- Whether a thread will be woken by a future, or was woken. -/
def Minds (ctx : Context) (future : FutureId) (id : ThreadId) : Prop :=
  ctx.Awaits future (.thread id) ∨ id ∈ ctx.woken

/-- Whether nobody is forgotten from one context to another: who was woken is, and who waited for a
future does, or was woken. -/
structure Heeds (c d : Context) : Prop where
  /-- No wake is dropped. -/
  woken : ∀ id ∈ c.woken, id ∈ d.woken
  /-- No waker is dropped, unless its thread is woken. -/
  awaits : ∀ future id, c.Awaits future (.thread id) → d.Minds future id

variable {c d e : Context} {future : FutureId} {id : ThreadId}

/-- An awaited future has no outcome. -/
theorem Awaits.not_isResolved {waker : Waker} (h : c.Awaits future waker) :
    c.futures.isResolved future = false := by
  obtain ⟨slot, hslot, hresult, -⟩ := h
  simp [FutureTable.isResolved, FutureTable.outcome?, hslot, hresult]

/-- Who is minded stays minded if nobody is forgotten. -/
theorem Heeds.minds (h : c.Heeds d) (hminds : c.Minds future id) : d.Minds future id := by
  rcases hminds with hawaits | hwoken
  · exact h.awaits future id hawaits
  · exact .inr (h.woken id hwoken)

/-- A context forgets nobody. -/
theorem Heeds.refl (c : Context) : c.Heeds c :=
  ⟨fun _ hwoken => hwoken, fun _ _ => .inl⟩

/-- Nobody is forgotten twice. -/
theorem Heeds.trans (h : c.Heeds d) (h' : d.Heeds e) : c.Heeds e :=
  ⟨fun id hwoken => h'.woken id (h.woken id hwoken),
    fun future id hawaits => h'.minds (h.awaits future id hawaits)⟩

/-- Nobody is forgotten where futures and wakes stay as they are. -/
theorem heeds_of_eq (hfutures : d.futures = c.futures) (hwoken : d.woken = c.woken) :
    c.Heeds d := by
  refine ⟨fun id hid => hwoken ▸ hid, fun future id hawaits => .inl ?_⟩
  rwa [Awaits, hfutures]

/-- Creating a future forgets nobody. -/
theorem heeds_create (hfutures : d.futures = c.futures.create.2) (hwoken : d.woken = c.woken) :
    c.Heeds d := by
  refine ⟨fun id hid => hwoken ▸ hid, fun future id hawaits => .inl ?_⟩
  obtain ⟨slot, hslot, hrest⟩ := hawaits
  refine ⟨slot, ?_, hrest⟩
  rw [hfutures]
  exact FutureTable.slot?_create hslot

/-- Whoever polls a future in vain waits for it. -/
theorem awaits_of_pollFuture {waker : Waker} (h : c.pollFuture future waker = (none, d)) :
    d.Awaits future waker := by
  simp only [pollFuture] at h
  rcases c.futures.poll_inv future waker with ⟨outcome, hpoll⟩
    | ⟨slot, hslot, hresult, ⟨hmem, hpoll⟩ | hpoll⟩ <;> rw [hpoll] at h <;> cases h
  · exact ⟨slot, hslot, hresult, hmem⟩
  · refine ⟨⟨none, slot.continuations ++ [waker]⟩, ?_, rfl, by simp⟩
    simp [FutureTable.slot?_setSlot hslot]

/-- Polling a future forgets nobody. -/
theorem heeds_pollFuture (c : Context) (polled : FutureId) (waker : Waker) :
    c.Heeds (c.pollFuture polled waker).2 := by
  refine ⟨fun _ hid => hid, fun future id hawaits => .inl ?_⟩
  simp only [pollFuture]
  rcases c.futures.poll_inv polled waker with ⟨outcome, hpoll⟩
    | ⟨slot, hslot, hresult, ⟨-, hpoll⟩ | hpoll⟩ <;> rw [hpoll]
  · exact hawaits
  · exact hawaits
  · obtain ⟨old, hold, hnone, hmem⟩ := hawaits
    by_cases hfuture : future = polled
    · subst hfuture
      obtain rfl : slot = old := Option.some.inj (hslot.symm.trans hold)
      refine ⟨⟨none, slot.continuations ++ [waker]⟩, ?_, rfl, List.mem_append_left _ hmem⟩
      simp [FutureTable.slot?_setSlot hslot]
    · refine ⟨old, ?_, hnone, hmem⟩
      simp [FutureTable.slot?_setSlot hslot, hfuture, hold]

/-- Calling wakers wakes their threads, in this order. -/
theorem woken_foldl_wake (c : Context) (wakers : List Waker) :
    (wakers.foldl wake c).woken = c.woken ++ wakers.filterMap Waker.thread? := by
  induction wakers generalizing c with
  | nil => exact (List.append_nil _).symm
  | cons waker wakers ih =>
      rw [List.foldl_cons, ih]
      cases waker with
      | inert => rfl
      | thread other => exact List.append_assoc _ _ _

/-- Who is woken when wakers are called: those that were, and the threads of the wakers. -/
theorem mem_woken_foldl_wake (c : Context) (wakers : List Waker) :
    id ∈ (wakers.foldl wake c).woken ↔ id ∈ c.woken ∨ .thread id ∈ wakers := by
  rw [woken_foldl_wake, List.mem_append, List.mem_filterMap]
  refine or_congr_right ⟨?_, fun hmem => ⟨_, hmem, rfl⟩⟩
  rintro ⟨other | _, hmem, hthread⟩
  · rwa [← Option.some.inj hthread]
  · cases hthread

/-- Who is woken when a waker is called: those that were, and its thread. -/
theorem mem_woken_wake (c : Context) (waker : Waker) :
    id ∈ (c.wake waker).woken ↔ id ∈ c.woken ∨ .thread id = waker := by
  rw [← List.mem_singleton, ← mem_woken_foldl_wake]
  rfl

/-- Waking a thread forgets nobody. -/
theorem heeds_wake (c : Context) (waker : Waker) : c.Heeds (c.wake waker) := by
  refine ⟨fun id hid => (c.mem_woken_wake waker).mpr (.inl hid), fun future id hawaits => .inl ?_⟩
  obtain ⟨woken, hwake⟩ := c.wake_eq waker
  rw [hwake]
  exact hawaits

/-- **Resolving a future forgets nobody**: who waited for it is woken. -/
theorem heeds_resolve (c : Context) (resolved : FutureId) (outcome : Outcome) :
    c.Heeds (c.resolve resolved outcome) := by
  rw [Context.resolve]
  rcases c.futures.resolve_inv resolved outcome with hsame | ⟨slot, hslot, -, hresolve⟩
  · rw [hsame]
    exact .refl c
  · rw [hresolve]
    dsimp only [Option.getD_some]
    obtain ⟨woken, hwoken⟩ := foldl_wake_eq
      { c with futures := c.futures.setSlot resolved ⟨some outcome, []⟩ } slot.continuations
    refine ⟨fun id hid => (mem_woken_foldl_wake _ _).mpr (.inl hid), ?_⟩
    intro future id hawaits
    obtain ⟨old, hold, hnone, hmem⟩ := hawaits
    by_cases hfuture : future = resolved
    · subst hfuture
      obtain rfl : slot = old := Option.some.inj (hslot.symm.trans hold)
      exact .inr ((mem_woken_foldl_wake _ _).mpr (.inr hmem))
    · refine .inl ⟨old, ?_, hnone, hmem⟩
      rw [hwoken]
      simp [FutureTable.slot?_setSlot hslot, hfuture, hold]

/-- An operation of an action forgets nobody. -/
theorem Act.heeds (h : Act c d) : c.Heeds d := by
  cases h with
  | startTimer delay => exact heeds_create rfl rfl
  | startChild stub method input => exact heeds_create rfl rfl
  | failedFuture failure =>
      have hcreate : c.Heeds { c with futures := c.futures.create.2 } := heeds_create rfl rfl
      exact hcreate.trans (heeds_resolve _ _ _)
  | pollFuture id waker => exact c.heeds_pollFuture id waker
  | wake waker => exact c.heeds_wake waker
  | abandon future =>
      rw [Context.abandon]
      split
      · exact heeds_of_eq rfl rfl
      · exact .refl c
  | note note => exact heeds_of_eq rfl rfl

/-- An operation of a thread forgets nobody. -/
theorem Deed.heeds (h : Deed c d) : c.Heeds d := by
  cases h with
  | act h => exact h.heeds
  | spawn vars steps => exact heeds_create rfl rfl

/-- The end of a thread forgets nobody. -/
theorem heeds_conclude (c : Context) (role : Role) (outcome : Outcome) :
    c.Heeds (Thread.conclude role outcome c) := by
  rcases role with typed | future
  · cases typed <;> exact heeds_of_eq rfl rfl
  · exact c.heeds_resolve future outcome

/-- Threads that run forget nobody. -/
theorem Deeds.heeds (h : Deeds c d) : c.Heeds d := by
  induction h with
  | refl => exact .refl c
  | tail _ hlast ih => exact ih.trans hlast.heeds

end Context

/-- **A poll of a thread forgets nobody.** -/
theorem Thread.poll_heeds (id : ThreadId) (thread : Thread) (ctx : Context) :
    ctx.Heeds (thread.poll id ctx).2 := by
  obtain ⟨ctx', hdeeds, ⟨outcome, h⟩ | ⟨message, h⟩ | ⟨body, h, -⟩⟩ := thread.poll_inv id ctx <;>
    rw [h]
  · exact hdeeds.heeds.trans (ctx'.heeds_conclude _ _)
  · exact hdeeds.heeds
  · exact hdeeds.heeds

end DurableWorkflow
