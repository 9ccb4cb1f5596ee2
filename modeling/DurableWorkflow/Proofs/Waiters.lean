import Mathlib.Data.List.Induction
import DurableWorkflow.Proofs.Outcomes

/-!
# Who waits for a future

Whoever holds a table of futures creates, polls and resolves them, in any order and under any
numbers. What the table answers about a future then depends on nothing but the calls about it: as
long as there is no such future, polls tell of a failure; once it is created, polls leave their
wakers; the first time it is resolved, those wakers are handed back, each once and in the order of
their first polls; and from then on polls tell that outcome, and nobody is woken again.

## Main definitions

* `FutureTable.Call`, `FutureTable.Answer`, `FutureTable.serve` — calls on a table, one after the
  other, with what they give back.
* `FutureTable.Waits`, `FutureTable.Tells`, `FutureTable.Course` — what calls about one future give
  back.

## Main results

* `FutureTable.course_serve` — the course of any future, whatever the calls.
* `FutureTable.Alike.serve` — calls about other futures do not matter to one.
* `FutureTable.wakes_once` — both, for a new table, with the numbers that it gives out.
-/

namespace DurableWorkflow

namespace FutureTable

variable {ω : Type}

/-- A call on a table of futures. -/
inductive Call (ω : Type) where
  /-- Make a future. -/
  | create
  /-- Ask for the outcome of a future, with whom to wake when there is one. -/
  | poll (id : FutureId) (waker : ω)
  /-- Give a future its outcome. -/
  | resolve (id : FutureId) (outcome : Outcome)
  deriving DecidableEq

/-- What a call gives back. -/
inductive Answer (ω : Type) where
  /-- The number of a new future. -/
  | created (id : FutureId)
  /-- The outcome of a future, if there is one. -/
  | polled (outcome : Option Outcome)
  /-- Whom resolving a future wakes, if that gave it its outcome. -/
  | resolved (woken : Option (List ω))
  deriving DecidableEq

/-- The future that a call is about; a call that makes one is about none yet. -/
def Call.about? : Call ω → Option FutureId
  | .create => none
  | .poll id _ | .resolve id _ => some id

/-- Whether a call makes a future. -/
def Call.creates : Call ω → Bool
  | .create => true
  | .poll _ _ | .resolve _ _ => false

/-- Whether a call matters to a future: it is about that one, or it makes one. -/
def Call.regards (id : FutureId) (call : Call ω) : Bool :=
  call.creates || call.about? = some id

/-- Whom a call leaves to be woken by a future, if it polls that. -/
def Call.waker? (id : FutureId) : Call ω → Option ω
  | .poll other waker => if other = id then some waker else none
  | .create | .resolve _ _ => none

/-- The number that was given out, if one was. -/
def Answer.created? : Answer ω → Option FutureId
  | .created id => some id
  | .polled _ | .resolved _ => none

/-- Who is woken. -/
def Answer.woken : Answer ω → List ω
  | .resolved woken => woken.getD []
  | .created _ | .polled _ => []

/-- Make a call. -/
def perform [DecidableEq ω] (table : FutureTable ω) : Call ω → Answer ω × FutureTable ω
  | .create => (.created table.create.1, table.create.2)
  | .poll id waker => (.polled (table.poll id waker).1, (table.poll id waker).2)
  | .resolve id outcome => (.resolved (table.resolve id outcome).1, (table.resolve id outcome).2)

/-- Make calls one after the other, and note each with what it gave back. -/
def serve [DecidableEq ω] (table : FutureTable ω) :
    List (Call ω) → List (Call ω × Answer ω) × FutureTable ω
  | [] => ([], table)
  | call :: calls =>
    let made := table.perform call
    let rest := made.2.serve calls
    ((call, made.1) :: rest.1, rest.2)

/-- The first call is made, and then the others. -/
theorem serve_cons [DecidableEq ω] (table : FutureTable ω) (call : Call ω)
    (calls : List (Call ω)) :
    table.serve (call :: calls)
      = ((call, (table.perform call).1) :: ((table.perform call).2.serve calls).1,
        ((table.perform call).2.serve calls).2) :=
  rfl

/-! ### The course of a future -/

/-- What polls tell of a future that does not exist. -/
def unknown (id : FutureId) : Outcome :=
  .error (.application ("unknown future " ++ toString id))

/-- Those who polled a future, in order. -/
def pollers (id : FutureId) (log : List (Call ω × Answer ω)) : List ω :=
  log.filterMap fun entry => entry.1.waker? id

/-- Whether all calls about a future are polls, and they are left waiting. -/
def Waits (id : FutureId) (log : List (Call ω × Answer ω)) : Prop :=
  ∀ entry ∈ log, entry.1.about? = some id → ∃ waker, entry = (.poll id waker, .polled none)

/-- Whether polls of a future tell an outcome, and resolving it comes to nothing. -/
def Tells (id : FutureId) (outcome : Outcome) (log : List (Call ω × Answer ω)) : Prop :=
  ∀ entry ∈ log, entry.1.about? = some id →
    (∃ waker, entry = (.poll id waker, .polled (some outcome)))
      ∨ ∃ other, entry = (.resolve id other, .resolved none)

/-- What calls on a table give back as far as one future goes. -/
inductive Course [DecidableEq ω] (id : FutureId) : List (Call ω × Answer ω) → Prop
  /-- It is never made. -/
  | missing {log : List (Call ω × Answer ω)} : Tells id (unknown id) log →
      (∀ entry ∈ log, entry.2 ≠ .created id) → Course id log
  /-- It is made, and polls are left waiting to the end. -/
  | waiting {before after : List (Call ω × Answer ω)} : Tells id (unknown id) before →
      Waits id after → Course id (before ++ (.create, .created id) :: after)
  /-- It is made, polls are left waiting, and it is resolved, which wakes each of those that polled
  it once, in the order of their first polls. After that polls tell the outcome. -/
  | resolved {before between after : List (Call ω × Answer ω)} {outcome : Outcome}
      {woken : List ω} : Tells id (unknown id) before → Waits id between →
      woken = (pollers id between).eraseDups → woken.Nodup → Tells id outcome after →
      Course id (before ++ (.create, .created id)
        :: (between ++ (.resolve id outcome, .resolved (some woken)) :: after))

/-- What calls give back as far as a future goes that waits for its outcome, when some have polled
it: polls are left waiting to the end, or until all who polled it are woken. -/
def Outlook [DecidableEq ω] (id : FutureId) (heard : List ω) (log : List (Call ω × Answer ω)) :
    Prop :=
  Waits id log ∨ ∃ between outcome after, log = between
      ++ (.resolve id outcome, .resolved (some (heard ++ pollers id between).eraseDups)) :: after
    ∧ Waits id between ∧ Tells id outcome after

section Logs

variable {id : FutureId} {outcome : Outcome} {call : Call ω} {entry : Call ω × Answer ω}
  {log : List (Call ω × Answer ω)} {heard : List ω}

/-- Calls about other futures leave nobody to be woken by this one. -/
theorem Call.waker?_of_about (h : call.about? ≠ some id) : call.waker? id = none := by
  cases call with
  | create | resolve _ _ => rfl
  | poll other waker => exact if_neg fun hsame => h (congrArg some hsame)

/-- Nothing is told without calls. -/
theorem tells_nil : Tells (ω := ω) id outcome [] :=
  nofun

/-- One more call is made, of which an outcome is told or which is about something else. -/
theorem Tells.cons (h : Tells id outcome log)
    (hentry : entry.1.about? = some id →
      (∃ waker, entry = (.poll id waker, .polled (some outcome)))
        ∨ ∃ other, entry = (.resolve id other, .resolved none)) :
    Tells id outcome (entry :: log) :=
  List.forall_mem_cons.mpr ⟨hentry, h⟩

/-- One more call is made, which is left waiting or is about something else. -/
theorem Waits.cons (h : Waits id log)
    (hentry : entry.1.about? = some id → ∃ waker, entry = (.poll id waker, .polled none)) :
    Waits id (entry :: log) :=
  List.forall_mem_cons.mpr ⟨hentry, h⟩

/-- One more call is made before a future is, about something else or in vain. -/
theorem Course.cons [DecidableEq ω] (h : Course id log)
    (hentry : Tells id (unknown id) [entry]) (hnew : entry.2 ≠ .created id) :
    Course id (entry :: log) := by
  have htells {before : List (Call ω × Answer ω)} (h : Tells id (unknown id) before) :
      Tells id (unknown id) (entry :: before) :=
    h.cons (hentry entry List.mem_cons_self)
  cases h with
  | missing htold hnone => exact .missing (htells htold) (List.forall_mem_cons.mpr ⟨hnew, hnone⟩)
  | waiting htold hwaits => exact .waiting (htells htold) hwaits
  | resolved htold hwaits hwoken honce hafter =>
      exact .resolved (htells htold) hwaits hwoken honce hafter

/-- One more call is made, which is left waiting or is about something else. -/
theorem Outlook.cons [DecidableEq ω] (h : Outlook id (heard ++ (entry.1.waker? id).toList) log)
    (hentry : entry.1.about? = some id → ∃ waker, entry = (.poll id waker, .polled none)) :
    Outlook id heard (entry :: log) := by
  rcases h with hwaits | ⟨between, outcome, after, rfl, hwaits, htold⟩
  · exact .inl (hwaits.cons hentry)
  · refine .inr ⟨entry :: between, outcome, after, ?_, hwaits.cons hentry, htold⟩
    have hpollers : pollers id (entry :: between)
        = (entry.1.waker? id).toList ++ pollers id between := by
      rw [pollers, List.filterMap_cons, pollers]
      cases entry.1.waker? id <;> rfl
    rw [hpollers, ← List.append_assoc, List.cons_append]

/-- Who comes again does not count. -/
theorem eraseDups_concat [DecidableEq ω] (wakers : List ω) (waker : ω) :
    (wakers ++ [waker]).eraseDups
      = if waker ∈ wakers.eraseDups then wakers.eraseDups else wakers.eraseDups ++ [waker] := by
  rw [List.eraseDups_append]
  split <;> rename_i hmem <;> rw [List.mem_eraseDups] at hmem <;>
    simp [List.removeAll, hmem, List.eraseDups_cons]

/-- Whoever counts does so once. -/
theorem nodup_eraseDups [DecidableEq ω] (wakers : List ω) : wakers.eraseDups.Nodup := by
  induction wakers using List.reverseRecOn with
  | nil => exact List.nodup_nil
  | append_singleton wakers waker ih =>
      rw [eraseDups_concat]
      split
      · exact ih
      · rename_i hmem
        exact List.nodup_append_comm.mp (List.nodup_cons.mpr ⟨hmem, ih⟩)

/-- A future is made, and calls unfold from there. -/
theorem Course.of_outlook [DecidableEq ω] (h : Outlook id [] log) :
    Course id ((.create, .created id) :: log) := by
  rcases h with hwaits | ⟨between, outcome, after, rfl, hwaits, htold⟩
  · exact .waiting tells_nil hwaits
  · exact .resolved tells_nil hwaits rfl (nodup_eraseDups _) htold

end Logs

variable [DecidableEq ω] {table table' : FutureTable ω} {id : FutureId} {call : Call ω}
  {slot : FutureSlot ω} {outcome : Outcome} {heard : List ω}

/-! ### Calls on one slot -/

/-- What is known of a future stays when others are polled or resolved. -/
theorem slot?_perform_of_about {other : FutureId} (habout : call.about? = some other)
    (hother : other ≠ id) : (table.perform call).2.slot? id = table.slot? id := by
  cases call with
  | create => cases habout
  | poll _ waker =>
      cases habout
      rcases table.poll_inv other waker with ⟨_, h⟩ | ⟨slot, hslot, -, ⟨-, h⟩ | h⟩ <;>
        simp only [perform, h]
      rw [slot?_setSlot hslot, if_neg hother.symm]
  | resolve _ outcome =>
      cases habout
      rcases table.resolve_inv other outcome with h | ⟨slot, hslot, -, h⟩ <;>
        simp only [perform, h]
      rw [slot?_setSlot hslot, if_neg hother.symm]

/-- What is known of a future stays unless a call is about it. -/
theorem slot?_perform (h : table.slot? id = some slot) (habout : call.about? ≠ some id) :
    (table.perform call).2.slot? id = some slot := by
  cases hother : call.about? with
  | none =>
      cases call with
      | create => exact slot?_create h
      | poll _ _ | resolve _ _ => cases hother
  | some other =>
      rw [slot?_perform_of_about hother (by rintro rfl; exact habout hother), h]

/-- A future whose polls tell an outcome, and that cannot be resolved. -/
theorem perform_firm (hpoll : ∀ waker, table.poll id waker = (some outcome, table))
    (hresolve : ∀ other, table.resolve id other = (none, table)) (habout : call.about? = some id) :
    (table.perform call).2 = table ∧ Tells id outcome [(call, (table.perform call).1)] := by
  cases call with
  | create => cases habout
  | poll _ waker =>
      cases habout
      rw [perform, hpoll]
      exact ⟨rfl, tells_nil.cons fun _ => .inl ⟨waker, rfl⟩⟩
  | resolve _ other =>
      cases habout
      rw [perform, hresolve]
      exact ⟨rfl, tells_nil.cons fun _ => .inr ⟨other, rfl⟩⟩

/-- A future that does not exist is unknown to those who poll it, and cannot be resolved. -/
theorem perform_missing (h : table.slot? id = none) (habout : call.about? = some id) :
    (table.perform call).2 = table ∧ Tells id (unknown id) [(call, (table.perform call).1)] :=
  perform_firm (fun waker => by rw [poll, h, unknown]) (fun other => by rw [resolve, h]) habout

/-- A future that has an outcome tells it, and cannot be resolved again. -/
theorem perform_settled (h : table.slot? id = some ⟨some outcome, []⟩)
    (habout : call.about? = some id) :
    (table.perform call).2 = table ∧ Tells id outcome [(call, (table.perform call).1)] :=
  perform_firm (fun waker => by rw [poll, h]) (fun other => by rw [resolve, h]) habout

/-- Who polls a future that waits for its outcome is left waiting, and counts once. -/
theorem perform_poll_waiting (h : table.slot? id = some ⟨none, heard.eraseDups⟩) (waker : ω) :
    (table.perform (.poll id waker)).1 = .polled none
      ∧ (table.perform (.poll id waker)).2.slot? id
        = some ⟨none, (heard ++ [waker]).eraseDups⟩ := by
  rw [perform, poll, h, eraseDups_concat]
  dsimp only
  split
  · exact ⟨rfl, h⟩
  · exact ⟨rfl, by rw [slot?_setSlot h, if_pos rfl]⟩

/-- Resolving a future that waits for its outcome wakes whoever waits. -/
theorem perform_resolve_waiting {slot : FutureSlot ω} (h : table.slot? id = some slot)
    (hresult : slot.result = none) (outcome : Outcome) :
    (table.perform (.resolve id outcome)).1 = .resolved (some slot.continuations)
      ∧ (table.perform (.resolve id outcome)).2.slot? id = some ⟨some outcome, []⟩ := by
  rw [perform, resolve, h]
  dsimp only
  rw [hresult]
  exact ⟨rfl, by rw [slot?_setSlot h, if_pos rfl]⟩

/-! ### Any calls -/

/-- A future that has an outcome tells it from then on. -/
theorem tells_serve (h : table.slot? id = some ⟨some outcome, []⟩) (calls : List (Call ω)) :
    Tells id outcome (table.serve calls).1 := by
  induction calls generalizing table with
  | nil => exact tells_nil
  | cons call calls ih =>
      rw [serve_cons]
      by_cases habout : call.about? = some id
      · obtain ⟨hsame, htold⟩ := perform_settled h habout
        exact (ih (hsame.symm ▸ h)).cons (htold _ List.mem_cons_self)
      · exact (ih (slot?_perform h habout)).cons fun h => absurd h habout

/-- What becomes of a future that waits for its outcome, when some have polled it. -/
theorem outlook_serve (h : table.slot? id = some ⟨none, heard.eraseDups⟩) (calls : List (Call ω)) :
    Outlook id heard (table.serve calls).1 := by
  induction calls generalizing table heard with
  | nil => exact .inl nofun
  | cons call calls ih =>
      rw [serve_cons]
      by_cases habout : call.about? = some id
      · cases call with
        | create => cases habout
        | poll _ waker =>
            cases habout
            obtain ⟨hanswer, hslot⟩ := perform_poll_waiting h waker
            refine Outlook.cons ?_ fun _ => ⟨waker, by rw [hanswer]⟩
            rw [Call.waker?, if_pos rfl]
            exact ih hslot
        | resolve _ outcome =>
            cases habout
            obtain ⟨hanswer, hslot⟩ := perform_resolve_waiting h rfl outcome
            refine .inr ⟨[], outcome, _, ?_, nofun, tells_serve hslot calls⟩
            rw [hanswer, pollers, List.filterMap_nil, List.append_nil, List.nil_append]
      · refine Outlook.cons ?_ fun h => absurd h habout
        rw [Call.waker?_of_about habout, Option.toList_none, List.append_nil]
        exact ih (slot?_perform h habout)

/-- **The course of a future**, whatever the calls, from a time when it does not exist. -/
theorem course_serve (h : table.slot? id = none) (calls : List (Call ω)) :
    Course id (table.serve calls).1 := by
  induction calls generalizing table with
  | nil => exact .missing tells_nil nofun
  | cons call calls ih =>
      rw [serve_cons]
      cases hother : call.about? with
      | some other =>
          have hnew : (table.perform call).1 ≠ .created id := by
            cases call with
            | create => cases hother
            | poll _ _ | resolve _ _ => exact nofun
          by_cases hid : other = id
          · subst hid
            obtain ⟨hsame, htold⟩ := perform_missing h hother
            exact (ih (hsame.symm ▸ h)).cons htold hnew
          · have hslot : (table.perform call).2.slot? id = none :=
              (slot?_perform_of_about hother hid).trans h
            refine (ih hslot).cons (tells_nil.cons fun habout => ?_) hnew
            exact absurd (Option.some.inj (hother.symm.trans habout)) hid
      | none =>
          cases call with
          | poll _ _ | resolve _ _ => cases hother
          | create =>
              have hslot := table.slot?_create_eq id
              by_cases hid : id = table.create.1
              · rw [if_pos hid] at hslot
                subst hid
                exact Course.of_outlook (outlook_serve hslot calls)
              · rw [if_neg hid] at hslot
                refine Course.cons (ih (hslot.trans h)) (tells_nil.cons nofun) ?_
                rintro ⟨⟩
                exact hid rfl

/-- One more future is counted for each call that makes one. -/
theorem length_perform (table : FutureTable ω) (call : Call ω) :
    (table.perform call).2.slots.length = table.slots.length + call.creates.toNat := by
  cases call with
  | create => exact table.length_create
  | poll id waker => exact table.length_poll id waker
  | resolve id outcome => exact table.length_resolve id outcome

/-- **Futures are numbered in the order in which they are made.** -/
theorem created_serve (table : FutureTable ω) (calls : List (Call ω)) :
    (table.serve calls).1.filterMap (fun entry => entry.2.created?)
      = List.range' (table.slots.length + 1) (calls.countP Call.creates) := by
  induction calls generalizing table with
  | nil => rfl
  | cons call calls ih =>
      rw [serve_cons, List.countP_cons]
      dsimp only
      rw [List.filterMap_cons, ih, length_perform]
      cases call with
      | create => exact List.range'_succ.symm
      | poll _ _ | resolve _ _ => rfl

/-- Only resolving a future wakes anybody. -/
theorem resolves_of_woken {entry : Call ω × Answer ω} {calls : List (Call ω)}
    (hmem : entry ∈ (table.serve calls).1) (hwoken : entry.2.woken ≠ []) :
    ∃ id outcome, entry.1 = .resolve id outcome := by
  induction calls generalizing table with
  | nil => cases hmem
  | cons call calls ih =>
      rcases List.mem_cons.mp hmem with rfl | hmem
      · cases call with
        | create | poll _ _ => exact absurd rfl hwoken
        | resolve id outcome => exact ⟨id, outcome, rfl⟩
      · exact ih hmem

/-! ### Calls about other futures -/

/-- Whether two tables have as many futures, and the same in the place of one. -/
structure Alike (id : FutureId) (table table' : FutureTable ω) : Prop where
  /-- They have as many. -/
  length : table.slots.length = table'.slots.length
  /-- They have the same in the place of that one. -/
  slot : table.slot? id = table'.slot? id

omit [DecidableEq ω] in
/-- Tables are alike when both have another slot in the place of a future. -/
theorem Alike.setSlot (h : Alike id table table') (hslot : table.slot? id = some slot)
    (new : FutureSlot ω) : Alike id (table.setSlot id new) (table'.setSlot id new) where
  length := by
    rw [FutureTable.setSlot, FutureTable.setSlot, List.length_set, List.length_set]
    exact h.length
  slot := by
    rw [slot?_setSlot hslot, slot?_setSlot (h.slot ▸ hslot), if_pos rfl, if_pos rfl]

/-- Polling a future tells the same in tables that are alike, and leaves them so. -/
theorem Alike.poll (h : Alike id table table') (waker : ω) :
    (table.poll id waker).1 = (table'.poll id waker).1
      ∧ Alike id (table.poll id waker).2 (table'.poll id waker).2 := by
  rw [FutureTable.poll, FutureTable.poll, ← h.slot]
  split
  · exact ⟨rfl, h⟩
  · rename_i slot hslot
    split
    · exact ⟨rfl, h⟩
    · split
      · exact ⟨rfl, h⟩
      · exact ⟨rfl, h.setSlot hslot _⟩

omit [DecidableEq ω] in
/-- Resolving a future wakes the same in tables that are alike, and leaves them so. -/
theorem Alike.resolve (h : Alike id table table') (outcome : Outcome) :
    (table.resolve id outcome).1 = (table'.resolve id outcome).1
      ∧ Alike id (table.resolve id outcome).2 (table'.resolve id outcome).2 := by
  rw [FutureTable.resolve, FutureTable.resolve, ← h.slot]
  split
  · exact ⟨rfl, h⟩
  · rename_i slot hslot
    split
    · exact ⟨rfl, h⟩
    · exact ⟨rfl, h.setSlot hslot _⟩

omit [DecidableEq ω] in
/-- A future that is made gets the same number in tables that are alike, and leaves them so. -/
theorem Alike.create (h : Alike id table table') :
    table.create.1 = table'.create.1 ∧ Alike id table.create.2 table'.create.2 := by
  have hnumber : table.create.1 = table'.create.1 := congrArg Nat.succ h.length
  refine ⟨hnumber, ?_, ?_⟩
  · rw [length_create, length_create, h.length]
  · rw [slot?_create_eq, slot?_create_eq, hnumber, h.slot]

/-- Calls that matter to a future give back the same, and leave tables alike. -/
theorem Alike.perform (h : Alike id table table') (hregards : call.regards id = true) :
    (table.perform call).1 = (table'.perform call).1
      ∧ Alike id (table.perform call).2 (table'.perform call).2 := by
  cases call with
  | create => exact h.create.imp_left (congrArg Answer.created)
  | poll other waker =>
      obtain rfl : other = id := by simpa [Call.regards, Call.creates, Call.about?] using hregards
      exact (h.poll waker).imp_left (congrArg Answer.polled)
  | resolve other outcome =>
      obtain rfl : other = id := by simpa [Call.regards, Call.creates, Call.about?] using hregards
      exact (h.resolve outcome).imp_left (congrArg Answer.resolved)

/-- Calls that do not matter to a future leave its table alike. -/
theorem Alike.perform_left (h : Alike id table table') (hregards : call.regards id = false) :
    Alike id (table.perform call).2 table' := by
  obtain ⟨hcreates, habout⟩ : call.creates = false ∧ call.about? ≠ some id := by
    simpa [Call.regards] using hregards
  have hlength : (table.perform call).2.slots.length = table.slots.length := by
    rw [length_perform, hcreates]
    rfl
  refine ⟨hlength.trans h.length, ?_⟩
  cases hother : call.about? with
  | none =>
      cases call with
      | create => cases hcreates
      | poll _ _ | resolve _ _ => cases hother
  | some other =>
      rw [slot?_perform_of_about hother (by rintro rfl; exact habout hother), h.slot]

/-- **What calls give back that matter to a future** depends on nothing but these. -/
theorem Alike.serve (h : Alike id table table') (calls : List (Call ω)) :
    (table.serve calls).1.filter (fun entry => entry.1.regards id)
        = (table'.serve (calls.filter (Call.regards id))).1
      ∧ Alike id (table.serve calls).2 (table'.serve (calls.filter (Call.regards id))).2 := by
  induction calls generalizing table table' with
  | nil => exact ⟨rfl, h⟩
  | cons call calls ih =>
      cases hregards : call.regards id with
      | true =>
          obtain ⟨hanswer, hnext⟩ := h.perform hregards
          obtain ⟨hlog, hlast⟩ := ih hnext
          rw [List.filter_cons_of_pos hregards, serve_cons, serve_cons]
          dsimp only
          rw [List.filter_cons_of_pos (by exact hregards), hlog, hanswer]
          exact ⟨rfl, hlast⟩
      | false =>
          obtain ⟨hlog, hlast⟩ := ih (h.perform_left hregards)
          rw [List.filter_cons_of_neg (by simp [hregards]), serve_cons]
          dsimp only
          rw [List.filter_cons_of_neg (by simp [hregards])]
          exact ⟨hlog, hlast⟩

/-- **Each waiter is woken once.** Whatever is called on a new table: futures are numbered from one
in the order in which they are made; only resolving a future wakes anybody; each future has a course
of its own, in which those who polled it are woken once each, when it gets its outcome, and nobody
after that; and what the calls about it give back, and what is known of it in the end, is the same
without all calls about others. -/
theorem wakes_once (calls : List (Call ω)) :
    ((empty.serve calls).1.filterMap (fun entry => entry.2.created?)
        = List.range' 1 (calls.countP Call.creates))
      ∧ (∀ entry ∈ (empty.serve calls).1, entry.2.woken ≠ [] →
        ∃ id outcome, entry.1 = .resolve id outcome)
      ∧ ∀ id : FutureId, Course id (empty.serve calls).1
        ∧ (empty.serve calls).1.filter (fun entry => entry.1.regards id)
          = (empty.serve (calls.filter (Call.regards id))).1
        ∧ (empty.serve calls).2.slot? id
          = (empty.serve (calls.filter (Call.regards id))).2.slot? id := by
  refine ⟨created_serve empty calls, fun entry => resolves_of_woken, fun id => ?_⟩
  have hnone : (empty : FutureTable ω).slot? id = none := by
    rw [slot?]
    split <;> rfl
  obtain ⟨hlog, hlast⟩ := (Alike.mk rfl rfl : Alike id (empty : FutureTable ω) empty).serve calls
  exact ⟨course_serve hnone calls, hlog, hlast.slot⟩

/-- Two wakers poll two futures, one of them before it is there and one again and again. -/
example :
    (empty.serve [.poll 2 'a', .create, .create, .poll 1 'b', .poll 2 'b', .poll 1 'a', .poll 1 'b',
        .resolve 1 (.ok "1"), .resolve 1 (.ok "2"), .poll 1 'a', .resolve 2 (.ok "3")]).1.map
        Prod.snd
      = [.polled (some (unknown 2)), .created 1, .created 2, .polled none, .polled none,
        .polled none, .polled none, .resolved (some ['b', 'a']), .resolved none,
        .polled (some (.ok "1")), .resolved (some ['b'])] := by
  decide

end FutureTable

end DurableWorkflow
