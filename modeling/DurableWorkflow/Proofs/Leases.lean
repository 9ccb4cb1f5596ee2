import DurableWorkflow.Proofs.Tasks

/-!
# Leases

A lease belongs to one outstanding task. Its token is used once, so nobody settles a task that was
settled before; and as long as the lease lasts, its instance keeps the history and the events that
were handed out with the task, unless it closes.

## Main definitions

* `Backend.Sound` — instances fit together, and leases with them.
* `Backend.Honours` — what a worker that holds a task can rely on.
* `Backend.Shifts` — events change places within their instance, and nothing else is to be seen.

## Main results

* `Backend.tokenName_injective` — tokens are different.
* `Backend.Sound.keeps`, `Backend.Sound.handOut`, `Backend.Sound.discharge` — all operations keep
  the backend sound.
* `Backend.Honours.keeps`, `Backend.Honours.handOut`, `Backend.Honours.discharge` — they honour all
  tasks.
* `Backend.dispatch_shifts`, `Backend.abandonTask_shifts` — handing a task out and giving it back
  only shift events.
-/

namespace DurableWorkflow

namespace Backend

variable {b b' : Backend} {workflowId token : String} {task : Task}

/-- Tokens are different. -/
theorem tokenName_injective {m n : Nat} (h : tokenName m = tokenName n) : m = n := by
  have hdigits : Nat.toDigits 10 m = Nat.toDigits 10 n := by
    simpa [tokenName, toString] using congrArg String.toList h
  calc
    m = Nat.ofDigitChars 10 (Nat.toDigits 10 m) 0 := Nat.ofDigitChars_ten_toDigits.symm
    _ = Nat.ofDigitChars 10 (Nat.toDigits 10 n) 0 := by rw [hdigits]
    _ = n := Nat.ofDigitChars_ten_toDigits

/-- Whether instances fit together, and leases with them: each has a token that was used, and it is
the lease of its instance. -/
structure Sound (b : Backend) : Prop where
  /-- The parts of each instance fit together. -/
  tidy : ∀ id inst, b.get? id = some inst → inst.Tidy
  /-- Tokens of leases were used. -/
  used : ∀ token id, (token, id) ∈ b.leases → ∃ n ≤ b.tokens, token = tokenName n
  /-- A lease is that of its instance. -/
  leased : ∀ token id, (token, id) ∈ b.leases →
    ∃ inst, b.get? id = some inst ∧ inst.lease = some token

/-- What a worker that holds a task can rely on: the token is used for no other, and as long as the
lease lasts the instance is as it was, unless it has closed. -/
structure Honours (b : Backend) (task : Task) : Prop where
  /-- The token was used. -/
  used : ∃ n ≤ b.tokens, task.token = tokenName n
  /-- Only inputs are handed out. -/
  inputs : ∀ event ∈ task.newEvents, event.isRecord = false
  /-- The instance has not changed, unless it has closed. -/
  lease : ∀ id, (task.token, id) ∈ b.leases → ∃ inst, b.get? id = some inst
    ∧ inst.info = task.info
    ∧ (inst.isOpen = true → inst.history = task.history ∧ inst.inFlight = task.newEvents)

/-- Whether the instance of a task is open and has the history and the events of the task. -/
def Outstanding (b : Backend) (task : Task) : Prop :=
  ∃ id inst, b.get? id = some inst ∧ inst.isOpen = true ∧ inst.info = task.info
    ∧ inst.history = task.history ∧ inst.inFlight = task.newEvents

/-- What handing tasks out and giving them back do: events change places within their instance, and
nothing else is to be seen. -/
structure Shifts (b b' : Backend) : Prop where
  /-- Instances and leases fit together. -/
  sound : b'.Sound
  /-- All instances stand as before. -/
  standing : b'.standing = b.standing
  /-- Histories stay. -/
  retains : b.Retains b'
  /-- Tasks are honoured as before. -/
  honours : ∀ task, b.Honours task → b'.Honours task

/-- A backend without instances is sound. -/
theorem sound_empty : empty.Sound :=
  ⟨nofun, nofun, nofun⟩

/-! ### Delivering events and carrying out commands -/

/-- Delivering events and carrying out commands keep a backend sound. -/
theorem Sound.keeps (sound : b.Sound) (h : b.Keeps b') : b'.Sound := by
  refine ⟨?_, ?_, ?_⟩
  · intro id inst' hinst'
    cases hget : b.get? id with
    | none => exact (h.new id inst' hget hinst').tidy
    | some inst =>
        obtain ⟨later, hlater, hbecomes⟩ := h.old id inst hget
        rw [hinst'] at hlater
        cases hlater
        exact hbecomes.tidy (sound.tidy id inst hget)
  · intro token id hlease
    rw [h.leases] at hlease
    obtain ⟨n, hn, htoken⟩ := sound.used token id hlease
    exact ⟨n, Nat.le_trans hn h.tokens, htoken⟩
  · intro token id hlease
    rw [h.leases] at hlease
    obtain ⟨inst, hget, hinst⟩ := sound.leased token id hlease
    obtain ⟨inst', hget', hlater⟩ := h.old id inst hget
    exact ⟨inst', hget', hlater.lease.trans hinst⟩

/-- Delivering events and carrying out commands honour all tasks. -/
theorem Honours.keeps (honours : b.Honours task) (h : b.Keeps b') : b'.Honours task := by
  refine ⟨?_, honours.inputs, ?_⟩
  · obtain ⟨n, hn, htoken⟩ := honours.used
    exact ⟨n, Nat.le_trans hn h.tokens, htoken⟩
  · intro id hlease
    rw [h.leases] at hlease
    obtain ⟨inst, hget, hinfo, hsame⟩ := honours.lease id hlease
    obtain ⟨inst', hget', hlater⟩ := h.old id inst hget
    refine ⟨inst', hget', hlater.info.trans hinfo, fun hopen => ?_⟩
    obtain ⟨hhistory, hinFlight⟩ := hsame (hlater.isOpen hopen)
    exact ⟨(hlater.history hopen).trans hhistory, (hlater.inFlight hopen).trans hinFlight⟩

/-- Changes of queues shift nothing. -/
theorem Requeues.shifts (sound : b.Sound) (h : b.Requeues b') : b.Shifts b' :=
  ⟨sound.keeps h.keeps, h.standing, h.keeps.retains, fun _ honours => honours.keeps h.keeps⟩

/-- Events are shifted again. -/
theorem Shifts.trans {c : Backend} (h : b.Shifts b') (h' : b'.Shifts c) : b.Shifts c :=
  ⟨h'.sound, h'.standing.trans h.standing, h.retains.trans h'.retains,
    fun task honours => h'.honours task (h.honours task honours)⟩

/-! ### Handing out -/

/-- An instance that is queued has no lease, so no lease is its. -/
theorem Sound.not_leased (sound : b.Sound) {inst : Instance} (hget : b.get? workflowId = some inst)
    (hnone : inst.lease = none) (token : String) : (token, workflowId) ∉ b.leases := by
  intro hlease
  obtain ⟨other, hother, hsome⟩ := sound.leased token workflowId hlease
  rw [hget] at hother
  cases hother
  rw [hnone] at hsome
  cases hsome

/-- Handing out a queued instance under a new token keeps a backend sound. -/
theorem Sound.handOut (sound : b.Sound) {inst : Instance} (hget : b.get? workflowId = some inst)
    (hqueued : inst.queued = true) : (b.handOut workflowId).Sound := by
  have hnone := (sound.tidy _ _ hget).queued hqueued
  have hget' (id : String) := get?_handOut b workflowId id
  refine ⟨?_, ?_, ?_⟩
  · intro id inst' hinst'
    rw [hget'] at hinst'
    split at hinst'
    · obtain ⟨old, hold, rfl⟩ := Option.map_eq_some_iff.mp hinst'
      refine ⟨nofun, nofun, fun event hevent => ?_⟩
      rw [List.append_nil] at hevent
      exact (sound.tidy id old hold).inputs event (List.mem_append_right _ hevent)
    · exact sound.tidy id inst' hinst'
  · intro token id hlease
    rcases List.mem_append.mp hlease with hlease | hlease
    · exact sound.used token id hlease
    · cases List.mem_singleton.mp hlease
      exact ⟨b.tokens, Nat.le_refl _, rfl⟩
  · intro token id hlease
    rw [hget']
    rcases List.mem_append.mp hlease with hold | hnew
    · have hid : id ≠ workflowId := by
        rintro rfl
        exact sound.not_leased hget hnone token hold
      rw [if_neg hid]
      exact sound.leased token id hold
    · cases List.mem_singleton.mp hnew
      rw [if_pos rfl, hget]
      exact ⟨_, rfl, rfl⟩

/-- Handing out a queued instance under a new token honours the tasks handed out before. -/
theorem Honours.handOut (honours : b'.Honours task) (sound : b.Sound) (h : b'.Requeues b)
    (htokens : b'.tokens < b.tokens) {inst : Instance} (hget : b.get? workflowId = some inst)
    (hqueued : inst.queued = true) : (b.handOut workflowId).Honours task := by
  have hnone := (sound.tidy _ _ hget).queued hqueued
  have hkept := honours.keeps h.keeps
  refine ⟨hkept.used, hkept.inputs, ?_⟩
  intro id hlease
  rw [get?_handOut]
  rcases List.mem_append.mp hlease with hold | hnew
  · have hid : id ≠ workflowId := by
      rintro rfl
      exact sound.not_leased hget hnone task.token hold
    rw [if_neg hid]
    exact hkept.lease id hold
  · obtain ⟨n, hn, htoken⟩ := honours.used
    have heq : tokenName n = tokenName b.tokens :=
      htoken.symm.trans (congrArg Prod.fst (List.mem_singleton.mp hnew))
    have := tokenName_injective heq
    omega

/-- **Handing out a task shifts events** within its instance. -/
theorem dispatch_shifts (sound : b.Sound) {taskQueue : String} {result : Option Task}
    (h : b.dispatch taskQueue = (result, b')) : b.Shifts b' := by
  rcases dispatch_inv h with ⟨-, hrequeues⟩
    | ⟨b₁, inst, hrequeues, htokens, hget, hqueued, -, -, rfl⟩
  · exact hrequeues.shifts sound
  · have hsound := sound.keeps hrequeues.keeps
    have htidy := hsound.tidy _ _ hget
    refine ⟨hsound.handOut hget hqueued, ?_, ?_, ?_⟩
    · rw [standing_handOut hget (htidy.inFlight (htidy.queued hqueued)), hrequeues.standing]
    · refine hrequeues.keeps.retains.trans ⟨fun id hnone => ?_, fun id inst' hinst' hopen => ?_⟩
      · rw [get?_handOut] at hnone
        split at hnone
        · exact Option.map_eq_none_iff.mp hnone
        · exact hnone
      · rw [get?_handOut] at hinst'
        split at hinst'
        · obtain ⟨old, hold, rfl⟩ := Option.map_eq_some_iff.mp hinst'
          exact .inr ⟨old, hold, hopen, rfl, rfl⟩
        · exact .inr ⟨inst', hinst', hopen, rfl, rfl⟩
    · exact fun task honours => honours.handOut hsound hrequeues htokens hget hqueued

/-- **A task that is handed out is honoured**, and it is that of an open instance. -/
theorem honours_dispatch (sound : b.Sound) {taskQueue : String}
    (h : b.dispatch taskQueue = (some task, b')) : b'.Honours task ∧ b'.Outstanding task := by
  rcases dispatch_inv h with ⟨hnone, -⟩
    | ⟨b₁, inst, hrequeues, htokens, hget, -, hopen, hresult, rfl⟩
  · cases hnone
  · cases hresult
    have hget' : (b₁.handOut inst.info.workflowId).get? inst.info.workflowId = some
        { inst with
          queued := false, lease := some (tokenName b₁.tokens), inFlight := inst.pending
          pending := [] } := by
      rw [get?_handOut, if_pos rfl, hget]
      rfl
    refine ⟨⟨⟨b₁.tokens, Nat.le_refl _, rfl⟩, ?_, ?_⟩, _, _, hget', hopen, rfl, rfl, rfl⟩
    · intro event hevent
      exact ((sound.keeps hrequeues.keeps).tidy _ _ hget).inputs event
        (List.mem_append_right _ hevent)
    · intro id hlease
      rcases List.mem_append.mp hlease with hold | hnew
      · -- the token is newer than that of any lease there was
        rw [hrequeues.leases] at hold
        obtain ⟨n, hn, htoken⟩ := sound.used _ _ hold
        have := tokenName_injective htoken
        omega
      · cases List.mem_singleton.mp hnew
        exact ⟨_, hget', rfl, fun _ => ⟨rfl, rfl⟩⟩

/-! ### Settling -/

/-- Only one lease is that of an instance. -/
theorem Sound.lease_unique (sound : b.Sound) {other : String}
    (hlease : (token, workflowId) ∈ b.leases) (hother : (other, workflowId) ∈ b.leases) :
    other = token := by
  obtain ⟨inst, hget, hinst⟩ := sound.leased token workflowId hlease
  obtain ⟨inst', hget', hinst'⟩ := sound.leased other workflowId hother
  rw [hget] at hget'
  cases hget'
  rw [hinst] at hinst'
  exact (Option.some.inj hinst').symm

/-- A lease that is left when that of a token has ended belongs to another instance. -/
theorem Sound.mem_discharge (sound : b.Sound) (hlease : (token, workflowId) ∈ b.leases)
    {f : Instance → Instance} {other id : String}
    (hother : (other, id) ∈ (b.discharge token workflowId f).leases) :
    (other, id) ∈ b.leases ∧ other ≠ token ∧ id ≠ workflowId := by
  obtain ⟨hmem, hne⟩ := List.mem_filter.mp hother
  have htoken : other ≠ token := by simpa using hne
  refine ⟨hmem, htoken, ?_⟩
  rintro rfl
  exact htoken (sound.lease_unique hlease hmem)

/-- The end of a lease keeps a backend sound. -/
theorem Sound.discharge (sound : b.Sound) (hlease : (token, workflowId) ∈ b.leases)
    {f : Instance → Instance} (hf : ∀ inst, (f inst).info = inst.info)
    (htidy : ∀ inst : Instance, inst.Tidy → (f { inst with lease := none }).Tidy) :
    (b.discharge token workflowId f).Sound := by
  refine ⟨?_, ?_, ?_⟩
  · intro id inst' hinst'
    rw [get?_discharge hf] at hinst'
    split at hinst'
    · obtain ⟨old, hold, rfl⟩ := Option.map_eq_some_iff.mp hinst'
      exact htidy old (sound.tidy id old hold)
    · exact sound.tidy id inst' hinst'
  · intro other id hother
    exact sound.used other id (sound.mem_discharge hlease hother).1
  · intro other id hother
    obtain ⟨hmem, -, hid⟩ := sound.mem_discharge hlease hother
    rw [get?_discharge hf, if_neg hid]
    exact sound.leased other id hmem

/-- The end of a lease honours the tasks of others. -/
theorem Honours.discharge (honours : b.Honours task) (sound : b.Sound)
    (hlease : (token, workflowId) ∈ b.leases) {f : Instance → Instance}
    (hf : ∀ inst, (f inst).info = inst.info) :
    (b.discharge token workflowId f).Honours task := by
  refine ⟨honours.used, honours.inputs, ?_⟩
  intro id hother
  obtain ⟨hmem, -, hid⟩ := sound.mem_discharge hlease hother
  rw [get?_discharge hf, if_neg hid]
  exact honours.lease id hmem

/-- Histories stay when the lease of an instance ends that is changed otherwise only. -/
theorem discharge_retains {f : Instance → Instance} (hf : ∀ inst, (f inst).info = inst.info)
    (hopen : ∀ inst, b.get? workflowId = some inst →
      (f { inst with lease := none }).isOpen = true →
        inst.isOpen = true ∧ (f { inst with lease := none }).history = inst.history) :
    b.Retains (b.discharge token workflowId f) := by
  refine ⟨fun id hnone => ?_, fun id inst' hinst' hopen' => ?_⟩
  · rw [get?_discharge hf] at hnone
    split at hnone
    · exact Option.map_eq_none_iff.mp hnone
    · exact hnone
  · rw [get?_discharge hf] at hinst'
    split at hinst'
    · rename_i hid
      subst hid
      obtain ⟨old, hold, rfl⟩ := Option.map_eq_some_iff.mp hinst'
      obtain ⟨hopen', hhistory⟩ := hopen old hold hopen'
      exact .inr ⟨old, hold, hopen', hf _, hhistory⟩
    · exact .inr ⟨inst', hinst', hopen', rfl, rfl⟩

/-- Dropping what was handed out of an instance that has closed, at the end of its lease. -/
theorem discard_shifts (sound : b.Sound) (hlease : (token, workflowId) ∈ b.leases)
    (hclosed : ∀ inst, b.get? workflowId = some inst → inst.isOpen = false) :
    b.Shifts (b.discharge token workflowId fun inst => { inst with inFlight := [] }) := by
  refine ⟨?_, ?_, ?_, fun task honours => honours.discharge sound hlease ?_⟩
  · refine sound.discharge hlease ?_ fun inst tidy => ?_
    · exact fun _ => rfl
    · exact ⟨fun _ => rfl, fun _ => rfl,
        fun event hevent => tidy.inputs event (List.mem_append_right _ hevent)⟩
  · refine standing_discharge ?_ b token workflowId fun inst hget => ?_
    · exact fun _ => rfl
    · have hinst := hclosed inst hget
      simp_all [Instance.standing, Instance.isOpen]
  · refine discharge_retains ?_ fun inst _ hopen => ?_
    · exact fun _ => rfl
    · exact ⟨hopen, rfl⟩
  · exact fun _ => rfl

/-- The same for an instance that is known. -/
theorem discard_shifts_of_isClosed (sound : b.Sound) (hlease : (token, workflowId) ∈ b.leases)
    {inst : Instance} (hget : b.get? workflowId = some inst) (hclosed : inst.isOpen = false) :
    b.Shifts (b.discharge token workflowId fun inst => { inst with inFlight := [] }) := by
  refine discard_shifts sound hlease fun other hother => ?_
  rw [hget] at hother
  cases hother
  exact hclosed

/-- **Giving a task back shifts events** within its instance. -/
theorem abandonTask_shifts (sound : b.Sound) (h : b.abandonTask token = .ok b') : b.Shifts b' := by
  obtain ⟨id, hlookup, rfl⟩ := abandonTask_inv h
  have hlease := mem_leases hlookup
  have hshifts : b.Shifts (b.discharge token id fun inst =>
      { inst with inFlight := [], pending := inst.inFlight ++ inst.pending }) := by
    refine ⟨?_, ?_, ?_, fun task honours => honours.discharge sound hlease ?_⟩
    · refine sound.discharge hlease ?_ fun inst tidy => ?_
      · exact fun _ => rfl
      · exact ⟨fun _ => rfl, fun _ => rfl, tidy.inputs⟩
    · refine standing_discharge ?_ b token id fun inst _ => ?_
      · exact fun _ => rfl
      · simp [Instance.standing, Instance.isOpen]
    · refine discharge_retains ?_ fun inst _ hopen => ?_
      · exact fun _ => rfl
      · exact ⟨hopen, rfl⟩
    · exact fun _ => rfl
  exact hshifts.trans ((enqueue_requeues _ id).shifts hshifts.sound)

/-! ### Recording and closing -/

/-- Recording a piece of history keeps a backend sound. -/
theorem Sound.recordDelta (sound : b.Sound) (hlease : (token, workflowId) ∈ b.leases)
    (delta : List Event) : (b.recordDelta token workflowId delta).Sound := by
  refine sound.discharge hlease ?_ fun inst tidy => ?_
  · exact fun _ => rfl
  · exact ⟨fun _ => rfl, fun _ => rfl,
      fun event hevent => tidy.inputs event (List.mem_append_right _ hevent)⟩

/-- Recording a piece of history honours the tasks of others. -/
theorem Honours.recordDelta (honours : b.Honours task) (sound : b.Sound)
    (hlease : (token, workflowId) ∈ b.leases) (delta : List Event) :
    (b.recordDelta token workflowId delta).Honours task := by
  refine honours.discharge sound hlease ?_
  exact fun _ => rfl

/-- The task of an open instance is outstanding. -/
theorem Honours.outstanding (honours : b.Honours task)
    (hlease : (task.token, workflowId) ∈ b.leases)
    {inst : Instance} (hget : b.get? workflowId = some inst) (hopen : inst.isOpen = true) :
    inst.info = task.info ∧ inst.history = task.history ∧ inst.inFlight = task.newEvents := by
  obtain ⟨known, hknown, hinfo, hsame⟩ := honours.lease workflowId hlease
  rw [hget] at hknown
  cases hknown
  exact ⟨hinfo, hsame hopen⟩

/-- Recording the inputs that were handed out does not change how an instance stands. -/
theorem standing_recordDelta {inst : Instance} (hget : b.get? workflowId = some inst)
    {delta : List Event} (hdelta : inputs delta = inputs inst.inFlight) (token : String) :
    (b.recordDelta token workflowId delta).standing = b.standing := by
  refine standing_discharge ?_ b token workflowId fun other hother => ?_
  · exact fun _ => rfl
  · rw [hget] at hother
    cases hother
    simp [Instance.standing, Instance.isOpen, hdelta]

/-- No instance is open that was just closed. -/
theorem isOpen_close {status : Status} (terminal : status.isTerminal = true) {inst : Instance}
    (h : (b.close workflowId status).get? workflowId = some inst) : inst.isOpen = false := by
  have hstanding := standing_of_get? h
  rw [standing_close terminal] at hstanding
  have hstatus : inst.status = status := Standings.status_close hstanding
  rw [Instance.isOpen, hstatus, terminal]
  rfl

/-- Histories stay when an instance closes, whatever is recorded for it before. -/
theorem recordDelta_close_retains {status : Status} (terminal : status.isTerminal = true)
    (delta : List Event) :
    b.Retains ((b.recordDelta token workflowId delta).close workflowId status) := by
  have hkeeps := close_keeps terminal (b.recordDelta token workflowId delta) workflowId
  have hnone {id : String} (h : (b.recordDelta token workflowId delta).get? id = none) :
      b.get? id = none := by
    rw [get?_recordDelta] at h
    split at h
    · exact Option.map_eq_none_iff.mp h
    · exact h
  refine ⟨fun id h => hnone (hkeeps.retains.known id h), fun id inst' hinst' hopen => ?_⟩
  rcases hkeeps.retains.histories id inst' hinst' hopen with ⟨hnew, hempty⟩ | ⟨inst, hget, hrest⟩
  · exact .inl ⟨hnone hnew, hempty⟩
  · have hid : id ≠ workflowId := by
      rintro rfl
      rw [isOpen_close terminal hinst'] at hopen
      cases hopen
    rw [get?_recordDelta, if_neg hid] at hget
    exact .inr ⟨inst, hget, hrest⟩

end Backend

end DurableWorkflow
