import DurableWorkflow.Proofs.System

/-!
# What parents hear of their children

In every state that workers, clients, timers and timeouts can bring a backend to, an open parent has
got exactly one answer to each child that it started, wherever its events are: in its history, in
flight or pending. If the start was not refused, the news that the child has ended follows as soon
as the child has closed, once and true to how it closed.

## Main results

* `System.Reachable.child_reports` — one answer to each start and one end of each child.
-/

namespace DurableWorkflow

/-- All news of children are inputs. -/
theorem news_inputs (seq : Nat) (events : List Event) :
    news seq (inputs events) = news seq events := by
  have hinput (event : Event) : (event.isNewsOf seq && !event.isRecord) = event.isNewsOf seq := by
    cases event <;> simp [Event.isNewsOf, Execution.childNews?, Event.isRecord]
  simp [news, inputs, List.filter_filter, hinput]

/-- An open instance has got the inputs that are recorded, in flight and pending. -/
theorem Instance.received_of_isOpen {inst : Instance} (hopen : inst.isOpen = true) :
    inst.standing.received = inputs (inst.history ++ inst.inFlight ++ inst.pending) :=
  if_pos hopen

namespace System

variable {fleet : Worker → Prop} {source : Nat → String} {s : System}

/-- **Each start of a child is answered exactly once, and so is the end of the child.** Of a child
that an open parent has started, its recorded history, the events in flight and those pending tell
one of two things. Either the name was taken, by an instance that is not this child: then the start
has failed, there is no such child and nothing else is heard. Or there is one child of this parent
and sequence number, under the name asked for: then its start is reported with its run, followed by
how it closed as soon as it has closed. -/
theorem Reachable.child_reports (h : Reachable fleet source s) {parentId : String}
    {parent : Instance} (hparent : s.backend.get? parentId = some parent)
    (hopen : parent.isOpen = true) {start : ChildStart}
    (hstart : .startChild start ∈ s.carriedOut parentId) :
    (news start.seq (parent.history ++ parent.inFlight ++ parent.pending)
          = [.childStartFailed start.seq
            (.application ("workflow id " ++ start.workflowId ++ " already exists"))]
        ∧ s.backend.contains start.workflowId = true
        ∧ ∀ id inst, s.backend.get? id = some inst → inst.parent ≠ some ⟨parentId, start.seq⟩)
      ∨ ∃ child, s.backend.get? start.workflowId = some child
        ∧ child.parent = some ⟨parentId, start.seq⟩
        ∧ (∀ id inst, s.backend.get? id = some inst → inst.parent = some ⟨parentId, start.seq⟩ →
          id = start.workflowId)
        ∧ news start.seq (parent.history ++ parent.inFlight ++ parent.pending)
          = .childStarted start.seq child.info.runId
            :: (child.status.report? start.seq).toList := by
  have ledger := h.sound.accounts.ledger
  have only : ∀ id inst, s.backend.get? id = some inst →
      inst.parent = some ⟨parentId, start.seq⟩ → id = start.workflowId := by
    intro id inst hinst hlink
    obtain ⟨other, hother, hseq, rfl⟩ :=
      ledger.linked id _ _ (Backend.standing_of_get? hinst) hlink
    rw [ledger.start_unique hother hstart hseq]
  have hanswer := ledger.answered parentId _ start (Backend.standing_of_get? hparent)
    (Instance.isOpen_iff.mp hopen) hstart
  rw [Instance.received_of_isOpen hopen, news_inputs] at hanswer
  generalize news start.seq (parent.history ++ parent.inFlight ++ parent.pending) = heard at *
  cases hanswer with
  | refused other hother hno =>
      refine .inl ⟨rfl, ?_, fun id inst hinst hlink => ?_⟩
      · rw [← Backend.isSome_standing, hother]
        rfl
      · obtain rfl := only id inst hinst hlink
        rw [Backend.standing_of_get? hinst] at hother
        cases hother
        exact hno hlink
  | started child hchild hlink =>
      obtain ⟨inst, hinst, rfl⟩ := Option.map_eq_some_iff.mp hchild
      exact .inr ⟨inst, hinst, hlink, only, rfl⟩

/-- A host has heard that its guest was started. -/
theorem host_hears_of_guest :
    Reachable (fun worker => worker = host) Backend.generatedName hosted
      ∧ hosted.backend.get? "host" = some hostInstance ∧ hostInstance.isOpen = true
      ∧ .startChild guest ∈ hosted.carriedOut "host"
      ∧ ∃ child, hosted.backend.get? "guest" = some child ∧ child.parent = some ⟨"host", 1⟩
        ∧ news 1 (hostInstance.history ++ hostInstance.inFlight ++ hostInstance.pending)
          = .childStarted 1 child.info.runId :: (child.status.report? 1).toList := by
  have hhost : hosted.backend.get? "host" = some hostInstance := rfl
  have hstart : Command.startChild guest ∈ hosted.carriedOut "host" := List.mem_singleton_self _
  refine ⟨reachable_hosted, hhost, rfl, hstart, ?_⟩
  rcases reachable_hosted.child_reports hhost rfl hstart with
    ⟨hrefused, -, -⟩ | ⟨child, hchild, hparent, -, hnews⟩
  · cases hrefused
  · exact ⟨child, hchild, hparent, hnews⟩

end System

end DurableWorkflow
