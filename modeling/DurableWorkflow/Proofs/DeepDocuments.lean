import DurableWorkflow.Proofs.JsonDocuments

/-!
# Documents that are nested too deeply

The printer writes documents of any depth. A strict reader takes a text back only if its document is
nested no more deeply than readers allow. From the text of any other it reads nothing: it stops at
the first array or object that is too deep, whatever it has read until then.

## Main definitions

* `Json.StopsDeep` — whether reading ended at an array or object that is too deep.
* `Json.TooDeep` — whether a strict reader stops at a document because of its depth.

## Main results

* `Json.tooDeep_of_lt_depth` — it does at every document that is deeper than the levels left.
* `Json.readDocument_deep` — nothing is read from the text of a document beyond the limit.
-/

namespace DurableWorkflow.Json

/-- Whether reading ended at an array or object that is nested too deeply. -/
def StopsDeep {α : Type} (result : Except Stop α) : Prop :=
  ∃ stop, result = .error stop ∧ stop.fault = .recursionLimit

/-- Whether a strict reader with so many levels left stops at a document because of its depth. -/
def TooDeep (levels : Nat) (document : Json) : Prop :=
  ∀ (steps : Nat) (rest : List Char), document.render.length ≤ steps → Delimited rest →
    StopsDeep (readValue false steps levels (document.render ++ rest))

variable {α : Type} {steps levels : Nat} {rest : List Char}

/-- What is done after reading is not done when reading has ended. -/
theorem StopsDeep.bind {result : Except Stop α} (h : StopsDeep result) {β : Type}
    (next : α → Except Stop β) : StopsDeep (result >>= next) := by
  obtain ⟨stop, rfl, hfault⟩ := h
  exact ⟨stop, rfl, hfault⟩

/-- A reader stops at a document or behind it, if it stops at every document that is too deep and
going on behind any other would stop it. -/
theorem stopsDeep_readValue_bind {document : Json} (plain : document.isPlain = true)
    (hdeep : levels < document.depth → document.TooDeep levels)
    (hsteps : document.render.length ≤ steps) (hrest : Delimited rest)
    {next : Json × List Char → Except Stop α}
    (hnext : document.depth ≤ levels → StopsDeep (next (document.cut levels, rest))) :
    StopsDeep (readValue false steps levels (document.render ++ rest) >>= next) := by
  rcases Nat.lt_or_ge levels document.depth with h | h
  · exact (hdeep h steps rest hsteps hrest).bind next
  · rw [readValue_render plain (.inr h) steps rest hsteps hrest]
    exact hnext h

/-! ### Arrays -/

/-- An array is deep because of one of its entries. -/
theorem exists_deep_item {items : List Json} (h : levels < depth.itemsDepth items) :
    ∃ item ∈ items, levels < item.depth := by
  simpa using itemsDepth_le_iff.not.mp (Nat.not_le.mpr h)

/-- A reader stops at the entries behind the first one if one of them is too deep. -/
theorem stopsDeep_readItems_rest {items : List Json} (plain : ∀ item ∈ items, item.isPlain = true)
    (hitems : ∀ item ∈ items, levels < item.depth → item.TooDeep levels)
    (hdeep : ∃ item ∈ items, levels < item.depth)
    (hsteps : (items.flatMap fun item => ',' :: item.render).length < steps) (read : List Json) :
    StopsDeep (readItems false steps levels false read
      (items.flatMap (fun item => ',' :: item.render) ++ ']' :: rest)) := by
  induction items generalizing steps read with
  | nil => simp at hdeep
  | cons item items ih =>
      obtain ⟨steps, rfl⟩ : ∃ n, steps = n + 1 := ⟨steps - 1, by omega⟩
      simp only [List.flatMap_cons, List.length_append, List.length_cons] at hsteps
      rw [List.forall_mem_cons] at plain hitems
      rw [List.exists_mem_cons_iff] at hdeep
      rw [List.flatMap_cons, List.append_assoc, List.cons_append, readItems_next plain.1]
      refine stopsDeep_readValue_bind plain.1 hitems.1 (by omega)
        (delimited_parts render items (.inl rfl) rest) fun hitem => ?_
      exact ih plain.2 hitems.2 (hdeep.resolve_left (Nat.not_lt.mpr hitem)) (by omega) _

/-- A reader stops at the entries of an array if one of them is too deep. -/
theorem stopsDeep_readItems {items : List Json} (plain : ∀ item ∈ items, item.isPlain = true)
    (hitems : ∀ item ∈ items, levels < item.depth → item.TooDeep levels)
    (hdeep : ∃ item ∈ items, levels < item.depth)
    (hsteps : (render.renderItems items).length < steps) :
    StopsDeep (readItems false steps levels true [] (render.renderItems items ++ ']' :: rest)) := by
  obtain ⟨steps, rfl⟩ : ∃ n, steps = n + 1 := ⟨steps - 1, by omega⟩
  cases items with
  | nil => simp at hdeep
  | cons item items =>
      rw [renderItems_cons, List.length_append] at hsteps
      rw [List.forall_mem_cons] at plain hitems
      rw [List.exists_mem_cons_iff] at hdeep
      have hpositive := length_render_pos plain.1
      rw [renderItems_cons, List.append_assoc, readItems_first plain.1]
      refine stopsDeep_readValue_bind plain.1 hitems.1 (by omega)
        (delimited_parts render items (.inl rfl) rest) fun hitem => ?_
      exact stopsDeep_readItems_rest plain.2 hitems.2
        (hdeep.resolve_left (Nat.not_lt.mpr hitem)) (by omega) _

/-! ### Objects -/

/-- An object is deep because of the value of one of its members. -/
theorem exists_deep_member {members : List (String × Json)}
    (h : levels < depth.membersDepth members) : ∃ member ∈ members, levels < member.2.depth := by
  simpa using membersDepth_le_iff.not.mp (Nat.not_le.mpr h)

/-- A reader stops at the members behind the first one if the value of one of them is too deep. -/
theorem stopsDeep_readMembers_rest {members : List (String × Json)}
    (plain : ∀ member ∈ members, member.2.isPlain = true)
    (hmembers : ∀ member ∈ members, levels < member.2.depth → member.2.TooDeep levels)
    (hdeep : ∃ member ∈ members, levels < member.2.depth)
    (hsteps : (members.flatMap fun member => ',' :: renderMember member).length < steps)
    (read : List (String × Json)) :
    StopsDeep (readMembers false steps levels false (some read)
      (members.flatMap (fun member => ',' :: renderMember member) ++ '\x7d' :: rest)) := by
  induction members generalizing steps read with
  | nil => simp at hdeep
  | cons member members ih =>
      obtain ⟨steps, rfl⟩ : ∃ n, steps = n + 1 := ⟨steps - 1, by omega⟩
      have hlength := length_renderMember member
      simp only [List.flatMap_cons, List.length_append, List.length_cons] at hsteps
      rw [List.forall_mem_cons] at plain hmembers
      rw [List.exists_mem_cons_iff] at hdeep
      rw [List.flatMap_cons, List.append_assoc, List.cons_append, readMembers_next (by omega)]
      refine stopsDeep_readValue_bind plain.1 hmembers.1 (by omega)
        (delimited_parts renderMember members (.inr rfl) rest) fun hmember => ?_
      exact ih plain.2 hmembers.2 (hdeep.resolve_left (Nat.not_lt.mpr hmember)) (by omega) _

/-- A reader stops at the members of an object if the value of one of them is too deep. -/
theorem stopsDeep_readMembers {members : List (String × Json)}
    (plain : ∀ member ∈ members, member.2.isPlain = true)
    (hmembers : ∀ member ∈ members, levels < member.2.depth → member.2.TooDeep levels)
    (hdeep : ∃ member ∈ members, levels < member.2.depth)
    (hsteps : (render.renderMembers members).length < steps) :
    StopsDeep (readMembers false steps levels true (some [])
      (render.renderMembers members ++ '\x7d' :: rest)) := by
  obtain ⟨steps, rfl⟩ : ∃ n, steps = n + 1 := ⟨steps - 1, by omega⟩
  cases members with
  | nil => simp at hdeep
  | cons member members =>
      have hlength := length_renderMember member
      rw [renderMembers_cons, List.length_append] at hsteps
      rw [List.forall_mem_cons] at plain hmembers
      rw [List.exists_mem_cons_iff] at hdeep
      rw [renderMembers_cons, List.append_assoc, readMembers_first (by omega)]
      refine stopsDeep_readValue_bind plain.1 hmembers.1 (by omega)
        (delimited_parts renderMember members (.inr rfl) rest) fun hmember => ?_
      exact stopsDeep_readMembers_rest plain.2 hmembers.2
        (hdeep.resolve_left (Nat.not_lt.mpr hmember)) (by omega) _

/-! ### Whole documents -/

/-- A reader stops at an array if there are no levels left, or at an entry that is too deep. -/
theorem tooDeep_array {items : List Json} (plain : ∀ item ∈ items, item.isPlain = true)
    (hitems : ∀ item ∈ items, levels - 1 < item.depth → item.TooDeep (levels - 1))
    (h : levels < (array items).depth) : (array items).TooDeep levels := by
  intro steps rest hsteps _
  simp only [render, List.length_cons, List.length_append] at hsteps
  obtain ⟨steps, rfl⟩ : ∃ n, steps = n + 1 := ⟨steps - 1, by omega⟩
  rw [render, List.cons_append, List.append_assoc, List.singleton_append, readValue,
    skipSpace_cons rfl]
  by_cases hlevels : levels = 0
  · simp only [hlevels, and_self, if_true]
    exact ⟨_, rfl, rfl⟩
  · simp only [hlevels, false_and, if_false]
    rw [depth] at h
    exact (stopsDeep_readItems plain hitems (exists_deep_item (by omega)) (by omega)).bind _

/-- A reader stops at an object if there are no levels left, or at the value of a member that is too
deep. -/
theorem tooDeep_object {members : List (String × Json)}
    (plain : ∀ member ∈ members, member.2.isPlain = true)
    (hmembers : ∀ member ∈ members,
      levels - 1 < member.2.depth → member.2.TooDeep (levels - 1))
    (h : levels < (object members).depth) : (object members).TooDeep levels := by
  intro steps rest hsteps _
  simp only [render, List.length_cons, List.length_append] at hsteps
  obtain ⟨steps, rfl⟩ : ∃ n, steps = n + 1 := ⟨steps - 1, by omega⟩
  rw [render, List.cons_append, List.append_assoc, List.singleton_append, readValue,
    skipSpace_cons rfl]
  by_cases hlevels : levels = 0
  · simp only [hlevels, and_self, if_true]
    exact ⟨_, rfl, rfl⟩
  · simp only [hlevels, false_and, if_false]
    rw [depth] at h
    exact (stopsDeep_readMembers plain hmembers (exists_deep_member (by omega)) (by omega)).bind _

/-- **A strict reader stops at every document that is too deep.** -/
theorem tooDeep_of_lt_depth {document : Json} (plain : document.isPlain = true)
    (h : levels < document.depth) : document.TooDeep levels := by
  induction document using nested_induction generalizing levels with
  | null | bool | number | string | unreadable => cases h
  | array items ih =>
      have hplain := itemsArePlain_iff.mp plain
      exact tooDeep_array hplain (fun item hmem => ih item hmem (hplain item hmem)) h
  | object members ih =>
      have hplain := membersArePlain_iff.mp plain
      exact tooDeep_object hplain (fun member hmem => ih member hmem (hplain member hmem)) h

/-- **Nothing is read from the text of a document beyond the limit.** -/
theorem readDocument_deep {document : Json} (plain : document.isPlain = true)
    (h : nestingLimit < document.depth) : StopsDeep (readDocument false document.text) := by
  have hstop := tooDeep_of_lt_depth plain h (2 * document.render.length + 2) [] (by omega)
    delimited_nil
  rw [List.append_nil] at hstop
  simp only [readDocument, text, String.toList_ofList]
  exact hstop.bind _

end DurableWorkflow.Json
