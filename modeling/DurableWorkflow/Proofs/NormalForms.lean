import DurableWorkflow.Proofs.JsonDocuments

/-!
# Documents in normal form

A document is in normal form if the members of each of its objects stand in ascending order of their
keys, so that no key is there twice. Normalizing brings every document into normal form, leaves
those alone that are in it, and makes nothing deeper and nothing harder to write.

## Main definitions

* `Json.isNormal` — whether a document is in normal form.

## Main results

* `Json.isNormal_normalize` — what was normalized is in normal form.
* `Json.normalize_eq_self_iff` — a document stays as it is exactly if it is in normal form.
-/

namespace DurableWorkflow.Json

/-- Whether a document is in normal form: the members of every object in it are in ascending order
of their keys. -/
def isNormal : Json → Bool
  | .null | .bool _ | .number _ | .string _ | .unreadable => true
  | .array items => itemsAreNormal items
  | .object members => decide (members.Pairwise fun a b => a.1 < b.1) && membersAreNormal members
where
  /-- Whether all entries of an array are. -/
  itemsAreNormal : List Json → Bool
    | [] => true
    | item :: items => item.isNormal && itemsAreNormal items
  /-- Whether the values of all members of an object are. -/
  membersAreNormal : List (String × Json) → Bool
    | [] => true
    | (_, value) :: members => value.isNormal && membersAreNormal members

/-- The entries of an array in normal form are in normal form. -/
theorem itemsAreNormal_iff {items : List Json} :
    isNormal.itemsAreNormal items = true ↔ ∀ item ∈ items, item.isNormal = true := by
  induction items with
  | nil => simp [isNormal.itemsAreNormal]
  | cons item items ih => simp [isNormal.itemsAreNormal, ih]

/-- The values in an object in normal form are in normal form. -/
theorem membersAreNormal_iff {members : List (String × Json)} :
    isNormal.membersAreNormal members = true ↔ ∀ member ∈ members, member.2.isNormal = true := by
  induction members with
  | nil => simp [isNormal.membersAreNormal]
  | cons member members ih => simp [isNormal.membersAreNormal, ih]

/-- Normalizing the entries of an array. -/
theorem normalizeItems_eq (items : List Json) :
    normalize.normalizeItems items = items.map normalize := by
  induction items with
  | nil => rfl
  | cons item items ih => rw [normalize.normalizeItems, ih, List.map_cons]

/-- Normalizing the values in an object. -/
theorem normalizeMembers_eq (members : List (String × Json)) :
    normalize.normalizeMembers members
      = members.map fun member => (member.1, member.2.normalize) := by
  induction members with
  | nil => rfl
  | cons member members ih => rw [normalize.normalizeMembers, ih, List.map_cons]

/-! ### Members in order -/

section Members

variable {α : Type} {members : List (String × α)} {key : String} {value : α}

/-- Of members to which one is added there are none but it and those that were there. -/
theorem mem_insertMember {member : String × α} (h : member ∈ insertMember key value members) :
    member = (key, value) ∨ member ∈ members := by
  induction members with
  | nil => exact .inl (List.mem_singleton.mp h)
  | cons other members ih =>
      rw [insertMember] at h
      split at h
      · exact List.mem_cons.mp h
      · split at h
        · exact (List.mem_cons.mp h).imp_right (List.mem_cons_of_mem _)
        · rcases List.mem_cons.mp h with rfl | h
          · exact .inr List.mem_cons_self
          · exact (ih h).imp_right (List.mem_cons_of_mem _)

/-- A member that is added takes its place in the order of keys. -/
theorem pairwise_insertMember (h : members.Pairwise fun a b => a.1 < b.1) :
    (insertMember key value members).Pairwise fun a b => a.1 < b.1 := by
  induction members with
  | nil => exact List.pairwise_singleton _ _
  | cons other members ih =>
      obtain ⟨hother, hmembers⟩ := List.pairwise_cons.mp h
      rw [insertMember]
      split
      · rename_i hless
        refine List.pairwise_cons.mpr ⟨fun later hlater => ?_, h⟩
        rcases List.mem_cons.mp hlater with rfl | hlater
        · exact hless
        · exact String.lt_trans hless (hother later hlater)
      · rename_i hless
        split
        · rename_i hsame
          subst hsame
          exact List.pairwise_cons.mpr ⟨hother, hmembers⟩
        · rename_i hdifferent
          refine List.pairwise_cons.mpr ⟨fun later hlater => ?_, ih hmembers⟩
          rcases mem_insertMember hlater with rfl | hlater
          · exact Decidable.byContradiction fun hnot => hdifferent
              (String.le_antisymm (String.not_lt.mp hnot) (String.not_lt.mp hless))
          · exact hother later hlater

/-- A member whose key is greater than all others comes last. -/
theorem insertMember_of_greatest (h : ∀ member ∈ members, member.1 < key) :
    insertMember key value members = members ++ [(key, value)] := by
  induction members with
  | nil => rfl
  | cons other members ih =>
      obtain ⟨hother, hmembers⟩ := List.forall_mem_cons.mp h
      have hdifferent : key ≠ other.1 := fun hsame => String.lt_irrefl key (hsame ▸ hother)
      rw [insertMember, if_neg (String.lt_asymm hother), if_neg hdifferent, ih hmembers,
        List.cons_append]

/-- Of members that are sorted there are none but those that were there. -/
theorem mem_of_mem_sortMembers {member : String × α} (h : member ∈ sortMembers members) :
    member ∈ members := by
  have hall : ∀ other ∈ sortMembers members, other ∈ members := by
    refine List.foldlRecOn members _ (motive := fun sorted => ∀ other ∈ sorted, other ∈ members)
      nofun fun sorted hsorted added hadded other hother => ?_
    rcases mem_insertMember hother with rfl | hother
    · exact hadded
    · exact hsorted other hother
  exact hall member h

/-- Members that are sorted are in ascending order of their keys. -/
theorem pairwise_sortMembers (members : List (String × α)) :
    (sortMembers members).Pairwise fun a b => a.1 < b.1 :=
  List.foldlRecOn members _
    (motive := fun sorted : List (String × α) => sorted.Pairwise fun a b => a.1 < b.1)
    List.Pairwise.nil fun _ hsorted _ _ => pairwise_insertMember hsorted

/-- Members that are in order stay as they are. -/
theorem sortMembers_eq_self (h : members.Pairwise fun a b => a.1 < b.1) :
    sortMembers members = members := by
  induction members using List.reverseRecOn with
  | nil => rfl
  | append_singleton members last ih =>
      obtain ⟨hmembers, -, hlast⟩ := List.pairwise_append.mp h
      have hsorted : members.foldl (fun sorted member => insertMember member.1 member.2 sorted) []
          = members := ih hmembers
      rw [sortMembers, List.foldl_append, hsorted, List.foldl_cons, List.foldl_nil,
        insertMember_of_greatest fun member hmem => hlast member hmem last List.mem_cons_self]

end Members

/-! ### Documents -/

/-- **What was normalized is in normal form.** -/
theorem isNormal_normalize (document : Json) : document.normalize.isNormal = true := by
  induction document using nested_induction with
  | null | bool | number | string | unreadable => rfl
  | array items ih =>
      rw [normalize, normalizeItems_eq, isNormal, itemsAreNormal_iff, List.forall_mem_map]
      exact ih
  | object members ih =>
      rw [normalize, normalizeMembers_eq, isNormal, Bool.and_eq_true, decide_eq_true_eq,
        membersAreNormal_iff]
      refine ⟨pairwise_sortMembers _, fun member hmem => ?_⟩
      obtain ⟨old, hold, rfl⟩ := List.mem_map.mp (mem_of_mem_sortMembers hmem)
      exact ih old hold

/-- A document in normal form stays as it is. -/
theorem normalize_eq_self {document : Json} (h : document.isNormal = true) :
    document.normalize = document := by
  induction document using nested_induction with
  | null | bool | number | string | unreadable => rfl
  | array items ih =>
      have hitems : items.map normalize = items.map id :=
        List.map_congr_left fun item hmem => ih item hmem (itemsAreNormal_iff.mp h item hmem)
      rw [normalize, normalizeItems_eq, hitems, List.map_id]
  | object members ih =>
      rw [isNormal, Bool.and_eq_true, decide_eq_true_eq, membersAreNormal_iff] at h
      have hmembers : members.map (fun member => (member.1, member.2.normalize))
          = members.map id :=
        List.map_congr_left fun member hmem =>
          congrArg (Prod.mk member.1) (ih member hmem (h.2 member hmem))
      rw [normalize, normalizeMembers_eq, hmembers, List.map_id, sortMembers_eq_self h.1]

/-- **A document stays as it is exactly if it is in normal form.** -/
theorem normalize_eq_self_iff {document : Json} :
    document.normalize = document ↔ document.isNormal = true :=
  ⟨fun h => h ▸ isNormal_normalize document, normalize_eq_self⟩

/-- A document that is written without loss still is when it was normalized. -/
theorem isPlain_normalize {document : Json} (plain : document.isPlain = true) :
    document.normalize.isPlain = true := by
  induction document using nested_induction with
  | null | bool | number | string => exact plain
  | unreadable => cases plain
  | array items ih =>
      rw [normalize, normalizeItems_eq, isPlain, itemsArePlain_iff, List.forall_mem_map]
      exact fun item hmem => ih item hmem (itemsArePlain_iff.mp plain item hmem)
  | object members ih =>
      rw [normalize, normalizeMembers_eq, isPlain, membersArePlain_iff]
      intro member hmem
      obtain ⟨old, hold, rfl⟩ := List.mem_map.mp (mem_of_mem_sortMembers hmem)
      exact ih old hold (membersArePlain_iff.mp plain old hold)

/-- Normalizing makes no document deeper. -/
theorem depth_normalize_le (document : Json) : document.normalize.depth ≤ document.depth := by
  induction document using nested_induction with
  | null | bool | number | string | unreadable => exact Nat.le_refl _
  | array items ih =>
      rw [normalize, normalizeItems_eq, depth, depth, Nat.add_le_add_iff_right,
        itemsDepth_le_iff, List.forall_mem_map]
      exact fun item hmem => (ih item hmem).trans (depth_le_itemsDepth hmem)
  | object members ih =>
      rw [normalize, normalizeMembers_eq, depth, depth, Nat.add_le_add_iff_right,
        membersDepth_le_iff]
      intro member hmem
      obtain ⟨old, hold, rfl⟩ := List.mem_map.mp (mem_of_mem_sortMembers hmem)
      exact (ih old hold).trans (depth_le_membersDepth hold)

end DurableWorkflow.Json
