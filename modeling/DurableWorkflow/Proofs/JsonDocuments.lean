import DurableWorkflow.Proofs.JsonScalars

/-!
# Reading back what was printed: documents

A document whose numbers are integers of a machine word is read back from its text. What is nested
more deeply than a reader allows is not: a lenient reader takes the arrays and objects beyond the
limit for unreadable parts and reads everything else.

## Main definitions

* `Json.isPlain` — whether a document is written without loss.
* `Json.cut` — a document without what is nested too deeply.

## Main results

* `Json.readValue_render` — a value is read back up to the limit.
* `Json.readDocument_text` — so is a whole text.
-/

namespace DurableWorkflow.Json

/-- Whether a document is written without loss: its numbers are integers that fit a signed or
unsigned machine word, and no part of it is unreadable. -/
def isPlain : Json → Bool
  | .null | .bool _ | .string _ => true
  | .number (.int n) => -(2 ^ 63) ≤ n && n < 2 ^ 64
  | .number (.float _) | .unreadable => false
  | .array items => itemsArePlain items
  | .object members => membersArePlain members
where
  /-- Whether all entries of an array are. -/
  itemsArePlain : List Json → Bool
    | [] => true
    | item :: items => item.isPlain && itemsArePlain items
  /-- Whether the values of all members of an object are. -/
  membersArePlain : List (String × Json) → Bool
    | [] => true
    | (_, value) :: members => value.isPlain && membersArePlain members

/-- A document in which arrays and objects that are nested more deeply than so many levels are
unreadable. -/
def cut (levels : Nat) : Json → Json
  | .array items =>
    match levels with
    | 0 => .unreadable
    | levels + 1 => .array (cutItems levels items)
  | .object members =>
    match levels with
    | 0 => .unreadable
    | levels + 1 => .object (cutMembers levels members)
  | document => document
where
  /-- The entries of an array, each cut. -/
  cutItems : Nat → List Json → List Json
    | _, [] => []
    | levels, item :: items => item.cut levels :: cutItems levels items
  /-- The members of an object, the value of each cut. -/
  cutMembers : Nat → List (String × Json) → List (String × Json)
    | _, [] => []
    | levels, (key, value) :: members => (key, value.cut levels) :: cutMembers levels members

/-! ### Parts of a document -/

/-- Cutting the entries of an array. -/
theorem cutItems_eq (levels : Nat) (items : List Json) :
    cut.cutItems levels items = items.map (cut levels) := by
  induction items with
  | nil => rfl
  | cons item items ih => rw [cut.cutItems, ih, List.map_cons]

/-- Cutting the members of an object. -/
theorem cutMembers_eq (levels : Nat) (members : List (String × Json)) :
    cut.cutMembers levels members = members.map fun member => (member.1, member.2.cut levels) := by
  induction members with
  | nil => rfl
  | cons member members ih => rw [cut.cutMembers, ih, List.map_cons]

/-- The entries of a plain array are plain. -/
theorem itemsArePlain_iff {items : List Json} :
    isPlain.itemsArePlain items = true ↔ ∀ item ∈ items, item.isPlain = true := by
  induction items with
  | nil => simp [isPlain.itemsArePlain]
  | cons item items ih => simp [isPlain.itemsArePlain, ih]

/-- The values in a plain object are plain. -/
theorem membersArePlain_iff {members : List (String × Json)} :
    isPlain.membersArePlain members = true ↔ ∀ member ∈ members, member.2.isPlain = true := by
  induction members with
  | nil => simp [isPlain.membersArePlain]
  | cons member members ih => simp [isPlain.membersArePlain, ih]

/-- A number that fits a machine word is written without loss. -/
theorem isPlain_nat {n : Nat} (h : n < UInt64.size) : (Json.nat n).isPlain = true := by
  simp only [UInt64.size] at h
  simp only [nat, int, isPlain, Bool.and_eq_true, decide_eq_true_eq]
  omega

/-- The entries of an array are nested no more deeply than so many levels if none of them is. -/
theorem itemsDepth_le_iff {items : List Json} {levels : Nat} :
    depth.itemsDepth items ≤ levels ↔ ∀ item ∈ items, item.depth ≤ levels := by
  induction items with
  | nil => simp [depth.itemsDepth]
  | cons item items ih => simp [depth.itemsDepth, ih]

/-- The members of an object are nested no more deeply than so many levels if the value of none of
them is. -/
theorem membersDepth_le_iff {members : List (String × Json)} {levels : Nat} :
    depth.membersDepth members ≤ levels ↔ ∀ member ∈ members, member.2.depth ≤ levels := by
  induction members with
  | nil => simp [depth.membersDepth]
  | cons member members ih => simp [depth.membersDepth, ih]

/-- No entry of an array is deeper than the deepest. -/
theorem depth_le_itemsDepth {items : List Json} {item : Json} (h : item ∈ items) :
    item.depth ≤ depth.itemsDepth items :=
  itemsDepth_le_iff.mp (Nat.le_refl _) item h

/-- No member of an object is deeper than the deepest. -/
theorem depth_le_membersDepth {members : List (String × Json)} {member : String × Json}
    (h : member ∈ members) : member.2.depth ≤ depth.membersDepth members :=
  membersDepth_le_iff.mp (Nat.le_refl _) member h

/-- What holds of scalars, and of an array or object whenever it holds of its parts, holds of every
document. -/
@[elab_as_elim]
theorem nested_induction {motive : Json → Prop} (null : motive .null)
    (bool : ∀ b, motive (.bool b)) (number : ∀ n, motive (.number n))
    (string : ∀ s, motive (.string s)) (unreadable : motive .unreadable)
    (array : ∀ items, (∀ item ∈ items, motive item) → motive (.array items))
    (object : ∀ members, (∀ member ∈ members, motive member.2) → motive (.object members)) :
    ∀ document, motive document
  | .null => null
  | .bool b => bool b
  | .number n => number n
  | .string s => string s
  | .unreadable => unreadable
  | .array items => array items fun item h =>
      have := List.sizeOf_lt_of_mem h
      nested_induction null bool number string unreadable array object item
  | .object members => object members fun member h =>
      have := List.sizeOf_lt_of_mem h
      nested_induction null bool number string unreadable array object member.2
termination_by document => sizeOf document
decreasing_by
  · simp only [Json.array.sizeOf_spec]
    omega
  · obtain ⟨key, value⟩ := member
    simp only [Prod.mk.sizeOf_spec, Json.object.sizeOf_spec] at this ⊢
    omega

/-- A document that is not too deep stays as it is. -/
theorem cut_eq_self {document : Json} {levels : Nat} (h : document.depth ≤ levels) :
    document.cut levels = document := by
  induction document using nested_induction generalizing levels with
  | array items ih =>
      obtain ⟨levels, rfl⟩ : ∃ n, levels = n + 1 := ⟨levels - 1, by rw [depth] at h; omega⟩
      have hitems : items.map (cut levels) = items.map id :=
        List.map_congr_left fun item hmem =>
          ih item hmem ((depth_le_itemsDepth hmem).trans (Nat.le_of_succ_le_succ h))
      rw [cut, cutItems_eq, hitems, List.map_id]
  | object members ih =>
      obtain ⟨levels, rfl⟩ : ∃ n, levels = n + 1 := ⟨levels - 1, by rw [depth] at h; omega⟩
      have hmembers : members.map (fun member => (member.1, member.2.cut levels))
          = members.map id :=
        List.map_congr_left fun member hmem => congrArg (Prod.mk member.1)
          (ih member hmem ((depth_le_membersDepth hmem).trans (Nat.le_of_succ_le_succ h)))
      rw [cut, cutMembers_eq, hmembers, List.map_id]
  | null | bool | number | string | unreadable => rfl

/-! ### The text of a document -/

/-- The text of a member. -/
def renderMember (member : String × Json) : List Char :=
  quoted member.1 ++ ':' :: member.2.render

/-- The text of an array's entries: the first, then each other behind a comma. -/
theorem renderItems_cons (item : Json) (items : List Json) :
    render.renderItems (item :: items)
      = item.render ++ items.flatMap fun item => ',' :: item.render := by
  induction items generalizing item with
  | nil => simp [render.renderItems]
  | cons other items ih =>
      rw [render.renderItems, ih]
      · rfl
      · simp

/-- The text of an object's members: the first, then each other behind a comma. -/
theorem renderMembers_cons (member : String × Json) (members : List (String × Json)) :
    render.renderMembers (member :: members)
      = renderMember member ++ members.flatMap fun member => ',' :: renderMember member := by
  induction members generalizing member with
  | nil => simp [render.renderMembers, renderMember]
  | cons other members ih =>
      rw [render.renderMembers, ih]
      · simp [renderMember]
      · simp

/-- The text of an integer: its digits, behind a sign if it is negative. -/
theorem toList_toString_int (n : Int) :
    (toString n).toList
      = if n < 0 then '-' :: Nat.toDigits 10 n.natAbs else Nat.toDigits 10 n.natAbs := by
  cases n with
  | ofNat n => exact Nat.toList_repr
  | negSucc n =>
      have h : (toString (Int.negSucc n)).toList = '-' :: (n + 1).repr.toList :=
        String.toList_append
      rw [h, Nat.toList_repr, if_pos (Int.negSucc_lt_zero n)]
      rfl

/-- Digits are no space. -/
theorem not_isSpace_of_isDigit {d : Char} (hd : isDigit d = true) : isSpace d = false := by
  rw [isSpace, Bool.eq_false_iff]
  intro h
  simp only [Bool.or_eq_true, beq_iff_eq] at h
  rcases h with ((rfl | rfl) | rfl) | rfl <;> cases hd

/-- A document's text starts with something that is neither space nor a closing bracket. -/
theorem render_eq_cons {document : Json} (h : document.isPlain = true) :
    ∃ c cs, document.render = c :: cs ∧ isSpace c = false ∧ c ≠ ']' := by
  cases document with
  | null => exact ⟨_, _, rfl, rfl, by decide⟩
  | bool b => cases b <;> exact ⟨_, _, rfl, rfl, by decide⟩
  | string s => exact ⟨_, _, rfl, rfl, by decide⟩
  | array items => exact ⟨_, _, rfl, rfl, by decide⟩
  | object members => exact ⟨_, _, rfl, rfl, by decide⟩
  | unreadable => cases h
  | number n =>
      cases n with
      | float x => cases h
      | int n =>
          rw [render, JsonNumber.text, toList_toString_int]
          split
          · exact ⟨_, _, rfl, rfl, by decide⟩
          · obtain ⟨d, ds, hdigits, hd⟩ := toDigits_eq_cons n.natAbs
            refine ⟨d, ds, hdigits, not_isSpace_of_isDigit hd, ?_⟩
            rintro rfl
            cases hd

/-! ### Values -/

variable {lenient : Bool} {steps levels : Nat} {rest : List Char}

/-- There is no space to skip in front of a document. -/
theorem skipSpace_cons {c : Char} {cs : List Char} (h : isSpace c = false) :
    skipSpace (c :: cs) = c :: cs := by
  simp [skipSpace, h]

/-- A value that starts with a digit is a number. -/
theorem readValue_digit {d : Char} (hd : isDigit d = true) (cs : List Char) :
    readValue lenient (steps + 1) levels (d :: cs) = readNumber lenient false (d :: cs) := by
  rw [readValue, skipSpace_cons (not_isSpace_of_isDigit hd)]
  split <;> rename_i heq <;> cases heq <;> exact if_pos hd

/-- Integers that fit a word are read back. -/
theorem readValue_int {n : Int} (hlow : -(2 ^ 63) ≤ n) (hhigh : n < 2 ^ 64)
    (hrest : Delimited rest) :
    readValue lenient (steps + 1) levels ((toString n).toList ++ rest) = .ok (int n, rest) := by
  have hsize : n.natAbs < UInt64.size := by
    simp only [UInt64.size]
    omega
  rw [toList_toString_int]
  split
  · rename_i hneg
    have hfits : 0 < n.natAbs ∧ n.natAbs ≤ UInt64.size / 2 := by
      simp only [UInt64.size]
      omega
    rw [List.cons_append, readValue, skipSpace_cons rfl]
    simp only [readNumber_toDigits hsize hrest, finish_delimited hrest, if_true, hfits, and_self]
    rw [Int.ofNat_natAbs_of_nonpos hneg.le, Int.neg_neg]
    rfl
  · rename_i hnonneg
    obtain ⟨d, ds, hdigits, hd⟩ := toDigits_eq_cons n.natAbs
    have hread : readNumber lenient false _ = _ := readNumber_toDigits hsize hrest false
    rw [hdigits, List.cons_append] at hread ⊢
    rw [readValue_digit hd, hread, finish_delimited hrest, if_neg (by decide),
      Int.natAbs_of_nonneg (by omega)]
    rfl

/-! ### Arrays -/

/-- What follows a part of an array or object, which is the other parts behind commas and then the
closing bracket, can follow a document. -/
theorem delimited_parts {α : Type} (text : α → List Char) (parts : List α) {bracket : Char}
    (hbracket : bracket = ']' ∨ bracket = '\x7d') (rest : List Char) :
    Delimited (parts.flatMap (fun part => ',' :: text part) ++ bracket :: rest) := by
  cases parts with
  | nil => simpa [Delimited] using .inr hbracket
  | cons part parts => simp [Delimited]

/-- Whether documents are read back, cut to so many levels, from texts that are no longer than the
steps allowed. -/
def ReadBack (lenient : Bool) (levels : Nat) (document : Json) : Prop :=
  ∀ (steps : Nat) (rest : List Char), document.render.length ≤ steps → Delimited rest →
    readValue lenient steps levels (document.render ++ rest) = .ok (document.cut levels, rest)

/-- A plain document's text is not empty. -/
theorem length_render_pos {document : Json} (plain : document.isPlain = true) :
    0 < document.render.length := by
  obtain ⟨c, cs, hrender, -, -⟩ := render_eq_cons plain
  rw [hrender, List.length_cons]
  exact Nat.succ_pos _

/-- A plain document is read in one step or more. -/
theorem ReadBack.of_succ {document : Json} (plain : document.isPlain = true)
    (h : ∀ (steps : Nat) (rest : List Char), document.render.length ≤ steps + 1 →
      Delimited rest → readValue lenient (steps + 1) levels (document.render ++ rest)
        = .ok (document.cut levels, rest)) :
    document.ReadBack lenient levels := by
  intro steps rest hsteps hrest
  have hpositive := length_render_pos plain
  obtain ⟨steps, rfl⟩ : ∃ n, steps = n + 1 := ⟨steps - 1, by omega⟩
  exact h steps rest hsteps hrest

/-- The first entry of an array is read, and then the others. -/
theorem readItems_first {item : Json} (plain : item.isPlain = true) (tail : List Char)
    (read : List Json) :
    readItems lenient (steps + 1) levels true read (item.render ++ tail)
      = readValue lenient steps levels (item.render ++ tail) >>= fun (item, rest) =>
          readItems lenient steps levels false (item :: read) rest := by
  obtain ⟨c, cs, hrender, hspace, hbracket⟩ := render_eq_cons plain
  rw [hrender, List.cons_append, readItems, skipSpace_cons hspace]
  split
  · rename_i heq
    cases heq
  · rename_i heq
    exact absurd (List.cons.inj heq).1 hbracket
  · rename_i heq
    obtain ⟨rfl, rfl⟩ := List.cons.inj heq
    simp only [if_true, pure_bind]

/-- Any other entry of an array is read, behind a comma, and then those that are left. -/
theorem readItems_next {item : Json} (plain : item.isPlain = true) (tail : List Char)
    (read : List Json) :
    readItems lenient (steps + 1) levels false read (',' :: (item.render ++ tail))
      = readValue lenient steps levels (item.render ++ tail) >>= fun (item, rest) =>
          readItems lenient steps levels false (item :: read) rest := by
  obtain ⟨c, cs, hrender, hspace, hbracket⟩ := render_eq_cons plain
  rw [hrender, List.cons_append, readItems, skipSpace_cons rfl]
  split <;> rename_i heq <;> cases heq
  simp only [Bool.false_eq_true, if_false, if_true, skipSpace_cons hspace]
  split
  · rename_i heq
    exact absurd (List.cons.inj heq).1 hbracket
  · rename_i heq
    cases heq
  · simp only [pure_bind]

/-- The entries behind the first one are read back. -/
theorem readItems_rest {items : List Json} (plain : ∀ item ∈ items, item.isPlain = true)
    (hitems : ∀ item ∈ items, item.ReadBack lenient levels)
    (hsteps : (items.flatMap fun item => ',' :: item.render).length < steps) (read : List Json) :
    readItems lenient steps levels false read
        (items.flatMap (fun item => ',' :: item.render) ++ ']' :: rest)
      = .ok (read.reverse ++ items.map (cut levels), rest) := by
  induction items generalizing steps read with
  | nil =>
      obtain ⟨steps, rfl⟩ : ∃ n, steps = n + 1 := ⟨steps - 1, by omega⟩
      rw [List.flatMap_nil, List.nil_append, readItems, skipSpace_cons rfl]
      simp [pure, Except.pure]
  | cons item items ih =>
      obtain ⟨steps, rfl⟩ : ∃ n, steps = n + 1 := ⟨steps - 1, by omega⟩
      simp only [List.flatMap_cons, List.length_append, List.length_cons] at hsteps
      have hread := hitems item List.mem_cons_self steps _ (by omega)
        (delimited_parts render items (.inl rfl) rest)
      rw [List.flatMap_cons, List.append_assoc, List.cons_append,
        readItems_next (plain item List.mem_cons_self), hread]
      dsimp only [bind, Except.bind]
      rw [ih (fun item h => plain item (List.mem_cons_of_mem _ h))
        (fun item h => hitems item (List.mem_cons_of_mem _ h)) (by omega)]
      simp

/-- **The entries of an array are read back.** -/
theorem readItems_render {items : List Json} (plain : ∀ item ∈ items, item.isPlain = true)
    (hitems : ∀ item ∈ items, item.ReadBack lenient levels)
    (hsteps : (render.renderItems items).length < steps) :
    readItems lenient steps levels true [] (render.renderItems items ++ ']' :: rest)
      = .ok (items.map (cut levels), rest) := by
  obtain ⟨steps, rfl⟩ : ∃ n, steps = n + 1 := ⟨steps - 1, by omega⟩
  cases items with
  | nil =>
      rw [render.renderItems, List.nil_append, readItems, skipSpace_cons rfl]
      rfl
  | cons item items =>
      rw [renderItems_cons, List.length_append] at hsteps
      have hread := hitems item List.mem_cons_self steps _ (by omega)
        (delimited_parts render items (.inl rfl) rest)
      have hpositive := length_render_pos (plain item List.mem_cons_self)
      rw [renderItems_cons, List.append_assoc,
        readItems_first (plain item List.mem_cons_self), hread]
      dsimp only [bind, Except.bind]
      rw [readItems_rest (fun item h => plain item (List.mem_cons_of_mem _ h))
        (fun item h => hitems item (List.mem_cons_of_mem _ h)) (by omega)]
      simp

/-! ### Objects -/

/-- A string is read back behind its opening quote. -/
theorem readString_toList (s : String) (hsteps : s.toList.length ≤ steps) :
    readString lenient steps (some []) (s.toList.flatMap quotedChar ++ '"' :: rest)
      = .ok (some s, rest) := by
  rw [readString_quoted s.toList hsteps, List.reverse_nil, List.nil_append, String.ofList_toList]

/-- No character of a string is left out of its text. -/
theorem length_le_flatMap_quotedChar (cs : List Char) :
    cs.length ≤ (cs.flatMap quotedChar).length := by
  induction cs with
  | nil => exact Nat.zero_le _
  | cons c cs ih =>
      have hpositive : 0 < (quotedChar c).length := by
        rw [quotedChar.eq_def]
        split <;> (try split) <;> simp
      rw [List.flatMap_cons, List.length_append, List.length_cons]
      omega

/-- The text of a member starts with the opening quote of its key. -/
theorem renderMember_append (member : String × Json) (tail : List Char) :
    renderMember member ++ tail
      = '"' :: (member.1.toList.flatMap quotedChar
          ++ '"' :: ':' :: (member.2.render ++ tail)) := by
  simp [renderMember, quoted]

/-- The key and the value of a member are shorter than its text. -/
theorem length_renderMember (member : String × Json) :
    member.1.toList.length + member.2.render.length < (renderMember member).length := by
  have h := length_le_flatMap_quotedChar member.1.toList
  simp only [renderMember, quoted, List.length_append, List.length_cons, List.length_nil]
  omega

/-- The first member of an object is read, and then the others. -/
theorem readMembers_first {member : String × Json} (hkey : member.1.toList.length ≤ steps)
    (tail : List Char) (read : List (String × Json)) :
    readMembers lenient (steps + 1) levels true (some read) (renderMember member ++ tail)
      = readValue lenient steps levels (member.2.render ++ tail) >>= fun (value, rest) =>
          readMembers lenient steps levels false (some ((member.1, value) :: read)) rest := by
  rw [renderMember_append, readMembers, skipSpace_cons rfl]
  split <;> rename_i heq <;> cases heq
  simp only [if_true, pure_bind]
  rw [readString_toList member.1 hkey]
  simp only [bind, Except.bind, skipSpace_cons (rfl : isSpace ':' = false)]
  rfl

/-- Any other member of an object is read, behind a comma, and then those that are left. -/
theorem readMembers_next {member : String × Json} (hkey : member.1.toList.length ≤ steps)
    (tail : List Char) (read : List (String × Json)) :
    readMembers lenient (steps + 1) levels false (some read) (',' :: (renderMember member ++ tail))
      = readValue lenient steps levels (member.2.render ++ tail) >>= fun (value, rest) =>
          readMembers lenient steps levels false (some ((member.1, value) :: read)) rest := by
  rw [renderMember_append, readMembers, skipSpace_cons rfl]
  split <;> rename_i heq <;> cases heq
  rw [if_neg Bool.false_ne_true, if_pos rfl, skipSpace_cons rfl]
  simp only [pure_bind]
  rw [readString_toList member.1 hkey]
  simp only [bind, Except.bind, skipSpace_cons (rfl : isSpace ':' = false)]
  rfl

/-- The members behind the first one are read back. -/
theorem readMembers_rest {members : List (String × Json)}
    (hmembers : ∀ member ∈ members, member.2.ReadBack lenient levels)
    (hsteps : (members.flatMap fun member => ',' :: renderMember member).length < steps)
    (read : List (String × Json)) :
    readMembers lenient steps levels false (some read)
        (members.flatMap (fun member => ',' :: renderMember member) ++ '\x7d' :: rest)
      = .ok (some (read.reverse ++ members.map fun member => (member.1, member.2.cut levels)),
          rest) := by
  induction members generalizing steps read with
  | nil =>
      obtain ⟨steps, rfl⟩ : ∃ n, steps = n + 1 := ⟨steps - 1, by omega⟩
      rw [List.flatMap_nil, List.nil_append, readMembers, skipSpace_cons rfl]
      simp [pure, Except.pure]
  | cons member members ih =>
      obtain ⟨steps, rfl⟩ : ∃ n, steps = n + 1 := ⟨steps - 1, by omega⟩
      have hlength := length_renderMember member
      simp only [List.flatMap_cons, List.length_append, List.length_cons] at hsteps
      have hread := hmembers member List.mem_cons_self steps _ (by omega)
        (delimited_parts renderMember members (.inr rfl) rest)
      rw [List.flatMap_cons, List.append_assoc, List.cons_append,
        readMembers_next (by omega), hread]
      dsimp only [bind, Except.bind]
      rw [ih (fun member h => hmembers member (List.mem_cons_of_mem _ h)) (by omega)]
      simp

/-- **The members of an object are read back.** -/
theorem readMembers_render {members : List (String × Json)}
    (hmembers : ∀ member ∈ members, member.2.ReadBack lenient levels)
    (hsteps : (render.renderMembers members).length < steps) :
    readMembers lenient steps levels true (some [])
        (render.renderMembers members ++ '\x7d' :: rest)
      = .ok (some (members.map fun member => (member.1, member.2.cut levels)), rest) := by
  obtain ⟨steps, rfl⟩ : ∃ n, steps = n + 1 := ⟨steps - 1, by omega⟩
  cases members with
  | nil =>
      rw [render.renderMembers, List.nil_append, readMembers, skipSpace_cons rfl]
      rfl
  | cons member members =>
      have hlength := length_renderMember member
      rw [renderMembers_cons, List.length_append] at hsteps
      have hread := hmembers member List.mem_cons_self steps _ (by omega)
        (delimited_parts renderMember members (.inr rfl) rest)
      rw [renderMembers_cons, List.append_assoc, readMembers_first (by omega), hread]
      dsimp only [bind, Except.bind]
      rw [readMembers_rest (fun member h => hmembers member (List.mem_cons_of_mem _ h)) (by omega)]
      simp

/-! ### Whole documents -/

/-- Cutting an array. -/
theorem cut_array (levels : Nat) (items : List Json) :
    cut levels (.array items)
      = if levels = 0 then .unreadable else .array (items.map (cut (levels - 1))) := by
  cases levels with
  | zero => rfl
  | succ levels => simp [cut, cutItems_eq]

/-- Cutting an object. -/
theorem cut_object (levels : Nat) (members : List (String × Json)) :
    cut levels (.object members)
      = if levels = 0 then .unreadable
        else .object (members.map fun member => (member.1, member.2.cut (levels - 1))) := by
  cases levels with
  | zero => rfl
  | succ levels => simp [cut, cutMembers_eq]

/-- A string is read back. -/
theorem readBack_string (s : String) : (string s).ReadBack lenient levels := by
  refine .of_succ rfl fun steps rest hsteps _ => ?_
  have hlength := length_le_flatMap_quotedChar s.toList
  have hcut : cut levels (.string s) = .string s := rfl
  simp only [render, quoted, List.length_cons, List.length_append] at hsteps
  rw [hcut, render, quoted, List.cons_append, List.append_assoc, List.singleton_append,
    readValue, skipSpace_cons rfl]
  simp only [readString_toList s (by omega : s.toList.length ≤ steps), bind, Except.bind]
  rfl

/-- An array is read back if its entries are. -/
theorem readBack_array {items : List Json} (plain : ∀ item ∈ items, item.isPlain = true)
    (hlevels : lenient = true ∨ levels ≠ 0)
    (hitems : ∀ item ∈ items, item.ReadBack lenient (levels - 1)) :
    (array items).ReadBack lenient levels := by
  refine .of_succ (itemsArePlain_iff.mpr plain) fun steps rest hsteps _ => ?_
  simp only [render, List.length_cons, List.length_append] at hsteps
  have hread : readItems lenient steps (levels - 1) true []
      (render.renderItems items ++ ']' :: rest) = _ :=
    readItems_render plain hitems (by omega)
  have hallowed : ¬(levels = 0 ∧ lenient = false) := by
    rintro ⟨rfl, rfl⟩
    simp at hlevels
  rw [cut_array, render, List.cons_append, List.append_assoc, List.singleton_append, readValue,
    skipSpace_cons rfl]
  simp only [hallowed, if_false, hread, bind, Except.bind]
  rfl

/-- An object is read back if its members are. -/
theorem readBack_object {members : List (String × Json)}
    (plain : ∀ member ∈ members, member.2.isPlain = true)
    (hlevels : lenient = true ∨ levels ≠ 0)
    (hmembers : ∀ member ∈ members, member.2.ReadBack lenient (levels - 1)) :
    (object members).ReadBack lenient levels := by
  refine .of_succ (membersArePlain_iff.mpr plain) fun steps rest hsteps _ => ?_
  simp only [render, List.length_cons, List.length_append] at hsteps
  have hread : readMembers lenient steps (levels - 1) true (some [])
      (render.renderMembers members ++ '\x7d' :: rest) = _ :=
    readMembers_render hmembers (by omega)
  have hallowed : ¬(levels = 0 ∧ lenient = false) := by
    rintro ⟨rfl, rfl⟩
    simp at hlevels
  rw [cut_object, render, List.cons_append, List.append_assoc, List.singleton_append, readValue,
    skipSpace_cons rfl]
  simp only [hallowed, if_false, hread, bind, Except.bind]
  rfl

/-- **A document is read back from its text**, cut to the levels that are left, by a lenient reader
in any case and by a strict one if it is not too deep. -/
theorem readValue_render {document : Json} (plain : document.isPlain = true)
    (hdepth : lenient = true ∨ document.depth ≤ levels) : document.ReadBack lenient levels := by
  induction document using nested_induction generalizing levels with
  | null =>
      exact .of_succ plain fun _ _ _ _ => rfl
  | bool b =>
      refine .of_succ plain fun _ _ _ _ => ?_
      cases b <;> rfl
  | number n =>
      refine .of_succ plain fun _ _ _ hrest => ?_
      cases n with
      | float x => cases plain
      | int n =>
          simp only [isPlain, Bool.and_eq_true, decide_eq_true_eq] at plain
          exact readValue_int plain.1 plain.2 hrest
  | string s => exact readBack_string s
  | unreadable => cases plain
  | array items ih =>
      have hplain := itemsArePlain_iff.mp plain
      refine readBack_array hplain (hdepth.imp_right fun h => ?_) fun item hmem =>
        ih item hmem (hplain item hmem) (hdepth.imp_right fun h => ?_)
      · rw [depth] at h
        omega
      · have := depth_le_itemsDepth hmem
        rw [depth] at h
        omega
  | object members ih =>
      have hplain := membersArePlain_iff.mp plain
      refine readBack_object hplain (hdepth.imp_right fun h => ?_) fun member hmem =>
        ih member hmem (hplain member hmem) (hdepth.imp_right fun h => ?_)
      · rw [depth] at h
        omega
      · have := depth_le_membersDepth hmem
        rw [depth] at h
        omega

/-- **A whole text is read back** as the document that it was printed from, cut to the limit, by a
lenient reader in any case and by a strict one if it is not too deep. -/
theorem readDocument_text {document : Json} (plain : document.isPlain = true)
    (hdepth : lenient = true ∨ document.depth ≤ nestingLimit) :
    readDocument lenient document.text = .ok (document.cut nestingLimit) := by
  have hread := readValue_render plain hdepth (2 * document.render.length + 2) [] (by omega)
    delimited_nil
  rw [List.append_nil] at hread
  simp only [readDocument, text, String.toList_ofList, hread, bind, Except.bind]
  rfl

/-- A lenient reader takes the text of a document for that document, cut to the limit. -/
theorem readLenient_text {document : Json} (plain : document.isPlain = true) :
    readLenient document.text = some (document.cut nestingLimit) := by
  rw [readLenient, readDocument_text plain (.inl rfl)]
  rfl

end DurableWorkflow.Json
