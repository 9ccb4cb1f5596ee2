import DurableWorkflow.Payload.Converter
import DurableWorkflow.Proofs.DeepDocuments
import DurableWorkflow.Proofs.NormalForms

/-!
# Decoding undoes encoding

A payload is the text of a document. The document is read back from it as long as it is nested no
more deeply than readers allow; beyond that the payload is refused and nothing is read. Values of
payload types come back from their payloads: their documents are never deep, and each type reads the
documents that it writes, also in normal form, in which members may have changed places.

## Main results

* `PayloadType.ofJson_normalize_toJson` — a value is read back from its document in normal form.
* `Converter.json_ofPayload_text`, `Converter.json_ofPayload_deep` — what is read from the payload
  of a document.
* `Converter.json_decode_encode` — decoding undoes encoding.
-/

namespace DurableWorkflow

/-! ### Reading values -/

namespace Payload

/-- A natural number within bounds is read. -/
theorem readInteger_nat {n : Nat} {greatest : Int} (expected : String) (h : (n : Int) ≤ greatest) :
    readInteger expected 0 greatest (.nat n) = .ok n :=
  if_pos ⟨Int.natCast_nonneg n, h⟩

/-- A number of eight bits is read back. -/
theorem ofJson_u8 (n : UInt8) : PayloadType.u8.ofJson (.nat n.toNat) = .ok n := by
  have hfits : (n.toNat : Int) ≤ 255 := by
    have := n.toNat_lt_size
    simp only [UInt8.size] at this
    omega
  rw [PayloadType.ofJson, readInteger_nat "u8" hfits]
  exact congrArg Except.ok n.ofNat_toNat

/-- A number of sixty-four bits is read back. -/
theorem ofJson_u64 (n : UInt64) : PayloadType.u64.ofJson (.nat n.toNat) = .ok n := by
  have hfits : (n.toNat : Int) ≤ (UInt64.size : Int) - 1 := by
    have := n.toNat_lt_size
    omega
  rw [PayloadType.ofJson, readInteger_nat "u64" hfits]
  exact congrArg Except.ok n.ofNat_toNat

/-- A number of thirty-two bits is read back. -/
theorem readU32_toNat (n : UInt32) : readU32 (.nat n.toNat) = .ok n := by
  have hfits : (n.toNat : Int) ≤ (UInt32.size : Int) - 1 := by
    have := n.toNat_lt_size
    omega
  rw [readU32, readInteger_nat "u32" hfits]
  exact congrArg Except.ok n.ofNat_toNat

/-- A signed number of sixty-four bits is read back. -/
theorem readI64_toInt (n : Int64) : readI64 (.int n.toInt) = .ok n := by
  have hfits : Int64.minValue.toInt ≤ n.toInt ∧ n.toInt ≤ Int64.maxValue.toInt :=
    ⟨n.minValue_le_toInt, n.toInt_le⟩
  have hread : readInteger "i64" Int64.minValue.toInt Int64.maxValue.toInt (.int n.toInt)
      = .ok n.toInt := if_pos hfits
  rw [readI64, hread]
  exact congrArg Except.ok n.ofInt_toInt

/-- A list is read back if its entries are. -/
theorem readList_map {α : Type} {read : Json → Except Mismatch α} {toJson : α → Json}
    (h : ∀ a, read (toJson a) = .ok a) (values : List α) :
    readList read (.array (values.map toJson)) = .ok values := by
  rw [readList]
  induction values with
  | nil => rfl
  | cons value values ih =>
      rw [List.map_cons, List.mapM_cons, h, ih]
      rfl

/-- A value or null is read back if the value is and is not null. -/
theorem readOption_ofOption {α : Type} {read : Json → Except Mismatch α} {toJson : α → Json}
    (h : ∀ a, read (toJson a) = .ok a) (hnull : ∀ a, toJson a ≠ .null) (value : Option α) :
    readOption read (.ofOption toJson value) = .ok value := by
  cases value with
  | none => rfl
  | some a =>
      rw [Json.ofOption, readOption.eq_2 _ _ (hnull a), h]
      rfl

/-- A pair is read back. -/
theorem ofJson_pair (n : UInt32) (s : String) :
    PayloadType.pair.ofJson (.array [.nat n.toNat, .string s]) = .ok (n, s) := by
  have hread : PayloadType.pair.ofJson (.array [.nat n.toNat, .string s])
      = readU32 (.nat n.toNat) >>= fun n => pure (n, s) := rfl
  rw [hread, readU32_toNat]
  rfl

/-- A member is read back if its value is. -/
theorem readMember_of_lookup {α : Type} {read : Json → Except Mismatch α}
    {members : List (String × Json)} {key : String} {document : Json} {value : α}
    (hlookup : members.lookup key = some document) (hread : read document = .ok value) :
    readMember read (.object members) key = .ok (some value) := by
  have hget : (Json.object members).get? key = some document := hlookup
  rw [readMember, hget]
  dsimp only
  rw [hread]
  rfl

/-- A record with one counter is read back. -/
theorem readParams_toJson (p : Params) : readParams p.toJson = .ok p := by
  rw [Params.toJson, readParams, readMember_of_lookup rfl (readU32_toNat p.count)]
  rfl

/-- An order is read back. -/
theorem readOrder_toJson (order : Order) : readOrder order.toJson = .ok order := by
  have hid : readString (.string order.id) = .ok order.id := rfl
  have hlines := readList_map readParams_toJson order.lines
  have hnull (s : String) : Json.string s ≠ .null := nofun
  have hnote := readOption_ofOption (fun _ => (rfl : readString _ = _)) hnull order.note
  rw [Order.toJson, readOrder, readMember_of_lookup rfl hid, readMember_of_lookup rfl hlines,
    readMember_of_lookup rfl hnote]
  rfl

/-- A rectangle is read back, whatever the order of its sides. -/
theorem readRect_of_lookup {members : List (String × Json)} {w h : Int64}
    (hw : members.lookup "w" = some (.int w.toInt))
    (hh : members.lookup "h" = some (.int h.toInt)) :
    readRect (.object members) = .ok (.rect w h) := by
  rw [readRect, readMember_of_lookup hh (readI64_toInt h),
    readMember_of_lookup hw (readI64_toInt w)]
  rfl

/-- A shape is read back from its document in normal form, in which the sides of a rectangle have
changed places. -/
theorem readShape_normalize (shape : Shape) : readShape shape.toJson.normalize = .ok shape := by
  cases shape with
  | unit => rfl
  | circle radius =>
      have hread : readShape (.object [("Circle", .nat radius.toNat)])
          = readU32 (.nat radius.toNat) >>= fun radius => pure (.circle radius) := rfl
      exact hread.trans (by rw [readU32_toNat]; rfl)
  | rect w h =>
      have hnormal : (Shape.rect w h).toJson.normalize
          = .object [("Rect", .object [("h", .int h.toInt), ("w", .int w.toInt)])] := by
        have hless : "h" < "w" := by decide
        simp [Shape.toJson, Json.normalize, Json.normalize.normalizeMembers, Json.sortMembers,
          Json.insertMember, hless, Json.int]
      rw [hnormal]
      exact readRect_of_lookup rfl rfl

end Payload

/-! ### Documents of values -/

/-- A number of thirty-two bits is written without loss. -/
theorem isPlain_toNat (n : UInt32) : (Json.nat n.toNat).isPlain = true :=
  Json.isPlain_nat (Nat.lt_trans n.toNat_lt_size (by decide))

/-- A signed number of sixty-four bits is written without loss. -/
theorem isPlain_toInt (n : Int64) : (Json.int n.toInt).isPlain = true := by
  have hlow := n.le_toInt
  have hhigh := n.toInt_lt
  simp only [Json.int, Json.isPlain, Bool.and_eq_true, decide_eq_true_eq]
  omega

/-- A record with one counter is written without loss. -/
theorem Params.isPlain_toJson (p : Params) : p.toJson.isPlain = true :=
  Json.membersArePlain_iff.mpr (by simp [isPlain_toNat])

/-- An order is written without loss. -/
theorem Order.isPlain_toJson (order : Order) : order.toJson.isPlain = true := by
  have hlines : Json.isPlain.itemsArePlain (order.lines.map Params.toJson) = true :=
    Json.itemsArePlain_iff.mpr (List.forall_mem_map.mpr fun p _ => p.isPlain_toJson)
  have hnote : (Json.ofOption .string order.note).isPlain = true := by
    cases order.note <;> rfl
  exact Json.membersArePlain_iff.mpr (by simp [hlines, hnote, Json.isPlain])

/-- A shape is written without loss. -/
theorem Shape.isPlain_toJson (shape : Shape) : shape.toJson.isPlain = true := by
  cases shape with
  | unit => rfl
  | circle radius => exact Json.membersArePlain_iff.mpr (by simp [isPlain_toNat])
  | rect w h =>
      have hsides : (Json.object [("w", .int w.toInt), ("h", .int h.toInt)]).isPlain = true :=
        Json.membersArePlain_iff.mpr (by simp [isPlain_toInt])
      exact Json.membersArePlain_iff.mpr (by simp [hsides])

/-- The document of an order is in normal form. -/
theorem Order.isNormal_toJson (order : Order) : order.toJson.isNormal = true := by
  have hlines : Json.isNormal.itemsAreNormal (order.lines.map Params.toJson) = true :=
    Json.itemsAreNormal_iff.mpr (List.forall_mem_map.mpr fun _ _ => rfl)
  have hnote : (Json.ofOption .string order.note).isNormal = true := by
    cases order.note <;> rfl
  have hkeys : ["id", "lines", "note"].Pairwise (· < ·) := by decide
  rw [Order.toJson, Json.isNormal, Bool.and_eq_true, decide_eq_true_eq, Json.membersAreNormal_iff]
  exact ⟨List.pairwise_map.mp hkeys, by simp [hlines, hnote, Json.isNormal]⟩

/-- An order is a record of lists of records. -/
theorem Order.depth_toJson_le (order : Order) : order.toJson.depth ≤ 3 := by
  have hlines : Json.depth.itemsDepth (order.lines.map Params.toJson) ≤ 1 :=
    Json.itemsDepth_le_iff.mpr (List.forall_mem_map.mpr fun _ _ => Nat.le_refl 1)
  have hnote : (Json.ofOption .string order.note).depth = 0 := by
    cases order.note <;> rfl
  refine Nat.succ_le_succ (Json.membersDepth_le_iff.mpr ?_)
  simp [hnote, hlines, Json.depth]

namespace PayloadType

variable {t : PayloadType}

/-- A value that is neither any document nor a floating point number is written without loss. -/
theorem isPlain_toJson (hany : t ≠ .any) (hfloat : t ≠ .f64) (value : t.Value) :
    (t.toJson value).isPlain = true := by
  cases t with
  | any => exact absurd rfl hany
  | f64 => exact absurd rfl hfloat
  | unit | bool | string => rfl
  | u8 => exact Json.isPlain_nat (Nat.lt_trans (UInt8.toNat_lt_size value) (by decide))
  | u32 => exact isPlain_toNat value
  | u64 => exact Json.isPlain_nat (UInt64.toNat_lt_size value)
  | i64 => exact isPlain_toInt value
  | optionU32 =>
      cases value with
      | none => rfl
      | some n => exact isPlain_toNat n
  | listU32 => exact Json.itemsArePlain_iff.mpr (List.forall_mem_map.mpr fun n _ => isPlain_toNat n)
  | pair => exact Json.itemsArePlain_iff.mpr (by simp [isPlain_toNat, Json.isPlain])
  | params => exact value.isPlain_toJson
  | order => exact value.isPlain_toJson
  | shape => exact value.isPlain_toJson

/-- Such a value is not nested deeply. -/
theorem depth_toJson_le (hany : t ≠ .any) (hfloat : t ≠ .f64) (value : t.Value) :
    (t.toJson value).depth ≤ 3 := by
  cases t with
  | any => exact absurd rfl hany
  | f64 => exact absurd rfl hfloat
  | unit | bool | string | u8 | u32 | u64 | i64 => exact Nat.zero_le _
  | pair | params => exact Nat.le_add_left 1 2
  | optionU32 => cases value <;> exact Nat.zero_le _
  | listU32 =>
      have hitems : Json.depth.itemsDepth (value.map fun n => .nat n.toNat) ≤ 0 :=
        Json.itemsDepth_le_iff.mpr (List.forall_mem_map.mpr fun _ _ => Nat.le_refl 0)
      exact (Nat.succ_le_succ hitems).trans (by decide)
  | order => exact value.depth_toJson_le
  | shape =>
      cases value with
      | unit => exact Nat.zero_le 3
      | circle radius => exact Nat.le_add_left 1 2
      | rect w h => exact Nat.le_add_left 2 1

/-- **A value is read back from its document in normal form.** -/
theorem ofJson_normalize_toJson (hany : t ≠ .any) (hfloat : t ≠ .f64) (value : t.Value) :
    t.ofJson (t.toJson value).normalize = .ok value := by
  cases t with
  | any => exact absurd rfl hany
  | f64 => exact absurd rfl hfloat
  | unit | bool | string => rfl
  | u8 => exact Payload.ofJson_u8 value
  | u32 => exact Payload.readU32_toNat value
  | u64 => exact Payload.ofJson_u64 value
  | i64 => exact Payload.readI64_toInt value
  | optionU32 =>
      have hnormal : (optionU32.toJson value).normalize = optionU32.toJson value := by
        cases value <;> rfl
      rw [hnormal]
      exact Payload.readOption_ofOption Payload.readU32_toNat (fun _ => nofun) value
  | listU32 =>
      have hnormal : (listU32.toJson value).isNormal = true :=
        Json.itemsAreNormal_iff.mpr (List.forall_mem_map.mpr fun _ _ => rfl)
      rw [Json.normalize_eq_self hnormal]
      exact Payload.readList_map Payload.readU32_toNat value
  | pair => exact Payload.ofJson_pair value.1 value.2
  | params => exact Payload.readParams_toJson value
  | order =>
      have hnormal : (order.toJson value).isNormal = true := Order.isNormal_toJson value
      rw [Json.normalize_eq_self hnormal]
      exact Payload.readOrder_toJson value
  | shape => exact Payload.readShape_normalize value

end PayloadType

/-! ### Payloads -/

namespace Converter

/-- The text of a document that is written without loss is not empty. -/
theorem text_ne_empty {document : Json} (plain : document.isPlain = true) : document.text ≠ "" := by
  obtain ⟨c, cs, hrender, -, -⟩ := Json.render_eq_cons plain
  rw [Json.text, hrender]
  simp

/-- A payload that is not empty is read as a text. -/
theorem json_ofPayload {payload : String} (h : payload ≠ "") :
    json.ofPayload payload = (Json.read payload).mapError .decode :=
  if_neg (by simpa using h)

/-- A document that is not too deep is read back from its payload, in normal form. -/
theorem json_ofPayload_text {document : Json} (plain : document.isPlain = true)
    (hdepth : document.depth ≤ Json.nestingLimit) :
    json.ofPayload document.text = .ok document.normalize := by
  rw [json_ofPayload (text_ne_empty plain), Json.read, Json.readDocument_text plain (.inr hdepth),
    Json.cut_eq_self hdepth]
  rfl

/-- **Nothing is read from the payload of a document that is too deep.** -/
theorem json_ofPayload_deep {document : Json} (plain : document.isPlain = true)
    (hdepth : Json.nestingLimit < document.depth) :
    ∃ stop : Json.Stop, stop.fault = .recursionLimit
      ∧ json.ofPayload document.text = .error (.decode (stop.describe document.text)) := by
  obtain ⟨stop, hread, hfault⟩ := Json.readDocument_deep plain hdepth
  refine ⟨stop, hfault, ?_⟩
  rw [json_ofPayload (text_ne_empty plain), Json.read, hread]
  rfl

/-- **Decoding undoes encoding.** Every document in normal form whose numbers are integers of a
machine word has a payload, which is not empty. If arrays and objects are nested at most 127 levels
deep in it, exactly that document is read back from the payload; if they are nested more deeply, the
payload is refused for that reason, so that no other document is ever read. All values of payload
types other than documents and floating point numbers come back from their payloads. -/
theorem json_decode_encode :
    (∀ document : Json, document.isPlain = true → document.isNormal = true →
      ∃ payload, json.toPayload document = .ok payload ∧ payload ≠ ""
        ∧ (document.depth ≤ 127 → json.ofPayload payload = .ok document)
        ∧ (127 < document.depth → ∃ stop : Json.Stop, stop.fault = .recursionLimit
          ∧ json.ofPayload payload = .error (.decode (stop.describe payload))))
      ∧ ∀ t : PayloadType, t ≠ .any → t ≠ .f64 → ∀ value : t.Value,
        ∃ payload, json.encodeAs t value = .ok payload ∧ json.decodeAs t payload = .ok value := by
  refine ⟨fun document plain normal => ?_, fun t hany hfloat value => ?_⟩
  · refine ⟨document.text, rfl, text_ne_empty plain, fun hdepth => ?_, json_ofPayload_deep plain⟩
    rw [json_ofPayload_text plain hdepth, Json.normalize_eq_self normal]
  · refine ⟨(t.toJson value).normalize.text, rfl, ?_⟩
    have plain := Json.isPlain_normalize (t.isPlain_toJson hany hfloat value)
    have hdepth : (t.toJson value).normalize.depth ≤ Json.nestingLimit :=
      (Json.depth_normalize_le _).trans ((t.depth_toJson_le hany hfloat value).trans (by decide))
    rw [decodeAs, json_ofPayload_text plain hdepth,
      Json.normalize_eq_self (Json.isNormal_normalize _)]
    dsimp only [bind, Except.bind]
    rw [t.ofJson_normalize_toJson hany hfloat value]
    rfl

/-- A document in so many arrays, one inside the other. -/
def boxed : Nat → Json
  | 0 => .object [("", .int (-9223372036854775808)), ("\"é\n", .int 18446744073709551615)]
  | arrays + 1 => .array [boxed arrays]

/-- An object is read back from within 126 arrays, with the least and the greatest integer and keys
that need escapes; from within one array more it is not. A rectangle comes back although its sides
change places. -/
theorem boxed_read_back :
    (boxed 126).isPlain = true ∧ (boxed 126).isNormal = true
      ∧ json.ofPayload (boxed 126).text = .ok (boxed 126)
      ∧ (∃ message, json.ofPayload (boxed 127).text = .error (.decode message))
      ∧ json.encodeAs .shape (.rect (-1) 2) = .ok "\x7b\"Rect\":\x7b\"h\":2,\"w\":-1\x7d\x7d"
      ∧ json.decodeAs .shape "\x7b\"Rect\":\x7b\"h\":2,\"w\":-1\x7d\x7d" = .ok (.rect (-1) 2) := by
  have plain : (boxed 126).isPlain = true := by decide +kernel
  have normal : (boxed 126).isNormal = true := by decide +kernel
  have htext : (PayloadType.toJson .shape (.rect (-1) 2)).normalize.text
      = "\x7b\"Rect\":\x7b\"h\":2,\"w\":-1\x7d\x7d" := by decide +kernel
  have hencode : json.encodeAs .shape (.rect (-1) 2)
      = .ok "\x7b\"Rect\":\x7b\"h\":2,\"w\":-1\x7d\x7d" := congrArg Except.ok htext
  refine ⟨plain, normal, ?_, ?_, hencode, ?_⟩
  · obtain ⟨_, hpayload, -, hread, -⟩ := json_decode_encode.1 (boxed 126) plain normal
    obtain rfl : (boxed 126).text = _ := Except.ok.inj hpayload
    exact hread (by decide +kernel)
  · obtain ⟨_, hpayload, -, -, hrefused⟩ :=
      json_decode_encode.1 (boxed 127) (by decide +kernel) (by decide +kernel)
    obtain rfl : (boxed 127).text = _ := Except.ok.inj hpayload
    obtain ⟨stop, -, hread⟩ := hrefused (by decide +kernel)
    exact ⟨_, hread⟩
  · obtain ⟨payload, hpayload, hread⟩ :=
      json_decode_encode.2 .shape (by decide) (by decide) (.rect (-1) 2)
    obtain rfl := Except.ok.inj (hencode.symm.trans hpayload)
    exact hread

end Converter

end DurableWorkflow
