/-
The encoder writes the documents of `Proofs.Encoding.Document`.

Each action of the encoder is shown to be `Write.json` of its document (`Writes`), from the leaves up. Main result:
- `encode_eq_document`: a message that single message mode cannot carry is refused with the number of its dataset
  messages; of every other message, whatever its masks and values, the text is the compact text of its document.
-/
import OpcPubSub.Encoding.Messages
import OpcPubSub.Proofs.Encoding.Document
import OpcPubSub.Proofs.Json.Writing

namespace OpcPubSub

namespace Write

variable {reversible : Bool}

theorem writes_optString (name : Option String) (s : Option String) :
    Writes reversible (optString name s) name (Json.orNull s) := by
  cases s <;> exact Writes.leaf name _

theorem writes_word (name : Option String) (n : Nat) : Writes reversible (word name n) name (.int n) :=
  Writes.leaf name _

theorem writes_dateTime (name : Option String) (t : DateTime) :
    Writes reversible (dateTime name t) name (.string t.text) :=
  Writes.leaf name _

theorem writes_statusAs (name : Option String) (c : StatusCode) (form : Bool) :
    Writes reversible (statusAs name c form) name (c.json form) := by
  unfold statusAs StatusCode.json
  cases form with
  | true => exact writes_word name _
  | false =>
    refine WritesMembers.object ?_ name
    exact (writes_word _ _).member.cons (WritesMembers.optional fun s => Writes.leaf _ _)

theorem writes_status (name : Option String) (c : StatusCode) :
    Writes reversible (status name c) name (c.json reversible) := by
  intro w hw
  rw [status, hw, writes_statusAs name c reversible w hw]

theorem writes_scalar (name : Option String) (s : Scalar) (form : Bool) :
    Writes reversible (scalar name s form) name (s.json form) := by
  cases s with
  | statusCode c => exact writes_statusAs name c form
  | int k n => cases k <;> exact Writes.leaf name _
  | float x =>
    simp only [scalar, Scalar.atom, Scalar.json]
    cases Number.nonFinite? .binary32 x.toBits.toNat <;> exact Writes.leaf name _
  | double x =>
    simp only [scalar, Scalar.atom, Scalar.json]
    cases Number.nonFinite? .binary64 x.toBits.toNat <;> exact Writes.leaf name _
  | boolean b => exact Writes.leaf name _
  | string s => exact Writes.leaf name _
  | dateTime t => exact Writes.leaf name _
  | guid g => exact Writes.leaf name _
  | byteString bytes => exact Writes.leaf name _

theorem bodies_eq_each (items : List Variant) (form : Bool) :
    bodies items form = each (fun v => body none v form) items := by
  induction items with
  | nil => rfl
  | cons v rest ih => rw [bodies, each, ih]

theorem writes_body (name : Option String) (v : Variant) (form : Bool) :
    Writes reversible (body name v form) name (v.body form) := by
  induction v generalizing name with
  | null => exact Writes.leaf name _
  | scalar s => exact writes_scalar name s form
  | array elem items ih =>
    rw [body, Variant.body, bodies_eq_each, Variant.bodies_eq_map]
    exact (WritesItems.each fun v hv => ih v hv none).array name

theorem writes_variant (name : Option String) (v : Variant) (form : Bool) :
    Writes reversible (variant name v form) name (v.json form) := by
  unfold variant Variant.json
  cases v.type? with
  | none => exact Writes.leaf name _
  | some type =>
    cases form with
    | true => exact ((writes_word _ _).member.append (writes_body _ v true).member).object name
    | false => exact writes_body name v false

theorem writes_dataValue (name : Option String) (v : DataValue) (form : Bool) :
    Writes reversible (dataValue name v form) name (v.json form) := by
  refine WritesMembers.object ?_ name
  refine (writes_variant _ v.value form).member.cons ?_
  refine (WritesMembers.optional fun c => writes_statusAs _ c form).cons ?_
  refine (WritesMembers.optional fun t => writes_dateTime _ t).cons ?_
  refine (WritesMembers.optional fun n => writes_word _ _).cons ?_
  refine (WritesMembers.optional fun t => writes_dateTime _ t).cons ?_
  exact WritesMembers.optional fun n => writes_word _ _

theorem writes_version (name : Option String) (v : ConfigurationVersion) :
    Writes reversible (version name v) name v.json :=
  ((writes_word _ _).member.append (writes_word _ _).member).object name

theorem writes_versions (name : Option String) (vs : List ConfigurationVersion) :
    Writes reversible (versions name vs) name (.array (vs.map ConfigurationVersion.json)) :=
  (WritesItems.each fun v _ => writes_version none v).array name

theorem writes_field (name : String) (v : DataValue) (mask : FieldMask) :
    WritesMembers reversible (field name v mask) (Json.present [(name, v.field? mask)]) := by
  rw [DataValue.field?_eq]
  unfold field
  cases FieldEncoding.ofMask mask with
  | variant => exact (writes_variant _ v.value true).member
  | rawData =>
    cases v.value.isNull with
    | true => exact WritesMembers.nil
    | false => exact (writes_variant _ v.value false).member
  | dataValue form => exact (writes_dataValue _ (v.filter mask) form).member

theorem writes_payload (p : Payload) (mask : FieldMask) :
    WritesMembers reversible (payload p mask) (p.members mask) := by
  unfold payload Payload.members Json.present
  rw [List.flatMap_map]
  apply WritesMembers.each
  intro f _
  simpa [Json.present] using writes_field f.1 f.2 mask

/-- only these four fields have a substitute -/
theorem slot_eq_default {f : HeaderField} {mask : DataSetMask} (h : f.slot mask = .default) :
    f = .sequenceNumber ∨ f = .metaDataVersion ∨ f = .timestamp ∨ f = .status := by
  cases f <;> simp [HeaderField.slot] at h ⊢
  all_goals split_ifs at h

theorem writes_headerField (m : DataSetMessage) (f : HeaderField) :
    WritesMembers reversible (headerField m f) (Json.present [(f.name, f.json? reversible m)]) := by
  rw [HeaderField.json?_eq]
  unfold headerField
  cases h : f.slot m.mask with
  | value =>
    cases f with
    | writerId => exact (Writes.leaf _ _).member
    | writerName => exact (writes_optString _ _).member
    | sequenceNumber => exact (writes_word _ _).member
    | metaDataVersion => exact (writes_version _ _).member
    | timestamp => exact (writes_dateTime _ _).member
    | status => exact (writes_status _ _).member
    | messageType => exact (Writes.leaf _ _).member
  | default =>
    rcases slot_eq_default h with rfl | rfl | rfl | rfl
    · exact (writes_word _ _).member
    · exact (Writes.leaf _ _).member
    · exact (writes_dateTime _ _).member
    · exact (writes_status _ _).member
  | omitted => exact WritesMembers.nil

theorem writes_dataSetWithHeader (name : Option String) (m : DataSetMessage) :
    Writes reversible (dataSetWithHeader name m) name (m.json reversible true) := by
  refine WritesMembers.object ?_ name
  rw [if_pos rfl, DataSetMessage.rows_eq, Json.present_append]
  refine WritesMembers.append ?_ ((writes_payload m.payload m.fieldMask).object _).member
  unfold Json.present
  rw [List.flatMap_map]
  apply WritesMembers.each
  intro f _
  simpa [Json.present] using writes_headerField m f

theorem writes_dataSet (name : Option String) (header : Bool) (m : DataSetMessage) :
    Writes reversible (dataSet name header m) name (m.json reversible header) := by
  cases header with
  | true => exact writes_dataSetWithHeader name m
  | false => exact (writes_payload m.payload m.fieldMask).object name

/-- the members of an envelope, the list of dataset messages being as single message mode allows -/
theorem writes_envelope (m : NetworkMessage) :
    Writes reversible (envelope m (Layout.ofMask m.mask)) none (.object (Json.present (m.rows reversible))) := by
  refine WritesMembers.object ?_ none
  refine (Writes.leaf _ _).member.cons ?_
  refine (Writes.leaf _ _).member.cons ?_
  refine (writes_optString _ _).member.cons ?_
  refine (writes_optString _ _).member.cons ?_
  refine (writes_optString _ _).member.cons ?_
  unfold NetworkMessage.inner?
  cases hm : m.messages with
  | nil => exact WritesMembers.nil
  | cons first rest =>
    simp only [List.isEmpty_cons, Bool.false_eq_true, if_false, messages, Layout.ofMask]
    by_cases hs : m.mask.contains NetworkMask.singleDataSetMessage = true
    · simp only [hs, if_true]
      exact (writes_dataSet _ _ first).member
    · simp only [hs, Bool.false_eq_true, if_false]
      exact ((WritesItems.each fun d _ => writes_dataSet none _ d).array _).member

/-- a message is written as one value, its document, unless it is refused before anything is written -/
theorem writes_network (m : NetworkMessage) (h : m.validate = .ok ()) :
    Writes reversible (network m) none (m.document reversible) := by
  intro w hw
  simp only [network, h, NetworkMessage.document, Layout.ofMask]
  cases hh : m.mask.contains NetworkMask.networkMessageHeader with
  | true => exact writes_envelope m w hw
  | false =>
    cases hs : m.mask.contains NetworkMask.singleDataSetMessage with
    | true =>
      simp only [Bool.false_eq_true, if_false, if_true]
      cases m.messages with
      | nil => exact WritesMembers.nil.object none w hw
      | cons first rest => exact writes_dataSet none _ first w hw
    | false =>
      simp only [Bool.false_eq_true, if_false, messages]
      exact (WritesItems.each fun d _ => writes_dataSet none _ d).array none w hw

end Write

theorem NetworkMessage.encode_of_validate (m : NetworkMessage) (h : m.validate = .ok ()) :
    m.encode = .ok (m.document true).render := by
  have hw : Write.Writes true (Write.network m) none (m.document true) := Write.writes_network m h
  obtain ⟨w, hrun, hf⟩ := hw.finish
  have hfresh : Write.network m {} = .ok () w := hrun
  rw [NetworkMessage.encode, Write.document, hfresh]
  exact hf

/-- **The encoder writes the document of the message.** Single message mode with more than one dataset message is
refused with their number. Every other message has a text, the compact text of its document, whatever its masks and
values are: values that no array should hold are written as they are. -/
theorem NetworkMessage.encode_eq_document (m : NetworkMessage) :
    m.encode =
      if m.mask.contains NetworkMask.singleDataSetMessage ∧ 1 < m.messages.length then
        .error (.singleMessageCount m.messages.length)
      else .ok (m.document true).render := by
  split_ifs with h
  · simp [NetworkMessage.encode, Write.document, Write.network, NetworkMessage.validate, h]
  · exact m.encode_of_validate (by rw [NetworkMessage.validate, if_neg h])

end OpcPubSub
