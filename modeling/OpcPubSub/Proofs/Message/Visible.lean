/-
What the masks of a message let a reader see of it.

`visible` is the message with everything that its masks switch off set back to where a reader starts from: attributes
of the envelope and of dataset headers, attributes of values, and the null values that are left out where values are
bare. The document shows what is visible and nothing else (`document_visible`), so it is the document of every message
that looks the same.

`received` differs from it in one case: an empty object at the root stands for no dataset message, and the only dataset
message is one if it has no header and nothing to show.
-/
import OpcPubSub.Proofs.Encoding.Document

namespace OpcPubSub

/-- values carry their type -/
def FieldEncoding.typed : FieldEncoding → Bool
  | variant => true
  | rawData => false
  | dataValue reversible => reversible

theorem FieldEncoding.ofMask_eq_rawData {mask : FieldMask} (h : mask.contains FieldMask.rawData = true) :
    ofMask mask = rawData := by
  have hset : mask.isEmpty = false := by
    cases he : mask.isEmpty with
    | false => rfl
    | true =>
      have hzero : mask = .empty := by
        rw [Mask.isEmpty, beq_iff_eq] at he
        cases mask
        exact congrArg Mask.mk he
      rw [hzero] at h
      exact absurd h (by decide)
  simp [ofMask, hset, h]

theorem Variant.isNull_iff {v : Variant} : v.isNull = true ↔ v = .null := by
  cases v <;> simp [isNull]

/-- **A field is left out** if it is null where values are bare, and only then -/
theorem DataValue.field?_eq_none_iff {mask : FieldMask} {v : DataValue} :
    v.field? mask = none ↔ mask.contains FieldMask.rawData = true ∧ v.value = .null := by
  rw [← Variant.isNull_iff]
  by_cases hraw : mask.contains FieldMask.rawData = true
  · simp [field?_eq, FieldEncoding.ofMask_eq_rawData hraw, hraw]
  · unfold field?
    split_ifs <;> simp [hraw]

/-- what is seen of a value: the value and the attributes that the mask asks for. Null is not seen where values are
bare. -/
def DataValue.visible? (mask : FieldMask) (v : DataValue) : Option DataValue :=
  if mask.contains FieldMask.rawData && v.value.isNull then none
  else
    some
      { value := v.value
        status := v.status.filter fun _ => mask.asks FieldMask.statusCode
        sourceTimestamp := v.sourceTimestamp.filter fun _ => mask.asks FieldMask.sourceTimestamp
        sourcePicoseconds := v.sourcePicoseconds.filter fun _ => mask.asks FieldMask.sourcePicoSeconds
        serverTimestamp := v.serverTimestamp.filter fun _ => mask.asks FieldMask.serverTimestamp
        serverPicoseconds := v.serverPicoseconds.filter fun _ => mask.asks FieldMask.serverPicoSeconds }

/-- what is seen of a value by the way it is shown -/
theorem DataValue.visible?_eq (mask : FieldMask) (v : DataValue) :
    v.visible? mask = match FieldEncoding.ofMask mask with
      | .variant => some (plain v.value)
      | .rawData => if v.value.isNull then none else some (plain v.value)
      | .dataValue _ => some (v.filter mask) := by
  cases hraw : mask.contains FieldMask.rawData with
  | true => simp [visible?, FieldMask.asks_eq, FieldEncoding.ofMask_eq_rawData hraw, hraw, plain]
  | false =>
    unfold visible? FieldMask.asks FieldEncoding.ofMask
    cases mask.isEmpty <;> simp [hraw, plain, filter]

namespace Payload

def visibleFields (mask : FieldMask) (p : Payload) : List (String × DataValue) :=
  p.fields.filterMap fun f => (f.2.visible? mask).map (f.1, ·)

theorem names_visibleFields (mask : FieldMask) (fields : List (String × DataValue)) :
    ((fields.filterMap fun f => (f.2.visible? mask).map (f.1, ·)).map Prod.fst).Sublist (fields.map Prod.fst) := by
  induction fields with
  | nil => exact List.Sublist.slnil
  | cons f fields ih =>
    rw [List.filterMap_cons]
    cases f.2.visible? mask with
    | none => exact ih.cons f.1
    | some u => exact ih.cons_cons f.1

def visible (mask : FieldMask) (p : Payload) : Payload where
  fields := p.visibleFields mask
  unique := p.unique.sublist (names_visibleFields mask p.fields)

end Payload

namespace DataSetMessage

/-- a header attribute, or what stands for it where it is switched off -/
def shown {α : Type} (withHeader : Bool) (m : DataSetMessage) (flag : DataSetMask) (value default : α) : α :=
  if withHeader && m.mask.contains flag then value else default

def visible (withHeader : Bool) (m : DataSetMessage) : DataSetMessage where
  writerId := if withHeader then m.writerId else 0
  writerName := m.shown withHeader DataSetMask.dataSetWriterName m.writerName none
  sequenceNumber := m.shown withHeader DataSetMask.sequenceNumber m.sequenceNumber 0
  version := m.shown withHeader DataSetMask.metaDataVersion m.version {}
  timestamp := m.shown withHeader DataSetMask.timestamp m.timestamp .min
  status := m.shown withHeader DataSetMask.status m.status .good
  kind := m.shown withHeader DataSetMask.messageType m.kind .key
  payload := m.payload.visible m.fieldMask
  mask := m.mask
  fieldMask := m.fieldMask

end DataSetMessage

namespace NetworkMessage

/-- an attribute of the envelope, if there is an envelope and its flag is set -/
def shown {α : Type} (m : NetworkMessage) (flag : NetworkMask) (value : Option α) : Option α :=
  value.filter fun _ => m.mask.contains NetworkMask.networkMessageHeader && m.mask.contains flag

def visible (m : NetworkMessage) : NetworkMessage where
  messageId := if m.mask.contains NetworkMask.networkMessageHeader then m.messageId else ""
  publisherId := m.shown NetworkMask.publisherId m.publisherId
  dataSetClassId := m.shown NetworkMask.dataSetClassId m.dataSetClassId
  replyTo := m.shown NetworkMask.replyTo m.replyTo
  messages := m.messages.map (DataSetMessage.visible (m.mask.contains NetworkMask.dataSetMessageHeader))
  mask := m.mask

/-- the root is the only dataset message, without its header, and there is nothing of it to show -/
def vanishes (m : NetworkMessage) : Bool :=
  !m.mask.contains NetworkMask.networkMessageHeader && m.mask.contains NetworkMask.singleDataSetMessage &&
    !m.mask.contains NetworkMask.dataSetMessageHeader &&
    m.messages.all fun d => (d.payload.visible d.fieldMask).fields.isEmpty

/-- what a reader makes of the message -/
def received (m : NetworkMessage) : NetworkMessage :=
  if m.vanishes then { m.visible with messages := [] } else m.visible

end NetworkMessage

/-! ## The document shows what is visible -/

theorem DataValue.visible?_isSome (mask : FieldMask) (v : DataValue) :
    (v.visible? mask).isSome = (v.field? mask).isSome := by
  rw [visible?_eq, field?_eq]
  cases FieldEncoding.ofMask mask with
  | variant => rfl
  | rawData => cases v.value.isNull <;> rfl
  | dataValue reversible => rfl

theorem DataValue.value_of_visible? {mask : FieldMask} {v u : DataValue} (h : v.visible? mask = some u) :
    u.value = v.value := by
  unfold visible? at h
  split_ifs at h
  cases h
  rfl

theorem DataValue.filter_filter (mask : FieldMask) (v : DataValue) : (v.filter mask).filter mask = v.filter mask := by
  simp [DataValue.filter, Option.filter_filter]

theorem DataValue.field?_visible {mask : FieldMask} {v u : DataValue} (h : v.visible? mask = some u) :
    u.field? mask = v.field? mask := by
  rw [visible?_eq] at h
  rw [field?_eq, field?_eq]
  cases hm : FieldEncoding.ofMask mask with
  | variant =>
    rw [hm] at h
    cases h; rfl
  | rawData =>
    rw [hm] at h
    cases hn : v.value.isNull with
    | true => simp [hn] at h
    | false =>
      simp only [hn, Bool.false_eq_true, if_false, Option.some.injEq] at h
      subst h
      simp [DataValue.plain, hn]
  | dataValue reversible =>
    rw [hm] at h
    simp only [Option.some.injEq] at h
    subst h
    simp [DataValue.filter_filter]

theorem Payload.members_visible (mask : FieldMask) (p : Payload) : (p.visible mask).members mask = p.members mask := by
  unfold members visible visibleFields
  simp only
  induction p.fields with
  | nil => rfl
  | cons f fields ih =>
    rw [List.filterMap_cons, List.map_cons, Json.present_cons]
    cases hv : f.2.visible? mask with
    | none =>
      have hnone : f.2.field? mask = none := by
        have := DataValue.visible?_isSome mask f.2
        rw [hv] at this
        exact Option.isSome_eq_false_iff.1 this.symm |> Option.isNone_iff_eq_none.1
      rw [hnone]
      exact ih
    | some u =>
      simp only [Option.map_some, List.map_cons]
      rw [Json.present_cons, DataValue.field?_visible hv]
      exact congrArg _ ih

/-- what a header field says of the message is visible -/
theorem HeaderField.value_visible (form : Bool) {m : DataSetMessage} (q : Payload) {f : HeaderField}
    (h : f.slot m.mask = .value) : f.value form { m.visible true with payload := q } = f.value form m := by
  cases f with
  | writerId => rfl
  | _ =>
    simp only [slot, ite_eq_left_iff, reduceCtorEq, imp_false, not_not] at h
    simp [value, DataSetMessage.visible, DataSetMessage.shown, h]

theorem HeaderField.json?_visible (form : Bool) (m : DataSetMessage) (q : Payload) (f : HeaderField) :
    f.json? form { m.visible true with payload := q } = f.json? form m := by
  have hslot : f.slot ({ m.visible true with payload := q } : DataSetMessage).mask = f.slot m.mask := rfl
  rw [json?_eq, json?_eq, hslot]
  cases h : f.slot m.mask with
  | value => simp only [value_visible form q h]
  | default => rfl
  | omitted => rfl

/-- two dataset messages that agree in what is visible but the payload have the same document iff the payloads do -/
theorem DataSetMessage.json_eq_iff (form withHeader : Bool) (m : DataSetMessage) (q : Payload) :
    ({ m.visible withHeader with payload := q } : DataSetMessage).json form withHeader = m.json form withHeader ↔
      q.members m.fieldMask = m.payload.members m.fieldMask := by
  cases withHeader with
  | false => simp [json, visible]
  | true =>
    have hheader : (HeaderField.order.map fun f => (f.name, f.json? form { m.visible true with payload := q })) =
        HeaderField.order.map fun f => (f.name, f.json? form m) :=
      List.map_congr_left fun f _ => by rw [HeaderField.json?_visible]
    simp only [json, if_true, rows_eq, Json.present_append, hheader, Json.object.injEq, List.append_cancel_left_eq]
    simp [Json.present, visible]

theorem DataSetMessage.json_visible (form withHeader : Bool) (m : DataSetMessage) :
    (m.visible withHeader).json form withHeader = m.json form withHeader :=
  (json_eq_iff form withHeader m (m.payload.visible m.fieldMask)).2 (m.payload.members_visible m.fieldMask)

namespace NetworkMessage

theorem messages_of_valid {m : NetworkMessage} (h : m.validate = .ok ())
    (hs : m.mask.contains NetworkMask.singleDataSetMessage = true) : m.messages = [] ∨ ∃ d, m.messages = [d] := by
  unfold validate at h
  split_ifs at h with hmany
  match hm : m.messages with
  | [] => exact Or.inl rfl
  | [d] => exact Or.inr ⟨d, rfl⟩
  | d :: e :: rest => simp [hs, hm] at hmany

/-- two messages that agree in what is visible but the dataset messages have the same document iff those do -/
theorem document_eq_iff (form : Bool) {m : NetworkMessage} (h : m.validate = .ok ()) {ds : List DataSetMessage}
    (hlen : ds.length = m.messages.length) :
    ({ m.visible with messages := ds } : NetworkMessage).document form = m.document form ↔
      ds.map (DataSetMessage.json form (m.mask.contains NetworkMask.dataSetMessageHeader)) =
        m.messages.map (DataSetMessage.json form (m.mask.contains NetworkMask.dataSetMessageHeader)) := by
  cases hs : m.mask.contains NetworkMask.singleDataSetMessage with
  | true =>
    rcases messages_of_valid h hs with hm | ⟨d, hm⟩
    · rw [hm, List.length_nil, List.length_eq_zero_iff] at hlen
      subst hlen
      cases hn : m.mask.contains NetworkMask.networkMessageHeader <;>
        simp [document, rows, inner?, visible, shown, hs, hn, hm, Option.filter_filter]
    · rw [hm, List.length_singleton, List.length_eq_one_iff] at hlen
      obtain ⟨e, rfl⟩ := hlen
      cases hn : m.mask.contains NetworkMask.networkMessageHeader <;>
        simp [document, rows, inner?, visible, shown, hs, hn, hm, Option.filter_filter, Json.present]
  | false =>
    cases hn : m.mask.contains NetworkMask.networkMessageHeader with
    | false => simp [document, visible, hs, hn]
    | true =>
      cases hm : m.messages with
      | nil =>
        rw [hm, List.length_nil, List.length_eq_zero_iff] at hlen
        simp [document, rows, inner?, visible, shown, hs, hn, hm, hlen, Option.filter_filter]
      | cons d rest =>
        cases ds with
        | nil => simp [hm] at hlen
        | cons e rest' => simp [document, rows, inner?, visible, shown, hs, hn, hm, Option.filter_filter, Json.present]

/-- **The document shows what is visible**, so messages that look the same have the same document -/
theorem document_visible (form : Bool) {m : NetworkMessage} (h : m.validate = .ok ()) :
    m.visible.document form = m.document form := by
  have hmessages : m.visible.messages =
      m.messages.map (DataSetMessage.visible (m.mask.contains NetworkMask.dataSetMessageHeader)) := rfl
  have hlen : m.visible.messages.length = m.messages.length := by simp [hmessages]
  refine (document_eq_iff form h hlen).2 ?_
  rw [hmessages, List.map_map]
  exact List.map_congr_left fun d _ => d.json_visible form _

end NetworkMessage

end OpcPubSub
