/-
What the masks of a message switch off leaves no trace in its text.

`Agree` relates messages with the same masks that agree on what those masks switch on, and may differ in everything
else:
- in the envelope, where there is none, and in its publisher id, class id and reply address without their flags;
- in the header of a dataset message, where there is none, and in each attribute without its flag, the writer id
  excepted, which has none;
- in the attributes of values, without their flags and wherever values are shown without attributes;
- in null values, their names and their number, where values are bare.

Messages that agree look the same (`Agree.visible_eq`), layer by layer, so a writer does the same with both
(`Agree.write_eq`). Main result:
- `encode_eq_of_agree`: messages that agree have the same text, or are refused alike.
-/
import OpcPubSub.Proofs.Encoding.WritesDocument
import OpcPubSub.Proofs.Message.Visible

namespace OpcPubSub

/-! ## The relation -/

/-- the same value, with the same attributes as far as the mask asks for them -/
structure DataValue.Agree (mask : FieldMask) (v w : DataValue) : Prop where
  value : v.value = w.value
  status : mask.asks FieldMask.statusCode = true → v.status = w.status
  sourceTimestamp : mask.asks FieldMask.sourceTimestamp = true → v.sourceTimestamp = w.sourceTimestamp
  sourcePicoseconds : mask.asks FieldMask.sourcePicoSeconds = true → v.sourcePicoseconds = w.sourcePicoseconds
  serverTimestamp : mask.asks FieldMask.serverTimestamp = true → v.serverTimestamp = w.serverTimestamp
  serverPicoseconds : mask.asks FieldMask.serverPicoSeconds = true → v.serverPicoseconds = w.serverPicoseconds

/-- null where values are bare -/
def DataValue.leftOut (mask : FieldMask) (v : DataValue) : Bool := mask.contains FieldMask.rawData && v.value.isNull

namespace Payload

/-- the fields that are not left out -/
def written (mask : FieldMask) (p : Payload) : List (String × DataValue) :=
  p.fields.filter fun f => !f.2.leftOut mask

/-- the same names in the same order, with values that agree, as far as fields are not left out -/
def Agree (mask : FieldMask) (p q : Payload) : Prop :=
  List.Forall₂ (fun f g => f.1 = g.1 ∧ f.2.Agree mask g.2) (p.written mask) (q.written mask)

end Payload

/-- the same masks, and agreement on the payload and on the header as far as there is one and its flags are set -/
structure DataSetMessage.Agree (withHeader : Bool) (d e : DataSetMessage) : Prop where
  mask : d.mask = e.mask
  fieldMask : d.fieldMask = e.fieldMask
  writerId : withHeader = true → d.writerId = e.writerId
  writerName : withHeader = true → d.mask.contains DataSetMask.dataSetWriterName = true → d.writerName = e.writerName
  sequenceNumber : withHeader = true → d.mask.contains DataSetMask.sequenceNumber = true →
    d.sequenceNumber = e.sequenceNumber
  version : withHeader = true → d.mask.contains DataSetMask.metaDataVersion = true → d.version = e.version
  timestamp : withHeader = true → d.mask.contains DataSetMask.timestamp = true → d.timestamp = e.timestamp
  status : withHeader = true → d.mask.contains DataSetMask.status = true → d.status = e.status
  kind : withHeader = true → d.mask.contains DataSetMask.messageType = true → d.kind = e.kind
  payload : d.payload.Agree d.fieldMask e.payload

/-- the same mask, agreement on the envelope as far as there is one and its flags are set, and dataset messages that
agree one by one -/
structure NetworkMessage.Agree (m n : NetworkMessage) : Prop where
  mask : m.mask = n.mask
  messageId : m.mask.contains NetworkMask.networkMessageHeader = true → m.messageId = n.messageId
  publisherId : m.mask.contains NetworkMask.networkMessageHeader = true →
    m.mask.contains NetworkMask.publisherId = true → m.publisherId = n.publisherId
  dataSetClassId : m.mask.contains NetworkMask.networkMessageHeader = true →
    m.mask.contains NetworkMask.dataSetClassId = true → m.dataSetClassId = n.dataSetClassId
  replyTo : m.mask.contains NetworkMask.networkMessageHeader = true →
    m.mask.contains NetworkMask.replyTo = true → m.replyTo = n.replyTo
  messages : List.Forall₂ (DataSetMessage.Agree (m.mask.contains NetworkMask.dataSetMessageHeader))
    m.messages n.messages

/-! ## Messages that agree look the same -/

theorem filter_eq_of_asked {α : Type} {asked : Bool} {x y : Option α} (h : asked = true → x = y) :
    (x.filter fun _ => asked) = y.filter fun _ => asked := by
  cases asked with
  | true => rw [h rfl]
  | false => simp

theorem DataValue.Agree.visible?_congr {mask : FieldMask} {v w : DataValue} (h : v.Agree mask w) :
    v.visible? mask = w.visible? mask := by
  simp only [visible?, h.value, filter_eq_of_asked h.status, filter_eq_of_asked h.sourceTimestamp,
    filter_eq_of_asked h.sourcePicoseconds, filter_eq_of_asked h.serverTimestamp,
    filter_eq_of_asked h.serverPicoseconds]

/-- what is left out is not seen -/
theorem DataValue.visible?_of_leftOut {mask : FieldMask} {v : DataValue} (h : v.leftOut mask = true) :
    v.visible? mask = none := by
  rw [leftOut, Bool.and_eq_true] at h
  simp [visible?, h.1, h.2]

namespace Payload

/-- what is seen of a payload is what is seen of the fields that are not left out -/
theorem visibleFields_eq (mask : FieldMask) (p : Payload) :
    p.visibleFields mask = (p.written mask).filterMap fun f => (f.2.visible? mask).map (f.1, ·) := by
  rw [written, List.filterMap_filter, visibleFields]
  apply List.filterMap_congr
  intro f _
  cases hf : f.2.leftOut mask with
  | false => simp
  | true => simp [DataValue.visible?_of_leftOut hf]

theorem Agree.visible_eq {mask : FieldMask} {p q : Payload} (h : p.Agree mask q) : p.visible mask = q.visible mask := by
  have hfields : p.visibleFields mask = q.visibleFields mask := by
    rw [visibleFields_eq, visibleFields_eq]
    unfold Agree at h
    generalize p.written mask = fs at h ⊢
    generalize q.written mask = gs at h ⊢
    induction h with
    | nil => rfl
    | @cons f g fs gs hfg _ ih =>
      obtain ⟨hname, hvalue⟩ := hfg
      rw [List.filterMap_cons, List.filterMap_cons, hvalue.visible?_congr, hname, ih]
  simp only [visible, hfields]

end Payload

namespace DataSetMessage

/-- an attribute of the header that agrees where it is switched on looks the same -/
theorem shown_eq {α : Type} {withHeader : Bool} {d e : DataSetMessage} (hmask : d.mask = e.mask) {flag : DataSetMask}
    {x y : α} (default : α) (h : withHeader = true → d.mask.contains flag = true → x = y) :
    d.shown withHeader flag x default = e.shown withHeader flag y default := by
  unfold shown
  rw [← hmask]
  split_ifs with hon
  · rw [Bool.and_eq_true] at hon
    exact h hon.1 hon.2
  · rfl

theorem Agree.visible_eq {withHeader : Bool} {d e : DataSetMessage} (h : d.Agree withHeader e) :
    d.visible withHeader = e.visible withHeader := by
  have hid : (if withHeader then d.writerId else 0) = if withHeader then e.writerId else 0 := by
    split_ifs with hon
    · exact h.writerId hon
    · rfl
  have hpayload : d.payload.visible e.fieldMask = e.payload.visible e.fieldMask := by
    rw [← h.fieldMask]
    exact h.payload.visible_eq
  simp only [visible, hid, hpayload, h.mask, h.fieldMask, shown_eq h.mask none h.writerName,
    shown_eq h.mask 0 h.sequenceNumber, shown_eq h.mask {} h.version, shown_eq h.mask .min h.timestamp,
    shown_eq h.mask .good h.status, shown_eq h.mask .key h.kind]

theorem map_visible_eq {withHeader : Bool} {ds es : List DataSetMessage} (h : List.Forall₂ (Agree withHeader) ds es) :
    ds.map (visible withHeader) = es.map (visible withHeader) := by
  induction h with
  | nil => rfl
  | cons hde _ ih => rw [List.map_cons, List.map_cons, hde.visible_eq, ih]

end DataSetMessage

namespace NetworkMessage

variable {m n : NetworkMessage}

/-- an attribute of the envelope that agrees where it is switched on looks the same -/
theorem shown_eq {α : Type} (hmask : m.mask = n.mask) {flag : NetworkMask} {x y : Option α}
    (h : m.mask.contains NetworkMask.networkMessageHeader = true → m.mask.contains flag = true → x = y) :
    m.shown flag x = n.shown flag y := by
  unfold shown
  rw [← hmask]
  apply filter_eq_of_asked
  intro hon
  rw [Bool.and_eq_true] at hon
  exact h hon.1 hon.2

theorem Agree.visible_eq (h : m.Agree n) : m.visible = n.visible := by
  have hid : (if m.mask.contains NetworkMask.networkMessageHeader then m.messageId else "") =
      if m.mask.contains NetworkMask.networkMessageHeader then n.messageId else "" := by
    split_ifs with hon
    · exact h.messageId hon
    · rfl
  unfold visible
  rw [hid, DataSetMessage.map_visible_eq h.messages, shown_eq h.mask h.publisherId, shown_eq h.mask h.dataSetClassId,
    shown_eq h.mask h.replyTo, h.mask]

/-! ## Messages that agree are written alike -/

theorem Agree.validate_eq (h : m.Agree n) : m.validate = n.validate := by
  simp only [validate, h.mask, h.messages.length_eq]

/-- **A writer does the same with both**, whatever it has written before: it refuses both alike, or writes the document
of what is visible of them -/
theorem Agree.write_eq (h : m.Agree n) : Write.network m = Write.network n := by
  funext w
  cases hv : m.validate with
  | error e => rw [Write.network, Write.network, ← h.validate_eq, hv]
  | ok _ =>
    have hn : n.validate = .ok () := h.validate_eq.symm.trans hv
    have hm : Write.network m w = Write.json none (m.document w.reversible) w := Write.writes_network m hv w rfl
    rw [hm, Write.writes_network n hn w rfl, ← document_visible w.reversible hv, ← document_visible w.reversible hn,
      h.visible_eq]

/-- **What the masks switch off leaves no trace**: messages that agree on what their masks switch on have the same text,
byte for byte, or are refused with the same error. -/
theorem encode_eq_of_agree (h : m.Agree n) : m.encode = n.encode := by
  rw [encode, encode, h.write_eq]

/-- a message that has much to hide: the masks show its id, one sequence number and one bare value -/
def talkative : NetworkMessage where
  messageId := "m-1"
  publisherId := some "press"
  replyTo := some "opc.udp://10.0.0.1:4840"
  messages :=
    [{ writerId := 7,
       writerName := some "boiler",
       sequenceNumber := 3,
       version := ⟨1, 2⟩,
       timestamp := .max,
       status := .bad,
       kind := .delta,
       payload := { fields := [("note", { value := .null, status := some .bad }),
                               ("rpm", { value := .scalar (.boolean true), status := some .uncertain,
                                         sourcePicoseconds := some 4 })] },
       mask := DataSetMask.sequenceNumber,
       fieldMask := ⟨0x2F⟩ }]
  mask := ⟨0x03⟩

/-- the same message to the eye -/
def discreet : NetworkMessage where
  messageId := "m-1"
  dataSetClassId := some ⟨1⟩
  messages :=
    [{ writerId := 7,
       sequenceNumber := 3,
       payload := { fields := [("rpm", .plain (.scalar (.boolean true)))] },
       mask := DataSetMask.sequenceNumber,
       fieldMask := ⟨0x2F⟩ }]
  mask := ⟨0x03⟩

theorem talkative_agree : talkative.Agree discreet where
  mask := rfl
  messageId _ := rfl
  publisherId _ := by decide
  dataSetClassId _ := by decide
  replyTo _ := by decide
  messages := by
    refine List.Forall₂.cons ?_ List.Forall₂.nil
    refine ⟨rfl, rfl, fun _ => rfl, fun _ => by decide, fun _ _ => rfl, fun _ => by decide, fun _ => by decide,
      fun _ => by decide, fun _ => by decide, ?_⟩
    refine List.Forall₂.cons ⟨rfl, rfl, ?_, ?_, ?_, ?_, ?_⟩ List.Forall₂.nil <;> decide

theorem encode_eq_of_agree_discreet :
    talkative.Agree discreet ∧ talkative.publisherId ≠ discreet.publisherId ∧ talkative.encode = discreet.encode :=
  ⟨talkative_agree, by decide, encode_eq_of_agree talkative_agree⟩

end NetworkMessage

end OpcPubSub
