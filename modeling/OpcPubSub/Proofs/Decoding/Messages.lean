/-
What the reader makes of the documents of messages, on trees.

Header and envelope come back as far as they are visible; only the payload values depend on what the reader takes a
value for. `ReadAs` says so of payloads, dataset messages and network messages: a message is read as what is visible of
it, with values that the reader makes of the values shown. Main result:
- `network_document`: under the masks of the sender, the document of a message is read as another message iff the one
  is `ReadAs` the other.
-/
import OpcPubSub.Decoding.Messages
import OpcPubSub.Proofs.Decoding.Values
import OpcPubSub.Proofs.Except
import OpcPubSub.Proofs.Message.Visible

namespace OpcPubSub

namespace Decoding

/-! ## Data values -/

theorem optional_of_member {α : Type} {ms : Json.Members} {name : String} {j : Json} {read : Json → Except Fault α}
    (h : Json.member? ms name = some j) : optional ms name read = (read j).map some := by
  rw [optional, h]

/-- a member that may be absent, each value read back on its own -/
theorem optional_json {α : Type} {ms : Json.Members} {name : String} {o : Option α} {write : α → Json}
    {read : Json → Except Fault α} (hm : Json.member? ms name = o.map write) (h : ∀ x, read (write x) = .ok x) :
    optional ms name read = .ok o := by
  rw [optional, hm]
  cases o with
  | none => rfl
  | some x => simp [h, Except.map]

theorem nodup_rows (v : DataValue) (form : Bool) : ((v.rows form).map Prod.fst).Nodup := by
  simp [DataValue.rows]

/-- the attributes of a data value come back; the value is what the reader takes it for -/
theorem dataValue_json (v : DataValue) (form : Bool) :
    dataValue form (v.json form) = (variant form (v.value.json form)).map fun w => { v with value := w } := by
  have hm : ∀ {name o}, (name, o) ∈ v.rows form → Json.member? (Json.present (v.rows form)) name = o :=
    Json.member?_present (nodup_rows v form)
  have hvalue : optional (Json.present (v.rows form)) "Value" (variant form) =
      (variant form (v.value.json form)).map some :=
    optional_of_member (hm (by simp [DataValue.rows]))
  have hstatus : optional (Json.present (v.rows form)) "Status" statusCode = .ok v.status :=
    optional_json (hm (by simp [DataValue.rows])) fun c => statusCode_json c form
  have hsource : optional (Json.present (v.rows form)) "SourceTimestamp" dateTime = .ok v.sourceTimestamp :=
    optional_json (hm (by simp [DataValue.rows])) dateTime_text
  have hsourcePico : optional (Json.present (v.rows form)) "SourcePicoseconds" (uint16 "SourcePicoseconds") =
      .ok v.sourcePicoseconds :=
    optional_json (hm (by simp [DataValue.rows])) (uint16_toNat _)
  have hserver : optional (Json.present (v.rows form)) "ServerTimestamp" dateTime = .ok v.serverTimestamp :=
    optional_json (hm (by simp [DataValue.rows])) dateTime_text
  have hserverPico : optional (Json.present (v.rows form)) "ServerPicoseconds" (uint16 "ServerPicoseconds") =
      .ok v.serverPicoseconds :=
    optional_json (hm (by simp [DataValue.rows])) (uint16_toNat _)
  simp only [dataValue, DataValue.json, object, bind, Except.bind, hvalue, hstatus, hsource, hsourcePico, hserver,
    hserverPico]
  cases variant form (v.value.json form) <;> rfl

/-- a payload value as it is shown -/
theorem field_json {mask : FieldMask} {v u : DataValue} {j : Json} (hu : v.visible? mask = some u)
    (hj : v.field? mask = some j) :
    field mask j = (variant (FieldEncoding.ofMask mask).typed (v.value.json (FieldEncoding.ofMask mask).typed)).map
      fun w => { u with value := w } := by
  rw [DataValue.visible?_eq] at hu
  rw [DataValue.field?_eq] at hj
  unfold field
  cases hm : FieldEncoding.ofMask mask with
  | variant =>
    simp only [hm, Option.some.injEq] at hu hj
    subst hu hj
    rfl
  | rawData =>
    rw [hm] at hu hj
    cases hn : v.value.isNull with
    | true => simp [hn] at hu
    | false =>
      simp only [hn, Bool.false_eq_true, if_false, Option.some.injEq] at hu hj
      subst hu hj
      rfl
  | dataValue form =>
    simp only [hm, Option.some.injEq] at hu hj
    subst hu hj
    exact dataValue_json (v.filter mask) form

/-! ## Payloads -/

/-- a payload is read field by field, each added to those before it; a name that is there already would be refused, and
then no payload has both -/
theorem payload_eq_ok (mask : FieldMask) (ms : Json.Members) (p q : Payload) :
    payload mask p ms = .ok q ↔ ∃ fs, List.Forall₂ (fun m f => m.1 = f.1 ∧ field mask m.2 = .ok f.2) ms fs ∧
      q.fields = p.fields ++ fs := by
  induction ms generalizing p with
  | nil =>
    obtain ⟨fields, hfields⟩ := p
    obtain ⟨fields', hfields'⟩ := q
    simp [payload, eq_comm]
  | cons m ms ih =>
    obtain ⟨name, j⟩ := m
    rw [payload]
    cases hj : field mask j with
    | error e => simp [fail, List.forall₂_cons_left_iff, hj]
    | ok v =>
      simp only
      by_cases hin : name ∈ p.names
      · simp only [Payload.insert, dif_pos hin, reduceCtorEq, false_iff, not_exists, not_and,
          List.forall₂_cons_left_iff]
        rintro fs ⟨f, fs, ⟨rfl, -⟩, -, rfl⟩ hq
        have hnodup := q.unique
        rw [hq, List.map_append, List.nodup_append] at hnodup
        exact hnodup.2.2 _ hin _ (by simp) rfl
      · simp only [Payload.insert, dif_neg hin, ih, List.append_assoc, List.singleton_append,
          List.forall₂_cons_left_iff]
        constructor
        · rintro ⟨fs, hfs, hq⟩
          exact ⟨(name, v) :: fs, ⟨(name, v), fs, ⟨rfl, hj⟩, hfs, rfl⟩, hq⟩
        · rintro ⟨fs, ⟨⟨n, u⟩, fs, ⟨hn, hu⟩, hfs, rfl⟩, hq⟩
          simp only at hn hu
          rw [hj, Except.ok.injEq] at hu
          subst hn hu
          exact ⟨fs, hfs, hq⟩

end Decoding

/-- the reader takes the members shown of one payload for the fields of the other -/
def Payload.ReadAs (mask : FieldMask) (p q : Payload) : Prop :=
  List.Forall₂ (fun m f => m.1 = f.1 ∧ Decoding.field mask m.2 = .ok f.2) (p.members mask) q.fields

/-- the one is read as the other: what is visible, with a payload that is read -/
def DataSetMessage.ReadAs (withHeader : Bool) (m n : DataSetMessage) : Prop :=
  ∃ q, m.payload.ReadAs m.fieldMask q ∧ n = { m.visible withHeader with payload := q }

/-- the one is read as the other: what is visible, with dataset messages that are read; those of a document that stands
for none are not -/
def NetworkMessage.ReadAs (m n : NetworkMessage) : Prop :=
  ∃ ds, n = { m.visible with messages := ds } ∧
    if m.vanishes then ds = []
    else List.Forall₂ (DataSetMessage.ReadAs (m.mask.contains NetworkMask.dataSetMessageHeader)) m.messages ds

namespace Decoding

theorem payload_members (mask : FieldMask) (p q : Payload) :
    payload mask .empty (p.members mask) = .ok q ↔ p.ReadAs mask q := by
  simp [payload_eq_ok, Payload.ReadAs, Payload.empty]

/-! ## Dataset messages -/

theorem nodup_header (m : DataSetMessage) (form : Bool) : ((m.rows form).map Prod.fst).Nodup := by
  have hnames : (m.rows form).map Prod.fst = HeaderField.order.map HeaderField.name ++ ["Payload"] := by
    simp [DataSetMessage.rows_eq]
  rw [hnames]
  decide

theorem member?_header (m : DataSetMessage) (form : Bool) (f : HeaderField) :
    Json.member? (Json.present (m.rows form)) f.name = f.json? form m := by
  refine Json.member?_present (nodup_header m form) ?_
  rw [DataSetMessage.rows_eq, List.mem_append, List.mem_map]
  exact Or.inl ⟨f, by cases f <;> decide, rfl⟩

theorem member?_payload (m : DataSetMessage) (form : Bool) :
    Json.member? (Json.present (m.rows form)) "Payload" = some (.object (m.payload.members m.fieldMask)) :=
  Json.member?_present (nodup_header m form) (by simp [DataSetMessage.rows])

/-- **A header attribute comes back** if its flag is set, and has its default else, whatever stands in its place -/
theorem headerValue_json {α : Type} {m : DataSetMessage} {form : Bool} {f : HeaderField} {flag : DataSetMask}
    {value default : α} {read : Json → Except Fault α}
    (hset : m.mask.contains flag = true →
      f.slot m.mask = .value ∧ (f.value form m).isNull = false ∧ read (f.value form m) = .ok value) :
    headerValue m.mask flag (Json.present (m.rows form)) f.name default read =
      .ok (m.shown true flag value default) := by
  rw [headerValue, Json.value?_eq, member?_header, DataSetMessage.shown]
  cases hc : m.mask.contains flag with
  | false => cases (f.json? form m).filter fun j => !j.isNull <;> rfl
  | true =>
    obtain ⟨hslot, hnull, hread⟩ := hset hc
    have hvalue : (f.json? form m).filter (fun j => !j.isNull) = some (f.value form m) := by
      rw [HeaderField.json?_eq, hslot]
      simp [hnull]
    simp only [hvalue, hread, if_true, Bool.and_self]

theorem version_of_members {j : Json} {ms : Json.Members} {v : ConfigurationVersion}
    (h : object "MetaDataVersion" j = .ok ms)
    (hmajor : optional ms "MajorVersion" (uint32 "MajorVersion") = .ok (some v.major))
    (hminor : optional ms "MinorVersion" (uint32 "MinorVersion") = .ok (some v.minor)) : version j = .ok v :=
  calc version j
    _ = (do
          let major ← optional ms "MajorVersion" (uint32 "MajorVersion")
          let minor ← optional ms "MinorVersion" (uint32 "MinorVersion")
          .ok ⟨major.getD 0, minor.getD 0⟩) := by rw [version, h]; rfl
    _ = .ok v := by rw [hmajor, hminor]; rfl

theorem version_json (v : ConfigurationVersion) : version v.json = .ok v := by
  have hobject : object "MetaDataVersion" v.json =
      .ok [("MajorVersion", .int v.major.toNat), ("MinorVersion", .int v.minor.toNat)] := rfl
  refine version_of_members hobject ?_ ?_
  · rw [optional_of_member rfl, uint32_toNat]; rfl
  · rw [optional_of_member rfl, uint32_toNat]; rfl

theorem frameKind_label (k : FrameKind) : frameKind (.string k.label) = .ok k := by
  cases k <;> rfl

theorem writerId_decimal (n : UInt16) : writerId (Text.decimal n.toNat) = .ok n := by
  have hn : (n.toNat : Int) < UInt16.size := Int.ofNat_lt.2 n.toNat_lt_size
  rw [writerId, Text.readInt_decimal (Or.inr (Int.natCast_nonneg _))]
  simp only [hn, if_true, Int.toNat_natCast, UInt16.ofNat_toNat]

theorem requiredString_writerId (m : DataSetMessage) (form : Bool) :
    requiredString (Json.present (m.rows form)) HeaderField.writerId.name = .ok (Text.decimal m.writerId.toNat) := by
  rw [requiredString, optString, member?_header]
  rfl

theorem optString_writerName (m : DataSetMessage) (form : Bool) :
    (if m.mask.contains DataSetMask.dataSetWriterName then
      optString (Json.present (m.rows form)) HeaderField.writerName.name else .ok none) =
      .ok (m.shown true DataSetMask.dataSetWriterName m.writerName none) := by
  rw [optString, member?_header, DataSetMessage.shown]
  cases hc : m.mask.contains DataSetMask.dataSetWriterName with
  | false => rfl
  | true =>
    cases hn : m.writerName <;>
      simp [HeaderField.json?, hc, hn, Json.orNull]

theorem header_rows {settings : ReaderSettings} {m : DataSetMessage} (hd : settings.dataSet = m.mask)
    (hf : settings.field = m.fieldMask) (form : Bool) :
    header settings (Json.present (m.rows form)) = .ok { m.visible true with payload := .empty } := by
  have hname := optString_writerName m form
  have hsequence : headerValue m.mask DataSetMask.sequenceNumber (Json.present (m.rows form))
      HeaderField.sequenceNumber.name 0 (uint32 HeaderField.sequenceNumber.name) =
      .ok (m.shown true DataSetMask.sequenceNumber m.sequenceNumber 0) :=
    headerValue_json fun hc => ⟨if_pos hc, rfl, uint32_toNat _ _⟩
  have hversion : headerValue m.mask DataSetMask.metaDataVersion (Json.present (m.rows form))
      HeaderField.metaDataVersion.name {} version = .ok (m.shown true DataSetMask.metaDataVersion m.version {}) :=
    headerValue_json fun hc => ⟨if_pos hc, rfl, version_json _⟩
  have htimestamp : headerValue m.mask DataSetMask.timestamp (Json.present (m.rows form)) HeaderField.timestamp.name
      .min dateTime = .ok (m.shown true DataSetMask.timestamp m.timestamp .min) :=
    headerValue_json fun hc => ⟨if_pos hc, rfl, dateTime_text _⟩
  have hstatus : headerValue m.mask DataSetMask.status (Json.present (m.rows form)) HeaderField.status.name .good
      statusCode = .ok (m.shown true DataSetMask.status m.status .good) :=
    headerValue_json fun hc => ⟨if_pos hc, by cases form <;> rfl, statusCode_json _ form⟩
  have hkind : headerValue m.mask DataSetMask.messageType (Json.present (m.rows form)) HeaderField.messageType.name .key
      frameKind = .ok (m.shown true DataSetMask.messageType m.kind .key) :=
    headerValue_json fun hc => ⟨if_pos hc, rfl, frameKind_label _⟩
  simp only [header, hd, hf, bind, Except.bind, requiredString_writerId, writerId_decimal, hsequence, hversion,
    htimestamp, hstatus, hkind]
  cases hc : m.mask.contains DataSetMask.dataSetWriterName with
  | false => simp [DataSetMessage.visible, DataSetMessage.shown, hc]
  | true =>
    rw [if_pos hc] at hname
    simp only [hname, if_true]
    simp [DataSetMessage.visible, DataSetMessage.shown]

/-- **A dataset message** is read as what is visible of it, with a payload that is read -/
theorem dataSet_json {settings : ReaderSettings} {m : DataSetMessage} (hd : settings.dataSet = m.mask)
    (hf : settings.field = m.fieldMask) (form withHeader : Bool) (n : DataSetMessage) :
    dataSet settings withHeader (m.json form withHeader) = .ok n ↔ m.ReadAs withHeader n := by
  have hpayload : m.ReadAs withHeader n ↔ ((payload m.fieldMask .empty (m.payload.members m.fieldMask)).map fun q =>
      { m.visible withHeader with payload := q }) = .ok n := by
    simp only [map_eq_ok, payload_members, DataSetMessage.ReadAs]
  rw [hpayload]
  cases withHeader with
  | false =>
    simp only [dataSet, DataSetMessage.json, object, bind, Except.bind, Bool.false_eq_true, if_false, hf, hd]
    cases payload m.fieldMask .empty (m.payload.members m.fieldMask) <;> rfl
  | true =>
    simp only [dataSet, DataSetMessage.json, object, bind, Except.bind, if_true, header_rows hd hf, member?_payload, hf]
    cases payload m.fieldMask .empty (m.payload.members m.fieldMask) <;> rfl

theorem dataSets_json {settings : ReaderSettings} {ms : List DataSetMessage}
    (h : ∀ m ∈ ms, settings.dataSet = m.mask ∧ settings.field = m.fieldMask) (form withHeader : Bool)
    (ns : List DataSetMessage) :
    dataSets settings withHeader (ms.map (DataSetMessage.json form withHeader)) = .ok ns ↔
      List.Forall₂ (DataSetMessage.ReadAs withHeader) ms ns := by
  induction ms generalizing ns with
  | nil => simp [dataSets, eq_comm]
  | cons m ms ih =>
    obtain ⟨hd, hf⟩ := h m List.mem_cons_self
    have hm := dataSet_json hd hf form withHeader
    have hrest := ih fun m hm => h m (List.mem_cons_of_mem _ hm)
    simp only [List.map_cons, dataSets, bind, Except.bind, List.forall₂_cons_left_iff, ← hm, ← hrest]
    cases dataSet settings withHeader (m.json form withHeader) with
    | error e => simp
    | ok n =>
      cases dataSets settings withHeader (ms.map (DataSetMessage.json form withHeader)) with
      | error e => simp
      | ok ns' =>
        simp only [Except.ok.injEq]
        constructor
        · rintro rfl
          exact ⟨n, ns', rfl, rfl, rfl⟩
        · rintro ⟨_, _, rfl, rfl, rfl⟩
          rfl

/-! ## Network messages -/

theorem optString_orNull {ms : Json.Members} {name : String} {o : Option String}
    (h : Json.member? ms name = some (Json.orNull o)) : optString ms name = .ok o := by
  rw [optString, h]
  cases o <;> rfl

theorem requiredString_string {ms : Json.Members} {name s : String} (h : Json.member? ms name = some (.string s)) :
    requiredString ms name = .ok s := by
  have hopt : optString ms name = .ok (some s) := optString_orNull h
  rw [requiredString, hopt]
  rfl

theorem nodup_envelope (m : NetworkMessage) (form : Bool) : ((m.rows form).map Prod.fst).Nodup := by
  simp [NetworkMessage.rows]

/-- **The envelope comes back** as far as it is visible -/
theorem envelope_rows {settings : ReaderSettings} {m : NetworkMessage} (hn : settings.network = m.mask)
    (henvelope : m.mask.contains NetworkMask.networkMessageHeader = true) (form : Bool) :
    envelope settings (Json.present (m.rows form)) = .ok { m.visible with messages := [] } := by
  have hm : ∀ {name o}, (name, o) ∈ m.rows form → Json.member? (Json.present (m.rows form)) name = o :=
    Json.member?_present (nodup_envelope m form)
  have hid : requiredString (Json.present (m.rows form)) "MessageId" = .ok m.messageId :=
    requiredString_string (hm (by simp [NetworkMessage.rows]))
  have htype : requiredString (Json.present (m.rows form)) "MessageType" = .ok NetworkMessage.dataMessageType :=
    requiredString_string (hm (by simp [NetworkMessage.rows, NetworkMessage.dataMessageType]))
  have hpublisher : optString (Json.present (m.rows form)) "PublisherId" =
      .ok (m.publisherId.filter fun _ => m.mask.contains NetworkMask.publisherId) :=
    optString_orNull (hm (by simp [NetworkMessage.rows]))
  have hclass : optString (Json.present (m.rows form)) "DataSetClassId" =
      .ok ((m.dataSetClassId.filter fun _ => m.mask.contains NetworkMask.dataSetClassId).map Guid.text) :=
    optString_orNull (hm (by simp [NetworkMessage.rows]))
  have hreply : optString (Json.present (m.rows form)) "ReplyTo" =
      .ok (m.replyTo.filter fun _ => m.mask.contains NetworkMask.replyTo) :=
    optString_orNull (hm (by simp [NetworkMessage.rows]))
  generalize Json.present (m.rows form) = ms at hid htype hpublisher hclass hreply
  simp only [envelope, hid, htype, hpublisher, hclass, hreply, hn, bind, Except.bind, ne_eq, not_true_eq_false,
    if_false]
  cases hg : m.dataSetClassId.filter fun _ => m.mask.contains NetworkMask.dataSetClassId with
  | none => simp [NetworkMessage.visible, NetworkMessage.shown, henvelope, hg]
  | some g => simp [NetworkMessage.visible, NetworkMessage.shown, henvelope, hg, Guid.ofText?_text]

/-- the only dataset message -/
theorem messages_single {settings : ReaderSettings} {layout : Layout} {d : DataSetMessage}
    (hsingle : layout.single = true) (hd : settings.dataSet = d.mask ∧ settings.field = d.fieldMask) (form : Bool)
    (ns : List DataSetMessage) :
    messages settings layout (d.json form layout.dataSetHeader) = .ok ns ↔
      List.Forall₂ (DataSetMessage.ReadAs layout.dataSetHeader) [d] ns := by
  simp only [messages, hsingle, if_true, map_eq_ok, List.forall₂_cons_left_iff, List.forall₂_nil_left_iff,
    dataSet_json hd.1 hd.2 form]
  constructor
  · rintro ⟨n, hn, rfl⟩
    exact ⟨n, [], hn, rfl, rfl⟩
  · rintro ⟨n, _, hn, rfl, rfl⟩
    exact ⟨n, hn, rfl⟩

/-- dataset messages in an array -/
theorem messages_array {settings : ReaderSettings} {layout : Layout} {ds : List DataSetMessage}
    (hsingle : layout.single = false) (hd : ∀ d ∈ ds, settings.dataSet = d.mask ∧ settings.field = d.fieldMask)
    (form : Bool) (ns : List DataSetMessage) :
    messages settings layout (.array (ds.map (DataSetMessage.json form layout.dataSetHeader))) = .ok ns ↔
      List.Forall₂ (DataSetMessage.ReadAs layout.dataSetHeader) ds ns := by
  rw [← dataSets_json hd form]
  simp only [messages, hsingle, Bool.false_eq_true, if_false]

/-- the dataset messages inside an envelope -/
theorem messages_inner {settings : ReaderSettings} {m : NetworkMessage} (hvalid : m.validate = .ok ())
    (hd : ∀ d ∈ m.messages, settings.dataSet = d.mask ∧ settings.field = d.fieldMask) (form : Bool) {j : Json}
    (hj : m.inner? form = some j) (ns : List DataSetMessage) :
    j.isNull = false ∧ (messages settings (Layout.ofMask m.mask) j = .ok ns ↔
      List.Forall₂ (DataSetMessage.ReadAs (m.mask.contains NetworkMask.dataSetMessageHeader)) m.messages ns) := by
  have hsingle : (Layout.ofMask m.mask).single = m.mask.contains NetworkMask.singleDataSetMessage := rfl
  unfold NetworkMessage.inner? at hj
  cases hs : m.mask.contains NetworkMask.singleDataSetMessage with
  | true =>
    rcases NetworkMessage.messages_of_valid hvalid hs with hm | ⟨d, hm⟩
    · simp [hm] at hj
    · rw [hm] at hj hd ⊢
      simp only [hs, if_true, Option.some.injEq] at hj
      subst hj
      exact ⟨rfl, messages_single (hsingle.trans hs) (hd d List.mem_cons_self) form ns⟩
  | false =>
    cases hm : m.messages with
    | nil => simp [hm] at hj
    | cons d rest =>
      rw [hm] at hj hd
      simp only [hs, Bool.false_eq_true, if_false, Option.some.injEq] at hj
      subst hj
      exact ⟨rfl, messages_array (hsingle.trans hs) hd form ns⟩

end Decoding

/-! ### A root that stands for no message -/

theorem Payload.members_eq_nil (mask : FieldMask) (p : Payload) :
    p.members mask = [] ↔ (p.visible mask).fields.isEmpty = true := by
  simp only [members, visible, visibleFields, Json.present]
  induction p.fields with
  | nil => simp
  | cons f fields ih =>
    have hsome := DataValue.visible?_isSome mask f.2
    rw [List.map_cons, List.flatMap_cons, List.filterMap_cons]
    cases hv : f.2.visible? mask <;> cases hj : f.2.field? mask <;> simp_all

theorem DataSetMessage.json_eq_empty (form withHeader : Bool) (m : DataSetMessage) :
    m.json form withHeader = .object [] ↔
      withHeader = false ∧ (m.payload.visible m.fieldMask).fields.isEmpty = true := by
  cases withHeader with
  | false =>
    rw [← Payload.members_eq_nil]
    simp [json]
  | true =>
    simp only [json, if_true, Json.object.injEq, Bool.true_eq_false, false_and, iff_false]
    intro h
    have hid := Decoding.member?_header m form .writerId
    rw [h] at hid
    simp [Json.member?, HeaderField.json?] at hid

namespace NetworkMessage

variable {m : NetworkMessage}

/-- without an envelope nothing of it is visible -/
theorem visible_bare (hn : m.mask.contains NetworkMask.networkMessageHeader = false) (ds : List DataSetMessage) :
    ({ messageId := "", messages := ds, mask := m.mask } : NetworkMessage) = { m.visible with messages := ds } := by
  simp [visible, shown, hn]

theorem vanishes_of_envelope (hn : m.mask.contains NetworkMask.networkMessageHeader = true) : m.vanishes = false := by
  simp [vanishes, hn]

theorem vanishes_of_array (hs : m.mask.contains NetworkMask.singleDataSetMessage = false) : m.vanishes = false := by
  simp [vanishes, hs]

theorem document_of_vanishes (h : m.vanishes = true) (form : Bool) : m.document form = .object [] := by
  simp only [vanishes, Bool.and_eq_true, Bool.not_eq_true', List.all_eq_true] at h
  obtain ⟨⟨⟨hn, hs⟩, hh⟩, hall⟩ := h
  simp only [document, hn, hs, hh]
  cases hm : m.messages with
  | nil => rfl
  | cons d rest => exact (DataSetMessage.json_eq_empty form false d).2 ⟨rfl, hall d (by simp [hm])⟩

theorem vanishes_single (hn : m.mask.contains NetworkMask.networkMessageHeader = false)
    (hs : m.mask.contains NetworkMask.singleDataSetMessage = true) {d : DataSetMessage} (hm : m.messages = [d])
    (form : Bool) :
    m.vanishes = true ↔ d.json form (m.mask.contains NetworkMask.dataSetMessageHeader) = .object [] := by
  rw [DataSetMessage.json_eq_empty]
  simp [vanishes, hn, hs, hm]

end NetworkMessage

theorem NetworkMessage.readAs_iff {m n : NetworkMessage} (h : m.vanishes = false) :
    m.ReadAs n ↔ ∃ ds,
      List.Forall₂ (DataSetMessage.ReadAs (m.mask.contains NetworkMask.dataSetMessageHeader)) m.messages ds ∧
        n = { m.visible with messages := ds } := by
  simp [ReadAs, h, and_comm]

theorem NetworkMessage.readAs_iff_of_vanishes {m n : NetworkMessage} (h : m.vanishes = true) :
    m.ReadAs n ↔ n = { m.visible with messages := [] } := by
  simp [ReadAs, h, and_comm]

theorem NetworkMessage.readAs_iff_of_nil {m n : NetworkMessage} (h : m.messages = []) :
    m.ReadAs n ↔ n = { m.visible with messages := [] } := by
  cases hv : m.vanishes <;> simp [ReadAs, h, hv, and_comm]

/-- **A network message under the masks of its sender** is read as what is visible of it, with dataset messages that
are read. -/
theorem Decoding.network_document {settings : ReaderSettings} {m : NetworkMessage} (hvalid : m.validate = .ok ())
    (hn : settings.network = m.mask)
    (hd : ∀ d ∈ m.messages, settings.dataSet = d.mask ∧ settings.field = d.fieldMask) (form : Bool)
    (n : NetworkMessage) : network settings (m.document form) = .ok n ↔ m.ReadAs n := by
  have hsingle : (Layout.ofMask m.mask).single = m.mask.contains NetworkMask.singleDataSetMessage := rfl
  cases he : m.mask.contains NetworkMask.networkMessageHeader with
  | true =>
    have hroot : (Layout.ofMask m.mask).root = .envelope := by simp [Layout.ofMask, he]
    have hinner : Json.member? (Json.present (m.rows form)) "Messages" = m.inner? form :=
      Json.member?_present (nodup_envelope m form) (by simp [NetworkMessage.rows])
    rw [NetworkMessage.readAs_iff (NetworkMessage.vanishes_of_envelope he)]
    simp only [network, hn, hroot, NetworkMessage.document, he, object, bind, Except.bind, envelope_rows hn he,
      Json.value?_eq, hinner]
    cases hj : m.inner? form with
    | none =>
      have hm : m.messages = [] := by
        unfold NetworkMessage.inner? at hj
        cases hm : m.messages with
        | nil => rfl
        | cons d rest =>
          rw [hm] at hj
          simp only at hj
          split_ifs at hj
      simp [hm, eq_comm]
    | some j =>
      have hnull := (messages_inner hvalid hd form hj []).1
      simp only [Option.filter, hnull, Bool.not_false, if_true]
      refine (map_eq_ok (f := fun ds => ({ m.visible with messages := ds } : NetworkMessage))).trans ?_
      simp only [(messages_inner hvalid hd form hj _).2]
  | false =>
    have hbare := NetworkMessage.visible_bare he
    cases hs : m.mask.contains NetworkMask.singleDataSetMessage with
    | false =>
      have hroot : (Layout.ofMask m.mask).root = .array := by simp [Layout.ofMask, he, hs]
      rw [NetworkMessage.readAs_iff (NetworkMessage.vanishes_of_array hs)]
      simp only [network, hn, hroot, NetworkMessage.document, he, hs, bind, Except.bind, ← hbare]
      refine (map_eq_ok (f := fun ds => ({ messageId := "", messages := ds, mask := m.mask } :
        NetworkMessage))).trans ?_
      exact exists_congr fun ds => and_congr (messages_array (hsingle.trans hs) hd form ds) Iff.rfl
    | true =>
      have hroot : (Layout.ofMask m.mask).root = .singleMessage := by simp [Layout.ofMask, he, hs]
      rcases NetworkMessage.messages_of_valid hvalid hs with hm | ⟨d, hm⟩
      · rw [NetworkMessage.readAs_iff_of_nil hm, ← hbare]
        simp only [network, hn, hroot, NetworkMessage.document, he, hs, hm]
        simp [eq_comm]
      · have hvanishes := NetworkMessage.vanishes_single he hs hm form
        have hread := messages_single (hsingle.trans hs) (hd d (by rw [hm]; exact List.mem_cons_self)) form
        simp only [network, hn, hroot, NetworkMessage.document, he, hs, hm, bind, Except.bind]
        split
        · next hempty =>
          rw [NetworkMessage.readAs_iff_of_vanishes (hvanishes.2 hempty), ← hbare, Except.ok.injEq, eq_comm]
        · next hempty =>
          have hv : m.vanishes = false := by
            rw [← Bool.not_eq_true, hvanishes]
            exact hempty
          rw [NetworkMessage.readAs_iff hv, hm]
          simp only [← hbare]
          refine (map_eq_ok (f := fun ds => ({ messageId := "", messages := ds, mask := m.mask } :
            NetworkMessage))).trans ?_
          exact exists_congr fun ds => and_congr (hread ds) Iff.rfl

end OpcPubSub
