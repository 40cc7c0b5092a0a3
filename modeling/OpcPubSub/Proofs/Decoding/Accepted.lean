/-
What a document says that a reader accepts.

`NetworkMask.dataSets?` finds the dataset messages of a document, and `Json.payload?` the payload of one of them; both
only look at the shape of the document. Each reader is inverted once: what it answers is put together from what the
readers inside it answer (`EnvelopeRead`, `HeaderRead`, `ValueRead`, `network_eq_ok`). Main result:
- `decode_wellFormed`: whatever the text, a message that is read has one dataset message for each of the document's, with
  the names of its payload in their order and well-formed values; it is valid, and can be written.
-/
import OpcPubSub.Proofs.Decoding.Messages
import OpcPubSub.Proofs.Encoding.WritesDocument
import OpcPubSub.Proofs.Json.ReadBack

namespace OpcPubSub

/-! ## Where things stand in a document -/

namespace Json

def members? : Json → Option Members
  | .object ms => some ms
  | _ => none

def items? : Json → Option (List Json)
  | .array items => some items
  | _ => none

/-- the payload of a dataset message: a member of it where it has a header, and all of it where it has none -/
def payload? (withHeader : Bool) (j : Json) : Option Members :=
  j.members?.bind fun ms => if withHeader then (member? ms "Payload").bind members? else some ms

end Json

namespace NetworkMask

/-- the dataset messages that a value stands for: the value itself in single message mode, else its items -/
def listed? (mask : NetworkMask) (j : Json) : Option (List Json) :=
  if mask.contains NetworkMask.singleDataSetMessage then some [j] else j.items?

/-- the dataset messages of a document in their order: inside an envelope those of `Messages`, none if it is missing or
null; else those of the root, none if that is an empty object in single message mode -/
def dataSets? (mask : NetworkMask) (j : Json) : Option (List Json) :=
  if mask.contains NetworkMask.networkMessageHeader then
    j.members?.bind fun ms =>
      match Json.value? ms "Messages" with
      | none => some []
      | some v => mask.listed? v
  else
    match mask.contains NetworkMask.singleDataSetMessage, j with
    | true, .object [] => some []
    | _, j => mask.listed? j

end NetworkMask

namespace Decoding

/-! ## Reading step by step -/

theorem object_eq_ok {what : String} {j : Json} {ms : Json.Members} : object what j = .ok ms ↔ j = .object ms := by
  cases j <;> simp [object, fail]

/-! ### Values -/

/-- a scalar is of the type it is read as -/
theorem type_of_scalar {type : ScalarType} {j : Json} {s : Scalar} (h : scalar type j = .ok s) : s.type = type := by
  cases type with
  | int k =>
    obtain ⟨n, -, rfl⟩ := map_eq_ok.1 h
    rfl
  | dateTime =>
    obtain ⟨t, -, rfl⟩ := map_eq_ok.1 h
    rfl
  | statusCode =>
    obtain ⟨c, -, rfl⟩ := map_eq_ok.1 h
    rfl
  -- read off the kind of the token
  | boolean | float | double | string =>
    simp only [scalar] at h
    split at h
    · cases h; rfl
    · simp [fail] at h
  -- read off a string, which may be no guid or no base 64
  | guid | byteString =>
    simp only [scalar] at h
    split at h
    · split at h
      · cases h; rfl
      · simp [fail] at h
    · simp [fail] at h

theorem scalarType?_of_scalars {type : ScalarType} {items : List Json} {vs : List Variant}
    (h : scalars type items = .ok vs) : ∀ v ∈ vs, v.scalarType? = some type := by
  induction items generalizing vs with
  | nil =>
    cases h
    simp
  | cons j items ih =>
    obtain ⟨s, hs, hrest⟩ := bind_eq_ok.1 h
    obtain ⟨us, hus, hrest⟩ := bind_eq_ok.1 hrest
    cases hrest
    exact List.forall_mem_cons.2 ⟨congrArg some (type_of_scalar hs), ih hus⟩

/-- an array beside its type is one of scalars of that type -/
theorem reversible_wellFormed {j : Json} {v : Variant} (h : reversible j = .ok v) : v.WellFormed := by
  unfold reversible at h
  split at h
  · cases h
    trivial
  · obtain ⟨ms, -, hrest⟩ := bind_eq_ok.1 h
    obtain ⟨type, -, hrest⟩ := bind_eq_ok.1 hrest
    split at hrest
    · cases hrest
      trivial
    · obtain ⟨vs, hvs, rfl⟩ := map_eq_ok.1 hrest
      exact scalarType?_of_scalars hvs
    · obtain ⟨s, -, rfl⟩ := map_eq_ok.1 hrest
      trivial

/-- a bare array is one of scalars of the type of the first -/
theorem bare_wellFormed {j : Json} {v : Variant} (h : bare j = .ok v) : v.WellFormed := by
  cases j with
  | atom a =>
    rw [bare, Except.ok.injEq] at h
    subst h
    cases a <;> trivial
  | array items =>
    obtain ⟨-, elem, vs, -, hall, rfl⟩ := (bare_array items v).1 h
    exact hall
  | object ms => simp [bare, fail] at h

theorem variant_wellFormed {form : Bool} {j : Json} {v : Variant} (h : variant form j = .ok v) : v.WellFormed := by
  cases form with
  | true => exact reversible_wellFormed h
  | false => exact bare_wellFormed h

/-- a data value, put together from the members of its object -/
structure ValueRead (form : Bool) (ms : Json.Members) (v : DataValue) : Prop where
  value : ∃ w, optional ms "Value" (variant form) = .ok w ∧ v.value = w.getD .null
  status : optional ms "Status" statusCode = .ok v.status
  sourceTimestamp : optional ms "SourceTimestamp" dateTime = .ok v.sourceTimestamp
  sourcePicoseconds : optional ms "SourcePicoseconds" (uint16 "SourcePicoseconds") = .ok v.sourcePicoseconds
  serverTimestamp : optional ms "ServerTimestamp" dateTime = .ok v.serverTimestamp
  serverPicoseconds : optional ms "ServerPicoseconds" (uint16 "ServerPicoseconds") = .ok v.serverPicoseconds

theorem dataValue_ok {form : Bool} {j : Json} {v : DataValue} (h : dataValue form j = .ok v) :
    ∃ ms, j = .object ms ∧ ValueRead form ms v := by
  obtain ⟨ms, hms, hrest⟩ := bind_eq_ok.1 h
  obtain ⟨value, hvalue, hrest⟩ := bind_eq_ok.1 hrest
  obtain ⟨status, hstatus, hrest⟩ := bind_eq_ok.1 hrest
  obtain ⟨source, hsource, hrest⟩ := bind_eq_ok.1 hrest
  obtain ⟨sourcePico, hsourcePico, hrest⟩ := bind_eq_ok.1 hrest
  obtain ⟨server, hserver, hrest⟩ := bind_eq_ok.1 hrest
  obtain ⟨serverPico, hserverPico, hrest⟩ := bind_eq_ok.1 hrest
  cases hrest
  exact ⟨ms, object_eq_ok.1 hms, ⟨⟨value, hvalue, rfl⟩, hstatus, hsource, hsourcePico, hserver, hserverPico⟩⟩

/-- a payload value under a field mask: a variant with its type, a bare one, or a value with attributes -/
theorem field_ok {mask : FieldMask} {j : Json} {v : DataValue} (h : field mask j = .ok v) :
    match FieldEncoding.ofMask mask with
    | .variant => ∃ w, reversible j = .ok w ∧ v = .plain w
    | .rawData => ∃ w, bare j = .ok w ∧ v = .plain w
    | .dataValue form => ∃ ms, j = .object ms ∧ ValueRead form ms v := by
  unfold field at h
  cases hm : FieldEncoding.ofMask mask with
  | variant =>
    rw [hm] at h
    exact map_eq_ok.1 h
  | rawData =>
    rw [hm] at h
    exact map_eq_ok.1 h
  | dataValue form =>
    rw [hm] at h
    exact dataValue_ok h

/-- **A value that is read is well formed**, whatever the mask -/
theorem field_wellFormed {mask : FieldMask} {j : Json} {v : DataValue} (h : field mask j = .ok v) :
    v.value.WellFormed := by
  have hread := field_ok h
  cases hm : FieldEncoding.ofMask mask with
  | variant =>
    rw [hm] at hread
    obtain ⟨w, hw, rfl⟩ := hread
    exact reversible_wellFormed hw
  | rawData =>
    rw [hm] at hread
    obtain ⟨w, hw, rfl⟩ := hread
    exact bare_wellFormed hw
  | dataValue form =>
    rw [hm] at hread
    obtain ⟨ms, -, hread⟩ := hread
    obtain ⟨w, hw, hvalue⟩ := hread.value
    rw [hvalue]
    unfold optional at hw
    split at hw
    · cases hw
      trivial
    · obtain ⟨u, hu, rfl⟩ := map_eq_ok.1 hw
      exact variant_wellFormed hu

/-! ### Dataset messages -/

/-- the header of a dataset message, put together from the members of its object -/
structure HeaderRead (settings : ReaderSettings) (ms : Json.Members) (d : DataSetMessage) : Prop where
  writerName : (if settings.dataSet.contains DataSetMask.dataSetWriterName then
    optString ms HeaderField.writerName.name else .ok none) = .ok d.writerName
  sequenceNumber : headerValue settings.dataSet DataSetMask.sequenceNumber ms HeaderField.sequenceNumber.name 0
    (uint32 HeaderField.sequenceNumber.name) = .ok d.sequenceNumber
  version : headerValue settings.dataSet DataSetMask.metaDataVersion ms HeaderField.metaDataVersion.name {} version =
    .ok d.version
  timestamp : headerValue settings.dataSet DataSetMask.timestamp ms HeaderField.timestamp.name .min dateTime =
    .ok d.timestamp
  status : headerValue settings.dataSet DataSetMask.status ms HeaderField.status.name .good statusCode = .ok d.status
  kind : headerValue settings.dataSet DataSetMask.messageType ms HeaderField.messageType.name .key frameKind =
    .ok d.kind

theorem header_ok {settings : ReaderSettings} {ms : Json.Members} {d : DataSetMessage}
    (h : header settings ms = .ok d) : HeaderRead settings ms d := by
  obtain ⟨text, -, hrest⟩ := bind_eq_ok.1 h
  obtain ⟨id, -, hrest⟩ := bind_eq_ok.1 hrest
  -- the writer name is read in one branch and absent in the other, and what follows is the same
  dsimp only at hrest
  split at hrest
  all_goals
    rename_i hflag
    obtain ⟨name, hname, hrest⟩ := bind_eq_ok.1 hrest
    obtain ⟨sequence, hsequence, hrest⟩ := bind_eq_ok.1 hrest
    obtain ⟨version, hversion, hrest⟩ := bind_eq_ok.1 hrest
    obtain ⟨timestamp, htimestamp, hrest⟩ := bind_eq_ok.1 hrest
    obtain ⟨status, hstatus, hrest⟩ := bind_eq_ok.1 hrest
    obtain ⟨kind, hkind, hrest⟩ := bind_eq_ok.1 hrest
    cases hrest
    refine ⟨?_, hsequence, hversion, htimestamp, hstatus, hkind⟩
    simpa [hflag] using hname

/-- a dataset message before its payload is read -/
def preamble (settings : ReaderSettings) (withHeader : Bool) (ms : Json.Members) : Except Fault DataSetMessage :=
  if withHeader then header settings ms
  else .ok { writerId := 0, payload := .empty, mask := settings.dataSet, fieldMask := settings.field }

theorem payload_ok {mask : FieldMask} {fields : Json.Members} {q : Payload} (h : payload mask .empty fields = .ok q) :
    List.Forall₂ (fun m f => m.1 = f.1 ∧ field mask m.2 = .ok f.2) fields q.fields := by
  obtain ⟨fs, hfs, hq⟩ := (payload_eq_ok mask fields .empty q).1 h
  rw [hq]
  exact hfs

/-- a dataset message is an object: its header if it has one, and its payload, field by field -/
theorem dataSet_ok {settings : ReaderSettings} {withHeader : Bool} {j : Json} {d : DataSetMessage}
    (h : dataSet settings withHeader j = .ok d) :
    ∃ ms fields base, j = .object ms ∧ j.payload? withHeader = some fields ∧
      preamble settings withHeader ms = .ok base ∧ d = { base with payload := d.payload } ∧
      List.Forall₂ (fun m f => m.1 = f.1 ∧ field settings.field m.2 = .ok f.2) fields d.payload.fields := by
  obtain ⟨ms, hms, hrest⟩ := bind_eq_ok.1 h
  rw [object_eq_ok] at hms
  subst hms
  cases withHeader with
  | true =>
    rw [if_pos rfl] at hrest
    obtain ⟨base, hbase, hrest⟩ := bind_eq_ok.1 hrest
    split at hrest
    · simp [fail] at hrest
    · next j hj =>
      obtain ⟨fields, hfields, hrest⟩ := bind_eq_ok.1 hrest
      obtain ⟨q, hq, hrest⟩ := bind_eq_ok.1 hrest
      rw [object_eq_ok] at hfields
      cases hrest
      refine ⟨ms, fields, base, rfl, ?_, hbase, rfl, payload_ok hq⟩
      simp [Json.payload?, Json.members?, hj, hfields]
  | false =>
    rw [if_neg Bool.false_ne_true] at hrest
    obtain ⟨q, hq, hrest⟩ := bind_eq_ok.1 hrest
    cases hrest
    exact ⟨ms, ms, _, rfl, rfl, rfl, rfl, payload_ok hq⟩

theorem dataSets_eq_ok (settings : ReaderSettings) (withHeader : Bool) (items : List Json) (ds : List DataSetMessage) :
    dataSets settings withHeader items = .ok ds ↔
      List.Forall₂ (fun j d => dataSet settings withHeader j = .ok d) items ds := by
  induction items generalizing ds with
  | nil => simp [dataSets, eq_comm]
  | cons j items ih =>
    rw [dataSets, bind_eq_ok, List.forall₂_cons_left_iff]
    constructor
    · rintro ⟨d, hd, h⟩
      obtain ⟨rest, hrest, hds⟩ := bind_eq_ok.1 h
      cases hds
      exact ⟨d, rest, hd, (ih rest).1 hrest, rfl⟩
    · rintro ⟨d, rest, hd, hrest, rfl⟩
      exact ⟨d, hd, bind_eq_ok.2 ⟨rest, (ih rest).2 hrest, rfl⟩⟩

theorem messages_ok {settings : ReaderSettings} {layout : Layout} {j : Json} {ds : List DataSetMessage}
    (hsingle : layout.single = settings.network.contains NetworkMask.singleDataSetMessage)
    (h : messages settings layout j = .ok ds) :
    ∃ js, settings.network.listed? j = some js ∧
      List.Forall₂ (fun j d => dataSet settings layout.dataSetHeader j = .ok d) js ds := by
  unfold messages at h
  rw [NetworkMask.listed?, ← hsingle]
  split_ifs at h ⊢ with hs
  · obtain ⟨d, hd, rfl⟩ := map_eq_ok.1 h
    exact ⟨[j], rfl, List.Forall₂.cons hd List.Forall₂.nil⟩
  · split at h
    · next items => exact ⟨items, rfl, (dataSets_eq_ok ..).1 h⟩
    · simp [fail] at h

/-! ### Network messages -/

/-- an envelope, put together from the members of its object; a class id that is there is one -/
structure EnvelopeRead (settings : ReaderSettings) (ms : Json.Members) (m : NetworkMessage) : Prop where
  messageId : requiredString ms "MessageId" = .ok m.messageId
  publisherId : optString ms "PublisherId" = .ok m.publisherId
  dataSetClassId : ∃ text, optString ms "DataSetClassId" = .ok text ∧ text.isNone = m.dataSetClassId.isNone
  replyTo : optString ms "ReplyTo" = .ok m.replyTo
  messages : m.messages = []
  mask : m.mask = settings.network

theorem envelope_ok {settings : ReaderSettings} {ms : Json.Members} {m : NetworkMessage}
    (h : envelope settings ms = .ok m) : EnvelopeRead settings ms m := by
  obtain ⟨id, hid, hrest⟩ := bind_eq_ok.1 h
  obtain ⟨type, -, hrest⟩ := bind_eq_ok.1 hrest
  dsimp only at hrest
  split at hrest
  · simp [fail, bind, Except.bind] at hrest
  · obtain ⟨publisher, hpublisher, hrest⟩ := bind_eq_ok.1 hrest
    obtain ⟨text, htext, hrest⟩ := bind_eq_ok.1 hrest
    cases text with
    | none =>
      obtain ⟨classId, hclass, hrest⟩ := bind_eq_ok.1 hrest
      obtain ⟨replyTo, hreply, hrest⟩ := bind_eq_ok.1 hrest
      cases hclass
      cases hrest
      exact ⟨hid, hpublisher, ⟨none, htext, rfl⟩, hreply, rfl, rfl⟩
    | some s =>
      dsimp only at hrest
      split at hrest
      · obtain ⟨classId, hclass, hrest⟩ := bind_eq_ok.1 hrest
        obtain ⟨replyTo, hreply, hrest⟩ := bind_eq_ok.1 hrest
        cases hclass
        cases hrest
        exact ⟨hid, hpublisher, ⟨some s, htext, rfl⟩, hreply, rfl, rfl⟩
      · simp [fail, bind, Except.bind] at hrest

/-- a message before its dataset messages are read -/
def surround (settings : ReaderSettings) (j : Json) : Except Fault NetworkMessage :=
  if settings.network.contains NetworkMask.networkMessageHeader then object "network message" j >>= envelope settings
  else .ok { messageId := "", mask := settings.network }

/-- a network message is what surrounds its dataset messages, and one dataset message for each of the document's -/
theorem network_ok {settings : ReaderSettings} {j : Json} {m : NetworkMessage} (h : network settings j = .ok m) :
    ∃ base js, surround settings j = .ok base ∧ m = { base with messages := m.messages } ∧
      settings.network.dataSets? j = some js ∧ List.Forall₂ (fun j d =>
        dataSet settings (settings.network.contains NetworkMask.dataSetMessageHeader) j = .ok d) js m.messages := by
  unfold network at h
  unfold surround NetworkMask.dataSets?
  cases hn : settings.network.contains NetworkMask.networkMessageHeader with
  | true =>
    simp only [Layout.ofMask, hn, if_true] at h ⊢
    obtain ⟨ms, hms, hrest⟩ := bind_eq_ok.1 h
    obtain ⟨base, hbase, hrest⟩ := bind_eq_ok.1 hrest
    have hread : object "network message" j >>= envelope settings = .ok base := bind_eq_ok.2 ⟨ms, hms, hbase⟩
    rw [object_eq_ok] at hms
    subst hms
    cases hv : Json.value? ms "Messages" with
    | none =>
      rw [hv] at hrest
      cases hrest
      refine ⟨m, [], hread, rfl, by simp [Json.members?, hv], ?_⟩
      rw [(envelope_ok hbase).messages]
      exact List.Forall₂.nil
    | some v =>
      rw [hv] at hrest
      obtain ⟨ds, hds, hrest⟩ := bind_eq_ok.1 hrest
      cases hrest
      obtain ⟨js, hjs, hall⟩ := messages_ok rfl hds
      exact ⟨base, js, hread, rfl, by simp [Json.members?, hv, hjs], hall⟩
  | false =>
    cases hs : settings.network.contains NetworkMask.singleDataSetMessage with
    | true =>
      simp only [Layout.ofMask, hn, hs, Bool.false_eq_true, if_false, if_true] at h ⊢
      split at h
      · cases h
        exact ⟨_, [], rfl, rfl, rfl, List.Forall₂.nil⟩
      · next hne =>
        obtain ⟨ds, hds, hrest⟩ := bind_eq_ok.1 h
        cases hrest
        obtain ⟨js, hjs, hall⟩ := messages_ok hs.symm hds
        refine ⟨_, js, rfl, rfl, ?_, hall⟩
        split
        · exact absurd rfl hne
        · exact hjs
    | false =>
      simp only [Layout.ofMask, hn, hs, Bool.false_eq_true, if_false] at h ⊢
      obtain ⟨ds, hds, hrest⟩ := bind_eq_ok.1 h
      cases hrest
      obtain ⟨js, hjs, hall⟩ := messages_ok hs.symm hds
      exact ⟨_, js, rfl, rfl, hjs, hall⟩

theorem mask_of_surround {settings : ReaderSettings} {j : Json} {m : NetworkMessage}
    (h : surround settings j = .ok m) : m.mask = settings.network := by
  unfold surround at h
  split_ifs at h
  · obtain ⟨ms, -, henvelope⟩ := bind_eq_ok.1 h
    exact (envelope_ok henvelope).mask
  · cases h
    rfl

end Decoding

/-! ## What is accepted -/

/-- what holds of all elements of one list holds of all of another that corresponds to it -/
theorem forall_mem_iff {α β : Type} {R : α → β → Prop} {p : α → Prop} {q : β → Prop} {xs : List α} {ys : List β}
    (h : List.Forall₂ R xs ys) (hpq : ∀ x y, R x y → (p x ↔ q y)) : (∀ x ∈ xs, p x) ↔ ∀ y ∈ ys, q y := by
  induction h with
  | nil => simp
  | cons hxy _ ih => rw [List.forall_mem_cons, List.forall_mem_cons, hpq _ _ hxy, ih]

/-- a dataset message that was read from a document's: it has the names of that payload in their order, each once, and
well-formed values -/
structure DataSetMessage.ReadFrom (settings : ReaderSettings) (j : Json) (d : DataSetMessage) : Prop where
  read : Decoding.dataSet settings (settings.network.contains NetworkMask.dataSetMessageHeader) j = .ok d
  names : ∃ fields, j.payload? (settings.network.contains NetworkMask.dataSetMessageHeader) = some fields ∧
    d.payload.names = fields.map Prod.fst ∧ (fields.map Prod.fst).Nodup
  values : ∀ f ∈ d.payload.fields, f.2.value.WellFormed

theorem DataSetMessage.readFrom {settings : ReaderSettings} {j : Json} {d : DataSetMessage}
    (h : Decoding.dataSet settings (settings.network.contains NetworkMask.dataSetMessageHeader) j = .ok d) :
    d.ReadFrom settings j := by
  obtain ⟨ms, fields, base, -, hfields, -, -, hread⟩ := Decoding.dataSet_ok h
  have hnames : d.payload.names = fields.map Prod.fst := by
    have hsame : List.Forall₂ (fun f n => f.1 = n.1) d.payload.fields fields :=
      hread.flip.imp fun _ _ hmf => hmf.1.symm
    rw [Payload.names, ← List.forall₂_eq_eq_eq, List.forall₂_map_left_iff, List.forall₂_map_right_iff]
    exact hsame
  have hvalues : ∀ f ∈ d.payload.fields, f.2.value.WellFormed := by
    have heach := forall_mem_iff (p := fun _ => True) (q := fun f => f.2.value.WellFormed) hread
      fun m f hmf => iff_of_true trivial (Decoding.field_wellFormed hmf.2)
    exact heach.1 fun _ _ => trivial
  exact ⟨h, ⟨fields, hfields, hnames, hnames ▸ d.payload.unique⟩, hvalues⟩

namespace NetworkMask

theorem length_listed? {mask : NetworkMask} (hs : mask.contains NetworkMask.singleDataSetMessage = true) {j : Json}
    {js : List Json} (h : mask.listed? j = some js) : js.length ≤ 1 := by
  rw [listed?, if_pos hs, Option.some.injEq] at h
  simp [← h]

/-- single message mode finds at most one dataset message -/
theorem length_dataSets? {mask : NetworkMask} (hs : mask.contains NetworkMask.singleDataSetMessage = true) {j : Json}
    {js : List Json} (h : mask.dataSets? j = some js) : js.length ≤ 1 := by
  unfold dataSets? at h
  split_ifs at h with hn
  · obtain ⟨ms, -, h⟩ := Option.bind_eq_some_iff.1 h
    split at h
    · cases h
      simp
    · exact length_listed? hs h
  · split at h
    · cases h
      simp
    · exact length_listed? hs h

end NetworkMask

namespace NetworkMessage

theorem read_of_decode {settings : ReaderSettings} {text : String} {m : NetworkMessage}
    (h : decode settings text = .ok m) :
    ∃ j, Json.parseDocument text = .ok j ∧ Decoding.network settings j = .ok m :=
  bind_eq_ok.1 h

/-- **What is read is well formed**, whatever the text and the masks: one dataset message for each of the document's, in
order, at most one of them in single message mode, with names and values as `ReadFrom` says; and the message is valid,
so it can be written. -/
theorem decode_wellFormed {settings : ReaderSettings} {text : String} {m : NetworkMessage}
    (h : decode settings text = .ok m) :
    ∃ j js, Json.parseDocument text = .ok j ∧ settings.network.dataSets? j = some js ∧
      List.Forall₂ (DataSetMessage.ReadFrom settings) js m.messages ∧
      (settings.network.contains NetworkMask.singleDataSetMessage = true → m.messages.length ≤ 1) ∧
      m.validate = .ok () ∧ ∃ written, m.encode = .ok written := by
  obtain ⟨j, hj, hread⟩ := read_of_decode h
  obtain ⟨base, js, hbase, hm, hjs, hall⟩ := Decoding.network_ok hread
  have hmask : m.mask = settings.network := by
    have hbaseMask := Decoding.mask_of_surround hbase
    rw [hm]
    exact hbaseMask
  have hlength : settings.network.contains NetworkMask.singleDataSetMessage = true → m.messages.length ≤ 1 :=
    fun hs => hall.length_eq ▸ NetworkMask.length_dataSets? hs hjs
  have hvalid : m.validate = .ok () := by
    refine if_neg ?_
    rintro ⟨hs, hmany⟩
    have := hlength (hmask ▸ hs)
    omega
  exact ⟨j, js, hj, hjs, hall.imp fun _ _ => DataSetMessage.readFrom, hlength, hvalid, _, m.encode_of_validate hvalid⟩

/-- an envelope with two dataset messages, an array and a null among their bare values -/
def twoWriters : Json :=
  .object
    [("MessageId", .string "m-1"), ("MessageType", .string "ua-data"),
     ("Messages", .array
       [.object [("DataSetWriterId", .string "7"),
                 ("Payload", .object [("speeds", .array [.int 1200, .int 1180]), ("note", .null)])],
        .object [("DataSetWriterId", .int 8), ("Payload", .object [])]])]

/-- a reader of envelopes and dataset headers with bare values -/
def bareReader : ReaderSettings := { network := ⟨0x03⟩, field := FieldMask.rawData }

theorem readable_twoWriters : Json.Readable Json.maxDepth twoWriters where
  nesting := by decide
  plain := by simp [twoWriters, Json.AllAtoms, Json.AllAtomsItems, Json.AllAtomsMembers, Atom.Plain]
  unique := by decide

theorem decode_wellFormed_twoWriters :
    ∃ m, decode bareReader twoWriters.render = .ok m ∧ m.messages.length = 2 ∧
      ∃ j js, Json.parseDocument twoWriters.render = .ok j ∧ bareReader.network.dataSets? j = some js ∧
        List.Forall₂ (DataSetMessage.ReadFrom bareReader) js m.messages ∧ m.validate = .ok () ∧
        ∃ written, m.encode = .ok written := by
  have hparse := Json.parseDocument_render readable_twoWriters
  have hread : ∃ m, decode bareReader twoWriters.render = .ok m ∧ m.messages.length = 2 := by
    rw [decode, hparse]
    exact ⟨_, rfl, rfl⟩
  obtain ⟨m, hm, htwo⟩ := hread
  obtain ⟨j, js, hj, hjs, hall, -, hvalid, hwritten⟩ := decode_wellFormed hm
  exact ⟨m, hm, htwo, j, js, hj, hjs, hall, hvalid, hwritten⟩

end NetworkMessage

end OpcPubSub
