/-
What a reader's masks switch off, in a message that is read.

A message is quiet if everything that the masks switch off is empty in it: in its envelope, in the headers of its
dataset messages, and in the attributes of its values. Of the three readers one alone looks at the masks: header
attributes that are switched off have their defaults, whatever the text says. Envelope and values hold what stands in
the text. Main results:
- `decode_quiet_iff`: the headers are quiet always; the envelope is iff the document names nothing there that is
  switched off, and the values are iff it names none of their attributes that is.
- `not_decode_quiet`: so a text can give a message a publisher id that the masks switch off.
-/
import OpcPubSub.Proofs.Decoding.Accepted

namespace OpcPubSub

/-! ## Messages that are quiet -/

/-- no attribute but those that the mask asks for -/
structure DataValue.Quiet (mask : FieldMask) (v : DataValue) : Prop where
  status : mask.asks FieldMask.statusCode = false → v.status = none
  sourceTimestamp : mask.asks FieldMask.sourceTimestamp = false → v.sourceTimestamp = none
  sourcePicoseconds : mask.asks FieldMask.sourcePicoSeconds = false → v.sourcePicoseconds = none
  serverTimestamp : mask.asks FieldMask.serverTimestamp = false → v.serverTimestamp = none
  serverPicoseconds : mask.asks FieldMask.serverPicoSeconds = false → v.serverPicoseconds = none

namespace ReaderSettings

/-- an attribute of the envelope is switched on: there is an envelope, and the flag is set -/
def envelopeHas (settings : ReaderSettings) (flag : NetworkMask) : Bool :=
  settings.network.contains NetworkMask.networkMessageHeader && settings.network.contains flag

/-- an attribute of dataset headers is switched on: there are such headers, and the flag is set -/
def headerHas (settings : ReaderSettings) (flag : DataSetMask) : Bool :=
  settings.network.contains NetworkMask.dataSetMessageHeader && settings.dataSet.contains flag

end ReaderSettings

namespace DataSetMessage

/-- a dataset message of which nothing was said -/
def unsaid : DataSetMessage := { writerId := 0, payload := .empty }

/-- no header attribute but those that are switched on; the others have their defaults -/
structure Quiet (settings : ReaderSettings) (d : DataSetMessage) : Prop where
  writerName : settings.headerHas DataSetMask.dataSetWriterName = false → d.writerName = unsaid.writerName
  sequenceNumber : settings.headerHas DataSetMask.sequenceNumber = false → d.sequenceNumber = unsaid.sequenceNumber
  version : settings.headerHas DataSetMask.metaDataVersion = false → d.version = unsaid.version
  timestamp : settings.headerHas DataSetMask.timestamp = false → d.timestamp = unsaid.timestamp
  status : settings.headerHas DataSetMask.status = false → d.status = unsaid.status
  kind : settings.headerHas DataSetMask.messageType = false → d.kind = unsaid.kind

end DataSetMessage

namespace NetworkMessage

/-- no attribute of the envelope but those that are switched on -/
structure EnvelopeQuiet (settings : ReaderSettings) (m : NetworkMessage) : Prop where
  publisherId : settings.envelopeHas NetworkMask.publisherId = false → m.publisherId = none
  dataSetClassId : settings.envelopeHas NetworkMask.dataSetClassId = false → m.dataSetClassId = none
  replyTo : settings.envelopeHas NetworkMask.replyTo = false → m.replyTo = none

/-- everything that is switched off is empty -/
structure Quiet (settings : ReaderSettings) (m : NetworkMessage) : Prop where
  envelope : m.EnvelopeQuiet settings
  headers : ∀ d ∈ m.messages, d.Quiet settings
  values : ∀ d ∈ m.messages, ∀ f ∈ d.payload.fields, f.2.Quiet settings.field

end NetworkMessage

/-! ## Documents that are silent -/

/-- the attributes of values and their flags -/
def FieldMask.attributes : List (String × FieldMask) :=
  [("Status", statusCode), ("SourceTimestamp", sourceTimestamp), ("SourcePicoseconds", sourcePicoSeconds),
   ("ServerTimestamp", serverTimestamp), ("ServerPicoseconds", serverPicoSeconds)]

/-- the attributes of the envelope that have flags -/
def NetworkMask.attributes : List (String × NetworkMask) :=
  [("PublisherId", publisherId), ("DataSetClassId", dataSetClassId), ("ReplyTo", replyTo)]

namespace Json

/-- a value shown with attributes names none that is switched off -/
def SilentValue (mask : FieldMask) (j : Json) : Prop :=
  ∀ form ms, FieldEncoding.ofMask mask = .dataValue form → j = .object ms →
    ∀ a ∈ FieldMask.attributes, mask.contains a.2 = false → member? ms a.1 = none

/-- an envelope names no attribute that is switched off, or says that it is null -/
def SilentEnvelope (mask : NetworkMask) (j : Json) : Prop :=
  ∀ ms, mask.contains NetworkMask.networkMessageHeader = true → j = .object ms →
    ∀ a ∈ NetworkMask.attributes, mask.contains a.2 = false → value? ms a.1 = none

end Json

namespace Decoding

/-! ## What is empty after reading -/

theorem eq_none_iff_of_optional {α : Type} {ms : Json.Members} {name : String} {read : Json → Except Fault α}
    {o : Option α} (h : optional ms name read = .ok o) : o = none ↔ Json.member? ms name = none := by
  unfold optional at h
  split at h
  · next hm =>
    cases h
    simp [hm]
  · next j hm =>
    obtain ⟨x, -, rfl⟩ := map_eq_ok.1 h
    simp [hm]

theorem eq_none_iff_of_optString {ms : Json.Members} {name : String} {o : Option String}
    (h : optString ms name = .ok o) : o = none ↔ Json.value? ms name = none := by
  unfold optString at h
  unfold Json.value?
  split at h
  · next hm =>
    cases h
    simp [hm]
  · next hm =>
    cases h
    simp [hm]
  · next s hm =>
    cases h
    simp [hm]
  · simp [fail] at h
  · next number hnull _ _ hm =>
    cases h
    rw [hm]
    cases number with
    | null => exact absurd rfl hnull
    | _ => simp
  · simp [fail] at h

/-- **A header attribute that is switched off** has its default, whatever stands in its place -/
theorem headerValue_off {α : Type} {mask flag : DataSetMask} {ms : Json.Members} {name : String} {default x : α}
    {read : Json → Except Fault α} (h : headerValue mask flag ms name default read = .ok x)
    (hoff : mask.contains flag = false) : x = default := by
  unfold headerValue at h
  split at h
  · rw [hoff] at h
    cases h
    rfl
  · cases h
    rfl

theorem HeaderRead.quiet {settings : ReaderSettings} {ms : Json.Members} {d : DataSetMessage}
    (h : HeaderRead settings ms d) (hheader : settings.network.contains NetworkMask.dataSetMessageHeader = true) :
    d.Quiet settings := by
  have hoff : ∀ {flag}, settings.headerHas flag = false → settings.dataSet.contains flag = false := by
    intro flag hflag
    simpa [ReaderSettings.headerHas, hheader] using hflag
  refine ⟨fun hflag => ?_, fun hflag => headerValue_off h.sequenceNumber (hoff hflag),
    fun hflag => headerValue_off h.version (hoff hflag), fun hflag => headerValue_off h.timestamp (hoff hflag),
    fun hflag => headerValue_off h.status (hoff hflag), fun hflag => headerValue_off h.kind (hoff hflag)⟩
  have hname := h.writerName
  rw [hoff hflag, if_neg Bool.false_ne_true, Except.ok.injEq] at hname
  exact hname.symm

theorem dataSet_quiet {settings : ReaderSettings} {j : Json} {d : DataSetMessage}
    (h : dataSet settings (settings.network.contains NetworkMask.dataSetMessageHeader) j = .ok d) :
    d.Quiet settings := by
  obtain ⟨ms, fields, base, -, -, hbase, hd, -⟩ := dataSet_ok h
  have hquiet : base.Quiet settings := by
    unfold preamble at hbase
    cases hheader : settings.network.contains NetworkMask.dataSetMessageHeader with
    | true =>
      rw [hheader] at hbase
      exact (header_ok hbase).quiet hheader
    | false =>
      rw [hheader] at hbase
      cases hbase
      exact ⟨fun _ => rfl, fun _ => rfl, fun _ => rfl, fun _ => rfl, fun _ => rfl, fun _ => rfl⟩
  rw [hd]
  exact ⟨hquiet.writerName, hquiet.sequenceNumber, hquiet.version, hquiet.timestamp, hquiet.status, hquiet.kind⟩

theorem plain_quiet (mask : FieldMask) (v : Variant) : (DataValue.plain v).Quiet mask :=
  ⟨fun _ => rfl, fun _ => rfl, fun _ => rfl, fun _ => rfl, fun _ => rfl⟩

/-- a value read with attributes has those that its object names -/
theorem ValueRead.quiet_iff {mask : FieldMask} {form : Bool} {ms : Json.Members} {v : DataValue}
    (h : ValueRead form ms v) (hm : FieldEncoding.ofMask mask = .dataValue form) :
    v.Quiet mask ↔ ∀ a ∈ FieldMask.attributes, mask.contains a.2 = false → Json.member? ms a.1 = none := by
  have hasks : ∀ flag, mask.asks flag = mask.contains flag := fun flag => by rw [FieldMask.asks_eq, hm]
  simp only [FieldMask.attributes, List.forall_mem_cons, ← eq_none_iff_of_optional h.status,
    ← eq_none_iff_of_optional h.sourceTimestamp, ← eq_none_iff_of_optional h.sourcePicoseconds,
    ← eq_none_iff_of_optional h.serverTimestamp, ← eq_none_iff_of_optional h.serverPicoseconds, ← hasks]
  constructor
  · intro hq
    exact ⟨hq.status, hq.sourceTimestamp, hq.sourcePicoseconds, hq.serverTimestamp, hq.serverPicoseconds, by simp⟩
  · rintro ⟨hstatus, hsource, hsourcePico, hserver, hserverPico, -⟩
    exact ⟨hstatus, hsource, hsourcePico, hserver, hserverPico⟩

/-- **A value** that is read is quiet iff what it is read from is silent -/
theorem field_quiet_iff {mask : FieldMask} {j : Json} {v : DataValue} (h : field mask j = .ok v) :
    v.Quiet mask ↔ j.SilentValue mask := by
  have hread := field_ok h
  cases hm : FieldEncoding.ofMask mask with
  | variant =>
    rw [hm] at hread
    obtain ⟨w, -, rfl⟩ := hread
    exact iff_of_true (plain_quiet mask w) (by simp [Json.SilentValue, hm])
  | rawData =>
    rw [hm] at hread
    obtain ⟨w, -, rfl⟩ := hread
    exact iff_of_true (plain_quiet mask w) (by simp [Json.SilentValue, hm])
  | dataValue form =>
    rw [hm] at hread
    obtain ⟨ms, rfl, hread⟩ := hread
    rw [hread.quiet_iff hm]
    simp [Json.SilentValue, hm]

/-- **The surroundings** of the dataset messages are quiet iff the document is silent there -/
theorem surround_quiet_iff {settings : ReaderSettings} {j : Json} {m : NetworkMessage}
    (h : surround settings j = .ok m) : m.EnvelopeQuiet settings ↔ j.SilentEnvelope settings.network := by
  unfold surround at h
  cases hn : settings.network.contains NetworkMask.networkMessageHeader with
  | true =>
    rw [if_pos hn] at h
    obtain ⟨ms, hms, henvelope⟩ := bind_eq_ok.1 h
    rw [object_eq_ok] at hms
    subst hms
    have hread := envelope_ok henvelope
    obtain ⟨text, htext, hnone⟩ := hread.dataSetClassId
    have hclass : m.dataSetClassId = none ↔ Json.value? ms "DataSetClassId" = none := by
      rw [← eq_none_iff_of_optString htext, ← Option.isNone_iff_eq_none, ← hnone, Option.isNone_iff_eq_none]
    have hhas : ∀ flag, settings.envelopeHas flag = settings.network.contains flag := by
      simp [ReaderSettings.envelopeHas, hn]
    have hsilent : (Json.object ms).SilentEnvelope settings.network ↔
        ∀ a ∈ NetworkMask.attributes, settings.network.contains a.2 = false → Json.value? ms a.1 = none := by
      simp [Json.SilentEnvelope, hn]
    simp only [hsilent, NetworkMask.attributes, List.forall_mem_cons, ← eq_none_iff_of_optString hread.publisherId,
      ← hclass, ← eq_none_iff_of_optString hread.replyTo, ← hhas]
    constructor
    · intro hq
      exact ⟨hq.publisherId, hq.dataSetClassId, hq.replyTo, by simp⟩
    · rintro ⟨hpublisher, hclassId, hreply, -⟩
      exact ⟨hpublisher, hclassId, hreply⟩
  | false =>
    rw [if_neg (by simp [hn])] at h
    cases h
    exact iff_of_true ⟨fun _ => rfl, fun _ => rfl, fun _ => rfl⟩ (by simp [Json.SilentEnvelope, hn])

/-- the values of a dataset message are quiet iff the document is silent in its payload -/
theorem dataSet_values_quiet_iff {settings : ReaderSettings} {withHeader : Bool} {j : Json} {d : DataSetMessage}
    (h : dataSet settings withHeader j = .ok d) :
    (∀ f ∈ d.payload.fields, f.2.Quiet settings.field) ↔
      ∀ fields, j.payload? withHeader = some fields → ∀ a ∈ fields, a.2.SilentValue settings.field := by
  obtain ⟨ms, fields, base, -, hfields, -, -, hread⟩ := dataSet_ok h
  have hsilent : (∀ a ∈ fields, a.2.SilentValue settings.field) ↔
      ∀ f ∈ d.payload.fields, f.2.Quiet settings.field :=
    forall_mem_iff hread fun a f haf => (field_quiet_iff haf.2).symm
  rw [← hsilent, hfields]
  simp

end Decoding

namespace NetworkMessage

/-- **What is quiet in a message that is read.** Whatever the text and the masks, header attributes that are switched
off have their defaults. The envelope is quiet iff the document names nothing there that is switched off, which holds
where there is no envelope; the values are iff the document names no attribute of theirs that is switched off, which
holds where values are shown without attributes. -/
theorem decode_quiet_iff {settings : ReaderSettings} {text : String} {m : NetworkMessage}
    (h : decode settings text = .ok m) :
    ∃ j js, Json.parseDocument text = .ok j ∧ settings.network.dataSets? j = some js ∧
      (∀ d ∈ m.messages, d.Quiet settings) ∧
      (m.EnvelopeQuiet settings ↔ j.SilentEnvelope settings.network) ∧
      ((∀ d ∈ m.messages, ∀ f ∈ d.payload.fields, f.2.Quiet settings.field) ↔
        ∀ d ∈ js, ∀ fields, d.payload? (settings.network.contains NetworkMask.dataSetMessageHeader) = some fields →
          ∀ a ∈ fields, a.2.SilentValue settings.field) := by
  obtain ⟨j, hj, hread⟩ := read_of_decode h
  obtain ⟨base, js, hbase, hm, hjs, hall⟩ := Decoding.network_ok hread
  have hheaders := forall_mem_iff (p := fun _ => True) (q := DataSetMessage.Quiet settings) hall
    fun _ _ hd => iff_of_true trivial (Decoding.dataSet_quiet hd)
  have henvelope : m.EnvelopeQuiet settings ↔ base.EnvelopeQuiet settings := by
    rw [hm]
    exact ⟨fun hq => ⟨hq.publisherId, hq.dataSetClassId, hq.replyTo⟩,
      fun hq => ⟨hq.publisherId, hq.dataSetClassId, hq.replyTo⟩⟩
  exact ⟨j, js, hj, hjs, hheaders.1 fun _ _ => trivial, henvelope.trans (Decoding.surround_quiet_iff hbase),
    (forall_mem_iff hall fun _ _ hd => (Decoding.dataSet_values_quiet_iff hd).symm).symm⟩

/-- a reading with a status, and a sequence number that its reader does not ask for -/
def numberedReading : Json :=
  .object
    [("MessageId", .string "m-1"), ("MessageType", .string "ua-data"), ("PublisherId", .string "p"),
     ("Messages", .array
       [.object [("DataSetWriterId", .string "7"), ("SequenceNumber", .int 5),
                 ("Payload", .object [("speed", .object [("Value", .int 1200), ("Status", .int 0)])])]])]

/-- a reader of publisher ids and of values with their status -/
def statusReader : ReaderSettings := { network := ⟨0x0b⟩, field := FieldMask.statusCode }

theorem readable_numberedReading : Json.Readable Json.maxDepth numberedReading where
  nesting := by decide
  plain := by simp [numberedReading, Json.AllAtoms, Json.AllAtomsItems, Json.AllAtomsMembers, Atom.Plain]
  unique := by decide

theorem decode_quiet_iff_numberedReading :
    ∃ m, decode statusReader numberedReading.render = .ok m ∧ m.messages.length = 1 ∧ m.Quiet statusReader := by
  have hparse := Json.parseDocument_render readable_numberedReading
  have hread : ∃ m, decode statusReader numberedReading.render = .ok m ∧ m.messages.length = 1 := by
    rw [decode, hparse]
    exact ⟨_, rfl, rfl⟩
  obtain ⟨m, hm, hone⟩ := hread
  obtain ⟨j, js, hj, hjs, hheaders, henvelope, hvalues⟩ := decode_quiet_iff hm
  obtain rfl : numberedReading = j := Except.ok.inj (hparse.symm.trans hj)
  cases hjs
  refine ⟨m, hm, hone, henvelope.2 ?_, hheaders, hvalues.2 ?_⟩
  · rintro ms - hms
    cases hms
    decide
  · simp only [List.forall_mem_singleton]
    rintro fields hfields
    cases hfields
    simp only [List.forall_mem_singleton]
    rintro form ms - hms
    cases hms
    decide

/-- an envelope with a publisher id and no dataset messages -/
def namedEnvelope : Json :=
  .object [("MessageId", .string ""), ("MessageType", .string "ua-data"), ("PublisherId", .string "p")]

/-- **Not every message that is read is quiet.** A reader that did not ask for publisher ids gets the one that stands in
the envelope. -/
theorem not_decode_quiet : ¬ ∀ settings text m, decode settings text = .ok m → m.Quiet settings := by
  intro h
  have hread : decode { network := NetworkMask.networkMessageHeader } namedEnvelope.render =
      .ok { mask := NetworkMask.networkMessageHeader, messageId := "", publisherId := some "p" } := by
    have hreadable : Json.Readable Json.maxDepth namedEnvelope :=
      ⟨by decide, by simp [namedEnvelope, Json.AllAtoms, Json.AllAtomsMembers, Atom.Plain], by decide⟩
    rw [decode, Json.parseDocument_render hreadable]
    rfl
  exact Option.some_ne_none _ ((h _ _ _ hread).envelope.publisherId (by decide))

end NetworkMessage

end OpcPubSub
