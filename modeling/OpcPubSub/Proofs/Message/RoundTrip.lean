/-
A message written and read back under its own masks.

The text of a message parses to its document if the values in it are exact: well formed, and without floating-point
numbers, whose text is a matter of its own (`readable_document`). What the reader makes of the document is known
(`Decoding.network_document`), so what it makes of the text is too (`decode_render`). Main result:
- `decode_written`: on a fresh writer of either form every valid message with exact values is written, and read as what
  the masks let a reader see of it; where values are bare, they are to be of types that are taken for themselves.
-/
import OpcPubSub.Proofs.Decoding.Messages
import OpcPubSub.Proofs.Encoding.WritesDocument
import OpcPubSub.Proofs.Json.ReadBack

namespace OpcPubSub

/-- every payload value has the property -/
def NetworkMessage.Each (p : Variant → Prop) (m : NetworkMessage) : Prop :=
  ∀ d ∈ m.messages, ∀ f ∈ d.payload.fields, p f.2.value

/-- well formed, and no floating-point number in it -/
def Variant.Exact (v : Variant) : Prop := v.WellFormed ∧ v.All Scalar.Exact

/-! ## Documents with exact values are readable -/

namespace Json

theorem plain_nat {n : Nat} (h : n < 2 ^ 64) : (Atom.int n).Plain := by
  constructor <;> omega

theorem readable_string {n : Nat} (s : String) : Readable n (.string s) := Readable.atom trivial

theorem readable_uint16 {n : Nat} (k : UInt16) : Readable n (.int k.toNat) :=
  Readable.atom (plain_nat (by have := k.toNat_lt; omega))

theorem readable_uint32 {n : Nat} (k : UInt32) : Readable n (.int k.toNat) :=
  Readable.atom (plain_nat (by have := k.toNat_lt; omega))

theorem readable_orNull {n : Nat} (o : Option String) : Readable n (orNull o) := by
  cases o <;> exact Readable.atom trivial

end Json

open Json (Readable)

theorem StatusCode.readable_json (c : StatusCode) (form : Bool) : Readable 1 (c.json form) := by
  cases form with
  | true => exact Json.readable_uint32 c.bits
  | false =>
    apply Readable.present (by simp)
    intro r hr j hj
    simp only [List.mem_cons, List.not_mem_nil, or_false] at hr
    rcases hr with rfl | rfl
    · simp only [Option.some.injEq] at hj
      subst hj
      exact Json.readable_uint32 c.bits
    · simp only [Option.map_eq_some_iff] at hj
      obtain ⟨s, -, rfl⟩ := hj
      exact Json.readable_string s

theorem ConfigurationVersion.readable_json (v : ConfigurationVersion) : Readable 1 v.json := by
  apply Readable.object (by simp)
  intro m hm
  simp only [List.mem_cons, List.not_mem_nil, or_false] at hm
  rcases hm with rfl | rfl
  · exact Json.readable_uint32 v.major
  · exact Json.readable_uint32 v.minor

theorem Scalar.readable_json {s : Scalar} (h : s.Exact) (form : Bool) : Readable 1 (s.json form) := by
  cases s with
  | float x => exact h.elim
  | double x => exact h.elim
  | boolean b => exact Readable.atom trivial
  | string s => exact Json.readable_string s
  | dateTime t => exact Json.readable_string _
  | guid g => exact Json.readable_string _
  | byteString bytes => exact Json.readable_string _
  | statusCode c => exact c.readable_json form
  | int k n =>
    rw [json]
    split
    · exact Json.readable_string _
    · exact Readable.atom n.bounds

theorem Variant.readable_body {v : Variant} (h : v.Exact) (form : Bool) : Readable 2 (v.body form) := by
  obtain ⟨hw, he⟩ := h
  cases v with
  | null => exact Readable.atom trivial
  | scalar s => exact (Scalar.readable_json he form).mono (by decide)
  | array elem items =>
    rw [body, bodies_eq_map]
    apply Readable.array
    intro j hj
    obtain ⟨v, hv, rfl⟩ := List.mem_map.1 hj
    obtain ⟨s, rfl, -⟩ := Decoding.eq_scalar_of_scalarType? (hw v hv)
    exact Scalar.readable_json (he s hv) form

theorem Variant.readable_json {v : Variant} (h : v.Exact) (form : Bool) : Readable 3 (v.json form) := by
  unfold json
  split
  · exact Readable.atom trivial
  · next type _ =>
    apply Readable.object (by simp)
    intro m hm
    simp only [List.mem_cons, List.not_mem_nil, or_false] at hm
    rcases hm with rfl | rfl
    · exact Readable.atom (Json.plain_nat (type.id_lt.trans (by decide)))
    · exact readable_body h true
  · exact (readable_body h false).mono (by decide)

theorem DataValue.readable_json {v : DataValue} (h : v.value.Exact) (form : Bool) : Readable 4 (v.json form) := by
  apply Readable.present (Decoding.nodup_rows v form)
  intro r hr j hj
  simp only [rows, List.mem_cons, List.not_mem_nil, or_false] at hr
  rcases hr with rfl | rfl | rfl | rfl | rfl | rfl
  · simp only [Option.some.injEq] at hj
    exact hj ▸ Variant.readable_json h form
  all_goals
    simp only [Option.map_eq_some_iff] at hj
    obtain ⟨x, -, rfl⟩ := hj
  · exact (x.readable_json form).mono (by decide)
  · exact Json.readable_string _
  · exact Json.readable_uint16 x
  · exact Json.readable_string _
  · exact Json.readable_uint16 x

theorem DataValue.readable_field? {mask : FieldMask} {v : DataValue} (h : v.value.Exact) {j : Json}
    (hj : v.field? mask = some j) : Readable 4 j := by
  rw [field?_eq] at hj
  cases hm : FieldEncoding.ofMask mask with
  | variant =>
    simp only [hm, Option.some.injEq] at hj
    exact hj ▸ (Variant.readable_json h true).mono (by decide)
  | rawData =>
    simp only [hm] at hj
    split_ifs at hj
    simp only [Option.some.injEq] at hj
    exact hj ▸ (Variant.readable_json h false).mono (by decide)
  | dataValue form =>
    simp only [hm, Option.some.injEq] at hj
    exact hj ▸ readable_json (v := v.filter mask) h form

theorem Payload.readable_members {mask : FieldMask} {p : Payload} (h : ∀ f ∈ p.fields, f.2.value.Exact) :
    Readable 5 (.object (p.members mask)) := by
  apply Readable.present (by simpa [Function.comp_def] using p.unique)
  intro r hr j hj
  obtain ⟨f, hf, rfl⟩ := List.mem_map.1 hr
  exact DataValue.readable_field? (h f hf) hj

theorem HeaderField.readable_json? {form : Bool} {m : DataSetMessage} {f : HeaderField} {j : Json}
    (hj : f.json? form m = some j) : Readable 1 j := by
  have hvalue : Readable 1 (f.value form m) := by
    cases f with
    | writerId => exact Json.readable_string _
    | writerName => exact Json.readable_orNull _
    | sequenceNumber => exact Json.readable_uint32 _
    | metaDataVersion => exact m.version.readable_json
    | timestamp => exact Json.readable_string _
    | status => exact m.status.readable_json form
    | messageType => exact Json.readable_string _
  have hsubstitute : Readable 1 (f.substitute form) := by
    cases f with
    | sequenceNumber => exact Json.readable_uint32 0
    | timestamp => exact Json.readable_string _
    | status => exact StatusCode.good.readable_json form
    | writerId => exact Readable.atom trivial
    | writerName => exact Readable.atom trivial
    | metaDataVersion => exact Readable.atom trivial
    | messageType => exact Readable.atom trivial
  rw [json?_eq] at hj
  split at hj
  · simp only [Option.some.injEq] at hj
    exact hj ▸ hvalue
  · simp only [Option.some.injEq] at hj
    exact hj ▸ hsubstitute
  · simp at hj

theorem DataSetMessage.readable_json {m : DataSetMessage} (h : ∀ f ∈ m.payload.fields, f.2.value.Exact)
    (form withHeader : Bool) : Readable 6 (m.json form withHeader) := by
  cases withHeader with
  | false => exact (Payload.readable_members h).mono (by decide)
  | true =>
    apply Readable.present (Decoding.nodup_header m form)
    intro r hr j hj
    rw [rows_eq, List.mem_append, List.mem_map, List.mem_singleton] at hr
    rcases hr with ⟨f, -, rfl⟩ | rfl
    · exact (HeaderField.readable_json? hj).mono (by decide)
    · simp only [Option.some.injEq] at hj
      exact hj ▸ Payload.readable_members h

namespace NetworkMessage

theorem readable_inner? {m : NetworkMessage} (h : m.Each Variant.Exact) {form : Bool} {j : Json}
    (hj : m.inner? form = some j) : Readable 7 j := by
  unfold inner? at hj
  cases hm : m.messages with
  | nil => simp [hm] at hj
  | cons d rest =>
    have hd : ∀ e ∈ m.messages, ∀ withHeader, Readable 6 (e.json form withHeader) :=
      fun e he withHeader => DataSetMessage.readable_json (h e he) form withHeader
    rw [hm] at hj hd
    simp only at hj
    split_ifs at hj
    · simp only [Option.some.injEq] at hj
      exact hj ▸ (hd d List.mem_cons_self _).mono (by decide)
    · simp only [Option.some.injEq] at hj
      subst hj
      apply Readable.array
      intro j hj
      obtain ⟨e, he, rfl⟩ := List.mem_map.1 hj
      exact hd e he _

/-- **Documents with exact values are readable**: eight containers deep at most, no name twice -/
theorem readable_document {m : NetworkMessage} (h : m.Each Variant.Exact) (form : Bool) :
    Readable 8 (m.document form) := by
  have hd : ∀ e ∈ m.messages, ∀ withHeader, Readable 6 (e.json form withHeader) :=
    fun e he withHeader => DataSetMessage.readable_json (h e he) form withHeader
  unfold document
  split
  · apply Readable.present (Decoding.nodup_envelope m form)
    intro r hr j hj
    simp only [rows, List.mem_cons, List.not_mem_nil, or_false] at hr
    rcases hr with rfl | rfl | rfl | rfl | rfl | rfl
    all_goals simp only [Option.some.injEq] at hj
    · exact hj ▸ Json.readable_string _
    · exact hj ▸ Json.readable_string _
    · exact hj ▸ Json.readable_orNull _
    · exact hj ▸ Json.readable_orNull _
    · exact hj ▸ Json.readable_orNull _
    · exact readable_inner? h hj
  · have harray : Readable 7 (.array (m.messages.map (DataSetMessage.json form
        (m.mask.contains NetworkMask.dataSetMessageHeader)))) := by
      apply Readable.array
      intro j hj
      obtain ⟨e, he, rfl⟩ := List.mem_map.1 hj
      exact hd e he _
    exact harray.mono (by decide)
  · split
    · exact (Readable.object (n := 7) List.nodup_nil (by simp))
    · next d rest hm =>
      rw [hm] at hd
      exact (hd d List.mem_cons_self _).mono (by decide)

/-! ## Reading what was written -/

/-- **The text of a message is read** as its document is -/
theorem decode_render {settings : ReaderSettings} {m : NetworkMessage} (hvalid : m.validate = .ok ())
    (hn : settings.network = m.mask)
    (hd : ∀ d ∈ m.messages, settings.dataSet = d.mask ∧ settings.field = d.fieldMask) (hexact : m.Each Variant.Exact)
    (form : Bool) (n : NetworkMessage) : decode settings (m.document form).render = .ok n ↔ m.ReadAs n := by
  have hparse := Json.parseDocument_render ((readable_document hexact form).mono (by decide))
  rw [decode, hparse, ← Decoding.network_document hvalid hn hd form]
  rfl

end NetworkMessage

/-- a payload comes back as it is visible, if each value is taken for itself -/
theorem Payload.readAs_visible {mask : FieldMask} {p : Payload}
    (h : ∀ f ∈ p.fields, Decoding.variant (FieldEncoding.ofMask mask).typed
      (f.2.value.json (FieldEncoding.ofMask mask).typed) = .ok f.2.value) : p.ReadAs mask (p.visible mask) := by
  simp only [ReadAs, members, visible, visibleFields]
  generalize p.fields = fields at h ⊢
  induction fields with
  | nil => exact List.Forall₂.nil
  | cons f fields ih =>
    have hf := h f List.mem_cons_self
    have hrest := ih fun g hg => h g (List.mem_cons_of_mem _ hg)
    have hsome := DataValue.visible?_isSome mask f.2
    rw [List.map_cons, Json.present_cons, List.filterMap_cons]
    cases hj : f.2.field? mask with
    | none =>
      cases hu : f.2.visible? mask with
      | none => exact hrest
      | some u => simp [hj, hu] at hsome
    | some j =>
      cases hu : f.2.visible? mask with
      | none => simp [hj, hu] at hsome
      | some u =>
        refine List.Forall₂.cons ⟨rfl, ?_⟩ hrest
        rw [Decoding.field_json hu hj, hf, ← DataValue.value_of_visible? hu]
        rfl

namespace NetworkMessage

theorem readAs_received {m : NetworkMessage}
    (h : ∀ d ∈ m.messages, d.payload.ReadAs d.fieldMask (d.payload.visible d.fieldMask)) : m.ReadAs m.received := by
  unfold received
  cases hv : m.vanishes with
  | true => exact (readAs_iff_of_vanishes hv).2 rfl
  | false =>
    refine (readAs_iff hv).2 ⟨_, ?_, rfl⟩
    rw [List.forall₂_map_right_iff]
    exact List.forall₂_same.2 fun d hd => ⟨_, h d hd, rfl⟩

/-- a valid message is written by a writer of either form, as its document -/
theorem written {m : NetworkMessage} (hvalid : m.validate = .ok ()) (form : Bool) :
    ∃ w, Write.network m { reversible := form } = .ok () w ∧ w.finish = .ok (m.document form).render :=
  have hwrites : Write.Writes form (Write.network m) none (m.document form) := Write.writes_network m hvalid
  hwrites.finish

/-- **A message comes back as far as its masks show it.** Whatever the masks, unknown bits included: if the message is
valid, its dataset messages share the masks that the reader is set up with, its values are exact and, where values are
bare, of inferred types, then a fresh writer of either form writes it, and the reader makes `received` of the text. -/
theorem decode_written {m : NetworkMessage} {dataSet : DataSetMask} {field : FieldMask}
    (hvalid : m.validate = .ok ()) (hmasks : ∀ d ∈ m.messages, d.mask = dataSet ∧ d.fieldMask = field)
    (hexact : m.Each Variant.Exact) (hinferred : (FieldEncoding.ofMask field).typed = false → m.Each Variant.Inferred)
    (form : Bool) :
    ∃ w text, Write.network m { reversible := form } = .ok () w ∧ w.finish = .ok text ∧
      decode { network := m.mask, dataSet, field } text = .ok m.received := by
  obtain ⟨w, hw, hfinish⟩ := written hvalid form
  refine ⟨w, _, hw, hfinish, ?_⟩
  rw [decode_render hvalid rfl (fun d hd => ⟨(hmasks d hd).1.symm, (hmasks d hd).2.symm⟩) hexact]
  apply readAs_received
  intro d hd
  apply Payload.readAs_visible
  intro f hf
  obtain ⟨hw, he⟩ := hexact d hd f hf
  rw [(hmasks d hd).2]
  cases htyped : (FieldEncoding.ofMask field).typed with
  | true => exact Decoding.reversible_json hw he
  | false => exact Decoding.bare_json_inferred hw (hinferred htyped d hd f hf)

/-- a message with an envelope and bare values, one of them null -/
def reading : NetworkMessage where
  messageId := "m-1"
  publisherId := some "press"
  messages :=
    [{ writerId := 7,
       sequenceNumber := 3,
       payload := { fields := [("rpm", .plain (.scalar (.int .int32 ⟨1200, by decide, by decide⟩))),
                               ("note", .plain .null)] },
       mask := DataSetMask.sequenceNumber,
       fieldMask := FieldMask.rawData }]
  mask := ⟨0x0B⟩

theorem decode_written_reading :
    reading.validate = .ok () ∧ (FieldEncoding.ofMask FieldMask.rawData).typed = false ∧
      ∃ w text, Write.network reading {} = .ok () w ∧ w.finish = .ok text ∧
        decode { network := reading.mask, dataSet := DataSetMask.sequenceNumber, field := FieldMask.rawData } text =
          .ok reading.received := by
  have hvalid : reading.validate = .ok () := by rfl
  have heach : ∀ p : Variant → Prop, p (.scalar (.int .int32 ⟨1200, by decide, by decide⟩)) → p .null →
      reading.Each p := by
    intro p hnumber hnull d hd f hf
    rw [reading, List.mem_singleton] at hd
    subst hd
    simp only [List.mem_cons, List.not_mem_nil, or_false] at hf
    rcases hf with rfl | rfl
    · exact hnumber
    · exact hnull
  refine ⟨hvalid, by decide, decode_written hvalid ?_ ?_ ?_ true⟩
  · simp [reading]
  · exact heach _ ⟨trivial, trivial⟩ ⟨trivial, trivial⟩
  · exact fun _ => heach _ (Or.inr (Or.inl rfl)) trivial

/-- what is visible does not always come back: an empty object at the root stands for no dataset message -/
theorem not_decode_visible :
    ¬ ∀ (m : NetworkMessage) (dataSet : DataSetMask) (field : FieldMask), m.validate = .ok () →
      (∀ d ∈ m.messages, d.mask = dataSet ∧ d.fieldMask = field) → m.Each Variant.Exact →
      ((FieldEncoding.ofMask field).typed = false → m.Each Variant.Inferred) →
      ∀ form, ∃ w text, Write.network m { reversible := form } = .ok () w ∧ w.finish = .ok text ∧
        decode { network := m.mask, dataSet, field } text = .ok m.visible := by
  intro h
  let alone : NetworkMessage := { messageId := "", messages := [{ writerId := 0, payload := .empty }],
                                  mask := NetworkMask.singleDataSetMessage }
  have hvalid : alone.validate = .ok () := if_neg (by decide)
  have htyped : (FieldEncoding.ofMask .empty).typed ≠ false := by decide
  have hmasks : ∀ d ∈ alone.messages, d.mask = .empty ∧ d.fieldMask = .empty := by simp [alone]
  have hexact : alone.Each Variant.Exact := by simp [Each, alone, Payload.empty]
  obtain ⟨w, text, hw, hfinish, hdecode⟩ := h alone .empty .empty hvalid hmasks hexact
    (fun hbare => absurd hbare htyped) true
  obtain ⟨w', hw', hfinish'⟩ := written hvalid true
  rw [hw', EStateM.Result.ok.injEq] at hw
  rw [← hw.2, hfinish', Except.ok.injEq] at hfinish
  rw [← hfinish, decode_render hvalid rfl (fun d hd => ⟨(hmasks d hd).1.symm, (hmasks d hd).2.symm⟩) hexact,
    readAs_iff_of_vanishes (by decide)] at hdecode
  have hmessages := congrArg NetworkMessage.messages hdecode
  simp [visible, alone] at hmessages

end NetworkMessage

end OpcPubSub
