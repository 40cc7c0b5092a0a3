/-
A message that was read, written again.

What a reader makes of a value is written as the value was, or it is not: values with their type come back, and bare
ones are taken for a type that is written alike, but for numbers beyond Int32, which are taken for 64-bit integers and
those are written as strings. So a document is written again as it was iff its values carry their type or no number in
it is such a one. The test is on the message alone, since everything else in it is visible or not in the document.
Main result:
- `encode_read_eq_iff`: the text of a message that was read is the text it was read from iff that test is passed.
-/
import OpcPubSub.Proofs.Message.RoundTrip

namespace OpcPubSub

/-- written again as it was -/
def Variant.Stable (mask : FieldMask) (v : Variant) : Prop :=
  (FieldEncoding.ofMask mask).typed = true ∨ v.All Scalar.Narrow

/-! ## Values -/

theorem DataValue.json_eq_iff (form : Bool) (u : DataValue) (w : Variant) :
    ({ u with value := w } : DataValue).json form = u.json form ↔ w.json form = u.value.json form := by
  simp [json, rows, Json.present]

/-- the value that is read in place of another is shown as that one iff the variants are -/
theorem DataValue.field?_eq_iff {mask : FieldMask} {v u : DataValue} {j : Json} (hu : v.visible? mask = some u)
    (hj : v.field? mask = some j) {w : Variant} (hnull : w.isNull = v.value.isNull) :
    ∃ k, ({ u with value := w } : DataValue).field? mask = some k ∧
      (k = j ↔ w.json (FieldEncoding.ofMask mask).typed = v.value.json (FieldEncoding.ofMask mask).typed) := by
  rw [visible?_eq] at hu
  rw [field?_eq] at hj ⊢
  cases hm : FieldEncoding.ofMask mask with
  | variant =>
    simp only [hm, Option.some.injEq] at hu hj ⊢
    subst hu hj
    exact ⟨_, rfl, Iff.rfl⟩
  | rawData =>
    rw [hm] at hu hj
    cases hn : v.value.isNull with
    | true => simp [hn] at hu
    | false =>
      simp only [hn, Bool.false_eq_true, if_false, Option.some.injEq] at hu hj
      subst hu hj
      rw [hn] at hnull
      exact ⟨w.json false, by simp [hnull], Iff.rfl⟩
  | dataValue form =>
    simp only [hm, Option.some.injEq] at hu hj ⊢
    subst hu hj
    refine ⟨_, rfl, ?_⟩
    have hfilter : ({ v.filter mask with value := w } : DataValue).filter mask = { v.filter mask with value := w } := by
      simp [filter, Option.filter_filter]
    rw [hfilter]
    exact json_eq_iff form (v.filter mask) w

/-- **One value** that is read is exact, and is shown again as it was iff it is stable -/
theorem DataValue.again {mask : FieldMask} {v u : DataValue} {j : Json} (hexact : v.value.Exact)
    (hu : v.visible? mask = some u) (hj : v.field? mask = some j) {n : DataValue}
    (hn : Decoding.field mask j = .ok n) :
    n.value.Exact ∧ ∃ k, n.field? mask = some k ∧ (k = j ↔ v.value.Stable mask) := by
  rw [Decoding.field_json hu hj, map_eq_ok] at hn
  obtain ⟨w, hw, rfl⟩ := hn
  cases htyped : (FieldEncoding.ofMask mask).typed with
  | true =>
    rw [htyped] at hw
    have hsame : w = v.value := by
      have hread := Decoding.reversible_json hexact.1 hexact.2
      rw [Decoding.variant, if_pos rfl, hread, Except.ok.injEq] at hw
      exact hw.symm
    obtain ⟨k, hk, hiff⟩ := field?_eq_iff hu hj (w := w) (by rw [hsame])
    exact ⟨hsame ▸ hexact, k, hk, hiff.trans (by simp [hsame, Variant.Stable, htyped])⟩
  | false =>
    rw [htyped] at hw
    obtain ⟨hwell, hall, hnull, hstable⟩ := Decoding.bare_json hexact.1 hexact.2 hw
    obtain ⟨k, hk, hiff⟩ := field?_eq_iff hu hj hnull
    rw [htyped] at hiff
    exact ⟨⟨hwell, hall⟩, k, hk, hiff.trans (hstable.trans (by simp [Variant.Stable, htyped]))⟩

/-- a value that is not shown is null, and that is stable -/
theorem DataValue.stable_of_field?_eq_none {mask : FieldMask} {v : DataValue} (h : v.field? mask = none) :
    v.value.Stable mask := by
  obtain ⟨-, hnull⟩ := field?_eq_none_iff.1 h
  refine Or.inr ?_
  rw [hnull]
  trivial

/-! ## Payloads and dataset messages -/

theorem Payload.again {mask : FieldMask} {p q : Payload} (hexact : ∀ f ∈ p.fields, f.2.value.Exact)
    (h : p.ReadAs mask q) :
    (∀ f ∈ q.fields, f.2.value.Exact) ∧
      (q.members mask = p.members mask ↔ ∀ f ∈ p.fields, f.2.value.Stable mask) := by
  simp only [ReadAs, members] at h ⊢
  generalize p.fields = fields at hexact h ⊢
  generalize q.fields = fs at h ⊢
  induction fields generalizing fs with
  | nil =>
    cases h
    simp
  | cons f fields ih =>
    have hsome := DataValue.visible?_isSome mask f.2
    rw [List.map_cons, Json.present_cons] at h ⊢
    cases hj : f.2.field? mask with
    | none =>
      rw [hj] at h
      obtain ⟨hfs, hiff⟩ := ih (fun g hg => hexact g (List.mem_cons_of_mem _ hg)) fs h
      refine ⟨hfs, hiff.trans ?_⟩
      simp [DataValue.stable_of_field?_eq_none hj]
    | some j =>
      rw [hj] at h hsome
      obtain ⟨u, hu⟩ := Option.isSome_iff_exists.1 hsome
      obtain ⟨g, gs, ⟨hname, hg⟩, hgs, rfl⟩ := List.forall₂_cons_left_iff.1 h
      obtain ⟨hgexact, k, hk, hstable⟩ := DataValue.again (hexact f List.mem_cons_self) hu hj hg
      obtain ⟨hfs, hiff⟩ := ih (fun g hg => hexact g (List.mem_cons_of_mem _ hg)) gs hgs
      refine ⟨List.forall_mem_cons.2 ⟨hgexact, hfs⟩, ?_⟩
      rw [List.map_cons, Json.present_cons, hk, List.forall_mem_cons, ← hstable, ← hiff]
      simp only at hname
      simp [Json.present, hname]

theorem DataSetMessage.again {withHeader : Bool} {m n : DataSetMessage}
    (hexact : ∀ f ∈ m.payload.fields, f.2.value.Exact) (h : m.ReadAs withHeader n) (form : Bool) :
    (∀ f ∈ n.payload.fields, f.2.value.Exact) ∧
      (n.json form withHeader = m.json form withHeader ↔ ∀ f ∈ m.payload.fields, f.2.value.Stable m.fieldMask) := by
  obtain ⟨q, hq, rfl⟩ := h
  obtain ⟨hqexact, hiff⟩ := Payload.again hexact hq
  exact ⟨hqexact, (json_eq_iff form withHeader m q).trans hiff⟩

theorem DataSetMessage.again_all {withHeader : Bool} {ms ns : List DataSetMessage}
    (hexact : ∀ m ∈ ms, ∀ f ∈ m.payload.fields, f.2.value.Exact)
    (h : List.Forall₂ (DataSetMessage.ReadAs withHeader) ms ns) (form : Bool) :
    (∀ n ∈ ns, ∀ f ∈ n.payload.fields, f.2.value.Exact) ∧
      (ns.map (DataSetMessage.json form withHeader) = ms.map (DataSetMessage.json form withHeader) ↔
        ∀ m ∈ ms, ∀ f ∈ m.payload.fields, f.2.value.Stable m.fieldMask) := by
  induction h with
  | nil => simp
  | @cons m n ms ns hmn _ ih =>
    obtain ⟨hn, hiff⟩ := again (hexact m List.mem_cons_self) hmn form
    obtain ⟨hns, hrest⟩ := ih fun m hm => hexact m (List.mem_cons_of_mem _ hm)
    refine ⟨List.forall_mem_cons.2 ⟨hn, hns⟩, ?_⟩
    rw [List.map_cons, List.map_cons, List.cons.injEq, hiff, hrest, List.forall_mem_cons]

/-! ## Network messages -/

namespace NetworkMessage

/-- a document that stands for no message is the same again, and has no value that is not stable -/
theorem stable_of_vanishes {m : NetworkMessage} (hexact : m.Each Variant.Exact) (hv : m.vanishes = true) :
    ∀ d ∈ m.messages, ∀ f ∈ d.payload.fields, f.2.value.Stable d.fieldMask := by
  intro d hd
  have hempty : d.payload.members d.fieldMask = [] := by
    rw [Payload.members_eq_nil]
    simp only [vanishes, Bool.and_eq_true, List.all_eq_true] at hv
    exact hv.2 d hd
  have hread : d.payload.ReadAs d.fieldMask .empty := by
    rw [Payload.ReadAs, hempty]
    exact List.Forall₂.nil
  refine (Payload.again (hexact d hd) hread).2.1 ?_
  rw [hempty]
  rfl

/-- what was read is exact, and has the same document iff every value is stable -/
theorem again {m n : NetworkMessage} (hvalid : m.validate = .ok ()) (hexact : m.Each Variant.Exact) (h : m.ReadAs n)
    (form : Bool) :
    n.validate = .ok () ∧ n.Each Variant.Exact ∧ (n.document form = m.document form ↔
      ∀ d ∈ m.messages, ∀ f ∈ d.payload.fields, f.2.value.Stable d.fieldMask) := by
  cases hv : m.vanishes with
  | true =>
    rw [readAs_iff_of_vanishes hv] at h
    subst h
    have hstable := stable_of_vanishes hexact hv
    refine ⟨if_neg (by simp), by simp [Each], ⟨fun _ => hstable, fun _ => ?_⟩⟩
    have hv' : ({ m.visible with messages := [] } : NetworkMessage).vanishes = true := by
      simp only [vanishes, Bool.and_eq_true] at hv ⊢
      exact ⟨hv.1, rfl⟩
    rw [document_of_vanishes hv, document_of_vanishes hv']
  | false =>
    obtain ⟨ds, hds, rfl⟩ := (readAs_iff hv).1 h
    obtain ⟨hexact', hiff⟩ := DataSetMessage.again_all hexact hds form
    refine ⟨?_, hexact', (document_eq_iff form hvalid hds.length_eq.symm).trans hiff⟩
    unfold validate at hvalid ⊢
    simpa [visible, ← hds.length_eq] using hvalid

/-- the test on the values of a message, its masks given -/
theorem each_stable_iff {m : NetworkMessage} {field : FieldMask} (hmask : ∀ d ∈ m.messages, d.fieldMask = field) :
    (∀ d ∈ m.messages, ∀ f ∈ d.payload.fields, f.2.value.Stable d.fieldMask) ↔
      (FieldEncoding.ofMask field).typed = true ∨ m.Each (Variant.All Scalar.Narrow) := by
  cases htyped : (FieldEncoding.ofMask field).typed with
  | true =>
    simp only [true_or, iff_true]
    exact fun d hd f _ => Or.inl (hmask d hd ▸ htyped)
  | false =>
    simp only [Bool.false_eq_true, false_or, Each, Variant.Stable]
    refine forall₂_congr fun d hd => forall₂_congr fun f hf => ?_
    rw [hmask d hd, htyped]
    simp

/-- what is read as a message has its text iff every value of the message is stable -/
theorem encode_eq_iff_of_readAs {m n : NetworkMessage} (hvalid : m.validate = .ok ()) (hexact : m.Each Variant.Exact)
    (h : m.ReadAs n) :
    n.encode = m.encode ↔ ∀ d ∈ m.messages, ∀ f ∈ d.payload.fields, f.2.value.Stable d.fieldMask := by
  obtain ⟨hvalid', hexact', hsame⟩ := again hvalid hexact h true
  rw [n.encode_of_validate hvalid', m.encode_of_validate hvalid, Except.ok.injEq, ← hsame]
  constructor
  · exact Json.render_injective ((readable_document hexact' true).mono (by decide))
      ((readable_document hexact true).mono (by decide))
  · exact congrArg Json.render

/-- **What was read is written again as it was** iff the values carry their type or no number among them is beyond
Int32. -/
theorem encode_read_eq_iff {m n : NetworkMessage} {dataSet : DataSetMask} {field : FieldMask} {text : String}
    (hvalid : m.validate = .ok ()) (hmasks : ∀ d ∈ m.messages, d.mask = dataSet ∧ d.fieldMask = field)
    (hexact : m.Each Variant.Exact) (htext : m.encode = .ok text)
    (hread : decode { network := m.mask, dataSet, field } text = .ok n) :
    n.encode = m.encode ↔ (FieldEncoding.ofMask field).typed = true ∨ m.Each (Variant.All Scalar.Narrow) := by
  rw [m.encode_of_validate hvalid, Except.ok.injEq] at htext
  rw [← htext, decode_render hvalid rfl (fun d hd => ⟨(hmasks d hd).1.symm, (hmasks d hd).2.symm⟩) hexact] at hread
  exact (encode_eq_iff_of_readAs hvalid hexact hread).trans (each_stable_iff fun d hd => (hmasks d hd).2)

/-- one bare value, under the name `a` -/
def bareField (s : Scalar) : DataSetMessage where
  writerId := 0
  payload := { fields := [("a", .plain (.scalar s))] }
  fieldMask := FieldMask.rawData

def bareValue (s : Scalar) : NetworkMessage where
  messageId := ""
  messages := [bareField s]
  mask := .empty

theorem bareValue_exact {s : Scalar} (h : s.Exact) : (bareValue s).Each Variant.Exact := by
  intro d hd f hf
  rw [bareValue, List.mem_singleton] at hd
  subst hd
  rw [bareField, List.mem_singleton] at hf
  subst hf
  exact ⟨trivial, h⟩

theorem bareValue_readAs {s t : Scalar}
    (h : Decoding.field FieldMask.rawData (s.json false) = .ok (.plain (.scalar t))) :
    (bareValue s).ReadAs (bareValue t) := by
  have hunset : ∀ flag : NetworkMask, flag.bits ≠ 0 → (bareValue s).mask.contains flag = false := by
    intro flag hflag
    show (0 &&& flag.bits == flag.bits) = false
    simpa using hflag.symm
  have hpayload : (bareField s).payload.ReadAs FieldMask.rawData (bareField t).payload := by
    have hmembers : (bareField s).payload.members FieldMask.rawData = [("a", s.json false)] := rfl
    rw [Payload.ReadAs, hmembers]
    exact List.Forall₂.cons ⟨rfl, h⟩ List.Forall₂.nil
  have hfield : (bareField s).ReadAs false (bareField t) := ⟨_, hpayload, rfl⟩
  refine (readAs_iff (vanishes_of_array (hunset _ (by decide)))).2
    ⟨_, ?_, visible_bare (hunset _ (by decide)) [bareField t]⟩
  rw [hunset NetworkMask.dataSetMessageHeader (by decide)]
  exact List.Forall₂.cons hfield List.Forall₂.nil

theorem wide_bounds : IntKind.uint32.least ≤ 3000000000 ∧ (3000000000 : Int) ≤ IntKind.uint32.greatest ∧
    IntKind.int64.least ≤ 3000000000 ∧ (3000000000 : Int) ≤ IntKind.int64.greatest := by decide

/-- three thousand million as it is sent, and as it is read -/
def wide : NetworkMessage := bareValue (.int .uint32 ⟨3000000000, wide_bounds.1, wide_bounds.2.1⟩)

def wideRead : NetworkMessage := bareValue (.int .int64 ⟨3000000000, wide_bounds.2.2.1, wide_bounds.2.2.2⟩)

theorem wide_readAs : wide.ReadAs wideRead := bareValue_readAs rfl

theorem wide_valid : wide.validate = .ok () := by rfl

theorem wide_masks : ∀ d ∈ wide.messages, d.mask = .empty ∧ d.fieldMask = FieldMask.rawData := by
  simp [wide, bareValue, bareField]

theorem wide_exact : wide.Each Variant.Exact := bareValue_exact (s := .int .uint32 _) trivial

theorem wide_decode :
    decode { network := wide.mask, dataSet := .empty, field := FieldMask.rawData } (wide.document true).render =
      .ok wideRead := by
  have hmasks : ∀ d ∈ wide.messages, Mask.empty = d.mask ∧ FieldMask.rawData = d.fieldMask :=
    fun d hd => ⟨(wide_masks d hd).1.symm, (wide_masks d hd).2.symm⟩
  exact (decode_render wide_valid rfl hmasks wide_exact true wideRead).2 wide_readAs

theorem encode_read_eq_iff_wide :
    wide.validate = .ok () ∧
      (wideRead.encode = wide.encode ↔
        (FieldEncoding.ofMask FieldMask.rawData).typed = true ∨ wide.Each (Variant.All Scalar.Narrow)) :=
  ⟨wide_valid,
   encode_read_eq_iff wide_valid wide_masks wide_exact (wide.encode_of_validate wide_valid) wide_decode⟩

/-- **A number beyond Int32 is not written again as it was**: it was a number, and is a string -/
theorem not_encode_read :
    ¬ ∀ (m n : NetworkMessage) (dataSet : DataSetMask) (field : FieldMask) (text : String), m.validate = .ok () →
      (∀ d ∈ m.messages, d.mask = dataSet ∧ d.fieldMask = field) → m.Each Variant.Exact → m.encode = .ok text →
      decode { network := m.mask, dataSet, field } text = .ok n → n.encode = m.encode := by
  intro h
  have hsame := h wide wideRead .empty FieldMask.rawData _ wide_valid wide_masks wide_exact
    (wide.encode_of_validate wide_valid) wide_decode
  rw [encode_eq_iff_of_readAs wide_valid wide_exact wide_readAs] at hsame
  have hstable := hsame _ List.mem_cons_self _ List.mem_cons_self
  rcases hstable with htyped | hnarrow
  · exact absurd htyped (by decide)
  · exact absurd hnarrow (show ¬ (3000000000 : Int) ≤ IntKind.int32.greatest by decide)

end NetworkMessage

end OpcPubSub
