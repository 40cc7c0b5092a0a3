/-
How reading fails.

A text is refused for its syntax, for a name that an object repeats, or because its document is not what the reader
expected. The last is a decoding failure, whatever is wrong (`FailsAsDecode`): one lemma for each reader, from leaves up
to whole messages. A payload has a check of its own for repeated names, but it never finds one: an object that was read
has each name once, so nothing is added twice (`Payload.exists_insert`). Main result:
- `decode_error_classified`: a text is refused with a decoding failure or for a repeated name, and for the name exactly
  where the parser refuses it.
-/
import OpcPubSub.Proofs.Decoding.Accepted
import OpcPubSub.Proofs.Json.Repetition
import OpcPubSub.Proofs.Message.Payload

namespace OpcPubSub

/-! ## Failures of one kind -/

/-- if it fails, then as a text that is not what was expected -/
def FailsAsDecode {α : Type} (r : Except Fault α) : Prop := ∀ e, r = .error e → ∃ text, e = .decode text

namespace FailsAsDecode

variable {α β : Type}

theorem ok (x : α) : FailsAsDecode (.ok x) := by
  intro e h
  cases h

theorem fail (c : Decoding.Cause) : FailsAsDecode (Decoding.fail c : Except Fault α) := by
  intro e h
  cases h
  exact ⟨c.message, rfl⟩

theorem bind {r : Except Fault α} {f : α → Except Fault β} (h : FailsAsDecode r)
    (hf : ∀ x, FailsAsDecode (f x)) : FailsAsDecode (r >>= f) := by
  cases r with
  | ok x => exact hf x
  | error e => exact fun e' he' => h e' (by cases he'; rfl)

theorem map {r : Except Fault α} (f : α → β) (h : FailsAsDecode r) : FailsAsDecode (r.map f) := by
  cases r with
  | ok x => exact ok (f x)
  | error e => exact fun e' he' => h e' (by cases he'; rfl)

/-- without a result it has failed -/
theorem refused {r : Except Fault α} (h : FailsAsDecode r) (hne : ∀ x, r ≠ .ok x) :
    ∃ reason, r = .error (.decode reason) := by
  cases r with
  | ok x => exact absurd rfl (hne x)
  | error e =>
    obtain ⟨reason, rfl⟩ := h e rfl
    exact ⟨reason, rfl⟩

end FailsAsDecode

/-! ## Names that are met once -/

namespace Json

/-- an object's own names are distinct, and so are those of the objects inside it -/
theorem repeated?_of_member? {ms : Members} {name : String} {j : Json} (h : repeated? (.object ms) = none)
    (hj : member? ms name = some j) : j.repeated? = none := by
  obtain ⟨m, hm, rfl⟩ := Option.map_eq_some_iff.1 hj
  exact ((repeated?_object_eq_none ms).1 h).2 m (List.mem_of_find?_eq_some hm)

theorem repeated?_of_value? {ms : Members} {name : String} {j : Json} (h : repeated? (.object ms) = none)
    (hj : value? ms name = some j) : j.repeated? = none := by
  rw [value?_eq, Option.filter_eq_some_iff] at hj
  exact repeated?_of_member? h hj.1

end Json

namespace Decoding

/-! ## Values -/

theorem failsAsDecode_object (what : String) (j : Json) : FailsAsDecode (object what j) := by
  cases j with
  | object ms => exact .ok ms
  | atom | array => exact .fail _

theorem failsAsDecode_unsigned (bound : Nat) (what : String) (j : Json) : FailsAsDecode (unsigned bound what j) := by
  unfold unsigned
  split
  · split_ifs
    · exact .ok _
    · exact .fail _
  · exact .fail _

theorem failsAsDecode_uint16 (what : String) (j : Json) : FailsAsDecode (uint16 what j) :=
  (failsAsDecode_unsigned _ what j).map _

theorem failsAsDecode_uint32 (what : String) (j : Json) : FailsAsDecode (uint32 what j) :=
  (failsAsDecode_unsigned _ what j).map _

theorem failsAsDecode_optString (ms : Json.Members) (name : String) : FailsAsDecode (optString ms name) := by
  unfold optString
  split
  · exact .ok _
  · exact .ok _
  · exact .ok _
  · exact .fail _
  · exact .ok _
  · exact .fail _

theorem failsAsDecode_requiredString (ms : Json.Members) (name : String) : FailsAsDecode (requiredString ms name) := by
  refine (failsAsDecode_optString ms name).bind fun s => ?_
  cases s with
  | some s => exact .ok s
  | none => exact .fail _

theorem failsAsDecode_dateTime (j : Json) : FailsAsDecode (dateTime j) := by
  unfold dateTime
  split
  · next s =>
    intro e h
    unfold DateTime.ofText at h
    split_ifs at h
    split at h
    · cases h
    · cases h
      exact ⟨_, rfl⟩
  · exact .fail _

theorem failsAsDecode_statusCode (j : Json) : FailsAsDecode (statusCode j) := by
  unfold statusCode
  split
  · exact .ok _
  · split
    · exact .ok _
    · exact (failsAsDecode_uint32 _ _).map _
  · exact (failsAsDecode_uint32 _ _).map _

theorem failsAsDecode_integer (k : IntKind) (j : Json) : FailsAsDecode (integer k j) := by
  unfold integer
  split
  · split
    · exact .ok _
    · exact .fail _
  · split
    · exact .ok _
    · exact .fail _
  · exact .fail _

theorem failsAsDecode_scalar (type : ScalarType) (j : Json) : FailsAsDecode (scalar type j) := by
  cases type with
  | int k => exact (failsAsDecode_integer k j).map _
  | dateTime => exact (failsAsDecode_dateTime j).map _
  | statusCode => exact (failsAsDecode_statusCode j).map _
  -- read off the kind of the token
  | boolean | float | double | string =>
    simp only [scalar]
    split
    · exact .ok _
    · exact .fail _
  -- read off a string, which may be no guid or no base 64
  | guid | byteString =>
    simp only [scalar]
    split
    · split
      · exact .ok _
      · exact .fail _
    · exact .fail _

theorem failsAsDecode_scalars (type : ScalarType) (items : List Json) : FailsAsDecode (scalars type items) := by
  induction items with
  | nil => exact .ok _
  | cons j rest ih => exact (failsAsDecode_scalar type j).bind fun _ => ih.bind fun _ => .ok _

theorem failsAsDecode_variantType (ms : Json.Members) : FailsAsDecode (variantType ms) := by
  unfold variantType
  split
  · split_ifs
    · split
      · exact .ok _
      · exact .fail _
    · exact .fail _
  · exact .fail _

theorem failsAsDecode_reversible (j : Json) : FailsAsDecode (reversible j) := by
  unfold reversible
  split
  · exact .ok _
  · refine (failsAsDecode_object _ _).bind fun ms => (failsAsDecode_variantType ms).bind fun type => ?_
    split
    · exact .ok _
    · exact (failsAsDecode_scalars type _).map _
    · exact (failsAsDecode_scalar type _).map _

theorem failsAsDecode_bareItems {items : List Json} (h : ∀ j ∈ items, FailsAsDecode (bare j)) :
    FailsAsDecode (bareItems items) := by
  induction items with
  | nil => exact .ok _
  | cons j rest ih =>
    have hrest := ih fun k hk => h k (List.mem_cons_of_mem j hk)
    have hcons : bareItems (j :: rest) = bare j >>= fun v => (bareItems rest).map (v :: ·) := by
      rw [bareItems]
      cases bare j with
      | error e => rfl
      | ok v => cases bareItems rest <;> rfl
    rw [hcons]
    exact (h j List.mem_cons_self).bind fun v => hrest.map _

/-- items that were read but are no scalars of one type are refused as a text -/
theorem bare_mixed {items : List Json} {vs : List Variant} (h : bareItems items = .ok vs)
    (hmixed : ¬∃ elem, ∀ v ∈ vs, v.scalarType? = some elem) :
    ∃ fault, bare (.array items) = fail (.notArray fault) := by
  have hne : items.isEmpty = false := by
    cases items with
    | nil =>
      cases h
      exact absurd ⟨.boolean, by simp⟩ hmixed
    | cons j rest => rfl
  cases hw : Variant.ofItems vs with
  | error fault => exact ⟨fault, by simp [bare, hne, h, hw]⟩
  | ok w =>
    obtain ⟨-, elem, hall, -⟩ := (ofItems_eq_ok vs w).1 hw
    exact absurd ⟨elem, hall⟩ hmixed

theorem failsAsDecode_bare (j : Json) : FailsAsDecode (bare j) := by
  induction j with
  | atom a => exact .ok _
  | object ms => exact .fail _
  | array items ih =>
    rw [bare]
    split_ifs
    · exact .fail _
    · have hitems := failsAsDecode_bareItems ih
      split
      · next e he => exact fun e' he' => hitems e' (by cases he'; exact he)
      · split
        · exact .ok _
        · exact .fail _

theorem failsAsDecode_variant (isReversible : Bool) (j : Json) : FailsAsDecode (variant isReversible j) := by
  cases isReversible with
  | true => exact failsAsDecode_reversible j
  | false => exact failsAsDecode_bare j

theorem failsAsDecode_optional {α : Type} (ms : Json.Members) (name : String) {read : Json → Except Fault α}
    (hread : ∀ j, FailsAsDecode (read j)) : FailsAsDecode (optional ms name read) := by
  unfold optional
  split
  · exact .ok _
  · exact (hread _).map _

theorem failsAsDecode_dataValue (isReversible : Bool) (j : Json) : FailsAsDecode (dataValue isReversible j) := by
  refine (failsAsDecode_object _ _).bind fun ms => ?_
  refine (failsAsDecode_optional ms _ (failsAsDecode_variant isReversible)).bind fun _ => ?_
  refine (failsAsDecode_optional ms _ failsAsDecode_statusCode).bind fun _ => ?_
  refine (failsAsDecode_optional ms _ failsAsDecode_dateTime).bind fun _ => ?_
  refine (failsAsDecode_optional ms _ (failsAsDecode_uint16 _)).bind fun _ => ?_
  refine (failsAsDecode_optional ms _ failsAsDecode_dateTime).bind fun _ => ?_
  exact (failsAsDecode_optional ms _ (failsAsDecode_uint16 _)).bind fun _ => .ok _

theorem failsAsDecode_field (mask : FieldMask) (j : Json) : FailsAsDecode (field mask j) := by
  unfold field
  cases FieldEncoding.ofMask mask with
  | variant => exact (failsAsDecode_reversible j).map _
  | rawData => exact (failsAsDecode_bare j).map _
  | dataValue isReversible => exact failsAsDecode_dataValue isReversible j

/-! ## Payloads -/

/-- fields are added to those before them, each under its name -/
theorem names_of_payload {mask : FieldMask} {ms : Json.Members} {p q : Payload} (h : payload mask p ms = .ok q) :
    q.names = p.names ++ ms.map Prod.fst := by
  obtain ⟨fs, hfs, hq⟩ := (payload_eq_ok mask ms p q).1 h
  have hnames : ms.map Prod.fst = fs.map Prod.fst := by
    rw [← List.forall₂_eq_eq_eq, List.forall₂_map_left_iff, List.forall₂_map_right_iff]
    exact hfs.imp fun _ _ hmf => hmf.1
  rw [Payload.names, hq, List.map_append, hnames]
  rfl

/-- **Nothing is added twice.** After the fields before it are read, every field of an object with distinct names is
added. -/
theorem insert_of_nodup {ms before after : Json.Members} {name : String} {j : Json} (hn : (ms.map Prod.fst).Nodup)
    (hsplit : ms = before ++ (name, j) :: after) {mask : FieldMask} {p : Payload}
    (hp : payload mask .empty before = .ok p) (v : DataValue) : ∃ q, p.insert name v = .ok q := by
  have hnew : name ∉ p.names := by
    rw [names_of_payload hp]
    rw [hsplit, List.map_append, List.map_cons, List.nodup_append] at hn
    intro hmem
    exact hn.2.2 name hmem name List.mem_cons_self rfl
  obtain ⟨q, hq, -⟩ := p.exists_insert hnew v
  exact ⟨q, hq⟩

theorem failsAsDecode_payload (mask : FieldMask) {ms : Json.Members} (hn : (ms.map Prod.fst).Nodup) (p : Payload)
    (hp : ∀ name ∈ p.names, name ∉ ms.map Prod.fst) : FailsAsDecode (payload mask p ms) := by
  induction ms generalizing p with
  | nil => exact .ok p
  | cons m rest ih =>
    obtain ⟨name, j⟩ := m
    rw [List.map_cons, List.nodup_cons] at hn
    rw [payload]
    cases field mask j with
    | error e => exact .fail _
    | ok v =>
      obtain ⟨q, hq, hnames⟩ := p.exists_insert (fun h => hp name h List.mem_cons_self) v
      simp only [hq]
      refine ih hn.2 q ?_
      intro other hother
      rw [hnames, List.mem_append, List.mem_singleton] at hother
      rcases hother with hother | rfl
      · exact fun h => hp other hother (List.mem_cons_of_mem _ h)
      · exact hn.1

/-! ## Messages -/

theorem failsAsDecode_headerValue {α : Type} (mask flag : DataSetMask) (ms : Json.Members) (name : String)
    (default : α) {read : Json → Except Fault α} (hread : ∀ j, FailsAsDecode (read j)) :
    FailsAsDecode (headerValue mask flag ms name default read) := by
  unfold headerValue
  split
  · split_ifs
    · exact hread _
    · exact .ok _
  · exact .ok _

theorem failsAsDecode_version (j : Json) : FailsAsDecode (version j) := by
  refine (failsAsDecode_object _ _).bind fun ms => ?_
  refine (failsAsDecode_optional ms _ (failsAsDecode_uint32 _)).bind fun _ => ?_
  exact (failsAsDecode_optional ms _ (failsAsDecode_uint32 _)).bind fun _ => .ok _

theorem failsAsDecode_frameKind (j : Json) : FailsAsDecode (frameKind j) := by
  unfold frameKind
  split
  · split
    · exact .ok _
    · exact .fail _
  · exact .fail _

theorem failsAsDecode_writerId (s : String) : FailsAsDecode (writerId s) := by
  unfold writerId
  split
  · split_ifs
    · exact .ok _
    · exact .fail _
  · exact .fail _

theorem failsAsDecode_header (settings : ReaderSettings) (ms : Json.Members) : FailsAsDecode (header settings ms) := by
  refine (failsAsDecode_requiredString ms _).bind fun text => (failsAsDecode_writerId text).bind fun id => ?_
  -- the writer name is read in one branch and absent in the other, and what follows is the same
  extract_lets rest
  have hrest : ∀ name, FailsAsDecode (rest name) := by
    intro name
    refine (failsAsDecode_headerValue _ _ ms _ _ (failsAsDecode_uint32 _)).bind fun _ => ?_
    refine (failsAsDecode_headerValue _ _ ms _ _ failsAsDecode_version).bind fun _ => ?_
    refine (failsAsDecode_headerValue _ _ ms _ _ failsAsDecode_dateTime).bind fun _ => ?_
    refine (failsAsDecode_headerValue _ _ ms _ _ failsAsDecode_statusCode).bind fun _ => ?_
    exact (failsAsDecode_headerValue _ _ ms _ _ failsAsDecode_frameKind).bind fun _ => .ok _
  split_ifs
  · exact (failsAsDecode_optString ms _).bind hrest
  · exact hrest none

/-- the payload is an object of the document, so its names are distinct -/
theorem failsAsDecode_dataSet (settings : ReaderSettings) (withHeader : Bool) {j : Json} (h : j.repeated? = none) :
    FailsAsDecode (dataSet settings withHeader j) := by
  have hpayload : ∀ ms, Json.repeated? (.object ms) = none → FailsAsDecode (payload settings.field .empty ms) := by
    intro ms hms
    have hn := ((Json.repeated?_object_eq_none ms).1 hms).1
    exact failsAsDecode_payload _ hn _ (by simp [Payload.names, Payload.empty])
  cases j with
  | atom | array => exact .fail _
  | object ms =>
    cases withHeader with
    | false => exact (hpayload ms h).bind fun _ => .ok _
    | true =>
      refine (failsAsDecode_header settings ms).bind fun m => ?_
      cases hj : Json.member? ms "Payload" with
      | none => exact .fail _
      | some j =>
        have hunique := Json.repeated?_of_member? h hj
        cases j with
        | atom | array => exact .fail _
        | object fields => exact (hpayload fields hunique).bind fun _ => .ok _

theorem failsAsDecode_dataSets (settings : ReaderSettings) (withHeader : Bool) {items : List Json}
    (h : ∀ j ∈ items, j.repeated? = none) : FailsAsDecode (dataSets settings withHeader items) := by
  induction items with
  | nil => exact .ok _
  | cons j rest ih =>
    have hrest := ih fun k hk => h k (List.mem_cons_of_mem j hk)
    exact (failsAsDecode_dataSet settings withHeader (h j List.mem_cons_self)).bind fun _ => hrest.bind fun _ => .ok _

theorem failsAsDecode_messages (settings : ReaderSettings) (layout : Layout) {j : Json} (h : j.repeated? = none) :
    FailsAsDecode (messages settings layout j) := by
  unfold messages
  split_ifs
  · exact (failsAsDecode_dataSet settings _ h).map _
  · cases j with
    | array items => exact failsAsDecode_dataSets settings _ ((Json.repeatedItems?_eq_none items).1 h)
    | atom | object => exact .fail _

theorem failsAsDecode_envelope (settings : ReaderSettings) (ms : Json.Members) :
    FailsAsDecode (envelope settings ms) := by
  refine (failsAsDecode_requiredString ms _).bind fun id => (failsAsDecode_requiredString ms _).bind fun type => ?_
  dsimp only
  split_ifs
  · exact .fail _
  · refine (failsAsDecode_optString ms _).bind fun publisher => (failsAsDecode_optString ms _).bind fun classId => ?_
    cases classId with
    | none => exact (failsAsDecode_optString ms _).bind fun replyTo => .ok _
    | some text =>
      dsimp only
      cases Guid.ofText? text with
      | none => exact .fail _
      | some g => exact (failsAsDecode_optString ms _).bind fun replyTo => .ok _

/-- **A document that is not what was expected fails as one**, if it repeats no name -/
theorem failsAsDecode_network (settings : ReaderSettings) {j : Json} (h : j.repeated? = none) :
    FailsAsDecode (network settings j) := by
  have hmessages := failsAsDecode_messages settings (Layout.ofMask settings.network) h
  unfold network
  dsimp only
  split
  · cases j with
    | atom | array => exact .fail _
    | object ms =>
      refine (failsAsDecode_envelope settings ms).bind fun m => ?_
      cases hj : Json.value? ms "Messages" with
      | none => exact .ok _
      | some j =>
        have hunique := Json.repeated?_of_value? h hj
        exact (failsAsDecode_messages settings _ hunique).bind fun _ => .ok _
  · split
    · exact .ok _
    · exact hmessages.bind fun _ => .ok _
  · exact hmessages.bind fun _ => .ok _

end Decoding

/-! ## Texts -/

/-- what the parser refuses is a failure of the syntax or a repeated name -/
theorem Json.code_of_parseDocument {text : String} {e : Fault} (h : parseDocument text = .error e) :
    e.code = .decode ∨ e.code = .duplicateField := by
  unfold parseDocument at h
  cases hp : parse text with
  | ok j =>
    rw [hp] at h
    cases h
  | error r =>
    rw [hp] at h
    cases h
    cases r with
    | malformed => exact Or.inl rfl
    | repeated name => exact Or.inr rfl

namespace NetworkMessage

variable {settings : ReaderSettings} {text : String}

theorem decode_eq (settings : ReaderSettings) (text : String) :
    decode settings text = Json.parseDocument text >>= Decoding.network settings := rfl

/-- a document that was parsed repeats no name -/
theorem failsAsDecode_of_parsed {j : Json} (h : Json.parseDocument text = .ok j) :
    FailsAsDecode (Decoding.network settings j) :=
  Decoding.failsAsDecode_network settings (Json.repeated?_of_parseDocument h)

theorem code_of_decode {e : Fault} (h : decode settings text = .error e) :
    e.code = .decode ∨ e.code = .duplicateField := by
  rw [decode_eq] at h
  cases hp : Json.parseDocument text with
  | error e' =>
    rw [hp] at h
    cases h
    exact Json.code_of_parseDocument hp
  | ok j =>
    rw [hp] at h
    obtain ⟨reason, rfl⟩ := failsAsDecode_of_parsed hp e h
    exact Or.inl rfl

/-- a repeated name is one that the parser has found -/
theorem decode_eq_duplicateField_iff (name : String) :
    decode settings text = .error (.duplicateField name) ↔
      Json.parseDocument text = .error (.duplicateField name) := by
  rw [decode_eq]
  cases hp : Json.parseDocument text with
  | error e => constructor <;> (intro h; cases h; rfl)
  | ok j =>
    constructor
    · intro h
      obtain ⟨reason, hreason⟩ := failsAsDecode_of_parsed hp _ h
      cases hreason
    · intro h
      cases h

/-- **A text is refused as no expected document or for a repeated name**, under all masks and with no other code; for a
name iff the parser refuses it for that name. In a document that was parsed no payload field is found to be there
already: after the fields before it are read, any value is added under its name. Whatever is wrong with a value, its own
reader says so with the same code; so for a bare array whose items are read but are no scalars of one type, null among
them or not. -/
theorem decode_error_classified (settings : ReaderSettings) (text : String) :
    (∀ e, decode settings text = .error e → e.code = .decode ∨ e.code = .duplicateField) ∧
      (∀ name, decode settings text = .error (.duplicateField name) ↔
        Json.parseDocument text = .error (.duplicateField name)) ∧
      (∀ j before name k after p v, Json.parseDocument text = .ok j →
        Json.Within (.object (before ++ (name, k) :: after)) j →
        Decoding.payload settings.field .empty before = .ok p → ∃ q, p.insert name v = .ok q) ∧
      (∀ j e, Decoding.field settings.field j = .error e → e.code = .decode) ∧
      ∀ items vs, Decoding.bareItems items = .ok vs → (¬∃ elem, ∀ v ∈ vs, v.scalarType? = some elem) →
        ∃ reason, Decoding.bare (.array items) = .error (.decode reason) := by
  refine ⟨fun e => code_of_decode, decode_eq_duplicateField_iff, ?_, ?_, ?_⟩
  · intro j before name k after p v hp hwithin hpayload
    have hn := (Json.repeated?_eq_none_iff j).1 (Json.repeated?_of_parseDocument hp) _ hwithin
    exact Decoding.insert_of_nodup hn rfl hpayload v
  · intro j e he
    obtain ⟨reason, rfl⟩ := Decoding.failsAsDecode_field settings.field j e he
    rfl
  · intro items vs hitems hmixed
    obtain ⟨fault, hfault⟩ := Decoding.bare_mixed hitems hmixed
    exact ⟨_, hfault⟩

/-- a reader of bare values in messages without any header -/
def plainReader : ReaderSettings := { field := FieldMask.rawData }

/-- one message, whose second field is an array that holds null -/
def halfNull : Json := .array [.object [("a", .bool true), ("b", .array [.int 1, .null])]]

/-- one message that has a field twice -/
def fieldTwice : Json := .array [.object [("a", .int 1), ("a", .int 2)]]

theorem plain_halfNull : halfNull.AllAtoms Atom.Plain := by
  simp [halfNull, Json.AllAtoms, Json.AllAtomsItems, Json.AllAtomsMembers, Atom.Plain]

theorem plain_fieldTwice : fieldTwice.AllAtoms Atom.Plain := by
  simp [fieldTwice, Json.AllAtoms, Json.AllAtomsItems, Json.AllAtomsMembers, Atom.Plain]

theorem decode_error_classified_halfNull :
    (∃ e, decode plainReader halfNull.render = .error e ∧ e.code = .decode) ∧
      (∃ p q, Decoding.payload plainReader.field .empty [("a", .bool true)] = .ok p ∧
        p.insert "b" (.plain .null) = .ok q) ∧
      (∃ e, Decoding.field plainReader.field (.array [.int 1, .null]) = .error e ∧ e.code = .decode) ∧
      (∃ reason, Decoding.bare (.array [.int 1, .null]) = .error (.decode reason)) ∧
      decode plainReader fieldTwice.render = .error (.duplicateField "a") := by
  have hparse : Json.parseDocument halfNull.render = .ok halfNull :=
    Json.parseDocument_render ⟨by decide, plain_halfNull, rfl⟩
  have htwice : Json.parseDocument fieldTwice.render = .error (.duplicateField "a") := by
    rw [Json.parseDocument, Json.parse_render (by decide) plain_fieldTwice]
    rfl
  obtain ⟨hcode, hname, hinsert, hfield, hmixed⟩ := decode_error_classified plainReader halfNull.render
  refine ⟨?_, ?_, ?_, ?_, ?_⟩
  · obtain ⟨e, he⟩ : ∃ e, decode plainReader halfNull.render = .error e := by
      rw [decode, hparse]
      exact ⟨_, rfl⟩
    refine ⟨e, he, (hcode e he).resolve_right fun hduplicate => ?_⟩
    -- a repeated name would be one for the parser too
    cases e <;> simp only [Fault.code, reduceCtorEq] at hduplicate
    cases hparse.symm.trans ((hname _).1 he)
  · have hwithin : Json.Within (.object [("a", .bool true), ("b", .array [.int 1, .null])]) halfNull :=
      .item List.mem_cons_self .self
    obtain ⟨q, hq⟩ := hinsert halfNull [("a", .bool true)] "b" _ [] _ (.plain .null) hparse hwithin rfl
    exact ⟨_, q, rfl, hq⟩
  · have hread : ∃ e, Decoding.field plainReader.field (.array [.int 1, .null]) = .error e := ⟨_, rfl⟩
    obtain ⟨e, he⟩ := hread
    exact ⟨e, he, hfield _ e he⟩
  · refine hmixed [.int 1, .null] _ rfl ?_
    rintro ⟨elem, helem⟩
    have hnull := helem .null (by simp [Decoding.bareAtom])
    cases hnull
  · exact ((decode_error_classified plainReader fieldTwice.render).2.1 "a").2 htwice

end NetworkMessage

end OpcPubSub
