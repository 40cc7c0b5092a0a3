/-
Reading does not depend on the order of members.

Two readings are `Alike` if they answer the same value or both fail, whatever the reasons. Every reader is shown to be
alike on documents that are the same but for the order of members, from leaves up to whole messages: a leaf is the same
leaf in both, a container where a leaf is wanted fails in both, and members are looked up by name. Only the fields of a
payload are read in the order they have, and payloads keep theirs. Main results:
- `decode_reordered`: so two texts of such documents are read as the same message, or neither is.
- `decode_render_reordered`: nor does the order decide whether a compact text is refused before any of that.
-/
import OpcPubSub.Proofs.Decoding.Values
import OpcPubSub.Proofs.Json.Reordering
import OpcPubSub.Proofs.Json.Repetition
import OpcPubSub.Decoding.Messages

namespace OpcPubSub

/-- the same value, or a failure each -/
inductive Alike {α : Type} : Except Fault α → Except Fault α → Prop where
  | ok (x : α) : Alike (.ok x) (.ok x)
  | error (e e' : Fault) : Alike (.error e) (.error e')

namespace Alike

variable {α β : Type}

theorem refl (r : Except Fault α) : Alike r r := by
  cases r with
  | error e => exact .error e e
  | ok x => exact .ok x

theorem bind {r r' : Except Fault α} {f f' : α → Except Fault β} (h : Alike r r') (hf : ∀ x, Alike (f x) (f' x)) :
    Alike (r >>= f) (r' >>= f') := by
  cases h with
  | ok x => exact hf x
  | error e e' => exact .error e e'

theorem map {r r' : Except Fault α} (f : α → β) (h : Alike r r') : Alike (r.map f) (r'.map f) := by
  cases h with
  | ok x => exact .ok (f x)
  | error e e' => exact .error e e'

theorem eq_ok {x : α} {r : Except Fault α} (h : Alike (.ok x) r) : r = .ok x := by
  cases h
  rfl

end Alike

namespace Decoding

open Json

variable {role : Role} {j k : Json} {ms ns : Members}

/-! ## Leaves -/

/-- a reader of leaves: containers are refused -/
def OfLeaf {α : Type} (read : Json → Except Fault α) : Prop :=
  (∀ items, ∃ e, read (.array items) = .error e) ∧ ∀ ms, ∃ e, read (.object ms) = .error e

theorem OfLeaf.alike {α : Type} {read : Json → Except Fault α} (hread : OfLeaf read) (h : Same role j k) :
    Alike (read j) (read k) := by
  cases h.view with
  | atom a => exact .refl _
  | @array items items' =>
    obtain ⟨e, he⟩ := hread.1 items
    obtain ⟨e', he'⟩ := hread.1 items'
    rw [he, he']
    exact .error e e'
  | @object ms ns =>
    obtain ⟨e, he⟩ := hread.2 ms
    obtain ⟨e', he'⟩ := hread.2 ns
    rw [he, he']
    exact .error e e'

theorem ofLeaf_uint16 (what : String) : OfLeaf (uint16 what) := ⟨fun _ => ⟨_, rfl⟩, fun _ => ⟨_, rfl⟩⟩

theorem ofLeaf_uint32 (what : String) : OfLeaf (uint32 what) := ⟨fun _ => ⟨_, rfl⟩, fun _ => ⟨_, rfl⟩⟩

theorem ofLeaf_dateTime : OfLeaf dateTime := ⟨fun _ => ⟨_, rfl⟩, fun _ => ⟨_, rfl⟩⟩

theorem ofLeaf_frameKind : OfLeaf frameKind := ⟨fun _ => ⟨_, rfl⟩, fun _ => ⟨_, rfl⟩⟩

/-! ## Members -/

theorem alike_optional {α : Type} {read : Json → Except Fault α} (h : Peers role ms ns) (name : String)
    (hread : ∀ j k, Same (role.member name) j k → Alike (read j) (read k)) :
    Alike (optional ms name read) (optional ns name read) := by
  unfold optional
  rcases h name with ⟨hj, hk⟩ | ⟨j, k, hj, hk, hjk⟩
  · rw [hj, hk]
    exact .refl _
  · rw [hj, hk]
    exact (hread j k hjk).map some

theorem alike_optString (h : Peers role ms ns) (name : String) : Alike (optString ms name) (optString ns name) := by
  unfold optString
  rcases h name with ⟨hj, hk⟩ | ⟨j, k, hj, hk, hjk⟩
  · rw [hj, hk]
    exact .refl _
  · rw [hj, hk]
    cases hjk.view with
    | atom a => exact .refl _
    | array => exact .error _ _
    | object => exact .error _ _

theorem alike_requiredString (h : Peers role ms ns) (name : String) :
    Alike (requiredString ms name) (requiredString ns name) :=
  (alike_optString h name).bind fun _ => .refl _

theorem alike_headerValue {α : Type} {read : Json → Except Fault α} (h : Peers role ms ns) (mask flag : DataSetMask)
    (name : String) (default : α) (hread : ∀ j k, Same (role.member name) j k → Alike (read j) (read k)) :
    Alike (headerValue mask flag ms name default read) (headerValue mask flag ns name default read) := by
  unfold headerValue
  rcases h.value? name with ⟨hj, hk⟩ | ⟨j, k, hj, hk, hjk⟩
  · rw [hj, hk]
    exact .refl _
  · rw [hj, hk]
    simp only
    split_ifs
    · exact hread j k hjk
    · exact .refl _

/-! ## Values -/

theorem alike_statusCode (h : Same role j k) : Alike (statusCode j) (statusCode k) := by
  cases h.view with
  | atom a => exact .refl _
  | array => exact .error _ _
  | object peers =>
    simp only [statusCode]
    rcases peers "Code" with ⟨hj, hk⟩ | ⟨j, k, hj, hk, hjk⟩
    · rw [hj, hk]
      exact .refl _
    · rw [hj, hk]
      exact ((ofLeaf_uint32 "Code").alike hjk).map StatusCode.mk

theorem alike_version (h : Same role j k) : Alike (version j) (version k) := by
  cases h.view with
  | atom a => exact .refl _
  | array => exact .error _ _
  | object peers =>
    have hpart : ∀ name, Alike (optional _ name (uint32 name)) (optional _ name (uint32 name)) :=
      fun name => alike_optional peers name fun _ _ => (ofLeaf_uint32 name).alike
    exact (hpart "MajorVersion").bind fun _ => (hpart "MinorVersion").bind fun _ => .refl _

/-- status codes are the only scalars that a container may stand for -/
theorem alike_scalar (type : ScalarType) (h : Same role j k) : Alike (scalar type j) (scalar type k) := by
  by_cases hs : type = .statusCode
  · subst hs
    exact (alike_statusCode h).map Scalar.statusCode
  · refine OfLeaf.alike ⟨fun items => ?_, fun ms => ?_⟩ h
    all_goals
      cases type with
      | statusCode => exact absurd rfl hs
      | boolean | int | float | double | string | dateTime | guid | byteString => exact ⟨_, rfl⟩

theorem alike_scalars (type : ScalarType) {items items' : List Json} (h : List.Forall₂ (Same role) items items') :
    Alike (scalars type items) (scalars type items') := by
  induction h with
  | nil => exact .refl _
  | cons hjk _ ih => exact (alike_scalar type hjk).bind fun _ => ih.bind fun _ => .refl _

theorem alike_variantType (h : Peers role ms ns) : Alike (variantType ms) (variantType ns) := by
  unfold variantType
  rcases h "Type" with ⟨hj, hk⟩ | ⟨j, k, hj, hk, hjk⟩
  · rw [hj, hk]
    exact .refl _
  · rw [hj, hk]
    cases hjk.view with
    | atom a => exact .refl _
    | array => exact .error _ _
    | object => exact .error _ _

theorem alike_reversible (h : Same role j k) : Alike (reversible j) (reversible k) := by
  cases h.view with
  | atom a => exact .refl _
  | array => exact .error _ _
  | object peers =>
    refine (alike_variantType peers).bind fun type => ?_
    rcases peers.value? "Body" with ⟨hj, hk⟩ | ⟨j, k, hj, hk, hjk⟩
    · rw [hj, hk]
      exact .refl _
    · rw [hj, hk]
      cases hjk.view with
      | atom a => exact .refl _
      | array each => exact (alike_scalars type each).map (Variant.array type)
      | object => exact (alike_scalar type hjk).map Variant.scalar

/-- a bare array that is read has leaves for items -/
theorem leaves_of_bare {items : List Json} {w : Variant} (h : bare (.array items) = .ok w) :
    ∀ j ∈ items, ∃ a, j = .atom a := by
  obtain ⟨-, elem, vs, hvs, htypes, -⟩ := (bare_array items w).1 h
  clear h
  induction hvs with
  | nil => simp
  | @cons j v items vs hv _ ih =>
    rw [List.forall_mem_cons] at htypes ⊢
    refine ⟨?_, ih htypes.2⟩
    cases j with
    | atom a => exact ⟨a, rfl⟩
    | array items =>
      obtain ⟨-, elem', us, -, -, rfl⟩ := (bare_array items v).1 hv
      simp [Variant.scalarType?] at htypes
    | object ms => simp [bare, fail] at hv

/-- leaves are the same leaves -/
theorem eq_of_leaves {items items' : List Json} (h : List.Forall₂ (Same role) items items')
    (hleaves : (∀ j ∈ items, ∃ a, j = .atom a) ∨ ∀ k ∈ items', ∃ a, k = .atom a) : items = items' := by
  induction h with
  | nil => rfl
  | @cons j k items items' hjk _ ih =>
    rw [List.forall_mem_cons, List.forall_mem_cons] at hleaves
    have hrest := ih (hleaves.imp And.right And.right)
    have hfirst := hleaves.imp And.left And.left
    cases hjk.view with
    | atom a => rw [hrest]
    | array => simp at hfirst
    | object => simp at hfirst

theorem alike_bare (h : Same role j k) : Alike (bare j) (bare k) := by
  cases h.view with
  | atom a => exact .refl _
  | object => exact .error _ _
  | @array items items' each =>
    cases hj : bare (.array items) with
    | ok v =>
      rw [← eq_of_leaves each (Or.inl (leaves_of_bare hj)), hj]
      exact .ok v
    | error e =>
      cases hk : bare (.array items') with
      | error e' => exact .error e e'
      | ok w =>
        rw [eq_of_leaves each (Or.inr (leaves_of_bare hk)), hk] at hj
        cases hj

theorem alike_variant (isReversible : Bool) (h : Same role j k) :
    Alike (variant isReversible j) (variant isReversible k) := by
  cases isReversible with
  | true => exact alike_reversible h
  | false => exact alike_bare h

theorem alike_dataValue (isReversible : Bool) (h : Same role j k) :
    Alike (dataValue isReversible j) (dataValue isReversible k) := by
  cases h.view with
  | atom a => exact .refl _
  | array => exact .error _ _
  | object peers =>
    refine (alike_optional peers "Value" fun _ _ => alike_variant isReversible).bind fun _ => ?_
    refine (alike_optional peers "Status" fun _ _ => alike_statusCode).bind fun _ => ?_
    refine (alike_optional peers "SourceTimestamp" fun _ _ => ofLeaf_dateTime.alike).bind fun _ => ?_
    refine (alike_optional peers "SourcePicoseconds" fun _ _ => (ofLeaf_uint16 _).alike).bind fun _ => ?_
    refine (alike_optional peers "ServerTimestamp" fun _ _ => ofLeaf_dateTime.alike).bind fun _ => ?_
    exact (alike_optional peers "ServerPicoseconds" fun _ _ => (ofLeaf_uint16 _).alike).bind fun _ => .refl _

theorem alike_field (mask : FieldMask) (h : Same role j k) : Alike (field mask j) (field mask k) := by
  unfold field
  cases FieldEncoding.ofMask mask with
  | variant => exact (alike_reversible h).map DataValue.plain
  | rawData => exact (alike_bare h).map DataValue.plain
  | dataValue isReversible => exact alike_dataValue isReversible h

/-! ## Dataset messages -/

/-- fields in the same order, added to what was read before -/
theorem alike_payload (mask : FieldMask) (h : List.Forall₂ (fun m n => n.1 = m.1 ∧ Same .other m.2 n.2) ms ns)
    (p : Payload) : Alike (payload mask p ms) (payload mask p ns) := by
  induction h generalizing p with
  | nil => exact .refl _
  | @cons m n ms ns hmn _ ih =>
    obtain ⟨name, j⟩ := m
    obtain ⟨name', k⟩ := n
    obtain ⟨rfl, hjk⟩ := hmn
    have hfield := alike_field mask hjk
    rw [payload, payload]
    dsimp only at hfield ⊢
    generalize field mask j = r at hfield
    generalize field mask k = r' at hfield
    cases hfield with
    | error e e' => exact .error _ _
    | ok v =>
      dsimp only
      cases p.insert name' v with
      | error e => exact .refl _
      | ok q => exact ih q

/-- a header, member by member -/
theorem alike_header (settings : ReaderSettings) (h : Peers .dataSet ms ns) :
    Alike (header settings ms) (header settings ns) := by
  have hvalue : ∀ {α : Type} (flag : DataSetMask) (f : HeaderField) (default : α) (read : Json → Except Fault α),
      (∀ {role j k}, Same role j k → Alike (read j) (read k)) →
        Alike (headerValue settings.dataSet flag ms f.name default read)
          (headerValue settings.dataSet flag ns f.name default read) :=
    fun flag f default read hread => alike_headerValue h _ flag _ default fun _ _ => hread
  refine (alike_requiredString h _).bind fun text => Alike.bind (.refl _) fun id => ?_
  -- the writer name is read in one branch and absent in the other, and what follows is the same
  dsimp only
  split
  all_goals
    refine Alike.bind ?_ fun name => ?_
  any_goals
    refine (hvalue _ .sequenceNumber _ _ (ofLeaf_uint32 _).alike).bind fun _ => ?_
    refine (hvalue _ .metaDataVersion _ _ alike_version).bind fun _ => ?_
    refine (hvalue _ .timestamp _ _ ofLeaf_dateTime.alike).bind fun _ => ?_
    refine (hvalue _ .status _ _ alike_statusCode).bind fun _ => ?_
    exact (hvalue _ .messageType _ _ ofLeaf_frameKind.alike).bind fun _ => .refl _
  · exact alike_optString h _
  · exact .refl _

end Decoding

/-! ## Which objects are payloads -/

namespace Role

/-- an object with a payload inside, or one that is a payload -/
def ofDataSet (withHeader : Bool) : Role := if withHeader then dataSet else payload

/-- the dataset messages of a document: the only one, or all in an array -/
def ofMessages (mask : NetworkMask) : Role :=
  let one := ofDataSet (mask.contains NetworkMask.dataSetMessageHeader)
  if mask.contains NetworkMask.singleDataSetMessage then one else list one

/-- the outermost value of a document -/
def ofMask (mask : NetworkMask) : Role :=
  if mask.contains NetworkMask.networkMessageHeader then envelope (ofMessages mask) else ofMessages mask

end Role

namespace Decoding

open Json

variable {j k : Json} {ms ns : Members}

theorem alike_dataSet (settings : ReaderSettings) (withHeader : Bool) (h : Same (.ofDataSet withHeader) j k) :
    Alike (dataSet settings withHeader j) (dataSet settings withHeader k) := by
  cases h.view with
  | atom a => exact .refl _
  | array => exact .error _ _
  | @object ms ns peers _ inOrder =>
    cases withHeader with
    | false =>
      exact (alike_payload settings.field (inOrder rfl) .empty).bind fun _ => .refl _
    | true =>
      refine (alike_header settings peers).bind fun m => ?_
      rcases peers "Payload" with ⟨hj, hk⟩ | ⟨j, k, hj, hk, hjk⟩
      · rw [hj, hk]
        exact .refl _
      · rw [hj, hk]
        cases hjk.view with
        | atom a => exact .refl _
        | array => exact .error _ _
        | object _ _ inOrder =>
          exact (alike_payload settings.field (inOrder rfl) .empty).bind fun _ => .refl _

theorem alike_dataSets (settings : ReaderSettings) (withHeader : Bool) {items items' : List Json}
    (h : List.Forall₂ (Same (.ofDataSet withHeader)) items items') :
    Alike (dataSets settings withHeader items) (dataSets settings withHeader items') := by
  induction h with
  | nil => exact .refl _
  | cons hjk _ ih => exact (alike_dataSet settings withHeader hjk).bind fun _ => ih.bind fun _ => .refl _

/-! ## Network messages -/

theorem alike_messages (settings : ReaderSettings) (h : Same (.ofMessages settings.network) j k) :
    Alike (messages settings (.ofMask settings.network) j) (messages settings (.ofMask settings.network) k) := by
  unfold Role.ofMessages at h
  dsimp only at h
  split_ifs at h with hs
  · have hsingle : (Layout.ofMask settings.network).single = true := hs
    unfold messages
    rw [if_pos hsingle, if_pos hsingle]
    exact (alike_dataSet settings _ h).map _
  · have hlist : ¬(Layout.ofMask settings.network).single = true := hs
    unfold messages
    rw [if_neg hlist, if_neg hlist]
    cases h.view with
    | atom a => exact .refl _
    | array each => exact alike_dataSets settings _ each
    | object => exact .error _ _

theorem alike_envelope (settings : ReaderSettings) {role : Role} (h : Peers role ms ns) :
    Alike (envelope settings ms) (envelope settings ns) := by
  refine (alike_requiredString h _).bind fun id => (alike_requiredString h _).bind fun type => ?_
  dsimp only
  split_ifs with htype
  · exact .refl _
  · refine (alike_optString h _).bind fun publisher => (alike_optString h _).bind fun classId => ?_
    cases classId with
    | none => exact (alike_optString h _).bind fun replyTo => .refl _
    | some text =>
      dsimp only
      cases Guid.ofText? text with
      | none => exact .refl _
      | some g => exact (alike_optString h _).bind fun replyTo => .refl _

/-- a document stands for the same message in any order of members -/
theorem alike_network (settings : ReaderSettings) (h : Same (.ofMask settings.network) j k) :
    Alike (network settings j) (network settings k) := by
  unfold network
  unfold Role.ofMask at h
  simp only [Layout.ofMask]
  split_ifs at h ⊢ with hn hs
  · cases h.view with
    | atom a => exact .refl _
    | array => exact .error _ _
    | object peers =>
      refine (alike_envelope settings peers).bind fun base => ?_
      rcases peers.value? "Messages" with ⟨hj, hk⟩ | ⟨j, k, hj, hk, hjk⟩
      · rw [hj, hk]
        exact .refl _
      · rw [hj, hk]
        exact (alike_messages settings hjk).bind fun _ => .refl _
  · have hread := alike_messages settings h
    cases h.view with
    | atom a => exact .refl _
    | array => exact hread.bind fun _ => .refl _
    | @object ms ns peers hlength _ =>
      -- no member stands for no message, in both or in neither
      cases ms with
      | nil =>
        obtain rfl := List.length_eq_zero_iff.1 hlength.symm
        exact .refl _
      | cons m ms =>
        cases ns with
        | nil => cases hlength
        | cons n ns => exact hread.bind fun _ => .refl _
  · exact (alike_messages settings h).bind fun _ => .refl _

end Decoding

namespace NetworkMessage

/-- **The order of members does not matter**: two texts that stand for the same document but for the order of members
outside payloads are read as the same message, or neither is read, whatever the masks. -/
theorem decode_reordered {settings : ReaderSettings} {text text' : String} {j k : Json}
    (hj : Json.parseDocument text = .ok j) (hk : Json.parseDocument text' = .ok k)
    (h : Json.Reordered (.ofMask settings.network) j k) : Alike (decode settings text) (decode settings text') := by
  rw [decode, decode, hj, hk]
  exact Decoding.alike_network settings ⟨Json.repeated?_of_parseDocument hj, h⟩

/-- **Nor does it matter to the refusal of a text**: the compact texts of documents without repeated names that differ in
the order of members only are read as the same message, or neither is read, whatever the documents hold. If one of them is
nested too deeply or has an integer out of all range, so is the other. -/
theorem decode_render_reordered {settings : ReaderSettings} {j k : Json} (hunique : j.repeated? = none)
    (h : Json.Reordered (.ofMask settings.network) j k) :
    Alike (decode settings j.render) (decode settings k.render) := by
  obtain ⟨hread, hrefused⟩ := Json.parse_render_of_unique hunique
  obtain ⟨hread', hrefused'⟩ := Json.parse_render_of_unique (h.repeated?_eq_none_iff.1 hunique)
  unfold decode Json.parseDocument
  by_cases hlegible : Json.Legible Json.maxDepth j
  · have hj := hread hlegible
    have hsame : (j.mapAtoms Atom.scanned).repeated? = none :=
      Json.repeated?_of_parseDocument (by rw [Json.parseDocument, hj]; rfl)
    rw [hj, hread' ((h.legible_iff _).1 hlegible)]
    exact Decoding.alike_network settings ⟨hsame, h.mapAtoms Atom.scanned⟩
  · rw [hrefused hlegible, hrefused' fun hk => hlegible ((h.legible_iff _).2 hk)]
    exact .error _ _

/-- an envelope with a dataset message, the members of all its objects but the payload put in order by `turn` -/
def notice (turn : Json.Members → Json.Members) : Json :=
  .object (turn
    [("MessageId", .string "m-1"), ("MessageType", .string "ua-data"), ("PublisherId", .string "p"),
     ("Messages", .array
       [.object (turn
         [("DataSetWriterId", .string "7"),
          ("MetaDataVersion", .object (turn [("MajorVersion", .int 2), ("MinorVersion", .int 5)])),
          ("Payload", .object
            [("speed", .object (turn
              [("Value", .object (turn [("Type", .int 6), ("Body", .int 1200)])),
               ("Status", .object (turn [("Code", .int 3), ("Symbol", .string "Bad")]))])),
             ("note", .object [("Value", .null)])])])])])

/-- a reader of envelopes, dataset headers with versions, and values that carry their type and status -/
def versionedReader : ReaderSettings :=
  { network := ⟨0x0b⟩, dataSet := DataSetMask.metaDataVersion, field := ⟨0x41⟩ }

theorem reordered_notice {turn : Json.Members → Json.Members} (hturn : ∀ ms, (turn ms).Perm ms) :
    Json.Reordered (.ofMask versionedReader.network) (notice id) (notice turn) := by
  have hturned : ∀ {role : Role} {ms ns}, role ≠ .payload → Json.ReorderedMembers role ms ns →
      Json.Reordered role (.object ms) (.object (turn ns)) :=
    fun hrole h => Json.reordered_object hrole (hturn _).symm h
  have hvalue : Json.Reordered .other (.object [("Type", .int 6), ("Body", .int 1200)])
      (.object (turn [("Type", .int 6), ("Body", .int 1200)])) :=
    hturned (by decide) ⟨rfl, rfl, rfl, rfl, trivial⟩
  have hstatus : Json.Reordered .other (.object [("Code", .int 3), ("Symbol", .string "Bad")])
      (.object (turn [("Code", .int 3), ("Symbol", .string "Bad")])) :=
    hturned (by decide) ⟨rfl, rfl, rfl, rfl, trivial⟩
  have hversion : Json.Reordered .other (.object [("MajorVersion", .int 2), ("MinorVersion", .int 5)])
      (.object (turn [("MajorVersion", .int 2), ("MinorVersion", .int 5)])) :=
    hturned (by decide) ⟨rfl, rfl, rfl, rfl, trivial⟩
  have hnote : Json.Reordered .other (.object [("Value", .null)]) (.object [("Value", .null)]) :=
    Json.reordered_object (by decide) (.refl _) ⟨rfl, rfl, trivial⟩
  refine hturned (by decide) ⟨rfl, rfl, rfl, rfl, rfl, rfl, rfl, ⟨hturned (by decide) ?_, trivial⟩, trivial⟩
  refine ⟨rfl, rfl, rfl, hversion, rfl, Json.reordered_payload ?_, trivial⟩
  exact ⟨rfl, hturned (by decide) ⟨rfl, hvalue, rfl, hstatus, trivial⟩, rfl, hnote, trivial⟩

theorem readable_notice_id : Json.Readable Json.maxDepth (notice id) where
  nesting := by decide
  plain := by simp [notice, Json.AllAtoms, Json.AllAtomsItems, Json.AllAtomsMembers, Atom.Plain]
  unique := by decide

theorem readable_notice_reverse : Json.Readable Json.maxDepth (notice List.reverse) where
  nesting := by decide
  plain := by simp [notice, Json.AllAtoms, Json.AllAtomsItems, Json.AllAtomsMembers, Atom.Plain]
  unique := by decide

theorem decode_reordered_notice :
    Json.parseDocument (notice id).render = .ok (notice id) ∧
      Json.parseDocument (notice List.reverse).render = .ok (notice List.reverse) ∧
      Json.Reordered (.ofMask versionedReader.network) (notice id) (notice List.reverse) ∧
      ∃ m, decode versionedReader (notice id).render = .ok m ∧ m.messages.length = 1 ∧
        decode versionedReader (notice List.reverse).render = .ok m := by
  have hj := Json.parseDocument_render readable_notice_id
  have hk := Json.parseDocument_render readable_notice_reverse
  have hreordered := reordered_notice List.reverse_perm
  have hread : ∃ m, decode versionedReader (notice id).render = .ok m ∧ m.messages.length = 1 := by
    rw [decode, hj]
    exact ⟨_, rfl, rfl⟩
  have halike := decode_reordered hj hk hreordered
  obtain ⟨m, hm, hone⟩ := hread
  refine ⟨hj, hk, hreordered, m, hm, hone, ?_⟩
  rw [hm] at halike
  exact halike.eq_ok

end NetworkMessage

end OpcPubSub
