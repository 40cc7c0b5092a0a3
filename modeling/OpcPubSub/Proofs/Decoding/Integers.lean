/-
Integers of any size, read under an integer type.

In a text an integer is a number or a string of decimal digits (`Spelling`). A type takes no number that was scanned as a
double, and none that stands for nothing. Of the integers that are left it takes those in its range, each as itself, in
either spelling (`integer_scanned`, `integer_scanned_ne`). Main result:
- `read_integers`: so no integer in a text comes back as another one, alone or in an array.
-/
import OpcPubSub.Proofs.Decoding.Refusals
import OpcPubSub.Proofs.Json.Legible

namespace OpcPubSub

/-! ## Values that name their type -/

namespace Decoding

/-- the document of a value that names its type -/
def typed (type : ScalarType) (body : Json) : Json := .object [("Type", .int type.id), ("Body", body)]

/-- the text of a value that names its type, from the text of its body -/
def typedText (type : ScalarType) (body : String) : String :=
  "\x7b\"Type\":" ++ Text.decimal type.id ++ ",\"Body\":" ++ body ++ "\x7d"

/-- the text of an array of leaves -/
def arrayText (items : List Atom) : String := "[" ++ ",".intercalate (items.map Atom.text) ++ "]"

theorem render_array_atoms (items : List Atom) : (Json.array (items.map Json.atom)).render = arrayText items := by
  have hitems : ∀ items : List Atom, Json.renderItems true (items.map Json.atom) =
      ",".intercalate (items.map Atom.text) := by
    intro items
    induction items with
    | nil => rfl
    | cons a rest ih =>
      cases rest with
      | nil => simp [Json.renderItems, Json.render]
      | cons b rest =>
        simp only [List.map_cons] at ih ⊢
        rw [String.intercalate_cons_cons, ← ih]
        simp [Json.renderItems, Json.render, String.append_assoc]
  rw [Json.render, hitems]
  rfl

theorem render_typed (type : ScalarType) (body : Json) : (typed type body).render = typedText type body.render := by
  have htype : Json.quote "Type" = "\"Type\"" := by decide
  have hbody : Json.quote "Body" = "\"Body\"" := by decide
  apply String.toList_injective
  simp [typed, typedText, Json.render, Json.renderMembers, Atom.text, htype, hbody]

/-- the variant that a text stands for, its type being in the text -/
def readTyped (text : String) : Except Fault Variant := do
  let j ← Json.parseDocument text
  variant true j

theorem scanInt?_id (type : ScalarType) : Json.scanInt? type.id = some (.int type.id) := by
  have hlt := type.id_lt
  exact Json.scanInt?_of_plain (by constructor <;> omega)

theorem spelled_id (type : ScalarType) : (Atom.int type.id).Spelled := Option.isSome_of_eq_some (scanInt?_id type)

theorem repeated?_typed (type : ScalarType) (body : Json) : (typed type body).repeated? = body.repeated? := by
  simp [typed, Json.repeated?, Json.repeatedMembers?]

theorem legible_typed (type : ScalarType) (body : Json) :
    Json.Legible Json.maxDepth (typed type body) ↔ Json.Legible 126 body := by
  have hid : Json.Legible 126 (.int type.id) := (Json.legible_atom 126 _).2 (spelled_id type)
  simp [typed, Json.maxDepth, Json.legible_object, hid]

/-- a body that is scanned leaf by leaf -/
theorem parse_typed (type : ScalarType) {body : Json} (hunique : body.repeated? = none)
    (h : Json.Legible 126 body) :
    Json.parse (typed type body).render = .ok (typed type (body.mapAtoms Atom.scanned)) := by
  have hid : (Atom.int type.id).scanned = .int type.id := by rw [Atom.scanned, scanInt?_id, Option.getD_some]
  have hparse := (Json.parse_render_of_unique ((repeated?_typed type body).trans hunique)).1 ((legible_typed type body).2 h)
  rw [hparse]
  simp only [typed, Json.mapAtoms, Json.mapAtomsMembers, hid]

/-- a body that no reader gets past is that of a text without a document -/
theorem parse_typed_illegible (type : ScalarType) {body : Json} (hunique : body.repeated? = none)
    (h : ¬Json.Legible 126 body) : Json.parse (typed type body).render = .error .malformed :=
  (Json.parse_render_of_unique ((repeated?_typed type body).trans hunique)).2 fun hlegible =>
    h ((legible_typed type body).1 hlegible)

theorem readTyped_of_parse {text : String} {j : Json} (h : Json.parse text = .ok j) :
    readTyped text = reversible j := by
  rw [readTyped, Json.parseDocument, h]
  rfl

theorem readTyped_of_malformed {text : String} (h : Json.parse text = .error .malformed) :
    ∃ reason, readTyped text = .error (.decode reason) := by
  rw [readTyped, Json.parseDocument, h]
  exact ⟨_, rfl⟩

theorem reversible_typed_atom (type : ScalarType) {a : Atom} (ha : a ≠ .null) :
    reversible (typed type (.atom a)) = (scalar type (.atom a)).map Variant.scalar := by
  have hbody : Json.value? [("Type", .int type.id), ("Body", .atom a)] "Body" = some (.atom a) := by
    have hmember : Json.member? [("Type", .int type.id), ("Body", .atom a)] "Body" = some (.atom a) := by
      simp [Json.member?]
    rw [Json.value?, hmember]
    simp [ha]
  simp only [typed, reversible, object, bind, Except.bind, variantType_typed, hbody]

theorem reversible_typed_array (type : ScalarType) (items : List Json) :
    reversible (typed type (.array items)) = (scalars type items).map (Variant.array type) := by
  simp only [typed, reversible, object, bind, Except.bind, variantType_typed]
  simp [Json.value?, Json.member?]

end Decoding

/-! ## Integers under a type -/

/-- the integer is in the range of the kind -/
def IntKind.Holds (k : IntKind) (n : Int) : Prop := k.least ≤ n ∧ n ≤ k.greatest

/-- how an integer is written in a text -/
inductive Spelling where
  | number
  /-- a string of its decimal digits -/
  | digits
deriving DecidableEq, Repr

def Spelling.atom (n : Int) : Spelling → Atom
  | number => .int n
  | digits => .string (Text.decimal n)

theorem Spelling.scanned_ne_null {s : Spelling} {n : Int} (h : (s.atom n).Spelled) : (s.atom n).scanned ≠ .null := by
  cases s with
  | digits => simp [atom, Atom.scanned]
  | number =>
    by_cases hplain : (Atom.int n).Plain
    · have hscan := Json.scanInt?_of_plain hplain
      simp [atom, Atom.scanned, hscan]
    · rcases Json.scanInt?_of_not_plain hplain with hscan | ⟨x, hscan⟩
      · simp [atom, Atom.Spelled, hscan] at h
      · simp [atom, Atom.scanned, hscan]

theorem Text.readInt_decimal_of_neg {n : Int} (h : n < 0) : readInt false (decimal n).toList = none := by
  rw [decimal, String.toList_ofList, if_pos h, readInt]
  rfl

namespace Decoding

/-- an integer in range is read as itself, in either spelling -/
theorem integer_scanned {k : IntKind} (x : Whole k) (s : Spelling) :
    (s.atom x.val).Spelled ∧ integer k (.atom (s.atom x.val).scanned) = .ok x := by
  cases s with
  | number =>
    have hscan := Json.scanInt?_of_plain (n := x.val) x.bounds
    refine ⟨Option.isSome_of_eq_some hscan, ?_⟩
    simp only [Spelling.atom, Atom.scanned, hscan, Option.getD_some, integer, x.ofInt?_val]
  | digits =>
    have hsign : k.signed = true ∨ 0 ≤ x.val := by
      have hlow := x.least_le
      cases hk : k.signed with
      | true => exact Or.inl rfl
      | false =>
        rw [IntKind.least, if_neg (by simp [hk])] at hlow
        exact Or.inr hlow
    refine ⟨trivial, ?_⟩
    simp only [Spelling.atom, Atom.scanned, integer, Text.readInt_decimal hsign, Option.bind_some, x.ofInt?_val]

/-- an integer out of range is read as nothing: as a number of 64 bits it is out of range, a wider one is none, and as a
string of digits it is refused by its sign or its size -/
theorem integer_scanned_ne {k : IntKind} {n : Int} (h : ¬k.Holds n) {s : Spelling} (hs : (s.atom n).Spelled)
    (x : Whole k) : integer k (.atom (s.atom n).scanned) ≠ .ok x := by
  have hnone : Whole.ofInt? k n = none := dif_neg h
  cases s with
  | number =>
    by_cases hplain : (Atom.int n).Plain
    · have hscan := Json.scanInt?_of_plain hplain
      simp [Spelling.atom, Atom.scanned, hscan, integer, hnone, fail]
    · rcases Json.scanInt?_of_not_plain hplain with hscan | ⟨y, hscan⟩
      · simp [Spelling.atom, Atom.Spelled, hscan] at hs
      · simp [Spelling.atom, Atom.scanned, hscan, integer, fail]
  | digits =>
    have hread : (Text.readInt k.signed (Text.decimal n).toList).bind (Whole.ofInt? k) = none := by
      by_cases hsign : k.signed = true ∨ 0 ≤ n
      · rw [Text.readInt_decimal hsign, Option.bind_some, hnone]
      · have hk : k.signed = false := by simpa using fun hk => hsign (Or.inl hk)
        rw [hk, Text.readInt_decimal_of_neg (by omega)]
        rfl
    simp [Spelling.atom, Atom.scanned, integer, hread, fail]

/-- the leaves of an array of integers, each in a spelling of its own -/
def spelledItems (items : List (Spelling × Int)) : List Atom := items.map fun i => i.1.atom i.2

theorem scalars_scanned {k : IntKind} {items : List (Spelling × Int)} {xs : List (Whole k)}
    (h : xs.map Whole.val = items.map Prod.snd) :
    scalars (.int k) ((spelledItems items).map fun a => .atom a.scanned) =
      .ok (xs.map fun x => .scalar (.int k x)) := by
  induction items generalizing xs with
  | nil =>
    obtain rfl := List.map_eq_nil_iff.1 h
    rfl
  | cons i items ih =>
    cases xs with
    | nil => simp at h
    | cons x xs =>
      simp only [List.map_cons, List.cons.injEq] at h
      obtain ⟨hx, hrest⟩ := h
      have hread : scalar (.int k) (.atom (i.1.atom i.2).scanned) = .ok (.int k x) := by
        rw [scalar, ← hx, (integer_scanned x i.1).2]
        rfl
      simp only [spelledItems, List.map_cons, scalars, hread, bind, Except.bind]
      rw [show items.map _ = spelledItems items from rfl, ih hrest]

/-- one item out of range is enough -/
theorem scalars_scanned_ne {k : IntKind} {items : List (Spelling × Int)}
    (hspelled : ∀ a ∈ spelledItems items, a.Spelled) (h : ∃ i ∈ items, ¬k.Holds i.2) (vs : List Variant) :
    scalars (.int k) ((spelledItems items).map fun a => .atom a.scanned) ≠ .ok vs := by
  induction items generalizing vs with
  | nil => simp at h
  | cons i items ih =>
    intro hread
    simp only [spelledItems, List.map_cons, List.forall_mem_cons] at hspelled
    simp only [spelledItems, List.map_cons, scalars] at hread
    obtain ⟨s, hs, hread⟩ := bind_eq_ok.1 hread
    obtain ⟨rest, hrest, -⟩ := bind_eq_ok.1 hread
    by_cases hi : k.Holds i.2
    · have hlater : ∃ i ∈ items, ¬k.Holds i.2 := by simpa [hi] using h
      exact ih hspelled.2 hlater rest hrest
    · obtain ⟨x, hx, -⟩ := map_eq_ok.1 hs
      exact integer_scanned_ne hi hspelled.1 x hx

theorem read_integer (k : IntKind) (s : Spelling) (n : Int) :
    (∀ h : k.Holds n, readTyped (typedText (.int k) (s.atom n).text) = .ok (.scalar (.int k ⟨n, h.1, h.2⟩))) ∧
      (¬k.Holds n → ∃ reason, readTyped (typedText (.int k) (s.atom n).text) = .error (.decode reason)) := by
  have htext : typedText (.int k) (s.atom n).text = (typed (.int k) (.atom (s.atom n))).render := by
    rw [render_typed, Json.render]
  have hread : (s.atom n).Spelled → readTyped (typed (.int k) (.atom (s.atom n))).render =
      reversible (typed (.int k) (.atom (s.atom n).scanned)) :=
    fun hspelled => readTyped_of_parse (parse_typed _ rfl ((Json.legible_atom 126 _).2 hspelled))
  rw [htext]
  constructor
  · intro h
    obtain ⟨hspelled, hx⟩ := integer_scanned ⟨n, h.1, h.2⟩ s
    rw [hread hspelled, reversible_typed_atom _ (Spelling.scanned_ne_null hspelled), scalar, hx]
    rfl
  · intro h
    by_cases hspelled : (s.atom n).Spelled
    · rw [hread hspelled]
      refine (failsAsDecode_reversible _).refused fun v hv => ?_
      rw [reversible_typed_atom _ (Spelling.scanned_ne_null hspelled)] at hv
      obtain ⟨t, ht, -⟩ := map_eq_ok.1 hv
      obtain ⟨x, hx, -⟩ := map_eq_ok.1 ht
      exact integer_scanned_ne h hspelled x hx
    · exact readTyped_of_malformed
        (parse_typed_illegible _ rfl fun hlegible => hspelled ((Json.legible_atom 126 _).1 hlegible))

theorem read_integer_array (k : IntKind) (items : List (Spelling × Int)) :
    ((∀ i ∈ items, k.Holds i.2) → ∃ xs : List (Whole k), xs.map Whole.val = items.map Prod.snd ∧
      readTyped (typedText (.int k) (arrayText (spelledItems items))) =
        .ok (.array (.int k) (xs.map fun x => .scalar (.int k x)))) ∧
    ((∃ i ∈ items, ¬k.Holds i.2) → ∃ reason,
      readTyped (typedText (.int k) (arrayText (spelledItems items))) = .error (.decode reason)) := by
  have htext : typedText (.int k) (arrayText (spelledItems items)) =
      (typed (.int k) (.array ((spelledItems items).map Json.atom))).render := by
    rw [render_typed, render_array_atoms]
  have hunique : Json.repeated? (.array ((spelledItems items).map Json.atom)) = none :=
    (Json.repeatedItems?_eq_none _).2 (by simp [Json.repeated?])
  have hlegible : Json.Legible 126 (.array ((spelledItems items).map Json.atom)) ↔
      ∀ a ∈ spelledItems items, a.Spelled := by
    simp [Json.legible_array, Json.legible_atom]
  have hread : (∀ a ∈ spelledItems items, a.Spelled) →
      readTyped (typed (.int k) (.array ((spelledItems items).map Json.atom))).render =
        (scalars (.int k) ((spelledItems items).map fun a => .atom a.scanned)).map (Variant.array (.int k)) := by
    intro hspelled
    rw [readTyped_of_parse (parse_typed _ hunique (hlegible.2 hspelled)), Json.mapAtoms, Json.mapAtomsItems_eq_map,
      List.map_map, reversible_typed_array]
    rfl
  rw [htext]
  constructor
  · intro h
    obtain ⟨xs, hxs⟩ : ∃ xs : List (Whole k), xs.map Whole.val = items.map Prod.snd := by
      refine ⟨items.pmap (fun i hi => ⟨i.2, hi.1, hi.2⟩) h, ?_⟩
      rw [List.map_pmap, List.pmap_eq_map]
    have hspelled : ∀ a ∈ spelledItems items, a.Spelled := by
      intro a ha
      obtain ⟨i, hi, rfl⟩ := List.mem_map.1 ha
      exact (integer_scanned ⟨i.2, (h i hi).1, (h i hi).2⟩ i.1).1
    refine ⟨xs, hxs, ?_⟩
    rw [hread hspelled, scalars_scanned hxs]
    rfl
  · intro h
    by_cases hspelled : ∀ a ∈ spelledItems items, a.Spelled
    · rw [hread hspelled]
      refine ((failsAsDecode_scalars _ _).map _).refused fun v hv => ?_
      obtain ⟨vs, hvs, -⟩ := map_eq_ok.1 hv
      exact scalars_scanned_ne hspelled h vs hvs
    · exact readTyped_of_malformed (parse_typed_illegible _ hunique fun h => hspelled (hlegible.1 h))

/-- **No integer is read as another one.** Under each of the eight integer types, an integer of any size, written as a
number or as a string of its digits, is read as itself if it is in the range of the type, and is refused as no expected
document if it is not. An array of such integers is read item by item, and refused as a whole if one of them is out of
range. -/
theorem read_integers (k : IntKind) :
    (∀ (s : Spelling) (n : Int),
      (∀ h : k.Holds n, readTyped (typedText (.int k) (s.atom n).text) = .ok (.scalar (.int k ⟨n, h.1, h.2⟩))) ∧
      (¬k.Holds n → ∃ reason, readTyped (typedText (.int k) (s.atom n).text) = .error (.decode reason))) ∧
    ∀ items : List (Spelling × Int),
      ((∀ i ∈ items, k.Holds i.2) → ∃ xs : List (Whole k), xs.map Whole.val = items.map Prod.snd ∧
        readTyped (typedText (.int k) (arrayText (spelledItems items))) =
          .ok (.array (.int k) (xs.map fun x => .scalar (.int k x)))) ∧
      ((∃ i ∈ items, ¬k.Holds i.2) → ∃ reason,
        readTyped (typedText (.int k) (arrayText (spelledItems items))) = .error (.decode reason)) :=
  ⟨read_integer k, read_integer_array k⟩

/-- the least SByte, one more than the greatest, and an integer beyond all doubles -/
theorem read_integers_sbyte :
    readTyped (typedText (.int .sbyte) (Spelling.number.atom (-128)).text) =
        .ok (.scalar (.int .sbyte ⟨-128, by decide, by decide⟩)) ∧
      (∃ reason, readTyped (typedText (.int .sbyte) (Spelling.digits.atom 128).text) = .error (.decode reason)) ∧
      (∃ xs : List (Whole .sbyte), xs.map Whole.val = [127, -5] ∧
        readTyped (typedText (.int .sbyte) (arrayText (spelledItems [(.number, 127), (.digits, -5)]))) =
          .ok (.array (.int .sbyte) (xs.map fun x => .scalar (.int .sbyte x)))) ∧
      ∃ reason,
        readTyped (typedText (.int .sbyte) (arrayText (spelledItems [(.digits, 0), (.number, 10 ^ 200 * 10 ^ 200)]))) =
          .error (.decode reason) := by
  obtain ⟨hscalar, harray⟩ := read_integers .sbyte
  have hone : ¬IntKind.sbyte.Holds 128 := by
    rintro ⟨-, h⟩
    exact absurd h (by decide)
  have hhuge : ¬IntKind.sbyte.Holds (10 ^ 200 * 10 ^ 200) := by
    rintro ⟨-, h⟩
    norm_num [IntKind.greatest, IntKind.signed, IntKind.bits] at h
  refine ⟨(hscalar .number (-128)).1 ⟨by decide, by decide⟩, (hscalar .digits 128).2 hone, ?_, ?_⟩
  · refine (harray [(.number, 127), (.digits, -5)]).1 ?_
    intro i hi
    rcases List.mem_cons.1 hi with rfl | hi
    · constructor <;> decide
    · obtain rfl := List.mem_singleton.1 hi
      constructor <;> decide
  · exact (harray _).2 ⟨_, List.mem_cons_of_mem _ List.mem_cons_self, hhuge⟩

end Decoding

end OpcPubSub
