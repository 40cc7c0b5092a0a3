/-
What the reader makes of values as the encoder shows them, on trees.

A value with its type comes back as it was (`reversible_json`): timestamps, GUIDs, byte strings and 64-bit integers out
of their strings, status codes in either form. A bare value comes back as the type its JSON kind suggests. Whether that
type is written again as the value was is a matter of numbers only (`bare_json`): a number beyond Int32 is taken for a
64-bit integer, and 64-bit integers are written as strings.
-/
import OpcPubSub.Decoding.Values
import OpcPubSub.Proofs.Encoding.Document
import OpcPubSub.Proofs.Guid
import OpcPubSub.Proofs.Text.Base64
import OpcPubSub.Proofs.Time.DateTime

namespace OpcPubSub

/-! ## Properties of scalars, and of all scalars in a variant -/

namespace Scalar

/-- not a floating-point number -/
def Exact : Scalar → Prop
  | .float _ => False
  | .double _ => False
  | _ => True

/-- not an integer of 32 bits without sign that 32 bits with a sign do not hold -/
def Narrow : Scalar → Prop
  | .int .uint32 n => n.val ≤ IntKind.int32.greatest
  | _ => True

end Scalar

/-- `p` of the scalar, or of those in the array -/
def Variant.All (p : Scalar → Prop) : Variant → Prop
  | .null => True
  | .scalar s => p s
  | .array _ items => ∀ s, .scalar s ∈ items → p s

/-- bare values of this type are taken for it -/
def ScalarType.Inferred (type : ScalarType) : Prop := type = .boolean ∨ type = .int .int32 ∨ type = .string

/-- bare values that are taken for what they are: null, scalars of an inferred type, and arrays of them that are not
empty -/
def Variant.Inferred : Variant → Prop
  | .null => True
  | .scalar s => s.type.Inferred
  | .array elem items => elem.Inferred ∧ items ≠ []

theorem ScalarType.ofId?_id (type : ScalarType) : ofId? type.id = some type := by
  cases type with
  | int k => cases k <;> decide
  | boolean => decide
  | float => decide
  | double => decide
  | string => decide
  | dateTime => decide
  | guid => decide
  | byteString => decide
  | statusCode => decide

theorem ScalarType.id_lt (type : ScalarType) : type.id < 20 := by
  cases type with
  | int k => cases k <;> decide
  | _ => decide

/-- 64 bits hold an integer of any kind -/
theorem Whole.bounds {k : IntKind} (n : Whole k) : -(2 ^ 63) ≤ n.val ∧ n.val < 2 ^ 64 := by
  have hlow := n.least_le
  have hhigh := n.le_greatest
  have hkind : -(2 ^ 63) ≤ k.least ∧ k.greatest < 2 ^ 64 := by cases k <;> decide
  exact ⟨hkind.1.trans hlow, lt_of_le_of_lt hhigh hkind.2⟩

theorem Whole.ofInt?_val {k : IntKind} (n : Whole k) : ofInt? k n.val = some n := dif_pos ⟨n.least_le, n.le_greatest⟩

namespace Decoding

/-! ## Attributes -/

theorem unsigned_natCast {bound n : Nat} (what : String) (h : n < bound) : unsigned bound what (.int n) = .ok n := by
  rw [unsigned, if_pos ⟨Int.natCast_nonneg n, Int.ofNat_lt.2 h⟩, Int.toNat_natCast]

theorem uint32_toNat (what : String) (n : UInt32) : uint32 what (.int n.toNat) = .ok n := by
  rw [uint32, unsigned_natCast what n.toNat_lt_size, Except.map, UInt32.ofNat_toNat]

theorem uint16_toNat (what : String) (n : UInt16) : uint16 what (.int n.toNat) = .ok n := by
  rw [uint16, unsigned_natCast what n.toNat_lt_size, Except.map, UInt16.ofNat_toNat]

theorem dateTime_text (t : DateTime) : dateTime (.string t.text) = .ok t := t.ofText_text

theorem statusCode_int (c : StatusCode) : statusCode (.int c.bits.toNat) = .ok c := by
  rw [statusCode]
  · rw [uint32_toNat]; rfl
  · simp
  · simp

/-- a status code comes back from either form -/
theorem statusCode_json (c : StatusCode) (form : Bool) : statusCode (c.json form) = .ok c := by
  cases form with
  | true => exact statusCode_int c
  | false =>
    have hcode : Json.member? (Json.present [("Code", some (.int c.bits.toNat)), ("Symbol", c.symbol?.map Json.string)])
        "Code" = some (.int c.bits.toNat) := Json.member?_present (by simp) List.mem_cons_self
    rw [StatusCode.json, if_neg (by decide), statusCode, hcode]
    simp only [uint32_toNat]
    rfl

/-! ## Scalars -/

theorem integer_json {k : IntKind} (n : Whole k) (form : Bool) :
    integer k ((Scalar.int k n).json form) = .ok n := by
  rw [Scalar.json]
  split
  · have hsign : k.signed = true ∨ 0 ≤ n.val := by
      have := n.least_le
      cases hk : k.signed with
      | true => exact Or.inl rfl
      | false =>
        rw [IntKind.least, hk] at this
        exact Or.inr this
    simp [integer, Text.readInt_decimal hsign, Whole.ofInt?_val]
  · simp [integer, Whole.ofInt?_val]

/-- **A scalar of a known type** comes back -/
theorem scalar_json {s : Scalar} (h : s.Exact) (form : Bool) : scalar s.type (s.json form) = .ok s := by
  cases s with
  | boolean b => rfl
  | int k n => simp [scalar, Scalar.type, integer_json, Except.map]
  | float x => exact h.elim
  | double x => exact h.elim
  | string s => rfl
  | dateTime t => simp [scalar, Scalar.type, Scalar.json, dateTime_text, Except.map]
  | guid g => simp [scalar, Scalar.type, Scalar.json, Guid.ofText?_text]
  | byteString bytes =>
    simp [scalar, Scalar.type, Scalar.json, String.toList_ofList, Text.Base64.decode_encode]
  | statusCode c => simp [scalar, Scalar.type, Scalar.json, statusCode_json, Except.map]

theorem eq_scalar_of_scalarType? {v : Variant} {type : ScalarType} (h : v.scalarType? = some type) :
    ∃ s, v = .scalar s ∧ s.type = type := by
  cases v with
  | null => simp [Variant.scalarType?] at h
  | scalar s => exact ⟨s, rfl, by simpa [Variant.scalarType?] using h⟩
  | array elem items => simp [Variant.scalarType?] at h

theorem scalars_bodies {type : ScalarType} {items : List Variant} (hw : ∀ v ∈ items, v.scalarType? = some type)
    (he : ∀ s, .scalar s ∈ items → s.Exact) (form : Bool) :
    scalars type (Variant.bodies form items) = .ok items := by
  induction items with
  | nil => rfl
  | cons v items ih =>
    obtain ⟨s, rfl, rfl⟩ := eq_scalar_of_scalarType? (hw v List.mem_cons_self)
    have hs := scalar_json (he s List.mem_cons_self) form
    have hrest := ih (fun v hv => hw v (List.mem_cons_of_mem _ hv)) (fun s hs => he s (List.mem_cons_of_mem _ hs))
    simp [Variant.bodies, Variant.body, scalars, hs, hrest, bind, Except.bind]

/-! ## Variants with their type -/

theorem variantType_typed (type : ScalarType) (body : Json) :
    variantType [("Type", .int type.id), ("Body", body)] = .ok type := by
  simp [variantType, Json.member?, ScalarType.ofId?_id]

/-- a scalar beside its type is a leaf and not null -/
theorem scalar_json_atom (s : Scalar) : ∃ a, s.json true = .atom a ∧ a ≠ .null := by
  cases s with
  | int k n => rw [Scalar.json]; split <;> exact ⟨_, rfl, by simp⟩
  | float x => rw [Scalar.json]; split <;> exact ⟨_, rfl, by simp⟩
  | double x => rw [Scalar.json]; split <;> exact ⟨_, rfl, by simp⟩
  | boolean b => exact ⟨_, rfl, by simp⟩
  | string s => exact ⟨_, rfl, by simp⟩
  | dateTime t => exact ⟨_, rfl, by simp⟩
  | guid g => exact ⟨_, rfl, by simp⟩
  | byteString bytes => exact ⟨_, rfl, by simp⟩
  | statusCode c => exact ⟨_, rfl, by simp⟩

/-- **A variant with its type comes back** as it was written -/
theorem reversible_json {v : Variant} (hw : v.WellFormed) (he : v.All Scalar.Exact) :
    reversible (v.json true) = .ok v := by
  cases v with
  | null => rfl
  | scalar s =>
    obtain ⟨a, ha, hnull⟩ := scalar_json_atom s
    have hs := scalar_json he true
    have hbody : Json.value? [("Type", .int s.type.id), ("Body", s.json true)] "Body" = some (s.json true) := by
      have hmember : Json.member? [("Type", .int s.type.id), ("Body", s.json true)] "Body" = some (.atom a) := by
        simp [Json.member?, ha]
      rw [Json.value?, hmember, ha]
      simp [hnull]
    simp only [Variant.json, Variant.type?, Variant.body, reversible, object, bind, Except.bind, variantType_typed,
      hbody]
    rw [ha] at hs ⊢
    simp [hs, Except.map]
  | array elem items =>
    have hs := scalars_bodies hw he true
    simp only [Variant.json, Variant.type?, Variant.body, reversible, object, bind, Except.bind, variantType_typed]
    simp [Json.value?, Json.member?, hs, Except.map]

/-! ## Bare values -/

/-- an integer that no type was given for -/
theorem bareInt_val {k : IntKind} (n : Whole k) (hk : k.bits ≠ 64) :
    (∃ m : Whole .int32, m.val = n.val ∧ bareInt n.val = .int .int32 m) ∨
    k = .uint32 ∧ IntKind.int32.greatest < n.val ∧
      ∃ m : Whole .int64, m.val = n.val ∧ bareInt n.val = .int .int64 m := by
  have hlow := n.least_le
  have hhigh := n.le_greatest
  by_cases h : IntKind.int32.least ≤ n.val ∧ n.val ≤ IntKind.int32.greatest
  · refine Or.inl ⟨⟨n.val, h.1, h.2⟩, rfl, ?_⟩
    simp only [bareInt, Whole.ofInt?, dif_pos h]
  · have hrange : k = .uint32 ∧ IntKind.int32.greatest < n.val ∧ IntKind.int64.least ≤ n.val ∧
        n.val ≤ IntKind.int64.greatest := by
      cases k <;> simp [IntKind.least, IntKind.greatest, IntKind.signed, IntKind.bits] at * <;> omega
    obtain ⟨rfl, hbig, hlow64, hhigh64⟩ := hrange
    refine Or.inr ⟨rfl, hbig, ⟨n.val, hlow64, hhigh64⟩, rfl, ?_⟩
    simp only [bareInt, Whole.ofInt?, dif_neg h, dif_pos (And.intro hlow64 hhigh64)]

/-- a bare scalar is taken for one that is written as it was, numbers beyond Int32 excepted -/
theorem bare_scalar {s : Scalar} (h : s.Exact) {w : Variant} (hw : bare (s.json false) = .ok w) :
    ∃ t : Scalar, w = .scalar t ∧ t.Exact ∧ (t.json false = s.json false ↔ s.Narrow) ∧ (s.type.Inferred → t = s) := by
  cases s with
  | float x => exact h.elim
  | double x => exact h.elim
  | statusCode c => simp [Scalar.json, StatusCode.json, bare, fail] at hw
  | boolean b =>
    simp only [Scalar.json, bare, bareAtom, Except.ok.injEq] at hw
    exact ⟨_, hw.symm, trivial, by simp [Scalar.Narrow, Scalar.json], fun _ => rfl⟩
  | string s =>
    simp only [Scalar.json, bare, bareAtom, Except.ok.injEq] at hw
    exact ⟨_, hw.symm, trivial, by simp [Scalar.Narrow, Scalar.json], fun _ => rfl⟩
  | dateTime t =>
    simp only [Scalar.json, bare, bareAtom, Except.ok.injEq] at hw
    exact ⟨_, hw.symm, trivial, by simp [Scalar.Narrow, Scalar.json], by simp [Scalar.type, ScalarType.Inferred]⟩
  | guid g =>
    simp only [Scalar.json, bare, bareAtom, Except.ok.injEq] at hw
    exact ⟨_, hw.symm, trivial, by simp [Scalar.Narrow, Scalar.json], by simp [Scalar.type, ScalarType.Inferred]⟩
  | byteString bytes =>
    simp only [Scalar.json, bare, bareAtom, Except.ok.injEq] at hw
    exact ⟨_, hw.symm, trivial, by simp [Scalar.Narrow, Scalar.json], by simp [Scalar.type, ScalarType.Inferred]⟩
  | int k n =>
    rw [Scalar.json] at hw ⊢
    by_cases hk : k.bits = 64
    · simp only [hk, if_true, bare, bareAtom, Except.ok.injEq] at hw ⊢
      refine ⟨_, hw.symm, trivial, ?_, ?_⟩
      · cases k <;> simp [IntKind.bits, Scalar.Narrow, Scalar.json] at hk ⊢
      · cases k <;> simp [IntKind.bits, Scalar.type, ScalarType.Inferred] at hk ⊢
    · simp only [hk, if_false, bare, bareAtom, Except.ok.injEq] at hw ⊢
      rcases bareInt_val n hk with ⟨m, hm, hbare⟩ | ⟨rfl, hbig, m, hm, hbare⟩
      · rw [hbare] at hw
        refine ⟨_, hw.symm, trivial, ?_, ?_⟩
        · have hnarrow : (Scalar.int k n).Narrow := by
            unfold Scalar.Narrow
            split
            · next heq =>
              cases heq
              have := m.le_greatest
              omega
            · trivial
          simp [Scalar.json, IntKind.bits, hm, hnarrow]
        · simp only [Scalar.type, ScalarType.Inferred, ScalarType.int.injEq, reduceCtorEq, false_or, or_false]
          rintro rfl
          cases m; cases n; simp_all
      · rw [hbare] at hw
        refine ⟨_, hw.symm, trivial, ?_, by simp [Scalar.type, ScalarType.Inferred]⟩
        simp only [Scalar.json, IntKind.bits, if_true, Scalar.Narrow]
        constructor
        · intro heq; simp at heq
        · intro hle; omega

theorem bareItems_eq_ok (items : List Json) (vs : List Variant) :
    bareItems items = .ok vs ↔ List.Forall₂ (fun j v => bare j = .ok v) items vs := by
  induction items generalizing vs with
  | nil => simp [bareItems, eq_comm]
  | cons j items ih =>
    rw [bareItems, List.forall₂_cons_left_iff]
    cases hj : bare j with
    | error e => simp
    | ok v =>
      cases hrest : bareItems items with
      | error e => simp [← ih, hrest]
      | ok us =>
        simp only [Except.ok.injEq]
        constructor
        · rintro rfl
          exact ⟨v, us, rfl, (ih us).1 hrest, rfl⟩
        · rintro ⟨v', us', rfl, hus, rfl⟩
          rw [← ih, hrest, Except.ok.injEq] at hus
          rw [hus]

theorem ofItems_eq_ok (vs : List Variant) (w : Variant) :
    Variant.ofItems vs = .ok w ↔ vs ≠ [] ∧ ∃ elem, (∀ v ∈ vs, v.scalarType? = some elem) ∧ w = .array elem vs := by
  unfold Variant.ofItems
  cases vs with
  | nil => simp
  | cons v vs =>
    cases ht : v.scalarType? with
    | none => simp [ht]
    | some elem =>
      cases hf : (v :: vs).find? fun u => u.scalarType? ≠ some elem with
      | some u =>
        have hu := List.find?_some hf
        have hmem := List.mem_of_find?_eq_some hf
        simp only [ht, hf, reduceCtorEq, false_iff, not_and, not_exists]
        intro _ elem' hall hw
        rw [decide_eq_true_eq, hall u hmem, ← ht, hall v List.mem_cons_self] at hu
        exact absurd rfl hu
      | none =>
        have hall : ∀ u ∈ v :: vs, u.scalarType? = some elem := by
          intro u hu
          simpa using List.find?_eq_none.1 hf u hu
        simp only [ht, hf, Except.ok.injEq]
        constructor
        · rintro rfl
          exact ⟨by simp, elem, hall, rfl⟩
        · rintro ⟨-, elem', hall', rfl⟩
          have := hall' v List.mem_cons_self
          rw [ht, Option.some.injEq] at this
          rw [this]

/-- bare arrays are those of scalars that are taken for one type -/
theorem bare_array (items : List Json) (w : Variant) :
    bare (.array items) = .ok w ↔ items ≠ [] ∧ ∃ elem vs, List.Forall₂ (fun j v => bare j = .ok v) items vs ∧
      (∀ v ∈ vs, v.scalarType? = some elem) ∧ w = .array elem vs := by
  rw [bare]
  cases items with
  | nil => simp [fail]
  | cons j items =>
    simp only [List.isEmpty_cons, Bool.false_eq_true, if_false, ne_eq, reduceCtorEq, not_false_eq_true, true_and]
    cases hb : bareItems (j :: items) with
    | error e =>
      simp only [reduceCtorEq, false_iff, not_exists, not_and]
      intro elem vs hvs
      rw [← bareItems_eq_ok, hb] at hvs
      simp at hvs
    | ok vs =>
      have hvs := (bareItems_eq_ok _ vs).1 hb
      simp only
      constructor
      · intro h
        have hof : Variant.ofItems vs = .ok w := by
          cases ho : Variant.ofItems vs with
          | error e => rw [ho] at h; simp [fail] at h
          | ok u => rw [ho] at h; simpa using h
        obtain ⟨-, elem, hall, rfl⟩ := (ofItems_eq_ok vs w).1 hof
        exact ⟨elem, vs, hvs, hall, rfl⟩
      · rintro ⟨elem, us, hus, hall, rfl⟩
        rw [← bareItems_eq_ok, hb, Except.ok.injEq] at hus
        subst hus
        have hne : vs ≠ [] := by
          rintro rfl
          cases hvs
        rw [(ofItems_eq_ok vs _).2 ⟨hne, elem, hall, rfl⟩]

/-- the items of an array, taken for scalars one by one -/
theorem bare_bodies {elem : ScalarType} {items vs : List Variant} (hw : ∀ v ∈ items, v.scalarType? = some elem)
    (he : ∀ s, .scalar s ∈ items → s.Exact)
    (h : List.Forall₂ (fun j v => bare j = .ok v) (Variant.bodies false items) vs) :
    (∀ s, .scalar s ∈ vs → s.Exact) ∧
      (Variant.bodies false vs = Variant.bodies false items ↔ ∀ s, .scalar s ∈ items → s.Narrow) := by
  induction items generalizing vs with
  | nil =>
    cases h
    simp
  | cons v items ih =>
    obtain ⟨s, rfl, hs⟩ := eq_scalar_of_scalarType? (hw v List.mem_cons_self)
    rw [Variant.bodies, List.forall₂_cons_left_iff] at h
    obtain ⟨u, us, hu, hus, rfl⟩ := h
    rw [Variant.body] at hu
    obtain ⟨t, rfl, ht, hsame, -⟩ := bare_scalar (he s List.mem_cons_self) hu
    obtain ⟨hexact, hbodies⟩ := ih (fun v hv => hw v (List.mem_cons_of_mem _ hv))
      (fun s hs => he s (List.mem_cons_of_mem _ hs)) hus
    constructor
    · intro r hr
      rcases List.mem_cons.1 hr with hr | hr
      · cases hr; exact ht
      · exact hexact r hr
    · simp only [Variant.bodies, Variant.body, List.cons.injEq, hsame, hbodies, List.mem_cons, Variant.scalar.injEq]
      constructor
      · rintro ⟨hs, hrest⟩ r (rfl | hr)
        · exact hs
        · exact hrest r hr
      · exact fun hall => ⟨hall s (Or.inl rfl), fun r hr => hall r (Or.inr hr)⟩

/-- **A bare value that is read is written again as it was** iff none of its numbers is beyond Int32. It is well formed
and holds no floating-point number. -/
theorem bare_json {v : Variant} (hw : v.WellFormed) (he : v.All Scalar.Exact) {w : Variant}
    (h : bare (v.json false) = .ok w) :
    w.WellFormed ∧ w.All Scalar.Exact ∧ w.isNull = v.isNull ∧ (w.json false = v.json false ↔ v.All Scalar.Narrow) := by
  cases v with
  | null =>
    simp only [Variant.json, Variant.type?, bare, bareAtom, Except.ok.injEq] at h
    subst h
    exact ⟨trivial, trivial, rfl, by simp [Variant.All]⟩
  | scalar s =>
    obtain ⟨t, rfl, ht, hsame, -⟩ := bare_scalar he h
    exact ⟨trivial, ht, rfl, hsame⟩
  | array elem items =>
    simp only [Variant.json, Variant.type?, Variant.body, bare_array] at h
    obtain ⟨-, elem', vs, hvs, hall, rfl⟩ := h
    obtain ⟨hexact, hsame⟩ := bare_bodies hw he hvs
    refine ⟨hall, hexact, rfl, ?_⟩
    simp only [Variant.json, Variant.type?, Variant.body, Json.array.injEq]
    exact hsame

/-- **A bare value of an inferred type comes back** -/
theorem bare_json_inferred {v : Variant} (hw : v.WellFormed) (hi : v.Inferred) : bare (v.json false) = .ok v := by
  have hscalar : ∀ s : Scalar, s.type.Inferred → bare (s.json false) = .ok (.scalar s) := by
    intro s hs
    cases s with
    | boolean b => rfl
    | string s => rfl
    | int k n =>
      simp only [ScalarType.Inferred, Scalar.type, reduceCtorEq, ScalarType.int.injEq, false_or, or_false] at hs
      subst hs
      have hn : IntKind.int32.least ≤ n.val ∧ n.val ≤ IntKind.int32.greatest := ⟨n.least_le, n.le_greatest⟩
      simp only [Scalar.json, IntKind.bits, Nat.reduceEqDiff, if_false, bare, bareAtom, bareInt, Whole.ofInt?,
        dif_pos hn]
    | float x => simp [ScalarType.Inferred, Scalar.type] at hs
    | double x => simp [ScalarType.Inferred, Scalar.type] at hs
    | dateTime t => simp [ScalarType.Inferred, Scalar.type] at hs
    | guid g => simp [ScalarType.Inferred, Scalar.type] at hs
    | byteString bytes => simp [ScalarType.Inferred, Scalar.type] at hs
    | statusCode c => simp [ScalarType.Inferred, Scalar.type] at hs
  cases v with
  | null => rfl
  | scalar s => exact hscalar s hi
  | array elem items =>
    obtain ⟨hi, hne⟩ := hi
    simp only [Variant.json, Variant.type?, Variant.body, bare_array]
    refine ⟨by simpa [Variant.bodies_eq_map] using hne, elem, items, ?_, hw, rfl⟩
    rw [Variant.bodies_eq_map, List.forall₂_map_left_iff]
    apply List.forall₂_same.2
    intro v hv
    obtain ⟨s, rfl, rfl⟩ := eq_scalar_of_scalarType? (hw v hv)
    exact hscalar s hi

end Decoding

end OpcPubSub
