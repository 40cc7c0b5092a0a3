/-
Arrays that are written without their type.

The reader takes each item for what it looks like and wants all items to look alike. Numbers of one type may not: an
unsigned integer of 32 bits looks like Int32 or Int64 by its size, and a floating-point number is a number only if it is
finite. Main results:
- `Scalar.bare_reread`: what an item is taken for after its text is read;
- `Scalar.inferred_eq_iff`: when two scalars of one type are taken for one type;
- `Variant.write_read_array_iff`: hence which arrays are read.
-/
import OpcPubSub.Proofs.Decoding.Values
import OpcPubSub.Proofs.Encoding.WritesDocument
import OpcPubSub.Proofs.Json.Floats
import OpcPubSub.Proofs.Message.Visible

namespace OpcPubSub

open Number

/-! ## What a scalar is taken for -/

namespace Scalar

/-- not infinite, and a number -/
def Finite : Scalar → Prop
  | .float x => x.isFinite = true
  | .double x => x.isFinite = true
  | _ => True

/-- the type a scalar is taken for where its own is not written -/
def inferred : Scalar → ScalarType
  | .boolean _ => .boolean
  | .int k n => if k.bits = 64 then .string else if n.val ≤ IntKind.int32.greatest then .int .int32 else .int .int64
  | .float x => if x.isFinite then .double else .string
  | .double x => if x.isFinite then .double else .string
  | _ => .string

theorem narrow_of_bits {k : IntKind} (hk : k.bits = 64) (n : Whole k) : (int k n).Narrow := by
  cases k <;> trivial

/-- of the smaller types only one has numbers beyond Int32 -/
theorem narrow_iff {k : IntKind} (hk : k.bits ≠ 64) (n : Whole k) :
    (int k n).Narrow ↔ n.val ≤ IntKind.int32.greatest := by
  have hhigh := n.le_greatest
  cases k with
  | uint32 => exact Iff.rfl
  | int64 => exact absurd rfl hk
  | uint64 => exact absurd rfl hk
  | _ => exact iff_of_true trivial (hhigh.trans (by decide))

/-- **Two scalars of one type are taken for one type** iff they are equally wide and equally finite -/
theorem inferred_eq_iff {s t : Scalar} (h : s.type = t.type) :
    s.inferred = t.inferred ↔ (s.Narrow ↔ t.Narrow) ∧ (s.Finite ↔ t.Finite) := by
  cases s with
  | int k n =>
    cases t with
    | int k' n' =>
      simp only [type, ScalarType.int.injEq] at h
      subst h
      by_cases hk : k.bits = 64
      · simp [inferred, hk, narrow_of_bits hk, Finite]
      · rw [narrow_iff hk, narrow_iff hk]
        by_cases hn : n.val ≤ IntKind.int32.greatest <;> by_cases hn' : n'.val ≤ IntKind.int32.greatest <;>
          simp [inferred, hk, hn, hn', Finite]
    | _ => simp [type] at h
  | float x =>
    cases t with
    | float y =>
      by_cases hx : x.isFinite = true <;> by_cases hy : y.isFinite = true <;> simp [inferred, Narrow, Finite, hx, hy]
    | _ => simp [type] at h
  | double x =>
    cases t with
    | double y =>
      by_cases hx : x.isFinite = true <;> by_cases hy : y.isFinite = true <;> simp [inferred, Narrow, Finite, hx, hy]
    | _ => simp [type] at h
  | _ => cases t <;> simp_all [type, inferred, Narrow, Finite]

/-- **A bare scalar is a leaf**, and its text is read as a scalar of the type it is taken for -/
theorem bare_reread {s : Scalar} (h : s.type ≠ .statusCode) :
    ∃ a t, s.json false = .atom a ∧ a.Fits ∧ Decoding.bareAtom a.reread = .scalar t ∧ t.type = s.inferred := by
  cases s with
  | boolean b => exact ⟨_, _, rfl, trivial, rfl, rfl⟩
  | string s => exact ⟨_, _, rfl, trivial, rfl, rfl⟩
  | dateTime t => exact ⟨_, _, rfl, trivial, rfl, rfl⟩
  | guid g => exact ⟨_, _, rfl, trivial, rfl, rfl⟩
  | byteString bytes => exact ⟨_, _, rfl, trivial, rfl, rfl⟩
  | statusCode c => exact absurd rfl h
  | float x =>
    have hfinite := nonFinite?_single x
    rw [json, inferred]
    cases hname : nonFinite? .binary32 x.toBits.toNat with
    | none =>
      have hx := hfinite.1 hname
      exact ⟨_, _, rfl, hx, rfl, by rw [if_pos hx, type]⟩
    | some name =>
      have hx : ¬x.isFinite = true := fun h => by simp [hfinite.2 h] at hname
      exact ⟨_, _, rfl, trivial, rfl, by rw [if_neg hx, type]⟩
  | double x =>
    have hfinite := nonFinite?_double x
    rw [json, inferred]
    cases hname : nonFinite? .binary64 x.toBits.toNat with
    | none =>
      have hx := hfinite.1 hname
      exact ⟨_, _, rfl, hx, rfl, by rw [if_pos hx, type]⟩
    | some name =>
      have hx : ¬x.isFinite = true := fun h => by simp [hfinite.2 h] at hname
      exact ⟨_, _, rfl, trivial, rfl, by rw [if_neg hx, type]⟩
  | int k n =>
    rw [json, inferred]
    by_cases hk : k.bits = 64
    · rw [if_pos hk, if_pos hk]
      exact ⟨_, _, rfl, trivial, rfl, rfl⟩
    · rw [if_neg hk, if_neg hk]
      refine ⟨_, Decoding.bareInt n.val, rfl, n.bounds, rfl, ?_⟩
      rcases Decoding.bareInt_val n hk with ⟨m, hm, hbare⟩ | ⟨-, hbig, m, hm, hbare⟩
      · rw [hbare, if_pos (hm ▸ m.le_greatest), type]
      · rw [hbare, if_neg (by omega), type]

end Scalar

/-! ## Arrays -/

namespace Variant

variable {elem : ScalarType} {items : List Variant}

/-- the items are read one by one, each as a scalar of the type it is taken for -/
theorem bareItems_reread (hw : ∀ v ∈ items, v.scalarType? = some elem) (helem : elem ≠ .statusCode) :
    ∃ vs, Decoding.bareItems ((bodies false items).map (Json.mapAtoms Atom.reread)) = .ok vs ∧
      vs.length = items.length ∧
      ∀ type, (∀ u ∈ vs, u.scalarType? = some type) ↔ ∀ s, .scalar s ∈ items → s.inferred = type := by
  induction items with
  | nil => exact ⟨[], rfl, rfl, by simp⟩
  | cons v items ih =>
    obtain ⟨vs, hvs, hlength, htypes⟩ := ih fun u hu => hw u (List.mem_cons_of_mem _ hu)
    obtain ⟨s, rfl, rfl⟩ := Decoding.eq_scalar_of_scalarType? (hw v List.mem_cons_self)
    obtain ⟨a, t, hjson, -, hbare, htype⟩ := Scalar.bare_reread helem
    refine ⟨.scalar t :: vs, ?_, by rw [List.length_cons, List.length_cons, hlength], ?_⟩
    · rw [bodies, body, hjson, List.map_cons, Json.mapAtoms, Decoding.bareItems, Decoding.bare, hbare, hvs]
    · intro type
      rw [List.forall_mem_cons, htypes, scalarType?, htype, Option.some_inj]
      constructor
      · rintro ⟨hs, hrest⟩ r hr
        rcases List.mem_cons.1 hr with hr | hr
        · cases hr
          exact hs
        · exact hrest r hr
      · exact fun hall => ⟨hall s List.mem_cons_self, fun r hr => hall r (List.mem_cons_of_mem _ hr)⟩

/-- the items are taken for one type iff they are equally wide and equally finite -/
theorem inferred_iff (hne : items ≠ []) (hw : ∀ v ∈ items, v.scalarType? = some elem) :
    (∃ type, ∀ s, .scalar s ∈ items → s.inferred = type) ↔
      ((array elem items).All Scalar.Narrow ∨ (array elem items).All fun s => ¬s.Narrow) ∧
        ((array elem items).All Scalar.Finite ∨ (array elem items).All fun s => ¬s.Finite) := by
  obtain ⟨v, hv⟩ := List.exists_mem_of_ne_nil items hne
  obtain ⟨s, rfl, hs⟩ := Decoding.eq_scalar_of_scalarType? (hw v hv)
  have hsame : ∀ t, .scalar t ∈ items → (t.inferred = s.inferred ↔ (t.Narrow ↔ s.Narrow) ∧ (t.Finite ↔ s.Finite)) := by
    intro t ht
    have htype := hw _ ht
    rw [scalarType?, Option.some_inj] at htype
    exact Scalar.inferred_eq_iff (htype.trans hs.symm)
  constructor
  · rintro ⟨type, htype⟩
    have hall : ∀ t, .scalar t ∈ items → (t.Narrow ↔ s.Narrow) ∧ (t.Finite ↔ s.Finite) := fun t ht =>
      (hsame t ht).1 ((htype t ht).trans (htype s hv).symm)
    constructor
    · by_cases hn : s.Narrow
      · exact Or.inl fun t ht => (hall t ht).1.2 hn
      · exact Or.inr fun t ht h => hn ((hall t ht).1.1 h)
    · by_cases hf : s.Finite
      · exact Or.inl fun t ht => (hall t ht).2.2 hf
      · exact Or.inr fun t ht h => hf ((hall t ht).2.1 h)
  · rintro ⟨hnarrow, hfinite⟩
    refine ⟨s.inferred, fun t ht => (hsame t ht).2 ⟨?_, ?_⟩⟩
    · rcases hnarrow with h | h
      · exact iff_of_true (h t ht) (h s hv)
      · exact iff_of_false (h t ht) (h s hv)
    · rcases hfinite with h | h
      · exact iff_of_true (h t ht) (h s hv)
      · exact iff_of_false (h t ht) (h s hv)

/-- every item is a leaf -/
theorem atom_of_mem_bodies (hw : ∀ v ∈ items, v.scalarType? = some elem) (helem : elem ≠ .statusCode) {j : Json}
    (hj : j ∈ bodies false items) : ∃ a : Atom, j = .atom a ∧ a.Fits := by
  rw [bodies_eq_map] at hj
  obtain ⟨v, hv, rfl⟩ := List.mem_map.1 hj
  obtain ⟨s, rfl, rfl⟩ := Decoding.eq_scalar_of_scalarType? (hw v hv)
  obtain ⟨a, -, hjson, hfits, -⟩ := Scalar.bare_reread helem
  exact ⟨a, hjson, hfits⟩

theorem parse_field (hw : ∀ v ∈ items, v.scalarType? = some elem) (helem : elem ≠ .statusCode) (name : String) :
    Json.parseDocument (Json.object [(name, .array (bodies false items))]).render =
      .ok (.object [(name, .array ((bodies false items).map (Json.mapAtoms Atom.reread)))]) := by
  have hatom : ∀ j ∈ bodies false items, ∃ a : Atom, j = .atom a ∧ a.Fits := fun j => atom_of_mem_bodies hw helem
  have hnesting : (Json.object [(name, .array (bodies false items))]).nesting ≤ Json.maxDepth := by
    have hitems : Json.nestingItems (bodies false items) ≤ 0 := (Json.nestingItems_le _ 0).2 fun j hj => by
      obtain ⟨a, rfl, -⟩ := hatom j hj
      exact le_rfl
    have hmembers : Json.nestingMembers [(name, .array (bodies false items))] ≤ 1 :=
      (Json.nestingMembers_le _ 1).2 fun m hm => by
        obtain rfl := List.mem_singleton.1 hm
        exact Nat.succ_le_succ hitems
    exact (Nat.succ_le_succ hmembers).trans (by decide)
  have hfits : (Json.object [(name, .array (bodies false items))]).AllAtoms Atom.Fits := by
    refine ⟨(Json.allAtomsItems_iff _ _).2 fun j hj => ?_, trivial⟩
    obtain ⟨a, rfl, ha⟩ := hatom j hj
    exact ha
  have hunique : (Json.object [(name, .array (bodies false items))]).repeated? = none := by
    refine (Json.repeated?_object_eq_none _).2 ⟨List.nodup_singleton name, fun m hm => ?_⟩
    obtain rfl := List.mem_singleton.1 hm
    refine (Json.repeatedItems?_eq_none _).2 fun j hj => ?_
    obtain ⟨a, rfl, -⟩ := hatom j hj
    rfl
  rw [Json.parseDocument, Json.parse_render_as Json.leaves_fit hnesting hfits, hunique]
  simp only [Json.mapAtoms, Json.mapAtomsMembers, Json.mapAtomsItems_eq_map]
  rfl

/-- an array is read iff its items are taken for one type -/
theorem read_field_iff (hne : items ≠ []) (hw : ∀ v ∈ items, v.scalarType? = some elem) (helem : elem ≠ .statusCode)
    {mask : FieldMask} (hmask : mask.contains FieldMask.rawData = true) :
    (∃ type vs, Decoding.field mask (.array ((bodies false items).map (Json.mapAtoms Atom.reread))) =
        .ok (.plain (.array type vs)) ∧ vs.length = items.length) ↔
      ∃ type, ∀ s, .scalar s ∈ items → s.inferred = type := by
  obtain ⟨vs, hvs, hlength, htypes⟩ := bareItems_reread hw helem
  rw [Decoding.field, FieldEncoding.ofMask_eq_rawData hmask]
  simp only
  constructor
  · rintro ⟨type, us, hfield, -⟩
    cases hbare : Decoding.bare (.array ((bodies false items).map (Json.mapAtoms Atom.reread))) with
    | error e => simp [hbare, Except.map] at hfield
    | ok w =>
      obtain ⟨-, type', ws, hws, htypes', -⟩ := (Decoding.bare_array _ _).1 hbare
      rw [← Decoding.bareItems_eq_ok, hvs, Except.ok.injEq] at hws
      subst hws
      exact ⟨type', (htypes type').1 htypes'⟩
  · rintro ⟨type, htype⟩
    have hempty : (bodies false items).map (Json.mapAtoms Atom.reread) ≠ [] := by simpa [bodies_eq_map] using hne
    have hbare := (Decoding.bare_array _ _).2
      ⟨hempty, type, vs, (Decoding.bareItems_eq_ok _ vs).1 hvs, (htypes type).2 htype, rfl⟩
    exact ⟨type, vs, by rw [hbare, Except.map], hlength⟩

theorem writes_field (array : Variant) (hnull : array.isNull = false) {v : DataValue} (hv : v.value = array)
    (name : String) {mask : FieldMask} (hmask : mask.contains FieldMask.rawData = true) (reversible : Bool) :
    Write.Writes reversible (Write.scope .object none (Write.field name v mask)) none
      (.object [(name, array.json false)]) := by
  have hfield : v.field? mask = some (array.json false) := by
    rw [DataValue.field?_eq, FieldEncoding.ofMask_eq_rawData hmask, hv, hnull]
    rfl
  have hwrites := @Write.writes_field reversible name v mask
  rw [hfield] at hwrites
  exact hwrites.object none

/-- **An array without its type is read, item for item, iff its items look alike**: all or none of its unsigned
integers of 32 bits are within Int32, and all or none of its floating-point numbers are finite. It is always written and
parsed. -/
theorem write_read_array_iff {v : Variant} (hv : ofItems items = .ok v) (hstatus : v.type? ≠ some .statusCode)
    {mask : FieldMask} (hmask : mask.contains FieldMask.rawData = true) {d : DataValue} (hd : d.value = v)
    (name : String) (reversible : Bool) :
    ∃ w text j, Write.scope .object none (Write.field name d mask) { reversible } = .ok () w ∧ w.finish = .ok text ∧
      Json.parseDocument text = .ok (.object [(name, j)]) ∧
      ((∃ type vs, Decoding.field mask j = .ok (.plain (.array type vs)) ∧ vs.length = items.length) ↔
        (v.All Scalar.Narrow ∨ v.All fun s => ¬s.Narrow) ∧ (v.All Scalar.Finite ∨ v.All fun s => ¬s.Finite)) := by
  obtain ⟨hne, elem, hw, rfl⟩ := (Decoding.ofItems_eq_ok _ _).1 hv
  have helem : elem ≠ .statusCode := fun h => hstatus (congrArg some h)
  obtain ⟨w, hwrite, hfinish⟩ := (writes_field (array elem items) rfl hd name hmask reversible).finish
  exact ⟨w, _, _, hwrite, hfinish, parse_field hw helem name,
    (read_field_iff hne hw helem hmask).trans (inferred_iff hne hw)⟩

/-- an array of 32-bit integers without sign -/
def counts (ns : List UInt32) : List Variant := ns.map fun n => .scalar (.int .uint32 (Whole.ofUInt32 n))

theorem mem_counts {ns : List UInt32} {s : Scalar} :
    .scalar s ∈ counts ns ↔ ∃ n ∈ ns, s = .int .uint32 (Whole.ofUInt32 n) := by
  simp [counts, eq_comm]

theorem scalarType?_counts (ns : List UInt32) : ∀ v ∈ counts ns, v.scalarType? = some (.int .uint32) := by
  intro v hv
  obtain ⟨n, -, rfl⟩ := List.mem_map.1 hv
  rfl

theorem narrow_counts (ns : List UInt32) :
    (array (.int .uint32) (counts ns)).All Scalar.Narrow ↔ ∀ n ∈ ns, n.toNat ≤ 2147483647 := by
  constructor
  · intro h n hn
    have hle : (n.toNat : ℤ) ≤ 2147483647 := h _ (mem_counts.2 ⟨n, hn, rfl⟩)
    omega
  · intro h s hs
    obtain ⟨n, hn, rfl⟩ := mem_counts.1 hs
    have := h n hn
    show (n.toNat : ℤ) ≤ 2147483647
    omega

theorem finite_counts (ns : List UInt32) : (array (.int .uint32) (counts ns)).All Scalar.Finite := by
  intro s hs
  obtain ⟨n, -, rfl⟩ := mem_counts.1 hs
  trivial

/-- small integers are read -/
theorem write_read_array_counts :
    ofItems (counts [1, 3]) = .ok (.array (.int .uint32) (counts [1, 3])) ∧
      FieldMask.rawData.contains FieldMask.rawData = true ∧ ∃ w text j type vs,
        Write.scope .object none
            (Write.field "a" (.plain (.array (.int .uint32) (counts [1, 3]))) FieldMask.rawData)
            { reversible := true } = .ok () w ∧ w.finish = .ok text ∧ Json.parseDocument text = .ok (.object [("a", j)]) ∧
        Decoding.field FieldMask.rawData j = .ok (.plain (.array type vs)) ∧ vs.length = 2 := by
  have hitems : ofItems (counts [1, 3]) = .ok (.array (.int .uint32) (counts [1, 3])) := rfl
  have hmask : FieldMask.rawData.contains FieldMask.rawData = true := by decide
  obtain ⟨w, text, j, hwrite, hfinish, hparse, hread⟩ :=
    write_read_array_iff hitems (by simp [type?]) hmask (d := .plain _) rfl "a" true
  have hnarrow := (narrow_counts [1, 3]).2 (by simp)
  obtain ⟨type, vs, hfield, hlength⟩ := hread.2 ⟨Or.inl hnarrow, Or.inl (finite_counts _)⟩
  exact ⟨hitems, hmask, w, text, j, type, vs, hwrite, hfinish, hparse, hfield, hlength⟩

/-- integers on both sides of the bound are not: one looks like Int32 and one like Int64 -/
theorem not_write_read_array :
    ¬∀ (items : List Variant) (v : Variant) (mask : FieldMask) (d : DataValue) (name : String) (reversible : Bool),
      ofItems items = .ok v → v.type? ≠ some .statusCode → mask.contains FieldMask.rawData = true → d.value = v →
      ∃ w text j d' type vs, Write.scope .object none (Write.field name d mask) { reversible } = .ok () w ∧
        w.finish = .ok text ∧ Json.parseDocument text = .ok (.object [(name, j)]) ∧ Decoding.field mask j = .ok d' ∧
        d'.value = .array type vs ∧ vs.length = items.length := by
  intro h
  have hmask : FieldMask.rawData.contains FieldMask.rawData = true := by decide
  obtain ⟨w, text, j, d', -, -, hwrite, hfinish, hparse, hfield, -, -⟩ :=
    h (counts [1, 3000000000]) (.array (.int .uint32) (counts [1, 3000000000])) FieldMask.rawData (.plain _) "a" true
      rfl (by simp [type?]) hmask rfl
  have hwrites := writes_field (.array (.int .uint32) (counts [1, 3000000000])) rfl (v := .plain _) rfl "a" hmask true
  obtain rfl := hwrites.eq_render hwrite hfinish
  have hj := hparse.symm.trans (parse_field (scalarType?_counts [1, 3000000000]) (by decide) "a")
  have hitems : j = .array ((bodies false (counts [1, 3000000000])).map (Json.mapAtoms Atom.reread)) := by
    simpa using Except.ok.inj hj
  have herror : Decoding.field FieldMask.rawData (.array [.int 1, .int 3000000000]) = .error _ := rfl
  cases herror.symm.trans (hitems ▸ hfield)

end Variant

end OpcPubSub
