/-
Which documents have a text that is read.

The digits of an integer are scanned as the integer itself if 64 bits hold it, and else as a double; where the double would
be infinite they stand for nothing (`scanInt?`). Every other leaf is scanned as something: floating-point numbers as
doubles, and as null where they are no numbers. A document is legible at a depth if it is not nested deeper and no
integer in it stands for nothing. Main results:
- `leaves_spelled`: every leaf but such an integer is scanned.
- `readValue_illegible`: a document that is not legible is refused, whatever follows it.
- `parse_render_of_unique`: hence the text of a document without repeated names is read leaf by leaf if the document is
  legible, and is malformed if it is not.
-/
import OpcPubSub.Proofs.Json.Floats

namespace OpcPubSub

/-! ## Leaves in a text -/

namespace Json

/-- what the digits of an integer are scanned as -/
def scanInt? (n : Int) : Option Atom := (Numeral.ofInt n).value?

/-- an integer of 64 bits is scanned as itself -/
theorem scanInt?_of_plain {n : Int} (h : (Atom.int n).Plain) : scanInt? n = some (.int n) := value?_ofInt h

/-- any other as a double or as nothing -/
theorem scanInt?_of_not_plain {n : Int} (h : ¬(Atom.int n).Plain) :
    scanInt? n = none ∨ ∃ x, scanInt? n = some (.double x) := by
  have hvalue : scanInt? n = (Numeral.ofInt n).magnitude?.map fun x => .double (if n < 0 then -x else x) := by
    have hwide : n < -(2 ^ 63) ∨ 2 ^ 64 ≤ n := by
      simp only [Atom.Plain] at h
      omega
    simp only [scanInt?, Numeral.value?, Numeral.ofInt, Text.readDigits_digits, Option.getD_some, Option.isNone_none,
      true_and, decide_eq_true_eq, UInt64.size]
    rw [if_neg (by omega), if_neg (by omega)]
  rw [hvalue]
  cases (Numeral.ofInt n).magnitude? with
  | none => exact Or.inl rfl
  | some x => exact Or.inr ⟨_, rfl⟩

end Json

namespace Atom

/-- all leaves but integers that stand for nothing -/
def Spelled : Atom → Prop
  | .int n => (Json.scanInt? n).isSome = true
  | _ => True

/-- what the text of a leaf is scanned as -/
def scanned : Atom → Atom
  | .int n => (Json.scanInt? n).getD .null
  | .double x => if x.isFinite then (Atom.double x).reread else .null
  | .single x => if x.isFinite then (Atom.single x).reread else .null
  | a => a

theorem text_double_of_not_finite {x : Float} (h : x.isFinite ≠ true) : (Atom.double x).text = Atom.null.text := by
  show String.ofList (Number.doubleText x) = "null"
  rw [Number.doubleText, Number.floatText, if_pos (not_not.1 fun hne => h ((Number.isFinite_double x).2 hne))]

theorem text_single_of_not_finite {x : Float32} (h : x.isFinite ≠ true) : (Atom.single x).text = Atom.null.text := by
  show String.ofList (Number.singleText x) = "null"
  rw [Number.singleText, Number.floatText, if_pos (not_not.1 fun hne => h ((Number.isFinite_single x).2 hne))]

end Atom

namespace Json

/-- **Every leaf but an integer that stands for nothing is scanned** -/
theorem leaves_spelled : Leaves Atom.Spelled Atom.scanned where
  starts := by
    intro a _
    cases a with
    | int n => exact starts_decimal n
    | double x =>
      by_cases hx : x.isFinite = true
      · exact leaves_fit.starts (.double x) hx
      · rw [Atom.text_double_of_not_finite hx]
        exact leaves_plain.starts .null trivial
    | single x =>
      by_cases hx : x.isFinite = true
      · exact leaves_fit.starts (.single x) hx
      · rw [Atom.text_single_of_not_finite hx]
        exact leaves_plain.starts .null trivial
    | null => exact leaves_plain.starts .null trivial
    | bool b => exact leaves_plain.starts (.bool b) trivial
    | string s => exact leaves_plain.starts (.string s) trivial
  reads := by
    intro a ha fuel depth rest hrest
    cases a with
    | int n =>
      obtain ⟨b, hb⟩ := Option.isSome_iff_exists.1 ha
      rw [Atom.scanned, hb]
      exact readValue_numeral fuel depth (text_ofInt n).symm (grammatical_ofInt n) hb hrest
    | double x =>
      rw [Atom.scanned]
      split_ifs with hx
      · exact leaves_fit.reads (.double x) hx fuel depth rest hrest
      · rw [Atom.text_double_of_not_finite hx]
        exact leaves_plain.reads .null trivial fuel depth rest hrest
    | single x =>
      rw [Atom.scanned]
      split_ifs with hx
      · exact leaves_fit.reads (.single x) hx fuel depth rest hrest
      · rw [Atom.text_single_of_not_finite hx]
        exact leaves_plain.reads .null trivial fuel depth rest hrest
    | null => exact leaves_plain.reads .null trivial fuel depth rest hrest
    | bool b => exact leaves_plain.reads (.bool b) trivial fuel depth rest hrest
    | string s => exact leaves_plain.reads (.string s) trivial fuel depth rest hrest

theorem readValue_zero (depth : Nat) (cs : List Char) : readValue 0 depth cs = .error .malformed := by
  rw [readValue]

/-- an integer that stands for nothing is refused -/
theorem readValue_of_not_spelled {a : Atom} (h : ¬a.Spelled) (fuel depth : Nat) {rest : List Char}
    (hrest : Delimited rest) : readValue fuel depth (a.text.toList ++ rest) = .error .malformed := by
  cases fuel with
  | zero => exact readValue_zero depth _
  | succ fuel =>
    cases a with
    | int n =>
      have hvalue : (Numeral.ofInt n).value? = none := Option.not_isSome_iff_eq_none.1 h
      rw [Atom.text, ← text_ofInt, readValue_text fuel depth (grammatical_ofInt n) hrest, hvalue]
    | null | bool | double | single | string => exact absurd trivial h

/-! ## Documents that are refused -/

/-- nested at most `depth` deep, and all leaves are spelled -/
def Legible (depth : Nat) (j : Json) : Prop := j.nesting ≤ depth ∧ j.AllAtoms Atom.Spelled

theorem legible_atom (depth : Nat) (a : Atom) : Legible depth (.atom a) ↔ a.Spelled := by
  simp [Legible, nesting, AllAtoms]

theorem legible_array (depth : Nat) (items : List Json) :
    Legible (depth + 1) (.array items) ↔ ∀ j ∈ items, Legible depth j := by
  simp only [Legible, nesting, AllAtoms, Nat.add_le_add_iff_right, nestingItems_le, allAtomsItems_iff, forall_and]

theorem legible_object (depth : Nat) (ms : Members) :
    Legible (depth + 1) (.object ms) ↔ ∀ m ∈ ms, Legible depth m.2 := by
  simp only [Legible, nesting, AllAtoms, Nat.add_le_add_iff_right, nestingMembers_le, allAtomsMembers_iff, forall_and]

/-- what `readValue_illegible` says of one document -/
def RefusedIllegible (j : Json) : Prop :=
  ∀ (fuel depth : Nat) (rest : List Char), j.repeated? = none → ¬Legible depth j → Delimited rest →
    2 * j.render.toList.length ≤ fuel + 1 → readValue fuel depth (j.render.toList ++ rest) = .error .malformed

/-- a legible document without repeated names is read, whatever follows it -/
theorem readValue_legible {j : Json} (fuel : Nat) {depth : Nat} (hunique : j.repeated? = none) (h : Legible depth j)
    {rest : List Char} (hrest : Delimited rest) (hfuel : 2 * j.render.toList.length ≤ fuel + 1) :
    readValue fuel depth (j.render.toList ++ rest) = .ok (j.mapAtoms Atom.scanned, rest) := by
  rw [leaves_spelled.readValue_render j fuel depth rest h.1 h.2 hrest hfuel, hunique]
  rfl

theorem starts_render (j : Json) : ∃ c cs, j.render.toList = c :: cs ∧ Starts c := by
  cases j with
  | array items => exact ⟨_, _, render_array items, by decide⟩
  | object ms => exact ⟨_, _, render_object ms, by decide⟩
  | atom a =>
    rw [render]
    by_cases ha : a.Spelled
    · exact leaves_spelled.starts a ha
    · cases a with
      | int n => exact starts_decimal n
      | null | bool | double | single | string => exact absurd trivial ha

/-- items are refused as a whole for one that is not legible; by induction on the items before it -/
theorem readItems_illegible (items : List Json) (ih : ∀ j ∈ items, RefusedIllegible j) (fuel depth : Nat)
    (rest : List Char) (hunique : ∀ j ∈ items, j.repeated? = none) (h : ∃ j ∈ items, ¬Legible depth j)
    (hfuel : 2 * (renderItems true items).toList.length ≤ fuel) :
    readItems fuel depth ((renderItems true items).toList ++ ']' :: rest) = .error .malformed := by
  induction items generalizing fuel with
  | nil => simp at h
  | cons j items ihitems =>
    obtain ⟨c, cs, hcs, -⟩ := starts_render j
    have hdelim := delimited_items items rest
    rw [renderItems_cons, List.length_append] at hfuel
    obtain ⟨fuel, rfl⟩ : ∃ n, fuel = n + 1 := ⟨fuel - 1, by rw [hcs] at hfuel; simp at hfuel; omega⟩
    rw [renderItems_cons, List.append_assoc]
    by_cases hj : Legible depth j
    · obtain ⟨k, hk, hbad⟩ : ∃ k ∈ items, ¬Legible depth k := by simpa [hj] using h
      obtain ⟨next, others, rfl⟩ := List.exists_cons_of_ne_nil (List.ne_nil_of_mem hk)
      have hread := readValue_legible fuel (hunique j List.mem_cons_self) hj hdelim (by omega)
      rw [renderItems_false] at hfuel hread ⊢
      rw [List.length_cons] at hfuel
      rw [List.cons_append] at hread ⊢
      rw [readItems_next hread, ihitems (fun i hi => ih i (List.mem_cons_of_mem j hi)) fuel
        (fun i hi => hunique i (List.mem_cons_of_mem j hi)) ⟨k, hk, hbad⟩ (by omega)]
      rfl
    · exact readItems_of_error
        (ih j List.mem_cons_self fuel depth _ (hunique j List.mem_cons_self) hj hdelim (by omega))

/-- and so are members, `seen` the names before them -/
theorem readMembers_illegible (ms : Members) (ih : ∀ m ∈ ms, RefusedIllegible m.2) (fuel depth : Nat)
    (seen : List String) (rest : List Char) (hunique : repeatedMembers? seen ms = none)
    (h : ∃ m ∈ ms, ¬Legible depth m.2) (hfuel : 2 * (renderMembers true ms).toList.length ≤ fuel) :
    readMembers fuel depth seen ((renderMembers true ms).toList ++ '\x7d' :: rest) = .error .malformed := by
  induction ms generalizing fuel seen with
  | nil => simp at h
  | cons m ms ihms =>
    obtain ⟨name, j⟩ := m
    have hdelim := delimited_members ms rest
    rw [repeatedMembers?] at hunique
    split_ifs at hunique with hseen
    obtain ⟨hj, hms⟩ := Option.or_eq_none_iff.1 hunique
    rw [renderMembers_cons] at hfuel ⊢
    simp only [List.length_cons, List.length_append] at hfuel
    obtain ⟨fuel, rfl⟩ : ∃ n, fuel = n + 1 := ⟨fuel - 1, by omega⟩
    simp only [List.cons_append, List.append_assoc]
    by_cases hlegible : Legible depth j
    · obtain ⟨k, hk, hbad⟩ : ∃ k ∈ ms, ¬Legible depth k.2 := by simpa [hlegible] using h
      obtain ⟨next, others, rfl⟩ := List.exists_cons_of_ne_nil (List.ne_nil_of_mem hk)
      have hread := readValue_legible fuel hj hlegible hdelim (by omega)
      rw [renderMembers_false] at hfuel hread ⊢
      rw [List.length_cons] at hfuel
      rw [List.cons_append] at hread ⊢
      rw [readMembers_next hseen hread, ihms (fun i hi => ih i (List.mem_cons_of_mem _ hi)) fuel (name :: seen) hms
        ⟨k, hk, hbad⟩ (by omega)]
      rfl
    · exact readMembers_of_error hseen
        (ih (name, j) List.mem_cons_self fuel depth _ hj hlegible hdelim (by simp only; omega))

/-- **A document that is not legible is refused**, whatever follows it -/
theorem readValue_illegible (j : Json) : RefusedIllegible j := by
  induction j with
  | atom a =>
    intro fuel depth rest _ h hrest _
    rw [legible_atom] at h
    exact readValue_of_not_spelled h fuel depth hrest
  | array items ih =>
    intro fuel depth rest hunique h _ hfuel
    rw [render_array] at hfuel ⊢
    simp only [List.length_cons, List.length_append, List.length_nil] at hfuel
    obtain ⟨fuel, rfl⟩ : ∃ n, fuel = n + 1 := ⟨fuel - 1, by omega⟩
    simp only [List.cons_append, List.append_assoc, List.nil_append]
    cases depth with
    | zero => rw [readValue]; rfl
    | succ depth =>
      obtain ⟨j, hj, hbad⟩ : ∃ j ∈ items, ¬Legible depth j := by
        simpa only [legible_array, not_forall, exists_prop] using h
      obtain ⟨first, others, rfl⟩ := List.exists_cons_of_ne_nil (List.ne_nil_of_mem hj)
      obtain ⟨c, cs, hcs, hstarts⟩ := starts_render first
      have hread := readItems_illegible (first :: others) ih fuel depth rest
        ((repeatedItems?_eq_none _).1 hunique) ⟨j, hj, hbad⟩ (by omega)
      rw [renderItems_cons, hcs, List.cons_append, List.cons_append] at hread ⊢
      rw [readValue_array hstarts, hread]
      rfl
  | object ms ih =>
    intro fuel depth rest hunique h _ hfuel
    rw [render_object] at hfuel ⊢
    simp only [List.length_cons, List.length_append, List.length_nil] at hfuel
    obtain ⟨fuel, rfl⟩ : ∃ n, fuel = n + 1 := ⟨fuel - 1, by omega⟩
    simp only [List.cons_append, List.append_assoc, List.nil_append]
    cases depth with
    | zero => rw [readValue]; rfl
    | succ depth =>
      obtain ⟨m, hm, hbad⟩ : ∃ m ∈ ms, ¬Legible depth m.2 := by
        simpa only [legible_object, not_forall, exists_prop] using h
      obtain ⟨⟨name, j⟩, others, rfl⟩ := List.exists_cons_of_ne_nil (List.ne_nil_of_mem hm)
      have hread := readMembers_illegible _ ih fuel depth [] rest hunique ⟨m, hm, hbad⟩ (by omega)
      rw [renderMembers_cons, List.cons_append] at hread ⊢
      rw [readValue_object, hread]
      rfl

/-- **The compact text of a document without repeated names is read leaf by leaf**, or is malformed if the document is
nested too deeply or has an integer that stands for nothing. -/
theorem parse_render_of_unique {j : Json} (hunique : j.repeated? = none) :
    (Legible maxDepth j → parse j.render = .ok (j.mapAtoms Atom.scanned)) ∧
      (¬Legible maxDepth j → parse j.render = .error .malformed) := by
  constructor
  · intro h
    rw [parse_render_as leaves_spelled h.1 h.2, hunique]
  · intro h
    have hread := readValue_illegible j (2 * j.render.toList.length + 2) maxDepth [] hunique h Delimited.nil (by omega)
    rw [List.append_nil] at hread
    simp only [parse, hread]

end Json

end OpcPubSub
