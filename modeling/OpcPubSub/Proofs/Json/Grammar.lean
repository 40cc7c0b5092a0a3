/-
The JSON grammar, as far as it is needed: texts without blanks.

`WellFormed` says that a text is a document, without saying of what: words, numerals, strings, and texts with commas
between them inside brackets. Main result:
- `wellFormed_render`: the compact text of every document is one, whatever its strings and numbers are. A double that is
  no number is shown as null.
-/
import OpcPubSub.Proofs.Json.Floats

namespace OpcPubSub.Json

/-- what may stand between the quotes of a string: characters, short escapes, and escapes of four digits -/
inductive StringBody : List Char → Prop where
  | nil : StringBody []
  | plain {c : Char} {cs : List Char} (hcontrol : 0x20 ≤ c.toNat) (hquote : c ≠ '"') (hslash : c ≠ '\\')
      (h : StringBody cs) : StringBody (c :: cs)
  | short {c : Char} {cs : List Char} (hc : c ∈ ['"', '\\', '/', 'b', 'f', 'n', 'r', 't']) (h : StringBody cs) :
      StringBody ('\\' :: c :: cs)
  | digits {ds cs : List Char} (hlength : ds.length = 4) (hds : ∀ d ∈ ds, (Text.hexValue d).isSome = true)
      (h : StringBody cs) : StringBody ('\\' :: 'u' :: (ds ++ cs))

/-- texts with a comma between one and the next -/
def separated (texts : List (List Char)) : List Char := [','].intercalate texts

/-- a document of the grammar -/
inductive WellFormed : List Char → Prop where
  | word {cs : List Char} (h : cs ∈ ["null".toList, "true".toList, "false".toList]) : WellFormed cs
  | number {n : Numeral} (h : n.Grammatical) : WellFormed n.text
  | string {cs : List Char} (h : StringBody cs) : WellFormed ('"' :: (cs ++ ['"']))
  | array {items : List (List Char)} (h : ∀ i ∈ items, WellFormed i) : WellFormed ('[' :: (separated items ++ [']']))
  | object {members : List (List Char × List Char)} (hnames : ∀ m ∈ members, StringBody m.1)
      (h : ∀ m ∈ members, WellFormed m.2) :
      WellFormed ('\x7b' :: (separated (members.map fun m => '"' :: (m.1 ++ '"' :: ':' :: m.2)) ++ ['\x7d']))

/-! ## Strings -/

theorem StringBody.escapeChar {cs : List Char} (h : StringBody cs) (c : Char) : StringBody (escapeChar c ++ cs) := by
  unfold Json.escapeChar
  split_ifs with h1 h2 h3 h4 h5 h6 h7 h8
  iterate 7 exact .short (by decide) h
  · refine .digits (Text.length_hexDigits 4 c.toNat) (fun d hd => ?_) h
    exact Option.isSome_iff_exists.2 (Text.hexValue_of_mem_hexDigits hd)
  · exact .plain (by omega) h1 h2 h

theorem stringBody_escaped (s : List Char) : StringBody (s.flatMap escapeChar) := by
  induction s with
  | nil => exact .nil
  | cons c s ih => exact ih.escapeChar c

/-! ## Leaves -/

theorem wellFormed_floatText {f : Number.Format} {w : Number.Window} (h : Number.Printable f w) (bits : ℕ) :
    WellFormed (Number.floatText f w bits) := by
  by_cases hspecial : (f.fields bits).biased = f.special
  · rw [Number.floatText, if_pos hspecial]
    exact .word (by decide)
  · rw [Number.floatText_eq f w hspecial]
    exact .number (Number.grammatical_numeral h (Number.zero_or_regular hspecial))

theorem wellFormed_atom (a : Atom) : WellFormed a.text.toList := by
  cases a with
  | null => exact .word (by decide)
  | bool b => cases b <;> exact .word (by decide)
  | int n =>
    rw [Atom.text, ← text_ofInt]
    exact .number (grammatical_ofInt n)
  | double x =>
    rw [Atom.text, String.toList_ofList]
    exact wellFormed_floatText Number.printable_binary64 _
  | single x =>
    rw [Atom.text, String.toList_ofList]
    exact wellFormed_floatText Number.printable_binary32 _
  | string s =>
    rw [Atom.text, quote, String.toList_ofList, List.cons_append]
    exact .string (stringBody_escaped s.toList)

/-! ## Containers -/

theorem renderItems_eq_separated (items : List Json) :
    (renderItems true items).toList = separated (items.map fun j => j.render.toList) := by
  induction items with
  | nil => rfl
  | cons j rest ih =>
    rw [renderItems_cons, separated, List.map_cons]
    cases rest with
    | nil => simp [renderItems]
    | cons k rest =>
      rw [renderItems_false, ih, separated, List.map_cons, List.intercalate_cons_cons]
      simp

theorem renderMembers_eq_separated (ms : Members) :
    (renderMembers true ms).toList =
      separated (ms.map fun m => '"' :: (m.1.toList.flatMap escapeChar ++ '"' :: ':' :: m.2.render.toList)) := by
  induction ms with
  | nil => rfl
  | cons m rest ih =>
    obtain ⟨name, j⟩ := m
    rw [renderMembers_cons, separated, List.map_cons]
    cases rest with
    | nil => simp [renderMembers]
    | cons n rest =>
      rw [renderMembers_false, ih, separated, List.map_cons, List.intercalate_cons_cons]
      simp

/-- **The text of every document is well-formed.** -/
theorem wellFormed_render (j : Json) : WellFormed j.render.toList := by
  induction j with
  | atom a => exact wellFormed_atom a
  | array items ih =>
    rw [render_array, renderItems_eq_separated]
    exact .array (List.forall_mem_map.2 ih)
  | object ms ih =>
    rw [render_object, renderMembers_eq_separated]
    have hnames : ∀ m ∈ ms.map fun m => (m.1.toList.flatMap escapeChar, m.2.render.toList), StringBody m.1 :=
      List.forall_mem_map.2 fun m _ => stringBody_escaped m.1.toList
    have hobject := WellFormed.object hnames (List.forall_mem_map.2 ih)
    rw [List.map_map] at hobject
    exact hobject

end OpcPubSub.Json
