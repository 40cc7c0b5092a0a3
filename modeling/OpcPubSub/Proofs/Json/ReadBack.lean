/-
The compact text of a document is read as the document, unless an object in it repeats a name; then the first
repetition is reported.

A text is read from the front, so each lemma leaves the rest of the text open: what follows a value must only not
go on with a number (`Delimited`). Strings come back one escape at a time. Which leaf the text of a leaf is read as is
left open too (`Leaves`), so that the walk through containers is the same for leaves that come back and for numbers that
are only read as nearly the same. The reader's fuel is enough because a value of `n` characters spends less than
`2 * n` units.

Main results:
- `readItems_next`, `readMembers_next` and the lemmas beside them: one step of each reader, past a value that is read or
  refused;
- `parse_render_as`: what `parse` answers to the compact text of a document that is not nested too deeply, its leaves
  read one by one;
- `parse_render`: the document itself, if its numbers are integers of 64 bits.
-/
import OpcPubSub.Json.Parse
import OpcPubSub.Json.Render
import OpcPubSub.Proofs.Json.Numerals
import OpcPubSub.Proofs.Json.Tree

namespace OpcPubSub

namespace Json

/-! ## Strings -/

/-- one character back from its escape -/
theorem readChar_escapeChar (c : Char) (rest : List Char) : readChar (escapeChar c ++ rest) = some (c, rest) := by
  unfold escapeChar
  split_ifs with h1 h2 h3 h4 h5 h6 h7 h8
  · rw [h1]; rfl
  · rw [h2]; rfl
  · rw [h3]; rfl
  · rw [h4]; rfl
  · rw [h5]; rfl
  · rw [h6]; rfl
  · rw [h7]; rfl
  · have hread := Text.readHex_hexDigits 4 0 c.toNat []
    obtain ⟨a, b, d, e, hdigits⟩ : ∃ a b d e, Text.hexDigits 4 c.toNat = [a, b, d, e] :=
      List.length_eq_four.1 (Text.length_hexDigits 4 c.toNat)
    rw [hdigits, List.append_nil, Nat.mod_eq_of_lt (by omega)] at hread
    have hlow : isLowSurrogate c.toNat = false := by
      simp only [isLowSurrogate, Bool.and_eq_false_iff, decide_eq_false_iff_not]
      omega
    have hhigh : isHighSurrogate c.toNat = false := by
      simp only [isHighSurrogate, Bool.and_eq_false_iff, decide_eq_false_iff_not]
      omega
    rw [hdigits]
    simp [readChar, unit?, hread, hlow, hhigh]
  · rw [List.singleton_append, readChar]
    · simp [h1, h2, h8]
    · rintro _ _ _ _ _ rfl; exact absurd rfl h2
    · rintro _ _ rfl; exact absurd rfl h2

theorem readString_of_readChar {cs rest : List Char} {c : Char} (h : readChar cs = some (c, rest)) :
    readString cs = (readString rest).map fun (s, rest) => (c :: s, rest) := by
  rw [readString]
  · split
    · simp_all
    · next c' rest' h' =>
      rw [h, Option.some.injEq, Prod.mk.injEq] at h'
      obtain ⟨rfl, rfl⟩ := h'
      cases readString rest with
      | none => rfl
      | some p => rfl
  · rintro rest rfl
    simp [readChar] at h

/-- **Strings read back** -/
theorem readString_escaped (s : List Char) (rest : List Char) :
    readString (s.flatMap escapeChar ++ '"' :: rest) = some (s, rest) := by
  induction s with
  | nil => simp [readString]
  | cons c s ih =>
    rw [List.flatMap_cons, List.append_assoc, readString_of_readChar (readChar_escapeChar c _), ih]
    rfl

/-! ## The text of containers, character by character -/

theorem render_string (s : String) : (render (.string s)).toList = '"' :: (s.toList.flatMap escapeChar ++ ['"']) := by
  rw [render, Atom.text, quote, String.toList_ofList, List.cons_append]

theorem render_array (items : List Json) :
    (render (.array items)).toList = '[' :: ((renderItems true items).toList ++ [']']) := by
  simp [render]

theorem render_object (ms : Members) :
    (render (.object ms)).toList = '\x7b' :: ((renderMembers true ms).toList ++ ['\x7d']) := by
  simp [render]

theorem renderItems_cons (j : Json) (rest : List Json) :
    (renderItems true (j :: rest)).toList = j.render.toList ++ (renderItems false rest).toList := by
  simp [renderItems]

theorem renderItems_false (j : Json) (rest : List Json) :
    (renderItems false (j :: rest)).toList = ',' :: (renderItems true (j :: rest)).toList := by
  simp [renderItems]

theorem renderMembers_cons (name : String) (j : Json) (rest : Members) :
    (renderMembers true ((name, j) :: rest)).toList =
      '"' :: (name.toList.flatMap escapeChar ++
        '"' :: ':' :: (j.render.toList ++ (renderMembers false rest).toList)) := by
  simp [renderMembers, quote]

theorem renderMembers_false (m : String × Json) (rest : Members) :
    (renderMembers false (m :: rest)).toList = ',' :: (renderMembers true (m :: rest)).toList := by
  obtain ⟨name, j⟩ := m
  simp [renderMembers]

/-! ## Values -/

/-- a character that starts a value: no blank, and no bracket that ends a container -/
def Starts (c : Char) : Prop := c ≠ ' ' ∧ c ≠ '\t' ∧ c ≠ '\n' ∧ c ≠ '\r' ∧ c ≠ ']' ∧ c ≠ '\x7d'

instance (c : Char) : Decidable (Starts c) := inferInstanceAs (Decidable (_ ∧ _))

theorem skipBlanks_of_starts {c : Char} (h : Starts c) (cs : List Char) : skipBlanks (c :: cs) = c :: cs := by
  obtain ⟨h1, h2, h3, h4, -, -⟩ := h
  rw [skipBlanks, if_neg (by simp [h1, h2, h3, h4])]

/-! ## One step of the readers -/

section Steps

variable {fuel depth : Nat} {cs rest : List Char} {j : Json} {e : Refusal}

theorem readValue_array {c : Char} (h : Starts c) :
    readValue (fuel + 1) (depth + 1) ('[' :: c :: cs) =
      (readItems fuel depth (c :: cs)).map fun read => (.array read.1, read.2) := by
  rw [readValue, skipBlanks_of_starts (by decide)]
  simp only
  rw [skipBlanks_of_starts h]
  split
  · next heq => exact absurd (List.cons.inj heq).1 h.2.2.2.2.1
  · cases readItems fuel depth (c :: cs) <;> rfl

theorem readValue_object :
    readValue (fuel + 1) (depth + 1) ('\x7b' :: '"' :: cs) =
      (readMembers fuel depth [] ('"' :: cs)).map fun read => (.object read.1, read.2) := by
  rw [readValue, skipBlanks_of_starts (by decide)]
  simp only
  rw [skipBlanks_of_starts (by decide)]
  split
  · next heq => simp at heq
  · cases readMembers fuel depth [] ('"' :: cs) <;> rfl

theorem readItems_of_error (h : readValue fuel depth cs = .error e) : readItems (fuel + 1) depth cs = .error e := by
  rw [readItems, h]

theorem readItems_last (h : readValue fuel depth cs = .ok (j, ']' :: rest)) :
    readItems (fuel + 1) depth cs = .ok ([j], rest) := by
  rw [readItems, h]
  rfl

theorem readItems_next (h : readValue fuel depth cs = .ok (j, ',' :: rest)) :
    readItems (fuel + 1) depth cs = (readItems fuel depth rest).map fun read => (j :: read.1, read.2) := by
  rw [readItems, h]
  simp only
  rw [skipBlanks_of_starts (by decide)]
  simp only
  cases readItems fuel depth rest <;> rfl

variable {name : String} {seen : List String}

/-- a name that the object has already is reported before its value is looked at -/
theorem readMembers_again (h : name ∈ seen) :
    readMembers (fuel + 1) depth seen ('"' :: (name.toList.flatMap escapeChar ++ '"' :: cs)) =
      .error (.repeated name) := by
  rw [readMembers, skipBlanks_of_starts (by decide)]
  simp only [readString_escaped, String.ofList_toList]
  rw [if_pos h]

theorem readMembers_of_error (hseen : name ∉ seen) (h : readValue fuel depth cs = .error e) :
    readMembers (fuel + 1) depth seen ('"' :: (name.toList.flatMap escapeChar ++ '"' :: ':' :: cs)) = .error e := by
  rw [readMembers, skipBlanks_of_starts (by decide)]
  simp only [readString_escaped, String.ofList_toList]
  rw [if_neg hseen, skipBlanks_of_starts (by decide)]
  simp only [h]

theorem readMembers_last (hseen : name ∉ seen) (h : readValue fuel depth cs = .ok (j, '\x7d' :: rest)) :
    readMembers (fuel + 1) depth seen ('"' :: (name.toList.flatMap escapeChar ++ '"' :: ':' :: cs)) =
      .ok ([(name, j)], rest) := by
  rw [readMembers, skipBlanks_of_starts (by decide)]
  simp only [readString_escaped, String.ofList_toList]
  rw [if_neg hseen, skipBlanks_of_starts (by decide)]
  simp only [h]
  rfl

theorem readMembers_next (hseen : name ∉ seen) (h : readValue fuel depth cs = .ok (j, ',' :: rest)) :
    readMembers (fuel + 1) depth seen ('"' :: (name.toList.flatMap escapeChar ++ '"' :: ':' :: cs)) =
      (readMembers fuel depth (name :: seen) rest).map fun read => ((name, j) :: read.1, read.2) := by
  rw [readMembers, skipBlanks_of_starts (by decide)]
  simp only [readString_escaped, String.ofList_toList]
  rw [if_neg hseen, skipBlanks_of_starts (by decide)]
  simp only [h]
  rw [skipBlanks_of_starts (by decide)]
  simp only
  cases readMembers fuel depth (name :: seen) rest <;> rfl

end Steps

/-! ## Documents -/

/-- the text of each leaf with `p` is read as the leaf that `g` names, whatever follows -/
structure Leaves (p : Atom → Prop) (g : Atom → Atom) : Prop where
  starts : ∀ a, p a → ∃ c cs, a.text.toList = c :: cs ∧ Starts c
  reads : ∀ a, p a → ∀ fuel depth rest, Delimited rest →
    readValue (fuel + 1) depth (a.text.toList ++ rest) = .ok (.atom (g a), rest)

variable {p : Atom → Prop} {g : Atom → Atom}

theorem Leaves.render_starts (leaves : Leaves p g) {j : Json} (h : j.AllAtoms p) :
    ∃ c cs, j.render.toList = c :: cs ∧ Starts c := by
  cases j with
  | array items => exact ⟨_, _, render_array items, by decide⟩
  | object ms => exact ⟨_, _, render_object ms, by decide⟩
  | atom a => exact leaves.starts a h

/-- what a reader answers about a text: the first repeated name if there is one, else the value and what follows it -/
def answer {α : Type} (again : Option String) (value : α) (rest : List Char) : Read α :=
  match again with
  | some name => .error (.repeated name)
  | none => .ok (value, rest)

theorem answer_map {α β : Type} (again : Option String) (f : α → β) (value : α) (rest : List Char) :
    (answer again value rest).map (fun read => (f read.1, read.2)) = answer again (f value) rest := by
  cases again <;> rfl

/-- what `readValue_render` says of one document -/
def ReadsAs (p : Atom → Prop) (g : Atom → Atom) (j : Json) : Prop :=
  ∀ (fuel depth : Nat) (rest : List Char), j.nesting ≤ depth → j.AllAtoms p → Delimited rest →
    2 * j.render.toList.length ≤ fuel + 1 →
    readValue fuel depth (j.render.toList ++ rest) = answer j.repeated? (j.mapAtoms g) rest

theorem readValue_word {fuel : Nat} (depth : Nat) {c : Char} {cs : List Char}
    (h : Starts c ∧ c ≠ '[' ∧ c ≠ '\x7b' ∧ c ≠ '"') : readValue (fuel + 1) depth (c :: cs) = readWord (c :: cs) := by
  obtain ⟨hs, h1, h2, h3⟩ := h
  rw [readValue, skipBlanks_of_starts hs]
  split <;> simp_all

theorem Leaves.readsAs_atom (leaves : Leaves p g) (a : Atom) : ReadsAs p g (.atom a) := by
  intro fuel depth rest _ ha hrest hfuel
  obtain ⟨c, cs, hcs, -⟩ := leaves.starts a ha
  rw [render] at hfuel ⊢
  obtain ⟨fuel, rfl⟩ : ∃ n, fuel = n + 1 := ⟨fuel - 1, by rw [hcs] at hfuel; simp at hfuel; omega⟩
  exact leaves.reads a ha fuel depth rest hrest

theorem readValue_string (fuel depth : Nat) (s : String) (rest : List Char) :
    readValue (fuel + 1) depth ((Atom.string s).text.toList ++ rest) = .ok (.string s, rest) := by
  have htext := render_string s
  rw [render] at htext
  rw [htext, List.cons_append, readValue, skipBlanks_of_starts (by decide)]
  simp only [List.append_assoc, List.singleton_append, readString_escaped, String.ofList_toList]

theorem starts_of_number {c : Char} (h : c = '-' ∨ c.isDigit = true) : Starts c := by
  refine ⟨?_, ?_, ?_, ?_, ?_, ?_⟩ <;> (rintro rfl; simp at h)

/-- the text of a numeral is read as the number it stands for, if it stands for one -/
theorem readValue_text (fuel depth : Nat) {n : Numeral} (hn : n.Grammatical) {rest : List Char}
    (hrest : Delimited rest) : readValue (fuel + 1) depth (n.text ++ rest) = match n.value? with
      | none => .error .malformed
      | some a => .ok (.atom a, rest) := by
  obtain ⟨c, cs, hcs, hc⟩ := hn.head
  have hword : readValue (fuel + 1) depth (n.text ++ rest) = readWord (n.text ++ rest) := by
    rw [hcs, List.cons_append, readValue_word depth ⟨starts_of_number hc, ?_, ?_, ?_⟩] <;> (rintro rfl; simp at hc)
  cases hvalue : n.value? <;> simp only [hword, readWord_numeral hn hrest, hvalue]

theorem readValue_numeral (fuel depth : Nat) {text : List Char} {n : Numeral} {a : Atom} (htext : text = n.text)
    (hn : n.Grammatical) (ha : n.value? = some a) {rest : List Char} (hrest : Delimited rest) :
    readValue (fuel + 1) depth (text ++ rest) = .ok (.atom a, rest) := by
  rw [htext, readValue_text fuel depth hn hrest, ha]

theorem starts_decimal (n : Int) : ∃ c cs, (Text.decimal n).toList = c :: cs ∧ Starts c := by
  obtain ⟨c, cs, hcs, hc⟩ := (grammatical_ofInt n).head
  rw [text_ofInt] at hcs
  exact ⟨c, cs, hcs, starts_of_number hc⟩

theorem delimited_items (items : List Json) (rest : List Char) :
    Delimited ((renderItems false items).toList ++ ']' :: rest) := by
  cases items with
  | nil => exact Delimited.cons (by decide) rest
  | cons j items =>
    rw [renderItems_false, List.cons_append]
    exact Delimited.cons (by decide) _

theorem delimited_members (ms : Members) (rest : List Char) :
    Delimited ((renderMembers false ms).toList ++ '\x7d' :: rest) := by
  cases ms with
  | nil => exact Delimited.cons (by decide) rest
  | cons m ms =>
    rw [renderMembers_false, List.cons_append]
    exact Delimited.cons (by decide) _

/-- items and the bracket behind them; by induction on the items, the first read by its own hypothesis -/
theorem Leaves.readItems_render (leaves : Leaves p g) (j : Json) (items : List Json)
    (h : ∀ i ∈ j :: items, ReadsAs p g i) (fuel depth : Nat) (rest : List Char)
    (hdepth : nestingItems (j :: items) ≤ depth) (hleaves : AllAtomsItems p (j :: items))
    (hfuel : 2 * (renderItems true (j :: items)).toList.length ≤ fuel) :
    readItems fuel depth ((renderItems true (j :: items)).toList ++ ']' :: rest) =
      answer (repeatedItems? (j :: items)) (mapAtomsItems g (j :: items)) rest := by
  induction items generalizing j fuel with
  | nil =>
    obtain ⟨c, cs, hcs, -⟩ := leaves.render_starts hleaves.1
    rw [renderItems_cons, renderItems] at hfuel ⊢
    obtain ⟨fuel, rfl⟩ : ∃ n, fuel = n + 1 := ⟨fuel - 1, by rw [hcs] at hfuel; simp at hfuel; omega⟩
    simp only [String.toList_empty, List.append_nil] at hfuel ⊢
    simp only [nestingItems] at hdepth
    have hdelim : Delimited (']' :: rest) := Delimited.cons (by decide) rest
    have hread := h j List.mem_cons_self fuel depth _ (by omega) hleaves.1 hdelim (by omega)
    rw [repeatedItems?, repeatedItems?, Option.or_none]
    cases hj : j.repeated? with
    | some name =>
      rw [hj] at hread
      exact readItems_of_error hread
    | none =>
      rw [hj] at hread
      exact readItems_last hread
  | cons i items ih =>
    obtain ⟨c, cs, hcs, -⟩ := leaves.render_starts hleaves.1
    rw [renderItems_cons] at hfuel ⊢
    obtain ⟨fuel, rfl⟩ : ∃ n, fuel = n + 1 := ⟨fuel - 1, by rw [hcs] at hfuel; simp at hfuel; omega⟩
    have hdelim := delimited_items (i :: items) rest
    rw [renderItems_false] at hfuel hdelim ⊢
    simp only [nestingItems] at hdepth ih
    simp only [List.length_append, List.length_cons] at hfuel
    have hread := h j List.mem_cons_self fuel depth _ (by omega) hleaves.1 hdelim (by omega)
    rw [List.append_assoc, repeatedItems?]
    cases hj : j.repeated? with
    | some name =>
      rw [hj] at hread
      exact readItems_of_error hread
    | none =>
      rw [hj, List.cons_append] at hread
      rw [List.cons_append, readItems_next hread,
        ih i (fun k hk => h k (List.mem_cons_of_mem _ hk)) fuel (by omega) hleaves.2 (by omega), Option.none_or]
      exact answer_map _ (j.mapAtoms g :: ·) _ _

/-- members and the brace behind them, `seen` the names before them -/
theorem readMembers_render (name : String) (j : Json) (ms : Members)
    (h : ∀ m ∈ (name, j) :: ms, ReadsAs p g m.2) (fuel depth : Nat) (seen : List String) (rest : List Char)
    (hdepth : nestingMembers ((name, j) :: ms) ≤ depth) (hleaves : AllAtomsMembers p ((name, j) :: ms))
    (hfuel : 2 * (renderMembers true ((name, j) :: ms)).toList.length ≤ fuel) :
    readMembers fuel depth seen ((renderMembers true ((name, j) :: ms)).toList ++ '\x7d' :: rest) =
      answer (repeatedMembers? seen ((name, j) :: ms)) (mapAtomsMembers g ((name, j) :: ms)) rest := by
  induction ms generalizing name j fuel seen with
  | nil =>
    rw [renderMembers_cons, renderMembers] at hfuel ⊢
    simp only [String.toList_empty, List.append_nil, List.length_cons, List.length_append] at hfuel ⊢
    obtain ⟨fuel, rfl⟩ : ∃ n, fuel = n + 1 := ⟨fuel - 1, by omega⟩
    simp only [nestingMembers] at hdepth
    simp only [List.cons_append, List.append_assoc, repeatedMembers?, Option.or_none]
    have hdelim : Delimited ('\x7d' :: rest) := Delimited.cons (by decide) rest
    have hread := h (name, j) List.mem_cons_self fuel depth _ (by simp only; omega) hleaves.1 hdelim
      (by simp only; omega)
    split_ifs with hseen
    · exact readMembers_again hseen
    · cases hj : j.repeated? with
      | some again =>
        rw [hj] at hread
        exact readMembers_of_error hseen hread
      | none =>
        rw [hj] at hread
        exact readMembers_last hseen hread
  | cons m ms ih =>
    obtain ⟨next, k⟩ := m
    have hdelim := delimited_members ((next, k) :: ms) rest
    rw [renderMembers_cons] at hfuel ⊢
    rw [renderMembers_false] at hfuel hdelim ⊢
    simp only [List.length_cons, List.length_append] at hfuel ⊢
    obtain ⟨fuel, rfl⟩ : ∃ n, fuel = n + 1 := ⟨fuel - 1, by omega⟩
    simp only [nestingMembers] at hdepth ih
    simp only [List.cons_append, List.append_assoc] at hdelim ⊢
    have hread := h (name, j) List.mem_cons_self fuel depth _ (by simp only; omega) hleaves.1 hdelim
      (by simp only; omega)
    rw [repeatedMembers?]
    split_ifs with hseen
    · exact readMembers_again hseen
    · cases hj : j.repeated? with
      | some again =>
        rw [hj] at hread
        exact readMembers_of_error hseen hread
      | none =>
        rw [hj] at hread
        rw [readMembers_next hseen hread, ih next k (fun m hm => h m (List.mem_cons_of_mem _ hm)) fuel (name :: seen)
          (by omega) hleaves.2 (by omega), Option.none_or]
        exact answer_map _ ((name, j.mapAtoms g) :: ·) _ _

/-- **A document reads back**, whatever follows it -/
theorem Leaves.readValue_render (leaves : Leaves p g) (j : Json) : ReadsAs p g j := by
  induction j with
  | atom a => exact leaves.readsAs_atom a
  | array items ih =>
    intro fuel depth rest hdepth hleaves _ hfuel
    rw [render_array] at hfuel ⊢
    simp only [List.length_cons, List.length_append, List.length_nil] at hfuel
    obtain ⟨fuel, rfl⟩ : ∃ n, fuel = n + 1 := ⟨fuel - 1, by omega⟩
    obtain ⟨depth, rfl⟩ : ∃ n, depth = n + 1 := ⟨depth - 1, by rw [nesting] at hdepth; omega⟩
    simp only [List.cons_append, List.append_assoc, List.nil_append]
    cases items with
    | nil => rfl
    | cons j items =>
      obtain ⟨c, cs, hcs, hstarts⟩ := leaves.render_starts hleaves.1
      have hread := leaves.readItems_render j items ih fuel depth rest (by rw [nesting] at hdepth; omega) hleaves
        (by omega)
      rw [renderItems_cons, hcs, List.cons_append, List.cons_append] at hread ⊢
      rw [readValue_array hstarts, hread, answer_map _ Json.array]
      rfl
  | object ms ih =>
    intro fuel depth rest hdepth hleaves _ hfuel
    rw [render_object] at hfuel ⊢
    simp only [List.length_cons, List.length_append, List.length_nil] at hfuel
    obtain ⟨fuel, rfl⟩ : ∃ n, fuel = n + 1 := ⟨fuel - 1, by omega⟩
    obtain ⟨depth, rfl⟩ : ∃ n, depth = n + 1 := ⟨depth - 1, by rw [nesting] at hdepth; omega⟩
    simp only [List.cons_append, List.append_assoc, List.nil_append]
    cases ms with
    | nil => rfl
    | cons m ms =>
      obtain ⟨name, j⟩ := m
      have hread := readMembers_render name j ms ih fuel depth [] rest (by rw [nesting] at hdepth; omega) hleaves
        (by omega)
      rw [renderMembers_cons, List.cons_append] at hread ⊢
      rw [readValue_object, hread, answer_map _ Json.object]
      rfl

/-- **The compact text of a document is read leaf by leaf**, or refused for the first name that is repeated. -/
theorem parse_render_as (leaves : Leaves p g) {j : Json} (hdepth : j.nesting ≤ maxDepth) (hleaves : j.AllAtoms p) :
    parse j.render = match j.repeated? with
      | some name => .error (.repeated name)
      | none => .ok (j.mapAtoms g) := by
  have hread := leaves.readValue_render j (2 * j.render.toList.length + 2) maxDepth [] hdepth hleaves Delimited.nil
    (by omega)
  rw [List.append_nil] at hread
  simp only [parse, hread]
  cases j.repeated? with
  | some name => rfl
  | none => rfl

/-- the text of a leaf without floating-point numbers is read as the leaf -/
theorem leaves_plain : Leaves Atom.Plain id where
  starts := by
    intro a ha
    cases a with
    | null => exact ⟨'n', ['u', 'l', 'l'], rfl, by decide⟩
    | bool b =>
      cases b with
      | true => exact ⟨'t', ['r', 'u', 'e'], rfl, by decide⟩
      | false => exact ⟨'f', ['a', 'l', 's', 'e'], rfl, by decide⟩
    | string s => exact ⟨_, _, render_string s, by decide⟩
    | int n => exact starts_decimal n
    | double x => exact ha.elim
    | single x => exact ha.elim
  reads := by
    intro a ha fuel depth rest hrest
    cases a with
    | null => exact readValue_word depth (by decide)
    | bool b => cases b <;> exact readValue_word depth (by decide)
    | string s => exact readValue_string fuel depth s rest
    | int n => exact readValue_numeral fuel depth (text_ofInt n).symm (grammatical_ofInt n) (value?_ofInt ha) hrest
    | double x => exact ha.elim
    | single x => exact ha.elim

/-- **The compact text of a document is read as the document**, or refused for the first name that is repeated. -/
theorem parse_render {j : Json} (hdepth : j.nesting ≤ maxDepth) (hplain : j.AllAtoms Atom.Plain) :
    parse j.render = match j.repeated? with
      | some name => .error (.repeated name)
      | none => .ok j := by
  rw [parse_render_as leaves_plain hdepth hplain, mapAtoms_id]

/-! ## Documents that come back -/

/-- nested at most `n` deep, integers of 64 bits, no name twice -/
structure Readable (n : Nat) (j : Json) : Prop where
  nesting : j.nesting ≤ n
  plain : j.AllAtoms Atom.Plain
  unique : j.repeated? = none

namespace Readable

variable {n : Nat}

theorem mono {m : Nat} {j : Json} (h : Readable n j) (hm : n ≤ m) : Readable m j :=
  ⟨h.nesting.trans hm, h.plain, h.unique⟩

theorem atom {a : Atom} (h : a.Plain) : Readable n (.atom a) := ⟨Nat.zero_le n, h, rfl⟩

theorem array {items : List Json} (h : ∀ j ∈ items, Readable n j) : Readable (n + 1) (.array items) where
  nesting := Nat.succ_le_succ ((nestingItems_le items n).2 fun j hj => (h j hj).nesting)
  plain := (allAtomsItems_iff _ items).2 fun j hj => (h j hj).plain
  unique := (repeatedItems?_eq_none items).2 fun j hj => (h j hj).unique

theorem object {ms : Members} (hn : (ms.map Prod.fst).Nodup) (h : ∀ m ∈ ms, Readable n m.2) :
    Readable (n + 1) (.object ms) where
  nesting := Nat.succ_le_succ ((nestingMembers_le ms n).2 fun m hm => (h m hm).nesting)
  plain := (allAtomsMembers_iff _ ms).2 fun m hm => (h m hm).plain
  unique := (repeated?_object_eq_none ms).2 ⟨hn, fun m hm => (h m hm).unique⟩

theorem present {rows : List (String × Option Json)} (hn : (rows.map Prod.fst).Nodup)
    (h : ∀ r ∈ rows, ∀ j, r.2 = some j → Readable n j) : Readable (n + 1) (.object (present rows)) := by
  apply object (List.Nodup.sublist (names_present rows) hn)
  intro m hm
  obtain ⟨r, hr, hj⟩ := List.mem_flatMap.1 hm
  rw [Option.mem_toList, Option.map_eq_some_iff] at hj
  obtain ⟨j, hj, rfl⟩ := hj
  exact h r hr j hj

end Readable

theorem parseDocument_render {j : Json} (h : Readable maxDepth j) : parseDocument j.render = .ok j := by
  rw [parseDocument, parse_render h.nesting h.plain, h.unique]
  rfl

/-- the text of a document tells which one it is -/
theorem render_injective {j k : Json} (hj : Readable maxDepth j) (hk : Readable maxDepth k)
    (h : j.render = k.render) : j = k := by
  have := parseDocument_render hj
  rw [h, parseDocument_render hk, Except.ok.injEq] at this
  exact this.symm

end Json

end OpcPubSub
