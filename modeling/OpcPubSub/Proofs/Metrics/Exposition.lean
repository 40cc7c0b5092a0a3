/-
How a report of metrics is read.

The reader here is written from the format that monitoring expects, not from the functions that print: lines end at line
feeds, a line is a name, labels in braces and a number, and in a label's value a backslash goes with the character after
it. Names are identifiers (`isIdentifier`), values are any text. Main results:
- `Sample.ofLine?_line`: a printed sample is read as itself, whatever its values hold.
- `LabelSet.text_eq_iff`: hence two label sets have one text iff they are equal.
- `under_sections`: the lines under the type line of a family are those that were printed for it.
-/
import OpcPubSub.Metrics.Registry
import OpcPubSub.Proofs.Metrics.LabelSets
import OpcPubSub.Proofs.Text.Digits

namespace OpcPubSub.Metrics

/-! ## The format -/

/-- letters, underscores and colons -/
def startsName (c : Char) : Bool := c.isAlpha || c == '_' || c == ':'

/-- the names of metrics and labels: letters, underscores, colons and digits, no digit in front -/
def isIdentifier (s : String) : Bool :=
  match s.toList with
  | [] => false
  | c :: cs => startsName c && cs.all fun d => startsName d || d.isDigit

/-- what a line of a report says -/
structure Sample where
  name : String
  labels : List Label
  value : Int
deriving DecidableEq

namespace Sample

/-- the line of a sample -/
def line (s : Sample) : String := Family.sample s.name (LabelSet.text ⟨s.labels⟩) (Text.decimal s.value)

/-- what a backslash and the character after it stand for -/
def unescape? : Char → Option Char
  | '\\' => some '\\'
  | '"' => some '"'
  | 'n' => some '\n'
  | _ => none

/-- a value up to the quote that ends it, and the text after that -/
def readValue : List Char → Option (List Char × List Char)
  | [] => none
  | '"' :: rest => some ([], rest)
  | '\\' :: c :: rest => do
    let d ← unescape? c
    let (value, rest) ← readValue rest
    some (d :: value, rest)
  | c :: rest => do
    let (value, rest) ← readValue rest
    some (c :: value, rest)

def readLabel (cs : List Char) : Option (Label × List Char) :=
  match cs.dropWhile (· ≠ '=') with
  | '=' :: '"' :: rest => do
    let (value, rest) ← readValue rest
    some ((String.ofList (cs.takeWhile (· ≠ '=')), String.ofList value), rest)
  | _ => none

/-- at least one label and at most `n`, with commas between them, and the brace after them -/
def readLabels : ℕ → List Char → Option (List Label × List Char)
  | 0, _ => none
  | n + 1, cs => do
    let (label, rest) ← readLabel cs
    match rest with
    | ',' :: rest =>
      let (labels, rest) ← readLabels n rest
      some (label :: labels, rest)
    | '}' :: rest => some ([label], rest)
    | _ => none

/-- the labels and the brace after them -/
def readLabelSet (cs : List Char) : Option (List Label × List Char) :=
  match cs with
  | '}' :: rest => some ([], rest)
  | _ => readLabels cs.length cs

/-- a whole line as a sample -/
def ofLine? (line : String) : Option Sample := do
  let cs := line.toList
  match cs.dropWhile (· ≠ '{') with
  | '{' :: rest =>
    let (labels, rest) ← readLabelSet rest
    match rest with
    | ' ' :: number =>
      let value ← Text.readInt true number
      some { name := String.ofList (cs.takeWhile (· ≠ '{')), labels, value }
    | _ => none
  | _ => none

end Sample

/-- the lines of a text, of which each ends with a line feed; what stands behind the last of these is a line too -/
def linesOf (text : String) : List String := (text.toList.splitOn '\n').map String.ofList

/-- the lines after a given one, up to the next that starts with a number sign -/
def linesUnder (header : String) (lines : List String) : List String :=
  (lines.dropWhile (· ≠ header)).tail.takeWhile fun line => line.toList.head? ≠ some '#'

/-- the sample lines of a family, found by its type line -/
def under (header text : String) : List String := linesUnder header (linesOf text)

/-! ## Names and values -/

theorem identifier_chars {s : String} (h : isIdentifier s = true) :
    ∀ c ∈ s.toList, startsName c = true ∨ c.isDigit = true := by
  unfold isIdentifier at h
  split at h
  · cases h
  · next c cs heq =>
    rw [Bool.and_eq_true, List.all_eq_true] at h
    rw [heq, List.forall_mem_cons]
    exact ⟨Or.inl h.1, fun d hd => Bool.or_eq_true_iff.1 (h.2 d hd)⟩

theorem exists_cons_of_identifier {s : String} (h : isIdentifier s = true) : ∃ c cs, s.toList = c :: cs := by
  unfold isIdentifier at h
  split at h
  · cases h
  · next c cs heq => exact ⟨c, cs, heq⟩

/-- no character with a meaning of its own is in a name -/
theorem ne_of_identifier {s : String} (h : isIdentifier s = true) {c : Char} (hc : c ∈ s.toList) {d : Char}
    (hd : startsName d = false ∧ d.isDigit = false) : c ≠ d := by
  rintro rfl
  rcases identifier_chars h c hc with hstart | hdigit
  · rw [hd.1] at hstart
    cases hstart
  · rw [hd.2] at hdigit
    cases hdigit

/-- a text ends where a character stands that it does not have -/
theorem span_of_ne {cs : List Char} {d : Char} (h : ∀ c ∈ cs, c ≠ d) (rest : List Char) :
    (cs ++ d :: rest).takeWhile (· ≠ d) = cs ∧ (cs ++ d :: rest).dropWhile (· ≠ d) = d :: rest := by
  have hall : ∀ c ∈ cs, decide (c ≠ d) = true := fun c hc => decide_eq_true (h c hc)
  constructor
  · rw [List.takeWhile_append_of_pos hall, List.takeWhile_cons_of_neg (by simp), List.append_nil]
  · rw [List.dropWhile_append_of_pos hall, List.dropWhile_cons_of_neg (by simp)]

namespace Sample

theorem readValue_escaped (value rest : List Char) :
    readValue (value.flatMap LabelSet.escapeChar ++ '"' :: rest) = some (value, rest) := by
  induction value with
  | nil => rfl
  | cons c cs ih =>
    rw [List.flatMap_cons, List.append_assoc]
    unfold LabelSet.escapeChar at *
    split_ifs with h1 h2 h3
    · subst h1
      simp [readValue, unescape?, ih]
    · subst h2
      simp [readValue, unescape?, ih]
    · subst h3
      simp [readValue, unescape?, ih]
    · rw [List.singleton_append]
      rw [readValue, ih]
      · rfl
      · intro h
        exact h2 h
      · intro d rest' h
        exact absurd h h1

/-- a label is read up to the quote that ends its value -/
theorem readLabel_text {l : Label} (h : isIdentifier l.1 = true) (rest : List Char) :
    readLabel ((LabelSet.labelText l).toList ++ rest) = some (l, rest) := by
  have htext : (LabelSet.labelText l).toList ++ rest =
      l.1.toList ++ '=' :: '"' :: (l.2.toList.flatMap LabelSet.escapeChar ++ '"' :: rest) := by
    simp [LabelSet.labelText, String.toList_append]
  obtain ⟨htake, hdrop⟩ := span_of_ne (fun c hc => ne_of_identifier h hc (d := '=') (by decide))
    ('"' :: (l.2.toList.flatMap LabelSet.escapeChar ++ '"' :: rest))
  rw [htext, readLabel, hdrop, htake]
  simp [readValue_escaped]

/-- the labels behind the first, each after a comma -/
def further (ls : List Label) : List Char := ls.flatMap fun l => ',' :: (LabelSet.labelText l).toList

theorem text_cons (l : Label) (ls : List Label) :
    (LabelSet.text ⟨l :: ls⟩).toList = (LabelSet.labelText l).toList ++ further ls := by
  rw [LabelSet.text, String.toList_intercalate]
  show [','].intercalate (((l :: ls).map LabelSet.labelText).map String.toList) = _
  induction ls generalizing l with
  | nil => simp [further]
  | cons m ls ih =>
    simp only [List.map_cons] at ih ⊢
    rw [List.intercalate_cons_cons, ih m]
    simp [further]

theorem length_le_further (ls : List Label) : ls.length ≤ (further ls).length := by
  induction ls with
  | nil => simp
  | cons l ls ih =>
    simp only [further, List.flatMap_cons, List.length_append, List.length_cons] at ih ⊢
    omega

/-- one label after the other, up to the brace -/
theorem readLabels_text {l : Label} {ls : List Label} (h : ∀ m ∈ l :: ls, isIdentifier m.1 = true) {n : ℕ}
    (hn : ls.length < n) (rest : List Char) :
    readLabels n ((LabelSet.labelText l).toList ++ further ls ++ '}' :: rest) = some (l :: ls, rest) := by
  induction ls generalizing l n with
  | nil =>
    obtain ⟨k, rfl⟩ := Nat.exists_eq_succ_of_ne_zero (Nat.ne_of_gt hn)
    rw [readLabels, List.append_assoc, readLabel_text (h l List.mem_cons_self)]
    rfl
  | cons m ls ih =>
    obtain ⟨k, rfl⟩ := Nat.exists_eq_succ_of_ne_zero (Nat.ne_zero_of_lt hn)
    have hmore : further (m :: ls) ++ '}' :: rest =
        ',' :: ((LabelSet.labelText m).toList ++ further ls ++ '}' :: rest) := by
      simp [further]
    have hrest := ih (fun x hx => h x (List.mem_cons_of_mem l hx)) (Nat.lt_of_succ_lt_succ hn)
    rw [readLabels, List.append_assoc, readLabel_text (h l List.mem_cons_self), hmore]
    simp only [Option.bind_eq_bind, Option.bind_some, hrest]

theorem readLabelSet_text {ls : List Label} (h : ∀ l ∈ ls, isIdentifier l.1 = true) (rest : List Char) :
    readLabelSet ((LabelSet.text ⟨ls⟩).toList ++ '}' :: rest) = some (ls, rest) := by
  cases ls with
  | nil => rfl
  | cons l ls =>
    rw [text_cons]
    have hfuel : ls.length < ((LabelSet.labelText l).toList ++ further ls ++ '}' :: rest).length := by
      have := length_le_further ls
      simp only [List.length_append, List.length_cons]
      omega
    have hread := readLabels_text h hfuel rest
    unfold readLabelSet
    split
    · next rest' heq =>
      -- a label starts with its name
      obtain ⟨c, cs, hc⟩ := exists_cons_of_identifier (h l List.mem_cons_self)
      have hne := ne_of_identifier (h l List.mem_cons_self) (d := '}') (hc ▸ List.mem_cons_self) (by decide)
      simp only [LabelSet.labelText, String.toList_append, hc, List.cons_append, List.cons.injEq] at heq
      exact absurd heq.1 hne
    · exact hread

/-- **A printed sample is read as itself**, whatever the values of its labels hold. -/
theorem ofLine?_line {s : Sample} (hname : isIdentifier s.name = true)
    (hlabels : ∀ l ∈ s.labels, isIdentifier l.1 = true) : ofLine? s.line = some s := by
  have hline : s.line.toList =
      s.name.toList ++ '{' :: ((LabelSet.text ⟨s.labels⟩).toList ++ '}' :: ' ' :: (Text.decimal s.value).toList) := by
    simp [line, Family.sample, String.toList_append]
  obtain ⟨htake, hdrop⟩ := span_of_ne (fun c hc => ne_of_identifier hname hc (d := '{') (by decide))
    ((LabelSet.text ⟨s.labels⟩).toList ++ '}' :: ' ' :: (Text.decimal s.value).toList)
  simp only [ofLine?, hline, hdrop, htake, readLabelSet_text hlabels]
  simp [Text.readInt_decimal]

/-! ### What a line is made of -/

theorem not_mem_escaped (cs : List Char) : '\n' ∉ cs.flatMap LabelSet.escapeChar := by
  intro h
  obtain ⟨c, -, hc⟩ := List.mem_flatMap.1 h
  unfold LabelSet.escapeChar at hc
  split_ifs at hc with h1 h2 h3
  · simp at hc
  · simp at hc
  · simp at hc
  · exact h3 (List.mem_singleton.1 hc).symm

theorem not_mem_labelText {l : Label} (h : isIdentifier l.1 = true) : '\n' ∉ (LabelSet.labelText l).toList := by
  intro hmem
  simp only [LabelSet.labelText, String.toList_append, String.toList_ofList, List.mem_append] at hmem
  rcases hmem with ((hname | hmem) | hvalue) | hmem
  · exact ne_of_identifier h hname (d := '\n') (by decide) rfl
  · simp at hmem
  · exact not_mem_escaped _ hvalue
  · simp at hmem

theorem not_mem_text {ls : List Label} (h : ∀ l ∈ ls, isIdentifier l.1 = true) :
    '\n' ∉ (LabelSet.text ⟨ls⟩).toList := by
  cases ls with
  | nil => simp [LabelSet.text]
  | cons l ls =>
    obtain ⟨hl, hls⟩ := List.forall_mem_cons.1 h
    rw [text_cons, List.mem_append]
    rintro (hmem | hmem)
    · exact not_mem_labelText hl hmem
    · obtain ⟨m, hm, hmem⟩ := List.mem_flatMap.1 hmem
      rcases List.mem_cons.1 hmem with heq | hmem
      · cases heq
      · exact not_mem_labelText (hls m hm) hmem

theorem not_mem_decimal (n : Int) : '\n' ∉ (Text.decimal n).toList := by
  have hdigits : ∀ k : ℕ, '\n' ∉ Text.digits k := fun k h => by
    have hdigit := Text.isDigit_of_mem_digits h
    cases hdigit
  rw [Text.decimal, String.toList_ofList]
  split_ifs
  · rw [List.mem_cons]
    rintro (heq | hmem)
    · cases heq
    · exact hdigits _ hmem
  · exact hdigits _

/-- a printed sample is one line, and no type line -/
theorem clean_line {s : Sample} (hname : isIdentifier s.name = true)
    (hlabels : ∀ l ∈ s.labels, isIdentifier l.1 = true) :
    '\n' ∉ s.line.toList ∧ s.line.toList.head? ≠ some '#' := by
  constructor
  · intro hmem
    simp only [line, Family.sample, String.toList_append, List.mem_append] at hmem
    rcases hmem with (((hmem | hmem) | hmem) | hmem) | hmem
    · exact ne_of_identifier hname hmem (d := '\n') (by decide) rfl
    · simp at hmem
    · exact not_mem_text hlabels hmem
    · simp at hmem
    · exact not_mem_decimal _ hmem
  · obtain ⟨c, cs, hc⟩ := exists_cons_of_identifier hname
    have hne := ne_of_identifier hname (d := '#') (hc ▸ List.mem_cons_self) (by decide)
    simpa [line, Family.sample, String.toList_append, hc] using hne

end Sample

/-- **Label sets have one text iff they are equal.** -/
theorem LabelSet.text_eq_iff {a b : List Label} (ha : ∀ l ∈ a, isIdentifier l.1 = true)
    (hb : ∀ l ∈ b, isIdentifier l.1 = true) : (⟨a⟩ : LabelSet).text = (⟨b⟩ : LabelSet).text ↔ a = b := by
  constructor
  · intro h
    have hread := Sample.readLabelSet_text hb []
    rw [← h, Sample.readLabelSet_text ha [], Option.some.injEq, Prod.mk.injEq] at hread
    exact hread.1
  · rintro rfl
    rfl

/-! ## Lines -/

theorem linesOf_append {line : String} (h : '\n' ∉ line.toList) (rest : String) :
    linesOf (line ++ "\n" ++ rest) = line :: linesOf rest := by
  have hsplit := List.splitOnP_append_cons_of_forall_mem (p := (· == '\n'))
    (fun c hc => beq_false_of_ne fun heq => h (heq ▸ hc)) '\n' (beq_self_eq_true _) rest.toList
  have htext : (line ++ "\n" ++ rest).toList = line.toList ++ '\n' :: rest.toList := by
    simp [String.toList_append]
  rw [linesOf, htext, List.splitOn, hsplit, List.map_cons, String.ofList_toList]
  rfl

/-- lines that were printed are the lines of the text -/
theorem linesOf_join {lines : List String} (h : ∀ line ∈ lines, '\n' ∉ line.toList) (rest : String) :
    linesOf (String.join (lines.map (· ++ "\n")) ++ rest) = lines ++ linesOf rest := by
  induction lines with
  | nil => simp
  | cons line lines ih =>
    obtain ⟨hline, hlines⟩ := List.forall_mem_cons.1 h
    have hcons : String.join ((line :: lines).map (· ++ "\n")) ++ rest =
        line ++ "\n" ++ (String.join (lines.map (· ++ "\n")) ++ rest) := by
      simp [← String.toList_inj, String.toList_append, String.toList_join]
    rw [hcons, linesOf_append hline, ih hlines, List.cons_append]

/-- a family in a report: its type line and the lines under it -/
structure Section where
  header : String
  samples : List String

def Section.lines (s : Section) : List String := s.header :: s.samples

/-- each line is one, and only the type line starts with a number sign -/
structure Section.Clean (s : Section) : Prop where
  header : '\n' ∉ s.header.toList ∧ s.header.toList.head? = some '#'
  samples : ∀ line ∈ s.samples, '\n' ∉ line.toList ∧ line.toList.head? ≠ some '#'

/-- other sections are passed over -/
theorem linesUnder_of_ne {header : String} (hheader : header.toList.head? = some '#') {t : Section} (ht : t.Clean)
    (hne : t.header ≠ header) (rest : List String) :
    linesUnder header (t.lines ++ rest) = linesUnder header rest := by
  have hpass : ∀ line ∈ t.lines, decide (line ≠ header) = true := by
    rw [Section.lines, List.forall_mem_cons]
    refine ⟨decide_eq_true hne, fun line hline => decide_eq_true ?_⟩
    rintro rfl
    exact (ht.samples line hline).2 hheader
  rw [linesUnder, linesUnder, List.dropWhile_append_of_pos hpass]

/-- the lines of a section end where the next line starts with a number sign -/
theorem linesUnder_self {t : Section} (ht : t.Clean) {next : String} (hnext : next.toList.head? = some '#')
    (rest : List String) : linesUnder t.header (t.lines ++ next :: rest) = t.samples := by
  have hsamples : ∀ line ∈ t.samples, decide (line.toList.head? ≠ some '#') = true :=
    fun line hline => decide_eq_true (ht.samples line hline).2
  rw [linesUnder, Section.lines, List.cons_append, List.dropWhile_cons_of_neg (by simp), List.tail_cons,
    List.takeWhile_append_of_pos hsamples, List.takeWhile_cons_of_neg (by simp [hnext]), List.append_nil]

/-- **The lines under a type line are those of its section**, whatever sections stand before and after it. -/
theorem linesUnder_sections {sections : List Section} (hclean : ∀ s ∈ sections, s.Clean)
    (hn : (sections.map Section.header).Nodup) {next : String} (hnext : next.toList.head? = some '#')
    (after : List String) {s : Section} (hs : s ∈ sections) :
    linesUnder s.header (sections.flatMap Section.lines ++ next :: after) = s.samples := by
  induction sections with
  | nil => simp at hs
  | cons t sections ih =>
    obtain ⟨ht, hrest⟩ := List.forall_mem_cons.1 hclean
    rw [List.map_cons, List.nodup_cons] at hn
    rw [List.flatMap_cons, List.append_assoc]
    rcases List.mem_cons.1 hs with rfl | hs
    · cases sections with
      | nil => exact linesUnder_self ht hnext after
      | cons u sections => exact linesUnder_self ht (hrest u List.mem_cons_self).header.2 _
    · have hne : t.header ≠ s.header := fun heq => hn.1 (heq ▸ List.mem_map_of_mem hs)
      rw [linesUnder_of_ne (hrest s hs).header.2 ht hne]
      exact ih hrest hn.2 hs

/-- a report of such sections, whatever text follows them, as long as it starts with another type line -/
theorem under_sections {sections : List Section} (hclean : ∀ s ∈ sections, s.Clean)
    (hn : (sections.map Section.header).Nodup) {next : String} (hnext : next.toList.head? = some '#')
    (hline : '\n' ∉ next.toList) (after : String) {s : Section} (hs : s ∈ sections) :
    under s.header (String.join ((sections.flatMap Section.lines ++ [next]).map (· ++ "\n")) ++ after) = s.samples := by
  have hlines : ∀ line ∈ sections.flatMap Section.lines ++ [next], '\n' ∉ line.toList := by
    intro line hmem
    rcases List.mem_append.1 hmem with hmem | hmem
    · obtain ⟨t, ht, hmem⟩ := List.mem_flatMap.1 hmem
      rcases List.mem_cons.1 hmem with rfl | hmem
      · exact (hclean t ht).header.1
      · exact ((hclean t ht).samples line hmem).1
    · rw [List.mem_singleton.1 hmem]
      exact hline
  rw [under, linesOf_join hlines, List.append_assoc]
  exact linesUnder_sections hclean hn hnext _ hs

end OpcPubSub.Metrics
