/-
A numeral is scanned back from its text, whatever follows, if nothing that follows can go on with a number.

Main results:
- `scan_text`: every numeral of the grammar comes back from its text;
- `readWord_numeral`: so the reader answers the number the numeral stands for, or refuses the text;
- `value?_ofInt`: integers of 64 bits stand for themselves.
-/
import OpcPubSub.Json.Parse
import OpcPubSub.Proofs.Text.Digits

namespace OpcPubSub

/-- the leaves that need no floating-point number to read -/
def Atom.Plain : Atom → Prop
  | .int n => -(2 ^ 63) ≤ n ∧ n < 2 ^ 64
  | .double _ => False
  | .single _ => False
  | _ => True

namespace Json

/-! ## What follows -/

/-- what stands after a value: nothing that a number could go on with -/
def Delimited (rest : List Char) : Prop :=
  ∀ c cs, rest = c :: cs → c.isDigit = false ∧ c ≠ '.' ∧ c ≠ 'e' ∧ c ≠ 'E'

theorem Delimited.nil : Delimited [] := by
  intro c cs h
  simp at h

theorem Delimited.cons {c : Char} (h : c.isDigit = false ∧ c ≠ '.' ∧ c ≠ 'e' ∧ c ≠ 'E') (cs : List Char) :
    Delimited (c :: cs) := by
  intro d ds hd
  rw [List.cons.injEq] at hd
  exact hd.1 ▸ h

/-- what a run of digits ends at -/
def EndsDigits (rest : List Char) : Prop := ∀ c cs, rest = c :: cs → c.isDigit = false

theorem EndsDigits.cons {c : Char} (h : c.isDigit = false) (cs : List Char) : EndsDigits (c :: cs) := by
  intro d ds hd
  rw [List.cons.injEq] at hd
  exact hd.1 ▸ h

theorem Delimited.endsDigits {rest : List Char} (h : Delimited rest) : EndsDigits rest :=
  fun c cs hc => (h c cs hc).1

theorem spanDigits_append {ds rest : List Char} (hds : ∀ c ∈ ds, c.isDigit = true) (h : EndsDigits rest) :
    spanDigits (ds ++ rest) = (ds, rest) := by
  rw [spanDigits, List.takeWhile_append_of_pos hds, List.dropWhile_append_of_pos hds]
  cases rest with
  | nil => simp
  | cons c cs => simp [h c cs rfl]

/-! ## Parts of a numeral -/

/-- one or more digits -/
structure AreDigits (ds : List Char) : Prop where
  ne_nil : ds ≠ []
  all : ∀ c ∈ ds, c.isDigit = true

theorem areDigits_digits (n : Nat) : AreDigits (Text.digits n) :=
  ⟨Text.digits_ne_nil n, fun _ hc => Text.isDigit_of_mem_digits hc⟩

theorem scanWhole_append {ds rest : List Char} (hds : AreDigits ds) (hlead : ∀ cs, ds = '0' :: cs → cs = [])
    (h : EndsDigits rest) : scanWhole (ds ++ rest) = some (ds, rest) := by
  simp only [scanWhole, spanDigits_append hds.all h]
  split
  · exact absurd rfl hds.ne_nil
  · rfl
  · next cs hne => exact absurd (hlead cs rfl) (by rintro rfl; exact hne rfl)
  · rfl

/-- the text of a fraction -/
def fractionText : Option (List Char) → List Char
  | some ds => '.' :: ds
  | none => []

/-- the text of an exponent -/
def exponentText : Option (Bool × List Char) → List Char
  | some (minus, ds) => 'e' :: (if minus then '-' else '+') :: ds
  | none => []

theorem endsDigits_exponent (exponent : Option (Bool × List Char)) {rest : List Char} (h : Delimited rest) :
    EndsDigits (exponentText exponent ++ rest) := by
  match exponent with
  | some (minus, ds) => exact EndsDigits.cons (by decide) _
  | none => exact h.endsDigits

theorem endsDigits_fraction (fraction : Option (List Char)) {rest : List Char} (h : EndsDigits rest) :
    EndsDigits (fractionText fraction ++ rest) := by
  match fraction with
  | some ds => exact EndsDigits.cons (by decide) _
  | none => exact h

theorem scanExponent_append {exponent : Option (Bool × List Char)} {rest : List Char}
    (he : ∀ minus ds, exponent = some (minus, ds) → AreDigits ds) (h : Delimited rest) :
    scanExponent (exponentText exponent ++ rest) = some (exponent, rest) := by
  match exponent with
  | some (minus, ds) =>
    have hds := he minus ds rfl
    have hspan := spanDigits_append hds.all h.endsDigits
    have hempty : ¬ds.isEmpty = true := by simpa using hds.ne_nil
    cases minus with
    | true => simp only [exponentText, scanExponent, List.cons_append, if_true, true_or, hspan, hempty]; rfl
    | false =>
      simp only [exponentText, scanExponent, List.cons_append, if_true, true_or, Bool.false_eq_true, if_false, hspan,
        hempty]
  | none =>
    rw [exponentText, List.nil_append]
    cases rest with
    | nil => rfl
    | cons c cs =>
      obtain ⟨-, -, he, hE⟩ := h c cs rfl
      simp [scanExponent, he, hE]

theorem scanFraction_append {fraction : Option (List Char)} (exponent : Option (Bool × List Char)) {rest : List Char}
    (hf : ∀ ds, fraction = some ds → AreDigits ds) (h : Delimited rest) :
    scanFraction (fractionText fraction ++ (exponentText exponent ++ rest)) =
      some (fraction, exponentText exponent ++ rest) := by
  have hends := endsDigits_exponent exponent h
  match fraction with
  | some ds =>
    have hds := hf ds rfl
    have hempty : ¬ds.isEmpty = true := by simpa using hds.ne_nil
    simp only [fractionText, scanFraction, List.cons_append, spanDigits_append hds.all hends, hempty]
    rfl
  | none =>
    rw [fractionText, List.nil_append, scanFraction]
    -- no point follows: an exponent starts with its letter
    rintro cs hcs
    match exponent with
    | some (minus, ds) => simp [exponentText] at hcs
    | none => exact (h '.' cs hcs).2.1 rfl

/-! ## Numerals -/

namespace Numeral

/-- a numeral as it is written -/
def text (n : Numeral) : List Char :=
  (if n.negative then ['-'] else []) ++ (n.whole ++ (fractionText n.fraction ++ exponentText n.exponent))

/-- a numeral of the grammar -/
structure Grammatical (n : Numeral) : Prop where
  whole : AreDigits n.whole
  leading : ∀ cs, n.whole = '0' :: cs → cs = []
  fraction : ∀ ds, n.fraction = some ds → AreDigits ds
  exponent : ∀ minus ds, n.exponent = some (minus, ds) → AreDigits ds

theorem Grammatical.head {n : Numeral} (h : n.Grammatical) :
    ∃ c cs, n.text = c :: cs ∧ (c = '-' ∨ c.isDigit = true) := by
  unfold text
  cases n.negative with
  | true => exact ⟨_, _, rfl, Or.inl rfl⟩
  | false =>
    cases hw : n.whole with
    | nil => exact absurd hw h.whole.ne_nil
    | cons d ds => exact ⟨d, _, rfl, Or.inr (h.whole.all d (by rw [hw]; exact List.mem_cons_self))⟩

end Numeral

/-- **A numeral comes back** from its text -/
theorem scan_text {n : Numeral} (hn : n.Grammatical) {rest : List Char} (h : Delimited rest) :
    scan (n.text ++ rest) = some (n, rest) := by
  have hwhole := scanWhole_append hn.whole hn.leading
    (endsDigits_fraction n.fraction (endsDigits_exponent n.exponent h))
  have hfraction := scanFraction_append n.exponent hn.fraction h
  have hexponent := scanExponent_append hn.exponent h
  obtain ⟨negative, whole, fraction, exponent⟩ := n
  simp only [Numeral.text, List.append_assoc]
  cases negative with
  | true =>
    simp only [if_true, List.singleton_append, scan, hwhole, hfraction, hexponent]
  | false =>
    rw [if_neg Bool.false_ne_true, List.nil_append]
    unfold scan
    split
    next minus cs hsplit =>
      split at hsplit
      · -- no minus: the text starts with a digit
        next r hr =>
        cases hw : whole with
        | nil => exact absurd hw hn.whole.ne_nil
        | cons d ds =>
          have hd := hn.whole.all d (by rw [hw]; exact List.mem_cons_self)
          rw [hw, List.cons_append, List.cons.injEq] at hr
          rw [hr.1] at hd
          cases hd
      · cases hsplit
        simp only [hwhole, hfraction, hexponent]

/-- no word of letters starts with what a number starts with -/
theorem dropWord_eq_none {w c : Char} (h : w ≠ c) (ws cs : List Char) : dropWord (w :: ws) (c :: cs) = none := by
  rw [dropWord, if_neg h]

/-- **The text of a numeral is read as the number it stands for**, and refused if it stands for none -/
theorem readWord_numeral {n : Numeral} (hn : n.Grammatical) {rest : List Char} (h : Delimited rest) :
    readWord (n.text ++ rest) = match n.value? with
      | none => .error .malformed
      | some a => .ok (.atom a, rest) := by
  obtain ⟨c, cs, hcs, hc⟩ := hn.head
  have hword : 'n' ≠ c ∧ 't' ≠ c ∧ 'f' ≠ c := by
    refine ⟨?_, ?_, ?_⟩ <;> (rintro rfl; simp at hc)
  have hscan := scan_text hn h
  rw [hcs, List.cons_append] at hscan ⊢
  rw [readWord, dropWord_eq_none hword.1, dropWord_eq_none hword.2.1, dropWord_eq_none hword.2.2]
  cases hvalue : n.value? <;> simp only [hscan, hvalue]

/-! ## Integers -/

/-- the numeral of an integer -/
def Numeral.ofInt (n : Int) : Numeral := ⟨n < 0, Text.digits n.natAbs, none, none⟩

theorem grammatical_ofInt (n : Int) : (Numeral.ofInt n).Grammatical where
  whole := areDigits_digits _
  leading := by
    intro cs h
    have h' : Text.digits n.natAbs = '0' :: cs := h
    rw [Text.digits_head h'] at h'
    exact (List.cons.inj h').2.symm
  fraction := by simp [Numeral.ofInt]
  exponent := by simp [Numeral.ofInt]

theorem text_ofInt (n : Int) : (Numeral.ofInt n).text = (Text.decimal n).toList := by
  simp only [Numeral.text, Numeral.ofInt, fractionText, exponentText, List.append_nil, decide_eq_true_eq, Text.decimal,
    String.toList_ofList]
  split_ifs <;> rfl

/-- **An integer of 64 bits stands for itself** -/
theorem value?_ofInt {n : Int} (h : (Atom.int n).Plain) : (Numeral.ofInt n).value? = some (.int n) := by
  obtain ⟨hlow, hhigh⟩ := h
  simp only [Numeral.ofInt, Numeral.value?, Text.readDigits_digits, Option.getD_some, Option.isNone_none, true_and,
    decide_eq_true_eq, UInt64.size]
  by_cases hn : n < 0
  · rw [if_neg (by omega), if_pos (by omega)]
    congr 2; omega
  · rw [if_pos (by omega)]
    congr 2; omega

end Json

end OpcPubSub
