/-
The text of a floating-point number is one numeral, and the reader scales all of its digits by a power of ten.

The reader gathers digits into 64 bits. Shortest digits always fit, with the zeros that are put behind them where there
is no exponent, so none is dropped: `gathered` are the digits and the power of ten. Main result:
- `value?_numeral`: the number the text stands for.
-/
import OpcPubSub.Number.FloatText
import OpcPubSub.Proofs.Json.Numerals

namespace OpcPubSub.Json

/-! ## Gathering digits -/

theorem le_ofDigitChars (cs : List Char) (s : ℕ) : s ≤ Nat.ofDigitChars 10 cs s := by
  induction cs generalizing s with
  | nil => exact le_rfl
  | cons c cs ih =>
    rw [Nat.ofDigitChars_cons]
    have := ih (10 * s + (c.toNat - '0'.toNat))
    omega

theorem gatherWhole_of_lt {cs : List Char} {s : ℕ} (h : Nat.ofDigitChars 10 cs s < UInt64.size) :
    gatherWhole s cs = (Nat.ofDigitChars 10 cs s, 0) := by
  induction cs generalizing s with
  | nil => rfl
  | cons c cs ih =>
    rw [Nat.ofDigitChars_cons] at h ⊢
    have hstep : s * 10 + digitOf c = 10 * s + (c.toNat - '0'.toNat) := by
      unfold digitOf
      omega
    have hle := le_ofDigitChars cs (10 * s + (c.toNat - '0'.toNat))
    rw [gatherWhole, hstep, if_pos (by omega), ih h]

theorem gatherFraction_of_lt {cs : List Char} {s : ℕ} (h : Nat.ofDigitChars 10 cs s < UInt64.size) :
    gatherFraction s cs = (Nat.ofDigitChars 10 cs s, cs.length) := by
  induction cs generalizing s with
  | nil => rfl
  | cons c cs ih =>
    rw [Nat.ofDigitChars_cons] at h ⊢
    have hstep : s * 10 + digitOf c = 10 * s + (c.toNat - '0'.toNat) := by
      unfold digitOf
      omega
    have hle := le_ofDigitChars cs (10 * s + (c.toNat - '0'.toNat))
    rw [gatherFraction, hstep, if_pos (by omega), ih h]
    rfl

namespace Numeral

/-- the digits before and after the point as one number -/
def digits (n : Numeral) : ℕ := Nat.ofDigitChars 10 (n.whole ++ n.fraction.getD []) 0

/-- the exponent with its sign -/
def power (n : Numeral) : ℤ :=
  match n.exponent with
  | some (minus, ds) => if minus then -((Text.readDigits 0 ds).getD 0 : ℕ) else ((Text.readDigits 0 ds).getD 0 : ℕ)
  | none => 0

theorem clampExponent_of_le {e : ℤ} (h : e.natAbs ≤ 2000) : clampExponent e = e := by
  unfold clampExponent exponentMax
  omega

/-- what 64 bits hold is scaled as it is -/
theorem magnitude?_of_lt {n : Numeral} (h : n.digits < UInt64.size) (hpower : n.power.natAbs ≤ 1000)
    (hlength : (n.fraction.getD []).length ≤ 1000) :
    n.magnitude? = scale n.digits.toUInt64.toFloat (n.power - (n.fraction.getD []).length) := by
  unfold digits at h ⊢
  rw [Nat.ofDigitChars_append] at h ⊢
  have hwhole := gatherWhole_of_lt (lt_of_le_of_lt (le_ofDigitChars _ _) h)
  have hfraction := gatherFraction_of_lt h
  unfold magnitude?
  simp only [hwhole, hfraction]
  generalize (n.fraction.getD []).length = k at hlength ⊢
  unfold power at hpower ⊢
  match hexponent : n.exponent with
  | none =>
    simp only [Option.getD_none, Text.readDigits, Option.getD_some]
    rw [if_neg (by decide), if_neg Bool.false_ne_true, clampExponent_of_le (by omega)]
    congr 1
    omega
  | some (minus, ds) =>
    rw [hexponent] at hpower
    simp only [Option.getD_some] at hpower ⊢
    generalize (Text.readDigits 0 ds).getD 0 = e at hpower ⊢
    have he : ¬exponentMax < (e : ℤ) := by
      unfold exponentMax
      split_ifs at hpower <;> omega
    rw [if_neg he]
    cases minus with
    | true =>
      rw [if_pos rfl] at hpower ⊢
      rw [if_pos rfl, clampExponent_of_le (by omega)]
      congr 1
      omega
    | false =>
      rw [if_neg Bool.false_ne_true] at hpower ⊢
      rw [if_neg Bool.false_ne_true, clampExponent_of_le (by omega)]
      congr 1
      omega

/-- a numeral with a point or an exponent is a floating-point number -/
theorem value?_of_isSome {n : Numeral} (h : n.fraction.isSome = true ∨ n.exponent.isSome = true) :
    n.value? = n.magnitude?.map fun x => .double (if n.negative then -x else x) := by
  unfold value?
  have hinteger : ¬(n.fraction.isNone = true ∧ n.exponent.isNone = true) := by
    rintro ⟨hf, he⟩
    rw [Option.isNone_iff_eq_none] at hf he
    simp [hf, he] at h
  simp only
  rw [if_neg fun hn => hinteger ⟨hn.1, hn.2.1⟩, if_neg fun hn => hinteger ⟨hn.1, hn.2.1⟩]

end Numeral

end OpcPubSub.Json

namespace OpcPubSub.Number

open Json

/-! ## The numeral of shortest digits -/

/-- the exponent of the first digit of `c * 10 ^ t` -/
def leading (c : ℕ) (t : ℤ) : ℤ := t + (Text.digits c).length - 1

namespace Window

/-- the numeral that `text` writes for `c * 10 ^ t` -/
def numeral (w : Window) (negative : Bool) (c : ℕ) (t : ℤ) : Numeral :=
  let ds := Text.digits c
  let e := leading c t
  if w.least ≤ e ∧ e ≤ w.greatest then
    if e < 0 then ⟨negative, ['0'], some (List.replicate (-e - 1).toNat '0' ++ ds), none⟩
    else if 0 ≤ t then ⟨negative, ds ++ List.replicate t.toNat '0', some ['0'], none⟩
    else ⟨negative, ds.take (e + 1).toNat, some (ds.drop (e + 1).toNat), none⟩
  else
    ⟨negative, ds.take 1, if ds.length = 1 then none else some (ds.drop 1),
      some (decide (e < 0), Text.digits e.natAbs)⟩

/-- the digits that are read and the power of ten that they are multiples of -/
def gathered (w : Window) (c : ℕ) (t : ℤ) : ℕ × ℤ :=
  if 0 ≤ t ∧ leading c t ≤ w.greatest then (c * 10 ^ (t.toNat + 1), -1) else (c, t)

section Layouts

variable {w : Window} {c : ℕ} {t : ℤ} (negative : Bool)

theorem numeral_below (hin : w.least ≤ leading c t ∧ leading c t ≤ w.greatest) (he : leading c t < 0) :
    w.numeral negative c t =
      ⟨negative, ['0'], some (List.replicate (-leading c t - 1).toNat '0' ++ Text.digits c), none⟩ := by
  rw [numeral, if_pos hin, if_pos he]

theorem numeral_whole (hin : w.least ≤ leading c t ∧ leading c t ≤ w.greatest) (he : ¬leading c t < 0) (ht : 0 ≤ t) :
    w.numeral negative c t = ⟨negative, Text.digits c ++ List.replicate t.toNat '0', some ['0'], none⟩ := by
  rw [numeral, if_pos hin, if_neg he, if_pos ht]

theorem numeral_point (hin : w.least ≤ leading c t ∧ leading c t ≤ w.greatest) (he : ¬leading c t < 0) (ht : ¬0 ≤ t) :
    w.numeral negative c t =
      ⟨negative, (Text.digits c).take (leading c t + 1).toNat, some ((Text.digits c).drop (leading c t + 1).toNat),
        none⟩ := by
  rw [numeral, if_pos hin, if_neg he, if_neg ht]

theorem numeral_scientific (hin : ¬(w.least ≤ leading c t ∧ leading c t ≤ w.greatest)) :
    w.numeral negative c t =
      ⟨negative, (Text.digits c).take 1, if (Text.digits c).length = 1 then none else some ((Text.digits c).drop 1),
        some (decide (leading c t < 0), Text.digits (leading c t).natAbs)⟩ := by
  rw [numeral, if_neg hin]

end Layouts

theorem text_numeral (w : Window) (negative : Bool) (c : ℕ) (t : ℤ) :
    (w.numeral negative c t).text = (if negative then ['-'] else []) ++ w.text c t := by
  have hleading : t + (Text.digits c).length - 1 = leading c t := rfl
  unfold text
  simp only [hleading]
  by_cases hin : w.least ≤ leading c t ∧ leading c t ≤ w.greatest
  · rw [if_pos hin]
    by_cases he : leading c t < 0
    · rw [if_pos he, numeral_below _ hin he]
      simp [Numeral.text, fractionText, exponentText]
    · rw [if_neg he]
      by_cases ht : 0 ≤ t
      · rw [if_pos ht, numeral_whole _ hin he ht]
        simp [Numeral.text, fractionText, exponentText]
      · rw [if_neg ht, numeral_point _ hin he ht]
        simp [Numeral.text, fractionText, exponentText]
  · rw [if_neg hin, numeral_scientific _ hin]
    rcases hds : Text.digits c with _ | ⟨d, _ | ⟨d', ds⟩⟩
    · exact absurd hds (Text.digits_ne_nil c)
    · simp [Numeral.text, fractionText, exponentText]
    · simp [Numeral.text, fractionText, exponentText]

/-! ### The grammar -/

/-- what starts with the digits of a positive number starts with no zero -/
theorem digits_append_ne {c : ℕ} (hc : 0 < c) (rest cs : List Char) : Text.digits c ++ rest ≠ '0' :: cs := by
  intro h
  cases hds : Text.digits c with
  | nil => exact Text.digits_ne_nil c hds
  | cons d ds =>
    rw [hds, List.cons_append, List.cons.injEq] at h
    have := Text.digits_head (h.1 ▸ hds)
    omega

theorem take_digits_ne {c n : ℕ} (hc : 0 < c) (cs : List Char) : (Text.digits c).take n ≠ '0' :: cs := by
  intro h
  refine digits_append_ne hc [] (cs ++ (Text.digits c).drop n) ?_
  rw [List.append_nil, ← List.cons_append, ← h, List.take_append_drop]

theorem areDigits_replicate_append {c n : ℕ} : AreDigits (List.replicate n '0' ++ Text.digits c) where
  ne_nil := by simp [Text.digits_ne_nil]
  all := by
    intro d hd
    rcases List.mem_append.1 hd with hd | hd
    · rw [List.eq_of_mem_replicate hd]
      decide
    · exact Text.isDigit_of_mem_digits hd

theorem areDigits_append_replicate {c n : ℕ} : AreDigits (Text.digits c ++ List.replicate n '0') where
  ne_nil := by simp [Text.digits_ne_nil]
  all := by
    intro d hd
    rcases List.mem_append.1 hd with hd | hd
    · exact Text.isDigit_of_mem_digits hd
    · rw [List.eq_of_mem_replicate hd]
      decide

theorem areDigits_take {c n : ℕ} (h : 0 < n) : AreDigits ((Text.digits c).take n) where
  ne_nil := by
    rw [Ne, List.take_eq_nil_iff, not_or]
    exact ⟨by omega, Text.digits_ne_nil c⟩
  all := fun _ hd => Text.isDigit_of_mem_digits (List.mem_of_mem_take hd)

theorem areDigits_drop {c n : ℕ} (h : n < (Text.digits c).length) : AreDigits ((Text.digits c).drop n) where
  ne_nil := by
    rw [Ne, List.drop_eq_nil_iff]
    omega
  all := fun _ hd => Text.isDigit_of_mem_digits (List.mem_of_mem_drop hd)

theorem length_digits_pos (c : ℕ) : 0 < (Text.digits c).length := List.length_pos_iff.2 (Text.digits_ne_nil c)

theorem grammatical_numeral (w : Window) (negative : Bool) {c : ℕ} (hc : 0 < c) (t : ℤ) :
    (w.numeral negative c t).Grammatical := by
  have hpos := length_digits_pos c
  have hzero : AreDigits ['0'] := ⟨by simp, by simp⟩
  have hnone : ∀ ds, (none : Option (List Char)) = some ds → AreDigits ds := by simp
  have hnoExponent : ∀ minus ds, (none : Option (Bool × List Char)) = some (minus, ds) → AreDigits ds := by simp
  by_cases hin : w.least ≤ leading c t ∧ leading c t ≤ w.greatest
  · by_cases he : leading c t < 0
    · rw [numeral_below _ hin he]
      refine ⟨hzero, by simp, ?_, hnoExponent⟩
      rintro _ ⟨rfl⟩
      exact areDigits_replicate_append
    · by_cases ht : 0 ≤ t
      · rw [numeral_whole _ hin he ht]
        refine ⟨areDigits_append_replicate, ?_, ?_, hnoExponent⟩
        · exact fun cs h => absurd h (digits_append_ne hc _ _)
        · rintro _ ⟨rfl⟩
          exact hzero
      · rw [numeral_point _ hin he ht]
        refine ⟨areDigits_take (by omega), fun cs h => absurd h (take_digits_ne hc _), ?_, hnoExponent⟩
        rintro _ ⟨rfl⟩
        exact areDigits_drop (by unfold leading at he ⊢; omega)
  · rw [numeral_scientific _ hin]
    refine ⟨areDigits_take one_pos, fun cs h => absurd h (take_digits_ne hc _), ?_, ?_⟩
    · intro ds h
      split_ifs at h with hone
      cases h
      exact areDigits_drop (by omega)
    · rintro minus ds ⟨rfl, rfl⟩
      exact areDigits_digits _

/-! ### The digits that are read -/

theorem ofDigitChars_digits (c : ℕ) : Nat.ofDigitChars 10 (Text.digits c) 0 = c := Nat.ofDigitChars_ten_toDigits

/-- the numeral of `c * 10 ^ t` has the digits of `gathered`, and scales them by its power -/
theorem digits_numeral {w : Window} (hleast : w.least ≤ 0) (negative : Bool) (c : ℕ) (t : ℤ) :
    (w.numeral negative c t).digits = (w.gathered c t).1 ∧
      (w.numeral negative c t).power - (((w.numeral negative c t).fraction.getD []).length : ℕ) =
        (w.gathered c t).2 := by
  have hpos := length_digits_pos c
  unfold gathered
  by_cases hin : w.least ≤ leading c t ∧ leading c t ≤ w.greatest
  · by_cases he : leading c t < 0
    · have hwhole : ¬(0 ≤ t ∧ leading c t ≤ w.greatest) := by
        rintro ⟨ht, -⟩
        unfold leading at he
        omega
      rw [numeral_below _ hin he, if_neg hwhole]
      constructor
      · simp [Numeral.digits, Nat.ofDigitChars_append, Nat.ofDigitChars_cons, Nat.ofDigitChars_replicate_zero,
          ofDigitChars_digits]
      · simp only [Numeral.power, Option.getD_some, List.length_append, List.length_replicate]
        unfold leading at *
        omega
    · by_cases ht : 0 ≤ t
      · rw [numeral_whole _ hin he ht, if_pos ⟨ht, hin.2⟩]
        constructor
        · simp [Numeral.digits, Nat.ofDigitChars_append, Nat.ofDigitChars_cons, Nat.ofDigitChars_replicate_zero,
            ofDigitChars_digits]
          ring
        · simp [Numeral.power]
      · rw [numeral_point _ hin he ht, if_neg fun h => ht h.1]
        constructor
        · simp [Numeral.digits, ofDigitChars_digits]
        · simp only [Numeral.power, Option.getD_some, List.length_drop]
          unfold leading at *
          omega
  · have hwhole : ¬(0 ≤ t ∧ leading c t ≤ w.greatest) := by
      rintro ⟨ht, hgreatest⟩
      unfold leading at hin hgreatest
      omega
    have hdrop : (if (Text.digits c).length = 1 then none else some ((Text.digits c).drop 1)).getD [] =
        (Text.digits c).drop 1 := by
      split_ifs with hone
      · exact (List.drop_eq_nil_iff.2 hone.le).symm
      · rfl
    rw [numeral_scientific _ hin, if_neg hwhole]
    constructor
    · simp only [Numeral.digits, hdrop, List.take_append_drop, ofDigitChars_digits]
    · have hpower : (if leading c t < 0 then -((leading c t).natAbs : ℤ) else (leading c t).natAbs) = leading c t := by
        split_ifs <;> omega
      simp only [Numeral.power, hdrop, Text.readDigits_digits, Option.getD_some, List.length_drop, decide_eq_true_eq]
      rw [hpower]
      unfold leading at *
      omega

theorem gathered_pos (w : Window) {c : ℕ} (hc : 0 < c) (t : ℤ) : 0 < (w.gathered c t).1 := by
  unfold gathered
  split_ifs
  · positivity
  · exact hc

/-- zeros put behind the digits do not change the number -/
theorem value_gathered (w : Window) (c : ℕ) (t : ℤ) :
    ((w.gathered c t).1 : ℚ) * 10 ^ (w.gathered c t).2 = c * 10 ^ t := by
  unfold gathered
  split_ifs with h
  · obtain ⟨n, rfl⟩ := Int.eq_ofNat_of_zero_le h.1
    have h10 : (10 : ℚ) ≠ 0 := by norm_num
    simp only [Int.toNat_natCast, Nat.cast_mul, Nat.cast_pow, Nat.cast_ofNat, zpow_natCast, zpow_neg_one, pow_succ]
    field_simp
  · rfl

/-- 64 bits hold the digits -/
theorem gathered_bounds {w : Window} (hgreatest : w.greatest ≤ 17) {c : ℕ} (hc : c < UInt64.size) (t : ℤ) :
    (w.gathered c t).1 < UInt64.size := by
  unfold gathered
  split_ifs with h
  · have hlength : c < 10 ^ (Text.digits c).length :=
      (Nat.length_toDigits_le_iff (by decide) (length_digits_pos c)).1 le_rfl
    have hle : (Text.digits c).length + (t.toNat + 1) ≤ 19 := by
      have := h.2
      unfold leading at this
      omega
    calc c * 10 ^ (t.toNat + 1)
        < 10 ^ (Text.digits c).length * 10 ^ (t.toNat + 1) := by gcongr
      _ = 10 ^ ((Text.digits c).length + (t.toNat + 1)) := (pow_add ..).symm
      _ ≤ 10 ^ 19 := Nat.pow_le_pow_right (by decide) hle
      _ < UInt64.size := by decide
  · exact hc

theorem power_numeral (w : Window) (negative : Bool) (c : ℕ) (t : ℤ) :
    (w.numeral negative c t).power = 0 ∨ (w.numeral negative c t).power = leading c t := by
  by_cases hin : w.least ≤ leading c t ∧ leading c t ≤ w.greatest
  · refine Or.inl ?_
    rw [numeral, if_pos hin]
    split_ifs <;> rfl
  · refine Or.inr ?_
    rw [numeral_scientific _ hin]
    simp only [Numeral.power, Text.readDigits_digits, Option.getD_some, decide_eq_true_eq]
    split_ifs <;> omega

theorem isSome_numeral (w : Window) (negative : Bool) (c : ℕ) (t : ℤ) :
    (w.numeral negative c t).fraction.isSome = true ∨ (w.numeral negative c t).exponent.isSome = true := by
  unfold numeral
  simp only
  split_ifs <;> simp

/-- **The digits of a number are read as the numeral's double**, all of them and scaled at once -/
theorem value?_numeral {w : Window} (hleast : w.least ≤ 0) (hgreatest : w.greatest ≤ 17) (negative : Bool) {c : ℕ}
    (hc : c < UInt64.size) {t : ℤ} (hlow : -325 ≤ t) (hhigh : t ≤ 308) :
    (w.numeral negative c t).value? =
      (scale (w.gathered c t).1.toUInt64.toFloat (w.gathered c t).2).map fun x =>
        .double (if negative then -x else x) := by
  obtain ⟨hdigits, hshift⟩ := digits_numeral hleast negative c t
  have hlength : (Text.digits c).length ≤ 20 :=
    (Nat.length_toDigits_le_iff (by decide) (by decide)).2 (lt_of_lt_of_le hc (by decide))
  have hgathered : -325 ≤ (w.gathered c t).2 := by
    unfold gathered
    split_ifs <;> omega
  have hleading : (leading c t).natAbs ≤ 400 := by
    have := length_digits_pos c
    unfold leading
    omega
  have hpower := power_numeral w negative c t
  have hnegative : (w.numeral negative c t).negative = negative := by
    unfold numeral
    simp only
    split_ifs <;> rfl
  rw [Numeral.value?_of_isSome (isSome_numeral w negative c t),
    Numeral.magnitude?_of_lt (hdigits ▸ gathered_bounds hgreatest hc t) (by omega) (by omega), hdigits, hshift,
    hnegative]

end Window

end OpcPubSub.Number
