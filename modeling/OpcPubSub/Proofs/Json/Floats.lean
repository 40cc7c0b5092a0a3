/-
Documents with floating-point numbers are read leaf by leaf: a number of either width comes back as the double that the
reader scales its digits to, and there always is one. Main results:
- `scaled_finite`: the digits of a finite number are never out of range;
- `leaves_fit`: so every document is read whose integers have 64 bits and whose floating-point numbers are finite.
-/
import OpcPubSub.Proofs.Json.FloatText
import OpcPubSub.Proofs.Json.ReadBack
import OpcPubSub.Proofs.Json.Scaling
import OpcPubSub.Proofs.Number.Shortest

namespace OpcPubSub.Number

open Json

/-! ## The digits in a text -/

/-- the digits of a number's text and the power of ten that they are multiples of; zero is written with one place -/
def written (f : Format) (w : Window) (x : Fields) : ℕ × ℤ :=
  if x.biased = 0 ∧ x.fraction = 0 then (0, -1) else w.gathered (f.shortest x).1 (f.shortest x).2

/-- the numeral of a finite number -/
def numeral (f : Format) (w : Window) (x : Fields) : Numeral :=
  if x.biased = 0 ∧ x.fraction = 0 then ⟨x.negative, ['0'], some ['0'], none⟩
  else w.numeral x.negative (f.shortest x).1 (f.shortest x).2

variable {f : Format} {w : Window} {x : Fields}

theorem floatText_eq (f : Format) (w : Window) {bits : ℕ} (h : (f.fields bits).biased ≠ f.special) :
    floatText f w bits = (numeral f w (f.fields bits)).text := by
  unfold floatText numeral
  simp only
  rw [if_neg h]
  split_ifs with hnegative hzero hzero
  · simp [Numeral.text, fractionText, exponentText, hnegative]
  · simp [Window.text_numeral, hnegative]
  · simp [Numeral.text, fractionText, exponentText, hnegative]
  · simp [Window.text_numeral, hnegative]

/-- a format no wider than doubles, and a window that 64 bits are enough for -/
structure Printable (f : Format) (w : Window) : Prop where
  fraction : f.fractionBits ≤ 52
  least : -1074 ≤ f.minExponent
  greatest : f.minExponent + (f.special - 2 : ℕ) < 972
  window : w.least ≤ 0
  places : w.greatest ≤ 17

theorem printable_binary64 : Printable .binary64 .binary64 := by
  constructor <;> decide

theorem printable_binary32 : Printable .binary32 .binary32 := by
  constructor <;> decide

/-- the parts of a finite number other than zero -/
structure Regular (f : Format) (x : Fields) : Prop where
  biased : x.biased < f.special
  fraction : x.fraction < 2 ^ f.fractionBits
  nonzero : ¬(x.biased = 0 ∧ x.fraction = 0)

theorem regular_fields {bits : ℕ} (h : (f.fields bits).biased ≠ f.special)
    (hzero : ¬((f.fields bits).biased = 0 ∧ (f.fields bits).fraction = 0)) : Regular f (f.fields bits) where
  biased := by
    have hlt : (f.fields bits).biased < 1 <<< f.exponentBits := Nat.mod_lt _ (by simp [Nat.one_shiftLeft])
    unfold Format.special at h ⊢
    omega
  fraction := by
    have hlt : (f.fields bits).fraction < 1 <<< f.fractionBits := Nat.mod_lt _ (by simp [Nat.one_shiftLeft])
    rwa [Nat.one_shiftLeft] at hlt
  nonzero := hzero

namespace Regular

theorem significand_pos (h : Regular f x) : 0 < f.significand x := by
  have hpow : 0 < 2 ^ f.fractionBits := by positivity
  have hnonzero := h.nonzero
  unfold Format.significand
  split_ifs with hbiased <;> omega

theorem significand_lt (h : Regular f x) : f.significand x < 2 ^ (f.fractionBits + 1) := by
  have hfraction := h.fraction
  rw [pow_succ]
  unfold Format.significand
  split_ifs with hbiased <;> omega

theorem digits (h : Regular f x) (hf : Printable f w) : Digits f x (f.shortest x).1 (f.shortest x).2 := by
  have hmin := f.minExponent_le_exponent x
  have hbiased := h.biased
  have hpow : 2 ^ (f.fractionBits + 1) ≤ 2 ^ 53 := Nat.pow_le_pow_right two_pos (Nat.succ_le_succ hf.fraction)
  refine shortest_digits h.significand_pos (lt_of_lt_of_le h.significand_lt hpow) (hf.least.trans hmin) ?_
  have hgreatest := hf.greatest
  unfold Format.exponent
  omega

/-- the digits are at most half a place above the number -/
theorem written_le (h : Regular f x) (hf : Printable f w) :
    ((written f w x).1 : ℚ) * 10 ^ (written f w x).2 ≤ (f.significand x + 1 / 2) * 2 ^ f.exponent x := by
  rw [written, if_neg h.nonzero, Window.value_gathered]
  exact ((Format.ends_interval h.significand_pos).le_of_has (h.digits hf).has).2

end Regular

/-- the digits of each of the three greatest doubles scale to a finite number -/
theorem scale_written_greatest : ∀ k < 3,
    (scale (written .binary64 .binary64 ⟨false, 2046, 2 ^ 52 - 1 - k⟩).1.toUInt64.toFloat
      (written .binary64 .binary64 ⟨false, 2046, 2 ^ 52 - 1 - k⟩).2).any (·.toBits.toNat < infinityBits) = true := by
  decide +kernel

/-- digits that are at most half a place above a number of full range scale to a finite one -/
theorem Regular.scale_written_of_le (h : Regular f x) (hf : Printable f w)
    (hle : ((f.significand x : ℚ) + 1 / 2) * 2 ^ f.exponent x ≤ (2 ^ 53 - 7 / 2) * 2 ^ (971 : ℤ)) :
    ∃ y b, scale (written f w x).1.toUInt64.toFloat (written f w x).2 = some y ∧ Finite y .positive b := by
  have hdigits := h.digits hf
  have hq := (h.written_le hf).trans hle
  rw [written, if_neg h.nonzero] at hq ⊢
  refine scale_finite (w.gathered_pos hdigits.pos _) (Window.gathered_bounds hf.places hdigits.lt _) ?_ hq
  have := hdigits.le
  unfold Window.gathered
  split_ifs <;> omega

/-- below the three greatest doubles two roundings are less than what is left of the range -/
theorem Regular.below_greatest (h : Regular .binary64 x) (hbelow : ¬(x.biased = 2046 ∧ 2 ^ 52 - 4 < x.fraction)) :
    ((Format.binary64.significand x : ℚ) + 1 / 2) * 2 ^ Format.binary64.exponent x ≤
      (2 ^ 53 - 7 / 2) * 2 ^ (971 : ℤ) := by
  have hbiased : x.biased < 2047 := h.biased
  rcases Nat.lt_or_ge x.biased 2046 with hlt | hge
  · have hsignificand : (Format.binary64.significand x : ℚ) + 1 ≤ 2 ^ 53 := by exact_mod_cast h.significand_lt
    have hexponent : Format.binary64.exponent x ≤ 970 := by
      change (-1074 : ℤ) + (x.biased - 1 : ℕ) ≤ 970
      omega
    calc ((Format.binary64.significand x : ℚ) + 1 / 2) * 2 ^ Format.binary64.exponent x
        ≤ 2 ^ 53 * 2 ^ (970 : ℤ) := by
          gcongr
          · linarith
          · exact one_le_two
      _ = 2 ^ 52 * 2 ^ (971 : ℤ) := by
        rw [show (971 : ℤ) = 970 + 1 by rfl, zpow_add_one₀ two_ne_zero]
        ring
      _ ≤ (2 ^ 53 - 7 / 2) * 2 ^ (971 : ℤ) := by
        refine mul_le_mul_of_nonneg_right ?_ (by positivity)
        norm_num
  · have hsignificand : (Format.binary64.significand x : ℚ) + 4 ≤ 2 ^ 53 := by
      rw [Format.significand, if_neg (by omega)]
      exact_mod_cast (show x.fraction + 2 ^ 52 + 4 ≤ 2 ^ 53 by omega)
    have hexponent : Format.binary64.exponent x = 971 := by
      change (-1074 : ℤ) + (x.biased - 1 : ℕ) = 971
      omega
    rw [hexponent]
    refine mul_le_mul_of_nonneg_right ?_ (by positivity)
    linarith

/-- **The digits of a double are never out of range** -/
theorem Regular.scale_written_binary64 (h : Regular .binary64 x) :
    ∃ y b, scale (written .binary64 .binary64 x).1.toUInt64.toFloat (written .binary64 .binary64 x).2 = some y ∧
      Finite y .positive b := by
  by_cases htop : x.biased = 2046 ∧ 2 ^ 52 - 4 < x.fraction
  · obtain ⟨negative, biased, fraction⟩ := x
    obtain ⟨rfl, htop⟩ := htop
    have hfraction : fraction < 2 ^ 52 := h.fraction
    simp only at htop
    obtain ⟨k, hk, rfl⟩ : ∃ k < 3, fraction = 2 ^ 52 - 1 - k := ⟨2 ^ 52 - 1 - fraction, by omega, by omega⟩
    obtain ⟨y, hy, hlt⟩ := (Option.any_eq_true _ _).1 (scale_written_greatest k hk)
    exact ⟨y, _, hy, ⟨(Nat.zero_add _).symm, of_decide_eq_true hlt⟩⟩
  · exact h.scale_written_of_le printable_binary64 (h.below_greatest htop)

theorem Regular.scale_written_binary32 (h : Regular .binary32 x) :
    ∃ y b, scale (written .binary32 .binary32 x).1.toUInt64.toFloat (written .binary32 .binary32 x).2 = some y ∧
      Finite y .positive b := by
  refine h.scale_written_of_le printable_binary32 ?_
  have hbiased : x.biased < 255 := h.biased
  have hlt : (Format.binary32.significand x : ℚ) + 1 / 2 ≤ 2 ^ 24 := by
    have : (Format.binary32.significand x : ℚ) + 1 ≤ 2 ^ 24 := by exact_mod_cast h.significand_lt
    linarith
  have hexponent : Format.binary32.exponent x ≤ 971 := by
    change (-149 : ℤ) + (x.biased - 1 : ℕ) ≤ 971
    omega
  calc ((Format.binary32.significand x : ℚ) + 1 / 2) * 2 ^ Format.binary32.exponent x
      ≤ 2 ^ 24 * 2 ^ (971 : ℤ) := by gcongr; exact one_le_two
    _ ≤ (2 ^ 53 - 7 / 2) * 2 ^ (971 : ℤ) := by
      refine mul_le_mul_of_nonneg_right ?_ (by positivity)
      norm_num

/-! ## The double that is read -/

/-- the magnitude that the digits of a number are read as -/
def scaled (f : Format) (w : Window) (x : Fields) : Option Float :=
  scale (written f w x).1.toUInt64.toFloat (written f w x).2

/-- the double that the text of a number is read as -/
def reread (f : Format) (w : Window) (x : Fields) : Float :=
  if x.negative then -((scaled f w x).getD 0.0) else (scaled f w x).getD 0.0

/-- zero scales to zero -/
theorem scaled_zero (hzero : x.biased = 0 ∧ x.fraction = 0) :
    ∃ y, scaled f w x = some y ∧ Finite y .positive 0 := by
  have hdigits : Finite (0 : ℕ).toUInt64.toFloat .positive 0 := ⟨by decide +kernel, by decide⟩
  refine ⟨_, ?_, (positive_powerOfTen (show 1 ≤ 308 by decide)).zero_div hdigits⟩
  rw [scaled, written, if_pos hzero, scale_of_neg _ (by decide), shrink, dif_neg (by decide)]
  rfl

theorem value?_numeral (hf : Printable f w) (h : (x.biased = 0 ∧ x.fraction = 0) ∨ Regular f x) :
    (numeral f w x).value? = (scaled f w x).map fun y => .double (if x.negative then -y else y) := by
  rcases h with hzero | h
  · have hdigits : (⟨x.negative, ['0'], some ['0'], none⟩ : Numeral).digits < UInt64.size := show 0 < 2 ^ 64 by decide
    rw [numeral, scaled, written, if_pos hzero, if_pos hzero, Numeral.value?_of_isSome (Or.inl rfl),
      Numeral.magnitude?_of_lt hdigits (by simp [Numeral.power]) (by simp)]
    rfl
  · have hdigits := h.digits hf
    rw [numeral, scaled, written, if_neg h.nonzero, if_neg h.nonzero,
      Window.value?_numeral hf.window hf.places _ hdigits.lt hdigits.ge hdigits.le]

theorem grammatical_numeral (hf : Printable f w) (h : (x.biased = 0 ∧ x.fraction = 0) ∨ Regular f x) :
    (numeral f w x).Grammatical := by
  rcases h with hzero | h
  · have hdigit : AreDigits ['0'] := ⟨by simp, by simp⟩
    rw [numeral, if_pos hzero]
    refine ⟨hdigit, by simp, ?_, by simp⟩
    rintro _ ⟨rfl⟩
    exact hdigit
  · rw [numeral, if_neg h.nonzero]
    exact Window.grammatical_numeral _ _ (h.digits hf).pos _

theorem zero_or_regular {bits : ℕ} (h : (f.fields bits).biased ≠ f.special) :
    ((f.fields bits).biased = 0 ∧ (f.fields bits).fraction = 0) ∨ Regular f (f.fields bits) := by
  by_cases hzero : (f.fields bits).biased = 0 ∧ (f.fields bits).fraction = 0
  · exact Or.inl hzero
  · exact Or.inr (regular_fields h hzero)

/-- only finite numbers have no name -/
theorem nonFinite?_eq_none_iff (f : Format) (bits : ℕ) :
    nonFinite? f bits = none ↔ (f.fields bits).biased ≠ f.special := by
  unfold nonFinite?
  simp only
  split_ifs with h <;> simp [h]

/-- the parts of a double -/
def doubleFields (x : Float) : Fields := Format.binary64.fields x.toBits.toNat

/-- the parts of a single -/
def singleFields (x : Float32) : Fields := Format.binary32.fields x.toBits.toNat

theorem zero_or_regular_double {x : Float} (h : x.isFinite = true) :
    ((doubleFields x).biased = 0 ∧ (doubleFields x).fraction = 0) ∨ Regular .binary64 (doubleFields x) :=
  zero_or_regular ((isFinite_double x).1 h)

theorem zero_or_regular_single {x : Float32} (h : x.isFinite = true) :
    ((singleFields x).biased = 0 ∧ (singleFields x).fraction = 0) ∨ Regular .binary32 (singleFields x) :=
  zero_or_regular ((isFinite_single x).1 h)

theorem nonFinite?_double (x : Float) : nonFinite? .binary64 x.toBits.toNat = none ↔ x.isFinite = true :=
  (nonFinite?_eq_none_iff _ _).trans (isFinite_double x).symm

theorem nonFinite?_single (x : Float32) : nonFinite? .binary32 x.toBits.toNat = none ↔ x.isFinite = true :=
  (nonFinite?_eq_none_iff _ _).trans (isFinite_single x).symm

/-- the magnitude of a finite number is read as a finite one -/
theorem scaled_finite {x : Float} (h : x.isFinite = true) :
    ∃ y b, scaled .binary64 .binary64 (doubleFields x) = some y ∧ Finite y .positive b := by
  rcases zero_or_regular_double h with hzero | hregular
  · obtain ⟨y, hy, hfinite⟩ := scaled_zero hzero
    exact ⟨y, 0, hy, hfinite⟩
  · exact hregular.scale_written_binary64

theorem scaled_finite_single {x : Float32} (h : x.isFinite = true) :
    ∃ y b, scaled .binary32 .binary32 (singleFields x) = some y ∧ Finite y .positive b := by
  rcases zero_or_regular_single h with hzero | hregular
  · obtain ⟨y, hy, hfinite⟩ := scaled_zero hzero
    exact ⟨y, 0, hy, hfinite⟩
  · exact hregular.scale_written_binary32

/-- the text of a finite number is read as its own double -/
theorem readValue_floatText (hf : Printable f w) {bits : ℕ} (h : (f.fields bits).biased ≠ f.special)
    (hscaled : (scaled f w (f.fields bits)).isSome = true) (fuel depth : ℕ) {rest : List Char}
    (hrest : Delimited rest) : readValue (fuel + 1) depth (floatText f w bits ++ rest) =
      .ok (.double (reread f w (f.fields bits)), rest) := by
  obtain ⟨y, hy⟩ := Option.isSome_iff_exists.1 hscaled
  have hvalue := value?_numeral hf (zero_or_regular h)
  rw [hy, Option.map_some] at hvalue
  rw [readValue_numeral fuel depth (floatText_eq f w h) (grammatical_numeral hf (zero_or_regular h)) hvalue hrest,
    reread, hy, Option.getD_some]

theorem starts_floatText (hf : Printable f w) {bits : ℕ} (h : (f.fields bits).biased ≠ f.special) :
    ∃ c cs, floatText f w bits = c :: cs ∧ Starts c := by
  obtain ⟨c, cs, hcs, hc⟩ := (grammatical_numeral hf (zero_or_regular h)).head
  exact ⟨c, cs, (floatText_eq f w h).trans hcs, starts_of_number hc⟩

end OpcPubSub.Number

namespace OpcPubSub

open Number

/-- the leaves that a text has -/
def Atom.Fits : Atom → Prop
  | .int n => -(2 ^ 63) ≤ n ∧ n < 2 ^ 64
  | .double x => x.isFinite = true
  | .single x => x.isFinite = true
  | _ => True

/-- the leaf that the text of a leaf is read as -/
def Atom.reread : Atom → Atom
  | .double x => .double (Number.reread .binary64 .binary64 (doubleFields x))
  | .single x => .double (Number.reread .binary32 .binary32 (singleFields x))
  | a => a

namespace Json

/-- **Every leaf is read**, floating-point numbers as doubles -/
theorem leaves_fit : Leaves Atom.Fits Atom.reread where
  starts := by
    intro a ha
    cases a with
    | double x =>
      obtain ⟨c, cs, hcs, hc⟩ := starts_floatText printable_binary64 ((isFinite_double x).1 ha)
      exact ⟨c, cs, by rw [Atom.text, String.toList_ofList, doubleText, hcs], hc⟩
    | single x =>
      obtain ⟨c, cs, hcs, hc⟩ := starts_floatText printable_binary32 ((isFinite_single x).1 ha)
      exact ⟨c, cs, by rw [Atom.text, String.toList_ofList, singleText, hcs], hc⟩
    | null => exact leaves_plain.starts .null trivial
    | bool b => exact leaves_plain.starts (.bool b) trivial
    | string s => exact leaves_plain.starts (.string s) trivial
    | int n => exact leaves_plain.starts (.int n) ha
  reads := by
    intro a ha fuel depth rest hrest
    cases a with
    | double x =>
      obtain ⟨y, b, hy, -⟩ := scaled_finite ha
      rw [Atom.text, String.toList_ofList, doubleText]
      exact readValue_floatText printable_binary64 ((isFinite_double x).1 ha) (Option.isSome_of_eq_some hy) fuel depth
        hrest
    | single x =>
      obtain ⟨y, b, hy, -⟩ := scaled_finite_single ha
      rw [Atom.text, String.toList_ofList, singleText]
      exact readValue_floatText printable_binary32 ((isFinite_single x).1 ha) (Option.isSome_of_eq_some hy) fuel depth
        hrest
    | null => exact leaves_plain.reads .null trivial fuel depth rest hrest
    | bool b => exact leaves_plain.reads (.bool b) trivial fuel depth rest hrest
    | string s => exact leaves_plain.reads (.string s) trivial fuel depth rest hrest
    | int n => exact leaves_plain.reads (.int n) ha fuel depth rest hrest

end Json

end OpcPubSub
