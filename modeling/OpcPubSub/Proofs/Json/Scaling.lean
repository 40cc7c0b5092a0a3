/-
Digits scaled by a power of ten, in doubles.

The digits, the power and their product or quotient are each rounded to the nearest (`Rounds`), so the last place may
be missed. Main results:
- `scale_finite`: digits and powers of finite numbers scale to a finite number, the three greatest aside;
- `scale_exact`: below `2 ^ 53` and for powers up to 22 only the last of the three rounds.
-/
import OpcPubSub.Json.Numeral
import OpcPubSub.Proofs.Number.Arithmetic

namespace OpcPubSub.Number

/-! ## Nearest doubles -/

/-- `x` is the double nearest to `q`, infinity where that is out of range -/
def Rounds (x : Float) (q : ℚ) : Prop := x.toBits.toNat = min (Format.binary64.bitsOf q) infinityBits

/-- the greatest double -/
def greatest : ℚ := (2 ^ 53 - 1) * 2 ^ (971 : ℤ)

variable {x y : Float} {q r : ℚ}

theorem bitsOf_lt_infinityBits (hq : 0 < q) (h : q ≤ greatest) : Format.binary64.bitsOf q < infinityBits := by
  have hlt := Format.bitsOf_lt (f := .binary64) (k := 2045) hq h
  rwa [infinityBits_eq]

theorem infinityBits_lt : infinityBits < 2 ^ (Format.binary64.fractionBits + Format.binary64.exponentBits) := by
  rw [infinityBits_eq]
  decide

theorem bitsOf_pos (h : 2 ^ (-1074 : ℤ) ≤ q) : 0 < Format.binary64.bitsOf q := by
  have hq : 0 < q := lt_of_lt_of_le (by positivity) h
  unfold Format.bitsOf
  rcases (Format.minExponent_le_place .binary64 q).eq_or_lt with heq | hlt
  · have hone : 1 ≤ nearestNat (q / 2 ^ Format.binary64.place q) := by
      refine (Format.nearest_div_place hq).ge_of_ge ?_
      rw [← heq, Nat.cast_one, le_div_iff₀ (by positivity), one_mul]
      exact h
    omega
  · have := Format.le_nearestNat hq hlt
    have : 0 < 2 ^ Format.binary64.fractionBits := by positivity
    omega

/-- no double is above the greatest -/
theorem Positive.magnitude_le (hx : Positive x) : magnitude x ≤ greatest := by
  have hlt := hx.lt
  rw [infinityBits_eq] at hlt
  have hrange := hx.lt.trans infinityBits_lt
  have hsignificand := Format.significand_lt hrange
  have hexponent : Format.binary64.exponent (Format.binary64.fields x.toBits.toNat) ≤ 971 := by
    rw [Format.fields_of_lt hrange]
    change (-1074 : ℤ) + (x.toBits.toNat / 2 ^ 52 - 1 : ℕ) ≤ 971
    omega
  refine mul_le_mul ?_ (zpow_le_zpow_right₀ one_le_two hexponent) (by positivity) (by norm_num)
  have : ((Format.binary64.significand (Format.binary64.fields x.toBits.toNat) : ℕ) : ℚ) + 1 ≤ 2 ^ 53 := by
    exact_mod_cast hsignificand
  linarith

/-- zero stays zero when it is divided -/
theorem Positive.zero_div (hx : Finite x .positive 0) (hy : Positive y) : Finite (x / y) .positive 0 := by
  obtain ⟨m, e, hm, hunpack, -⟩ := hy.unpack
  have hzero : parts .positive 0 = .zero .positive := dif_neg (by decide)
  have hmodel : x / y =
      Float.ofModel (Float.Model.pack (Float.Model.UnpackedFloat.div doubles x.toModel.unpack y.toModel.unpack)) := rfl
  have hdiv : Float.Model.UnpackedFloat.div doubles (.zero .positive) (.finite .positive m e hm) = .zero .positive :=
    rfl
  rw [hmodel, hx.unpack, hunpack, hzero, hdiv, ← hzero]
  exact Finite.ofModel_pack_parts .positive hx.lt

namespace Rounds

theorem bits (h : Rounds x q) (hq : 0 < q) (hle : q ≤ greatest) : x.toBits.toNat = Format.binary64.bitsOf q := by
  rw [h, min_eq_left (bitsOf_lt_infinityBits hq hle).le]

theorem finite (h : Rounds x q) (hq : 0 < q) (hle : q ≤ greatest) : Finite x .positive (Format.binary64.bitsOf q) :=
  ⟨(h.bits hq hle).trans (Nat.zero_add _).symm, bitsOf_lt_infinityBits hq hle⟩

theorem positive (h : Rounds x q) (hlow : 2 ^ (-1074 : ℤ) ≤ q) (hle : q ≤ greatest) : Positive x := by
  have hq : 0 < q := lt_of_lt_of_le (by positivity) hlow
  constructor
  · rw [h.bits hq hle]
    exact bitsOf_pos hlow
  · rw [h.bits hq hle]
    exact bitsOf_lt_infinityBits hq hle

/-- one rounding moves a number by a half of its last place at most -/
theorem near (h : Rounds x q) (hlow : 2 ^ (-1022 : ℤ) ≤ q) (hle : q ≤ greatest) :
    q * (1 - 1 / 2 ^ 53) ≤ magnitude x ∧ magnitude x ≤ q * (1 + 1 / 2 ^ 53) := by
  have hq : 0 < q := lt_of_lt_of_le (by positivity) hlow
  have hbits : magnitude x = Format.binary64.value (Format.binary64.bitsOf q) := by rw [magnitude, h.bits hq hle]
  have hnear := Format.abs_value_sub_le_mul (f := .binary64) hlow
    ((bitsOf_lt_infinityBits hq hle).trans infinityBits_lt)
  rw [← hbits, abs_le] at hnear
  change -(q / 2 ^ 53) ≤ _ ∧ _ ≤ q / 2 ^ 53 at hnear
  constructor <;> linarith

/-- 53 bits are kept -/
theorem magnitude_eq {m : ℕ} {e : ℤ} (h : Rounds x (m * 2 ^ e)) (hm : 0 < m) (hlt : m < 2 ^ 53) (he : -1074 ≤ e)
    (hle : m * 2 ^ e ≤ greatest) : magnitude x = m * 2 ^ e := by
  have hq : (0 : ℚ) < m * 2 ^ e := by positivity
  rw [magnitude, h.bits hq hle]
  exact Format.value_bitsOf_of_eq hm hlt he rfl ((bitsOf_lt_infinityBits hq hle).trans infinityBits_lt)

end Rounds

end OpcPubSub.Number

namespace OpcPubSub.Json

open Number

/-! ## Digits and powers of ten -/

theorem tenPow_le_greatest {n : ℕ} (hn : n ≤ 308) : (10 : ℚ) ^ n ≤ greatest := by
  have hnat : (10 : ℕ) ^ 308 + 2 ^ 971 ≤ 2 ^ 53 * 2 ^ 971 := by decide +kernel
  have hmax : (10 : ℚ) ^ 308 + 2 ^ 971 ≤ 2 ^ 53 * 2 ^ 971 := by exact_mod_cast hnat
  calc (10 : ℚ) ^ n ≤ 10 ^ 308 := pow_le_pow_right₀ (by norm_num) hn
    _ ≤ 2 ^ 53 * 2 ^ 971 - 2 ^ 971 := le_sub_iff_add_le.2 hmax
    _ = greatest := by rw [greatest, zpow_ofNat, sub_mul, one_mul]

theorem rounds_powerOfTen {n : ℕ} (hn : n ≤ 308) : Rounds (powerOfTen n) (10 ^ n) := by
  have hlt := bitsOf_lt_infinityBits (by positivity) (tenPow_le_greatest hn)
  have hnearest := Format.nearest?_eq (f := .binary64) (Nat.pow_pos (n := n) (show 0 < 10 by decide)) one_pos
  have hq : ((Nat.pow 10 n : ℕ) : ℚ) / (1 : ℕ) = 10 ^ n := by simp
  rw [show Nat.pow 10 n = 10 ^ n from rfl] at hq
  change _ = if _ < infinityBits then _ else _ at hnearest
  rw [hq, if_pos hlt] at hnearest
  rw [powerOfTen, nearestDouble?, show Nat.pow 10 n = 10 ^ n from rfl, hnearest, Rounds, min_eq_left hlt.le]
  exact (finite_ofBits hlt).bits.trans (Nat.zero_add _)

theorem rounds_toFloat {s : ℕ} (hs : 0 < s) (hlt : s < UInt64.size) : Rounds s.toUInt64.toFloat s := by
  have hnat : s.toUInt64.toNat = s := UInt64.toNat_ofNat_of_lt' hlt
  have h := toBits_toFloat (n := s.toUInt64) (by omega)
  rwa [hnat] at h

/-- numbers from one on are beyond every power of two below one -/
theorem zpow_le_of_one_le {q : ℚ} {n : ℤ} (hn : n ≤ 0) (h : 1 ≤ q) : 2 ^ n ≤ q :=
  (zpow_le_one_of_nonpos₀ one_le_two hn).trans h

theorem one_le_tenPow (n : ℕ) : (1 : ℚ) ≤ 10 ^ n := one_le_pow₀ (by norm_num)

theorem positive_powerOfTen {n : ℕ} (hn : n ≤ 308) : Positive (powerOfTen n) :=
  (rounds_powerOfTen hn).positive (zpow_le_of_one_le (by decide) (one_le_tenPow n)) (tenPow_le_greatest hn)

theorem near_powerOfTen {n : ℕ} (hn : n ≤ 308) :
    10 ^ n * (1 - 1 / 2 ^ 53) ≤ magnitude (powerOfTen n) ∧ magnitude (powerOfTen n) ≤ 10 ^ n * (1 + 1 / 2 ^ 53) :=
  (rounds_powerOfTen hn).near (zpow_le_of_one_le (by decide) (one_le_tenPow n)) (tenPow_le_greatest hn)

/-- the powers of five up to 22 have 53 bits -/
theorem magnitude_powerOfTen {n : ℕ} (hn : n ≤ 22) : magnitude (powerOfTen n) = 10 ^ n := by
  have hsplit : (10 : ℚ) ^ n = (5 ^ n : ℕ) * 2 ^ (n : ℤ) := by
    rw [zpow_natCast, Nat.cast_pow, ← mul_pow]
    norm_num
  have hrounds := rounds_powerOfTen (show n ≤ 308 by omega)
  have hle := tenPow_le_greatest (show n ≤ 308 by omega)
  rw [hsplit] at hrounds hle ⊢
  refine hrounds.magnitude_eq (by positivity) ?_ (by omega) hle
  calc 5 ^ n ≤ 5 ^ 22 := Nat.pow_le_pow_right (by decide) hn
    _ < 2 ^ 53 := by decide

section Digits

variable {s : ℕ}

theorem digits_le (hlt : s < UInt64.size) : (s : ℚ) ≤ 10 ^ 20 := by
  have : s ≤ 10 ^ 20 := le_trans hlt.le (by decide)
  exact_mod_cast this

theorem digits_le_greatest (hlt : s < UInt64.size) : (s : ℚ) ≤ greatest :=
  (digits_le hlt).trans (tenPow_le_greatest (by decide))

theorem one_le_digits (hs : 0 < s) : (1 : ℚ) ≤ s := by exact_mod_cast hs

theorem positive_toFloat (hs : 0 < s) (hlt : s < UInt64.size) : Positive s.toUInt64.toFloat :=
  (rounds_toFloat hs hlt).positive (zpow_le_of_one_le (by decide) (one_le_digits hs)) (digits_le_greatest hlt)

theorem near_toFloat (hs : 0 < s) (hlt : s < UInt64.size) :
    s * (1 - 1 / 2 ^ 53) ≤ magnitude s.toUInt64.toFloat ∧ magnitude s.toUInt64.toFloat ≤ s * (1 + 1 / 2 ^ 53) :=
  (rounds_toFloat hs hlt).near (zpow_le_of_one_le (by decide) (one_le_digits hs)) (digits_le_greatest hlt)

/-- below `2 ^ 53` no digit is lost -/
theorem magnitude_toFloat (hs : 0 < s) (hlt : s < 2 ^ 53) : magnitude s.toUInt64.toFloat = s := by
  have hsize : s < UInt64.size := hlt.trans (by decide)
  have hrounds := rounds_toFloat hs hsize
  have hle := digits_le_greatest hsize
  rw [← mul_one (s : ℚ), ← zpow_zero (2 : ℚ)] at hrounds hle ⊢
  exact hrounds.magnitude_eq hs hlt (by decide) hle

/-! ## Scaling -/

/-- **Up to the three greatest, products stay in range**: two roundings are less than one place -/
theorem scale_of_nonneg (hs : 0 < s) (hlt : s < UInt64.size) {n : ℕ} (hn : n ≤ 308)
    (hq : (s : ℚ) * 10 ^ n ≤ (2 ^ 53 - 7 / 2) * 2 ^ (971 : ℤ)) :
    ∃ x b, scale s.toUInt64.toFloat n = some x ∧ Finite x .positive b := by
  have hprod := (positive_toFloat hs hlt).toBits_mul (positive_powerOfTen hn)
  have hpos := mul_pos (positive_toFloat hs hlt).magnitude_pos (positive_powerOfTen hn).magnitude_pos
  have hle : magnitude s.toUInt64.toFloat * magnitude (powerOfTen n) ≤ greatest := by
    have hunit : (0 : ℚ) ≤ 1 + 1 / 2 ^ 53 := by positivity
    calc magnitude s.toUInt64.toFloat * magnitude (powerOfTen n)
        ≤ (s * (1 + 1 / 2 ^ 53)) * (10 ^ n * (1 + 1 / 2 ^ 53)) :=
          mul_le_mul (near_toFloat hs hlt).2 (near_powerOfTen hn).2 (positive_powerOfTen hn).magnitude_pos.le
            (by positivity)
      _ = (s * 10 ^ n) * (1 + 1 / 2 ^ 53) ^ 2 := by ring
      _ ≤ (2 ^ 53 - 7 / 2) * 2 ^ (971 : ℤ) * (1 + 1 / 2 ^ 53) ^ 2 := by gcongr
      _ = (2 ^ 53 - 7 / 2) * (1 + 1 / 2 ^ 53) ^ 2 * 2 ^ (971 : ℤ) := mul_right_comm _ _ _
      _ ≤ greatest := by
        refine mul_le_mul_of_nonneg_right ?_ (by positivity)
        norm_num
  have hfinite := Rounds.finite hprod hpos hle
  refine ⟨_, _, ?_, hfinite⟩
  rw [scale, if_pos (by omega), if_neg (by omega)]
  simp only [Int.toNat_natCast, hfinite.isInf, Bool.false_eq_true, if_false]

end Digits

theorem one_le_magnitude_powerOfTen {n : ℕ} (hn : n ≤ 308) : 1 ≤ magnitude (powerOfTen n) := by
  rcases Nat.lt_or_ge 22 n with h | h
  · have hten : (10 : ℚ) ^ 1 ≤ 10 ^ n := pow_le_pow_right₀ (by norm_num) (by omega)
    refine le_trans ?_ (near_powerOfTen hn).1
    norm_num at hten ⊢
    linarith
  · rw [magnitude_powerOfTen h]
    exact one_le_tenPow n

/-- quotients by powers of ten stay in range -/
theorem finite_div_powerOfTen {x : Float} {b : ℕ} (hx : Finite x .positive b) {n : ℕ} (hn : n ≤ 308) :
    ∃ c, Finite (x / powerOfTen n) .positive c := by
  have hbits : x.toBits.toNat = b := hx.bits.trans (Nat.zero_add b)
  have hp := positive_powerOfTen hn
  rcases Nat.eq_zero_or_pos b with rfl | hb
  · exact ⟨0, hp.zero_div hx⟩
  · have hpos : Positive x := ⟨by omega, hbits ▸ hx.lt⟩
    have hle : magnitude x / magnitude (powerOfTen n) ≤ greatest :=
      le_trans (div_le_self hpos.magnitude_pos.le (one_le_magnitude_powerOfTen hn)) hpos.magnitude_le
    exact ⟨_, Rounds.finite (hpos.toBits_div hp) (div_pos hpos.magnitude_pos hp.magnitude_pos) hle⟩

/-- by induction on the power, 308 tens at a time -/
theorem finite_shrink {x : Float} {b : ℕ} (hx : Finite x .positive b) (n : ℕ) :
    ∃ c, Finite (shrink x n) .positive c := by
  induction n using Nat.strong_induction_on generalizing x b with
  | _ n ih =>
    rw [shrink]
    split_ifs with hn hzero
    · exact ⟨b, hx⟩
    · obtain ⟨c, hc⟩ := finite_div_powerOfTen hx le_rfl
      exact ih (n - 308) (by omega) hc
    · exact finite_div_powerOfTen hx (by omega)

theorem scale_of_neg (x : Float) {e : ℤ} (he : e < 0) : scale x e = some (shrink x e.natAbs) := by
  rw [scale, if_neg (by omega)]

/-- **Digits scale to a finite number** unless their product is next to the greatest -/
theorem scale_finite {s : ℕ} (hs : 0 < s) (hlt : s < UInt64.size) {e : ℤ} (he : e ≤ 308)
    (hq : (s : ℚ) * 10 ^ e ≤ (2 ^ 53 - 7 / 2) * 2 ^ (971 : ℤ)) :
    ∃ x b, scale s.toUInt64.toFloat e = some x ∧ Finite x .positive b := by
  rcases le_or_gt 0 e with hnonneg | hneg
  · obtain ⟨n, rfl⟩ := Int.eq_ofNat_of_zero_le hnonneg
    exact scale_of_nonneg hs hlt (by omega) (by exact_mod_cast hq)
  · obtain ⟨b, hb⟩ := finite_shrink (positive_toFloat hs hlt).finite e.natAbs
    exact ⟨_, b, scale_of_neg _ hneg, hb⟩

/-- **Below `2 ^ 53` and up to the power 22 scaling is to the nearest**: digits and power are exact -/
theorem scale_exact {s : ℕ} (hs : 0 < s) (hlt : s < 2 ^ 53) {e : ℤ} (he : e.natAbs ≤ 22) :
    ∃ x, scale s.toUInt64.toFloat e = some x ∧ Rounds x (s * 10 ^ e) := by
  have hsize : s < UInt64.size := hlt.trans (by decide)
  have hdigits := positive_toFloat hs hsize
  rcases le_or_gt 0 e with hnonneg | hneg
  · obtain ⟨n, rfl⟩ := Int.eq_ofNat_of_zero_le hnonneg
    have hpower := positive_powerOfTen (show n ≤ 308 by omega)
    have hrounds : Rounds (s.toUInt64.toFloat * powerOfTen n) (s * 10 ^ n) := by
      have := hdigits.toBits_mul hpower
      rwa [magnitude_toFloat hs hlt, magnitude_powerOfTen (show n ≤ 22 by omega)] at this
    have hle : (s : ℚ) * 10 ^ n ≤ greatest := by
      calc (s : ℚ) * 10 ^ n ≤ 10 ^ 20 * 10 ^ n := by gcongr; exact digits_le hsize
        _ = 10 ^ (20 + n) := (pow_add ..).symm
        _ ≤ greatest := tenPow_le_greatest (by omega)
    have hfinite := hrounds.finite (mul_pos (by exact_mod_cast hs) (by positivity)) hle
    refine ⟨_, ?_, by rwa [zpow_natCast]⟩
    rw [scale, if_pos hnonneg, if_neg (by omega)]
    simp only [Int.toNat_natCast, hfinite.isInf, Bool.false_eq_true, if_false]
  · obtain ⟨n, hn⟩ := Int.eq_ofNat_of_zero_le (show 0 ≤ -e by omega)
    obtain rfl : e = -n := by omega
    have hpower := positive_powerOfTen (show n ≤ 308 by omega)
    refine ⟨_, scale_of_neg _ hneg, ?_⟩
    have := hdigits.toBits_div hpower
    rw [magnitude_toFloat hs hlt, magnitude_powerOfTen (show n ≤ 22 by omega)] at this
    rw [Int.natAbs_neg, Int.natAbs_natCast, shrink, dif_neg (by omega), zpow_neg, zpow_natCast, ← div_eq_mul_inv]
    exact this

end OpcPubSub.Json
