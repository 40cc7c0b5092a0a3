/-
Rounding to a binary format, over the rationals.

A positive number is rounded at a `place`: a power of two that leaves room for all digits of the format, or the least
one there is. `bitsOf` puts the nearest multiple of it in bits. What the bits stand for is `value`, and the interval
that the digits of a number are picked from is made of what rounds to it. Main results:
- `bitsOf_of_has`: every decimal in the interval of a number is rounded to the number;
- `nearest?_eq`: the nearest number to a quotient is the one `bitsOf` names, unless that is out of range.
-/
import Mathlib
import OpcPubSub.Number.Nearest

namespace OpcPubSub.Number

/-! ## The nearest whole number -/

/-- the whole number nearest to `z`, the even one of two that are equally near -/
structure Nearest (z : ℚ) (n : ℕ) : Prop where
  near : |z - n| ≤ 1 / 2
  even : |z - n| = 1 / 2 → n % 2 = 0

namespace Nearest

variable {z : ℚ} {m n : ℕ}

theorem le (h : Nearest z n) : (n : ℚ) ≤ z + 1 / 2 := by
  have := abs_le.1 h.near
  linarith

theorem ge (h : Nearest z n) : z ≤ (n : ℚ) + 1 / 2 := by
  have := abs_le.1 h.near
  linarith

/-- two neighbours that are both near are equally near, and only one of them is even -/
theorem not_lt (hm : Nearest z m) (hn : Nearest z n) : ¬m < n := by
  intro hlt
  have hstep : (m : ℚ) + 1 ≤ n := by exact_mod_cast hlt
  have hmz : z = m + 1 / 2 := by linarith [hm.ge, hn.le]
  have hnz : (n : ℚ) = m + 1 := by linarith [hm.ge, hn.le]
  have hsucc : n = m + 1 := by exact_mod_cast hnz
  have hm2 := hm.even (by rw [hmz]; norm_num)
  have hn2 := hn.even (by rw [hmz, hnz]; norm_num)
  omega

theorem unique (hm : Nearest z m) (hn : Nearest z n) : m = n :=
  le_antisymm (Nat.le_of_not_lt (hn.not_lt hm)) (Nat.le_of_not_lt (hm.not_lt hn))

/-- whole numbers are their own -/
theorem natCast (n : ℕ) : Nearest n n where
  near := by norm_num
  even := by norm_num

theorem le_of_le {k : ℕ} (h : Nearest z n) (hz : z ≤ k) : n ≤ k := by
  have : (n : ℚ) < (k + 1 : ℕ) := by
    push_cast
    linarith [h.le]
  exact Nat.le_of_lt_succ (by exact_mod_cast this)

theorem ge_of_ge {k : ℕ} (h : Nearest z n) (hz : (k : ℚ) ≤ z) : k ≤ n := by
  have : (k : ℚ) < (n + 1 : ℕ) := by
    push_cast
    linarith [h.ge]
  exact Nat.le_of_lt_succ (by exact_mod_cast this)

/-- nearer than half a step -/
theorem of_lt (h : |z - n| < 1 / 2) : Nearest z n := ⟨h.le, fun heq => absurd heq h.ne⟩

end Nearest

theorem nearest_roundDiv (a : ℕ) {b : ℕ} (hb : 0 < b) : Nearest ((a : ℚ) / b) (roundDiv a b) := by
  have hbq : (0 : ℚ) < b := by exact_mod_cast hb
  have hsplit : (a : ℚ) = b * (a / b : ℕ) + (a % b : ℕ) := by exact_mod_cast (Nat.div_add_mod a b).symm
  have hz : (a : ℚ) / b = (a / b : ℕ) + (a % b : ℕ) / b := by
    rw [hsplit]
    field_simp
  have hlt : ((a % b : ℕ) : ℚ) / b < 1 := by
    rw [div_lt_one hbq]
    exact_mod_cast Nat.mod_lt a hb
  have hnonneg : (0 : ℚ) ≤ ((a % b : ℕ) : ℚ) / b := by positivity
  have hhalf : ∀ r : ℚ, r / b < 1 / 2 ↔ 2 * r < b := by
    intro r
    rw [div_lt_div_iff₀ hbq two_pos]
    constructor <;> intro h <;> linarith
  have hhalf' : ∀ r : ℚ, r / b = 1 / 2 ↔ 2 * r = b := by
    intro r
    rw [div_eq_div_iff hbq.ne' two_ne_zero]
    constructor <;> intro h <;> linarith
  unfold roundDiv
  simp only
  rw [hz]
  rcases lt_trichotomy (2 * (a % b)) b with h | h | h
  · -- below the half
    rw [if_neg (by omega)]
    have := (hhalf (a % b : ℕ)).2 (by exact_mod_cast h)
    refine Nearest.of_lt ?_
    rw [add_sub_cancel_left, abs_of_nonneg hnonneg]
    exact this
  · -- at the half: the even neighbour
    have heq := (hhalf' (a % b : ℕ)).2 (by exact_mod_cast h)
    rw [heq]
    split_ifs with hodd
    · refine ⟨?_, fun _ => by omega⟩
      push_cast
      norm_num
    · refine ⟨by norm_num, fun _ => by omega⟩
  · -- above the half
    rw [if_pos (Or.inl h)]
    have hgt : (1 : ℚ) / 2 < (a % b : ℕ) / b := by
      rw [div_lt_div_iff₀ two_pos hbq]
      have : (b : ℚ) < 2 * (a % b : ℕ) := by exact_mod_cast h
      linarith
    refine Nearest.of_lt ?_
    push_cast
    rw [abs_lt]
    constructor <;> linarith

/-- the whole number nearest to a number that is not negative -/
def nearestNat (z : ℚ) : ℕ := roundDiv z.num.toNat z.den

theorem nearest_nearestNat {z : ℚ} (hz : 0 ≤ z) : Nearest z (nearestNat z) := by
  have h := nearest_roundDiv z.num.toNat z.den_pos
  have hnum : ((z.num.toNat : ℕ) : ℚ) = z.num := by
    exact_mod_cast congrArg (Int.cast : ℤ → ℚ) (Int.toNat_of_nonneg (Rat.num_nonneg.2 hz))
  rwa [hnum, Rat.num_div_den] at h

/-- `q` lies in the interval, the ends included if it is closed -/
def Interval.Has (iv : Interval) (q : ℚ) : Prop :=
  if iv.closed then (iv.low : ℚ) / iv.den ≤ q ∧ q ≤ (iv.high : ℚ) / iv.den
  else (iv.low : ℚ) / iv.den < q ∧ q < (iv.high : ℚ) / iv.den

/-! ## Places and bits -/

namespace Format

variable {f : Format} {q : ℚ}

theorem log_lt {n : ℤ} (hq : 0 < q) (h : q < 2 ^ n) : Int.log 2 q < n :=
  (Int.lt_zpow_iff_log_lt (b := 2) (by decide) hq).1 h

theorem le_log {n : ℤ} (hq : 0 < q) (h : 2 ^ n ≤ q) : n ≤ Int.log 2 q :=
  (Int.zpow_le_iff_le_log (b := 2) (by decide) hq).1 h

theorem log_eq {n : ℤ} (hq : 0 < q) (hle : 2 ^ n ≤ q) (hlt : q < 2 ^ (n + 1)) : Int.log 2 q = n := by
  have hlow := le_log hq hle
  have hhigh := log_lt hq hlt
  omega

/-- the exponent of the last place that a number is rounded to -/
def place (f : Format) (q : ℚ) : ℤ := max (Int.log 2 q - f.fractionBits) f.minExponent

/-- the bits of the number nearest to `q`, as if there were no greatest number -/
def bitsOf (f : Format) (q : ℚ) : ℕ :=
  (f.place q - f.minExponent).toNat * 2 ^ f.fractionBits + nearestNat (q / 2 ^ f.place q)

theorem minExponent_le_place (f : Format) (q : ℚ) : f.minExponent ≤ f.place q := le_max_right _ _

theorem lt_zpow_place (hq : 0 < q) : q < 2 ^ (f.place q + f.fractionBits + 1) := by
  refine (Int.lt_zpow_iff_log_lt (b := 2) (by decide) hq).2 ?_
  unfold place
  omega

theorem zpow_place_le (hq : 0 < q) (h : f.minExponent < f.place q) : 2 ^ (f.place q + f.fractionBits) ≤ q := by
  refine (Int.zpow_le_iff_le_log (b := 2) (by decide) hq).2 ?_
  unfold place at h ⊢
  omega

/-- the place of a number that has as many digits as the format, or fewer at the least place -/
theorem place_eq {e : ℤ} (hq : 0 < q) (hmin : f.minExponent ≤ e) (hlt : q < 2 ^ (e + f.fractionBits + 1))
    (hle : e = f.minExponent ∨ 2 ^ (e + f.fractionBits) ≤ q) : f.place q = e := by
  have hlog := log_lt hq hlt
  unfold place
  rcases hle with rfl | hle
  · omega
  · have := le_log hq hle
    omega

theorem div_place_lt (hq : 0 < q) : q / 2 ^ f.place q < 2 ^ (f.fractionBits + 1) := by
  rw [div_lt_iff₀ (by positivity), ← zpow_natCast, ← zpow_add₀ two_ne_zero]
  have hlt := lt_zpow_place (f := f) hq
  rwa [show ((f.fractionBits + 1 : ℕ) : ℤ) + f.place q = f.place q + f.fractionBits + 1 by push_cast; ring]

theorem le_div_place (hq : 0 < q) (h : f.minExponent < f.place q) : 2 ^ f.fractionBits ≤ q / 2 ^ f.place q := by
  rw [le_div_iff₀ (by positivity), ← zpow_natCast, ← zpow_add₀ two_ne_zero, add_comm]
  exact zpow_place_le hq h

theorem nearest_div_place (hq : 0 < q) : Nearest (q / 2 ^ f.place q) (nearestNat (q / 2 ^ f.place q)) :=
  nearest_nearestNat (by positivity)

theorem nearestNat_le (hq : 0 < q) : nearestNat (q / 2 ^ f.place q) ≤ 2 ^ (f.fractionBits + 1) :=
  (nearest_div_place hq).le_of_le (by exact_mod_cast (div_place_lt hq).le)

theorem le_nearestNat (hq : 0 < q) (h : f.minExponent < f.place q) :
    2 ^ f.fractionBits ≤ nearestNat (q / 2 ^ f.place q) :=
  (nearest_div_place hq).ge_of_ge (by exact_mod_cast le_div_place hq h)

theorem bitsOf_of_nearest {n : ℕ} (hq : 0 < q) (h : Nearest (q / 2 ^ f.place q) n) :
    f.bitsOf q = (f.place q - f.minExponent).toNat * 2 ^ f.fractionBits + n := by
  rw [bitsOf, (nearest_div_place hq).unique h]

/-! ## What bits stand for -/

/-- the digits of a number, the implicit one included -/
def significand (f : Format) (x : Fields) : ℕ := if x.biased = 0 then x.fraction else x.fraction + 2 ^ f.fractionBits

/-- the exponent of its last place -/
def exponent (f : Format) (x : Fields) : ℤ := f.minExponent + (x.biased - 1 : ℕ)

theorem minExponent_le_exponent (f : Format) (x : Fields) : f.minExponent ≤ f.exponent x := by
  unfold exponent
  omega

/-- the implicit digit is left out at the least place only -/
theorem le_significand_or (f : Format) (x : Fields) :
    2 ^ f.fractionBits ≤ f.significand x ∨ f.exponent x = f.minExponent := by
  unfold significand exponent
  split_ifs with h
  · exact Or.inr (by simp [h])
  · exact Or.inl (Nat.le_add_left _ _)

/-- the magnitude that bits stand for -/
def value (f : Format) (bits : ℕ) : ℚ := f.significand (f.fields bits) * 2 ^ f.exponent (f.fields bits)

theorem fields_of_lt {bits : ℕ} (h : bits < 2 ^ (f.fractionBits + f.exponentBits)) :
    f.fields bits = ⟨false, bits / 2 ^ f.fractionBits, bits % 2 ^ f.fractionBits⟩ := by
  have hbiased : bits / 2 ^ f.fractionBits < 2 ^ f.exponentBits := by
    rw [Nat.div_lt_iff_lt_mul (by positivity), ← pow_add, add_comm]
    exact h
  simp only [fields, Nat.shiftRight_eq_div_pow, Nat.one_shiftLeft, Nat.div_eq_of_lt h, Nat.mod_eq_of_lt hbiased]
  rfl

/-- the fields of a number put together -/
theorem fields_add {k n : ℕ} (hn : n < 2 ^ f.fractionBits)
    (h : k * 2 ^ f.fractionBits + n < 2 ^ (f.fractionBits + f.exponentBits)) :
    f.fields (k * 2 ^ f.fractionBits + n) = ⟨false, k, n⟩ := by
  rw [fields_of_lt h, mul_comm k, Nat.mul_add_div (by positivity), Nat.div_eq_of_lt hn, Nat.mul_add_mod,
    Nat.mod_eq_of_lt hn, Nat.add_zero]

theorem bits_eq {bits : ℕ} (h : bits < 2 ^ (f.fractionBits + f.exponentBits)) :
    (f.exponent (f.fields bits) - f.minExponent).toNat * 2 ^ f.fractionBits + f.significand (f.fields bits) = bits := by
  have hsplit := Nat.div_add_mod bits (2 ^ f.fractionBits)
  rw [fields_of_lt h]
  simp only [exponent, significand, add_sub_cancel_left, Int.toNat_natCast]
  split_ifs with h0
  · rw [h0, mul_zero, zero_add] at hsplit
    rw [h0, Nat.zero_sub, Nat.zero_mul, Nat.zero_add, hsplit]
  · obtain ⟨k, hk⟩ := Nat.exists_eq_succ_of_ne_zero h0
    rw [hk] at hsplit ⊢
    calc (k.succ - 1) * 2 ^ f.fractionBits + (bits % 2 ^ f.fractionBits + 2 ^ f.fractionBits)
        = 2 ^ f.fractionBits * k.succ + bits % 2 ^ f.fractionBits := by rw [Nat.succ_sub_one, Nat.succ_eq_add_one]; ring
      _ = bits := hsplit

theorem significand_lt {bits : ℕ} (h : bits < 2 ^ (f.fractionBits + f.exponentBits)) :
    f.significand (f.fields bits) < 2 ^ (f.fractionBits + 1) := by
  have hmod := Nat.mod_lt bits (show 0 < 2 ^ f.fractionBits by positivity)
  rw [fields_of_lt h, significand, pow_succ]
  split_ifs
  · exact hmod.trans_le (Nat.le_mul_of_pos_right _ two_pos)
  · simp only
    omega

/-- bits stand for a multiple of the place they name, also where the multiple is the next power of two -/
theorem value_add {k n : ℕ} (hk : k = 0 ∨ 2 ^ f.fractionBits ≤ n) (hn : n ≤ 2 ^ (f.fractionBits + 1))
    (h : k * 2 ^ f.fractionBits + n < 2 ^ (f.fractionBits + f.exponentBits)) :
    f.value (k * 2 ^ f.fractionBits + n) = n * 2 ^ (f.minExponent + k) := by
  have hp : 0 < 2 ^ f.fractionBits := by positivity
  rw [pow_succ] at hn
  rcases lt_or_ge n (2 ^ f.fractionBits) with hlt | hge
  · -- below the normal range
    obtain rfl : k = 0 := hk.resolve_right (by omega)
    rw [value, fields_add hlt h, significand, exponent, if_pos rfl]
    rfl
  · rcases lt_or_eq_of_le hn with hlt | heq
    · -- one digit more than the fraction
      obtain ⟨r, rfl⟩ := Nat.exists_eq_add_of_le hge
      have hsum : k * 2 ^ f.fractionBits + (2 ^ f.fractionBits + r) = (k + 1) * 2 ^ f.fractionBits + r := by ring
      rw [hsum] at h ⊢
      rw [value, fields_add (by omega) h, significand, exponent, if_neg (Nat.succ_ne_zero k)]
      push_cast [Nat.add_sub_cancel]
      ring
    · -- the next power of two
      have hsum : k * 2 ^ f.fractionBits + n = (k + 2) * 2 ^ f.fractionBits + 0 := by rw [heq]; ring
      rw [hsum] at h ⊢
      rw [value, fields_add hp h, significand, exponent, if_neg (by simp), heq]
      have hsub : k + 2 - 1 = k + 1 := rfl
      push_cast [hsub]
      rw [← add_assoc, zpow_add₀ two_ne_zero, zpow_one]
      ring

/-- what the bits nearest to a number stand for: a multiple of its place -/
theorem value_bitsOf (hq : 0 < q) (h : f.bitsOf q < 2 ^ (f.fractionBits + f.exponentBits)) :
    f.value (f.bitsOf q) = nearestNat (q / 2 ^ f.place q) * 2 ^ f.place q := by
  have hmin := f.minExponent_le_place q
  have hk : (f.place q - f.minExponent).toNat = 0 ∨ 2 ^ f.fractionBits ≤ nearestNat (q / 2 ^ f.place q) := by
    rcases hmin.eq_or_lt with heq | hlt
    · exact Or.inl (by omega)
    · exact Or.inr (le_nearestNat hq hlt)
  have hplace : f.minExponent + ((f.place q - f.minExponent).toNat : ℤ) = f.place q := by omega
  rw [bitsOf, value_add hk (nearestNat_le hq) h, hplace]

/-! ## Errors and bounds -/

/-- the difference is half a place at most -/
theorem abs_value_sub_le (hq : 0 < q) (h : f.bitsOf q < 2 ^ (f.fractionBits + f.exponentBits)) :
    |f.value (f.bitsOf q) - q| ≤ 2 ^ f.place q / 2 := by
  have hpow : (0 : ℚ) < 2 ^ f.place q := by positivity
  have hnear := (nearest_div_place (f := f) hq).near
  have hsplit : (nearestNat (q / 2 ^ f.place q) : ℚ) * 2 ^ f.place q - q =
      -((q / 2 ^ f.place q - nearestNat (q / 2 ^ f.place q)) * 2 ^ f.place q) := by
    field_simp
    ring
  rw [value_bitsOf hq h, hsplit, abs_neg, abs_mul, abs_of_pos hpow]
  calc |q / 2 ^ f.place q - nearestNat (q / 2 ^ f.place q)| * 2 ^ f.place q ≤ 1 / 2 * 2 ^ f.place q := by gcongr
    _ = 2 ^ f.place q / 2 := by ring

/-- in the normal range the difference is small beside the number -/
theorem abs_value_sub_le_mul (hq : 2 ^ (f.minExponent + f.fractionBits) ≤ q)
    (h : f.bitsOf q < 2 ^ (f.fractionBits + f.exponentBits)) :
    |f.value (f.bitsOf q) - q| ≤ q / 2 ^ (f.fractionBits + 1) := by
  have hpos : 0 < q := lt_of_lt_of_le (by positivity) hq
  have hplace : 2 ^ (f.place q + f.fractionBits) ≤ q := by
    rcases (f.minExponent_le_place q).eq_or_lt with heq | hlt
    · rwa [← heq]
    · exact zpow_place_le hpos hlt
  refine (abs_value_sub_le hpos h).trans ?_
  rw [le_div_iff₀ (by positivity), pow_succ]
  rw [zpow_add₀ two_ne_zero, zpow_natCast] at hplace
  linarith

/-- a number with no more digits than the format has is not changed -/
theorem value_bitsOf_of_eq {m : ℕ} {e : ℤ} (hm : 0 < m) (hlt : m < 2 ^ (f.fractionBits + 1)) (he : f.minExponent ≤ e)
    (hq : q = m * 2 ^ e) (h : f.bitsOf q < 2 ^ (f.fractionBits + f.exponentBits)) : f.value (f.bitsOf q) = q := by
  have hpos : 0 < q := by
    have : (0 : ℚ) < m := by exact_mod_cast hm
    rw [hq]
    positivity
  have hplace : f.place q ≤ e := by
    have hlog : Int.log 2 q < ((f.fractionBits + 1 : ℕ) : ℤ) + e := by
      have hmq : (m : ℚ) < 2 ^ (f.fractionBits + 1) := by exact_mod_cast hlt
      refine log_lt hpos ?_
      rw [hq, zpow_add₀ two_ne_zero, zpow_natCast]
      gcongr
    unfold place
    omega
  obtain ⟨d, hd⟩ := Int.eq_ofNat_of_zero_le (sub_nonneg.2 hplace)
  have hwhole : q / 2 ^ f.place q = (m * 2 ^ d : ℕ) := by
    have hunits : q / 2 ^ f.place q = m * 2 ^ (e - f.place q) := by
      rw [zpow_sub₀ two_ne_zero, ← mul_div_assoc, ← hq]
    rw [hunits, hd]
    push_cast
    rfl
  have hnear : nearestNat (q / 2 ^ f.place q) = m * 2 ^ d :=
    (nearest_div_place hpos).unique (by rw [hwhole]; exact Nearest.natCast _)
  rw [value_bitsOf hpos h, hnear, ← hwhole]
  field_simp

/-- nothing up to the greatest number of a range leaves it -/
theorem bitsOf_lt {k : ℕ} (hq : 0 < q) (h : q ≤ (2 ^ (f.fractionBits + 1) - 1) * 2 ^ (f.minExponent + k)) :
    f.bitsOf q < (k + 2) * 2 ^ f.fractionBits := by
  have hp : 0 < 2 ^ f.fractionBits := by positivity
  have hpow : (0 : ℚ) < 2 ^ (f.minExponent + k : ℤ) := by positivity
  have hplace : f.place q ≤ f.minExponent + k := by
    have hlog : Int.log 2 q < ((f.fractionBits + 1 : ℕ) : ℤ) + (f.minExponent + k) := by
      refine log_lt hq (h.trans_lt ?_)
      rw [zpow_add₀ two_ne_zero (f.fractionBits + 1 : ℕ), zpow_natCast]
      gcongr
      linarith
    unfold place
    omega
  have hmin := f.minExponent_le_place q
  rcases hplace.lt_or_eq with hlt | heq
  · -- at a lower place even the next power of two is in range
    have hn := nearestNat_le (f := f) hq
    have hk : (f.place q - f.minExponent).toNat + 1 ≤ k := by omega
    rw [pow_succ] at hn
    rw [bitsOf]
    nlinarith
  · have hn : nearestNat (q / 2 ^ f.place q) ≤ 2 ^ (f.fractionBits + 1) - 1 := by
      refine (nearest_div_place hq).le_of_le ?_
      rw [heq, div_le_iff₀ hpow, Nat.cast_sub (Nat.one_le_pow _ _ two_pos)]
      exact_mod_cast h
    have hk : (f.place q - f.minExponent).toNat = k := by omega
    rw [pow_succ] at hn
    rw [bitsOf, hk]
    have : (k + 2) * 2 ^ f.fractionBits = k * 2 ^ f.fractionBits + 2 ^ f.fractionBits * 2 := by ring
    omega

/-! ## Intervals -/

theorem shiftLeft_div_shiftLeft (a : ℕ) (k : ℤ) :
    ((a * 1 <<< k.toNat : ℕ) : ℚ) / ((1 <<< (-k).toNat : ℕ) : ℚ) = a * 2 ^ k := by
  rw [Nat.one_shiftLeft, Nat.one_shiftLeft]
  rcases le_total 0 k with h | h
  · obtain ⟨n, rfl⟩ := Int.eq_ofNat_of_zero_le h
    simp
  · obtain ⟨n, hn⟩ := Int.eq_ofNat_of_zero_le (Int.neg_nonneg_of_nonpos h)
    obtain rfl : k = -n := by omega
    simp [zpow_neg, div_eq_mul_inv]

/-- the ends of an interval are midpoints around `m * 2 ^ e`. The spacing below a power of two is half as wide. -/
structure Ends (iv : Interval) (x : Fields) (m : ℕ) (e : ℤ) : Prop where
  den : 0 < iv.den
  mid : (iv.mid : ℚ) / iv.den = m * 2 ^ e
  high : (iv.high : ℚ) / iv.den = (m + 1 / 2) * 2 ^ e
  le_low : (m - 1 / 2) * 2 ^ e ≤ (iv.low : ℚ) / iv.den
  low_le : (iv.low : ℚ) / iv.den ≤ (m - 1 / 4) * 2 ^ e
  low_power : x.fraction = 0 → 1 < x.biased → (iv.low : ℚ) / iv.den = (m - 1 / 4) * 2 ^ e
  closed : iv.closed = true ↔ m % 2 = 0

/-- the interval in terms of significand and exponent -/
theorem interval_eq (f : Format) (x : Fields) :
    f.interval x =
      ⟨(if x.fraction = 0 ∧ 1 < x.biased then 4 * f.significand x - 1 else 4 * f.significand x - 2) *
          1 <<< (f.exponent x - 2).toNat,
        4 * f.significand x * 1 <<< (f.exponent x - 2).toNat,
        (4 * f.significand x + 2) * 1 <<< (f.exponent x - 2).toNat, 1 <<< (2 - f.exponent x).toNat, f.significand x % 2 = 0⟩ := by
  have he : (if x.biased = 0 then f.minExponent else f.minExponent + (x.biased - 1 : ℕ)) = f.exponent x := by
    unfold exponent
    split_ifs with h0
    · simp [h0]
    · rfl
  have hm : (if x.biased = 0 then x.fraction else x.fraction + 1 <<< f.fractionBits) = f.significand x := by
    rw [Nat.one_shiftLeft]
    rfl
  rw [interval]
  simp only [he, hm]

theorem ends_interval {x : Fields} (hx : 0 < f.significand x) :
    Ends (f.interval x) x (f.significand x) (f.exponent x) := by
  have hquarter : (2 : ℚ) ^ (f.exponent x - 2) = 2 ^ f.exponent x / 4 := by
    rw [zpow_sub₀ two_ne_zero]
    norm_num
  have hend : ∀ a : ℕ, ((a * 1 <<< (f.exponent x - 2).toNat : ℕ) : ℚ) / ((1 <<< (2 - f.exponent x).toNat : ℕ) : ℚ) =
      a / 4 * 2 ^ f.exponent x := by
    intro a
    rw [show (2 - f.exponent x) = -(f.exponent x - 2) by ring, shiftLeft_div_shiftLeft, hquarter]
    ring
  have hpow : (0 : ℚ) < 2 ^ f.exponent x := by positivity
  rw [interval_eq]
  generalize f.significand x = m at hx ⊢
  constructor <;> simp only [hend]
  · rw [Nat.one_shiftLeft]
    positivity
  · push_cast
    ring
  · push_cast
    ring
  · gcongr
    split_ifs <;> rw [Nat.cast_sub (by omega)] <;> push_cast <;> linarith
  · gcongr
    split_ifs <;> rw [Nat.cast_sub (by omega)] <;> push_cast <;> linarith
  · intro hfraction hbiased
    rw [if_pos ⟨hfraction, hbiased⟩, Nat.cast_sub (by omega)]
    push_cast
    ring
  · exact decide_eq_true_iff

/-- what lies in the interval of a number with significand `m`, in units of its last place -/
structure Around (x : Fields) (m : ℕ) (z : ℚ) : Prop where
  nearest : Nearest z m
  pos : 0 < z
  le : z ≤ m + 1 / 2
  ge : x.fraction = 0 → 1 < x.biased → (m : ℚ) - 1 / 4 ≤ z

theorem Ends.le_of_has {iv : Interval} {x : Fields} {m : ℕ} {e : ℤ} (hends : Ends iv x m e) (h : iv.Has q) :
    (iv.low : ℚ) / iv.den ≤ q ∧ q ≤ (m + 1 / 2) * 2 ^ e := by
  rw [← hends.high]
  unfold Interval.Has at h
  split_ifs at h
  · exact h
  · exact ⟨h.1.le, h.2.le⟩

theorem Ends.around {iv : Interval} {x : Fields} {m : ℕ} {e : ℤ} (hends : Ends iv x m e) (hm : 0 < m) (h : iv.Has q) :
    Around x m (q / 2 ^ e) := by
  have hpow : (0 : ℚ) < 2 ^ e := by positivity
  have hm1 : (1 : ℚ) ≤ m := by exact_mod_cast hm
  obtain ⟨hlow, hhigh⟩ := hends.le_of_has h
  have hge : (m : ℚ) - 1 / 2 ≤ q / 2 ^ e := (le_div_iff₀ hpow).2 (hends.le_low.trans hlow)
  have hle : q / 2 ^ e ≤ m + 1 / 2 := (div_le_iff₀ hpow).2 hhigh
  refine ⟨⟨?_, fun hmid => ?_⟩, by linarith, hle, fun hfraction hbiased => ?_⟩
  · rw [abs_le]
    constructor <;> linarith
  · -- open intervals leave out the midpoints
    by_contra hodd
    have hopen : ¬iv.closed = true := fun hc => hodd (hends.closed.1 hc)
    rw [Interval.Has, if_neg hopen, hends.high] at h
    have hgt : (m : ℚ) - 1 / 2 < q / 2 ^ e := (lt_div_iff₀ hpow).2 (hends.le_low.trans_lt h.1)
    have hlt : q / 2 ^ e < m + 1 / 2 := (div_lt_iff₀ hpow).2 h.2
    have : |q / 2 ^ e - m| < 1 / 2 := by
      rw [abs_lt]
      constructor <;> linarith
    linarith
  · rw [le_div_iff₀ hpow, ← hends.low_power hfraction hbiased]
    exact hlow

/-- Just below a power of two the place is the one before, and the power is the greatest multiple of it that is nearest:
one more than all digits of the format. -/
theorem bitsOf_below_power {e : ℤ} (hmin : f.minExponent < e) (hlow : 2 ^ f.fractionBits - 1 / 4 ≤ q / 2 ^ e)
    (hhigh : q / 2 ^ e < 2 ^ f.fractionBits) :
    f.bitsOf q = (e - f.minExponent).toNat * 2 ^ f.fractionBits + 2 ^ f.fractionBits := by
  have hpow : (0 : ℚ) < 2 ^ e := by positivity
  have hone : (1 : ℚ) ≤ 2 ^ f.fractionBits := one_le_pow₀ one_le_two
  have hq : 0 < q := (div_pos_iff_of_pos_right hpow).1 (by linarith)
  have hhalf : (2 : ℚ) ^ (e - 1) = 2 ^ e / 2 := by rw [zpow_sub₀ two_ne_zero, zpow_one]
  have htwice : q / 2 ^ (e - 1) = 2 * (q / 2 ^ e) := by
    rw [hhalf]
    field_simp
  have hplace : f.place q = e - 1 := by
    refine place_eq hq (by omega) ?_ (Or.inr ?_)
    · rw [show e - 1 + f.fractionBits + 1 = e + f.fractionBits by ring, zpow_add₀ two_ne_zero, zpow_natCast,
        ← div_lt_iff₀' hpow]
      exact hhigh
    · rw [zpow_add₀ two_ne_zero, zpow_natCast, ← le_div_iff₀' (by positivity), htwice]
      linarith
  have hpower : Nearest (q / 2 ^ f.place q) (2 ^ (f.fractionBits + 1)) := by
    rw [hplace, htwice, pow_succ]
    refine ⟨?_, fun _ => Nat.mul_mod_left _ _⟩
    push_cast
    rw [abs_le]
    constructor <;> linarith
  obtain ⟨k, hk⟩ := Int.eq_ofNat_of_zero_le (show 0 ≤ e - 1 - f.minExponent by omega)
  rw [bitsOf_of_nearest hq hpower, hplace, hk, show (e - f.minExponent).toNat = k + 1 by omega, Int.toNat_natCast]
  ring

theorem significand_pos {bits : ℕ} (hpos : 0 < bits) (hbits : bits < 2 ^ (f.fractionBits + f.exponentBits)) :
    0 < f.significand (f.fields bits) := by
  rw [fields_of_lt hbits, significand]
  split_ifs with hzero
  · have hsplit := Nat.div_add_mod bits (2 ^ f.fractionBits)
    simp only at hzero ⊢
    rw [hzero] at hsplit
    omega
  · positivity

/-- above the least exponent the implicit digit is there -/
theorem normal_of_exponent_ne {x : Fields} (h : f.exponent x ≠ f.minExponent) :
    1 < x.biased ∧ f.significand x = x.fraction + 2 ^ f.fractionBits := by
  have hbiased : 1 < x.biased := by
    unfold exponent at h
    omega
  rw [significand, if_neg (by omega)]
  exact ⟨hbiased, rfl⟩

/-- **What lies in the interval of a number is rounded to it** -/
theorem bitsOf_of_has {bits : ℕ} (hpos : 0 < bits) (hbits : bits < 2 ^ (f.fractionBits + f.exponentBits))
    (h : (f.interval (f.fields bits)).Has q) : f.bitsOf q = bits := by
  have hsplit := bits_eq hbits
  have hlt := significand_lt hbits
  have hmin := f.minExponent_le_exponent (f.fields bits)
  have hz := (ends_interval (significand_pos hpos hbits)).around (significand_pos hpos hbits) h
  have hnormal := normal_of_exponent_ne (f := f) (x := f.fields bits)
  generalize f.fields bits = x at *
  generalize f.significand x = m at *
  generalize f.exponent x = e at *
  have hpow : (0 : ℚ) < 2 ^ e := by positivity
  have hq : 0 < q := (div_pos_iff_of_pos_right hpow).1 hz.pos
  by_cases hle : e = f.minExponent ∨ 2 ^ (e + f.fractionBits) ≤ q
  · have hm : (m : ℚ) + 1 ≤ 2 ^ (f.fractionBits + 1) := by exact_mod_cast hlt
    have hupper : q < 2 ^ (e + f.fractionBits + 1) := by
      rw [add_assoc, zpow_add₀ two_ne_zero, ← div_lt_iff₀' hpow]
      have : (2 : ℚ) ^ ((f.fractionBits : ℤ) + 1) = 2 ^ (f.fractionBits + 1) := by exact_mod_cast rfl
      linarith [hz.le]
    have hplace := place_eq hq hmin hupper hle
    rw [bitsOf_of_nearest (n := m) hq (by rw [hplace]; exact hz.nearest), hplace]
    exact hsplit
  · -- below the power of two that its implicit digit stands for: the number is that power
    obtain ⟨he, hbelow⟩ := not_or.1 hle
    rw [not_le, zpow_add₀ two_ne_zero, zpow_natCast, ← div_lt_iff₀' hpow] at hbelow
    obtain ⟨hbiased, hm⟩ := hnormal he
    have hmle : m ≤ 2 ^ f.fractionBits := by
      have : (m : ℚ) < (2 ^ f.fractionBits + 1 : ℕ) := by
        push_cast
        linarith [hz.nearest.le]
      exact Nat.le_of_lt_succ (by exact_mod_cast this)
    have hnear := hz.ge (by omega) hbiased
    obtain rfl : m = 2 ^ f.fractionBits := by omega
    push_cast at hnear
    rw [bitsOf_below_power (lt_of_le_of_ne hmin (Ne.symm he)) hnear hbelow]
    exact hsplit

/-! ## Quotients -/

/-- comparing a quotient with a power of two on whole numbers -/
theorem shiftLeft_lt_shiftLeft_iff {a b : ℕ} (hb : 0 < b) (e : ℤ) :
    a <<< (-e).toNat < b <<< e.toNat ↔ (a : ℚ) / b < 2 ^ e := by
  have hbq : (0 : ℚ) < b := by exact_mod_cast hb
  have hpow := shiftLeft_div_shiftLeft 1 e
  rw [Nat.cast_one, one_mul, one_mul, Nat.one_shiftLeft, Nat.one_shiftLeft] at hpow
  rw [← hpow, div_lt_div_iff₀ hbq (by positivity), Nat.shiftLeft_eq, Nat.shiftLeft_eq, mul_comm b]
  exact_mod_cast Iff.rfl

/-- a quotient and its logarithm, which the logarithms of its parts miss by less than one -/
theorem quotient_bounds {a b : ℕ} (ha : 0 < a) (hb : 0 < b) :
    2 ^ ((a.log2 : ℤ) - b.log2 - 1) ≤ (a : ℚ) / b ∧ (a : ℚ) / b < 2 ^ ((a.log2 : ℤ) - b.log2 + 1) := by
  have hbq : (0 : ℚ) < b := by exact_mod_cast hb
  have hpow : ∀ {n : ℕ}, 0 < n → (2 : ℚ) ^ (n.log2 : ℤ) ≤ n ∧ (n : ℚ) < 2 ^ ((n.log2 : ℤ) + 1) := by
    intro n hn
    refine ⟨?_, ?_⟩
    · exact_mod_cast Nat.log2_self_le hn.ne'
    · exact_mod_cast Nat.lt_log2_self
  constructor
  · rw [le_div_iff₀ hbq]
    calc (2 : ℚ) ^ ((a.log2 : ℤ) - b.log2 - 1) * b
        ≤ 2 ^ ((a.log2 : ℤ) - b.log2 - 1) * 2 ^ ((b.log2 : ℤ) + 1) := by gcongr; exact (hpow hb).2.le
      _ = 2 ^ (a.log2 : ℤ) := by
          rw [← zpow_add₀ two_ne_zero]
          congr 1
          ring
      _ ≤ a := (hpow ha).1
  · rw [div_lt_iff₀ hbq]
    calc (a : ℚ) < 2 ^ ((a.log2 : ℤ) - b.log2 + 1) * 2 ^ (b.log2 : ℤ) := by
          rw [← zpow_add₀ two_ne_zero]
          convert (hpow ha).2 using 2
          ring
      _ ≤ 2 ^ ((a.log2 : ℤ) - b.log2 + 1) * b := by gcongr; exact (hpow hb).1

theorem quotientLog2_eq {a b : ℕ} (ha : 0 < a) (hb : 0 < b) : quotientLog2 a b = Int.log 2 ((a : ℚ) / b) := by
  have hbq : (0 : ℚ) < b := by exact_mod_cast hb
  have hq : (0 : ℚ) < a / b := by positivity
  obtain ⟨hbelow, habove⟩ := quotient_bounds ha hb
  unfold quotientLog2
  simp only [shiftLeft_lt_shiftLeft_iff hb]
  split_ifs with h
  · exact (log_eq hq hbelow (by rwa [sub_add_cancel])).symm
  · exact (log_eq hq (not_lt.1 h) habove).symm

/-- **The nearest number to a quotient** is the one with the bits nearest to it -/
theorem nearest?_eq {a b : ℕ} (ha : 0 < a) (hb : 0 < b) :
    f.nearest? a b = if f.bitsOf ((a : ℚ) / b) < f.special <<< f.fractionBits then some (f.bitsOf ((a : ℚ) / b))
      else none := by
  have hplace : max (quotientLog2 a b - f.fractionBits) f.minExponent = f.place ((a : ℚ) / b) := by
    rw [quotientLog2_eq ha hb]
    rfl
  have hq : (0 : ℚ) < (a : ℚ) / b := by
    have : (0 : ℚ) < b := by exact_mod_cast hb
    positivity
  unfold nearest?
  rw [if_neg ha.ne', hplace]
  simp only
  generalize he : f.place ((a : ℚ) / b) = e
  have hnear : Nearest ((a : ℚ) / b / 2 ^ f.place ((a : ℚ) / b)) (roundDiv (a <<< (-e).toNat) (b <<< e.toNat)) := by
    have hpow := shiftLeft_div_shiftLeft 1 (-e)
    rw [Nat.cast_one, one_mul, one_mul, Nat.one_shiftLeft, Nat.one_shiftLeft, neg_neg] at hpow
    have hround := nearest_roundDiv (a <<< (-e).toNat) (b := b <<< e.toNat) (by rw [Nat.shiftLeft_eq]; positivity)
    rw [Nat.shiftLeft_eq, Nat.shiftLeft_eq] at hround
    rw [he, Nat.shiftLeft_eq, Nat.shiftLeft_eq]
    convert hround using 1
    rw [Nat.cast_mul, Nat.cast_mul, mul_div_mul_comm, hpow, zpow_neg, div_eq_mul_inv]
  rw [bitsOf_of_nearest hq hnear, he, Nat.shiftLeft_eq, Nat.shiftLeft_eq]

end Format

end OpcPubSub.Number
