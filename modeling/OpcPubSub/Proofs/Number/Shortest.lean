/-
The search for the shortest digits of a number finds some, and what they stand for lies in the interval of the number.

A grid whose spacing is at most a quarter of the number's last place has a point in the interval: the one just below
the number. The search starts above such a grid and goes far enough down to reach it. Main result:
- `shortest_digits`: what the digits stand for, how many there can be, and how large their power of ten.
-/
import OpcPubSub.Proofs.Number.Rounding

namespace OpcPubSub.Number

/-! ## Grids -/

theorem tenPow_eq (t : ℤ) : (10 : ℚ) ^ t = (Nat.pow 10 t.toNat : ℕ) / (Nat.pow 10 (-t).toNat : ℕ) := by
  rcases le_total 0 t with h | h
  · obtain ⟨n, rfl⟩ := Int.eq_ofNat_of_zero_le h
    simp
  · obtain ⟨n, hn⟩ := Int.eq_ofNat_of_zero_le (Int.neg_nonneg_of_nonpos h)
    obtain rfl : t = -n := by omega
    simp [zpow_neg]

namespace Interval

variable {iv : Interval} {t : ℤ} {c : ℕ}

/-- comparing with a grid point on whole numbers -/
theorem scaled_le_iff (hden : 0 < iv.den) (a : ℕ) :
    (a * Nat.pow 10 (-t).toNat ≤ c * (iv.den * Nat.pow 10 t.toNat) ↔ (a : ℚ) / iv.den ≤ c * 10 ^ t) ∧
      (c * (iv.den * Nat.pow 10 t.toNat) ≤ a * Nat.pow 10 (-t).toNat ↔ (c : ℚ) * 10 ^ t ≤ a / iv.den) := by
  have hdenq : (0 : ℚ) < iv.den := by exact_mod_cast hden
  have hpow : (0 : ℚ) < (Nat.pow 10 (-t).toNat : ℕ) := by exact_mod_cast Nat.pow_pos (show 0 < 10 by decide)
  have hscale : c * (iv.den * Nat.pow 10 t.toNat) = c * Nat.pow 10 t.toNat * iv.den := by ring
  rw [tenPow_eq, ← mul_div_assoc, div_le_div_iff₀ hdenq hpow, div_le_div_iff₀ hpow hdenq, hscale]
  constructor <;> exact_mod_cast Iff.rfl

theorem holds_iff (hden : 0 < iv.den) : iv.holds t c = true ↔ iv.Has (c * 10 ^ t) := by
  have hlow := scaled_le_iff (t := t) (c := c) hden iv.low
  have hhigh := scaled_le_iff (t := t) (c := c) hden iv.high
  unfold holds Has
  simp only
  split_ifs
  · rw [Bool.and_eq_true, decide_eq_true_eq, decide_eq_true_eq, hlow.1, hhigh.2]
  · rw [Bool.and_eq_true, decide_eq_true_eq, decide_eq_true_eq, ← not_le, ← not_le, hlow.2, hhigh.1, not_le, not_le]

theorem holds_of_point? (h : iv.point? t = some c) : iv.holds t c = true := by
  unfold point? at h
  dsimp only at h
  split at h
  · split_ifs at h <;> cases h <;> assumption
  · cases h
    assumption
  · cases h
    assumption
  · cases h

/-- a grid that is fine enough has a point just below the middle -/
theorem isSome_point? (hden : 0 < iv.den) (hgap : (10 : ℚ) ^ t ≤ iv.mid / iv.den - iv.low / iv.den)
    (hhigh : (iv.mid : ℚ) / iv.den < iv.high / iv.den) : (iv.point? t).isSome = true := by
  have hdenq : (0 : ℚ) < iv.den := by exact_mod_cast hden
  have hunit : 0 < iv.den * Nat.pow 10 t.toNat := Nat.mul_pos hden (Nat.pow_pos (by decide))
  generalize hc : iv.mid * Nat.pow 10 (-t).toNat / (iv.den * Nat.pow 10 t.toNat) = c
  have hbelow : (c : ℚ) * 10 ^ t ≤ iv.mid / iv.den := by
    refine (scaled_le_iff (t := t) (c := c) hden iv.mid).2.1 ?_
    rw [← hc]
    exact Nat.div_mul_le_self _ _
  have habove : (iv.mid : ℚ) / iv.den < ((c + 1 : ℕ) : ℚ) * 10 ^ t := by
    rw [← not_le, ← (scaled_le_iff (t := t) (c := c + 1) hden iv.mid).2, not_le, ← hc]
    exact (Nat.lt_mul_div_succ _ hunit).trans_eq (Nat.mul_comm _ _)
  have hhas : iv.Has (c * 10 ^ t) := by
    push_cast at habove
    unfold Has
    split_ifs
    · constructor <;> linarith
    · constructor <;> linarith
  have hholds := (holds_iff hden).2 hhas
  unfold point?
  simp only [hc, hholds]
  split
  · split_ifs <;> rfl
  · rfl
  · next h _ => cases h
  · next h _ => cases h

/-- the search stops at a grid with a point, if there is one among those it tries -/
theorem search_eq_some {n : ℕ} {u : ℤ} (hpoint : (iv.point? u).isSome = true) (hle : u ≤ t) (hlt : t < u + n) :
    ∃ c v, iv.search n t = some (c, v) ∧ u ≤ v ∧ iv.point? v = some c := by
  induction n generalizing t with
  | zero => omega
  | succ n ih =>
    rw [search]
    cases ht : iv.point? t with
    | some c => exact ⟨c, t, rfl, hle, ht⟩
    | none =>
      have hne : u ≠ t := by
        rintro rfl
        rw [ht] at hpoint
        cases hpoint
      exact ih (by omega) (by omega)

end Interval

/-! ## Logarithms -/

/-- a power of ten just below a power of two. The two fractions are convergents of the logarithm, one on each side. -/
def tenBelow (k : ℤ) : ℤ := min (k * 59 / 196) (k * 146 / 485)

theorem ten_le_two : (10 : ℚ) ^ 59 ≤ 2 ^ 196 := by norm_num

theorem two_le_ten : (2 : ℚ) ^ 485 ≤ 10 ^ 146 := by
  have : (2 : ℕ) ^ 485 ≤ 10 ^ 146 := by decide +kernel
  exact_mod_cast this

theorem zpow_le_zpow_left_of_nonpos {a b : ℚ} {k : ℤ} (hk : k ≤ 0) (ha : 0 < a) (h : a ≤ b) : b ^ k ≤ a ^ k := by
  obtain ⟨i, hi⟩ := Int.eq_ofNat_of_zero_le (Int.neg_nonneg_of_nonpos hk)
  obtain rfl : k = -i := by omega
  rw [zpow_neg, zpow_neg, zpow_natCast, zpow_natCast]
  exact inv_anti₀ (by positivity) (pow_le_pow_left₀ ha.le h i)

/-- powers compared by powers of them -/
theorem tenPow_le {d n : ℕ} {t k : ℤ} (hd : d ≠ 0) (hle : d * t ≤ n * k) (h : ((10 : ℚ) ^ n) ^ k ≤ (2 ^ d) ^ k) :
    (10 : ℚ) ^ t ≤ 2 ^ k := by
  refine le_of_pow_le_pow_left₀ hd (by positivity) ?_
  calc ((10 : ℚ) ^ t) ^ d = 10 ^ ((d : ℤ) * t) := by rw [← zpow_natCast, ← zpow_mul, mul_comm]
    _ ≤ 10 ^ ((n : ℤ) * k) := zpow_le_zpow_right₀ (by norm_num) hle
    _ = (10 ^ n) ^ k := by rw [zpow_mul, zpow_natCast]
    _ ≤ (2 ^ d) ^ k := h
    _ = (2 ^ k) ^ d := by rw [← zpow_natCast, ← zpow_mul, mul_comm, zpow_mul, zpow_natCast]

theorem lt_tenPow {d n : ℕ} {t k : ℤ} (hlt : n * k < d * t) (h : ((2 : ℚ) ^ d) ^ k ≤ (10 ^ n) ^ k) :
    (2 : ℚ) ^ k < 10 ^ t := by
  refine lt_of_pow_lt_pow_left₀ d (by positivity) ?_
  calc ((2 : ℚ) ^ k) ^ d = (2 ^ d) ^ k := by rw [← zpow_natCast, ← zpow_mul, mul_comm, zpow_mul, zpow_natCast]
    _ ≤ (10 ^ n) ^ k := h
    _ = 10 ^ ((n : ℤ) * k) := by rw [zpow_mul, zpow_natCast]
    _ < 10 ^ ((d : ℤ) * t) := zpow_lt_zpow_right₀ (by norm_num) hlt
    _ = (10 ^ t) ^ d := by rw [← zpow_natCast, ← zpow_mul, mul_comm]

/-- for the exponents that doubles have, the next power of ten but one is above -/
theorem tenBelow_bounds {k : ℤ} (hlow : -1076 ≤ k) (hhigh : k < 970) :
    (10 : ℚ) ^ tenBelow k ≤ 2 ^ k ∧ (2 : ℚ) ^ k < 10 ^ (tenBelow k + 2) := by
  unfold tenBelow
  rcases le_total 0 k with hk | hk
  · obtain ⟨i, rfl⟩ := Int.eq_ofNat_of_zero_le hk
    refine ⟨tenPow_le (d := 196) (n := 59) (by decide) (by omega) ?_, lt_tenPow (d := 485) (n := 146) (by omega) ?_⟩
    · exact zpow_le_zpow_left₀ hk (by positivity) ten_le_two
    · exact zpow_le_zpow_left₀ hk (by positivity) two_le_ten
  · refine ⟨tenPow_le (d := 485) (n := 146) (by decide) (by omega) ?_, lt_tenPow (d := 196) (n := 59) (by omega) ?_⟩
    · exact zpow_le_zpow_left_of_nonpos hk (by positivity) two_le_ten
    · exact zpow_le_zpow_left_of_nonpos hk (by positivity) ten_le_two

/-! ## Shortest digits -/

/-- digits of a number: they stand for a decimal in its interval, are not too many for 64 bits, and have an exponent
that a double's power of ten has -/
structure Digits (f : Format) (x : Fields) (c : ℕ) (t : ℤ) : Prop where
  has : (f.interval x).Has (c * 10 ^ t)
  pos : 0 < c
  lt : c < UInt64.size
  ge : -325 ≤ t
  le : t ≤ 308

theorem log2_mul_shiftLeft {n : ℕ} (hn : 0 < n) (k : ℕ) : (n * 1 <<< k).log2 = n.log2 + k := by
  rw [Nat.one_shiftLeft, Nat.log2_eq_iff (by positivity)]
  obtain ⟨hle, hlt⟩ := (Nat.log2_eq_iff hn.ne').1 rfl
  constructor
  · rw [pow_add]
    exact Nat.mul_le_mul_right _ hle
  · rw [add_right_comm, pow_add]
    exact Nat.mul_lt_mul_of_pos_right hlt (by positivity)

/-- the start of the search in terms of the exponent -/
theorem top_interval {f : Format} {x : Fields} (hx : 0 < f.significand x) :
    (f.interval x).top = ((4 * f.significand x + 2).log2 + (f.exponent x - 2) + 1) * 30103 / 100000 + 2 := by
  rw [Interval.top, Format.interval_eq]
  dsimp only
  rw [log2_mul_shiftLeft (by omega), Nat.one_shiftLeft, Nat.log2_two_pow]
  congr 3
  push_cast
  omega

/-- the search ends at a grid no finer than the one that is sure to have a point -/
theorem shortest_has {f : Format} {x : Fields} (hx : 0 < f.significand x) (hlt : f.significand x < 2 ^ 53)
    (hlow : -1074 ≤ f.exponent x) (hhigh : f.exponent x < 972) :
    (f.interval x).Has ((f.shortest x).1 * 10 ^ (f.shortest x).2) ∧ tenBelow (f.exponent x - 2) ≤ (f.shortest x).2 := by
  have hends := Format.ends_interval hx
  have htop := top_interval hx
  have hlog : (4 * f.significand x + 2).log2 < 55 := (Nat.log2_lt (by omega)).2 (by omega)
  obtain ⟨hbelow, -⟩ := tenBelow_bounds (k := f.exponent x - 2) (by omega) (by omega)
  have hquarter : (2 : ℚ) ^ (f.exponent x - 2) = 2 ^ f.exponent x / 4 := by
    rw [zpow_sub₀ two_ne_zero]
    norm_num
  have hpoint : ((f.interval x).point? (tenBelow (f.exponent x - 2))).isSome = true := by
    refine Interval.isSome_point? hends.den ?_ ?_
    · have := hends.low_le
      rw [hends.mid]
      linarith
    · rw [hends.mid, hends.high]
      gcongr
      linarith
  obtain ⟨c, v, hsearch, hv, hc⟩ := Interval.search_eq_some (t := (f.interval x).top) (n := 24) hpoint
    (by unfold tenBelow; omega) (by unfold tenBelow; omega)
  have hshortest : f.shortest x = (c, v) := by
    rw [Format.shortest, hsearch]
    rfl
  rw [hshortest]
  exact ⟨(Interval.holds_iff hends.den).1 (Interval.holds_of_point? hc), hv⟩

section Bounds

variable {c m : ℕ} {t e : ℤ}

/-- a grid that is not much finer than the last place leaves room for 64 bits of digits -/
theorem digits_lt_size (hm : m < 2 ^ 53) (hle : (c : ℚ) * 10 ^ t ≤ (m + 1 / 2) * 2 ^ e)
    (hgrid : (2 : ℚ) ^ e < 400 * 10 ^ t) : c < UInt64.size := by
  have hmq : (m : ℚ) + 1 ≤ 2 ^ 53 := by exact_mod_cast hm
  have hpow : (0 : ℚ) < 10 ^ t := by positivity
  have hc : (c : ℚ) * 10 ^ t < 2 ^ 53 * 400 * 10 ^ t := by
    calc (c : ℚ) * 10 ^ t ≤ (m + 1 / 2) * 2 ^ e := hle
      _ ≤ 2 ^ 53 * 2 ^ e := by gcongr; linarith
      _ < 2 ^ 53 * (400 * 10 ^ t) := by gcongr
      _ = 2 ^ 53 * 400 * 10 ^ t := by ring
  have hlt : (c : ℚ) < (2 ^ 53 * 400 : ℕ) := by exact_mod_cast lt_of_mul_lt_mul_right hc hpow.le
  have : c < 2 ^ 53 * 400 := by exact_mod_cast hlt
  rw [UInt64.size]
  omega

/-- no double is beyond `10 ^ 309` -/
theorem power_le (hc : 0 < c) (hm : m < 2 ^ 53) (hle : (c : ℚ) * 10 ^ t ≤ (m + 1 / 2) * 2 ^ e) (he : e < 972) :
    t ≤ 308 := by
  have hmq : (m : ℚ) + 1 ≤ 2 ^ 53 := by exact_mod_cast hm
  have hone : (1 : ℚ) ≤ c := by exact_mod_cast hc
  have hbig : (10 : ℚ) ^ t < 10 ^ (309 : ℤ) := by
    calc (10 : ℚ) ^ t ≤ c * 10 ^ t := le_mul_of_one_le_left (by positivity) hone
      _ ≤ (m + 1 / 2) * 2 ^ e := hle
      _ ≤ 2 ^ 53 * 2 ^ (971 : ℤ) := by
        gcongr
        · linarith
        · norm_num
        · omega
      _ < 10 ^ (309 : ℤ) := by
        have : (2 : ℕ) ^ 53 * 2 ^ 971 < 10 ^ 309 := by decide +kernel
        exact_mod_cast this
  have := (zpow_lt_zpow_iff_right₀ (by norm_num : (1 : ℚ) < 10)).1 hbig
  omega

end Bounds

/-- **Shortest digits are found** for every number that is not zero and has no more digits and no larger exponents than
doubles have -/
theorem shortest_digits {f : Format} {x : Fields} (hx : 0 < f.significand x) (hlt : f.significand x < 2 ^ 53)
    (hlow : -1074 ≤ f.exponent x) (hhigh : f.exponent x < 972) :
    Digits f x (f.shortest x).1 (f.shortest x).2 := by
  have hends := Format.ends_interval hx
  obtain ⟨hhas, hv⟩ := shortest_has hx hlt hlow hhigh
  generalize f.shortest x = p at hhas hv ⊢
  obtain ⟨c, t⟩ := p
  have hle := (hends.le_of_has hhas).2
  have hgrid : (2 : ℚ) ^ f.exponent x < 400 * 10 ^ t := by
    have habove := (tenBelow_bounds (k := f.exponent x - 2) (by omega) (by omega)).2
    have hcoarse : (10 : ℚ) ^ tenBelow (f.exponent x - 2) ≤ 10 ^ t := zpow_le_zpow_right₀ (by norm_num) hv
    rw [zpow_add₀ (by norm_num), zpow_sub₀ two_ne_zero] at habove
    linarith
  have hpos : 0 < c := by
    rcases Nat.eq_zero_or_pos c with rfl | hpos
    · have := (hends.around hx hhas).pos
      simp at this
    · exact hpos
  have hge : -325 ≤ t := by
    refine le_trans ?_ hv
    unfold tenBelow
    omega
  exact ⟨hhas, hpos, digits_lt_size hlt hle hgrid, hge, power_le hpos hlt hle hhigh⟩

end OpcPubSub.Number
