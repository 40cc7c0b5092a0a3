/-
The ticks of an instant are exact, though words of 64 bits count them.

They are computed in three steps: the seconds times ten million, then the ticks before 1970, then those of the
fraction. The calendar reaches further than a word of ticks does, so each step may overflow (`Counted`). An overflow
lies beyond the timestamps, and at the end that the sign of the seconds tells (`beyond_of_not_counted`): the timestamp
of an instant is always that of its exact ticks. Back again, what lies between the sentinels is an instant of the years
1601 to 9999. Main results:
- `ofInstant_eq_ofTicks`: the timestamp of an instant has its exact ticks, or the nearer end.
- `ofInstant_instant?`: a timestamp comes back from its instant.
- `ofInstant_exact`: both directions for all instants and all timestamps, the ticks as one formula.
-/
import OpcPubSub.Proofs.Time.Calendar
import OpcPubSub.Time.DateTime

namespace OpcPubSub

namespace Time

/-- seconds since 1970 from 0000-01-01 to the end of 9999 -/
def Instant.FourDigitYear (t : Instant) : Prop := -62167219200 ≤ t.seconds ∧ t.seconds ≤ 253402300799

theorem Instant.FourDigitYear.year {seconds : Int} {nanos : Nat} (h : FourDigitYear ⟨seconds, nanos⟩) :
    0 ≤ (Date.ofDays (seconds / 86400 + epochDays)).year ∧
      (Date.ofDays (seconds / 86400 + epochDays)).year ≤ 9999 := by
  simp only [FourDigitYear] at h
  exact Date.year_ofDays (by unfold epochDays; omega) (by unfold epochDays; omega)

/-- a year of four digits has instants -/
theorem Instant.ofUnix?_of_fourDigitYear {seconds : Int} {nanos : Nat} (hy : FourDigitYear ⟨seconds, nanos⟩)
    (hn : nanos < 1000000000) : ofUnix? seconds nanos = some ⟨seconds, nanos⟩ := by
  have hyear := hy.year
  unfold ofUnix? firstYear lastYear
  exact if_pos ⟨by omega, by omega, Or.inl hn⟩

end Time

open Time

namespace DateTime

/-! ## Any number of ticks -/

theorem ofTicks_ticks (t : DateTime) : ofTicks t.ticks = t := by
  have := t.nonneg
  have := t.le_max
  rw [ofTicks, dif_neg (by omega), dif_neg (by omega)]

theorem ofTicks_of_neg {n : ℤ} (h : n < 0) : ofTicks n = min := dif_pos h

theorem ofTicks_of_maxTicks_lt {n : ℤ} (h : maxTicks < n) : ofTicks n = max := by
  have hnonneg : ¬n < 0 := by
    have hends : 0 ≤ maxTicks := max.nonneg
    omega
  rw [ofTicks, dif_neg hnonneg, dif_pos h]

theorem ticks_ofTicks (n : Int) : (ofTicks n).ticks = Max.max 0 (Min.min n maxTicks) := by
  have hends : 0 ≤ maxTicks := by decide
  unfold ofTicks
  split_ifs with hlow hhigh
  · rw [max_eq_left (by omega)]
    rfl
  · rw [min_eq_right (by omega), max_eq_right hends]
    rfl
  · rw [min_eq_left (by omega), max_eq_right (by omega)]

/-! ## From an instant to its ticks, in three steps -/

/-- ticks since 1601-01-01 in unbounded numbers, fractions of a tick dropped -/
def exactTicks (i : Instant) : ℤ := i.seconds * ticksPerSecond + epochTicks + (i.nanos / 100 : ℕ)

theorem exactTicks_eq (i : Instant) :
    exactTicks i = i.seconds * 10000000 + 116444736000000000 + (i.nanos / 100 : ℕ) := rfl

/-- a signed 64-bit word holds the number -/
def Fits (n : ℤ) : Prop := -9223372036854775808 ≤ n ∧ n ≤ 9223372036854775807

/-- a word holds what each of the three steps gives -/
structure Counted (i : Instant) : Prop where
  seconds : Fits (i.seconds * ticksPerSecond)
  epoch : Fits (i.seconds * ticksPerSecond + epochTicks)
  fraction : Fits (exactTicks i)

theorem word?_of_fits {n : ℤ} (h : Fits n) : word? n = some n := if_pos h

theorem word?_of_not_fits {n : ℤ} (h : ¬Fits n) : word? n = none := if_neg h

theorem ofInstant_of_counted {i : Instant} (h : Counted i) : ofInstant i = ofTicks (exactTicks i) := by
  unfold ofInstant
  simp only
  rw [word?_of_fits h.seconds, Option.bind_some, word?_of_fits h.epoch, Option.bind_some]
  have hlast : word? (i.seconds * ticksPerSecond + epochTicks + (i.nanos / 100 : ℕ)) = some (exactTicks i) :=
    word?_of_fits h.fraction
  rw [hlast]

/-- whichever step overflows, one of the ends is taken -/
theorem ofInstant_of_not_counted {i : Instant} (h : ¬Counted i) :
    ofInstant i = if i.seconds < 0 then min else max := by
  unfold ofInstant
  simp only
  by_cases hseconds : Fits (i.seconds * ticksPerSecond)
  · rw [word?_of_fits hseconds, Option.bind_some]
    by_cases hepoch : Fits (i.seconds * ticksPerSecond + epochTicks)
    · rw [word?_of_fits hepoch, Option.bind_some]
      have hfraction : ¬Fits (exactTicks i) := fun hfraction => h ⟨hseconds, hepoch, hfraction⟩
      have hlast : word? (i.seconds * ticksPerSecond + epochTicks + (i.nanos / 100 : ℕ)) = none :=
        word?_of_not_fits hfraction
      rw [hlast]
    · rw [word?_of_not_fits hepoch, Option.bind_none]
  · rw [word?_of_not_fits hseconds, Option.bind_none]

/-- A step overflows only if the exact ticks lie outside the timestamps, and the sign of the seconds tells on which
side: what the later steps add is far less than a word. -/
theorem beyond_of_not_counted {i : Instant} (hi : i.nanos < 2000000000) (h : ¬Counted i) :
    (i.seconds < 0 → exactTicks i < 0) ∧ (0 ≤ i.seconds → maxTicks < exactTicks i) := by
  have hsteps : ¬(Fits (i.seconds * ticksPerSecond) ∧ Fits (i.seconds * ticksPerSecond + epochTicks) ∧
      Fits (exactTicks i)) := by
    rintro ⟨hseconds, hepoch, hfraction⟩
    exact h ⟨hseconds, hepoch, hfraction⟩
  have hfraction : i.nanos / 100 < 20000000 := by omega
  unfold Fits exactTicks epochTicks epochSeconds ticksPerSecond at hsteps
  unfold exactTicks maxTicks epochTicks epochSeconds ticksPerSecond
  constructor
  · intro hneg
    omega
  · intro hpos
    omega

/-- **The words that count ticks change nothing**: the timestamp of an instant is that of its exact ticks. -/
theorem ofInstant_eq_ofTicks {i : Instant} (hi : i.nanos < 2000000000) : ofInstant i = ofTicks (exactTicks i) := by
  by_cases h : Counted i
  · exact ofInstant_of_counted h
  · obtain ⟨hbefore, hafter⟩ := beyond_of_not_counted hi h
    rw [ofInstant_of_not_counted h]
    by_cases hneg : i.seconds < 0
    · rw [if_pos hneg, ofTicks_of_neg (hbefore hneg)]
    · rw [if_neg hneg, ofTicks_of_maxTicks_lt (hafter (by omega))]

/-! ## From a timestamp to its instant -/

/-- a timestamp between the sentinels has an instant -/
theorem instant?_of_between {t : DateTime} (hmin : 0 < t.ticks) (hmax : t.ticks < maxTicks) :
    t.instant? = some ⟨(t.ticks - epochTicks) / ticksPerSecond,
      ((t.ticks - epochTicks) % ticksPerSecond * 100).toNat⟩ := by
  have hlast := hmax
  unfold maxTicks epochSeconds ticksPerSecond at hlast
  have hyear : Instant.FourDigitYear ⟨(t.ticks - epochTicks) / ticksPerSecond,
      ((t.ticks - epochTicks) % ticksPerSecond * 100).toNat⟩ := by
    unfold Instant.FourDigitYear epochTicks epochSeconds ticksPerSecond
    simp only
    omega
  have hnanos : ((t.ticks - epochTicks) % ticksPerSecond * 100).toNat < 1000000000 := by
    unfold ticksPerSecond
    omega
  rw [instant?, if_neg (by omega)]
  exact Instant.ofUnix?_of_fourDigitYear hyear hnanos

theorem instant?_eq_none_iff {t : DateTime} : t.instant? = none ↔ t.ticks ≤ 0 ∨ maxTicks ≤ t.ticks := by
  constructor
  · intro h
    by_contra hends
    rw [instant?_of_between (by omega) (by omega)] at h
    cases h
  · intro hends
    rw [instant?, if_pos hends]

/-- the sentinels are the two timestamps without an instant -/
theorem instant?_eq_none_iff_sentinel {t : DateTime} : t.instant? = none ↔ t = min ∨ t = max := by
  rw [instant?_eq_none_iff]
  constructor
  · intro hends
    rcases hends with hlow | hhigh
    · left
      rw [← ofTicks_ticks t, show t.ticks = 0 from le_antisymm hlow t.nonneg]
      rfl
    · right
      rw [← ofTicks_ticks t, show t.ticks = maxTicks from le_antisymm t.le_max hhigh]
      rfl
  · intro hends
    rcases hends with rfl | rfl
    · exact Or.inl le_rfl
    · exact Or.inr le_rfl

/-- a timestamp with an instant lies between the sentinels -/
theorem eq_of_instant? {t : DateTime} {i : Instant} (h : t.instant? = some i) :
    0 < t.ticks ∧ t.ticks < maxTicks ∧ i = ⟨(t.ticks - epochTicks) / ticksPerSecond,
      ((t.ticks - epochTicks) % ticksPerSecond * 100).toNat⟩ := by
  have hends : ¬(t.ticks ≤ 0 ∨ maxTicks ≤ t.ticks) := by
    intro hends
    rw [instant?_eq_none_iff.2 hends] at h
    cases h
  rw [instant?_of_between (by omega) (by omega), Option.some.injEq] at h
  exact ⟨by omega, by omega, h.symm⟩

/-- the instant of a timestamp has a year of four digits and is not among those that the texts of the sentinels name -/
theorem instant?_bounds {t : DateTime} {i : Instant} (h : t.instant? = some i) :
    -11644473600 ≤ i.seconds ∧ i.FourDigitYear ∧ i.nanos < 1000000000 ∧
      (i.seconds = 253402300799 → i.nanos = 0 → False) := by
  obtain ⟨hmin, hmax, rfl⟩ := eq_of_instant? h
  unfold maxTicks epochSeconds ticksPerSecond at hmax
  unfold Instant.FourDigitYear epochTicks epochSeconds ticksPerSecond
  simp only
  omega

/-- the ticks of a timestamp are exactly those of its instant -/
theorem exactTicks_of_instant? {t : DateTime} {i : Instant} (h : t.instant? = some i) : exactTicks i = t.ticks := by
  obtain ⟨-, -, rfl⟩ := eq_of_instant? h
  rw [exactTicks_eq]
  unfold epochTicks epochSeconds ticksPerSecond
  simp only
  omega

/-- **A timestamp comes back** from its instant -/
theorem ofInstant_instant? {t : DateTime} {i : Instant} (h : t.instant? = some i) : ofInstant i = t := by
  obtain ⟨-, -, hnanos, -⟩ := instant?_bounds h
  rw [ofInstant_eq_ofTicks (by omega), exactTicks_of_instant? h, ofTicks_ticks]

/-- **Ticks are exact.** The timestamp of an instant has the ticks that unbounded numbers give, moved to the nearer end
if they lie outside, however far that is and whether the fraction is one of a leap second. Back again, the two
sentinels have no instant, and every other timestamp is that of its own instant, which is never inside a leap second. -/
theorem ofInstant_exact (i : Instant) (hi : i.nanos < 2000000000) (t : DateTime) :
    (ofInstant i).ticks =
        Max.max 0 (Min.min (i.seconds * 10000000 + 116444736000000000 + (i.nanos / 100 : ℕ)) maxTicks) ∧
      (t.instant? = none ↔ t = min ∨ t = max) ∧
      ∀ j, t.instant? = some j → j.nanos < 1000000000 ∧ ofInstant j = t := by
  refine ⟨?_, instant?_eq_none_iff_sentinel, ?_⟩
  · rw [ofInstant_eq_ofTicks hi, ticks_ofTicks, exactTicks_eq]
  · intro j hj
    obtain ⟨-, -, hnanos, -⟩ := instant?_bounds hj
    exact ⟨hnanos, ofInstant_instant? hj⟩

/-- the last leap second of the calendar, where a word of ticks overflows, and the first tick after 1601-01-01 -/
theorem ofInstant_exact_lastYear :
    (1999999999 < 2000000000 ∧ ofInstant ⟨8210266876799, 1999999999⟩ = max) ∧
      (ofTicks 1).instant? = some ⟨-11644473600, 100⟩ ∧ ofInstant ⟨-11644473600, 100⟩ = ofTicks 1 := by
  have hinstant : (ofTicks 1).instant? = some ⟨-11644473600, 100⟩ := by decide +kernel
  obtain ⟨hticks, -, hback⟩ := ofInstant_exact ⟨8210266876799, 1999999999⟩ (by decide) (ofTicks 1)
  refine ⟨⟨by decide, ?_⟩, hinstant, (hback _ hinstant).2⟩
  rw [← ofTicks_ticks (ofInstant _), hticks]
  decide +kernel

end DateTime

end OpcPubSub
