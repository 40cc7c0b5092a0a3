/-
The calendar and the count of days are inverse to each other, from days to dates and back.

A day count splits into an era of four hundred years, a year of the era and a day of that year (`ofDays_eq`); the last
day of a year, the leap day, is there only if the year has one. A day of a year is a date (`inYear`), and month and
day give the day of the year back.
-/
import Mathlib.Tactic
import OpcPubSub.Time.Calendar

namespace OpcPubSub.Time.Date

/-- the day of a year that starts in March, counted from zero -/
def inYear (year : Int) (dayOfYear : Nat) : Date :=
  let m := (5 * dayOfYear + 2) / 153
  let day := dayOfYear - (153 * m + 2) / 5 + 1
  if m < 10 then ⟨year, m + 3, day⟩ else ⟨year + 1, m - 9, day⟩

/-- the parts of a day count -/
theorem ofDays_eq (n : Int) : ∃ (era : Int) (y d : Nat), y < 400 ∧ d ≤ 365 ∧
    (d = 365 → isLeap (era * 400 + y + 1) = true) ∧
    n = era * 146097 + (y * 365 + y / 4 - y / 100 : Int) + d ∧ ofDays n = inYear (era * 400 + y) d := by
  obtain ⟨r, hr⟩ : ∃ r : Nat, n % 146097 = r := Int.eq_ofNat_of_zero_le (by omega)
  obtain ⟨c, hc⟩ : ∃ c, min (r / 36524) 3 = c := ⟨_, rfl⟩
  obtain ⟨q, hq⟩ : ∃ q, (r - c * 36524) / 1461 = q := ⟨_, rfl⟩
  obtain ⟨s, hs⟩ : ∃ s, min ((r - c * 36524 - q * 1461) / 365) 3 = s := ⟨_, rfl⟩
  obtain ⟨d, hd⟩ : ∃ d, r - c * 36524 - q * 1461 - s * 365 = d := ⟨_, rfl⟩
  have hcentury : r - c * 36524 ≤ 36524 ∧ (r - c * 36524 = 36524 → c = 3) ∧ c ≤ 3 ∧ c * 36524 ≤ r := by omega
  have hquad : r - c * 36524 - q * 1461 ≤ 1460 ∧ q ≤ 24 ∧ q * 1461 ≤ r - c * 36524 := by omega
  have hsingle : d ≤ 365 ∧ s ≤ 3 ∧ s * 365 ≤ r - c * 36524 - q * 1461 := by omega
  refine ⟨n / 146097, c * 100 + q * 4 + s, d, by omega, by omega, ?_, ?_, ?_⟩
  · intro hlast
    have hyear : s = 3 ∧ (q = 24 → c = 3) := by omega
    simp only [isLeap, Bool.and_eq_true, Bool.or_eq_true, decide_eq_true_eq]
    omega
  · have hfour : (c * 100 + q * 4 + s) / 4 = c * 25 + q := by omega
    have hhundred : (c * 100 + q * 4 + s) / 100 = c := by omega
    omega
  · simp only [ofDays, inYear, hr, Int.toNat_natCast, hc, hq, hs, hd]

theorem inYear_month (year : Int) {d : Nat} (h : d ≤ 365) :
    ∃ m, m ≤ 11 ∧ (153 * m + 2) / 5 ≤ d ∧ d < (153 * (m + 1) + 2) / 5 ∧
      inYear year d = ⟨if m < 10 then year else year + 1, if m < 10 then m + 3 else m - 9,
        d - (153 * m + 2) / 5 + 1⟩ := by
  refine ⟨(5 * d + 2) / 153, by omega, by omega, by omega, ?_⟩
  simp only [inYear]
  split_ifs <;> rfl

/-- **Days come back** from the date they count to -/
theorem toDays_ofDays (n : Int) : (ofDays n).toDays = n := by
  obtain ⟨era, y, d, hy, hd, -, hn, hdate⟩ := ofDays_eq n
  obtain ⟨m, hm, hlow, -, hmonth⟩ := inYear_month (era * 400 + y) hd
  rw [hdate, hmonth, hn]
  have hera : (era * 400 + y) / 400 = era := by omega
  have hyear : (era * 400 + y) % 400 = y := by omega
  by_cases h10 : m < 10
  · simp only [toDays, h10, if_true]
    rw [if_neg (by omega), if_neg (by omega), hera, hyear, show m + 3 - 3 = m by omega]
    omega
  · simp only [toDays, h10, if_false]
    rw [if_pos (by omega), if_pos (by omega), show era * 400 + (y : Int) + 1 - 1 = era * 400 + y by omega, hera, hyear,
      show m - 9 + 9 = m by omega]
    omega

/-- every day count has a date of the calendar -/
theorem valid_ofDays (n : Int) : (ofDays n).valid = true := by
  obtain ⟨era, y, d, hy, hd, hleap, -, hdate⟩ := ofDays_eq n
  obtain ⟨m, hm, hlow, hhigh, hmonth⟩ := inYear_month (era * 400 + y) hd
  rw [hdate, hmonth]
  simp only [valid, Bool.and_eq_true, decide_eq_true_eq]
  -- one case for each month, each with its own number of days; February ends the year
  interval_cases m <;> simp [daysInMonth] <;> try omega
  split_ifs with h
  · omega
  · have : d ≠ 365 := fun h' => h (hleap h')
    omega

/-- the years of a span of day counts, from the first of January of `0` to the end of `9999` -/
theorem year_ofDays {n : Int} (h : -60 ≤ n) (h' : n ≤ 3652364) : 0 ≤ (ofDays n).year ∧ (ofDays n).year ≤ 9999 := by
  obtain ⟨era, y, d, hy, hd, -, hn, hdate⟩ := ofDays_eq n
  obtain ⟨m, hm, hlow, hhigh, hmonth⟩ := inYear_month (era * 400 + y) hd
  rw [hdate, hmonth]
  have hera : -1 ≤ era ∧ era ≤ 24 := by omega
  -- only the last year of the era before and of the last era reaches into the span and beyond it
  have hfirst : era = -1 → y = 399 := by omega
  have hfirst' : era = -1 → 10 ≤ m := by
    intro he
    have := hfirst he
    omega
  have hlast : era = 24 → y = 399 → m < 10 := by omega
  simp only
  split_ifs <;> omega

end OpcPubSub.Time.Date
