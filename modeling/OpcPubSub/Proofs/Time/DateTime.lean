/-
Timestamps read back from their text, the sentinels at both ends included.

The text of an instant is read as the instant, piece by piece, if its year has four digits (`ofText?_text`). The text
of a timestamp is that of its instant, and the sentinels have texts that no other timestamp has. Main results:
- `ofText_text`: every timestamp is read back from its own text.
- `ofText_text_ofTicks`: hence so is the timestamp of any number of ticks, and no other has its text.
-/
import OpcPubSub.Proofs.Text.Digits
import OpcPubSub.Proofs.Time.Ticks

namespace OpcPubSub

namespace Time

theorem takeDigits_zeros (k acc : Nat) : Text.takeDigits k acc (List.replicate k '0') = some (acc * 10 ^ k, []) := by
  induction k generalizing acc with
  | zero => simp [Text.takeDigits]
  | succ k ih =>
    rw [List.replicate_succ, Text.takeDigits, show Text.digitValue '0' = some 0 from rfl]
    simp only [ih, pow_succ]
    congr 2
    ring

/-- digits after the point count from the left -/
theorem readFraction_padded {k n : Nat} (hk : 0 < k) (hk' : k ≤ 9) (hn : n < 10 ^ k) (rest : List Char)
    (hrest : ∀ c cs, rest = c :: cs → c.isDigit = false) :
    readFraction ('.' :: (Text.padded k n ++ rest)) = some (n * 10 ^ (9 - k), rest) := by
  have htake : (Text.padded k n ++ rest).takeWhile Char.isDigit = Text.padded k n := by
    rw [List.takeWhile_append_of_pos fun c hc => Text.isDigit_of_mem_padded hc]
    cases rest with
    | nil => simp
    | cons c cs => simp [hrest c cs rfl]
  have hdrop : (Text.padded k n ++ rest).dropWhile Char.isDigit = rest := by
    rw [List.dropWhile_append_of_pos fun c hc => Text.isDigit_of_mem_padded hc]
    cases rest with
    | nil => simp
    | cons c cs => simp [hrest c cs rfl]
  have hlen : (Text.padded k n).length = k := Text.length_padded k n
  have hne : (Text.padded k n).isEmpty = false := by
    rw [List.isEmpty_eq_false_iff, ← List.length_pos_iff]
    omega
  have hread := Text.takeDigits_padded_add k (9 - k) 0 n (List.replicate (9 - k) '0')
  rw [show k + (9 - k) = 9 by omega, Nat.mod_eq_of_lt hn, takeDigits_zeros] at hread
  simp only [readFraction, htake, hdrop, hne, List.take_of_length_le (show (Text.padded k n).length ≤ 9 by omega), hlen,
    hread]
  simp

theorem readFraction_fractionText {n : Nat} (h : n < 1000000000) :
    readFraction (fractionText n ++ ['Z']) = some (n, ['Z']) := by
  have hZ : ∀ c cs, ['Z'] = c :: cs → c.isDigit = false := by
    intro c cs h
    rw [List.cons.injEq] at h
    rw [← h.1]; rfl
  unfold fractionText
  split_ifs with h0 h3 h6
  · rw [h0]; rfl
  · rw [List.cons_append, readFraction_padded (by decide) (by decide) (by omega) _ hZ]
    congr 2; omega
  · rw [List.cons_append, readFraction_padded (by decide) (by decide) (by omega) _ hZ]
    congr 2; omega
  · rw [List.cons_append, readFraction_padded (by decide) (by decide) (by omega) _ hZ]
    congr 2; omega

/-- a date with a year of four digits -/
theorem readDate_text {d : Date} (hv : d.valid = true) (h : 0 ≤ d.year) (h' : d.year ≤ 9999) (rest : List Char) :
    readDate (Text.padded 4 d.year.toNat ++ '-' :: (Text.padded 2 d.month ++ '-' :: (Text.padded 2 d.day ++ rest))) =
      some (d, rest) := by
  have hd := hv
  simp only [Date.valid, Bool.and_eq_true, decide_eq_true_eq] at hd
  have hmost : daysInMonth d.year d.month ≤ 31 := by
    unfold daysInMonth
    split_ifs <;> omega
  have hdate : (⟨d.year.toNat, d.month, d.day⟩ : Date) = d := by
    obtain ⟨year, month, day⟩ := d
    simp only [Date.mk.injEq, and_self, and_true]
    simp only at h
    omega
  simp only [readDate, bind, Option.bind, dropChar, if_true,
    Text.takeDigits_padded (show d.year.toNat < 10 ^ 4 by omega),
    Text.takeDigits_padded (show d.month < 10 ^ 2 by omega),
    Text.takeDigits_padded (show d.day < 10 ^ 2 by omega), hdate, hv]

theorem readClock_text {second : Nat} (h : second < 86400) (rest : List Char) :
    readClock (Text.padded 2 (second / 3600) ++ ':' :: (Text.padded 2 (second / 60 % 60) ++
      ':' :: (Text.padded 2 (second % 60) ++ rest))) =
      some ((second / 3600, second / 60 % 60, second % 60), rest) := by
  have hclock : second / 3600 < 24 ∧ second / 60 % 60 < 60 ∧ second % 60 ≤ 60 := by omega
  simp only [readClock, bind, Option.bind, dropChar, if_true,
    Text.takeDigits_padded (show second / 3600 < 10 ^ 2 by omega),
    Text.takeDigits_padded (show second / 60 % 60 < 10 ^ 2 by omega),
    Text.takeDigits_padded (show second % 60 < 10 ^ 2 by omega)]
  rw [if_pos hclock]

/-- **Instants read back**, those outside leap seconds -/
theorem Instant.ofText?_text {t : Instant} (hy : t.FourDigitYear) (hn : t.nanos < 1000000000) :
    ofText? t.text = some t := by
  obtain ⟨seconds, nanos⟩ := t
  have hyear := hy.year
  have hclock : (seconds % 86400).toNat < 86400 := by omega
  have hleap : (seconds % 86400).toNat % 60 ≠ 60 := by omega
  simp only [text, List.append_assoc, List.cons_append]
  simp only [ofText?, readDate_text (Date.valid_ofDays _) hyear.1 hyear.2, bind, Option.bind, dropSeparator,
    readClock_text hclock, readFraction_fractionText hn, readOffset, List.isEmpty_nil, Date.toDays_ofDays, hleap,
    if_true, if_false, true_or]
  congr 2
  omega

end Time

open Time

namespace DateTime

theorem minText_instant : Instant.ofText? minText.toList = some ⟨-62135596800, 0⟩ := by decide +kernel

theorem maxText_instant : Instant.ofText? maxText.toList = some ⟨253402300799, 0⟩ := by decide +kernel

/-- **Timestamps read back** -/
theorem ofText_text (t : DateTime) : ofText t.text = .ok t := by
  have hlow := t.nonneg
  have hhigh := t.le_max
  unfold text
  by_cases hmax : maxTicks ≤ t.ticks
  · obtain ⟨ticks, _, _⟩ := t
    have : ticks = maxTicks := by simp only at hhigh hmax; omega
    subst this
    simp only [le_refl, if_true, ofText]
    rw [if_neg (by decide)]
    rfl
  · rw [if_neg hmax]
    cases hi : t.instant? with
    | none =>
      have hends := instant?_eq_none_iff.1 hi
      obtain ⟨ticks, _, _⟩ := t
      have : ticks = 0 := by simp only at hlow hmax hends; omega
      subst this
      simp only [ofText, if_true]
      rfl
    | some i =>
      obtain ⟨hfirst, hyear, hnanos, hend⟩ := instant?_bounds hi
      have hread := Instant.ofText?_text hyear hnanos
      simp only
      -- the texts of the sentinels stand for instants that no other timestamp has
      have hmin : String.ofList i.text ≠ minText := by
        intro h
        have hs := minText_instant
        rw [← h, String.toList_ofList, hread, Option.some.injEq] at hs
        rw [hs] at hfirst
        simp at hfirst
      have hmax : String.ofList i.text ≠ maxText := by
        intro h
        have hs := maxText_instant
        rw [← h, String.toList_ofList, hread, Option.some.injEq] at hs
        rw [hs] at hend
        simp at hend
      rw [ofText, if_neg hmin, if_neg hmax, String.toList_ofList, hread]
      simp only [ofInstant_instant? hi]

/-- timestamps with one text are one -/
theorem text_injective : Function.Injective text := by
  intro t u h
  have hread := ofText_text t
  rw [h, ofText_text u, Except.ok.injEq] at hread
  exact hread.symm

/-- **Any number of ticks reads back** as the timestamp that it stands for, with the ticks moved to the nearer end if
they lie outside; and among all timestamps, the sentinels included, no other has that text. -/
theorem ofText_text_ofTicks (n : Int) :
    ofText (ofTicks n).text = .ok (ofTicks n) ∧ (ofTicks n).ticks = Max.max 0 (Min.min n maxTicks) ∧
      ∀ t : DateTime, t ≠ ofTicks n → t.text ≠ (ofTicks n).text :=
  ⟨ofText_text _, ticks_ofTicks n, fun _ hne htext => hne (text_injective htext)⟩

end DateTime

end OpcPubSub
