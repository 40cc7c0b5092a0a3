/-
Numbers written in digits read back as themselves: integers in decimal, numbers of a fixed width in decimal and in
hexadecimal. What a fixed width leaves of the text is not touched.
-/
import Mathlib.Tactic
import OpcPubSub.Text.Decimal
import OpcPubSub.Text.Hex

namespace OpcPubSub.Text

/-! ## Decimal -/

theorem digitValue_digitChar {d : Nat} (h : d < 10) : digitValue d.digitChar = some d := by
  rw [digitValue, if_pos (by simp [Nat.isDigit_digitChar, h]), Nat.toNat_digitChar_of_lt_ten h]
  simp

theorem digitValue_of_isDigit {c : Char} (h : c.isDigit = true) : digitValue c = some (c.toNat - '0'.toNat) := by
  rw [digitValue, if_pos h]

theorem readDigits_of_isDigit {cs : List Char} (h : ∀ c ∈ cs, c.isDigit = true) (acc : Nat) :
    readDigits acc cs = some (Nat.ofDigitChars 10 cs acc) := by
  induction cs generalizing acc with
  | nil => simp [readDigits]
  | cons c cs ih =>
    rw [readDigits, digitValue_of_isDigit (h c List.mem_cons_self), Nat.ofDigitChars_cons]
    exact ih (fun d hd => h d (List.mem_cons_of_mem _ hd)) _

theorem isDigit_of_mem_digits {n : Nat} {c : Char} (h : c ∈ digits n) : c.isDigit = true :=
  Nat.isDigit_of_mem_toDigits (by decide) (by decide) h

theorem readDigits_digits (n : Nat) : readDigits 0 (digits n) = some n := by
  rw [readDigits_of_isDigit fun _ h => isDigit_of_mem_digits h, digits, Nat.ofDigitChars_ten_toDigits]

theorem digits_ne_nil (n : Nat) : digits n ≠ [] := Nat.toDigits_ne_nil

theorem readNat_digits (n : Nat) : readNat (digits n) = some n := by
  simp [readNat, digits_ne_nil, readDigits_digits]

/-- there is no sign in front of digits -/
theorem readInt_of_isDigit {cs : List Char} (h : ∀ c ∈ cs, c.isDigit = true) (signed : Bool) :
    readInt signed cs = (readNat cs).map Int.ofNat := by
  match cs with
  | [] => rfl
  | c :: cs =>
    have hc := h c List.mem_cons_self
    unfold readInt
    split
    · simp_all
    · simp_all
    · rfl

/-- **Integers read back**, negative ones where a minus is allowed -/
theorem readInt_decimal {signed : Bool} {n : Int} (h : signed = true ∨ 0 ≤ n) :
    readInt signed (decimal n).toList = some n := by
  unfold decimal
  rw [String.toList_ofList]
  split
  · rcases h with rfl | h
    · have hn : -(n.natAbs : Int) = n := by omega
      rw [readInt, if_pos rfl, readNat_digits]
      exact congrArg some hn
    · omega
  · rw [readInt_of_isDigit fun _ h => isDigit_of_mem_digits h, readNat_digits]
    simp only [Option.map_some, Int.ofNat_eq_natCast, Option.some.injEq]
    omega

/-- no leading zeros -/
theorem digits_head {n : Nat} {cs : List Char} (h : digits n = '0' :: cs) : n = 0 := by
  induction n using Nat.strong_induction_on generalizing cs with
  | _ n ih =>
    by_cases hn : n < 10
    · rw [digits, Nat.toDigits_of_lt_base hn, List.cons.injEq] at h
      exact Nat.digitChar_eq_zero.1 h.1
    · rw [digits, Nat.toDigits_of_base_le (by decide) (by omega)] at h
      obtain ⟨ds, hds⟩ : ∃ ds, digits (n / 10) = '0' :: ds := by
        cases hq : digits (n / 10) with
        | nil => exact absurd hq (digits_ne_nil _)
        | cons d ds =>
          rw [digits] at hq
          rw [hq, List.cons_append, List.cons.injEq] at h
          exact ⟨ds, by rw [h.1]⟩
      have := ih (n / 10) (by omega) hds
      omega

/-! ## Fixed widths -/

theorem isDigit_of_mem_padded {k n : Nat} {c : Char} (h : c ∈ padded k n) : c.isDigit = true := by
  induction k generalizing n with
  | zero => simp [padded] at h
  | succ k ih =>
    rw [padded, List.mem_append, List.mem_singleton] at h
    rcases h with h | rfl
    · exact ih h
    · simp [Nat.isDigit_digitChar, Nat.mod_lt]

theorem length_padded (k n : Nat) : (padded k n).length = k := by
  induction k generalizing n with
  | zero => rfl
  | succ k ih => simp [padded, ih]

/-- in base `b`: `k` digits read, and one more -/
theorem mod_pow_succ (b k acc n : Nat) :
    b * (acc * b ^ k + n / b % b ^ k) + n % b = acc * b ^ (k + 1) + n % b ^ (k + 1) := by
  calc b * (acc * b ^ k + n / b % b ^ k) + n % b
      = acc * b ^ (k + 1) + (n % b + b * (n / b % b ^ k)) := by ring
    _ = acc * b ^ (k + 1) + n % (b * b ^ k) := by rw [Nat.mod_mul]
    _ = acc * b ^ (k + 1) + n % b ^ (k + 1) := by rw [pow_succ']

/-- the last `k` digits of `n` are read, `j` more digits to go; by induction on the width, its last digit read last -/
theorem takeDigits_padded_add (k j acc n : Nat) (rest : List Char) :
    takeDigits (k + j) acc (padded k n ++ rest) = takeDigits j (acc * 10 ^ k + n % 10 ^ k) rest := by
  induction k generalizing j n rest with
  | zero => simp [padded, Nat.mod_one]
  | succ k ih =>
    rw [padded, List.append_assoc, show k + 1 + j = k + (j + 1) by omega, ih (j + 1) (n / 10),
      List.singleton_append, takeDigits, digitValue_digitChar (Nat.mod_lt _ (by decide))]
    simp only [mod_pow_succ]

theorem takeDigits_padded {k n : Nat} (h : n < 10 ^ k) (rest : List Char) :
    takeDigits k 0 (padded k n ++ rest) = some (n, rest) := by
  have := takeDigits_padded_add k 0 0 n rest
  simpa [takeDigits, Nat.mod_eq_of_lt h] using this

/-! ## Hexadecimal -/

theorem hexValue_hexDigit {d : Nat} (h : d < 16) : hexValue (hexDigit d) = some d := by
  interval_cases d <;> rfl

theorem readHex_hexDigits_add (k j acc n : Nat) (rest : List Char) :
    readHex (k + j) acc (hexDigits k n ++ rest) = readHex j (acc * 16 ^ k + n % 16 ^ k) rest := by
  induction k generalizing j n rest with
  | zero => simp [hexDigits, Nat.mod_one]
  | succ k ih =>
    rw [hexDigits, List.append_assoc, show k + 1 + j = k + (j + 1) by omega, ih (j + 1) (n / 16),
      List.singleton_append, readHex, hexValue_hexDigit (Nat.mod_lt _ (by decide))]
    simp only [mod_pow_succ]

theorem readHex_hexDigits (k acc n : Nat) (rest : List Char) :
    readHex k acc (hexDigits k n ++ rest) = some (acc * 16 ^ k + n % 16 ^ k, rest) := by
  have := readHex_hexDigits_add k 0 acc n rest
  simpa [readHex] using this

theorem length_hexDigits (k n : Nat) : (hexDigits k n).length = k := by
  induction k generalizing n with
  | zero => rfl
  | succ k ih => simp [hexDigits, ih]

/-- the characters that numbers are written with in hexadecimal -/
theorem hexValue_of_mem_hexDigits {k n : Nat} {c : Char} (h : c ∈ hexDigits k n) : ∃ d, hexValue c = some d := by
  induction k generalizing n with
  | zero => simp [hexDigits] at h
  | succ k ih =>
    rw [hexDigits, List.mem_append, List.mem_singleton] at h
    rcases h with h | rfl
    · exact ih h
    · exact ⟨_, hexValue_hexDigit (Nat.mod_lt _ (by decide))⟩

end OpcPubSub.Text
