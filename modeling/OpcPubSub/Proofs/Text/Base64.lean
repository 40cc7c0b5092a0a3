/-
Base64 texts read back as the bytes they were written from. Four characters are one group; a group of the written text
ends in an equals sign only if it is the last and is short of bytes, so the reader never takes one kind for another.
-/
import Mathlib.Tactic
import OpcPubSub.Text.Base64

namespace OpcPubSub.Text.Base64

/-- the alphabet read back -/
theorem value_symbol {n : Nat} (h : n < 64) : value (symbol n) = some n := by
  interval_cases n <;> rfl

theorem symbol_ne_pad {n : Nat} (h : n < 64) : symbol n ≠ '=' := by
  interval_cases n <;> decide

theorem ofNat_eq {n : Nat} {a : UInt8} (h : n = a.toNat) : UInt8.ofNat n = a := by
  rw [h, UInt8.ofNat_toNat]

/-- **Bytes read back** -/
theorem decode_encode (bytes : List UInt8) : decode (encode bytes) = some bytes := by
  match bytes with
  | [] => rfl
  | [a] =>
    have ha := a.toNat_lt
    have hx : a.toNat / 4 < 64 := by omega
    have hy : a.toNat % 4 * 16 < 64 := by omega
    have hbyte : a.toNat / 4 * 4 + a.toNat % 4 * 16 / 16 = a.toNat := by omega
    have hpad : (a.toNat % 4 * 16 % 16 == 0) = true := by simp
    rw [encode, decode, value_symbol hx, value_symbol hy]
    simp only [hpad, if_true, ofNat_eq hbyte]
  | [a, b] =>
    have ha := a.toNat_lt
    have hb := b.toNat_lt
    generalize hn : a.toNat * 256 + b.toNat = n
    have hx : n / 1024 < 64 := by omega
    have hy : n / 16 % 64 < 64 := by omega
    have hz : n % 16 * 4 < 64 := by omega
    have hfirst : n / 1024 * 4 + n / 16 % 64 / 16 = a.toNat := by omega
    have hsecond : n / 16 % 64 % 16 * 16 + n % 16 * 4 / 4 = b.toNat := by omega
    have hpad : (n % 16 * 4 % 4 == 0) = true := by simp
    rw [encode]
    simp only [hn]
    rw [decode, value_symbol hx, value_symbol hy, value_symbol hz]
    · simp only [hpad, if_true, ofNat_eq hfirst, ofNat_eq hsecond]
    · exact symbol_ne_pad hz
  | a :: b :: c :: rest =>
    have ha := a.toNat_lt
    have hb := b.toNat_lt
    have hc := c.toNat_lt
    have ih := decode_encode rest
    generalize hn : (a.toNat * 256 + b.toNat) * 256 + c.toNat = n
    have hx : n / 262144 < 64 := by omega
    have hy : n / 4096 % 64 < 64 := by omega
    have hz : n / 64 % 64 < 64 := by omega
    have hw : n % 64 < 64 := by omega
    have hfirst : n / 262144 * 4 + n / 4096 % 64 / 16 = a.toNat := by omega
    have hsecond : n / 4096 % 64 % 16 * 16 + n / 64 % 64 / 4 = b.toNat := by omega
    have hthird : n / 64 % 64 % 4 * 64 + n % 64 = c.toNat := by omega
    rw [encode]
    simp only [hn]
    rw [decode, value_symbol hx, value_symbol hy, value_symbol hz, value_symbol hw, ih]
    · simp only [ofNat_eq hfirst, ofNat_eq hsecond, ofNat_eq hthird]
    · exact fun _ h _ => symbol_ne_pad hw h
    · exact fun h _ => symbol_ne_pad hw h

end OpcPubSub.Text.Base64
