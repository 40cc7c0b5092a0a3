/-
The hyphenated form of a GUID reads back as the GUID.
-/
import OpcPubSub.Guid
import OpcPubSub.Proofs.Text.Digits

namespace OpcPubSub.Guid

/-- groups of digits read back, on top of what was read before them; by induction on the groups, the most significant
one read first -/
theorem readGroups_grouped (k : Nat) (ks : List Nat) (acc n : Nat) :
    readGroups (k :: ks) acc (grouped (k :: ks) n) =
      some (acc * 16 ^ width (k :: ks) + n % 16 ^ width (k :: ks)) := by
  induction ks generalizing k acc with
  | nil =>
    have := Text.readHex_hexDigits k acc n []
    rw [List.append_nil] at this
    simp [readGroups, grouped, width, this]
  | cons l ls ih =>
    rw [grouped, readGroups, Text.readHex_hexDigits]
    · have hwidth : width (k :: l :: ls) = k + width (l :: ls) := rfl
      simp only [ih, hwidth, pow_add, Nat.pow_eq]
      rw [mul_comm (16 ^ k), Nat.mod_mul]
      congr 1
      ring
    · simp
    · simp

theorem length_grouped_groups (n : Nat) : (grouped groups n).length = 36 := by
  simp [groups, grouped, Text.length_hexDigits]

/-- the form starts with a digit, so nothing is taken off it -/
theorem unwrap_grouped (n : Nat) : unwrap (grouped groups n) = grouped groups n := by
  have hlen : (Text.hexDigits 8 (n / 16 ^ 24)).length = 8 := Text.length_hexDigits _ _
  have hmem : ∀ c ∈ Text.hexDigits 8 (n / 16 ^ 24), ∃ d, Text.hexValue c = some d :=
    fun _ h => Text.hexValue_of_mem_hexDigits h
  have hform : grouped groups n = Text.hexDigits 8 (n / 16 ^ 24) ++ '-' :: grouped [4, 4, 4, 12] n := by
    simp [groups, grouped, width]
  rw [hform]
  cases hd : Text.hexDigits 8 (n / 16 ^ 24) with
  | nil =>
    rw [hd] at hlen
    simp at hlen
  | cons c cs =>
    rw [hd] at hmem
    obtain ⟨d, hc⟩ := hmem c List.mem_cons_self
    unfold unwrap
    split
    · simp_all [Text.hexValue]
    · simp_all [Text.hexValue]
    · rfl

theorem ofNat?_toNat (g : Guid) : ofNat? g.value.toNat = some g := by
  have hvalue : BitVec.ofNat 128 g.value.toNat = g.value := by rw [BitVec.ofNat_toNat, BitVec.setWidth_eq]
  simp only [ofNat?, hvalue, if_true]

/-- **GUIDs read back** -/
theorem ofText?_text (g : Guid) : ofText? g.text = some g := by
  have hlt : g.value.toNat < 16 ^ width groups := g.value.isLt
  simp only [ofText?, text, String.toList_ofList, length_grouped_groups, unwrap_grouped]
  rw [show groups = 8 :: [4, 4, 4, 12] from rfl] at hlt ⊢
  rw [readGroups_grouped, Nat.mod_eq_of_lt hlt]
  simp [ofNat?_toNat]

end OpcPubSub.Guid
