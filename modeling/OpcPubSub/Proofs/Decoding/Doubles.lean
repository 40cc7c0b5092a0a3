/-
Reversible doubles.

A double is written with digits that are nearest to it and to no other, but the reader rounds up to three times on its
way back from them. So a double comes back exactly when scaling its digits gives its magnitude again. Main results:
- `reread_eq_iff`: the condition on a double;
- `scaled_of_lt`: digits below `2 ^ 53` and a power of ten up to 22 always meet it;
- `Variant.write_read_double_iff`: what is written for any finite double is read as one, and when as the same one.
-/
import OpcPubSub.Decoding.Values
import OpcPubSub.Proofs.Encoding.WritesDocument
import OpcPubSub.Proofs.Json.Floats

namespace OpcPubSub.Number

open Json
open Float.Model.UnpackedFloat (Sign)

variable {x : Float}

theorem Finite.doubleFields_eq {s : Sign} {b : ℕ} (h : Finite x s b) :
    doubleFields x = { Format.binary64.fields b with negative := s.toBitVec.toNat == 1 } := by
  have hlt := h.lt
  rw [infinityBits_eq] at hlt
  rw [doubleFields, Format.fields_of_lt (h.lt.trans infinityBits_lt), h.bits]
  simp only [Format.fields, Nat.shiftRight_eq_div_pow, Nat.one_shiftLeft]
  change (⟨(s.toBitVec.toNat * 2 ^ 63 + b) / 2 ^ 63 % 2 == 1, (s.toBitVec.toNat * 2 ^ 63 + b) / 2 ^ 52 % 2 ^ 11,
    (s.toBitVec.toNat * 2 ^ 63 + b) % 2 ^ 52⟩ : Fields) = ⟨s.toBitVec.toNat == 1, b / 2 ^ 52, b % 2 ^ 52⟩
  have hsign : s.toBitVec.toNat < 2 := s.toBitVec.isLt
  congr 1
  · rw [show (s.toBitVec.toNat * 2 ^ 63 + b) / 2 ^ 63 % 2 = s.toBitVec.toNat by omega]
  · omega
  · omega

/-- a double is read as itself exactly when its magnitude is -/
theorem reread_eq_iff (hx : x.isFinite = true) :
    reread .binary64 .binary64 (doubleFields x) = x ↔ scaled .binary64 .binary64 (doubleFields x) = some x.abs := by
  obtain ⟨s, hfinite⟩ := finite_of_isFinite hx
  obtain ⟨y, c, hy, hc⟩ := scaled_finite hx
  have hnegative : (doubleFields x).negative = (s.toBitVec.toNat == 1) := by rw [hfinite.doubleFields_eq]
  rw [reread, hy, Option.getD_some, Option.some_inj, hnegative]
  cases s with
  | positive =>
    rw [if_neg (by decide), hfinite.abs.eq hfinite]
  | negative =>
    rw [if_pos (by decide)]
    constructor
    · intro h
      have hbits := (h ▸ hc.neg).bits.symm.trans hfinite.bits
      obtain rfl : c = x.toBits.toNat % 2 ^ 63 := Nat.add_left_cancel hbits
      exact hc.eq hfinite.abs
    · intro h
      have hbits := (h ▸ hc).bits.symm.trans hfinite.abs.bits
      obtain rfl : c = x.toBits.toNat % 2 ^ 63 := Nat.add_left_cancel hbits
      exact hc.neg.eq hfinite

theorem Finite.isFinite {s : Sign} {b : ℕ} (h : Finite x s b) : x.isFinite = true := by
  have hlt := h.lt
  rw [infinityBits_eq] at hlt
  refine (isFinite_double x).2 ?_
  change (doubleFields x).biased ≠ 2047
  rw [h.doubleFields_eq, Format.fields_of_lt (h.lt.trans infinityBits_lt)]
  change b / 2 ^ 52 ≠ 2047
  omega

theorem isFinite_reread (hx : x.isFinite = true) : (reread .binary64 .binary64 (doubleFields x)).isFinite = true := by
  obtain ⟨y, c, hy, hc⟩ := scaled_finite hx
  rw [reread, hy, Option.getD_some]
  split_ifs
  · exact hc.neg.isFinite
  · exact hc.isFinite

/-- shortest digits are nearest to no other number -/
theorem Finite.bitsOf_written {s : Sign} {b : ℕ} (h : Finite x s b) (hregular : Regular .binary64 (doubleFields x)) :
    Format.binary64.bitsOf ((written .binary64 .binary64 (doubleFields x)).1 *
      10 ^ (written .binary64 .binary64 (doubleFields x)).2) = b := by
  have hrange := h.lt.trans infinityBits_lt
  have hhas := (hregular.digits printable_binary64).has
  rw [written, if_neg hregular.nonzero, Window.value_gathered]
  have hnonzero := hregular.nonzero
  rw [h.doubleFields_eq] at hhas hnonzero ⊢
  have hpos : 0 < b := by
    rw [Format.fields_of_lt hrange] at hnonzero
    change ¬(b / 2 ^ 52 = 0 ∧ b % 2 ^ 52 = 0) at hnonzero
    omega
  exact Format.bitsOf_of_has hpos hrange hhas

/-- **Few digits and a small power come back**: one rounding from the digits is back at the number -/
theorem scaled_of_lt (hx : x.isFinite = true) (hdigits : (written .binary64 .binary64 (doubleFields x)).1 < 2 ^ 53)
    (hpower : (written .binary64 .binary64 (doubleFields x)).2.natAbs ≤ 22) :
    scaled .binary64 .binary64 (doubleFields x) = some x.abs := by
  obtain ⟨s, hfinite⟩ := finite_of_isFinite hx
  generalize x.toBits.toNat % 2 ^ 63 = b at hfinite
  rcases zero_or_regular_double hx with hzero | hregular
  · obtain ⟨y, hy, hc⟩ := scaled_zero (w := .binary64) hzero
    have hb : b = 0 := by
      rw [hfinite.doubleFields_eq, Format.fields_of_lt (hfinite.lt.trans infinityBits_lt)] at hzero
      change b / 2 ^ 52 = 0 ∧ b % 2 ^ 52 = 0 at hzero
      omega
    subst hb
    exact hy.trans (congrArg some (hc.eq hfinite.abs))
  · have hpos : 0 < (written .binary64 .binary64 (doubleFields x)).1 := by
      rw [written, if_neg hregular.nonzero]
      exact Window.gathered_pos _ (hregular.digits printable_binary64).pos _
    obtain ⟨y, hy, hrounds⟩ := scale_exact hpos hdigits hpower
    rw [Rounds, hfinite.bitsOf_written hregular, min_eq_left hfinite.lt.le] at hrounds
    have hc : Finite y .positive b := ⟨hrounds.trans (Nat.zero_add b).symm, hfinite.lt⟩
    exact hy.trans (congrArg some (hc.eq hfinite.abs))

end OpcPubSub.Number

namespace OpcPubSub

open Number

namespace Variant

variable {x : Float}

theorem json_double (hx : x.isFinite = true) :
    json true (.scalar (.double x)) = .object [("Type", .int 11), ("Body", .double x)] := by
  have hbody : Scalar.json true (.double x) = .double x := by
    rw [Scalar.json, (nonFinite?_double x).2 hx]
  change Json.object [("Type", .int 11), ("Body", Scalar.json true (.double x))] = _
  rw [hbody]

theorem parse_double (hx : x.isFinite = true) :
    Json.parseDocument (json true (.scalar (.double x))).render =
      .ok (.object [("Type", .int 11), ("Body", .double (reread .binary64 .binary64 (doubleFields x)))]) := by
  have hnesting : (Json.object [("Type", .int 11), ("Body", .double x)]).nesting ≤ Json.maxDepth :=
    show 1 ≤ Json.maxDepth by decide
  have hleaves : (Json.object [("Type", .int 11), ("Body", .double x)]).AllAtoms Atom.Fits :=
    ⟨⟨by decide, by decide⟩, hx, trivial⟩
  rw [json_double hx, Json.parseDocument, Json.parse_render_as Json.leaves_fit hnesting hleaves]
  rfl

theorem reversible_double (y : Float) :
    Decoding.variant true (.object [("Type", .int 11), ("Body", .double y)]) = .ok (.scalar (.double y)) := rfl

/-- what is written for a finite double, and what it is read as -/
theorem write_read_double (hx : x.isFinite = true) (reversible : Bool) :
    ∃ w text j, Write.variant none (.scalar (.double x)) true { reversible } = .ok () w ∧ w.finish = .ok text ∧
      Json.parseDocument text = .ok j ∧
      Decoding.variant true j = .ok (.scalar (.double (reread .binary64 .binary64 (doubleFields x)))) := by
  obtain ⟨w, hw, hfinish⟩ := (@Write.writes_variant reversible none (.scalar (.double x)) true).finish
  exact ⟨w, _, _, hw, hfinish, parse_double hx, reversible_double _⟩

/-- **A finite double is always read as a finite double**, as the same one exactly when its digits scale to its
magnitude again. They do if they are below `2 ^ 53` and their power of ten is 22 at most. -/
theorem write_read_double_iff (hx : x.isFinite = true) (reversible : Bool) :
    ∃ w text j y, Write.variant none (.scalar (.double x)) true { reversible } = .ok () w ∧ w.finish = .ok text ∧
      Json.parseDocument text = .ok j ∧ Decoding.variant true j = .ok (.scalar (.double y)) ∧ y.isFinite = true ∧
      (y = x ↔ scaled .binary64 .binary64 (doubleFields x) = some x.abs) ∧
      ((written .binary64 .binary64 (doubleFields x)).1 < 2 ^ 53 →
        (written .binary64 .binary64 (doubleFields x)).2.natAbs ≤ 22 → y = x) := by
  obtain ⟨w, text, j, hw, hfinish, hparse, hread⟩ := write_read_double hx reversible
  refine ⟨w, text, j, _, hw, hfinish, hparse, hread, isFinite_reread hx, reread_eq_iff hx, ?_⟩
  intro hdigits hpower
  exact (reread_eq_iff hx).2 (scaled_of_lt hx hdigits hpower)

/-- a tenth comes back: its one digit is scaled by one division -/
theorem write_read_double_tenth :
    (0.1 : Float).isFinite = true ∧ ∃ w text j,
      Write.variant none (.scalar (.double 0.1)) true { reversible := true } = .ok () w ∧ w.finish = .ok text ∧
      Json.parseDocument text = .ok j ∧ Decoding.variant true j = .ok (.scalar (.double 0.1)) := by
  have hfinite : (0.1 : Float).isFinite = true := by decide +kernel
  obtain ⟨w, text, j, y, hw, hfinish, hparse, hread, -, -, hexact⟩ := write_read_double_iff hfinite true
  rw [hexact (by decide +kernel) (by decide +kernel)] at hread
  exact ⟨hfinite, w, text, j, hw, hfinish, hparse, hread⟩

/-- not every double comes back: 8000000000000001 is written with one more place than 53 bits hold -/
theorem not_write_read_double :
    ¬∀ x : Float, x.isFinite = true → ∀ reversible, ∃ w text j,
      Write.variant none (.scalar (.double x)) true { reversible } = .ok () w ∧ w.finish = .ok text ∧
      Json.parseDocument text = .ok j ∧ Decoding.variant true j = .ok (.scalar (.double x)) := by
  intro h
  have hfinite : (8000000000000001 : Float).isFinite = true := by decide +kernel
  obtain ⟨w, text, j, hw, hfinish, hparse, hread⟩ := h _ hfinite true
  obtain rfl := (Write.writes_variant none (.scalar (.double 8000000000000001)) true).eq_render hw hfinish
  obtain rfl := Except.ok.inj (hparse.symm.trans (parse_double hfinite))
  have hsame : reread .binary64 .binary64 (doubleFields 8000000000000001) = 8000000000000001 := by
    simpa using Except.ok.inj ((reversible_double _).symm.trans hread)
  have hscaled := (reread_eq_iff hfinite).1 hsame
  revert hscaled
  decide +kernel

end Variant

end OpcPubSub
