/-
What settings that pass validation are. Validation stops at the first thing wrong, so it passes iff nothing is; each
check says what it rules out, and `each` that its keys are distinct. Main results:
- `each_eq_ok`: the elements of a list pass iff each one does and no two have the same key.
- `GroupSettings.validate_eq_ok`, `WriterSettings.validate_eq_ok`: what groups and writers that pass are.
- `Settings.validate_eq_ok`: hence what a whole configuration is.
-/
import Mathlib.Tactic
import OpcPubSub.Config.Validation
import OpcPubSub.Proofs.Except

namespace OpcPubSub.Config

/-! ## What the parts have to be -/

structure FieldSettings.Valid (f : FieldSettings) : Prop where
  name : f.name ≠ ""
  period : f.signal = .sine → f.periodMs ≠ 0
  value : f.signal = .constant → ∃ v, f.value = some v
  text : f.signal = .text → ∃ t, f.text = some t

structure WriterSettings.Valid (w : WriterSettings) : Prop where
  id : w.id ≠ 0
  dataSetMask : ∃ mask, w.dataSetMask = .ok mask
  fieldMask : ∃ mask, w.fieldMask = .ok mask
  fields : ∀ f ∈ w.fields, f.Valid
  distinct : (w.fields.map FieldSettings.name).Nodup

structure GroupSettings.Valid (g : GroupSettings) : Prop where
  name : Text.trim g.name ≠ ""
  interval : minInterval ≤ g.intervalMs ∧ g.intervalMs ≤ maxInterval
  classId : ∃ id, g.dataSetClassId = .ok id
  /-- single message mode is for one writer -/
  mask : ∃ mask, g.networkMask = .ok mask ∧
    (mask.contains NetworkMask.singleDataSetMessage = true → g.writers.length = 1)
  nonempty : g.writers ≠ []
  writers : ∀ w ∈ g.writers, w.Valid
  distinct : (g.writers.map WriterSettings.id).Nodup

structure Settings.Valid (s : Settings) : Prop where
  version : s.version = supportedVersion
  publisher : s.publisher.validate = .ok ()
  transport : s.transport.validate = .ok ()
  nonempty : s.groups ≠ []
  groups : ∀ g ∈ s.groups, g.Valid
  distinct : (s.groups.map GroupSettings.name).Nodup

/-! ## Checks -/

/-- a check that may end a computation is passed iff its condition is false -/
theorem check_eq_ok {c : Prop} [Decidable c] {e : Fault} {k : Unit → Except Fault Unit} :
    (if c then Except.error e >>= k else k ()) = .ok () ↔ ¬ c ∧ k () = .ok () := by
  by_cases h : c
  · simp [h, bind, Except.bind]
  · simp [h]

/-- elements pass iff each one does, and no key is met twice -/
theorem each_eq_ok {α κ : Type} [DecidableEq κ] {key : α → κ} {check : α → Except Fault Unit} {repeated : α → Problem}
    {seen : List κ} {xs : List α} :
    each key check repeated seen xs = .ok () ↔
      (∀ x ∈ xs, check x = .ok ()) ∧ (xs.map key).Nodup ∧ ∀ x ∈ xs, key x ∉ seen := by
  induction xs generalizing seen with
  | nil => simp [each]
  | cons x xs ih =>
    rw [each, bind_eq_ok]
    constructor
    · rintro ⟨⟨⟩, hx, hrest⟩
      by_cases hseen : key x ∈ seen
      · simp [hseen, fail] at hrest
      · rw [if_neg hseen, ih] at hrest
        obtain ⟨hxs, hn, hnew⟩ := hrest
        refine ⟨List.forall_mem_cons.2 ⟨hx, hxs⟩, List.nodup_cons.2 ⟨?_, hn⟩, List.forall_mem_cons.2 ⟨hseen, ?_⟩⟩
        · intro hmem
          obtain ⟨y, hy, heq⟩ := List.mem_map.1 hmem
          exact hnew y hy (heq ▸ List.mem_cons_self)
        · intro y hy hmem
          exact hnew y hy (List.mem_cons_of_mem _ hmem)
    · rintro ⟨hpass, hn, hnew⟩
      rw [List.map_cons, List.nodup_cons] at hn
      have hseen : key x ∉ seen := hnew x List.mem_cons_self
      refine ⟨(), hpass x List.mem_cons_self, ?_⟩
      rw [if_neg hseen, ih]
      refine ⟨fun y hy => hpass y (List.mem_cons_of_mem x hy), hn.2, fun y hy hmem => ?_⟩
      rcases List.mem_cons.1 hmem with heq | hmem
      · exact hn.1 (heq ▸ List.mem_map_of_mem hy)
      · exact hnew y (List.mem_cons_of_mem x hy) hmem

theorem FieldSettings.problem?_eq_none (f : FieldSettings) : f.problem? = none ↔ f.Valid := by
  have hname : f.name.isEmpty = false ↔ f.name ≠ "" := by simp
  constructor
  · intro h
    rw [problem?] at h
    by_cases hempty : f.name.isEmpty = true
    · simp [hempty] at h
    · rw [if_neg hempty] at h
      refine ⟨hname.1 (by simpa using hempty), ?_, ?_, ?_⟩
      · intro hs hperiod
        simp [hs, hperiod] at h
      · intro hs
        cases hv : f.value with
        | none => simp [hs, hv] at h
        | some v => exact ⟨v, rfl⟩
      · intro hs
        cases ht : f.text with
        | none => simp [hs, ht] at h
        | some t => exact ⟨t, rfl⟩
  · intro h
    rw [problem?, hname.2 h.name]
    cases hs : f.signal with
    | counter => rfl
    | toggle => rfl
    | sine => simp [h.period hs]
    | constant =>
      obtain ⟨v, hv⟩ := h.value hs
      simp [hv]
    | text =>
      obtain ⟨t, ht⟩ := h.text hs
      simp [ht]

/-- a field passes if it has no problem -/
theorem FieldSettings.report_eq_ok (group : String) (id : UInt16) (f : FieldSettings) :
    (match f.problem? with
      | some p => (fail (.field group id f.name p) : Except Fault Unit)
      | none => .ok ()) = .ok () ↔ f.Valid := by
  rw [← f.problem?_eq_none]
  cases f.problem? <;> simp [fail]

theorem WriterSettings.validate_eq_ok {group : String} {w : WriterSettings} :
    w.validate group = .ok () ↔ w.Valid := by
  have hfield := FieldSettings.report_eq_ok group w.id
  simp only [validate, fail, check_eq_ok, bind_eq_ok, each_eq_ok]
  simp only [fail] at hfield
  constructor
  · rintro ⟨hid, dataSetMask, hdataSet, fieldMask, hfieldMask, hfields, hn, -⟩
    exact ⟨hid, ⟨dataSetMask, hdataSet⟩, ⟨fieldMask, hfieldMask⟩, fun f hf => (hfield f).1 (hfields f hf), hn⟩
  · rintro ⟨hid, ⟨dataSetMask, hdataSet⟩, ⟨fieldMask, hfieldMask⟩, hfields, hn⟩
    exact ⟨hid, dataSetMask, hdataSet, fieldMask, hfieldMask, fun f hf => (hfield f).2 (hfields f hf), hn, by simp⟩

theorem GroupSettings.validate_eq_ok {g : GroupSettings} : g.validate = .ok () ↔ g.Valid := by
  simp only [validate, fail, check_eq_ok, bind_eq_ok, each_eq_ok, WriterSettings.validate_eq_ok, not_or, not_and,
    not_not, UInt64.not_lt, List.isEmpty_iff, String.isEmpty_iff]
  constructor
  · rintro ⟨hname, hinterval, mask, hmask, classId, hclass, hne, hsingle, hwriters, hn, -⟩
    exact ⟨hname, hinterval, ⟨classId, hclass⟩, ⟨mask, hmask, hsingle⟩, hne, hwriters, hn⟩
  · rintro ⟨hname, hinterval, ⟨classId, hclass⟩, ⟨mask, hmask, hsingle⟩, hne, hwriters, hn⟩
    exact ⟨hname, hinterval, mask, hmask, classId, hclass, hne, hsingle, hwriters, hn, by simp⟩

/-- **A configuration passes iff it holds together**: each group and writer by itself, and every name and id once. -/
theorem Settings.validate_eq_ok {s : Settings} : s.validate = .ok () ↔ s.Valid := by
  simp only [validate, fail, check_eq_ok, bind_eq_ok, each_eq_ok, GroupSettings.validate_eq_ok, not_not,
    List.isEmpty_iff, ne_eq]
  constructor
  · rintro ⟨hversion, hne, ⟨⟩, hpublisher, ⟨⟩, htransport, hgroups, hn, -⟩
    exact ⟨hversion, hpublisher, htransport, hne, hgroups, hn⟩
  · rintro ⟨hversion, hpublisher, htransport, hne, hgroups, hn⟩
    exact ⟨hversion, hne, (), hpublisher, (), htransport, hgroups, hn, by simp⟩

end OpcPubSub.Config
