/-
What the series of a family say after one of them was changed, and which series the metrics of a publisher change.

A label list names a series by its labels in order, so two lists of which only one has some label name different series
(`ofList_ne_of_mem`). Everything a publisher counts is counted under lists with the group's label:
- `Family.SameElsewhere`: two states of a family have the same series but for those with a given label.
- `Registry.SameElsewhere`: the same of all families of a publisher, for the label of a group.
- `Tally`: what the series of one group and one transport say. Each thing that can happen to a group has a lemma that
  says how the tally changes (`tally_sampleFailed` and its neighbours).
-/
import Mathlib
import OpcPubSub.Metrics.Registry
import OpcPubSub.Proofs.Metrics.LabelSets

namespace OpcPubSub

/-- among distinct keys a key finds its own value -/
theorem lookup_of_mem {κ α : Type} [BEq κ] [LawfulBEq κ] {entries : List (κ × α)} (hn : (entries.map Prod.fst).Nodup)
    {key : κ} {a : α} (h : (key, a) ∈ entries) : entries.lookup key = some a := by
  obtain ⟨before, after, rfl⟩ := List.append_of_mem h
  rw [List.lookup_eq_some_iff]
  refine ⟨before, after, rfl, ?_⟩
  intro entry hentry
  rw [List.map_append, List.nodup_append] at hn
  have hne := hn.2.2 entry.1 (List.mem_map_of_mem hentry) key (by simp)
  simpa using Ne.symm hne

namespace Code

/-- every code there is -/
def all : List Code :=
  [.writerMisuse, .duplicateField, .singleMessageCount, .invalidValue, .decode, .badConfig, .unsupportedVersion,
    .transport, .internal]

theorem mem_all (c : Code) : c ∈ all := by
  cases c <;> decide

theorem nodup_all : all.Nodup := by
  decide

theorem label_injective : Function.Injective label := by
  intro a b h
  cases a <;> cases b <;> first | rfl | exact absurd h (by decide)

end Code

namespace Metrics

/-! ## Series -/

theorem LabelSet.mem_ofList (l : Label) (labels : List Label) : l ∈ (ofList labels).labels ↔ l ∈ labels :=
  (List.mergeSort_perm labels labelLe).mem_iff

theorem LabelSet.ofList_ne_of_mem {l : Label} {labels others : List Label} (h : l ∈ labels) (hn : l ∉ others) :
    ofList others ≠ ofList labels := by
  intro heq
  rw [← mem_ofList, heq, mem_ofList] at hn
  exact hn h

theorem lookup_modifySeries {α : Type} (key k : LabelSet) (zero : α) (f : α → α) (series : List (LabelSet × α)) :
    (modifySeries key zero f series).lookup k =
      if k = key then some (f ((series.lookup key).getD zero)) else series.lookup k := by
  induction series with
  | nil =>
    by_cases hk : k = key
    · simp [modifySeries, hk]
    · simp [modifySeries, List.lookup_cons, hk, beq_false_of_ne hk]
  | cons entry rest ih =>
    obtain ⟨k', v⟩ := entry
    rw [modifySeries]
    by_cases hkey : k' = key
    · subst hkey
      by_cases hk : k = k'
      · simp [hk]
      · simp [List.lookup_cons, hk, beq_false_of_ne hk]
    · rw [if_neg hkey, List.lookup_cons, ih, List.lookup_cons, List.lookup_cons]
      have hother : (key == k') = false := beq_false_of_ne (Ne.symm hkey)
      rw [hother]
      by_cases hk : k = key
      · subst hk
        simp [hother]
      · cases k == k' <;> simp [hk]

namespace Family

variable {α : Type}

theorem get?_modify (family : Family α) (labels others : List Label) (zero : α) (f : α → α) :
    (family.modify labels zero f).get? others =
      if LabelSet.ofList others = LabelSet.ofList labels then some (f ((family.get? labels).getD zero))
      else family.get? others :=
  lookup_modifySeries _ _ _ _ _

theorem get?_modify_self (family : Family α) (labels : List Label) (zero : α) (f : α → α) :
    (family.modify labels zero f).get? labels = some (f ((family.get? labels).getD zero)) := by
  rw [get?_modify, if_pos rfl]

/-- the same series, but for those that have label `l` -/
def SameElsewhere (l : Label) (before after : Family α) : Prop :=
  ∀ labels, l ∉ labels → after.get? labels = before.get? labels

theorem SameElsewhere.refl (l : Label) (family : Family α) : family.SameElsewhere l family :=
  fun _ _ => rfl

theorem SameElsewhere.trans {l : Label} {a b c : Family α} (h1 : a.SameElsewhere l b) (h2 : b.SameElsewhere l c) :
    a.SameElsewhere l c :=
  fun labels h => (h2 labels h).trans (h1 labels h)

theorem sameElsewhere_modify {l : Label} {labels : List Label} (h : l ∈ labels) (family : Family α) (zero : α)
    (f : α → α) : family.SameElsewhere l (family.modify labels zero f) := by
  intro others hn
  rw [get?_modify, if_neg (LabelSet.ofList_ne_of_mem h hn)]

end Family

theorem Counter.get_add_self (c : Counter) (labels : List Label) (n : UInt64) :
    (c.add labels n).get labels = c.get labels + n := by
  rw [Counter.get, Counter.add, Family.get?_modify_self, Option.getD_some]
  rfl

theorem Counter.get_add_of_mem {l : Label} {labels others : List Label} (c : Counter) (n : UInt64) (h : l ∈ labels)
    (hn : l ∉ others) : (c.add labels n).get others = c.get others := by
  rw [Counter.get, Counter.add, Family.sameElsewhere_modify h c 0 (· + n) others hn]
  rfl

theorem Gauge.get_add_self (g : Gauge) (labels : List Label) (n : Int64) :
    (g.add labels n).get labels = g.get labels + n := by
  rw [Gauge.get, Gauge.add, Family.get?_modify_self, Option.getD_some]
  rfl

theorem Histogram.count_observe_self (h : Histogram) (labels : List Label) (d : Duration) :
    (h.observe labels d).count labels = h.count labels + 1 := by
  rw [Histogram.count, Histogram.observe, Family.get?_modify_self, Histogram.count]
  cases Family.get? h labels <;> rfl

/-! ## The series of a group -/

/-- of a sum over distinct things one term grows by one -/
theorem sum_map_succ {α : Type} {xs : List α} (hn : xs.Nodup) {x : α} (hx : x ∈ xs) {f g : α → UInt64}
    (hself : g x = f x + 1) (hne : ∀ y, y ≠ x → g y = f y) : (xs.map g).sum = (xs.map f).sum + 1 := by
  induction xs with
  | nil => simp at hx
  | cons y ys ih =>
    rw [List.nodup_cons] at hn
    rw [List.map_cons, List.map_cons, List.sum_cons, List.sum_cons]
    rcases List.mem_cons.1 hx with rfl | hx
    · have hrest : ys.map g = ys.map f := by
        apply List.map_congr_left
        intro z hz
        exact hne z fun h => hn.1 (h ▸ hz)
      rw [hself, hrest, UInt64.add_assoc, UInt64.add_comm 1, UInt64.add_assoc]
    · have hy : y ≠ x := fun h => hn.1 (h ▸ hx)
      rw [hne y hy, ih hn.2 hx, UInt64.add_assoc]

/-- what the series of a group say; send errors are those of one transport, and all counts are modulo `2 ^ 64` -/
structure Tally where
  published : UInt64 := 0
  bytes : UInt64 := 0
  /-- of all codes together -/
  sampleErrors : UInt64 := 0
  /-- of all codes together -/
  encodeErrors : UInt64 := 0
  sendErrors : UInt64 := 0
  /-- how many durations of encoding were observed -/
  encoded : UInt64 := 0
deriving DecidableEq

namespace Registry

def tally (r : Registry) (group transport : String) : Tally where
  published := r.messagesPublished.get (groupLabels group)
  bytes := r.bytesSent.get (groupLabels group)
  sampleErrors := (Code.all.map fun code => r.sampleErrors.get (codeLabels group code)).sum
  encodeErrors := (Code.all.map fun code => r.encodeErrors.get (codeLabels group code)).sum
  sendErrors := r.sendErrors.get (transportLabels group transport)
  encoded := r.encodeDuration.count (groupLabels group)

/-- the series of different codes are different -/
theorem code_not_mem {group : String} {code other : Code} (h : other ≠ code) :
    ("code", code.label) ∉ codeLabels group other := by
  intro hmem
  rcases List.mem_cons.1 hmem with heq | hmem
  · simp at heq
  · rw [List.mem_singleton, Prod.mk.injEq] at hmem
    exact h (Code.label_injective hmem.2).symm

/-- one more failure of some code is one more of all codes -/
theorem sum_inc_code (c : Counter) (group : String) (code : Code) :
    (Code.all.map fun other => (c.inc (codeLabels group code)).get (codeLabels group other)).sum =
      (Code.all.map fun other => c.get (codeLabels group other)).sum + 1 := by
  apply sum_map_succ Code.nodup_all (Code.mem_all code)
  · exact c.get_add_self (codeLabels group code) 1
  · intro other h
    exact c.get_add_of_mem 1 (List.mem_cons_of_mem _ List.mem_cons_self) (code_not_mem h)

variable (r : Registry) (group transport : String)

theorem tally_sampleFailed (code : Code) : (r.sampleFailed group code).tally group transport =
    { r.tally group transport with sampleErrors := (r.tally group transport).sampleErrors + 1 } := by
  have hsum := sum_inc_code r.sampleErrors group code
  simp only [tally, sampleFailed, hsum]

theorem tally_encodeFailed (code : Code) : (r.encodeFailed group code).tally group transport =
    { r.tally group transport with encodeErrors := (r.tally group transport).encodeErrors + 1 } := by
  have hsum := sum_inc_code r.encodeErrors group code
  simp only [tally, encodeFailed, hsum]

theorem tally_encoded (time : Duration) : (r.encoded group time).tally group transport =
    { r.tally group transport with encoded := (r.tally group transport).encoded + 1 } := by
  simp only [tally, encoded, Histogram.count_observe_self]

theorem tally_sendFailed : (r.sendFailed group transport).tally group transport =
    { r.tally group transport with sendErrors := (r.tally group transport).sendErrors + 1 } := by
  simp only [tally, sendFailed, Counter.inc, Counter.get_add_self]

theorem tally_sent (bytes : UInt64) : (r.sent group bytes).tally group transport =
    { r.tally group transport with
      published := (r.tally group transport).published + 1
      bytes := (r.tally group transport).bytes + bytes } := by
  simp only [tally, sent, Counter.inc, Counter.get_add_self]

/-- the same series in all families, but for those of a group -/
structure SameElsewhere (group : String) (before after : Registry) : Prop where
  messagesPublished : before.messagesPublished.SameElsewhere ("group", group) after.messagesPublished
  bytesSent : before.bytesSent.SameElsewhere ("group", group) after.bytesSent
  encodeErrors : before.encodeErrors.SameElsewhere ("group", group) after.encodeErrors
  sendErrors : before.sendErrors.SameElsewhere ("group", group) after.sendErrors
  sampleErrors : before.sampleErrors.SameElsewhere ("group", group) after.sampleErrors
  groupsRunning : before.groupsRunning.SameElsewhere ("group", group) after.groupsRunning
  encodeDuration : before.encodeDuration.SameElsewhere ("group", group) after.encodeDuration

namespace SameElsewhere

variable {group : String}

theorem refl (r : Registry) : r.SameElsewhere group r :=
  ⟨.refl _ _, .refl _ _, .refl _ _, .refl _ _, .refl _ _, .refl _ _, .refl _ _⟩

theorem trans {a b c : Registry} (h1 : a.SameElsewhere group b) (h2 : b.SameElsewhere group c) :
    a.SameElsewhere group c where
  messagesPublished := h1.messagesPublished.trans h2.messagesPublished
  bytesSent := h1.bytesSent.trans h2.bytesSent
  encodeErrors := h1.encodeErrors.trans h2.encodeErrors
  sendErrors := h1.sendErrors.trans h2.sendErrors
  sampleErrors := h1.sampleErrors.trans h2.sampleErrors
  groupsRunning := h1.groupsRunning.trans h2.groupsRunning
  encodeDuration := h1.encodeDuration.trans h2.encodeDuration

theorem sampleFailed (r : Registry) (code : Code) : r.SameElsewhere group (r.sampleFailed group code) :=
  { refl r with sampleErrors := Family.sameElsewhere_modify List.mem_cons_self _ _ _ }

theorem encodeFailed (r : Registry) (code : Code) : r.SameElsewhere group (r.encodeFailed group code) :=
  { refl r with encodeErrors := Family.sameElsewhere_modify List.mem_cons_self _ _ _ }

theorem encoded (r : Registry) (time : Duration) : r.SameElsewhere group (r.encoded group time) :=
  { refl r with encodeDuration := Family.sameElsewhere_modify List.mem_cons_self _ _ _ }

theorem sendFailed (r : Registry) (transport : String) : r.SameElsewhere group (r.sendFailed group transport) :=
  { refl r with sendErrors := Family.sameElsewhere_modify List.mem_cons_self _ _ _ }

theorem sent (r : Registry) (bytes : UInt64) : r.SameElsewhere group (r.sent group bytes) :=
  { refl r with
    messagesPublished := Family.sameElsewhere_modify List.mem_cons_self _ _ _
    bytesSent := Family.sameElsewhere_modify List.mem_cons_self _ _ _ }

end SameElsewhere

end Registry

end Metrics

end OpcPubSub
