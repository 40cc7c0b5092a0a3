/-
Runs of changes to a family.

Each change names a series by its labels. After any run there is one series for each label set that was touched (`Keys`),
and it holds what the changes of its own labels make of zero, in whatever order the labels were given. Main results:
- `Keys.modify`: one change touches one label set.
- `keys_run`, `getD_run`: the same of whole runs, for the label sets and for what their series hold.
- `Keys.series_eq`: the series of a family, as its label sets and what a lookup says of them.
-/
import OpcPubSub.Proofs.Metrics.Series

namespace OpcPubSub.Metrics

/-- label sets, each once, that are those of these lists of labels -/
structure Keys (keys : List LabelSet) (touched : List (List Label)) : Prop where
  nodup : keys.Nodup
  mem_iff : ∀ key, key ∈ keys ↔ key ∈ touched.map LabelSet.ofList

theorem Keys.nil : Keys [] [] :=
  ⟨List.nodup_nil, fun _ => Iff.rfl⟩

namespace Family

variable {α β : Type}

/-- the label sets with a series -/
def keys (family : Family α) : List LabelSet := family.series.map Prod.fst

/-- a family after changes, one after the other -/
def run (zero : α) (f : β → α → α) (changes : List (List Label × β)) (family : Family α) : Family α :=
  changes.foldl (fun family c => family.modify c.1 zero (f c.2)) family

theorem keys_modifySeries (key : LabelSet) (zero : α) (f : α → α) (series : List (LabelSet × α)) :
    (modifySeries key zero f series).map Prod.fst =
      if key ∈ series.map Prod.fst then series.map Prod.fst else series.map Prod.fst ++ [key] := by
  induction series with
  | nil => rfl
  | cons entry rest ih =>
    rw [modifySeries]
    by_cases hkey : entry.1 = key
    · rw [if_pos hkey, if_pos (by simp [hkey])]
      rfl
    · rw [if_neg hkey, List.map_cons, ih, List.map_cons]
      simp only [List.mem_cons, Ne.symm hkey, false_or]
      split_ifs <;> rfl

end Family

namespace Keys

variable {α β : Type} {family : Family α} {touched : List (List Label)}

/-- **One change touches one label set.** -/
theorem modify (h : Keys family.keys touched) (labels : List Label) (zero : α) (f : α → α) :
    Keys (family.modify labels zero f).keys (touched ++ [labels]) := by
  have hkeys : (family.modify labels zero f).keys =
      if LabelSet.ofList labels ∈ family.keys then family.keys else family.keys ++ [.ofList labels] :=
    Family.keys_modifySeries (.ofList labels) zero f family.series
  rw [hkeys]
  split_ifs with hold
  · refine ⟨h.nodup, fun key => ?_⟩
    rw [List.map_append, List.mem_append, ← h.mem_iff]
    constructor
    · exact Or.inl
    · rintro (hkey | hkey)
      · exact hkey
      · rw [List.map_singleton, List.mem_singleton] at hkey
        exact hkey ▸ hold
  · refine ⟨List.nodup_append.2 ⟨h.nodup, List.nodup_singleton _, ?_⟩, fun key => ?_⟩
    · rintro key hkey other hother rfl
      exact hold (List.mem_singleton.1 hother ▸ hkey)
    · rw [List.map_append, List.mem_append, List.mem_append, h.mem_iff, List.map_singleton]

/-- the label sets after a whole run -/
theorem run (h : Keys family.keys touched) (zero : α) (f : β → α → α) (changes : List (List Label × β)) :
    Keys (family.run zero f changes).keys (touched ++ changes.map Prod.fst) := by
  induction changes generalizing family touched with
  | nil => simpa [Family.run] using h
  | cons c changes ih =>
    have hrest := ih (h.modify c.1 zero (f c.2))
    rw [List.append_assoc] at hrest
    exact hrest

/-- the labels of a label set are those of some list in order, so they name the label set -/
theorem ofList_labels {keys : List LabelSet} (h : Keys keys touched) {key : LabelSet} (hkey : key ∈ keys) :
    .ofList key.labels = key := by
  obtain ⟨labels, -, rfl⟩ := List.mem_map.1 ((h.mem_iff key).1 hkey)
  exact LabelSet.ofList_labels labels

/-- **The series of a family** are its label sets, each with what a lookup says. -/
theorem series_eq (h : Keys family.keys touched) (zero : α) :
    family.series = family.keys.map fun key => (key, (family.get? key.labels).getD zero) := by
  have hentry : ∀ entry ∈ family.series, id entry = (entry.1, (family.get? entry.1.labels).getD zero) := by
    intro entry hmem
    rw [Family.get?, h.ofList_labels (List.mem_map_of_mem hmem), lookup_of_mem h.nodup hmem]
    rfl
  calc family.series = family.series.map id := (List.map_id _).symm
    _ = family.series.map fun entry => (entry.1, (family.get? entry.1.labels).getD zero) := List.map_congr_left hentry
    _ = _ := by rw [Family.keys, List.map_map]; rfl

end Keys

/-- what a series holds after a run is what the changes of its labels made of it, whatever their order in a list -/
theorem Family.getD_run {α β : Type} (zero : α) (f : β → α → α) (changes : List (List Label × β)) (family : Family α)
    (labels : List Label) :
    ((family.run zero f changes).get? labels).getD zero =
      (changes.filter fun c => c.1.isPerm labels).foldl (fun v c => f c.2 v) ((family.get? labels).getD zero) := by
  induction changes generalizing family with
  | nil => rfl
  | cons c changes ih =>
    have hstep : ((family.modify c.1 zero (f c.2)).get? labels).getD zero =
        if c.1.isPerm labels = true then f c.2 ((family.get? labels).getD zero) else (family.get? labels).getD zero := by
      rw [get?_modify]
      by_cases hperm : c.1.Perm labels
      · have hset := LabelSet.ofList_eq_iff.2 hperm
        rw [if_pos hset.symm, if_pos (List.isPerm_iff.2 hperm), Option.getD_some, get?, get?, hset]
      · have hset : ¬LabelSet.ofList labels = LabelSet.ofList c.1 := fun h => hperm (LabelSet.ofList_eq_iff.1 h.symm)
        rw [if_neg hset, if_neg fun h => hperm (List.isPerm_iff.1 h)]
    rw [run, List.foldl_cons, ← run, ih, hstep, List.filter_cons]
    split_ifs <;> rfl

end OpcPubSub.Metrics
