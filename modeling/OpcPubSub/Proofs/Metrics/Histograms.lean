/-
Histograms over whole runs of observations.

What a series holds is a tally of the microseconds that were observed under its labels, in any order of the labels:
their number, their sum and, for each bound, how many are at most the bound (`Distribution.tally`). Counters are words
of 64 bits, so all of it is modulo `2 ^ 64`. Main results:
- `Distribution.observe_tally`: one observation more is one number more in the tally.
- `Distribution.lines_eq`: the lines of a series, as samples. The bucket without a bound has the number of observations.
- `Histogram.tallied`: after any run of observations every series is the tally of its own, and as long as it has fewer
  than `2 ^ 64` of them its buckets rise with their bounds, up to the number of observations.
-/
import OpcPubSub.Proofs.Metrics.Exposition
import OpcPubSub.Proofs.Metrics.Runs

namespace OpcPubSub.Metrics

/-! ## One series -/

namespace Distribution

/-- what there is to say about these numbers of microseconds, modulo `2 ^ 64` -/
def tally (ms : List ℕ) : Distribution where
  count := .ofNat ms.length
  sum := .ofNat ms.sum
  buckets := bounds.map fun bound => (.ofNat (ms.countP fun m => m ≤ bound.toNat), bound)

/-- the lines of a series as samples -/
def samples (d : Distribution) (name : String) (labels : List Label) : List Sample :=
  let bucket (bound : String) (n : UInt64) : Sample := ⟨name ++ "_bucket", labels ++ [("le", bound)], n.toNat⟩
  d.buckets.map (fun (n, bound) => bucket (Text.decimal bound.toNat) n) ++
    [bucket "+Inf" d.count, ⟨name ++ "_sum", labels, d.sum.toNat⟩, ⟨name ++ "_count", labels, d.count.toNat⟩]

/-- buckets never fall from one bound to the next, and none holds more than there are observations -/
structure Rising (d : Distribution) : Prop where
  buckets : (d.buckets.map Prod.fst).Pairwise (· ≤ ·)
  count : ∀ b ∈ d.buckets, b.1 ≤ d.count

theorem tally_nil : tally [] = empty := by
  decide

/-- **One observation more is one number more.** -/
theorem observe_tally (ms : List ℕ) (micros : UInt64) :
    (tally ms).observe micros = tally (ms ++ [micros.toNat]) := by
  have hbucket : ∀ bound : UInt64,
      (if micros ≤ bound then UInt64.ofNat (ms.countP fun m => m ≤ bound.toNat) + 1
        else UInt64.ofNat (ms.countP fun m => m ≤ bound.toNat)) =
      UInt64.ofNat ((ms ++ [micros.toNat]).countP fun m => m ≤ bound.toNat) := by
    intro bound
    rw [List.countP_append, List.countP_singleton]
    by_cases h : micros ≤ bound
    · have hle : micros.toNat ≤ bound.toNat := h
      simp [h, hle, UInt64.ofNat_add]
    · have hle : ¬micros.toNat ≤ bound.toNat := h
      simp [h, hle]
  simp only [observe, tally, List.map_map, List.length_append, List.length_singleton, List.sum_append,
    List.sum_singleton, UInt64.ofNat_add, UInt64.ofNat_toNat]
  refine congrArg₂ (mk · _ ·) rfl ?_
  exact List.map_congr_left fun bound _ => congrArg (·, bound) (hbucket bound)

theorem bounds_rise : bounds.Pairwise (· ≤ ·) := by
  decide

/-- as long as nothing wraps, the buckets of a tally rise with their bounds -/
theorem rising_tally {ms : List ℕ} (h : ms.length < 2 ^ 64) : (tally ms).Rising := by
  have hcount : ∀ bound : UInt64, (UInt64.ofNat (ms.countP fun m => m ≤ bound.toNat)).toNat =
      ms.countP fun m => m ≤ bound.toNat := by
    intro bound
    have hle : (ms.countP fun m => m ≤ bound.toNat) ≤ ms.length := List.countP_le_length
    exact UInt64.toNat_ofNat_of_lt' (hle.trans_lt h)
  constructor
  · rw [tally, List.map_map, List.pairwise_map]
    refine bounds_rise.imp fun {a b} hab => ?_
    have hab' : a.toNat ≤ b.toNat := hab
    rw [Function.comp_apply, Function.comp_apply, UInt64.le_iff_toNat_le, hcount, hcount]
    exact List.countP_mono_left fun m _ hm => decide_eq_true ((of_decide_eq_true hm).trans hab')
  · intro b hb
    obtain ⟨bound, -, rfl⟩ := List.mem_map.1 hb
    rw [UInt64.le_iff_toNat_le, hcount, tally, UInt64.toNat_ofNat_of_lt' h]
    exact List.countP_le_length

end Distribution

/-! ## Lines -/

namespace LabelSet

/-- one more label at the end of a text -/
theorem text_snoc (ls : List Label) (l : Label) :
    (⟨ls ++ [l]⟩ : LabelSet).text =
      (if (⟨ls⟩ : LabelSet).text.isEmpty then "" else (⟨ls⟩ : LabelSet).text ++ ",") ++ labelText l := by
  cases ls with
  | nil => simp [text]
  | cons m ls =>
    have hne : (⟨m :: ls⟩ : LabelSet).text.isEmpty = false := by
      rw [String.isEmpty_eq_false_iff, ne_eq, ← String.toList_inj, Sample.text_cons]
      simp [labelText]
    rw [hne, ← String.toList_inj, List.cons_append, Sample.text_cons]
    simp [Sample.text_cons, Sample.further, String.toList_append]

theorem escapeChar_of_isDigit {c : Char} (h : c.isDigit = true) : escapeChar c = [c] := by
  unfold escapeChar
  split_ifs with h1 h2 h3
  · subst h1
    cases h
  · subst h2
    cases h
  · subst h3
    cases h
  · rfl

/-- a bound of a bucket, which needs no escapes -/
theorem labelText_bound (n : ℕ) : labelText ("le", Text.decimal n) = "le=\"" ++ Text.decimal n ++ "\"" := by
  have hplain : (Text.decimal n).toList.flatMap escapeChar = (Text.decimal n).toList := by
    have hdigits : (Text.decimal n).toList = Text.digits n := by
      rw [Text.decimal, if_neg (by omega), String.toList_ofList, Int.natAbs_natCast]
    rw [hdigits]
    conv_rhs => rw [← List.flatMap_singleton' (Text.digits n)]
    exact List.flatMap_congr fun c hc => escapeChar_of_isDigit (Text.isDigit_of_mem_digits hc)
  rw [labelText, hplain, String.ofList_toList]
  rfl

end LabelSet

/-- **The lines of a series**: its buckets, the bucket without a bound, its sum and its number of observations. -/
theorem Distribution.lines_eq (d : Distribution) (name : String) (labels : List Label) :
    d.lines name ⟨labels⟩ = (d.samples name labels).map Sample.line := by
  have htext : ∀ bound : String, LabelSet.labelText ("le", bound) = "le=\"" ++ bound ++ "\"" →
      (if (⟨labels⟩ : LabelSet).text.isEmpty then "" else (⟨labels⟩ : LabelSet).text ++ ",") ++
        "le=\"" ++ bound ++ "\"" = (⟨labels ++ [("le", bound)]⟩ : LabelSet).text := by
    intro bound h
    rw [LabelSet.text_snoc, h]
    simp only [String.append_assoc]
  have hinf := htext "+Inf" rfl
  have hbucket (bound : ℕ) := htext (Text.decimal bound) (LabelSet.labelText_bound bound)
  simp only [lines, samples, List.map_append, List.map_map, List.map_cons, List.map_nil, Function.comp_def,
    Sample.line, hinf, hbucket]

/-! ## Runs of observations -/

namespace Histogram

/-- what was observed, under which labels, one after the other -/
abbrev Observations := List (List Label × Duration)

/-- a histogram after these observations -/
def after (observations : Observations) : Histogram := observations.foldl (fun h o => h.observe o.1 o.2) {}

/-- the whole microseconds observed under these labels in any order, each as many as 64 bits hold -/
def micros (observations : Observations) (labels : List Label) : List ℕ :=
  (observations.filter fun o => o.1.isPerm labels).map fun o => min (o.2.nanos / 1000) (2 ^ 64 - 1)

/-- a series, empty if it was never touched -/
def cell (h : Histogram) (labels : List Label) : Distribution := (h.get? labels).getD .empty

theorem count_eq_cell (h : Histogram) (labels : List Label) : h.count labels = (h.cell labels).count := by
  rw [count, cell]
  cases Family.get? h labels <;> rfl

theorem toNat_micros (d : Duration) : d.micros.toNat = min (d.nanos / 1000) (2 ^ 64 - 1) := by
  apply UInt64.toNat_ofNat_of_lt'
  exact (min_le_right _ _).trans_lt (by decide)

/-- a tally of numbers, and then one observation after the other -/
theorem foldl_observe (ms : List ℕ) (durations : List Duration) :
    durations.foldl (fun d time => d.observe time.micros) (Distribution.tally ms) =
      Distribution.tally (ms ++ durations.map fun time => min (time.nanos / 1000) (2 ^ 64 - 1)) := by
  induction durations generalizing ms with
  | nil => rw [List.foldl_nil, List.map_nil, List.append_nil]
  | cons time durations ih =>
    rw [List.foldl_cons, Distribution.observe_tally, ih, toNat_micros, List.map_cons, List.append_assoc,
      List.singleton_append]

/-- **A series is the tally of its observations.** -/
theorem cell_after (observations : Observations) (labels : List Label) :
    (after observations).cell labels = Distribution.tally (micros observations labels) := by
  have hrun := Family.getD_run Distribution.empty (fun (time : Duration) d => d.observe time.micros)
    observations {} labels
  have hfold := foldl_observe [] ((observations.filter fun o => o.1.isPerm labels).map Prod.snd)
  rw [Distribution.tally_nil, List.foldl_map, List.nil_append, List.map_map] at hfold
  exact hrun.trans hfold

theorem keys_after (observations : Observations) :
    Keys (Family.keys (after observations)) (observations.map Prod.fst) := by
  have hempty : Keys (Family.keys ({} : Histogram)) [] := Keys.nil
  exact hempty.run Distribution.empty (fun (time : Duration) d => d.observe time.micros) observations

/-- the lines of a series that was touched are among those of its family -/
theorem lines_infix {observations : Observations} {labels : List Label} (h : micros observations labels ≠ [])
    (name : String) :
    ((after observations).cell labels).lines name (.ofList labels) <:+: (after observations).lines name := by
  have hkeys := keys_after observations
  obtain ⟨m, hm⟩ := List.exists_mem_of_ne_nil _ h
  obtain ⟨o, ho, -⟩ := List.mem_map.1 hm
  obtain ⟨ho, hperm⟩ := List.mem_filter.1 ho
  have hkey : LabelSet.ofList labels ∈ Family.keys (after observations) := by
    rw [hkeys.mem_iff, ← LabelSet.ofList_eq_iff.2 (List.isPerm_iff.1 hperm)]
    exact List.mem_map_of_mem (List.mem_map_of_mem ho)
  have hentry : (LabelSet.ofList labels, (after observations).cell labels) ∈ (after observations).series := by
    rw [hkeys.series_eq Distribution.empty, List.mem_map]
    refine ⟨.ofList labels, hkey, ?_⟩
    rw [cell, Family.get?, Family.get?, LabelSet.ofList_labels]
  have hlines := List.infix_of_mem_flatten (List.mem_map_of_mem
    (f := fun (entry : LabelSet × Distribution) => entry.2.lines name entry.1) hentry)
  rw [lines, List.flatMap_def]
  exact hlines.trans (List.suffix_cons _ _).isInfix

/-- **After any run of observations every series tells of its own observations**: how many there were, their sum and, for
each bound, how many did not exceed it, modulo `2 ^ 64`. Below `2 ^ 64` observations of its own its buckets rise up to
their number. A report shows these numbers, and the bucket without a bound is the number of observations. -/
theorem tallied (observations : Observations) (labels : List Label) :
    let h := after observations
    let ms := micros observations labels
    h.count labels = .ofNat ms.length ∧
      h.cell labels = .tally ms ∧
      (ms.length < 2 ^ 64 → (h.cell labels).Rising) ∧
      ∀ name, (ms ≠ [] → (h.cell labels).lines name (.ofList labels) <:+: h.lines name) ∧
        (h.cell labels).lines name (.ofList labels) =
          ((h.cell labels).samples name (LabelSet.ofList labels).labels).map Sample.line := by
  intro h ms
  have hcell : h.cell labels = .tally ms := cell_after observations labels
  refine ⟨?_, hcell, ?_, fun name => ⟨fun htouched => lines_infix htouched name, ?_⟩⟩
  · rw [count_eq_cell, hcell]
    rfl
  · intro hlength
    rw [hcell]
    exact Distribution.rising_tally hlength
  · exact Distribution.lines_eq _ name _

end Histogram

end OpcPubSub.Metrics
