/-
Counters and gauges over whole runs of calls.

A call adds an amount to the series of its labels: a counter takes words of 64 bits, a gauge signed ones. What a series
holds is the word of what the amounts under its labels come to as whole numbers, whatever the order of the labels and
of the calls. So nothing is lost but what a word cannot hold. Main results:
- `Family.getD_added`: words that add as their numbers do hold the word of the exact total.
- `totalled`: what counters and gauges hold after any calls, and after the same calls in another order.
-/
import OpcPubSub.Proofs.Metrics.Runs

namespace OpcPubSub.Metrics

/-! ## Exact totals -/

section

variable {ν α : Type} [AddCommMonoid ν] [Add α] {word : ν → α} {changes : List (List Label × ν)} {labels : List Label}

/-- what the amounts under these labels come to; the labels may have been given in any order -/
def total (changes : List (List Label × ν)) (labels : List Label) : ν :=
  ((changes.filter fun c => c.1.isPerm labels).map Prod.snd).sum

theorem total_eq_zero (h : ∀ c ∈ changes, ¬c.1.Perm labels) : total changes labels = 0 := by
  have hnone : changes.filter (fun c => c.1.isPerm labels) = [] := by
    rw [List.filter_eq_nil_iff]
    intro c hc hperm
    exact h c hc (List.isPerm_iff.1 hperm)
  rw [total, hnone, List.map_nil, List.sum_nil]

theorem total_perm {others : List (List Label × ν)} (h : changes.Perm others) (labels : List Label) :
    total changes labels = total others labels :=
  ((h.filter _).map _).sum_eq

/-- words added one after the other are the word of the exact sum -/
theorem foldl_word (hadd : ∀ m n, word (m + n) = word m + word n) (m : ν) (amounts : List ν) :
    amounts.foldl (fun v n => v + word n) (word m) = word (m + amounts.sum) := by
  induction amounts generalizing m with
  | nil => rw [List.foldl_nil, List.sum_nil, add_zero]
  | cons n amounts ih => rw [List.foldl_cons, ← hadd, ih, List.sum_cons, add_assoc]

/-- **A series holds the word of its exact total**, if every call adds the word of an amount to the series of its
labels -/
theorem Family.getD_added {κ : Type} {step : Family α → κ → Family α} {change : κ → List Label × ν}
    (hadd : ∀ m n, word (m + n) = word m + word n)
    (hstep : ∀ family k, step family k = family.modify (change k).1 (word 0) (· + word (change k).2))
    (calls : List κ) (labels : List Label) :
    ((calls.foldl step {}).get? labels).getD (word 0) = word (total (calls.map change) labels) := by
  have hrun : calls.foldl step {} = Family.run (word 0) (fun n v => v + word n) (calls.map change) {} := by
    rw [Family.run, List.foldl_map]
    exact congrArg (calls.foldl · {}) (funext fun family => funext fun k => hstep family k)
  have hfold := foldl_word hadd 0 (((calls.map change).filter fun c => c.1.isPerm labels).map Prod.snd)
  rw [List.foldl_map, zero_add] at hfold
  rw [hrun, Family.getD_run]
  exact hfold

end

/-! ## Counters -/

namespace Counter

inductive Call where
  | inc (labels : List Label)
  | add (labels : List Label) (n : UInt64)

/-- the labels of a call, and by how much it raises their series -/
def Call.change : Call → List Label × ℕ
  | inc labels => (labels, 1)
  | add labels n => (labels, n.toNat)

def call (c : Counter) : Call → Counter
  | .inc labels => c.inc labels
  | .add labels n => c.add labels n

/-- a counter after these calls, one after the other -/
def after (calls : List Call) : Counter := calls.foldl call {}

theorem call_eq_modify (c : Counter) (k : Call) :
    c.call k = Family.modify c k.change.1 (.ofNat 0) (· + .ofNat k.change.2) := by
  cases k with
  | inc labels => rfl
  | add labels n =>
    rw [Call.change, UInt64.ofNat_toNat]
    rfl

theorem get_after (calls : List Call) (labels : List Label) :
    (after calls).get labels = .ofNat (total (calls.map Call.change) labels) :=
  Family.getD_added UInt64.ofNat_add call_eq_modify calls labels

end Counter

/-! ## Gauges -/

namespace Gauge

inductive Call where
  | inc (labels : List Label)
  | dec (labels : List Label)
  | add (labels : List Label) (n : Int64)

/-- the labels of a call, and by how much it moves their series -/
def Call.change : Call → List Label × ℤ
  | inc labels => (labels, 1)
  | dec labels => (labels, -1)
  | add labels n => (labels, n.toInt)

def call (g : Gauge) : Call → Gauge
  | .inc labels => g.inc labels
  | .dec labels => g.dec labels
  | .add labels n => g.add labels n

/-- a gauge after these calls, one after the other -/
def after (calls : List Call) : Gauge := calls.foldl call {}

theorem call_eq_modify (g : Gauge) (k : Call) :
    g.call k = Family.modify g k.change.1 (.ofInt 0) (· + .ofInt k.change.2) := by
  cases k with
  | inc labels => rfl
  | dec labels => rfl
  | add labels n =>
    rw [Call.change, Int64.ofInt_toInt]
    rfl

theorem get_after (calls : List Call) (labels : List Label) :
    (after calls).get labels = .ofInt (total (calls.map Call.change) labels) :=
  Family.getD_added Int64.ofInt_add call_eq_modify calls labels

end Gauge

/-! ## Runs of calls -/

/-- **Counters and gauges lose nothing.** After any calls a series holds what the amounts of its own calls come to,
modulo `2 ^ 64`, those being the calls whose labels are a permutation of its labels; without any it is zero. The same
calls in another order leave every series as it is. -/
theorem totalled :
    (∀ (calls : List Counter.Call) (labels : List Label),
      ((Counter.after calls).get labels).toNat = total (calls.map Counter.Call.change) labels % 2 ^ 64 ∧
      ((∀ c ∈ calls, ¬c.change.1.Perm labels) → (Counter.after calls).get labels = 0) ∧
      ∀ others, others.Perm calls → (Counter.after others).get labels = (Counter.after calls).get labels) ∧
    ∀ (calls : List Gauge.Call) (labels : List Label),
      ((Gauge.after calls).get labels).toInt = (total (calls.map Gauge.Call.change) labels).bmod (2 ^ 64) ∧
      ((∀ c ∈ calls, ¬c.change.1.Perm labels) → (Gauge.after calls).get labels = 0) ∧
      ∀ others, others.Perm calls → (Gauge.after others).get labels = (Gauge.after calls).get labels := by
  constructor
  · intro calls labels
    refine ⟨?_, fun hnone => ?_, fun others hperm => ?_⟩
    · rw [Counter.get_after, UInt64.toNat_ofNat']
    · rw [Counter.get_after, total_eq_zero (by simpa using hnone)]
      rfl
    · rw [Counter.get_after, Counter.get_after, total_perm (hperm.map _)]
  · intro calls labels
    refine ⟨?_, fun hnone => ?_, fun others hperm => ?_⟩
    · have hsize : Int64.size = 2 ^ 64 := rfl
      rw [Gauge.get_after, Int64.toInt_ofInt, hsize]
    · rw [Gauge.get_after, total_eq_zero (by simpa using hnone)]
      rfl
    · rw [Gauge.get_after, Gauge.get_after, total_perm (hperm.map _)]

/-- amounts that a word cannot hold, under the labels of one series in both orders, and a series that is not touched -/
theorem totalled_wrapping :
    ((Counter.after [.add (transportLabels "a" "b") 18446744073709551615, .inc (groupLabels "a"),
      .add (transportLabels "a" "b").reverse 3]).get (transportLabels "a" "b")).toNat = 2 ∧
    (Counter.after [.inc (groupLabels "a")]).get (groupLabels "a" ++ groupLabels "a") = 0 ∧
    (Gauge.after [.dec (groupLabels "a"), .add (groupLabels "a") (-9223372036854775808)]).get (groupLabels "a") =
      (Gauge.after [.add (groupLabels "a") (-9223372036854775808), .dec (groupLabels "a")]).get (groupLabels "a") ∧
    ((Gauge.after [.add (groupLabels "a") (-9223372036854775808), .dec (groupLabels "a")]).get
      (groupLabels "a")).toInt = 9223372036854775807 := by
  refine ⟨?_, ?_, ?_, ?_⟩
  · exact (totalled.1 _ _).1.trans (by decide +kernel)
  · exact (totalled.1 _ _).2.1 (by decide)
  · exact (totalled.2 _ _).2.2 _ (List.Perm.swap _ _ _)
  · exact (totalled.2 _ _).1.trans (by decide +kernel)

end OpcPubSub.Metrics
