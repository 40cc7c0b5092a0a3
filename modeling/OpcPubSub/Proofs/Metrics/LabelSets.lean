/-
Label sets: what they tell apart, and what their values are escaped to.

Labels are sorted by name and then by value, a linear order, so sorting forgets the order in which labels were given and
nothing else. Main results:
- `ofList_eq_iff`: two lists of labels name the same series iff one is a permutation of the other.
- `escaped_eq_replaced`: escaping a value is replacing backslashes first, then quotes, then line feeds. In another order
  the backslashes of the escapes would be escaped once more.
-/
import Mathlib
import OpcPubSub.Metrics.Labels

namespace OpcPubSub.Metrics

/-! ## The order of labels -/

theorem labelLe_iff (a b : Label) : labelLe a b = true ↔ toLex a ≤ toLex b := by
  simp [labelLe, Prod.Lex.toLex_le_toLex]

namespace LabelSet

theorem pairwise_ofList (labels : List Label) :
    (ofList labels).labels.Pairwise fun a b => labelLe a b = true := by
  apply List.pairwise_mergeSort
  · intro a b c hab hbc
    rw [labelLe_iff] at *
    exact hab.trans hbc
  · intro a b
    rw [Bool.or_eq_true, labelLe_iff, labelLe_iff]
    exact le_total _ _

theorem perm_ofList (labels : List Label) : (ofList labels).labels.Perm labels :=
  List.mergeSort_perm labels labelLe

/-- **Two lists name the same series iff one is a permutation of the other.** -/
theorem ofList_eq_iff {a b : List Label} : ofList a = ofList b ↔ a.Perm b := by
  constructor
  · intro h
    exact (perm_ofList a).symm.trans (h ▸ perm_ofList b)
  · intro h
    have hsorted : (ofList a).labels.Perm (ofList b).labels :=
      (perm_ofList a).trans (h.trans (perm_ofList b).symm)
    rw [mk.injEq]
    apply hsorted.eq_of_pairwise _ (pairwise_ofList a) (pairwise_ofList b)
    intro x y _ _ hxy hyx
    rw [labelLe_iff] at hxy hyx
    exact toLex_inj.1 (le_antisymm hxy hyx)

theorem ofList_labels (labels : List Label) : ofList (ofList labels).labels = ofList labels :=
  ofList_eq_iff.2 (perm_ofList labels)

/-! ## Escapes -/

/-- every `c` of a text replaced -/
def replaced (c : Char) (new : List Char) (cs : List Char) : List Char :=
  cs.flatMap fun d => if d = c then new else [d]

/-- **Escaping is three replacements, the backslashes first.** -/
theorem escaped_eq_replaced (cs : List Char) :
    cs.flatMap escapeChar = replaced '\n' ['\\', 'n'] (replaced '"' ['\\', '"'] (replaced '\\' ['\\', '\\'] cs)) := by
  simp only [replaced, List.flatMap_assoc]
  refine congrArg cs.flatMap (funext fun c => ?_)
  unfold escapeChar
  split_ifs with h1 h2 h3 <;> simp_all

end LabelSet

end OpcPubSub.Metrics
