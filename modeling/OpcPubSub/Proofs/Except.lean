/-
Chains of computations that may fail, taken apart: when the whole of one is a success, so is every part.
-/
import Mathlib.Data.List.Forall2
import OpcPubSub.Error

namespace OpcPubSub

theorem bind_eq_ok {α β : Type} {r : Except Fault α} {f : α → Except Fault β} {y : β} :
    (r >>= f) = .ok y ↔ ∃ x, r = .ok x ∧ f x = .ok y := by
  cases r <;> simp [bind, Except.bind]

theorem map_eq_ok {α β : Type} {r : Except Fault α} {f : α → β} {y : β} :
    r.map f = .ok y ↔ ∃ x, r = .ok x ∧ y = f x := by
  cases r with
  | error e => simp [Except.map]
  | ok x => simp [Except.map, eq_comm]

/-- a list is mapped to the results of its elements, in order -/
theorem forall₂_of_mapM {α β : Type} {f : α → Except Fault β} {xs : List α} {ys : List β} (h : xs.mapM f = .ok ys) :
    List.Forall₂ (fun x y => f x = .ok y) xs ys := by
  induction xs generalizing ys with
  | nil =>
    cases h
    exact .nil
  | cons x xs ih =>
    rw [List.mapM_cons] at h
    obtain ⟨y, hy, hrest⟩ := bind_eq_ok.1 h
    obtain ⟨rest, hxs, hys⟩ := bind_eq_ok.1 hrest
    cases hys
    exact .cons hy (ih hxs)

/-- if every element has a result, so has the list -/
theorem exists_mapM {α β : Type} {f : α → Except Fault β} {xs : List α} (h : ∀ x ∈ xs, ∃ y, f x = .ok y) :
    ∃ ys, xs.mapM f = .ok ys := by
  induction xs with
  | nil => exact ⟨[], rfl⟩
  | cons x xs ih =>
    obtain ⟨y, hy⟩ := h x List.mem_cons_self
    obtain ⟨ys, hys⟩ := ih fun z hz => h z (List.mem_cons_of_mem x hz)
    refine ⟨y :: ys, ?_⟩
    rw [List.mapM_cons, hy, hys]
    rfl

/-- and if the results are as `R` says, so are those of the list -/
theorem exists_mapM_forall₂ {α β : Type} {R : α → β → Prop} {f : α → Except Fault β} {xs : List α}
    (h : ∀ x ∈ xs, ∃ y, f x = .ok y ∧ R x y) : ∃ ys, xs.mapM f = .ok ys ∧ List.Forall₂ R xs ys := by
  obtain ⟨ys, hys⟩ := exists_mapM fun x hx => (h x hx).imp fun _ => And.left
  refine ⟨ys, hys, ((List.forall₂_and_left _ _).2 ⟨h, forall₂_of_mapM hys⟩).imp ?_⟩
  rintro x y ⟨⟨z, hz, hxz⟩, hy⟩
  rw [hz] at hy
  cases hy
  exact hxz

theorem mapM_eq_of_forall₂ {α β γ : Type} {f : α → Except Fault γ} {g : β → Except Fault γ} {xs : List α} {ys : List β}
    (h : List.Forall₂ (fun x y => f x = g y) xs ys) : xs.mapM f = ys.mapM g := by
  induction h with
  | nil => rfl
  | cons hxy _ ih => rw [List.mapM_cons, List.mapM_cons, hxy, ih]

end OpcPubSub
