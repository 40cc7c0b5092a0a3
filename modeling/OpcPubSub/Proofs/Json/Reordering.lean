/-
Documents that differ in the order of members only.

Some objects have an order that counts, so it takes a reader to say which may be rearranged: a `Role` tells what a value
is to the reader, and what the values inside it are. `Reordered role j k` then says that `k` is `j` with the members of
its objects in another order, at any depth, where objects in the role of a payload keep theirs. Main results:
- `Same.view`: where no object repeats a name, what a name stands for does not depend on the order.
- `Reordered.legible_iff`, `Reordered.repeated?_eq_none_iff`: nor does it depend on the order whether the document is
  nested too deeply, has an integer that stands for nothing or repeats a name.
-/
import OpcPubSub.Proofs.Json.Legible

namespace OpcPubSub

/-- what a value of a document is to a reader -/
inductive Role where
  /-- an object whose `Messages` are in a role of their own -/
  | envelope (messages : Role)
  /-- an array of values that are all in one role -/
  | list (item : Role)
  /-- an object that has a payload among its members -/
  | dataSet
  /-- an object whose members are in an order that counts -/
  | payload
  | other
deriving DecidableEq

namespace Role

/-- the role of a member -/
def member : Role → String → Role
  | envelope messages, name => if name = "Messages" then messages else other
  | dataSet, name => if name = "Payload" then payload else other
  | _, _ => other

/-- the role of an item -/
def item : Role → Role
  | list item => item
  | _ => other

end Role

namespace Json

mutual

/-- the same document but for the order of members where it does not count -/
def Reordered (role : Role) : Json → Json → Prop
  | .atom a, .atom b => a = b
  | .array items, .array items' => ReorderedItems role.item items items'
  | .object ms, .object ms' => ∃ ns, ReorderedMembers role ms ns ∧ if role = .payload then ns = ms' else ns.Perm ms'
  | _, _ => False

/-- items in their order, each the same but for the order of members -/
def ReorderedItems (role : Role) : List Json → List Json → Prop
  | [], [] => True
  | j :: js, k :: ks => Reordered role j k ∧ ReorderedItems role js ks
  | _, _ => False

/-- members in their order, each with its name and a value that is the same but for the order of members -/
def ReorderedMembers (role : Role) : List (String × Json) → List (String × Json) → Prop
  | [], [] => True
  | (name, j) :: ms, (name', k) :: ns => name' = name ∧ Reordered (role.member name) j k ∧ ReorderedMembers role ms ns
  | _, _ => False

end

/-- members in their order, and then in another -/
theorem reordered_object {role : Role} {ms ns ms' : Members} (hrole : role ≠ .payload) (hperm : ns.Perm ms')
    (h : ReorderedMembers role ms ns) : Reordered role (.object ms) (.object ms') := by
  refine ⟨ns, h, ?_⟩
  rw [if_neg hrole]
  exact hperm

theorem reordered_payload {ms ns : Members} (h : ReorderedMembers .payload ms ns) :
    Reordered .payload (.object ms) (.object ns) :=
  ⟨ns, h, rfl⟩

theorem reorderedItems_iff {role : Role} {items items' : List Json} :
    ReorderedItems role items items' ↔ List.Forall₂ (Reordered role) items items' := by
  induction items generalizing items' with
  | nil => cases items' <;> simp [ReorderedItems]
  | cons j js ih => cases items' <;> simp [ReorderedItems, ih]

theorem reorderedMembers_iff {role : Role} {ms ns : Members} :
    ReorderedMembers role ms ns ↔
      List.Forall₂ (fun m n => n.1 = m.1 ∧ Reordered (role.member m.1) m.2 n.2) ms ns := by
  induction ms generalizing ns with
  | nil => cases ns <;> simp [ReorderedMembers]
  | cons m ms ih => cases ns <;> simp [ReorderedMembers, ih, and_assoc]

/-- induction on documents that differ in the order of members only: members are first related in their order, and then
put in another where that does not count -/
theorem Reordered.inductionOn {P : Role → Json → Json → Prop} (atom : ∀ role a, P role (.atom a) (.atom a))
    (array : ∀ role items items', List.Forall₂ (P role.item) items items' → P role (.array items) (.array items'))
    (object : ∀ role ms ns ms', List.Forall₂ (fun m n => n.1 = m.1 ∧ P (role.member m.1) m.2 n.2) ms ns →
      (if role = .payload then ns = ms' else ns.Perm ms') → P role (.object ms) (.object ms'))
    {role : Role} {j k : Json} (h : Reordered role j k) : P role j k := by
  induction j generalizing role k with
  | atom a =>
    cases k with
    | atom b =>
      obtain rfl : a = b := h
      exact atom role a
    | array items => exact h.elim
    | object ms => exact h.elim
  | array items ih =>
    cases k with
    | atom b => exact h.elim
    | array items' =>
      have heach : ∀ j ∈ items, ∀ k, Reordered role.item j k → P role.item j k := fun j hj k => ih j hj
      refine array role items items' ?_
      exact ((List.forall₂_and_left _ _).2 ⟨heach, reorderedItems_iff.1 h⟩).imp fun _ k hjk => hjk.1 k hjk.2
    | object ms => exact h.elim
  | object ms ih =>
    cases k with
    | atom b => exact h.elim
    | array items => exact h.elim
    | object ms' =>
      obtain ⟨ns, hmembers, horder⟩ := h
      have heach : ∀ m ∈ ms, ∀ k, Reordered (role.member m.1) m.2 k → P (role.member m.1) m.2 k := fun m hm k => ih m hm
      refine object role ms ns ms' ?_ horder
      refine ((List.forall₂_and_left _ _).2 ⟨heach, reorderedMembers_iff.1 hmembers⟩).imp ?_
      exact fun _ n hmn => ⟨hmn.2.1, hmn.1 n.2 hmn.2.2⟩

/-! ## What does not depend on the order -/

/-- lists that correspond hold elements of which something holds alike -/
theorem forall_mem_iff_of_forall₂ {α : Type} {R : α → α → Prop} {p : α → Prop} {xs ys : List α}
    (h : List.Forall₂ R xs ys) (hp : ∀ x y, R x y → (p x ↔ p y)) : (∀ x ∈ xs, p x) ↔ ∀ y ∈ ys, p y := by
  induction h with
  | nil => simp
  | cons hxy _ ih => simp only [List.forall_mem_cons, hp _ _ hxy, ih]

theorem perm_of_order {role : Role} {ns ms' : Members} (h : if role = .payload then ns = ms' else ns.Perm ms') :
    ns.Perm ms' := by
  split_ifs at h
  · rw [h]
  · exact h

/-- **Whether a document is legible** does not depend on the order of members -/
theorem Reordered.legible_iff {role : Role} {j k : Json} (h : Reordered role j k) :
    ∀ depth, Legible depth j ↔ Legible depth k := by
  refine h.inductionOn (P := fun _ j k => ∀ depth, Legible depth j ↔ Legible depth k) ?_ ?_ ?_
  · intro role a depth
    rfl
  · intro role items items' ih depth
    cases depth with
    | zero => simp [Legible, nesting]
    | succ depth =>
      rw [legible_array, legible_array]
      exact forall_mem_iff_of_forall₂ ih fun _ _ hjk => hjk depth
  · intro role ms ns ms' ih horder depth
    cases depth with
    | zero => simp [Legible, nesting]
    | succ depth =>
      rw [legible_object, legible_object, forall_mem_iff_of_forall₂ ih fun _ _ hmn => hmn.2 depth]
      exact forall_congr' fun m => by rw [(perm_of_order horder).mem_iff]

/-- names are the same in members that correspond -/
theorem names_eq_of_forall₂ {R : String × Json → String × Json → Prop} {ms ns : Members} (h : List.Forall₂ R ms ns)
    (hname : ∀ m n, R m n → n.1 = m.1) : ns.map Prod.fst = ms.map Prod.fst := by
  induction h with
  | nil => rfl
  | cons hmn _ ih => rw [List.map_cons, List.map_cons, hname _ _ hmn, ih]

/-- **Whether a document repeats a name** does not depend on the order of members -/
theorem Reordered.repeated?_eq_none_iff {role : Role} {j k : Json} (h : Reordered role j k) :
    j.repeated? = none ↔ k.repeated? = none := by
  refine h.inductionOn (P := fun _ j k => j.repeated? = none ↔ k.repeated? = none) ?_ ?_ ?_
  · intro role a
    rfl
  · intro role items items' ih
    rw [repeated?, repeated?, repeatedItems?_eq_none, repeatedItems?_eq_none]
    exact forall_mem_iff_of_forall₂ ih fun _ _ hjk => hjk
  · intro role ms ns ms' ih horder
    have hperm := perm_of_order horder
    have hvalues : (∀ m ∈ ms, m.2.repeated? = none) ↔ ∀ m ∈ ms', m.2.repeated? = none := by
      rw [forall_mem_iff_of_forall₂ ih fun _ _ hmn => hmn.2]
      exact forall_congr' fun m => by rw [hperm.mem_iff]
    have hnames : (ms.map Prod.fst).Nodup ↔ (ms'.map Prod.fst).Nodup := by
      rw [← names_eq_of_forall₂ ih fun _ _ hmn => hmn.1]
      exact (hperm.map Prod.fst).nodup_iff
    rw [repeated?_object_eq_none, repeated?_object_eq_none, hnames, hvalues]

/-- leaves may be changed in both -/
theorem Reordered.mapAtoms {role : Role} {j k : Json} (h : Reordered role j k) (g : Atom → Atom) :
    Reordered role (j.mapAtoms g) (k.mapAtoms g) := by
  refine h.inductionOn (P := fun role j k => Reordered role (j.mapAtoms g) (k.mapAtoms g)) ?_ ?_ ?_
  · intro role a
    rfl
  · intro role items items' ih
    simp only [Json.mapAtoms, mapAtomsItems_eq_map]
    exact reorderedItems_iff.2 (by simpa using ih)
  · intro role ms ns ms' ih horder
    simp only [Json.mapAtoms, mapAtomsMembers_eq_map]
    refine ⟨ns.map fun m => (m.1, m.2.mapAtoms g), reorderedMembers_iff.2 (by simpa using ih), ?_⟩
    split_ifs at horder ⊢ with hrole
    · rw [horder]
    · exact horder.map _

/-! ## Members by name -/

/-- the same in a document whose objects do not repeat names -/
structure Same (role : Role) (j k : Json) : Prop where
  unique : j.repeated? = none
  reordered : Reordered role j k

/-- nothing in both, or the same but for the order of members -/
def SameOption (role : Role) (o o' : Option Json) : Prop :=
  o = none ∧ o' = none ∨ ∃ j k, o = some j ∧ o' = some k ∧ Same role j k

/-- every name stands for the same in two objects, or for nothing in both -/
def Peers (role : Role) (ms ns : Members) : Prop :=
  ∀ name, SameOption (role.member name) (member? ms name) (member? ns name)

theorem same_items {role : Role} {items items' : List Json} (hu : ∀ j ∈ items, j.repeated? = none)
    (h : ReorderedItems role items items') : List.Forall₂ (Same role) items items' :=
  ((List.forall₂_and_left _ _).2 ⟨hu, reorderedItems_iff.1 h⟩).imp fun _ _ hjk => ⟨hjk.1, hjk.2⟩

theorem same_members {role : Role} {ms ns : Members} (hu : ∀ m ∈ ms, m.2.repeated? = none)
    (h : ReorderedMembers role ms ns) :
    List.Forall₂ (fun m n => n.1 = m.1 ∧ Same (role.member m.1) m.2 n.2) ms ns :=
  ((List.forall₂_and_left _ _).2 ⟨hu, reorderedMembers_iff.1 h⟩).imp fun _ _ hmn => ⟨hmn.2.1, hmn.1, hmn.2.2⟩

theorem member?_cons (m : String × Json) (ms : Members) (name : String) :
    member? (m :: ms) name = if m.1 = name then some m.2 else member? ms name := by
  unfold member?
  by_cases h : m.1 = name <;> simp [h]

/-- members in the same order are found alike -/
theorem peers_of_forall₂ {role : Role} {ms ns : Members}
    (h : List.Forall₂ (fun m n => n.1 = m.1 ∧ Same (role.member m.1) m.2 n.2) ms ns) : Peers role ms ns := by
  intro name
  induction h with
  | nil => exact Or.inl ⟨rfl, rfl⟩
  | @cons m n ms ns hmn _ ih =>
    rw [member?_cons, member?_cons, hmn.1]
    split_ifs with hname
    · exact Or.inr ⟨_, _, rfl, rfl, hname ▸ hmn.2⟩
    · exact ih

/-- distinct names are found in any order -/
theorem member?_perm {ms ns : Members} (h : ms.Perm ns) (hn : (ms.map Prod.fst).Nodup) (name : String) :
    member? ms name = member? ns name := by
  induction h with
  | nil => rfl
  | cons m _ ih => rw [member?_cons, member?_cons, ih (List.nodup_cons.1 hn).2]
  | swap m n rest =>
    have hne : n.1 ≠ m.1 := by
      rintro heq
      rw [List.map_cons, List.map_cons, List.nodup_cons] at hn
      exact hn.1 (heq ▸ List.mem_cons_self)
    rw [member?_cons, member?_cons, member?_cons, member?_cons]
    split_ifs with hfirst hsecond
    · exact absurd (hfirst.trans hsecond.symm) hne
    · rfl
    · rfl
    · rfl
  | trans h _ ih ih' => rw [ih hn, ih' ((h.map Prod.fst).nodup_iff.1 hn)]

/-! ## The three kinds of values -/

/-- what two documents that are the same have in common -/
inductive View (role : Role) : Json → Json → Prop where
  | atom (a : Atom) : View role (.atom a) (.atom a)
  | array {items items' : List Json} (each : List.Forall₂ (Same role.item) items items') :
      View role (.array items) (.array items')
  | object {ms ns : Members} (peers : Peers role ms ns) (length : ms.length = ns.length)
      (inOrder : role = .payload → List.Forall₂ (fun m n => n.1 = m.1 ∧ Same .other m.2 n.2) ms ns) :
      View role (.object ms) (.object ns)

/-- **Names stand for the same** in documents that differ in the order of members only -/
theorem Same.view {role : Role} {j k : Json} (h : Same role j k) : View role j k := by
  obtain ⟨hu, hreordered⟩ := h
  cases j with
  | atom a =>
    cases k with
    | atom b =>
      obtain rfl : a = b := hreordered
      exact .atom a
    | array items => exact hreordered.elim
    | object ns => exact hreordered.elim
  | array items =>
    cases k with
    | atom b => exact hreordered.elim
    | array items' => exact .array (same_items ((repeatedItems?_eq_none items).1 hu) hreordered)
    | object ns => exact hreordered.elim
  | object ms =>
    cases k with
    | atom b => exact hreordered.elim
    | array items => exact hreordered.elim
    | object ms' =>
      obtain ⟨hn, hvalues⟩ := (repeated?_object_eq_none ms).1 hu
      obtain ⟨ns, hmembers, hperm⟩ := hreordered
      have heach := same_members hvalues hmembers
      have hpeers := peers_of_forall₂ heach
      split_ifs at hperm with hrole
      · subst hrole hperm
        exact .object hpeers heach.length_eq fun _ => heach
      · refine .object (fun name => ?_) (heach.length_eq.trans hperm.length_eq) fun h => absurd h hrole
        rw [← member?_perm hperm (names_eq_of_forall₂ heach (fun _ _ hmn => hmn.1) ▸ hn) name]
        exact hpeers name

theorem Same.isNull_eq {role : Role} {j k : Json} (h : Same role j k) : j.isNull = k.isNull := by
  cases h.view with
  | atom a => rfl
  | array => rfl
  | object => rfl

/-- nulls are as good as absent in both -/
theorem Peers.value? {role : Role} {ms ns : Members} (h : Peers role ms ns) (name : String) :
    SameOption (role.member name) (value? ms name) (value? ns name) := by
  rw [value?_eq, value?_eq]
  rcases h name with ⟨hj, hk⟩ | ⟨j, k, hj, hk, hjk⟩
  · rw [hj, hk]
    exact Or.inl ⟨rfl, rfl⟩
  · rw [hj, hk]
    simp only [Option.filter, hjk.isNull_eq]
    split_ifs
    · exact Or.inr ⟨j, k, rfl, rfl, hjk⟩
    · exact Or.inl ⟨rfl, rfl⟩

end Json

end OpcPubSub
