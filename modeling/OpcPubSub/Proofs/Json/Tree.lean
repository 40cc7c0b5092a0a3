/-
Measures and predicates on documents, each the same over atoms, items and members.

`Json.inductionOn` is the induction that the other modules use: a container is reached from the documents inside it.
- `nesting`: how many containers lie around the innermost value.
- `containers`: how many objects and arrays there are.
- `AllAtoms`: what holds of every leaf; `mapAtoms`: other leaves in the place of the ones there are.
- `repeated?`: the name whose repetition inside one object comes first in the text.
- `present`: an object's members from rows of names and values that may be absent.
-/
import Mathlib.Tactic
import OpcPubSub.Json.Tree

namespace OpcPubSub.Json

/-- containers are made of documents that were there before -/
@[elab_as_elim, induction_eliminator]
theorem inductionOn {P : Json → Prop} (atom : ∀ a, P (.atom a)) (array : ∀ items, (∀ j ∈ items, P j) → P (.array items))
    (object : ∀ members, (∀ m ∈ members, P m.2) → P (.object members)) (j : Json) : P j := by
  match j with
  | .atom a => exact atom a
  | .array items => exact array items fun j _ => inductionOn atom array object j
  | .object members => exact object members fun m _ => inductionOn atom array object m.2
termination_by sizeOf j
decreasing_by
  · have := List.sizeOf_lt_of_mem ‹j ∈ items›
    simp only [Json.array.sizeOf_spec]; omega
  · have := List.sizeOf_lt_of_mem ‹m ∈ members›
    have : sizeOf m = 1 + sizeOf m.1 + sizeOf m.2 := by cases m; rfl
    simp only [Json.object.sizeOf_spec]; omega

mutual

/-- how many containers lie around the innermost value -/
def nesting : Json → Nat
  | .atom _ => 0
  | .array items => nestingItems items + 1
  | .object members => nestingMembers members + 1

def nestingItems : List Json → Nat
  | [] => 0
  | j :: rest => max j.nesting (nestingItems rest)

def nestingMembers : List (String × Json) → Nat
  | [] => 0
  | (_, j) :: rest => max j.nesting (nestingMembers rest)

end

mutual

/-- how many objects and arrays a document has -/
def containers : Json → Nat
  | .atom _ => 0
  | .array items => containersItems items + 1
  | .object members => containersMembers members + 1

def containersItems : List Json → Nat
  | [] => 0
  | j :: rest => j.containers + containersItems rest

def containersMembers : List (String × Json) → Nat
  | [] => 0
  | (_, j) :: rest => j.containers + containersMembers rest

end

mutual

/-- every leaf is as `p` says -/
def AllAtoms (p : Atom → Prop) : Json → Prop
  | .atom a => p a
  | .array items => AllAtomsItems p items
  | .object members => AllAtomsMembers p members

def AllAtomsItems (p : Atom → Prop) : List Json → Prop
  | [] => True
  | j :: rest => j.AllAtoms p ∧ AllAtomsItems p rest

def AllAtomsMembers (p : Atom → Prop) : List (String × Json) → Prop
  | [] => True
  | (_, j) :: rest => j.AllAtoms p ∧ AllAtomsMembers p rest

end

mutual

/-- the document with its leaves changed -/
def mapAtoms (g : Atom → Atom) : Json → Json
  | .atom a => .atom (g a)
  | .array items => .array (mapAtomsItems g items)
  | .object members => .object (mapAtomsMembers g members)

def mapAtomsItems (g : Atom → Atom) : List Json → List Json
  | [] => []
  | j :: rest => j.mapAtoms g :: mapAtomsItems g rest

def mapAtomsMembers (g : Atom → Atom) : List (String × Json) → List (String × Json)
  | [] => []
  | (name, j) :: rest => (name, j.mapAtoms g) :: mapAtomsMembers g rest

end

mutual

/-- the first name that an object repeats, in the order of the text: a name is met before its value -/
def repeated? : Json → Option String
  | .atom _ => none
  | .array items => repeatedItems? items
  | .object members => repeatedMembers? [] members

def repeatedItems? : List Json → Option String
  | [] => none
  | j :: rest => j.repeated?.or (repeatedItems? rest)

/-- `seen` are the names that the object has already -/
def repeatedMembers? (seen : List String) : List (String × Json) → Option String
  | [] => none
  | (name, j) :: rest =>
    if name ∈ seen then some name else j.repeated?.or (repeatedMembers? (name :: seen) rest)

end

/-- the members that are there -/
def present (rows : List (String × Option Json)) : Members := rows.flatMap fun r => (r.2.map (r.1, ·)).toList

theorem present_append (rows rows' : List (String × Option Json)) :
    present (rows ++ rows') = present rows ++ present rows' :=
  List.flatMap_append

theorem present_cons (row : String × Option Json) (rows : List (String × Option Json)) :
    present (row :: rows) = present [row] ++ present rows :=
  present_append [row] rows

theorem nestingItems_le (items : List Json) (n : Nat) : nestingItems items ≤ n ↔ ∀ j ∈ items, j.nesting ≤ n := by
  induction items with
  | nil => simp [nestingItems]
  | cons j rest ih => simp [nestingItems, ih]

theorem nestingMembers_le (ms : Members) (n : Nat) : nestingMembers ms ≤ n ↔ ∀ m ∈ ms, m.2.nesting ≤ n := by
  induction ms with
  | nil => simp [nestingMembers]
  | cons m rest ih => simp [nestingMembers, ih]

theorem allAtomsItems_iff (p : Atom → Prop) (items : List Json) :
    AllAtomsItems p items ↔ ∀ j ∈ items, j.AllAtoms p := by
  induction items with
  | nil => simp [AllAtomsItems]
  | cons j rest ih => simp [AllAtomsItems, ih]

theorem allAtomsMembers_iff (p : Atom → Prop) (ms : Members) : AllAtomsMembers p ms ↔ ∀ m ∈ ms, m.2.AllAtoms p := by
  induction ms with
  | nil => simp [AllAtomsMembers]
  | cons m rest ih => simp [AllAtomsMembers, ih]

theorem mapAtomsItems_eq_map (g : Atom → Atom) (items : List Json) :
    mapAtomsItems g items = items.map (mapAtoms g) := by
  induction items with
  | nil => rfl
  | cons j rest ih => rw [mapAtomsItems, ih, List.map_cons]

theorem mapAtomsMembers_eq_map (g : Atom → Atom) (ms : Members) :
    mapAtomsMembers g ms = ms.map fun m => (m.1, m.2.mapAtoms g) := by
  induction ms with
  | nil => rfl
  | cons m rest ih => rw [mapAtomsMembers, ih, List.map_cons]

theorem mapAtoms_id (j : Json) : j.mapAtoms id = j := by
  induction j with
  | atom a => rfl
  | array items ih =>
    rw [mapAtoms, mapAtomsItems_eq_map, List.map_congr_left ih, List.map_id']
  | object ms ih =>
    rw [mapAtoms, mapAtomsMembers_eq_map, List.map_congr_left fun m hm => by rw [ih m hm], List.map_id']

theorem repeatedItems?_eq_none (items : List Json) :
    repeatedItems? items = none ↔ ∀ j ∈ items, j.repeated? = none := by
  induction items with
  | nil => simp [repeatedItems?]
  | cons j rest ih => simp [repeatedItems?, ih]

/-- no name is met twice iff the names are distinct and not among those seen, and no member repeats one inside -/
theorem repeatedMembers?_eq_none (seen : List String) (ms : Members) :
    repeatedMembers? seen ms = none ↔
      (ms.map Prod.fst).Nodup ∧ (∀ m ∈ ms, m.1 ∉ seen) ∧ ∀ m ∈ ms, m.2.repeated? = none := by
  induction ms generalizing seen with
  | nil => simp [repeatedMembers?]
  | cons m rest ih =>
    obtain ⟨name, j⟩ := m
    simp only [repeatedMembers?, List.map_cons, List.nodup_cons, List.forall_mem_cons]
    split_ifs with hs
    · simp [hs]
    · rw [Option.or_eq_none_iff, ih]
      constructor
      · rintro ⟨hj, hn, hr, hi⟩
        refine ⟨⟨fun h => ?_, hn⟩, ⟨hs, fun m hm h => hr m hm (List.mem_cons_of_mem _ h)⟩, hj, hi⟩
        obtain ⟨m, hm, rfl⟩ := List.mem_map.1 h
        exact hr m hm List.mem_cons_self
      · rintro ⟨⟨hh, hn⟩, ⟨-, hr⟩, hj, hi⟩
        refine ⟨hj, hn, fun m hm h => ?_, hi⟩
        rcases List.mem_cons.1 h with h | h
        · exact hh (h ▸ List.mem_map_of_mem hm)
        · exact hr m hm h

theorem repeated?_object_eq_none (ms : Members) :
    (object ms).repeated? = none ↔ (ms.map Prod.fst).Nodup ∧ ∀ m ∈ ms, m.2.repeated? = none := by
  simp [repeated?, repeatedMembers?_eq_none]

/-! ## Members by name -/

theorem names_present (rows : List (String × Option Json)) :
    ((present rows).map Prod.fst).Sublist (rows.map Prod.fst) := by
  induction rows with
  | nil => exact List.Sublist.slnil
  | cons row rows ih =>
    obtain ⟨name, o⟩ := row
    rw [present_cons, List.map_append]
    cases o with
    | none => exact ih.cons name
    | some j => exact ih.cons_cons name

theorem member?_append (ms ns : Members) (name : String) :
    member? (ms ++ ns) name = (member? ms name).or (member? ns name) := by
  unfold member?
  rw [List.find?_append]
  cases ms.find? fun m => m.1 == name <;> rfl

theorem member?_of_not_mem {ms : Members} {name : String} (h : name ∉ ms.map Prod.fst) : member? ms name = none := by
  rw [member?, Option.map_eq_none_iff, List.find?_eq_none]
  rintro ⟨n, j⟩ hm hn
  rw [beq_iff_eq] at hn
  exact h (hn ▸ List.mem_map_of_mem hm)

theorem member?_present_single (name : String) (o : Option Json) : member? (present [(name, o)]) name = o := by
  cases o <;> simp [present, member?]

/-- **A row is found by its name**, and where it has no value nothing is -/
theorem member?_present {rows : List (String × Option Json)} (hn : (rows.map Prod.fst).Nodup) {name : String}
    {o : Option Json} (h : (name, o) ∈ rows) : member? (present rows) name = o := by
  induction rows with
  | nil => simp at h
  | cons row rows ih =>
    rw [List.map_cons, List.nodup_cons] at hn
    rw [present_cons, member?_append]
    rcases List.mem_cons.1 h with rfl | h
    · have hrest : member? (present rows) name = none :=
        member?_of_not_mem fun hm => hn.1 ((names_present rows).subset hm)
      rw [member?_present_single, hrest, Option.or_none]
    · have hfirst : member? (present [row]) name = none := by
        apply member?_of_not_mem
        intro hm
        have := (names_present [row]).subset hm
        rw [List.map_singleton, List.mem_singleton] at this
        exact hn.1 (this ▸ List.mem_map_of_mem h)
      rw [hfirst, ih hn.2 h, Option.none_or]

/-- a value that is null is as good as absent -/
theorem value?_eq (ms : Members) (name : String) : value? ms name = (member? ms name).filter fun j => !j.isNull := by
  unfold value?
  split
  · next h => rw [h]; rfl
  · next h =>
    cases hm : member? ms name with
    | none => rfl
    | some j =>
      have : j.isNull = false := by
        unfold isNull
        split
        · exact absurd hm h
        · rfl
      simp [Option.filter, this]

end OpcPubSub.Json
