/-
Which repeated name a document is refused for.

The names of a document, in the order of its text, are its `mentions`. Each stands with the place of the object that it
belongs to, so the same name in two objects is two different mentions, and an object repeats a name iff one mention
occurs twice. Main results:
- `repeated?_eq_none_iff`: the reader's search finds nothing iff no object anywhere in the document repeats a name.
- `repeated?_eq_firstAgain`: what it finds is the first mention in the text that occurred before.
- `repeated?_of_parseDocument`: no document that is read repeats a name, whatever the text.
- `parseDocument_text`: hence what reading the compact text of any document answers.
-/
import OpcPubSub.Proofs.Json.ReadBack

namespace OpcPubSub.Json

/-! ## Names in the order of the text -/

/-- where a value stands: its position in the container around it, then that container's, up to the root -/
abbrev Place := List Nat

/-- a name in a text, and the object that it is a name of -/
structure Mention where
  place : Place
  name : String
deriving DecidableEq, Repr

mutual

/-- the names of a document that stands at a place -/
def mentionsAt (place : Place) : Json → List Mention
  | .atom _ => []
  | .array items => mentionsItems place 0 items
  | .object members => mentionsMembers place 0 members

/-- the names inside the items of an array, the first of which is item `i` -/
def mentionsItems (place : Place) (i : Nat) : List Json → List Mention
  | [] => []
  | j :: rest => mentionsAt (i :: place) j ++ mentionsItems place (i + 1) rest

/-- the names of the members of an object, each before those inside its value -/
def mentionsMembers (place : Place) (i : Nat) : List (String × Json) → List Mention
  | [] => []
  | (name, j) :: rest => ⟨place, name⟩ :: (mentionsAt (i :: place) j ++ mentionsMembers place (i + 1) rest)

end

/-- all names of a document in the order of its text -/
def mentions (j : Json) : List Mention := mentionsAt [] j

/-- `Within k j`: the document `k` is `j` or occurs inside it -/
inductive Within (k : Json) : Json → Prop where
  | self : Within k k
  | item {items : List Json} {j : Json} (h : j ∈ items) (inside : Within k j) : Within k (.array items)
  | member {members : Members} {m : String × Json} (h : m ∈ members) (inside : Within k m.2) :
      Within k (.object members)

/-! ## No repetition -/

/-- **Nothing is reported iff no object repeats a name**, at any depth -/
theorem repeated?_eq_none_iff (j : Json) :
    j.repeated? = none ↔ ∀ ms, Within (.object ms) j → (ms.map Prod.fst).Nodup := by
  induction j with
  | atom a =>
    refine ⟨fun _ ms h => ?_, fun _ => rfl⟩
    cases h
  | array items ih =>
    rw [repeated?, repeatedItems?_eq_none]
    constructor
    · intro h ms hms
      cases hms with
      | item hj inside => exact (ih _ hj).1 (h _ hj) ms inside
    · intro h j hj
      exact (ih j hj).2 fun ms inside => h ms (.item hj inside)
  | object members ih =>
    rw [repeated?_object_eq_none]
    constructor
    · rintro ⟨hn, h⟩ ms hms
      cases hms with
      | self => exact hn
      | member hm inside => exact (ih _ hm).1 (h _ hm) ms inside
    · intro h
      refine ⟨h members .self, fun m hm => ?_⟩
      exact (ih m hm).2 fun ms inside => h ms (.member hm inside)

/-! ## The first repetition -/

section FirstAgain

variable {α : Type} [DecidableEq α]

/-- the first element that is among those seen or before it in the list -/
def firstAgain (seen : List α) : List α → Option α
  | [] => none
  | x :: xs => if x ∈ seen then some x else firstAgain (x :: seen) xs

theorem firstAgain_append (seen xs ys : List α) :
    firstAgain seen (xs ++ ys) = (firstAgain seen xs).or (firstAgain (xs.reverse ++ seen) ys) := by
  induction xs generalizing seen with
  | nil => rfl
  | cons x xs ih =>
    rw [List.cons_append, firstAgain, firstAgain]
    by_cases hx : x ∈ seen
    · rw [if_pos hx, if_pos hx]
      rfl
    · rw [if_neg hx, if_neg hx, ih, List.reverse_cons, List.append_assoc]
      rfl

/-- it matters only which elements of the list were seen -/
theorem firstAgain_congr {seen seen' xs : List α} (h : ∀ x ∈ xs, x ∈ seen ↔ x ∈ seen') :
    firstAgain seen xs = firstAgain seen' xs := by
  induction xs generalizing seen seen' with
  | nil => rfl
  | cons x xs ih =>
    have hrest : firstAgain (x :: seen) xs = firstAgain (x :: seen') xs := by
      apply ih
      intro y hy
      rw [List.mem_cons, List.mem_cons, h y (List.mem_cons_of_mem x hy)]
    have hx : x ∈ seen ↔ x ∈ seen' := h x List.mem_cons_self
    rw [firstAgain, firstAgain, hrest]
    by_cases hseen : x ∈ seen
    · rw [if_pos hseen, if_pos (hx.1 hseen)]
    · rw [if_neg hseen, if_neg fun h' => hseen (hx.2 h')]

/-- before the first repetition nothing was met twice -/
theorem split_of_firstAgain {seen xs : List α} {x : α} (hseen : seen.Nodup) (h : firstAgain seen xs = some x) :
    ∃ before after, xs = before ++ x :: after ∧ (before.reverse ++ seen).Nodup ∧ x ∈ before.reverse ++ seen := by
  induction xs generalizing seen with
  | nil => simp [firstAgain] at h
  | cons y ys ih =>
    rw [firstAgain] at h
    by_cases hy : y ∈ seen
    · rw [if_pos hy, Option.some.injEq] at h
      subst h
      exact ⟨[], ys, rfl, hseen, hy⟩
    · rw [if_neg hy] at h
      obtain ⟨before, after, rfl, hn, hx⟩ := ih (List.nodup_cons.2 ⟨hy, hseen⟩) h
      refine ⟨y :: before, after, rfl, ?_, ?_⟩
      · rw [List.reverse_cons, List.append_assoc]
        exact hn
      · rw [List.reverse_cons, List.append_assoc]
        exact hx

end FirstAgain

/-! ## Places -/

/-- what is mentioned inside a value is mentioned at a place inside the value's -/
theorem place_of_mem {j : Json} {p : Place} {m : Mention} (h : m ∈ mentionsAt p j) : p <:+ m.place := by
  induction j generalizing p with
  | atom a => simp [mentionsAt] at h
  | array items ih =>
    rw [mentionsAt] at h
    have hitems : ∀ i, m ∈ mentionsItems p i items → p <:+ m.place := by
      clear h
      induction items with
      | nil =>
        intro i h
        simp [mentionsItems] at h
      | cons j rest ihrest =>
        intro i h
        rw [mentionsItems, List.mem_append] at h
        rcases h with h | h
        · exact (List.suffix_cons i p).trans (ih j List.mem_cons_self h)
        · exact ihrest (fun k hk => ih k (List.mem_cons_of_mem j hk)) (i + 1) h
    exact hitems 0 h
  | object members ih =>
    rw [mentionsAt] at h
    have hmembers : ∀ i, m ∈ mentionsMembers p i members → p <:+ m.place := by
      clear h
      induction members with
      | nil =>
        intro i h
        simp [mentionsMembers] at h
      | cons member rest ihrest =>
        intro i h
        rw [mentionsMembers, List.mem_cons, List.mem_append] at h
        rcases h with rfl | h | h
        · exact List.suffix_refl p
        · exact (List.suffix_cons i p).trans (ih member List.mem_cons_self h)
        · exact ihrest (fun k hk => ih k (List.mem_cons_of_mem member hk)) (i + 1) h
    exact hmembers 0 h

/-- two values of one container have no place in common -/
theorem eq_of_place_suffix {i k : Nat} {p q : Place} (hi : i :: p <:+ q) (hk : k :: p <:+ q) : i = k := by
  have hsuffix : i :: p <:+ k :: p := List.suffix_of_suffix_length_le hi hk (by simp)
  have heq : i :: p = k :: p := List.IsSuffix.eq_of_length hsuffix (by simp)
  exact (List.cons.inj heq).1

/-- no place inside a value is the place of the container around it -/
theorem not_place_suffix_self (i : Nat) (p : Place) : ¬ i :: p <:+ p := by
  intro h
  have hlength := h.length_le
  rw [List.length_cons] at hlength
  omega

/-! ## What the search finds -/

/-- nothing seen so far stands inside the values of the container at `p` from position `i` on -/
def Clear (p : Place) (i : Nat) (seen : List Mention) : Prop := ∀ m ∈ seen, ∀ k, i ≤ k → ¬ k :: p <:+ m.place

/-- the names inside value `i` are new if nothing seen stands inside it -/
theorem Clear.firstAgain_eq {p : Place} {i : Nat} {seen : List Mention} (h : Clear p i seen) (j : Json) :
    firstAgain seen (mentionsAt (i :: p) j) = firstAgain [] (mentionsAt (i :: p) j) := by
  apply firstAgain_congr
  intro m hm
  constructor
  · intro hseen
    exact absurd (place_of_mem hm) (h m hseen i le_rfl)
  · intro hnil
    simp at hnil

/-- after value `i` its names are seen, and the values from `i + 1` on are still clear -/
theorem Clear.next {p : Place} {i : Nat} {seen : List Mention} (h : Clear p i seen) (j : Json) :
    Clear p (i + 1) ((mentionsAt (i :: p) j).reverse ++ seen) := by
  intro m hm k hk hplace
  rcases List.mem_append.1 hm with hm | hm
  · rw [List.mem_reverse] at hm
    have := eq_of_place_suffix (place_of_mem hm) hplace
    omega
  · exact h m hm k (by omega) hplace

/-- a member's own name stands in no value of its object -/
theorem Clear.cons {p : Place} {i : Nat} {seen : List Mention} (h : Clear p i seen) (name : String) :
    Clear p i (⟨p, name⟩ :: seen) := by
  intro m hm k hk hplace
  rcases List.mem_cons.1 hm with rfl | hm
  · exact not_place_suffix_self k p hplace
  · exact h m hm k hk hplace

/-- what one document contributes to the search -/
def FindsFirst (j : Json) : Prop := ∀ p, (firstAgain [] (mentionsAt p j)).map Mention.name = j.repeated?

theorem repeatedItems?_eq (items : List Json) (ih : ∀ j ∈ items, FindsFirst j) (p : Place) (i : Nat)
    (seen : List Mention) (hclear : Clear p i seen) :
    (firstAgain seen (mentionsItems p i items)).map Mention.name = repeatedItems? items := by
  induction items generalizing i seen with
  | nil => rfl
  | cons j rest ihrest =>
    have hrest := ihrest (fun k hk => ih k (List.mem_cons_of_mem j hk)) (i + 1) _ (hclear.next j)
    rw [mentionsItems, firstAgain_append, Option.map_or, hrest, hclear.firstAgain_eq, ih j List.mem_cons_self,
      repeatedItems?]

/-- `names` are the names that the object at `p` had before -/
theorem repeatedMembers?_eq (members : Members) (ih : ∀ m ∈ members, FindsFirst m.2) (p : Place) (i : Nat)
    (names : List String) (seen : List Mention) (hclear : Clear p i seen)
    (hnames : ∀ name, ⟨p, name⟩ ∈ seen ↔ name ∈ names) :
    (firstAgain seen (mentionsMembers p i members)).map Mention.name = repeatedMembers? names members := by
  induction members generalizing i names seen with
  | nil => rfl
  | cons member rest ihrest =>
    obtain ⟨name, j⟩ := member
    rw [mentionsMembers, firstAgain, repeatedMembers?]
    by_cases hname : name ∈ names
    · rw [if_pos ((hnames name).2 hname), if_pos hname]
      rfl
    · have hnext := (hclear.cons name).next j
      have hseen : ∀ other, ⟨p, other⟩ ∈ (mentionsAt (i :: p) j).reverse ++ ⟨p, name⟩ :: seen ↔
          other ∈ name :: names := by
        intro other
        have hinside : (⟨p, other⟩ : Mention) ∉ mentionsAt (i :: p) j :=
          fun h => not_place_suffix_self i p (place_of_mem h)
        simp [hinside, hnames]
      have hrest := ihrest (fun m hm => ih m (List.mem_cons_of_mem _ hm)) (i + 1) (name :: names) _ hnext hseen
      rw [if_neg fun h => hname ((hnames name).1 h), if_neg hname, firstAgain_append, Option.map_or, hrest,
        (hclear.cons name).firstAgain_eq, ih (name, j) List.mem_cons_self]

/-- **What is reported is the first mention that occurred before** -/
theorem repeated?_eq_firstAgain (j : Json) : FindsFirst j := by
  induction j with
  | atom a =>
    intro p
    rfl
  | array items ih =>
    intro p
    exact repeatedItems?_eq items ih p 0 [] (by simp [Clear])
  | object members ih =>
    intro p
    exact repeatedMembers?_eq members ih p 0 [] [] (by simp [Clear]) (by simp)

/-- the name that is reported, found in the text: names without repetition before it, and among them itself -/
theorem split_of_repeated? {j : Json} {name : String} (h : j.repeated? = some name) :
    ∃ before again after, j.mentions = before ++ again :: after ∧ before.Nodup ∧ again ∈ before ∧ again.name = name := by
  rw [← repeated?_eq_firstAgain j [], Option.map_eq_some_iff] at h
  obtain ⟨again, hagain, rfl⟩ := h
  obtain ⟨before, after, hsplit, hn, hmem⟩ := split_of_firstAgain List.nodup_nil hagain
  rw [List.append_nil] at hn hmem
  exact ⟨before, again, after, hsplit, List.nodup_reverse.1 hn, List.mem_reverse.1 hmem, rfl⟩

/-! ## What is read -/

theorem atom_of_readWord {cs rest : List Char} {j : Json} (h : readWord cs = .ok (j, rest)) : ∃ a, j = .atom a := by
  unfold readWord at h
  split at h
  · cases h
    exact ⟨_, rfl⟩
  · cases h
    exact ⟨_, rfl⟩
  · cases h
    exact ⟨_, rfl⟩
  · split at h
    · cases h
    · split at h
      · cases h
      · cases h
        exact ⟨_, rfl⟩

/-- nothing that a reader answers repeats a name, nor one of those seen; by induction on the fuel, the three readers
together -/
theorem repeated?_of_read (fuel : Nat) :
    (∀ depth cs j rest, readValue fuel depth cs = .ok (j, rest) → j.repeated? = none) ∧
      (∀ depth cs items rest, readItems fuel depth cs = .ok (items, rest) → repeatedItems? items = none) ∧
      ∀ depth seen cs ms rest, readMembers fuel depth seen cs = .ok (ms, rest) → repeatedMembers? seen ms = none := by
  induction fuel with
  | zero => simp [readValue, readItems, readMembers]
  | succ fuel ih =>
    obtain ⟨hvalue, hitems, hmembers⟩ := ih
    refine ⟨?_, ?_, ?_⟩
    · intro depth cs j rest h
      rw [readValue] at h
      split at h
      · split at h
        · cases h
        · split at h
          · cases h
            rfl
          · split at h
            · cases h
            · next items _ hread =>
              cases h
              exact hitems _ _ _ _ hread
      · split at h
        · cases h
        · split at h
          · cases h
            rfl
          · split at h
            · cases h
            · next members _ hread =>
              cases h
              exact hmembers _ _ _ _ _ hread
      · split at h
        · cases h
        · cases h
          rfl
      · obtain ⟨a, rfl⟩ := atom_of_readWord h
        rfl
    · intro depth cs items rest h
      rw [readItems] at h
      split at h
      · cases h
      · next j _ hj =>
        split at h
        · cases h
          simp [repeatedItems?, hvalue _ _ _ _ hj]
        · split at h
          · cases h
          · next items _ hread =>
            cases h
            simp [repeatedItems?, hvalue _ _ _ _ hj, hitems _ _ _ _ hread]
        · cases h
    · intro depth seen cs ms rest h
      rw [readMembers] at h
      split at h
      · split at h
        · cases h
        · dsimp only at h
          split at h
          · cases h
          · next hseen =>
            split at h
            · split at h
              · cases h
              · next v _ hv =>
                split at h
                · cases h
                  simp [repeatedMembers?, hseen, hvalue _ _ _ _ hv]
                · split at h
                  · cases h
                  · next members _ hread =>
                    cases h
                    simp [repeatedMembers?, hseen, hvalue _ _ _ _ hv, hmembers _ _ _ _ _ hread]
                · cases h
            · cases h
      · cases h

/-- **A document that is read repeats no name** -/
theorem repeated?_of_parseDocument {text : String} {j : Json} (h : parseDocument text = .ok j) :
    j.repeated? = none := by
  unfold parseDocument parse at h
  dsimp only at h
  split at h
  · cases h
  · next k rest hread =>
    split_ifs at h
    · cases h
      exact (repeated?_of_read _).1 _ _ _ _ hread
    · cases h

/-! ## Reading the text of a document -/

/-- **Reading undoes writing and finds every repetition.** The compact text of a document, nested at most 127 deep and
with integers of 64 bits, is read as that very document if no object in it repeats a name, at any depth. Else it is
refused for the first name in the text that its object has had before. -/
theorem parseDocument_text {j : Json} (hdepth : j.nesting ≤ 127) (hplain : j.AllAtoms Atom.Plain) :
    ((∀ ms, Within (.object ms) j → (ms.map Prod.fst).Nodup) → parseDocument j.render = .ok j) ∧
      ∀ ms, Within (.object ms) j → ¬ (ms.map Prod.fst).Nodup →
        ∃ before again after, j.mentions = before ++ again :: after ∧ before.Nodup ∧ again ∈ before ∧
          parseDocument j.render = .error (.duplicateField again.name) := by
  have hparse := parse_render hdepth hplain
  constructor
  · intro h
    rw [(repeated?_eq_none_iff j).2 h] at hparse
    rw [parseDocument, hparse]
    rfl
  · intro ms hms hrepeat
    cases hrepeated : j.repeated? with
    | none => exact absurd ((repeated?_eq_none_iff j).1 hrepeated ms hms) hrepeat
    | some name =>
      obtain ⟨before, again, after, hsplit, hn, hmem, rfl⟩ := split_of_repeated? hrepeated
      rw [hrepeated] at hparse
      refine ⟨before, again, after, hsplit, hn, hmem, ?_⟩
      rw [parseDocument, hparse]
      rfl

/-- an object that repeats its first name last, and a value inside it that repeats one before; that value has the outer
name too, which is no repetition -/
def bodyTwice : Members :=
  [("a", .object [("Body", .int 1), ("a", .null), ("Body", .string "é")]), ("b", .array [.int (-5)]), ("a", .int 2)]

theorem parseDocument_text_bodyTwice :
    nesting (.object bodyTwice) ≤ 127 ∧ AllAtoms Atom.Plain (.object bodyTwice) ∧
      parseDocument (render (.object bodyTwice)) = .error (.duplicateField "Body") ∧
      parseDocument (render (.object (bodyTwice.drop 1))) = .ok (.object (bodyTwice.drop 1)) := by
  have hplain : AllAtoms Atom.Plain (.object bodyTwice) := by
    simp [bodyTwice, AllAtoms, AllAtomsItems, AllAtomsMembers, Atom.Plain]
  have hplainRest : AllAtoms Atom.Plain (.object (bodyTwice.drop 1)) := by
    simp [bodyTwice, AllAtoms, AllAtomsItems, AllAtomsMembers, Atom.Plain]
  refine ⟨by decide, hplain, ?_, ?_⟩
  · obtain ⟨before, again, after, hsplit, hn, hmem, hparse⟩ :=
      (parseDocument_text (by decide) hplain).2 bodyTwice .self (by decide)
    have hmentions : mentions (.object bodyTwice) =
        [⟨[], "a"⟩, ⟨[0], "Body"⟩, ⟨[0], "a"⟩, ⟨[0], "Body"⟩, ⟨[], "b"⟩, ⟨[], "a"⟩] := rfl
    rw [hmentions] at hsplit
    rcases before with _ | ⟨m₀, _ | ⟨m₁, _ | ⟨m₂, _ | ⟨m₃, before⟩⟩⟩⟩ <;> simp at hsplit
    · simp at hmem
    · obtain ⟨rfl, rfl, -⟩ := hsplit
      simp at hmem
    · obtain ⟨rfl, rfl, rfl, -⟩ := hsplit
      simp at hmem
    · obtain ⟨-, -, -, rfl, -⟩ := hsplit
      exact hparse
    · obtain ⟨-, rfl, -, rfl, -⟩ := hsplit
      simp at hn
  · apply (parseDocument_text (by decide) hplainRest).1
    exact (repeated?_eq_none_iff _).1 rfl

end OpcPubSub.Json
