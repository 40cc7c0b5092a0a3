/-
A builder of trees, and what a writer has to do with it.

A `Builder` is driven by the same scripts as a writer, and keeps trees where the writer keeps text: the root value, if
there is one, and the containers under construction with the members they have so far. It takes a value where one may
stand and a pop of the innermost container's kind; it notes what it refuses, and bodies of scopes that fail, and goes
on.

`Represents` relates the two: the open containers have the same kinds and sizes, and the text is that of the tree as
far as it is built. A value, a push and a pop keep the relation, and each is refused by both or by neither.
-/
import OpcPubSub.Encoding.Script
import OpcPubSub.Proofs.Encoding.WritesDocument

namespace OpcPubSub

/-! ## The builder -/

/-- a container under construction, and its name in the container around it -/
inductive Growing where
  | object (name : Option String) (members : Json.Members)
  | array (name : Option String) (items : List Json)

namespace Growing

/-- a container without members -/
def start (kind : Container) (name : Option String) : Growing :=
  match kind with
  | .object => object name []
  | .array => array name []

def kind : Growing → Container
  | object _ _ => .object
  | array _ _ => .array

def name : Growing → Option String
  | object name _ => name
  | array name _ => name

def size : Growing → Nat
  | object _ members => members.length
  | array _ items => items.length

/-- the finished container -/
def tree : Growing → Json
  | object _ members => .object members
  | array _ items => .array items

end Growing

structure Builder where
  root : Option Json := none
  /-- the containers under construction, the innermost first -/
  opened : List Growing := []
  /-- a call was refused -/
  refused : Bool := false
  /-- the body of a scope returned an error -/
  bodyFailed : Bool := false

namespace Builder

/-- a value may stand here under this name -/
def fits (b : Builder) (name : Option String) : Bool :=
  match b.opened, name with
  | [], none => b.root.isNone
  | .object _ _ :: _, some _ => true
  | .array _ _ :: _, none => true
  | _, _ => false

/-- one more value -/
def add? (b : Builder) (name : Option String) (j : Json) : Option Builder :=
  match b.opened, name with
  | [], none => if b.root.isNone then some { b with root := some j } else none
  | .object outer members :: rest, some n => some { b with opened := .object outer (members ++ [(n, j)]) :: rest }
  | .array outer items :: rest, none => some { b with opened := .array outer (items ++ [j]) :: rest }
  | _, _ => none

/-- one more container, under construction -/
def push? (b : Builder) (kind : Container) (name : Option String) : Option Builder :=
  if b.fits name then some { b with opened := Growing.start kind name :: b.opened } else none

/-- the innermost container is finished, and is a value of the one around it -/
def pop? (b : Builder) (kind : Container) : Option Builder :=
  match b.opened with
  | [] => none
  | inner :: rest => if inner.kind = kind then add? { b with opened := rest } inner.name inner.tree else none

/-- the answer to a call, and the builder after it; a refused call changes nothing but the note of it -/
def answer (b : Builder) : Option Builder → Bool × Builder
  | some b' => (true, b')
  | none => (false, { b with refused := true })

end Builder

/-- the value of an item -/
def Item.json (reversible : Bool) : Item → Json
  | .null => .null
  | .bool b => .bool b
  | .string s => .string s
  | .optString s => Json.orNull s
  | .uint16 n => .int n.toNat
  | .uint32 n => .int n.toNat
  | .dateTime t => .string t.text
  | .status c => c.json reversible
  | .statusAs c form => c.json form
  | .variant v form => v.json form
  | .dataValue v form => v.json form
  | .version v => v.json
  | .versions vs => .array (vs.map ConfigurationVersion.json)
  | .dataSet m => m.json reversible true

namespace Builder

mutual

/-- one call: whether it succeeded, and the builder after it -/
def runCall (reversible : Bool) (c : Call) (b : Builder) : Bool × Builder :=
  match c with
  | .attempt c => (true, (runCall reversible c b).2)
  | .scope kind name body =>
    match b.push? kind name with
    | none => (false, { b with refused := true })
    | some b =>
      match runBody reversible body b with
      | (false, b) => (false, { b with bodyFailed := true })
      | (true, b) => b.answer (b.pop? kind)
  | .push kind name => b.answer (b.push? kind name)
  | .pop kind => b.answer (b.pop? kind)
  | .write name item => b.answer (b.add? name (item.json reversible))
  | .field name v mask =>
    match v.field? mask with
    | none => (true, b)
    | some j => b.answer (b.add? (some name) j)
  | .network m =>
    match m.validate with
    | .error _ => (false, b)
    | .ok _ => b.answer (b.add? none (m.document reversible))
  | .fail _ => (false, b)

/-- the calls of a body, up to the first that fails -/
def runBody (reversible : Bool) (cs : List Call) (b : Builder) : Bool × Builder :=
  match cs with
  | [] => (true, b)
  | c :: rest =>
    match runCall reversible c b with
    | (false, b) => (false, b)
    | (true, b) => runBody reversible rest b

end

/-- a whole script; failing calls do not stop it -/
def run (reversible : Bool) (cs : List Call) (b : Builder) : Builder :=
  cs.foldl (fun b c => (runCall reversible c b).2) b

/-! ## The text of a tree under construction -/

/-- separator and name of one more value -/
def lead (opened : List Growing) (name : Option String) : String :=
  match opened with
  | [] => ""
  | g :: _ => (if g.size = 0 then "" else ",") ++ (match name with
    | some n => Json.quote n ++ ":"
    | none => "")

/-- the members that a container has so far -/
def membersText : Growing → String
  | .object _ members => Json.renderMembers true members
  | .array _ items => Json.renderItems true items

/-- the text up to the end of the last finished value -/
def openText : List Growing → String
  | [] => ""
  | g :: rest => openText rest ++ lead rest g.name ++ g.kind.opening ++ membersText g

def text (b : Builder) : String :=
  match b.root with
  | some j => j.render
  | none => openText b.opened

/-- the containers as a writer counts them: one under construction is a member of the one around it already -/
def frames : List Growing → List OpenContainer
  | [] => []
  | g :: rest => ⟨g.kind, g.size⟩ :: rest.map fun g => ⟨g.kind, g.size + 1⟩

/-- every container under construction has a name that suits the one around it -/
def Nested : List Growing → Prop
  | [] => True
  | g :: rest => fits { opened := rest } g.name = true ∧ Nested rest

theorem renderMembers_snoc (first : Bool) (ms : Json.Members) (n : String) (j : Json) :
    Json.renderMembers first (ms ++ [(n, j)]) =
      Json.renderMembers first ms ++ (if first && ms.isEmpty then "" else ",") ++
        (Json.quote n ++ ":" ++ j.render) := by
  induction ms generalizing first with
  | nil => simp [Json.renderMembers]
  | cons m ms ih =>
    rw [List.cons_append, Json.renderMembers, ih, Json.renderMembers]
    simp [String.append_assoc]

theorem renderItems_snoc (first : Bool) (items : List Json) (j : Json) :
    Json.renderItems first (items ++ [j]) =
      Json.renderItems first items ++ (if first && items.isEmpty then "" else ",") ++ j.render := by
  induction items generalizing first with
  | nil => simp [Json.renderItems]
  | cons i items ih =>
    rw [List.cons_append, Json.renderItems, ih, Json.renderItems]
    simp [String.append_assoc]

theorem opening_members_closing (g : Growing) : g.kind.opening ++ membersText g ++ g.kind.closing = g.tree.render := by
  cases g <;> rfl

/-- where a value is taken, and how -/
theorem add_cases {b b' : Builder} {name : Option String} {j : Json} (h : b.add? name j = some b') :
    (b.opened = [] ∧ name = none ∧ b.root = none ∧ b' = { b with root := some j }) ∨
    (∃ outer members rest n, b.opened = .object outer members :: rest ∧ name = some n ∧
      b' = { b with opened := .object outer (members ++ [(n, j)]) :: rest }) ∨
    ∃ outer items rest, b.opened = .array outer items :: rest ∧ name = none ∧
      b' = { b with opened := .array outer (items ++ [j]) :: rest } := by
  unfold add? at h
  cases ho : b.opened with
  | nil => cases name <;> simp_all
  | cons g rest => cases g <;> cases name <;> simp_all

theorem add_of_fits {b : Builder} {name : Option String} (h : b.fits name = true) (j : Json) :
    ∃ b', b.add? name j = some b' := by
  unfold fits at h
  unfold add?
  cases ho : b.opened with
  | nil => cases name <;> simp_all
  | cons g rest => cases g <;> cases name <;> simp_all

theorem add_of_not_fits {b : Builder} {name : Option String} (h : b.fits name = false) (j : Json) :
    b.add? name j = none := by
  unfold fits at h
  unfold add?
  cases ho : b.opened with
  | nil => cases hr : b.root <;> cases name <;> simp_all
  | cons g rest => cases g <;> cases name <;> simp_all

theorem text_add {b b' : Builder} {name : Option String} {j : Json} (hr : b.root = none)
    (h : b.add? name j = some b') : b'.text = openText b.opened ++ lead b.opened name ++ j.render := by
  rcases add_cases h with ⟨ho, -, -, rfl⟩ | ⟨outer, members, rest, n, ho, rfl, rfl⟩ | ⟨outer, items, rest, ho, rfl, rfl⟩
  · simp [text, ho, openText, lead]
  · simp only [text, hr, ho, openText, membersText, lead, renderMembers_snoc, Growing.size, Growing.kind, Growing.name]
    simp [String.append_assoc]
  · simp only [text, hr, ho, openText, membersText, lead, renderItems_snoc, Growing.size, Growing.kind, Growing.name]
    simp [String.append_assoc]

theorem frames_add {b b' : Builder} {name : Option String} {j : Json} (h : b.add? name j = some b') :
    frames b'.opened = b.opened.map fun g => ⟨g.kind, g.size + 1⟩ := by
  rcases add_cases h with ⟨ho, -, -, rfl⟩ | ⟨outer, members, rest, n, ho, -, rfl⟩ | ⟨outer, items, rest, ho, -, rfl⟩
  · simp [ho, frames]
  · simp [ho, frames, Growing.kind, Growing.size]
  · simp [ho, frames, Growing.kind, Growing.size]

/-- what a value taken leaves as it was -/
theorem add_keeps {b b' : Builder} {name : Option String} {j : Json} (hr : b.root = none) (hn : Nested b.opened)
    (h : b.add? name j = some b') : (b'.root.isSome || !b'.opened.isEmpty) = true ∧
      (b'.opened ≠ [] → b'.root = none) ∧ Nested b'.opened ∧ b'.refused = b.refused ∧ b'.bodyFailed = b.bodyFailed := by
  rcases add_cases h with ⟨ho, -, -, rfl⟩ | ⟨outer, members, rest, n, ho, -, rfl⟩ | ⟨outer, items, rest, ho, -, rfl⟩
  · exact ⟨rfl, fun hne => absurd ho hne, by simp [ho, Nested], rfl, rfl⟩
  · rw [ho] at hn
    exact ⟨by simp, fun _ => hr, hn, rfl, rfl⟩
  · rw [ho] at hn
    exact ⟨by simp, fun _ => hr, hn, rfl, rfl⟩

/-- without a root, what fits is a matter of the open containers alone -/
theorem fits_of_root_eq_none {b : Builder} (h : b.root = none) (name : Option String) :
    fits { opened := b.opened } name = b.fits name := by
  obtain ⟨root, opened, refused, failed⟩ := b
  simp only at h
  subst h; rfl

end Builder

/-! ## The relation -/

open Builder in
/-- the writer is where the builder is, and nothing has gone wrong so far -/
structure Represents (reversible : Bool) (w : Writer) (b : Builder) : Prop where
  reversible : w.reversible = reversible
  usable : w.poisoned = false
  accepted : b.refused = false
  bodies : b.bodyFailed = false
  stack : w.stack = frames b.opened
  out : w.out = b.text
  root : w.rootWritten = (b.root.isSome || !b.opened.isEmpty)
  single : b.opened ≠ [] → b.root = none
  nested : Nested b.opened

namespace Represents

open Builder

variable {form : Bool} {w : Writer} {b b' : Builder} {name : Option String}

theorem init (form : Bool) : Represents form { reversible := form } {} :=
  ⟨rfl, rfl, rfl, rfl, rfl, rfl, rfl, fun _ => rfl, trivial⟩

theorem root_of_fits (h : Represents form w b) (hf : b.fits name = true) : b.root = none := by
  cases ho : b.opened with
  | nil =>
    unfold fits at hf
    rw [ho] at hf
    cases name with
    | none => simpa using hf
    | some n => simp at hf
  | cons g rest => exact h.single (by simp [ho])

/-- the writer lets a value stand where the builder does -/
theorem place_of_fits (h : Represents form w b) (hf : b.fits name = true) :
    w.place name = .ok { w with out := w.out ++ lead b.opened name,
                                stack := b.opened.map fun g => ⟨g.kind, g.size + 1⟩, rootWritten := true } := by
  have hr := h.root
  have hn := h.root_of_fits hf
  unfold Writer.place
  unfold fits at hf
  rw [if_neg (by simp [h.usable]), h.stack]
  cases ho : b.opened with
  | nil =>
    cases name with
    | none => simp_all [frames, lead]
    | some n => simp [ho] at hf
  | cons g rest =>
    cases g <;> cases name <;> simp_all [frames, lead, Growing.kind, Growing.size, String.append_assoc]

theorem place_of_not_fits (h : Represents form w b) (hf : b.fits name = false) : ∃ m, w.place name = .error m := by
  have hr := h.root
  unfold Writer.place
  unfold fits at hf
  rw [if_neg (by simp [h.usable]), h.stack]
  cases ho : b.opened with
  | nil =>
    cases hb : b.root <;> cases name <;> simp_all [frames]
  | cons g rest =>
    cases g <;> cases name <;> simp_all [frames, Growing.kind, Growing.size]

/-- one more value on both sides -/
theorem add (h : Represents form w b) {j : Json} (ha : b.add? name j = some b') :
    ∃ v, w.place name = .ok v ∧ Represents form (v.written j) b' := by
  have hf : b.fits name = true := by
    by_contra hf
    rw [add_of_not_fits (by simpa using hf)] at ha
    simp at ha
  have hn := h.root_of_fits hf
  have hout : w.out = openText b.opened := by rw [h.out, text, hn]
  obtain ⟨hr, hs, hnest, href, hbody⟩ := add_keeps hn h.nested ha
  refine ⟨_, h.place_of_fits hf, h.reversible, h.usable, href.trans h.accepted, hbody.trans h.bodies, ?_, ?_, ?_, hs,
    hnest⟩
  · rw [frames_add ha]; rfl
  · rw [text_add hn ha, ← hout]; rfl
  · rw [hr]; rfl

/-- one more container on both sides -/
theorem push (h : Represents form w b) {kind : Container} (hb : b.push? kind name = some b') :
    ∃ v, w.push kind name = .ok v ∧ Represents form v b' := by
  unfold push? at hb
  split_ifs at hb with hf
  simp only [Option.some.injEq] at hb
  have hn := h.root_of_fits hf
  have hout : w.out = openText b.opened := by rw [h.out, text, hn]
  subst hb
  refine ⟨_, Writer.push_of_place (h.place_of_fits hf) kind, h.reversible, h.usable, h.accepted, h.bodies, ?_, ?_,
    by simp, fun _ => hn, ?_, h.nested⟩
  · cases kind <;> rfl
  · rw [text, hn, hout]
    cases kind <;> simp [openText, Growing.start, membersText, Growing.kind, Growing.name, Json.renderMembers,
      Json.renderItems]
  · rw [fits_of_root_eq_none hn]
    cases kind <;> exact hf

/-- the innermost container closed on both sides -/
theorem pop (h : Represents form w b) {kind : Container} (hb : b.pop? kind = some b') :
    ∃ v, w.pop kind = .ok v ∧ Represents form v b' := by
  unfold pop? at hb
  cases ho : b.opened with
  | nil => rw [ho] at hb; simp at hb
  | cons g rest =>
    rw [ho] at hb
    simp only at hb
    split_ifs at hb with hk
    have hn := h.single (by simp [ho])
    have hnest := h.nested
    have hstack := h.stack
    have hout := h.out
    rw [ho] at hnest hstack
    rw [text, hn, ho] at hout
    obtain ⟨hr, hs, hnest', href, hbody⟩ := add_keeps (b := { b with opened := rest }) hn hnest.2 hb
    subst hk
    refine ⟨_, Writer.pop_of_stack h.usable hstack, h.reversible, h.usable, href.trans h.accepted,
      hbody.trans h.bodies, ?_, ?_, ?_, hs, hnest'⟩
    · rw [frames_add hb]
    · rw [text_add (b := { b with opened := rest }) hn hb, hout, ← opening_members_closing]
      simp [openText, String.append_assoc]
    · rw [hr, h.root, ho]; simp

/-! The two refuse the same calls. -/

theorem add_refused (h : Represents form w b) {j : Json} (ha : b.add? name j = none) :
    ∃ m, w.place name = .error m := by
  refine h.place_of_not_fits ?_
  by_contra hf
  obtain ⟨b', hb⟩ := add_of_fits (by simpa using hf) j
  rw [ha] at hb
  simp at hb

theorem push_refused (h : Represents form w b) {kind : Container} (hb : b.push? kind name = none) :
    ∃ m, w.push kind name = .error m := by
  unfold push? at hb
  split_ifs at hb with hf
  obtain ⟨m, hm⟩ := h.place_of_not_fits (by simpa using hf)
  exact ⟨m, by rw [Writer.push, hm]⟩

theorem pop_refused (h : Represents form w b) {kind : Container} (hb : b.pop? kind = none) :
    ∃ m, w.pop kind = .error m := by
  have hstack := h.stack
  unfold pop? at hb
  unfold Writer.pop
  rw [if_neg (by simp [h.usable]), hstack]
  cases ho : b.opened with
  | nil => exact ⟨_, rfl⟩
  | cons g rest =>
    rw [ho] at hb
    simp only at hb
    split_ifs at hb with hk
    · have hn := h.single (by simp [ho])
      have hnest := h.nested
      rw [ho] at hnest
      have hf : fits { b with opened := rest } g.name = true := by
        rw [← fits_of_root_eq_none (b := { b with opened := rest }) hn]; exact hnest.1
      obtain ⟨b', hb'⟩ := add_of_fits hf g.tree
      rw [hb] at hb'
      simp at hb'
    · exact ⟨_, by simp only [frames]; rw [if_neg hk]⟩

end Represents

end OpcPubSub
