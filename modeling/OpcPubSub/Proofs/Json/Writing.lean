/-
What a writer does with a whole document, told one value at a time.

`Write.json` writes a document through the writer's own calls. `json_run` says what that comes to: the document is
refused as its first call is, and else the writer has separator, name and compact text behind it, its containers are
as they were, and opened and closed are as many as the document has.

An encoder is correct if it is `Write.json` of the right document: `Writes` says so of an action, `WritesMembers` of
one that writes members into an object. Both are kept by the ways actions are put together.
-/
import OpcPubSub.Json.Writer
import OpcPubSub.Proofs.Json.Tree

namespace OpcPubSub

namespace Write

mutual

/-- a whole document as one value -/
def json (name : Option String) : Json → Write Unit
  | .atom a => leaf name a
  | .array items => scope .array name (jsonItems items)
  | .object members => scope .object name (jsonMembers members)

/-- the items of an array, the array open already -/
def jsonItems : List Json → Write Unit
  | [] => pure ()
  | j :: rest => do
    json none j
    jsonItems rest

/-- the members of an object, the object open already -/
def jsonMembers : List (String × Json) → Write Unit
  | [] => pure ()
  | (name, j) :: rest => do
    json (some name) j
    jsonMembers rest

end

end Write

/-- the deepest nesting after values of nesting `n` at depth `depth`; a leaf reaches nowhere -/
def Stats.reach (most depth n : Nat) : Nat := if n = 0 then most else max most (depth + n)

namespace Writer

/-- the writer after the text of `count` containers of nesting `n`, the open containers being what they were -/
def grown (w : Writer) (text : String) (count n : Nat) : Writer :=
  { w with out := w.out ++ text,
           stats := { opens := w.stats.opens + count, closes := w.stats.closes + count,
                      maxDepth := Stats.reach w.stats.maxDepth w.depth n } }

/-- the writer after a document where a value may stand -/
def written (w : Writer) (j : Json) : Writer := w.grown j.render j.containers j.nesting

/-- a fresh writer after a whole document -/
def ofDocument (reversible : Bool) (j : Json) : Writer := { reversible, rootWritten := true : Writer }.written j

theorem finish_ofDocument (reversible : Bool) (j : Json) : (ofDocument reversible j).finish = .ok j.render := by
  simp [finish, ofDocument, written, grown]

theorem out_ofDocument (reversible : Bool) (j : Json) : (ofDocument reversible j).out = j.render := by
  simp [ofDocument, written, grown]

/-- as many containers were opened and closed as the document has -/
theorem stats_ofDocument (reversible : Bool) (j : Json) :
    (ofDocument reversible j).stats = ⟨j.containers, j.containers, j.nesting⟩ := by
  simp only [ofDocument, written, grown, depth, Stats.reach, List.length_nil, Nat.zero_add, Nat.zero_max,
    Stats.mk.injEq, true_and]
  split_ifs with h
  · exact h.symm
  · rfl

end Writer

theorem Stats.reach_reach (most depth m n : Nat) :
    Stats.reach (Stats.reach most depth m) depth n = Stats.reach most depth (max m n) := by
  unfold Stats.reach
  split_ifs <;> omega

/-- **Where a value may stand**: at an unused root without a name, in an object under one, in an array without -/
theorem Writer.place_cases {w w' : Writer} {name : Option String} (h : w.place name = .ok w') : w.poisoned = false ∧
    ((w.stack = [] ∧ w.rootWritten = false ∧ name = none ∧ w' = { w with rootWritten := true }) ∨
    (∃ n size rest, w.stack = ⟨.object, size⟩ :: rest ∧ name = some n ∧
      w' = { w with out := w.out ++ (if size = 0 then "" else ",") ++ (Json.quote n ++ ":"),
                    stack := ⟨.object, size + 1⟩ :: rest }) ∨
    ∃ size rest, w.stack = ⟨.array, size⟩ :: rest ∧ name = none ∧
      w' = { w with out := w.out ++ (if size = 0 then "" else ","), stack := ⟨.array, size + 1⟩ :: rest }) := by
  unfold Writer.place at h
  by_cases hp : w.poisoned = true
  · simp [hp] at h
  · refine ⟨by simpa using hp, ?_⟩
    rw [if_neg hp] at h
    cases hs : w.stack with
    | nil =>
      cases hr : w.rootWritten <;> cases name <;> simp_all
    | cons f rest =>
      obtain ⟨_ | _, size⟩ := f <;> cases name <;> simp_all

theorem Writer.place_poisoned {w w' : Writer} {name : Option String} (h : w.place name = .ok w') :
    w'.poisoned = false := by
  obtain ⟨hp, ⟨-, -, -, rfl⟩ | ⟨n, size, rest, -, -, rfl⟩ | ⟨size, rest, -, -, rfl⟩⟩ := place_cases h <;> exact hp

theorem Writer.place_reversible {w w' : Writer} {name : Option String} (h : w.place name = .ok w') :
    w'.reversible = w.reversible := by
  obtain ⟨-, ⟨-, -, -, rfl⟩ | ⟨n, size, rest, -, -, rfl⟩ | ⟨size, rest, -, -, rfl⟩⟩ := place_cases h <;> rfl

theorem Writer.push_of_place {w v : Writer} {name : Option String} (h : w.place name = .ok v) (kind : Container) :
    w.push kind name = .ok
      { v with out := v.out ++ kind.opening,
               stack := ⟨kind, 0⟩ :: v.stack,
               stats := { v.stats with opens := v.stats.opens + 1,
                                       maxDepth := max v.stats.maxDepth (v.stack.length + 1) } } := by
  rw [Writer.push, h]

theorem Writer.pop_of_stack {w : Writer} (hp : w.poisoned = false) {f : OpenContainer} {rest : List OpenContainer}
    (hs : w.stack = f :: rest) :
    w.pop f.kind = .ok
      { w with out := w.out ++ f.kind.closing,
               stack := rest,
               stats := { w.stats with closes := w.stats.closes + 1 } } := by
  simp [Writer.pop, hp, hs]

namespace Write

theorem bind_run {α β : Type} (a : Write α) (f : α → Write β) (w : Writer) :
    (a >>= f) w = match a w with
      | .ok x w => f x w
      | .error e w => .error e w := by
  cases h : a w <;> simp [bind, EStateM.bind, h]

theorem pure_run (w : Writer) : (pure () : Write Unit) w = .ok () w := rfl

/-- what `json_run` says of one document -/
def JsonRun (j : Json) : Prop :=
  ∀ (name : Option String) (w : Writer), json name j w = match w.place name with
    | .ok w => .ok () (w.written j)
    | .error m => .error m.fault { w with poisoned := true }

/-- items into an open array that has `n` items -/
theorem jsonItems_run (items : List Json) (h : ∀ j ∈ items, JsonRun j) (w : Writer) (hp : w.poisoned = false) (n : Nat)
    (rest : List OpenContainer) (hs : w.stack = ⟨.array, n⟩ :: rest) :
    jsonItems items w = .ok () { w.grown (Json.renderItems (n = 0) items) (Json.containersItems items)
      (Json.nestingItems items) with stack := ⟨.array, n + items.length⟩ :: rest } := by
  induction items generalizing w n with
  | nil =>
    simp [jsonItems, pure_run, Json.renderItems, Writer.grown, Stats.reach, Json.containersItems, Json.nestingItems,
      ← hs]
  | cons j items ih =>
    have hj : w.place none = .ok { w with out := w.out ++ (if n = 0 then "" else ","),
                                          stack := ⟨.array, n + 1⟩ :: rest } := by
      simp [Writer.place, hp, hs]
    rw [jsonItems, bind_run, h j List.mem_cons_self none w, hj]
    simp only
    rw [ih (fun i hi => h i (List.mem_cons_of_mem _ hi)) _ (by exact hp) (n + 1) rfl]
    simp [Writer.written, Writer.grown, Writer.depth, hs, Json.renderItems, Json.containersItems, Json.nestingItems,
      Stats.reach_reach, String.append_assoc, Nat.add_assoc, Nat.add_comm 1]

/-- members into an open object that has `n` members -/
theorem jsonMembers_run (ms : Json.Members) (h : ∀ m ∈ ms, JsonRun m.2) (w : Writer) (hp : w.poisoned = false) (n : Nat)
    (rest : List OpenContainer) (hs : w.stack = ⟨.object, n⟩ :: rest) :
    jsonMembers ms w = .ok () { w.grown (Json.renderMembers (n = 0) ms) (Json.containersMembers ms)
      (Json.nestingMembers ms) with stack := ⟨.object, n + ms.length⟩ :: rest } := by
  induction ms generalizing w n with
  | nil =>
    simp [jsonMembers, pure_run, Json.renderMembers, Writer.grown, Stats.reach, Json.containersMembers,
      Json.nestingMembers, ← hs]
  | cons m ms ih =>
    obtain ⟨name, j⟩ := m
    have hj : w.place (some name) = .ok { w with
        out := w.out ++ (if n = 0 then "" else ",") ++ (Json.quote name ++ ":"),
        stack := ⟨.object, n + 1⟩ :: rest } := by
      simp [Writer.place, hp, hs]
    rw [jsonMembers, bind_run, h _ List.mem_cons_self (some name) w, hj]
    simp only
    rw [ih (fun i hi => h i (List.mem_cons_of_mem _ hi)) _ (by exact hp) (n + 1) rfl]
    simp [Writer.written, Writer.grown, Writer.depth, hs, Json.renderMembers, Json.containersMembers,
      Json.nestingMembers, Stats.reach_reach, String.append_assoc, Nat.add_assoc, Nat.add_comm 1]

theorem call_run (f : Writer → Except Misuse Writer) (w : Writer) : call f w = match f w with
    | .ok w => .ok () w
    | .error m => .error m.fault { w with poisoned := true } := rfl

theorem scope_run (kind : Container) (name : Option String) (body : Write Unit) (w : Writer) :
    scope kind name body w = match w.push kind name with
      | .error m => .error m.fault { w with poisoned := true }
      | .ok w =>
        match body w with
        | .error e w => .error e { w with poisoned := true }
        | .ok _ w => pop kind w := by
  rw [scope, push, call_run]
  cases w.push kind name <;> rfl

/-- a container around what its body writes, if the body grows the text inside it -/
theorem scope_grown {kind : Container} {body : Write Unit} {text : String} {count n size : Nat}
    (h : ∀ (w : Writer) (rest : List OpenContainer), w.poisoned = false → w.stack = ⟨kind, 0⟩ :: rest →
      body w = .ok () { w.grown text count n with stack := ⟨kind, size⟩ :: rest })
    (name : Option String) (w : Writer) :
    scope kind name body w = match w.place name with
      | .ok w => .ok () (w.grown (kind.opening ++ text ++ kind.closing) (count + 1) (n + 1))
      | .error m => .error m.fault { w with poisoned := true } := by
  rw [scope_run]
  cases hw : w.place name with
  | error m => rw [Writer.push, hw]
  | ok v =>
    have hp := Writer.place_poisoned hw
    have hdepth : Stats.reach (max v.stats.maxDepth (v.stack.length + 1)) (v.stack.length + 1) n =
        Stats.reach v.stats.maxDepth v.stack.length (n + 1) := by
      by_cases hn : n = 0
      · simp [Stats.reach, hn]
      · simp only [Stats.reach, hn, if_false, Nat.add_one_ne_zero]
        omega
    have hopens : v.stats.opens + 1 + count = v.stats.opens + (count + 1) := by omega
    rw [Writer.push_of_place hw]
    simp only
    rw [h _ v.stack (by exact hp) rfl]
    simp only [pop, call_run, Writer.pop, Writer.grown, Writer.depth, List.length_cons, hp, hdepth, hopens,
      Bool.false_eq_true, if_false, if_true, String.append_assoc]
    rfl

/-- **A document is written as one value.** It is refused where its first call is; else its compact text follows
separator and name, and it leaves the containers around it as they were. -/
theorem json_run (j : Json) : JsonRun j := by
  induction j with
  | atom a =>
    intro name w
    rw [json, leaf, call_run, Writer.leaf]
    cases w.place name with
    | error m => rfl
    | ok w => simp [Writer.written, Writer.grown, Json.render, Json.containers, Json.nesting, Stats.reach]
  | array items ih =>
    intro name w
    rw [json, scope_grown fun w rest hp hs => jsonItems_run items ih w hp 0 rest hs]
    rfl
  | object ms ih =>
    intro name w
    rw [json, scope_grown fun w rest hp hs => jsonMembers_run ms ih w hp 0 rest hs]
    rfl

theorem json_reversible {name : Option String} {j : Json} {w w' : Writer} (h : json name j w = .ok () w') :
    w'.reversible = w.reversible := by
  rw [json_run] at h
  cases hw : w.place name with
  | error m => rw [hw] at h; simp at h
  | ok v =>
    rw [hw] at h
    simp only [EStateM.Result.ok.injEq, true_and] at h
    have hr := Writer.place_reversible hw
    rw [← h]; exact hr

/-! ## Actions that write documents -/

/-- the action writes the document `j` under `name`, on writers whose own form of status codes is `reversible` -/
def Writes (reversible : Bool) (action : Write Unit) (name : Option String) (j : Json) : Prop :=
  ∀ w, w.reversible = reversible → action w = json name j w

/-- the action writes members into an open object -/
def WritesMembers (reversible : Bool) (action : Write Unit) (ms : Json.Members) : Prop :=
  ∀ w, w.reversible = reversible → action w = jsonMembers ms w

/-- the action writes items into an open array -/
def WritesItems (reversible : Bool) (action : Write Unit) (items : List Json) : Prop :=
  ∀ w, w.reversible = reversible → action w = jsonItems items w

variable {reversible : Bool}

theorem Writes.leaf (name : Option String) (a : Atom) : Writes reversible (leaf name a) name (.atom a) := by
  intro w _
  rw [json]

theorem jsonMembers_append (ms ns : Json.Members) : jsonMembers (ms ++ ns) = (do jsonMembers ms; jsonMembers ns) := by
  induction ms with
  | nil => rfl
  | cons m ms ih =>
    obtain ⟨name, j⟩ := m
    funext w
    rw [List.cons_append, jsonMembers, jsonMembers, ih]
    simp only [bind_run]
    cases json (some name) j w <;> rfl

theorem jsonMembers_reversible {ms : Json.Members} {w w' : Writer} (h : jsonMembers ms w = .ok () w') :
    w'.reversible = w.reversible := by
  induction ms generalizing w with
  | nil =>
    simp only [jsonMembers, pure_run, EStateM.Result.ok.injEq, true_and] at h
    rw [h]
  | cons m ms ih =>
    obtain ⟨name, j⟩ := m
    rw [jsonMembers, bind_run] at h
    cases hj : json (some name) j w with
    | error e v => rw [hj] at h; simp at h
    | ok u v =>
      rw [hj] at h
      exact (ih h).trans (json_reversible hj)

theorem WritesMembers.nil : WritesMembers reversible (pure ()) [] := fun _ _ => rfl

theorem WritesMembers.append {a b : Write Unit} {ms ns : Json.Members} (ha : WritesMembers reversible a ms)
    (hb : WritesMembers reversible b ns) : WritesMembers reversible (do a; b) (ms ++ ns) := by
  intro w hw
  rw [jsonMembers_append, bind_run, bind_run, ha w hw]
  cases hm : jsonMembers ms w with
  | error e v => rfl
  | ok u v => exact hb v ((jsonMembers_reversible hm).trans hw)

theorem Writes.member {a : Write Unit} {name : String} {j : Json} (h : Writes reversible a (some name) j) :
    WritesMembers reversible a [(name, j)] := by
  intro w hw
  rw [h w hw, jsonMembers, bind_run]
  cases json (some name) j w <;> rfl

/-- one row after the other -/
theorem WritesMembers.cons {a b : Write Unit} {row : String × Option Json} {rows : List (String × Option Json)}
    (ha : WritesMembers reversible a (Json.present [row])) (hb : WritesMembers reversible b (Json.present rows)) :
    WritesMembers reversible (do a; b) (Json.present (row :: rows)) := by
  rw [Json.present_cons]
  exact ha.append hb

/-- a member that may be absent -/
theorem WritesMembers.optional {α : Type} {v : Option α} {f : α → Write Unit} {name : String} {g : α → Json}
    (h : ∀ x, Writes reversible (f x) (some name) (g x)) :
    WritesMembers reversible (Write.optional v f) (Json.present [(name, v.map g)]) := by
  cases v with
  | none => exact WritesMembers.nil
  | some x => exact (h x).member

theorem WritesMembers.each {α : Type} {f : α → Write Unit} {g : α → Json.Members} {xs : List α}
    (h : ∀ x ∈ xs, WritesMembers reversible (f x) (g x)) :
    WritesMembers reversible (Write.each f xs) (xs.flatMap g) := by
  induction xs with
  | nil => exact WritesMembers.nil
  | cons x xs ih =>
    rw [List.flatMap_cons]
    exact (h x List.mem_cons_self).append (ih fun y hy => h y (List.mem_cons_of_mem _ hy))

theorem WritesItems.each {α : Type} {f : α → Write Unit} {g : α → Json} {xs : List α}
    (h : ∀ x ∈ xs, Writes reversible (f x) none (g x)) :
    WritesItems reversible (Write.each f xs) (xs.map g) := by
  induction xs with
  | nil => exact fun _ _ => rfl
  | cons x xs ih =>
    intro w hw
    rw [Write.each, List.map_cons, jsonItems, bind_run, bind_run, h x List.mem_cons_self w hw]
    cases hj : json none (g x) w with
    | error e v => rfl
    | ok u v => exact ih (fun y hy => h y (List.mem_cons_of_mem _ hy)) v ((json_reversible hj).trans hw)

theorem push_reversible {w w' : Writer} {kind : Container} {name : Option String}
    (h : w.push kind name = .ok w') : w'.reversible = w.reversible := by
  unfold Writer.push at h
  cases hw : w.place name with
  | error m => rw [hw] at h; simp at h
  | ok v =>
    rw [hw] at h
    simp only [Except.ok.injEq] at h
    have hr := Writer.place_reversible hw
    rw [← h]; exact hr

theorem WritesMembers.object {a : Write Unit} {ms : Json.Members} (h : WritesMembers reversible a ms)
    (name : Option String) : Writes reversible (scope .object name a) name (.object ms) := by
  intro w hw
  rw [json, scope_run, scope_run]
  cases hp : w.push .object name with
  | error m => rfl
  | ok v => simp only [h v ((push_reversible hp).trans hw)]

theorem WritesItems.array {a : Write Unit} {items : List Json} (h : WritesItems reversible a items)
    (name : Option String) : Writes reversible (scope .array name a) name (.array items) := by
  intro w hw
  rw [json, scope_run, scope_run]
  cases hp : w.push .array name with
  | error m => rfl
  | ok v => simp only [h v ((push_reversible hp).trans hw)]

theorem Writes.run_fresh {a : Write Unit} {j : Json} (h : Writes reversible a none j) :
    a { reversible } = .ok () (Writer.ofDocument reversible j) := by
  rw [h _ rfl, json_run]
  rfl

/-- **The text of a whole document** on a fresh writer is its compact text -/
theorem Writes.finish {a : Write Unit} {j : Json} (h : Writes reversible a none j) :
    ∃ w, a { reversible } = .ok () w ∧ w.finish = .ok j.render :=
  ⟨_, h.run_fresh, Writer.finish_ofDocument reversible j⟩

/-- the document tells the text -/
theorem Writes.eq_render {a : Write Unit} {j : Json} (h : Writes reversible a none j) {w : Writer} {text : String}
    (hw : a { reversible } = .ok () w) (hfinish : w.finish = .ok text) : text = j.render := by
  obtain ⟨w', hw', hfinish'⟩ := h.finish
  rw [hw, EStateM.Result.ok.injEq] at hw'
  obtain ⟨-, rfl⟩ := hw'
  exact Except.ok.inj (hfinish.symm.trans hfinish')

end Write

end OpcPubSub
