/-
What holds of a writer at any time.

A `History` is a fresh writer and what it has become, one move after the other. Every script has one, and a call goes on
with the history of the writer it was made on, so no move of a call is left out. Two invariants are
carried along it: what a move does to depth and counts (`Move.counts`), and that the writer is poisoned or represents a
builder (`Represents.move`). A builder tells what the text becomes once the open containers are closed: `whole` closes
them as trees (`render_whole`), and its containers along the last members are those that were open
(`lastContainers_whole`). Main result:
- `history_sound`: counts, greatest depth and text of a writer with any history.
-/
import OpcPubSub.Proofs.Encoding.Refinement
import OpcPubSub.Proofs.Encoding.Moves
import OpcPubSub.Proofs.Json.Grammar

namespace OpcPubSub

/-- the outermost `n` containers along the last members of a document, with how many members each has -/
def Json.lastContainers : ℕ → Json → List OpenContainer
  | 0, _ => []
  | _ + 1, .atom _ => []
  | n + 1, .array items => ⟨.array, items.length⟩ :: items.getLast?.elim [] (lastContainers n)
  | n + 1, .object ms => ⟨.object, ms.length⟩ :: ms.getLast?.elim [] fun m => lastContainers n m.2

/-! ## Closing what is open -/

/-- one more value at the end; in an object it needs a name -/
def Growing.snoc (g : Growing) (name : Option String) (j : Json) : Growing :=
  match g with
  | object outer ms => object outer (ms ++ [(name.getD "", j)])
  | array outer items => array outer (items ++ [j])

theorem Growing.lastContainers_tree (g : Growing) : g.tree.lastContainers 1 = [⟨g.kind, g.size⟩] := by
  cases g with
  | object outer ms => cases h : ms.getLast? <;> simp [h, tree, Json.lastContainers, kind, size]
  | array outer items => cases h : items.getLast? <;> simp [h, tree, Json.lastContainers, kind, size]

theorem Growing.lastContainers_snoc (g : Growing) (name : Option String) (j : Json) (n : ℕ) :
    (g.snoc name j).tree.lastContainers (n + 1) = ⟨g.kind, g.size + 1⟩ :: j.lastContainers n := by
  cases g <;> simp [snoc, tree, Json.lastContainers, kind, size]

namespace Builder

/-- the document, if nothing comes after this value but the ends of the containers around it -/
def whole (opened : List Growing) (name : Option String) (j : Json) : Json :=
  match opened with
  | [] => j
  | g :: rest => whole rest g.name (g.snoc name j).tree

/-- the brackets that close the containers, the innermost first -/
def closings (opened : List Growing) : String := String.join (opened.map fun g => g.kind.closing)

theorem closings_cons (g : Growing) (rest : List Growing) : closings (g :: rest) = g.kind.closing ++ closings rest := by
  simp [closings]

theorem render_snoc {g : Growing} {rest : List Growing} {name : Option String}
    (h : fits { opened := g :: rest } name = true) (j : Json) :
    (g.snoc name j).tree.render =
      g.kind.opening ++ membersText g ++ lead (g :: rest) name ++ j.render ++ g.kind.closing := by
  rw [← opening_members_closing]
  cases g with
  | object outer ms =>
    cases name with
    | none => simp [fits] at h
    | some n =>
      simp only [Growing.snoc, membersText, renderMembers_snoc, Growing.kind, Growing.size, lead, Option.getD_some]
      simp [String.append_assoc]
  | array outer items =>
    cases name with
    | some n => simp [fits] at h
    | none =>
      simp only [Growing.snoc, membersText, renderItems_snoc, Growing.kind, Growing.size, lead]
      simp [String.append_assoc]

/-- **Closing the containers around a value leaves a document.** -/
theorem render_whole {opened : List Growing} {name : Option String} (hn : Nested opened)
    (h : fits { opened } name = true) (j : Json) :
    openText opened ++ lead opened name ++ j.render ++ closings opened = (whole opened name j).render := by
  induction opened generalizing name j with
  | nil => simp [openText, lead, closings, whole]
  | cons g rest ih =>
    rw [whole, ← ih hn.2 hn.1, render_snoc h, openText, closings_cons]
    simp only [String.append_assoc]

theorem lastContainers_whole (opened : List Growing) (name : Option String) (j : Json) (n : ℕ) :
    (whole opened name j).lastContainers (opened.length + n) =
      (opened.reverse.map fun g => ⟨g.kind, g.size + 1⟩) ++ j.lastContainers n := by
  induction opened generalizing name j n with
  | nil => rw [whole, List.length_nil, Nat.zero_add, List.reverse_nil, List.map_nil, List.nil_append]
  | cons g rest ih =>
    rw [whole, List.length_cons, Nat.add_assoc, Nat.add_comm 1, ih, Growing.lastContainers_snoc, List.reverse_cons,
      List.map_append, List.append_assoc]
    rfl

end Builder

namespace Writer

/-- the text with the open containers closed, the innermost first -/
def closed (w : Writer) : String := w.out ++ String.join (w.stack.map fun f => f.kind.closing)

end Writer

namespace Represents

open Builder

variable {form : Bool} {w v : Writer} {b : Builder}

theorem closed_eq (h : Represents form w b) : w.closed = b.text ++ closings b.opened := by
  rw [Writer.closed, h.out, h.stack, closings]
  cases b.opened <;> simp [frames, Function.comp_def]

/-- nothing was written, or closing what is open leaves a document whose containers the writer has counted -/
theorem closed_cases (h : Represents form w b) :
    (w.rootWritten = false ∧ w.closed = "") ∨
      w.rootWritten = true ∧ ∃ j : Json, w.closed = j.render ∧ j.lastContainers w.depth = w.stack.reverse := by
  have hclosed := h.closed_eq
  have hroot := h.root
  have hstack := h.stack
  rw [text] at hclosed
  cases ho : b.opened with
  | nil =>
    rw [ho] at hclosed hroot hstack
    cases hr : b.root with
    | none =>
      rw [hr] at hclosed hroot
      exact Or.inl ⟨hroot, hclosed⟩
    | some j =>
      rw [hr] at hclosed hroot
      refine Or.inr ⟨hroot, j, by simpa [closings] using hclosed, ?_⟩
      rw [Writer.depth, hstack]
      rfl
  | cons g rest =>
    have hnested := h.nested
    rw [h.single (by simp [ho]), ho] at hclosed hroot
    rw [ho] at hnested hstack
    refine Or.inr ⟨hroot, whole rest g.name g.tree, ?_, ?_⟩
    · rw [hclosed, ← render_whole hnested.2 hnested.1, ← opening_members_closing, openText, closings_cons]
      simp only [String.append_assoc]
    · rw [Writer.depth, hstack, frames, List.length_cons, List.length_map, lastContainers_whole,
        Growing.lastContainers_tree, List.reverse_cons, List.map_reverse]

/-! ### Builders move by move -/

variable {b' : Builder} {name : Option String} {a : Atom}

theorem leaf (h : Represents form w b) (hb : b.add? name (.atom a) = some b') :
    ∃ v, w.leaf name a = .ok v ∧ Represents form v b' := by
  obtain ⟨u, hu, hadded⟩ := h.add hb
  exact ⟨u.written (.atom a), by rw [Writer.leaf, hu]; rfl, hadded⟩

theorem leaf_refused (h : Represents form w b) (hb : b.add? name (.atom a) = none) :
    ∃ m, w.leaf name a = .error m := by
  obtain ⟨m, hm⟩ := h.add_refused hb
  exact ⟨m, by rw [Writer.leaf, hm]⟩

/-- what the writer has become is what the builder tells, if the two take the same calls -/
theorem of_answer {o : Option Builder} {r : Except Misuse Writer}
    (hsome : ∀ b', o = some b' → ∃ v, r = .ok v ∧ Represents form v b') (hnone : o = none → ∃ m, r = .error m)
    (hr : r = .ok v) : ∃ b', Represents form v b' := by
  cases ho : o with
  | none =>
    obtain ⟨m, hm⟩ := hnone ho
    rw [hr] at hm
    cases hm
  | some b' =>
    obtain ⟨u, hu, hb⟩ := hsome b' ho
    obtain rfl := Except.ok.inj (hr.symm.trans hu)
    exact ⟨b', hb⟩

/-- **A move leads from a builder to a builder**, or the writer is poisoned -/
theorem move (h : Represents form w b) (hmove : w.Move v) : v.poisoned = true ∨ ∃ b', Represents form v b' := by
  cases hmove with
  | leaf hw => exact Or.inr (of_answer (fun _ => h.leaf) h.leaf_refused hw)
  | push hw => exact Or.inr (of_answer (fun _ => h.push) h.push_refused hw)
  | pop hw => exact Or.inr (of_answer (fun _ => h.pop) h.pop_refused hw)
  | poison => exact Or.inl rfl

end Represents

namespace Writer

variable {form : Bool} {past : List Writer} {w v : Writer}

/-! ## One move -/

theorem place_counts {name : Option String} (h : w.place name = .ok v) :
    v.depth = w.depth ∧ v.stats = w.stats := by
  obtain ⟨-, ⟨-, -, -, rfl⟩ | ⟨n, size, rest, hs, -, rfl⟩ | ⟨size, rest, hs, -, rfl⟩⟩ := place_cases h
  · exact ⟨rfl, rfl⟩
  · simp [depth, hs]
  · simp [depth, hs]

/-- **What a move does to depth and counts**: nothing, one container more, or one less -/
theorem Move.counts (h : w.Move v) :
    (v.depth = w.depth ∧ v.stats = w.stats) ∨
    (v.depth = w.depth + 1 ∧ v.stats = ⟨w.stats.opens + 1, w.stats.closes, max w.stats.maxDepth v.depth⟩) ∨
    (w.depth = v.depth + 1 ∧ v.stats = ⟨w.stats.opens, w.stats.closes + 1, w.stats.maxDepth⟩) := by
  cases h with
  | leaf hw =>
    obtain ⟨u, hplace, rfl⟩ := leaf_cases hw
    have hcounts := place_counts hplace
    exact Or.inl hcounts
  | push hw =>
    obtain ⟨u, hplace, rfl⟩ := push_cases hw
    obtain ⟨hdepth, hstats⟩ := place_counts hplace
    refine Or.inr (Or.inl ⟨congrArg (· + 1) hdepth, ?_⟩)
    rw [← hstats]
    rfl
  | pop hw =>
    obtain ⟨size, rest, -, hs, rfl⟩ := pop_cases hw
    exact Or.inr (Or.inr ⟨by simp [depth, hs], rfl⟩)
  | poison => exact Or.inl ⟨rfl, rfl⟩

theorem Move.poisoned (h : w.Move v) (hw : w.poisoned = true) : v.poisoned = true := by
  cases h with
  | leaf h =>
    obtain ⟨u, hplace, -⟩ := leaf_cases h
    rw [place_of_poisoned hw] at hplace
    cases hplace
  | push h =>
    obtain ⟨u, hplace, -⟩ := push_cases h
    rw [place_of_poisoned hw] at hplace
    cases hplace
  | pop h =>
    obtain ⟨size, rest, hp, -⟩ := pop_cases h
    rw [hw] at hp
    cases hp
  | poison => rfl

/-! ## Histories -/

/-- a fresh writer of this form, and what it has become move by move; what it was before, the last first -/
inductive History (form : Bool) : List Writer → Writer → Prop where
  | fresh : History form [] { reversible := form }
  | move {past : List Writer} {w v : Writer} (h : History form past w) (hmove : w.Move v) : History form (w :: past) v

/-- going on from a writer with a history adds to that history -/
theorem History.invariant_onward (form : Bool) (past : List Writer) :
    Invariant fun v => ∃ later, History form later v ∧ past <:+ v :: later := by
  refine ⟨?_⟩
  rintro w v ⟨later, hw, hsuffix⟩ hmove
  exact ⟨w :: later, hw.move hmove, hsuffix.trans (List.suffix_cons v _)⟩

namespace History

theorem balance (h : History form past w) : w.stats.opens = w.stats.closes + w.depth := by
  induction h with
  | fresh => rfl
  | @move past w v _ hmove ih =>
    rcases hmove.counts with ⟨hd, hs⟩ | ⟨hd, hs⟩ | ⟨hd, hs⟩ <;> rw [hs] <;> grind

/-- no depth was greater than the one noted -/
theorem bound (h : History form past w) : ∀ v ∈ w :: past, v.depth ≤ w.stats.maxDepth := by
  induction h with
  | fresh =>
    intro v hv
    rw [List.mem_singleton.1 hv]
    exact Nat.zero_le _
  | @move past w v _ hmove ih =>
    have hw := ih w List.mem_cons_self
    have hmost : w.stats.maxDepth ≤ v.stats.maxDepth ∧ v.depth ≤ v.stats.maxDepth := by
      rcases hmove.counts with ⟨hd, hs⟩ | ⟨hd, hs⟩ | ⟨hd, hs⟩ <;> rw [hs] <;> grind
    intro u hu
    rcases List.mem_cons.1 hu with rfl | hu
    · exact hmost.2
    · exact (ih u hu).trans hmost.1

/-- and that depth was reached -/
theorem reached (h : History form past w) : ∃ v ∈ w :: past, v.depth = w.stats.maxDepth := by
  induction h with
  | fresh => exact ⟨_, List.mem_cons_self, rfl⟩
  | @move past w v h hmove ih =>
    obtain ⟨u, hu, hdepth⟩ := ih
    have hmost : w.stats.maxDepth = v.stats.maxDepth ∨ v.depth = v.stats.maxDepth := by
      rcases hmove.counts with ⟨-, hs⟩ | ⟨-, hs⟩ | ⟨-, hs⟩ <;> rw [hs]
      · exact Or.inl rfl
      · exact (max_choice w.stats.maxDepth v.depth).imp Eq.symm Eq.symm
      · exact Or.inl rfl
    rcases hmost with hw | hv
    · exact ⟨u, List.mem_cons_of_mem v hu, hdepth.trans hw⟩
    · exact ⟨v, List.mem_cons_self, hv⟩

theorem represents (h : History form past w) : w.poisoned = true ∨ ∃ b, Represents form w b := by
  induction h with
  | fresh => exact Or.inr ⟨_, Represents.init form⟩
  | move _ hmove ih =>
    rcases ih with hp | ⟨b, hb⟩
    · exact Or.inl (hmove.poisoned hp)
    · exact hb.move hmove

/-- nothing was written, or closing what is open leaves a document whose containers the writer has counted -/
theorem closed_cases (h : History form past w) (hp : w.poisoned = false) :
    (w.rootWritten = false ∧ w.closed = "") ∨
      w.rootWritten = true ∧ ∃ j : Json, w.closed = j.render ∧ j.lastContainers w.depth = w.stack.reverse := by
  rcases h.represents with hpoisoned | ⟨b, hb⟩
  · rw [hp] at hpoisoned
    cases hpoisoned
  · exact hb.closed_cases

end History

/-- what holds of a writer that was these writers before -/
structure Sound (w : Writer) (past : List Writer) : Prop where
  balance : w.stats.opens = w.stats.closes + w.depth
  /-- the depth noted as the greatest is -/
  bound : ∀ v ∈ w :: past, v.depth ≤ w.stats.maxDepth
  reached : ∃ v ∈ w :: past, v.depth = w.stats.maxDepth
  blank : w.poisoned = false → w.rootWritten = false → w.closed = ""
  /-- closing the open containers leaves a document, and they have the members that were counted -/
  document : w.poisoned = false → w.rootWritten = true →
    ∃ j : Json, w.closed = j.render ∧ Json.WellFormed w.closed.toList ∧ j.lastContainers w.depth = w.stack.reverse

theorem History.sound (h : History form past w) : w.Sound past where
  balance := h.balance
  bound := h.bound
  reached := h.reached
  blank := by
    intro hp hroot
    rcases h.closed_cases hp with ⟨-, hclosed⟩ | ⟨hwritten, -⟩
    · exact hclosed
    · rw [hroot] at hwritten
      cases hwritten
  document := by
    intro hp hroot
    rcases h.closed_cases hp with ⟨hwritten, -⟩ | ⟨-, j, hclosed, hopen⟩
    · rw [hroot] at hwritten
      cases hwritten
    · exact ⟨j, hclosed, hclosed ▸ Json.wellFormed_render j, hopen⟩

/-- **What holds of a writer at any time.** Every script on a fresh writer gives it a history, move by move, and so
have the writers that it reports on, those inside scopes too. A call on a writer with a history goes on with it, whether
it succeeds or not. With any history: the writer has opened as many containers as it has closed and has open; the depth
it has noted is the greatest it ever had. Unless it is poisoned, its text is empty if nothing was written, and else
becomes a well-formed document once the open containers are closed, the innermost first. They are then the containers
along the last members of the document, from the outermost on, and each has as many members as the writer counted. -/
theorem history_sound (form : Bool) :
    (∀ calls, (∃ past, History form past (Script.run calls { reversible := form }).1) ∧
      ∀ r ∈ (Script.run calls { reversible := form }).2,
        ∃ a past, r = Script.report a ∧ History form past (Script.after a)) ∧
    (∀ past w c, History form past w → ∃ later, History form later (Script.after (Script.runCall c w).1) ∧
      w :: past <:+ Script.after (Script.runCall c w).1 :: later) ∧
    ∀ past w, History form past w → w.Sound past := by
  refine ⟨?_, ?_, fun past w h => h.sound⟩
  · intro calls
    obtain ⟨⟨past, h, -⟩, hreports⟩ :=
      (History.invariant_onward form []).run calls ⟨[], .fresh, List.nil_suffix⟩
    refine ⟨⟨past, h⟩, fun r hr => ?_⟩
    obtain ⟨a, ha, earlier, hearlier, -⟩ := hreports r hr
    exact ⟨a, earlier, ha, hearlier⟩
  · intro past w c h
    exact (History.invariant_onward form (w :: past)).runCall c ⟨past, h, List.suffix_rfl⟩

/-- in an object: an array of one item as a variant, and a second array, which is still open -/
def halfway : List Call :=
  [.push .object none, .write (some "a") (.variant (.array .boolean [.scalar (.boolean true)]) true),
    .push .array (some "b"), .write none (.uint16 7)]

/-- the writer after them -/
def midway : Writer where
  out := "\x7b\"a\":\x7b\"Type\":1,\"Body\":[true]\x7d,\"b\":[7"
  stack := [⟨.array, 1⟩, ⟨.object, 2⟩]
  rootWritten := true
  stats := ⟨4, 2, 3⟩

theorem history_sound_midway :
    (Script.run halfway { reversible := true }).1 = midway ∧
      ∃ past, History true past midway ∧ (∃ v ∈ midway :: past, v.depth = 3) ∧
        midway.closed = "\x7b\"a\":\x7b\"Type\":1,\"Body\":[true]\x7d,\"b\":[7]\x7d" ∧
        Json.WellFormed midway.closed.toList ∧
        ∃ j : Json, midway.closed = j.render ∧ j.lastContainers 2 = [⟨.object, 2⟩, ⟨.array, 1⟩] := by
  have hrun : (Script.run halfway { reversible := true }).1 = midway := by decide +kernel
  have hclosed : midway.closed = "\x7b\"a\":\x7b\"Type\":1,\"Body\":[true]\x7d,\"b\":[7]\x7d" := by decide +kernel
  obtain ⟨past, h⟩ := ((history_sound true).1 halfway).1
  rw [hrun] at h
  have hsound := (history_sound true).2.2 past midway h
  obtain ⟨j, hrender, hformed, hopen⟩ := hsound.document rfl rfl
  exact ⟨hrun, past, h, hsound.reached, hclosed, hformed, j, hrender, hopen⟩

end Writer

end OpcPubSub
