/-
The writer refines the builder, script by script.

One call on both sides keeps them together or spoils both (`runCall_agrees`): the writer is poisoned and stays so, and
the builder has noted a refused call or a failed body. A whole script does the same (`run_agrees`). Main result:
- `finish_eq_ok_iff`: a script leaves a document iff the builder refused nothing, no body of a scope failed, nothing is
  open and there is a root; the text is then the compact text of the root.
-/
import OpcPubSub.Proofs.Encoding.Poison

namespace OpcPubSub

/-! ## What cannot be undone -/

/-- a call was refused or a body failed -/
def Builder.Spoiled (b : Builder) : Prop := b.refused = true ∨ b.bodyFailed = true

namespace Builder

variable {form : Bool}

theorem Spoiled.add {b b' : Builder} {name : Option String} {j : Json} (h : b.Spoiled) (ha : b.add? name j = some b') :
    b'.Spoiled := by
  rcases add_cases ha with ⟨-, -, -, rfl⟩ | ⟨_, _, _, _, -, -, rfl⟩ | ⟨_, _, _, -, -, rfl⟩ <;> exact h

theorem Spoiled.answer {b : Builder} {o : Option Builder} (h : ∀ b', o = some b' → b'.Spoiled) :
    (b.answer o).2.Spoiled := by
  cases o with
  | none => exact Or.inl rfl
  | some b' => exact h b' rfl

theorem Spoiled.answer_add {b : Builder} (h : b.Spoiled) (name : Option String) (j : Json) :
    (b.answer (b.add? name j)).2.Spoiled :=
  Spoiled.answer fun _ hb => h.add hb

theorem Spoiled.answer_pop {b : Builder} (h : b.Spoiled) (kind : Container) : (b.answer (b.pop? kind)).2.Spoiled := by
  refine Spoiled.answer ?_
  intro b' hb
  unfold pop? at hb
  cases ho : b.opened with
  | nil => rw [ho] at hb; simp at hb
  | cons g rest =>
    rw [ho] at hb
    simp only at hb
    split_ifs at hb
    exact Spoiled.add (b := { b with opened := rest }) h hb

theorem Spoiled.push {b b' : Builder} {kind : Container} {name : Option String} (h : b.Spoiled)
    (hb : b.push? kind name = some b') : b'.Spoiled := by
  unfold push? at hb
  split_ifs at hb
  simp only [Option.some.injEq] at hb
  rw [← hb]; exact h

theorem Spoiled.runBody {cs : List Call} (hc : ∀ c ∈ cs, ∀ b : Builder, b.Spoiled → (runCall form c b).2.Spoiled)
    {b : Builder} (h : b.Spoiled) : (runBody form cs b).2.Spoiled := by
  induction cs generalizing b with
  | nil => exact h
  | cons c rest ih =>
    have hb := hc c List.mem_cons_self b h
    rw [Builder.runBody]
    rcases hr : Builder.runCall form c b with ⟨_ | _, b'⟩
    · rw [hr] at hb; exact hb
    · rw [hr] at hb
      exact ih (fun d hd => hc d (List.mem_cons_of_mem _ hd)) hb

/-- what the builder has noted stays noted -/
theorem Spoiled.runCall (c : Call) {b : Builder} (h : b.Spoiled) : (runCall form c b).2.Spoiled := by
  induction c generalizing b with
  | push kind name => exact Spoiled.answer fun _ hb => h.push hb
  | pop kind => exact h.answer_pop kind
  | write name item => exact h.answer_add name _
  | field name v mask =>
    rw [Builder.runCall]
    cases v.field? mask with
    | none => exact h
    | some j => exact h.answer_add _ j
  | network m =>
    rw [Builder.runCall]
    cases m.validate with
    | error e => exact h
    | ok u => exact h.answer_add none _
  | scope kind name body ih =>
    rw [Builder.runCall]
    cases hp : b.push? kind name with
    | none => exact Or.inl rfl
    | some b' =>
      have hb : (Builder.runBody form body b').2.Spoiled := Spoiled.runBody (fun c hc b hb => ih c hc hb) (h.push hp)
      simp only
      rcases hr : Builder.runBody form body b' with ⟨_ | _, b''⟩
      · exact Or.inr rfl
      · rw [hr] at hb
        exact Spoiled.answer_pop hb kind
  | fail e => exact h
  | attempt c ih => exact ih h

end Builder

/-! ## One call -/

/-- the answers to a call on both sides: both succeed, both fail with the caller's own error, or both are spoiled -/
inductive Agrees (form : Bool) : EStateM.Result Fault Writer Unit → Bool × Builder → Prop where
  | done {w : Writer} {b : Builder} (h : Represents form w b) : Agrees form (.ok () w) (true, b)
  | failed {e : Fault} {w : Writer} {b : Builder} (h : Represents form w b) : Agrees form (.error e w) (false, b)
  | spoiled {r : EStateM.Result Fault Writer Unit} {a : Bool × Builder} (hw : (Script.after r).poisoned = true)
      (hb : a.2.Spoiled) : Agrees form r a

namespace Agrees

variable {form : Bool} {w : Writer} {b : Builder}

theorem call (f : Writer → Except Misuse Writer) (o : Option Builder)
    (hsome : ∀ b', o = some b' → ∃ v, f w = .ok v ∧ Represents form v b') (hnone : o = none → ∃ m, f w = .error m) :
    Agrees form (Write.call f w) (b.answer o) := by
  rw [Write.call_run]
  cases o with
  | none =>
    obtain ⟨m, hm⟩ := hnone rfl
    rw [hm]
    exact .spoiled rfl (Or.inl rfl)
  | some b' =>
    obtain ⟨v, hv, hr⟩ := hsome b' rfl
    rw [hv]
    exact .done hr

theorem push (h : Represents form w b) (kind : Container) (name : Option String) :
    Agrees form (Write.push kind name w) (b.answer (b.push? kind name)) :=
  call _ _ (fun _ hb => h.push hb) h.push_refused

theorem pop (h : Represents form w b) (kind : Container) :
    Agrees form (Write.pop kind w) (b.answer (b.pop? kind)) :=
  call _ _ (fun _ hb => h.pop hb) h.pop_refused

theorem json (h : Represents form w b) (name : Option String) (j : Json) :
    Agrees form (Write.json name j w) (b.answer (b.add? name j)) := by
  rw [Write.json_run]
  cases ha : b.add? name j with
  | none =>
    obtain ⟨m, hm⟩ := h.add_refused ha
    rw [hm]
    exact .spoiled rfl (Or.inl rfl)
  | some b' =>
    obtain ⟨v, hv, hr⟩ := h.add ha
    rw [hv]
    exact .done hr

end Agrees

/-- the calls of a body -/
theorem runBody_agrees {form : Bool} {cs : List Call}
    (hc : ∀ c ∈ cs, ∀ {w b}, Represents form w b → Agrees form (Script.runCall c w).1 (Builder.runCall form c b))
    {w : Writer} {b : Builder} (h : Represents form w b) :
    Agrees form (Script.runBody cs w).1 (Builder.runBody form cs b) := by
  induction cs generalizing w b with
  | nil => exact .done h
  | cons c rest ih =>
    have hrest : ∀ d ∈ rest, ∀ {w b}, Represents form w b →
        Agrees form (Script.runCall d w).1 (Builder.runCall form d b) :=
      fun d hd => hc d (List.mem_cons_of_mem _ hd)
    rw [Script.runBody_cons, Builder.runBody]
    generalize hr : (Script.runCall c w).1 = r
    generalize ha : Builder.runCall form c b = a
    have hagree := hc c List.mem_cons_self h
    rw [hr, ha] at hagree
    cases hagree with
    | done h => exact ih hrest h
    | failed h => exact .failed h
    | spoiled hw hb =>
      refine .spoiled ?_ ?_
      · cases r with
        | error e v => exact hw
        | ok u v =>
          have hsame := Script.runBody_of_poisoned rest (w := v) hw
          exact (congrArg Writer.poisoned hsame).trans hw
      · obtain ⟨_ | _, b'⟩ := a
        · exact hb
        · exact Builder.Spoiled.runBody (fun d _ b hb => hb.runCall d) hb

/-- **One call**: writer and builder answer alike, or both remember that they did not succeed. -/
theorem runCall_agrees {form : Bool} (c : Call) {w : Writer} {b : Builder} (h : Represents form w b) :
    Agrees form (Script.runCall c w).1 (Builder.runCall form c b) := by
  induction c generalizing w b with
  | push kind name => exact .push h kind name
  | pop kind => exact .pop h kind
  | write name item =>
    rw [Script.runCall, Write.writes_item name item w h.reversible, Builder.runCall]
    exact .json h name _
  | field name v mask =>
    rw [Script.runCall, Write.field_run, Builder.runCall]
    cases v.field? mask with
    | none => exact .done h
    | some j => exact .json h _ j
  | network m =>
    rw [Script.runCall, Write.network_run, Builder.runCall, h.reversible]
    cases m.validate with
    | error e => exact .failed h
    | ok u => exact .json h none _
  | scope kind name body ih =>
    rw [Script.runCall_scope, Write.scope_run, Builder.runCall]
    cases hp : b.push? kind name with
    | none =>
      obtain ⟨m, hm⟩ := h.push_refused hp
      rw [hm]
      exact .spoiled rfl (Or.inl rfl)
    | some b' =>
      obtain ⟨v, hv, hrep⟩ := h.push hp
      rw [hv]
      simp only [Script.bodyAction]
      generalize hr : (Script.runBody body v).1 = r
      generalize ha : Builder.runBody form body b' = a
      have hagree := runBody_agrees (fun c hc w b h => ih c hc h) hrep
      rw [hr, ha] at hagree
      cases hagree with
      | done h => exact .pop h kind
      | failed h => exact .spoiled rfl (Or.inr rfl)
      | spoiled hw hb =>
        refine .spoiled ?_ ?_
        · cases r with
          | error e v => rfl
          | ok u v =>
            simp only [Write.inert_pop kind v hw]
            exact hw
        · obtain ⟨_ | _, b''⟩ := a
          · exact Or.inr rfl
          · exact hb.answer_pop kind
  | fail e => exact .failed h
  | attempt c ih =>
    rw [Script.runCall, Builder.runCall]
    have hagree := ih h
    cases hr : Script.runCall c w with
    | mk r log =>
      rw [hr] at hagree
      revert hagree
      generalize Builder.runCall form c b = a
      intro hagree
      cases hagree with
      | done h => exact .done h
      | failed h => exact .done h
      | spoiled hw hb => exact .spoiled hw hb

/-! ## Whole scripts -/

/-- writer and builder are both sound and in the same place, or neither is sound -/
def Together (form : Bool) (w : Writer) (b : Builder) : Prop :=
  Represents form w b ∨ w.poisoned = true ∧ b.Spoiled

theorem Together.runCall {form : Bool} {w : Writer} {b : Builder} (h : Together form w b) (c : Call) :
    Together form (Script.after (Script.runCall c w).1) (Builder.runCall form c b).2 := by
  rcases h with h | ⟨hw, hb⟩
  · have hagree := runCall_agrees c h
    revert hagree
    generalize (Script.runCall c w).1 = r
    generalize Builder.runCall form c b = a
    intro hagree
    cases hagree with
    | done h => exact Or.inl h
    | failed h => exact Or.inl h
    | spoiled hw hb => exact Or.inr ⟨hw, hb⟩
  · rw [Script.runCall_of_poisoned c hw]
    exact Or.inr ⟨hw, hb.runCall c⟩

/-- **A whole script** keeps the two together. -/
theorem run_agrees (form : Bool) (cs : List Call) :
    Together form (Script.run cs { reversible := form }).1 (Builder.run form cs {}) := by
  rw [Script.run_writer, Builder.run]
  have h : Together form { reversible := form } {} := Or.inl (Represents.init form)
  generalize ({ reversible := form } : Writer) = w at h ⊢
  generalize ({} : Builder) = b at h ⊢
  induction cs generalizing w b with
  | nil => exact h
  | cons c cs ih => exact ih _ _ (h.runCall c)

/-- a sound writer finishes iff nothing is open and there is a root -/
theorem Represents.finish_ok {form : Bool} {w : Writer} {b : Builder} (h : Represents form w b)
    (text : String) : w.finish = .ok text ↔ b.opened = [] ∧ ∃ j, b.root = some j ∧ text = j.render := by
  have hroot := h.root
  have hout := h.out
  rw [Writer.finish, if_neg (by simp [h.usable]), h.stack]
  cases ho : b.opened with
  | cons g rest => simp [Builder.frames]
  | nil =>
    cases hr : b.root with
    | none => simp [Builder.frames, hroot, ho, hr]
    | some j => simp [Builder.frames, hroot, hout, ho, hr, Builder.text, eq_comm]

/-- **A script leaves a document iff the builder took it all.** On a fresh writer: no call was refused, no body of a
scope returned an error, nothing is open and there is a root value; the text is then the compact text of that root. -/
theorem finish_eq_ok_iff (form : Bool) (calls : List Call) (text : String) :
    (Script.run calls { reversible := form }).1.finish = .ok text ↔
      ∃ j, (Builder.run form calls {}).refused = false ∧ (Builder.run form calls {}).bodyFailed = false ∧
        (Builder.run form calls {}).opened = [] ∧ (Builder.run form calls {}).root = some j ∧ text = j.render := by
  rcases run_agrees form calls with h | ⟨hw, hb⟩
  · rw [h.finish_ok, h.accepted, h.bodies]
    constructor
    · rintro ⟨ho, j, hr, ht⟩
      exact ⟨j, rfl, rfl, ho, hr, ht⟩
    · rintro ⟨j, -, -, ho, hr, ht⟩
      exact ⟨ho, j, hr, ht⟩
  · rw [Writer.finish, if_pos hw]
    constructor
    · simp
    · rintro ⟨j, href, hbody, -⟩
      rcases hb with h | h
      · rw [href] at h; simp at h
      · rw [hbody] at h; simp at h

end OpcPubSub
