/-
What a writer does once it was driven against its rules.

A call that breaks a rule is refused as a whole: the writer keeps text, containers and counts and is poisoned
(`Atomic`), even where the call would have written many values. A poisoned writer refuses whatever it is asked and does
not change (`Inert`), and a scope refuses before its body runs. So one call leaves it as it is, and by induction every
sequence of calls does: of methods (`afterAll_of_poisoned`), and of a script (`Script.run_of_poisoned`). Main result:
- `misuse_fatal`: an error is atomic and final, from every state of a writer.
-/
import OpcPubSub.Proofs.Encoding.Builder

namespace OpcPubSub

/-! ## Calls of a script -/

/-- a scope is made of calls, and so is what an attempt holds -/
@[elab_as_elim, induction_eliminator]
theorem Call.inductionOn {P : Call → Prop} (push : ∀ kind name, P (.push kind name)) (pop : ∀ kind, P (.pop kind))
    (write : ∀ name item, P (.write name item)) (field : ∀ name v mask, P (.field name v mask))
    (network : ∀ m, P (.network m)) (scope : ∀ kind name body, (∀ c ∈ body, P c) → P (.scope kind name body))
    (fail : ∀ e, P (.fail e)) (attempt : ∀ c, P c → P (.attempt c)) (c : Call) : P c := by
  match c with
  | .push kind name => exact push kind name
  | .pop kind => exact pop kind
  | .write name item => exact write name item
  | .field name v mask => exact field name v mask
  | .network m => exact network m
  | .scope kind name body =>
    exact scope kind name body fun c _ => inductionOn push pop write field network scope fail attempt c
  | .fail e => exact fail e
  | .attempt c => exact attempt c (inductionOn push pop write field network scope fail attempt c)
termination_by sizeOf c
decreasing_by
  · have := List.sizeOf_lt_of_mem ‹c ∈ body›
    simp only [Call.scope.sizeOf_spec]; omega
  · simp only [Call.attempt.sizeOf_spec]; omega

namespace Script

/-- the calls of a body as one action -/
def bodyAction (cs : List Call) : Write Unit := fun w => (runBody cs w).1

theorem runCall_scope (kind : Container) (name : Option String) (body : List Call) (w : Writer) :
    (runCall (.scope kind name body) w).1 = Write.scope kind name (bodyAction body) w := by
  simp only [runCall, Write.scope, bodyAction]
  cases Write.push kind name w with
  | error e w => rfl
  | ok u w =>
    simp only
    obtain ⟨r, log⟩ := runBody body w
    cases r <;> rfl

theorem runBody_cons (c : Call) (rest : List Call) (w : Writer) :
    (runBody (c :: rest) w).1 = match (runCall c w).1 with
      | .error e w => .error e w
      | .ok _ w => (runBody rest w).1 := by
  rw [runBody]
  obtain ⟨r, log⟩ := runCall c w
  cases r <;> rfl

/-- what each call of a body keeps, the body keeps, wherever it stops -/
theorem runBody_keeps {P : Writer → Prop} {cs : List Call} (hc : ∀ c ∈ cs, ∀ w, P w → P (after (runCall c w).1))
    {w : Writer} (h : P w) : P (after (runBody cs w).1) := by
  induction cs generalizing w with
  | nil => exact h
  | cons c rest ih =>
    have hw := hc c List.mem_cons_self w h
    rw [runBody_cons]
    cases hr : (runCall c w).1 with
    | error e v =>
      rw [hr] at hw
      exact hw
    | ok u v =>
      rw [hr] at hw
      exact ih (fun d hd => hc d (List.mem_cons_of_mem c hd)) hw

/-- the writer after a script, the reports left out -/
theorem run_writer (cs : List Call) (w : Writer) :
    (run cs w).1 = cs.foldl (fun w c => after (runCall c w).1) w := by
  have go : ∀ (cs : List Call) (w : Writer) (log : List Report),
      (cs.foldl (fun (s : Writer × List Report) c =>
        (after (runCall c s.1).1, s.2 ++ (runCall c s.1).2)) (w, log)).1 =
      cs.foldl (fun w c => after (runCall c w).1) w := by
    intro cs
    induction cs with
    | nil => intro w log; rfl
    | cons c cs ih => intro w log; exact ih _ _
  exact go cs w []

end Script

theorem Writer.place_of_poisoned {w : Writer} (hw : w.poisoned = true) (name : Option String) :
    w.place name = .error .poisoned := by
  simp [Writer.place, hw]

namespace Write

theorem writes_item {reversible : Bool} (name : Option String) (item : Item) :
    Writes reversible (item.write name) name (item.json reversible) := by
  cases item with
  | null => exact Writes.leaf name _
  | bool b => exact Writes.leaf name _
  | string s => exact Writes.leaf name _
  | optString s => exact writes_optString name s
  | uint16 n => exact writes_word name _
  | uint32 n => exact writes_word name _
  | dateTime t => exact writes_dateTime name t
  | status c => exact writes_status name c
  | statusAs c form => exact writes_statusAs name c form
  | variant v form => exact writes_variant name v form
  | dataValue v form => exact writes_dataValue name v form
  | version v => exact writes_version name v
  | versions vs => exact writes_versions name vs
  | dataSet m => exact writes_dataSetWithHeader name m

/-- an item is written as its document -/
theorem item_run (name : Option String) (item : Item) (w : Writer) :
    item.write name w = json name (item.json w.reversible) w :=
  writes_item name item w rfl

theorem field_run (name : String) (v : DataValue) (mask : FieldMask) (w : Writer) :
    field name v mask w = match v.field? mask with
      | none => .ok () w
      | some j => json (some name) j w := by
  rw [writes_field name v mask w rfl]
  cases v.field? mask with
  | none => rfl
  | some j =>
    simp only [Json.present, List.flatMap_cons, List.flatMap_nil, Option.map_some, Option.toList_some,
      List.append_nil, jsonMembers, bind_run]
    cases json (some name) j w <;> rfl

theorem network_run (m : NetworkMessage) (w : Writer) :
    network m w = match m.validate with
      | .error e => .error e w
      | .ok _ => json none (m.document w.reversible) w := by
  cases h : m.validate with
  | error e => rw [network, h]
  | ok u => exact writes_network m h w rfl

/-! ## Methods -/

/-- the methods of a writer that take no body -/
inductive Primitive : Write Unit → Prop where
  | push (kind : Container) (name : Option String) : Primitive (push kind name)
  | pop (kind : Container) : Primitive (pop kind)
  | write (name : Option String) (item : Item) : Primitive (item.write name)

/-- the methods of a writer; the body of a scope may be any action at all -/
inductive Method : Write Unit → Prop where
  | primitive {a : Write Unit} (h : Primitive a) : Method a
  | scope (kind : Container) (name : Option String) (body : Write Unit) : Method (scope kind name body)

/-! ## A refused call -/

/-- an error is a broken rule and leaves all but `poisoned` as it was -/
def Atomic (a : Write Unit) : Prop :=
  ∀ w e v, a w = .error e v → (∃ m : Misuse, e = m.fault) ∧ v = { w with poisoned := true }

theorem atomic_call (f : Writer → Except Misuse Writer) : Atomic (call f) := by
  intro w e v h
  rw [call_run] at h
  cases hf : f w with
  | ok w' =>
    rw [hf] at h
    cases h
  | error m =>
    rw [hf] at h
    cases h
    exact ⟨⟨m, rfl⟩, rfl⟩

/-- a whole document is written in one call: it is refused where its first value is, and never after -/
theorem json_eq_call (name : Option String) (j : Json) :
    json name j = call fun w => (w.place name).map fun w => w.written j := by
  funext w
  rw [json_run, call_run]
  cases w.place name <;> rfl

theorem Primitive.atomic {a : Write Unit} (h : Primitive a) : Atomic a := by
  cases h with
  | push kind name => exact atomic_call _
  | pop kind => exact atomic_call _
  | write name item =>
    intro w e v hr
    rw [item_run, json_eq_call] at hr
    exact atomic_call _ w e v hr

/-- a failed scope leaves a poisoned writer, whichever of its three parts failed -/
theorem poisoned_of_scope {kind : Container} {name : Option String} {body : Write Unit} {w v : Writer} {e : Fault}
    (h : scope kind name body w = .error e v) : v.poisoned = true := by
  rw [scope_run] at h
  cases hpush : w.push kind name with
  | error m =>
    rw [hpush] at h
    cases h
    rfl
  | ok opened =>
    rw [hpush] at h
    simp only at h
    cases hbody : body opened with
    | error e' left =>
      rw [hbody] at h
      cases h
      rfl
    | ok u left =>
      rw [hbody] at h
      obtain ⟨-, rfl⟩ := atomic_call _ _ _ _ h
      rfl

theorem Method.poisoned_of_error {a : Write Unit} (ha : Method a) {w v : Writer} {e : Fault} (h : a w = .error e v) :
    v.poisoned = true := by
  cases ha with
  | primitive ha => rw [(ha.atomic w e v h).2]
  | scope kind name body => exact poisoned_of_scope h

/-! ## A poisoned writer -/

/-- on a poisoned writer the action is refused and does nothing -/
def Inert (a : Write Unit) : Prop := ∀ w : Writer, w.poisoned = true → a w = .error Misuse.poisoned.fault w

theorem inert_call {f : Writer → Except Misuse Writer}
    (h : ∀ w : Writer, w.poisoned = true → f w = .error .poisoned) : Inert (call f) := by
  intro w hw
  have hsame : { w with poisoned := true } = w := by rw [← hw]
  rw [call_run, h w hw]
  exact congrArg _ hsame

theorem inert_push (kind : Container) (name : Option String) : Inert (push kind name) :=
  inert_call fun w hw => by rw [Writer.push, Writer.place_of_poisoned hw]

theorem inert_pop (kind : Container) : Inert (pop kind) :=
  inert_call fun w hw => by rw [Writer.pop, if_pos hw]

/-- refused at the opening bracket: what the body would do does not matter -/
theorem inert_scope (kind : Container) (name : Option String) (body : Write Unit) : Inert (scope kind name body) := by
  intro w hw
  rw [scope, inert_push kind name w hw]

theorem inert_json (name : Option String) (j : Json) : Inert (json name j) := by
  rw [json_eq_call]
  exact inert_call fun w hw => by
    rw [Writer.place_of_poisoned hw]
    rfl

theorem Method.inert {a : Write Unit} (h : Method a) : Inert a := by
  cases h with
  | primitive h =>
    cases h with
    | push kind name => exact inert_push kind name
    | pop kind => exact inert_pop kind
    | write name item =>
      intro w hw
      rw [item_run]
      exact inert_json name _ w hw
  | scope kind name body => exact inert_scope kind name body

/-- the writer after some actions, whatever each of them answered -/
def afterAll (actions : List (Write Unit)) (w : Writer) : Writer :=
  actions.foldl (fun w a => Script.after (a w)) w

/-- **A poisoned writer stays as it is**, however many of its methods are called -/
theorem afterAll_of_poisoned {actions : List (Write Unit)} (h : ∀ a ∈ actions, Method a) {w : Writer}
    (hw : w.poisoned = true) : afterAll actions w = w := by
  induction actions with
  | nil => rfl
  | cons a rest ih =>
    have hstep : Script.after (a w) = w := by rw [(h a List.mem_cons_self).inert w hw, Script.after]
    rw [afterAll, List.foldl_cons, hstep]
    exact ih fun b hb => h b (List.mem_cons_of_mem a hb)

end Write

namespace Script

/-- a scope on a poisoned writer reports on itself only, not on any call of its body -/
theorem runCall_scope_of_poisoned (kind : Container) (name : Option String) (body : List Call) {w : Writer}
    (hw : w.poisoned = true) :
    runCall (.scope kind name body) w =
      (.error Misuse.poisoned.fault w, [report (.error Misuse.poisoned.fault w)]) := by
  rw [runCall, Write.inert_push kind name w hw]
  rfl

/-- one call leaves a poisoned writer as it is, also one that is the caller's own failure or swallows a failure -/
theorem runCall_of_poisoned (c : Call) {w : Writer} (hw : w.poisoned = true) : after (runCall c w).1 = w := by
  induction c with
  | push kind name => rw [runCall, Write.inert_push kind name w hw, after]
  | pop kind => rw [runCall, Write.inert_pop kind w hw, after]
  | write name item => rw [runCall, Write.item_run, Write.inert_json name _ w hw, after]
  | field name v mask =>
    rw [runCall, Write.field_run]
    cases v.field? mask with
    | none => rfl
    | some j =>
      simp only
      rw [Write.inert_json _ j w hw, after]
  | network m =>
    rw [runCall, Write.network_run]
    cases m.validate with
    | error e => rfl
    | ok u =>
      simp only
      rw [Write.inert_json none _ w hw, after]
  | scope kind name body _ => rw [runCall_scope_of_poisoned kind name body hw, after]
  | fail e => rfl
  | attempt c ih => exact ih

theorem runBody_of_poisoned (cs : List Call) {w : Writer} (hw : w.poisoned = true) : after (runBody cs w).1 = w := by
  refine runBody_keeps (P := fun v => v = w) ?_ rfl
  rintro c _ v rfl
  exact runCall_of_poisoned c hw

/-- **A whole script leaves a poisoned writer as it is** -/
theorem run_of_poisoned (cs : List Call) {w : Writer} (hw : w.poisoned = true) : (run cs w).1 = w := by
  rw [run_writer]
  induction cs with
  | nil => rfl
  | cons c rest ih =>
    rw [List.foldl_cons, runCall_of_poisoned c hw]
    exact ih

end Script

namespace Writer

theorem finish_of_poisoned {w : Writer} (hw : w.poisoned = true) : w.finish = .error Misuse.abandoned.fault := by
  rw [finish, if_pos hw]

/-- **Misuse is atomic and final.** From every state of a writer: a method without a body that fails has failed for a
broken rule, and changed nothing but that the writer is poisoned; a scope that fails, in its brackets or in its body,
leaves a poisoned writer. A poisoned writer answers every method with an error and is what it was; a scope does so
without running its body. After a method has failed, no methods and no script change the writer any more, and its text is
never handed out. -/
theorem misuse_fatal (w : Writer) :
    (∀ a e v, Write.Primitive a → a w = .error e v →
      (∃ reason, e = .writer reason) ∧ v = { w with poisoned := true }) ∧
    (∀ kind name body e v, Write.scope kind name body w = .error e v → v.poisoned = true) ∧
    (w.poisoned = true →
      (∀ a, Write.Method a → ∃ reason, a w = .error (.writer reason) w) ∧
      (∀ kind name body, ∃ r, Script.runCall (.scope kind name body) w = (r, [Script.report r])) ∧
      ∃ reason, w.finish = .error (.writer reason)) ∧
    ∀ a e v, Write.Method a → a w = .error e v →
      (∀ later, (∀ b ∈ later, Write.Method b) →
        Write.afterAll later v = v ∧ ∃ reason, (Write.afterAll later v).finish = .error (.writer reason)) ∧
      ∀ calls, (Script.run calls v).1 = v ∧ ∃ reason, (Script.run calls v).1.finish = .error (.writer reason) := by
  refine ⟨?_, ?_, ?_, ?_⟩
  · intro a e v ha h
    obtain ⟨⟨m, rfl⟩, hv⟩ := ha.atomic w e v h
    exact ⟨⟨m.message, rfl⟩, hv⟩
  · intro kind name body e v h
    exact Write.poisoned_of_scope h
  · intro hw
    refine ⟨fun a ha => ⟨_, ha.inert w hw⟩, ?_, ⟨_, finish_of_poisoned hw⟩⟩
    intro kind name body
    exact ⟨_, Script.runCall_scope_of_poisoned kind name body hw⟩
  · intro a e v ha h
    have hv := ha.poisoned_of_error h
    refine ⟨?_, ?_⟩
    · intro later hlater
      have hsame := Write.afterAll_of_poisoned hlater hv
      rw [hsame]
      exact ⟨rfl, _, finish_of_poisoned hv⟩
    · intro calls
      have hsame := Script.run_of_poisoned calls hv
      rw [hsame]
      exact ⟨rfl, _, finish_of_poisoned hv⟩

/-- an object was opened and has one member -/
def inObject : Writer where
  out := "\x7b\"a\":1"
  stack := [⟨.object, 1⟩]
  rootWritten := true
  stats := ⟨1, 0, 1⟩

/-- the object is closed as an array, and then as what it is: too late -/
theorem misuse_fatal_inObject :
    (∃ reason, Write.pop .array inObject = .error (.writer reason) { inObject with poisoned := true }) ∧
      (∃ e v, Write.scope .object (some "b") (Write.pop .array) inObject = .error e v ∧ v.poisoned = true) ∧
      (∃ reason, Write.scope .array none (pure ()) { inObject with poisoned := true } =
        .error (.writer reason) { inObject with poisoned := true }) ∧
      ∃ v reason, (Write.afterAll [Write.pop .object] v).finish = .error (.writer reason) ∧
        (Script.run [.pop .object] v).1 = v ∧ v.out = inObject.out := by
  obtain ⟨hatomic, hscope, -, hlater⟩ := misuse_fatal inObject
  obtain ⟨-, -, hpoisoned, -⟩ := misuse_fatal { inObject with poisoned := true }
  have hpop : Write.Primitive (Write.pop .array) := .pop .array
  have herror : Write.pop .array inObject =
      .error (Misuse.closedAs .array .object).fault { inObject with poisoned := true } := rfl
  refine ⟨?_, ?_, ?_, ?_⟩
  · obtain ⟨⟨reason, hreason⟩, -⟩ := hatomic _ _ _ hpop herror
    rw [hreason] at herror
    exact ⟨reason, herror⟩
  · have hinner : ∃ e v, Write.scope .object (some "b") (Write.pop .array) inObject = .error e v := ⟨_, _, rfl⟩
    obtain ⟨e, v, h⟩ := hinner
    exact ⟨e, v, h, hscope _ _ _ e v h⟩
  · exact (hpoisoned rfl).1 _ (.scope .array none (pure ()))
  · obtain ⟨hmethods, hscripts⟩ := hlater _ _ _ (.primitive hpop) herror
    obtain ⟨-, reason, hfinish⟩ := hmethods [Write.pop .object] (by simpa using .primitive (.pop .object))
    exact ⟨_, reason, hfinish, (hscripts [.pop .object]).1, rfl⟩

end Writer

end OpcPubSub
