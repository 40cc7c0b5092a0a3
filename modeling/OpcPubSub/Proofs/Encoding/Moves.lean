/-
Moves: what happens to a writer at once.

Whatever is asked of a writer, it does one thing after the other. It takes a leaf, opens a container, closes one, or is
poisoned (`Writer.Move`). `leaf_cases`, `push_cases` and `pop_cases` tell what the first three leave. What every move
keeps is an invariant, and it is kept by every method (`Invariant.scope`, `Invariant.json`), by every call wherever it
stops and whatever it answers (`Invariant.runCall`), and by every script (`Invariant.run`). What is reported of a call
inside a scope is also said of such a writer (`Invariant.reports`).
-/
import OpcPubSub.Proofs.Encoding.Poison

namespace OpcPubSub

namespace Writer

variable {w v : Writer} {name : Option String} {kind : Container}

theorem leaf_cases {a : Atom} (h : w.leaf name a = .ok v) :
    ∃ u, w.place name = .ok u ∧ v = { u with out := u.out ++ a.text } := by
  rw [leaf] at h
  cases hplace : w.place name with
  | error m =>
    rw [hplace] at h
    cases h
  | ok u =>
    rw [hplace] at h
    cases h
    exact ⟨u, rfl, rfl⟩

theorem push_cases (h : w.push kind name = .ok v) :
    ∃ u, w.place name = .ok u ∧
      v = { u with out := u.out ++ kind.opening,
                   stack := ⟨kind, 0⟩ :: u.stack,
                   stats := { u.stats with opens := u.stats.opens + 1,
                                           maxDepth := max u.stats.maxDepth (u.stack.length + 1) } } := by
  rw [push] at h
  cases hplace : w.place name with
  | error m =>
    rw [hplace] at h
    cases h
  | ok u =>
    rw [hplace] at h
    cases h
    exact ⟨u, rfl, rfl⟩

theorem pop_cases (h : w.pop kind = .ok v) :
    ∃ size rest, w.poisoned = false ∧ w.stack = ⟨kind, size⟩ :: rest ∧
      v = { w with out := w.out ++ kind.closing,
                   stack := rest,
                   stats := { w.stats with closes := w.stats.closes + 1 } } := by
  unfold pop at h
  split_ifs at h with hp
  cases hs : w.stack with
  | nil =>
    rw [hs] at h
    cases h
  | cons inner rest =>
    rw [hs] at h
    simp only at h
    split_ifs at h with hkind
    cases h
    subst hkind
    exact ⟨inner.size, rest, by simpa using hp, rfl, rfl⟩

end Writer

namespace Script

/-- a scope reports on the calls of its body, if it is opened, and then on itself -/
theorem runCall_scope_log (kind : Container) (name : Option String) (body : List Call) (w : Writer) :
    (runCall (.scope kind name body) w).2 =
      (match w.push kind name with
        | .error _ => []
        | .ok opened => (runBody body opened).2) ++ [report (runCall (.scope kind name body) w).1] := by
  simp only [runCall, Write.push, Write.call_run]
  cases w.push kind name with
  | error m => rfl
  | ok opened =>
    simp only
    obtain ⟨r, log⟩ := runBody body opened
    cases r <;> rfl

/-- what each call of a body says of the writers it reports on, the body says of all of them -/
theorem runBody_reports {P : Writer → Prop} {Q : Report → Prop} {cs : List Call}
    (hkeeps : ∀ c ∈ cs, ∀ w, P w → P (after (runCall c w).1))
    (hc : ∀ c ∈ cs, ∀ {w}, P w → ∀ r ∈ (runCall c w).2, Q r) {w : Writer} (h : P w) :
    ∀ r ∈ (runBody cs w).2, Q r := by
  induction cs generalizing w with
  | nil => simp [runBody]
  | cons c rest ih =>
    have hw := hkeeps c List.mem_cons_self w h
    have hfirst : ∀ r ∈ (runCall c w).2, Q r := hc c List.mem_cons_self h
    rw [runBody]
    generalize runCall c w = answered at hw hfirst ⊢
    obtain ⟨result, log⟩ := answered
    cases result with
    | error e v => exact hfirst
    | ok u v =>
      have hrest := ih (fun d hd => hkeeps d (List.mem_cons_of_mem c hd))
        (fun d hd => hc d (List.mem_cons_of_mem c hd)) hw
      intro r hr
      exact (List.mem_append.1 hr).elim (hfirst r) (hrest r)

end Script

/-- one leaf, one bracket, or that the writer is poisoned -/
inductive Writer.Move (w : Writer) : Writer → Prop where
  | leaf {name : Option String} {a : Atom} {v : Writer} (h : w.leaf name a = .ok v) : Move w v
  | push {kind : Container} {name : Option String} {v : Writer} (h : w.push kind name = .ok v) : Move w v
  | pop {kind : Container} {v : Writer} (h : w.pop kind = .ok v) : Move w v
  | poison : Move w { w with poisoned := true }

/-- kept by every move -/
structure Writer.Invariant (P : Writer → Prop) : Prop where
  move : ∀ {w v : Writer}, P w → w.Move v → P v

/-- the action keeps this of a writer, whatever it answers -/
def Write.Keeps (P : Writer → Prop) (a : Write Unit) : Prop := ∀ w, P w → P (Script.after (a w))

namespace Writer.Invariant

open Write (Keeps)

variable {P : Writer → Prop}

theorem call (hP : Invariant P) {f : Writer → Except Misuse Writer} (hf : ∀ {w v : Writer}, f w = .ok v → w.Move v) :
    Keeps P (Write.call f) := by
  intro w h
  rw [Write.call_run]
  cases hw : f w with
  | error m => exact hP.move h .poison
  | ok v => exact hP.move h (hf hw)

theorem leaf (hP : Invariant P) (name : Option String) (a : Atom) : Keeps P (Write.leaf name a) := hP.call .leaf

theorem push (hP : Invariant P) (kind : Container) (name : Option String) : Keeps P (Write.push kind name) :=
  hP.call .push

theorem pop (hP : Invariant P) (kind : Container) : Keeps P (Write.pop kind) := hP.call .pop

theorem bind {a b : Write Unit} (ha : Keeps P a) (hb : Keeps P b) : Keeps P (do a; b) := by
  intro w h
  have hw := ha w h
  rw [Write.bind_run]
  cases hr : a w with
  | error e v =>
    rw [hr] at hw
    exact hw
  | ok u v =>
    rw [hr] at hw
    exact hb v hw

theorem scope (hP : Invariant P) {body : Write Unit} (hbody : Keeps P body) (kind : Container) (name : Option String) :
    Keeps P (Write.scope kind name body) := by
  intro w h
  rw [Write.scope_run]
  cases hpush : w.push kind name with
  | error m => exact hP.move h .poison
  | ok opened =>
    have hopened := hbody opened (hP.move h (.push hpush))
    simp only
    cases hr : body opened with
    | error e v =>
      rw [hr] at hopened
      exact hP.move hopened .poison
    | ok u v =>
      rw [hr] at hopened
      exact hP.pop kind v hopened

/-- a document, one value after the other -/
theorem json (hP : Invariant P) (name : Option String) (j : Json) : Keeps P (Write.json name j) := by
  induction j generalizing name with
  | atom a =>
    rw [Write.json]
    exact hP.leaf name a
  | array items ih =>
    have hitems : Keeps P (Write.jsonItems items) := by
      induction items with
      | nil => exact fun w h => h
      | cons j rest ihrest =>
        rw [Write.jsonItems]
        exact bind (ih j List.mem_cons_self none) (ihrest fun k hk => ih k (List.mem_cons_of_mem j hk))
    rw [Write.json]
    exact hP.scope hitems .array name
  | object ms ih =>
    have hmembers : Keeps P (Write.jsonMembers ms) := by
      induction ms with
      | nil => exact fun w h => h
      | cons m rest ihrest =>
        rw [Write.jsonMembers]
        exact bind (ih m List.mem_cons_self _) (ihrest fun k hk => ih k (List.mem_cons_of_mem m hk))
    rw [Write.json]
    exact hP.scope hmembers .object name

/-- **One call keeps what every move keeps**, also a call that fails -/
theorem runCall (hP : Invariant P) (c : Call) {w : Writer} (h : P w) : P (Script.after (Script.runCall c w).1) := by
  induction c generalizing w with
  | push kind name => exact hP.push kind name w h
  | pop kind => exact hP.pop kind w h
  | write name item =>
    rw [Script.runCall, Write.item_run]
    exact hP.json name _ w h
  | field name v mask =>
    rw [Script.runCall, Write.field_run]
    cases v.field? mask with
    | none => exact h
    | some j => exact hP.json _ j w h
  | network m =>
    rw [Script.runCall, Write.network_run]
    cases m.validate with
    | error e => exact h
    | ok u => exact hP.json none _ w h
  | scope kind name body ih =>
    rw [Script.runCall_scope]
    have hbody : Keeps P (Script.bodyAction body) := fun w h => Script.runBody_keeps (fun c hc w h => ih c hc h) h
    exact hP.scope hbody kind name w h
  | fail e => exact h
  | attempt c ih => exact ih h

/-- and it holds of every writer that the call reports on, those in the bodies of its scopes too -/
theorem reports (hP : Invariant P) (c : Call) {w : Writer} (h : P w) :
    ∀ r ∈ (Script.runCall c w).2, ∃ a, r = Script.report a ∧ P (Script.after a) := by
  induction c generalizing w with
  | push kind name => exact fun r hr => ⟨_, List.mem_singleton.1 hr, hP.runCall (.push kind name) h⟩
  | pop kind => exact fun r hr => ⟨_, List.mem_singleton.1 hr, hP.runCall (.pop kind) h⟩
  | write name item => exact fun r hr => ⟨_, List.mem_singleton.1 hr, hP.runCall (.write name item) h⟩
  | field name v mask => exact fun r hr => ⟨_, List.mem_singleton.1 hr, hP.runCall (.field name v mask) h⟩
  | network m => exact fun r hr => ⟨_, List.mem_singleton.1 hr, hP.runCall (.network m) h⟩
  | scope kind name body ih =>
    intro r hr
    rw [Script.runCall_scope_log, List.mem_append, List.mem_singleton] at hr
    rcases hr with hr | rfl
    · cases hpush : w.push kind name with
      | error m => simp [hpush] at hr
      | ok opened =>
        rw [hpush] at hr
        refine Script.runBody_reports (fun c _ w h => hP.runCall c h) ih (hP.move h (.push hpush)) r hr
    · exact ⟨_, rfl, hP.runCall (.scope kind name body) h⟩
  | fail e => exact fun r hr => ⟨_, List.mem_singleton.1 hr, hP.runCall (.fail e) h⟩
  | attempt c ih => exact ih h

/-- **A script keeps what every move keeps**, and it holds of every writer that the script reports on. -/
theorem run (hP : Invariant P) (cs : List Call) {w : Writer} (h : P w) :
    P (Script.run cs w).1 ∧ ∀ r ∈ (Script.run cs w).2, ∃ a, r = Script.report a ∧ P (Script.after a) := by
  -- the log so far is general, as it is only added to
  have go : ∀ (cs : List Call) (s : Writer × List Report), P s.1 →
      (∀ r ∈ s.2, ∃ a, r = Script.report a ∧ P (Script.after a)) →
      let t := cs.foldl (fun s c => (Script.after (Script.runCall c s.1).1, s.2 ++ (Script.runCall c s.1).2)) s
      P t.1 ∧ ∀ r ∈ t.2, ∃ a, r = Script.report a ∧ P (Script.after a) := by
    intro cs
    induction cs with
    | nil => exact fun s hs hlog => ⟨hs, hlog⟩
    | cons c rest ih =>
      intro s hs hlog
      refine ih _ (hP.runCall c hs) fun r hr => ?_
      exact (List.mem_append.1 hr).elim (hlog r) (hP.reports c hs r)
  exact go cs (w, []) h (by simp)

end Writer.Invariant

end OpcPubSub
