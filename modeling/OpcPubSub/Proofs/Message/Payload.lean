/-
Payloads over whole runs of insertions.

An insertion under a name that is there is refused and leaves the payload as it is; any other adds its field at the end
(`call_of_mem`, `call_of_not_mem`). So by induction on the calls the names that are there are those that were ever
asked for (`mem_names_after`), and a name finds the value of its first call (`get?_after`). Main results:
- `ofPairs_fields`: a payload is made of its own fields.
- `gathered`: what every call of a run answers, what the run leaves, and when a list of fields is a payload.
-/
import Mathlib.Tactic
import OpcPubSub.Message.Payload

namespace OpcPubSub

/-- a list that repeats a key does so for the first time somewhere -/
theorem exists_first_repetition {α β : Type} {key : α → β} {xs : List α} (h : ¬(xs.map key).Nodup) :
    ∃ before x rest, xs = before ++ x :: rest ∧ (before.map key).Nodup ∧ key x ∈ before.map key := by
  induction xs using List.reverseRecOn with
  | nil => exact absurd List.nodup_nil h
  | append_singleton xs x ih =>
    by_cases hxs : (xs.map key).Nodup
    · refine ⟨xs, x, [], rfl, hxs, ?_⟩
      by_contra hx
      refine h ?_
      rw [List.map_append, List.nodup_append]
      refine ⟨hxs, List.nodup_singleton _, ?_⟩
      rintro a ha b hb rfl
      exact hx (List.mem_singleton.1 hb ▸ ha)
    · obtain ⟨before, y, rest, rfl, hbefore, hy⟩ := ih hxs
      exact ⟨before, y, rest ++ [x], by simp, hbefore, hy⟩

namespace Payload

abbrev Field := String × DataValue

/-! ## One insertion -/

/-- a field under a new name is added -/
theorem exists_insert {p : Payload} {name : String} (h : name ∉ p.names) (v : DataValue) :
    ∃ q, p.insert name v = .ok q ∧ q.names = p.names ++ [name] :=
  ⟨_, dif_neg h, by simp [names]⟩

theorem isSome_get?_iff (p : Payload) (name : String) : (p.get? name).isSome = true ↔ name ∈ p.names := by
  simp [get?, names]

/-- what an insertion answers, and the payload it leaves: a refused one leaves what it found -/
def call (p : Payload) (f : Field) : Except Fault Unit × Payload :=
  match p.insert f.1 f.2 with
  | .ok q => (.ok (), q)
  | .error e => (.error e, p)

variable {p : Payload} {f : Field}

theorem call_of_mem (h : f.1 ∈ p.names) : p.call f = (.error (.duplicateField f.1), p) := by
  rw [call, insert, dif_pos h]

theorem call_of_not_mem (h : f.1 ∉ p.names) : ∃ q, p.call f = (.ok (), q) ∧ q.fields = p.fields ++ [f] := by
  rw [call, insert, dif_neg h]
  exact ⟨_, rfl, rfl⟩

theorem mem_names_call (p : Payload) (f : Field) (name : String) :
    name ∈ (p.call f).2.names ↔ name ∈ p.names ∨ name = f.1 := by
  by_cases h : f.1 ∈ p.names
  · rw [call_of_mem h]
    exact ⟨Or.inl, fun hname => hname.elim id fun heq => heq ▸ h⟩
  · obtain ⟨q, hq, hfields⟩ := call_of_not_mem h
    rw [hq, names, hfields, List.map_append, List.mem_append, List.map_singleton, List.mem_singleton]
    rfl

/-- a later field under a name changes nothing for that name -/
theorem get?_call (p : Payload) (f : Field) (name : String) :
    (p.call f).2.get? name = (p.get? name).or (if f.1 = name then some f.2 else none) := by
  by_cases h : f.1 ∈ p.names
  · rw [call_of_mem h]
    by_cases hname : f.1 = name
    · obtain ⟨v, hv⟩ := Option.isSome_iff_exists.1 ((isSome_get?_iff p name).2 (hname ▸ h))
      rw [hv, Option.some_or]
    · rw [if_neg hname, Option.or_none]
  · obtain ⟨q, hq, hfields⟩ := call_of_not_mem h
    rw [hq, get?, hfields, List.find?_append, get?]
    by_cases hname : f.1 = name
    · cases p.fields.find? fun f => f.1 == name <;> simp [hname]
    · cases p.fields.find? fun f => f.1 == name <;> simp [hname]

/-! ## Runs of insertions -/

/-- a payload after insertions, one after the other -/
def after (p : Payload) (calls : List Field) : Payload := calls.foldl (fun p f => (p.call f).2) p

/-- the fields of those insertions that succeeded -/
def accepted (p : Payload) : List Field → List Field
  | [] => []
  | f :: rest =>
    match p.call f with
    | (.ok _, q) => f :: accepted q rest
    | (.error _, q) => accepted q rest

theorem after_cons (p : Payload) (f : Field) (rest : List Field) :
    p.after (f :: rest) = (p.call f).2.after rest := rfl

theorem fields_after (p : Payload) (calls : List Field) : (p.after calls).fields = p.fields ++ p.accepted calls := by
  induction calls generalizing p with
  | nil => exact (List.append_nil _).symm
  | cons f rest ih =>
    rw [after_cons, ih, accepted]
    by_cases h : f.1 ∈ p.names
    · rw [call_of_mem h]
    · obtain ⟨q, hq, hfields⟩ := call_of_not_mem h
      rw [hq, hfields, List.append_assoc, List.singleton_append]

theorem mem_names_after (p : Payload) (calls : List Field) (name : String) :
    name ∈ (p.after calls).names ↔ name ∈ p.names ∨ name ∈ calls.map Prod.fst := by
  induction calls generalizing p with
  | nil => simp [after]
  | cons f rest ih => rw [after_cons, ih, mem_names_call, List.map_cons, List.mem_cons, or_assoc]

/-- **The first value under a name stays.** -/
theorem get?_after (p : Payload) (calls : List Field) (name : String) :
    (p.after calls).get? name = (p.get? name).or ((calls.find? fun f => f.1 == name).map Prod.snd) := by
  induction calls generalizing p with
  | nil => simp [after]
  | cons f rest ih =>
    rw [after_cons, ih, get?_call, Option.or_assoc]
    by_cases hname : f.1 = name
    · rw [if_pos hname, List.find?_cons_of_pos (by simpa using hname), Option.some_or, Option.map_some]
    · rw [if_neg hname, List.find?_cons_of_neg (by simpa using hname), Option.none_or]

/-- names that are new and distinct are all taken -/
theorem accepted_of_nodup {calls : List Field} (h : (p.names ++ calls.map Prod.fst).Nodup) :
    p.accepted calls = calls := by
  induction calls generalizing p with
  | nil => rfl
  | cons f rest ih =>
    have hnew : f.1 ∉ p.names := fun hmem => (List.nodup_append.1 h).2.2 f.1 hmem f.1 (by simp) rfl
    obtain ⟨q, hq, hfields⟩ := call_of_not_mem hnew
    rw [accepted, hq]
    exact congrArg (f :: ·) (ih (by simpa [names, hfields] using h))

/-! ## Payloads of lists -/

/-- fields are added at the end as long as their names are new -/
theorem foldlM_insert {p q : Payload} {rest : List (String × DataValue)} (h : q.fields = p.fields ++ rest) :
    rest.foldlM (fun p f => p.insert f.1 f.2) p = .ok q := by
  induction rest generalizing p with
  | nil =>
    rw [List.append_nil] at h
    cases p
    cases q
    cases h
    rfl
  | cons f rest ih =>
    have hunique := q.unique
    have hnew : f.1 ∉ p.names := by
      intro hmem
      rw [h, List.map_append, List.nodup_append] at hunique
      exact hunique.2.2 f.1 hmem f.1 (by simp) rfl
    rw [List.foldlM_cons, insert, dif_neg hnew]
    exact ih (by rw [h, List.append_assoc]; rfl)

/-- a payload is made of its own fields -/
theorem ofPairs_fields (p : Payload) : ofPairs p.fields = .ok p :=
  foldlM_insert rfl

theorem ofPairs_of_nodup {calls : List Field} (h : (calls.map Prod.fst).Nodup) :
    ofPairs calls = .ok (empty.after calls) :=
  foldlM_insert (by rw [fields_after, accepted_of_nodup (p := empty) h])

/-- a list is refused at the first name that repeats an earlier one, whatever follows -/
theorem ofPairs_of_repetition {before rest : List Field} (hbefore : (before.map Prod.fst).Nodup)
    (h : f.1 ∈ before.map Prod.fst) : ofPairs (before ++ f :: rest) = .error (.duplicateField f.1) := by
  have hmem : f.1 ∈ (empty.after before).names := (mem_names_after empty before f.1).2 (Or.inr h)
  have hfirst : before.foldlM (fun p f => p.insert f.1 f.2) empty = .ok (empty.after before) := ofPairs_of_nodup hbefore
  rw [ofPairs, List.foldlM_append, hfirst]
  show (f :: rest).foldlM (fun p f => p.insert f.1 f.2) (empty.after before) = _
  rw [List.foldlM_cons, insert, dif_pos hmem]
  rfl

/-- **A payload holds the first value of every name.** Of any insertions into an empty payload those are refused whose
name an earlier one had, and they leave the payload as it is. What is left are the accepted fields in the order of the
calls, no name twice, and a name finds the value that came first under it. A list of fields is this payload if its names
are distinct, and else it is refused for the first name that repeats an earlier one. -/
theorem gathered (calls : List Field) :
    (∀ before f rest, calls = before ++ f :: rest →
      (f.1 ∈ before.map Prod.fst →
        (empty.after before).call f = (.error (.duplicateField f.1), empty.after before)) ∧
      (f.1 ∉ before.map Prod.fst → ((empty.after before).call f).1 = .ok ())) ∧
    (empty.after calls).fields = empty.accepted calls ∧
    (empty.after calls).names.Nodup ∧
    (∀ name, (empty.after calls).get? name = (calls.find? fun f => f.1 == name).map Prod.snd) ∧
    ((calls.map Prod.fst).Nodup → ofPairs calls = .ok (empty.after calls)) ∧
    (¬(calls.map Prod.fst).Nodup → ∃ before f rest, calls = before ++ f :: rest ∧ (before.map Prod.fst).Nodup ∧
      f.1 ∈ before.map Prod.fst ∧ ofPairs calls = .error (.duplicateField f.1)) := by
  refine ⟨?_, fields_after empty calls, (empty.after calls).unique, get?_after empty calls, ofPairs_of_nodup, ?_⟩
  · rintro before f rest -
    have hnames : f.1 ∈ (empty.after before).names ↔ f.1 ∈ before.map Prod.fst := by
      rw [mem_names_after]
      simp [names, empty]
    refine ⟨fun h => call_of_mem (hnames.2 h), fun h => ?_⟩
    obtain ⟨q, hq, -⟩ := call_of_not_mem (mt hnames.1 h)
    rw [hq]
  · intro h
    obtain ⟨before, f, rest, rfl, hbefore, hf⟩ := exists_first_repetition h
    exact ⟨before, f, rest, rfl, hbefore, hf, ofPairs_of_repetition hbefore hf⟩

/-- two names, each asked for twice -/
def repeating : List Field :=
  [("a", .plain .null), ("b", .plain (.scalar (.boolean true))), ("b", .plain .null),
    ("a", .plain (.scalar (.boolean false)))]

theorem gathered_repeating :
    (empty.after (repeating.take 2)).call ("b", .plain .null) =
        (.error (.duplicateField "b"), empty.after (repeating.take 2)) ∧
      ((empty.after (repeating.take 1)).call ("b", .plain (.scalar (.boolean true)))).1 = .ok () ∧
      (empty.after repeating).get? "b" = some (.plain (.scalar (.boolean true))) ∧
      ofPairs (repeating.take 2) = .ok (empty.after (repeating.take 2)) ∧
      ∃ before f rest, repeating = before ++ f :: rest ∧ (before.map Prod.fst).Nodup ∧ f.1 ∈ before.map Prod.fst ∧
        ofPairs repeating = .error (.duplicateField f.1) := by
  obtain ⟨hcalls, -, -, hget, -, hrepeated⟩ := gathered repeating
  obtain ⟨-, -, -, -, hdistinct, -⟩ := gathered (repeating.take 2)
  exact ⟨(hcalls (repeating.take 2) ("b", .plain .null) _ rfl).1 (by decide),
    (hcalls (repeating.take 1) _ _ rfl).2 (by decide), hget "b", hdistinct (by decide), hrepeated (by decide)⟩

end Payload

end OpcPubSub
