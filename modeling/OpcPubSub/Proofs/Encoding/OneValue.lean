/-
One value: what a whole value does to the writer it is written on.

`Admits` says where a value may stand, and under which names: exactly where the writer does not refuse it
(`admits_iff`). There, a document is appended as one value (`json_appends`): `Appended` tells the writer after it from
the one before, containers, counts and text. An action that writes a document is that document (`Writes.appends`), so
all methods that write a whole value do the same, however many calls they are made of. Main result:
- `values_append`: variants, data values, status codes, versions, dataset messages, arrays of them, and fields.
-/
import OpcPubSub.Proofs.Encoding.Poison
import OpcPubSub.Proofs.Message.Visible

namespace OpcPubSub

namespace Writer

/-- a value may stand here under this name: under any in an object, under none in an array or at an unused root -/
def Admits (w : Writer) (name : Option String) : Prop :=
  match w.stack with
  | [] => w.rootWritten = false ∧ name = none
  | ⟨.object, _⟩ :: _ => name.isSome = true
  | ⟨.array, _⟩ :: _ => name = none

/-- what stands before the next value: a comma, unless it is the first of its container -/
def separator (w : Writer) : String :=
  match w.stack with
  | [] => ""
  | inner :: _ => if inner.size = 0 then "" else ","

/-- the text of a name -/
def key (name : Option String) : String := name.elim "" fun n => Json.quote n ++ ":"

/-- `v` is `w` with one more value, the document `j` under `name` -/
structure Appended (w : Writer) (name : Option String) (j : Json) (v : Writer) : Prop where
  out : v.out = w.out ++ w.separator ++ key name ++ j.render
  depth : v.depth = w.depth
  /-- the innermost container has one member more, and those around it are as they were -/
  stack : v.stack = match w.stack with
    | [] => []
    | inner :: outer => ⟨inner.kind, inner.size + 1⟩ :: outer
  /-- whatever the value opened, it closed -/
  opens : v.stats.opens = w.stats.opens + j.containers
  closes : v.stats.closes = w.stats.closes + j.containers
  rootWritten : v.rootWritten = (w.rootWritten || w.stack.isEmpty)
  poisoned : v.poisoned = false
  reversible : v.reversible = w.reversible

/-- the action succeeds on `w`, and comes to one more value -/
def Appends (w : Writer) (name : Option String) (a : Write Unit) (j : Json) : Prop :=
  ∃ v, a w = .ok () v ∧ w.Appended name j v

variable {w v : Writer} {name : Option String}

/-- where a value may stand, a writer that is not poisoned takes one, and nowhere else -/
theorem admits_iff (hp : w.poisoned = false) : w.Admits name ↔ ∃ v, w.place name = .ok v := by
  unfold Admits place
  rw [if_neg (by simp [hp])]
  cases hs : w.stack with
  | nil => cases hr : w.rootWritten <;> cases name <;> simp
  | cons inner outer =>
    obtain ⟨_ | _, size⟩ := inner <;> cases name <;> simp

/-- a document written where a value was let in -/
theorem Appended.of_place (h : w.place name = .ok v) (j : Json) : w.Appended name j (v.written j) := by
  obtain ⟨hp, ⟨hs, hr, rfl, rfl⟩ | ⟨n, size, outer, hs, rfl, rfl⟩ | ⟨size, outer, hs, rfl, rfl⟩⟩ := place_cases h
  · constructor <;> simp [written, grown, Writer.depth, separator, key, hs, hp]
  · constructor <;> simp [written, grown, Writer.depth, separator, key, hs, hp, String.append_assoc]
  · constructor <;> simp [written, grown, Writer.depth, separator, key, hs, hp, String.append_assoc]

/-- **A document is one value**, whatever it is made of -/
theorem json_appends (hp : w.poisoned = false) (hname : w.Admits name) (j : Json) :
    w.Appends name (Write.json name j) j := by
  obtain ⟨u, hu⟩ := (admits_iff hp).1 hname
  refine ⟨u.written j, ?_, Appended.of_place hu j⟩
  rw [Write.json_run, hu]

end Writer

/-- and so is an action that writes it -/
theorem Write.Writes.appends {w : Writer} {name : Option String} {a : Write Unit} {j : Json}
    (h : Writes w.reversible a name j) (hp : w.poisoned = false) (hname : w.Admits name) : w.Appends name a j := by
  rw [Writer.Appends, h w rfl]
  exact Writer.json_appends hp hname j

/-- dataset messages, all in an array -/
theorem Write.writes_messages {reversible : Bool} (name : Option String) {layout : Layout}
    (h : layout.single = false) (ms : List DataSetMessage) :
    Writes reversible (messages name layout ms) name
      (.array (ms.map (DataSetMessage.json reversible layout.dataSetHeader))) := by
  have hitems : WritesItems reversible (each (dataSet none layout.dataSetHeader) ms)
      (ms.map (DataSetMessage.json reversible layout.dataSetHeader)) :=
    WritesItems.each fun m _ => writes_dataSet none _ m
  rw [messages, if_neg (by simp [h])]
  exact hitems.array name

namespace Writer

/-- **A value is appended as one value.** From every writer that is not poisoned, under every name that a value may have
there: a variant in either form, its items being whatever they are, a data value, a status code, a dataset message, a
version, and an array of versions or of dataset messages are all written without an error. Text, depth, containers and
counts are then as `Appended` says, for one document. Inside an object the same holds of a field under any mask, except
that null changes nothing where values are bare. -/
theorem values_append {w : Writer} (hp : w.poisoned = false) :
    (∀ name, w.Admits name →
      (∀ v form, w.Appends name (Write.variant name v form) (v.json form)) ∧
      (∀ v form, w.Appends name (Write.dataValue name v form) (v.json form)) ∧
      (∀ c form, w.Appends name (Write.statusAs name c form) (c.json form)) ∧
      (∀ m, w.Appends name (Write.dataSetWithHeader name m) (m.json w.reversible true)) ∧
      (∀ v, w.Appends name (Write.version name v) v.json) ∧
      (∀ vs, w.Appends name (Write.versions name vs) (.array (vs.map ConfigurationVersion.json))) ∧
      ∀ layout ms, layout.single = false → w.Appends name (Write.messages name layout ms)
        (.array (ms.map (DataSetMessage.json w.reversible layout.dataSetHeader)))) ∧
    ∀ size outer, w.stack = ⟨.object, size⟩ :: outer → ∀ name v mask,
      (mask.contains FieldMask.rawData = true ∧ v.value = .null → Write.field name v mask w = .ok () w) ∧
      (¬(mask.contains FieldMask.rawData = true ∧ v.value = .null) →
        ∃ j, v.field? mask = some j ∧ w.Appends (some name) (Write.field name v mask) j) := by
  refine ⟨?_, ?_⟩
  · intro name hname
    refine ⟨?_, ?_, ?_, ?_, ?_, ?_, ?_⟩
    · intro v form
      exact (Write.writes_variant name v form).appends hp hname
    · intro v form
      exact (Write.writes_dataValue name v form).appends hp hname
    · intro c form
      exact (Write.writes_statusAs name c form).appends hp hname
    · intro m
      exact (Write.writes_dataSetWithHeader name m).appends hp hname
    · intro v
      exact (Write.writes_version name v).appends hp hname
    · intro vs
      exact (Write.writes_versions name vs).appends hp hname
    · intro layout ms hlayout
      exact (Write.writes_messages name hlayout ms).appends hp hname
  · intro size outer hs name v mask
    have hname : w.Admits (some name) := by simp [Admits, hs]
    rw [← DataValue.field?_eq_none_iff, Write.field_run]
    cases hj : v.field? mask with
    | none => exact ⟨fun _ => rfl, fun h => absurd rfl h⟩
    | some j =>
      refine ⟨nofun, fun _ => ⟨j, rfl, ?_⟩⟩
      rw [Appends, Write.field_run, hj]
      exact json_appends hp hname j

/-- an array of 32-bit integers that holds null, and a status code in an array of its own -/
def mixed : Variant := .array (.int .int32) [.null, .array .statusCode [.scalar (.statusCode .good)]]

/-- it is bare in an open object; null as a field is left out -/
theorem values_append_mixed :
    (∃ v, Write.variant (some "b") mixed false inObject = .ok () v ∧
      v.out = "\x7b\"a\":1,\"b\":[null,[\x7b\"Code\":0,\"Symbol\":\"Good\"\x7d]]" ∧ v.depth = 1 ∧
      v.stack = [⟨.object, 2⟩] ∧ v.stats.opens = 4 ∧ v.stats.closes = 3) ∧
    Write.field "c" (.plain .null) FieldMask.rawData inObject = .ok () inObject := by
  obtain ⟨hvalues, hfield⟩ := values_append (w := inObject) rfl
  obtain ⟨v, hrun, happended⟩ := (hvalues (some "b") rfl).1 mixed false
  have htext : inObject.out ++ inObject.separator ++ key (some "b") ++ (mixed.json false).render =
      "\x7b\"a\":1,\"b\":[null,[\x7b\"Code\":0,\"Symbol\":\"Good\"\x7d]]" := by
    decide +kernel
  refine ⟨⟨v, hrun, happended.out.trans htext, happended.depth, happended.stack, happended.opens, happended.closes⟩, ?_⟩
  exact (hfield 1 [] rfl "c" (.plain .null) FieldMask.rawData).1 ⟨by decide, rfl⟩

end Writer

end OpcPubSub
