/-
What a configuration has to be, said without the functions that check it.

`Proper` speaks of texts and names as they stand in the settings: which names mean flags, which texts are addresses or
GUIDs, what is bounded and what is distinct. Each level of the settings has a lemma that turns what its checks compute
into that. Whatever is wrong below the version is a fault of the configuration (`FailsAsConfig`): one lemma for each
check. Main result:
- `Settings.validate_proper`: validation accepts exactly the proper configurations, and refuses others with the code of
  an unsupported version or of a bad configuration.
-/
import OpcPubSub.Proofs.Config.Valid
import OpcPubSub.Proofs.Mask

namespace OpcPubSub.Config

/-! ## Proper settings -/

structure WriterSettings.Proper (w : WriterSettings) : Prop where
  id : w.id ≠ 0
  dataSetFlags : ∀ s ∈ w.dataSetFlags, ∃ flag : DataSetMask, Mask.Names s flag
  fieldFlags : ∀ s ∈ w.fieldFlags, ∃ flag : FieldMask, Mask.Names s flag
  fields : ∀ f ∈ w.fields, f.Valid
  distinct : (w.fields.map FieldSettings.name).Nodup

structure GroupSettings.Proper (g : GroupSettings) : Prop where
  /-- not all of the name is blank -/
  name : ∃ c ∈ g.name.toList, Text.isBlank c = false
  /-- in milliseconds -/
  interval : 10 ≤ g.intervalMs.toNat ∧ g.intervalMs.toNat ≤ 3600000
  networkFlags : ∀ s ∈ g.networkFlags, ∃ flag : NetworkMask, Mask.Names s flag
  classId : ∀ text, g.classId = some text → ∃ id, Guid.ofText? text = some id
  nonempty : g.writers ≠ []
  /-- single message mode is for one writer -/
  single : (∃ s ∈ g.networkFlags, Mask.Names s NetworkMask.singleDataSetMessage) → g.writers.length = 1
  writers : ∀ w ∈ g.writers, w.Proper
  distinct : (g.writers.map WriterSettings.id).Nodup

structure Settings.Proper (s : Settings) : Prop where
  version : s.version = 1
  nonempty : s.groups ≠ []
  opsListen : ∀ text, s.publisher.opsListen = some text → ∃ address, Net.SocketAddress.ofText? text = some address
  publisherId : s.publisher.publisherId ≠ some ""
  target : s.transport.kind = .udp →
    ∃ text address, s.transport.target = some text ∧ Net.SocketAddress.ofText? text = some address
  groups : ∀ g ∈ s.groups, g.Proper
  distinct : (s.groups.map GroupSettings.name).Nodup

/-! ## What the checks compute -/

/-- nothing is left of a text iff all of it is blank -/
theorem trim_eq_empty_iff (s : String) : Text.trim s = "" ↔ ∀ c ∈ s.toList, Text.isBlank c = true := by
  rw [Text.trim, Text.trimList, ← String.toList_inj, String.toList_ofList, String.toList_empty, List.reverse_eq_nil_iff,
    List.dropWhile_eq_nil_iff]
  constructor
  · intro h
    rw [← List.dropWhile_eq_nil_iff]
    by_contra hne
    -- what is left begins with a character that is no blank
    have hhead := List.head_dropWhile_not Text.isBlank hne
    rw [h _ (List.mem_reverse.2 (List.head_mem hne))] at hhead
    cases hhead
  · intro h c hc
    exact h c ((List.dropWhile_sublist _).subset (List.mem_reverse.1 hc))

theorem WriterSettings.valid_iff_proper {w : WriterSettings} : w.Valid ↔ w.Proper := by
  constructor
  · intro h
    obtain ⟨dataSetMask, hdataSet⟩ := h.dataSetMask
    obtain ⟨fieldMask, hfield⟩ := h.fieldMask
    exact ⟨h.id, (Mask.ofNames_eq_ok.1 hdataSet).known, (Mask.ofNames_eq_ok.1 hfield).known, h.fields, h.distinct⟩
  · intro h
    exact ⟨h.id, Mask.exists_ofNames h.dataSetFlags, Mask.exists_ofNames h.fieldFlags, h.fields, h.distinct⟩

theorem GroupSettings.dataSetClassId_eq_ok {g : GroupSettings} {id : Option Guid} :
    g.dataSetClassId = .ok id ↔ g.classId.map Guid.ofText? = id.map some := by
  unfold dataSetClassId
  cases g.classId with
  | none => cases id <;> simp
  | some text =>
    cases hread : Guid.ofText? text <;> cases id <;> simp [fail, hread]

theorem GroupSettings.exists_dataSetClassId {g : GroupSettings} :
    (∃ id, g.dataSetClassId = .ok id) ↔ ∀ text, g.classId = some text → ∃ id, Guid.ofText? text = some id := by
  simp only [dataSetClassId_eq_ok]
  cases g.classId with
  | none =>
    constructor
    · intro _ text htext
      cases htext
    · intro _
      exact ⟨none, rfl⟩
  | some text =>
    constructor
    · rintro ⟨id, hid⟩ text' htext
      cases htext
      cases id with
      | none => cases hid
      | some id => exact ⟨id, Option.some.inj hid⟩
    · intro h
      obtain ⟨id, hid⟩ := h text rfl
      exact ⟨some id, by rw [Option.map_some, hid, Option.map_some]⟩

theorem GroupSettings.mask_iff {g : GroupSettings} :
    (∃ mask, g.networkMask = .ok mask ∧
      (mask.contains NetworkMask.singleDataSetMessage = true → g.writers.length = 1)) ↔
      (∀ s ∈ g.networkFlags, ∃ flag : NetworkMask, Mask.Names s flag) ∧
        ((∃ s ∈ g.networkFlags, Mask.Names s NetworkMask.singleDataSetMessage) → g.writers.length = 1) := by
  have hflag : ("SingleDataSetMessage", NetworkMask.singleDataSetMessage) ∈ Mask.flags .network := by decide
  constructor
  · rintro ⟨mask, hmask, hsingle⟩
    have hmeans := Mask.ofNames_eq_ok.1 hmask
    exact ⟨hmeans.known, fun h => hsingle ((hmeans.contains_iff hflag).2 h)⟩
  · rintro ⟨hknown, hsingle⟩
    obtain ⟨mask, hmask⟩ := Mask.exists_ofNames hknown
    exact ⟨mask, hmask, fun h => hsingle (((Mask.ofNames_eq_ok.1 hmask).contains_iff hflag).1 h)⟩

theorem GroupSettings.interval_iff {g : GroupSettings} :
    minInterval ≤ g.intervalMs ∧ g.intervalMs ≤ maxInterval ↔
      10 ≤ g.intervalMs.toNat ∧ g.intervalMs.toNat ≤ 3600000 := by
  rw [UInt64.le_iff_toNat_le, UInt64.le_iff_toNat_le]
  rfl

theorem GroupSettings.valid_iff_proper {g : GroupSettings} : g.Valid ↔ g.Proper := by
  have hname : Text.trim g.name ≠ "" ↔ ∃ c ∈ g.name.toList, Text.isBlank c = false := by
    simp [trim_eq_empty_iff]
  constructor
  · intro h
    obtain ⟨hflags, hsingle⟩ := mask_iff.1 h.mask
    exact
      { name := hname.1 h.name
        interval := interval_iff.1 h.interval
        networkFlags := hflags
        classId := exists_dataSetClassId.1 h.classId
        nonempty := h.nonempty
        single := hsingle
        writers := fun w hw => WriterSettings.valid_iff_proper.1 (h.writers w hw)
        distinct := h.distinct }
  · intro h
    exact
      { name := hname.2 h.name
        interval := interval_iff.2 h.interval
        classId := exists_dataSetClassId.2 h.classId
        mask := mask_iff.2 ⟨h.networkFlags, h.single⟩
        nonempty := h.nonempty
        writers := fun w hw => WriterSettings.valid_iff_proper.2 (h.writers w hw)
        distinct := h.distinct }

theorem PublisherSettings.validate_eq_ok {p : PublisherSettings} :
    p.validate = .ok () ↔
      (∀ text, p.opsListen = some text → ∃ address, Net.SocketAddress.ofText? text = some address) ∧
        p.publisherId ≠ some "" := by
  obtain ⟨publisherId, opsListen⟩ := p
  have hid : (if publisherId = some "" then fail .noPublisherId else pure () : Except Fault Unit) = .ok () ↔
      publisherId ≠ some "" := by
    split_ifs with h <;> simp [h, fail, pure, Except.pure]
  cases opsListen with
  | none => simpa [validate] using hid
  | some text =>
    cases hread : Net.SocketAddress.ofText? text with
    | none => simp [validate, hread, fail, bind, Except.bind]
    | some address => simpa [validate, hread] using hid

theorem TransportSettings.udpTarget_eq_ok {t : TransportSettings} {address : Net.SocketAddress} :
    t.udpTarget = .ok address ↔ ∃ text, t.target = some text ∧ Net.SocketAddress.ofText? text = some address := by
  unfold udpTarget
  cases t.target with
  | none => simp [fail]
  | some text => cases hread : Net.SocketAddress.ofText? text <;> simp [fail, hread]

theorem TransportSettings.validate_eq_ok {t : TransportSettings} :
    t.validate = .ok () ↔ (t.kind = .udp →
      ∃ text address, t.target = some text ∧ Net.SocketAddress.ofText? text = some address) := by
  unfold validate
  cases t.kind with
  | log => simp
  | udp =>
    have hsome : t.udpTarget.map (fun _ => ()) = .ok () ↔ ∃ address, t.udpTarget = .ok address := by
      simp [map_eq_ok]
    simp only [hsome, udpTarget_eq_ok, forall_const]
    exact exists_comm

theorem Settings.valid_iff_proper {s : Settings} : s.Valid ↔ s.Proper := by
  constructor
  · intro h
    obtain ⟨hops, hid⟩ := PublisherSettings.validate_eq_ok.1 h.publisher
    exact
      { version := h.version
        nonempty := h.nonempty
        opsListen := hops
        publisherId := hid
        target := TransportSettings.validate_eq_ok.1 h.transport
        groups := fun g hg => GroupSettings.valid_iff_proper.1 (h.groups g hg)
        distinct := h.distinct }
  · intro h
    exact
      { version := h.version
        publisher := PublisherSettings.validate_eq_ok.2 ⟨h.opsListen, h.publisherId⟩
        transport := TransportSettings.validate_eq_ok.2 h.target
        nonempty := h.nonempty
        groups := fun g hg => GroupSettings.valid_iff_proper.2 (h.groups g hg)
        distinct := h.distinct }

/-! ## How checks fail -/

/-- if it fails, then for what is wrong with the configuration -/
def FailsAsConfig {α : Type} (r : Except Fault α) : Prop := ∀ e, r = .error e → e.code = .badConfig

namespace FailsAsConfig

variable {α β : Type}

theorem ok (x : α) : FailsAsConfig (.ok x) := by
  intro e h
  cases h

theorem fail (p : Problem) : FailsAsConfig (fail p : Except Fault α) := by
  intro e h
  cases h
  rfl

theorem bind {r : Except Fault α} {f : α → Except Fault β} (h : FailsAsConfig r) (hf : ∀ x, FailsAsConfig (f x)) :
    FailsAsConfig (r >>= f) := by
  cases r with
  | ok x => exact hf x
  | error e => exact fun e' he' => h e' (by cases he'; rfl)

theorem map {r : Except Fault α} (f : α → β) (h : FailsAsConfig r) : FailsAsConfig (r.map f) := by
  cases r with
  | ok x => exact ok (f x)
  | error e => exact fun e' he' => h e' (by cases he'; rfl)

/-- a check that may end a computation -/
theorem check {c : Prop} [Decidable c] (p : Problem) {k : Unit → Except Fault β} (hk : FailsAsConfig (k ())) :
    FailsAsConfig (if c then Config.fail p >>= k else k ()) := by
  split_ifs
  · exact bind (fail p) fun _ => hk
  · exact hk

theorem ofNames (l : Layer) (names : List String) : FailsAsConfig (Mask.ofNames l names) :=
  fun _ h => Mask.code_of_ofNames h

theorem each {κ : Type} [DecidableEq κ] {key : α → κ} {check : α → Except Fault Unit} {repeated : α → Problem}
    (h : ∀ x, FailsAsConfig (check x)) (seen : List κ) (xs : List α) :
    FailsAsConfig (each key check repeated seen xs) := by
  induction xs generalizing seen with
  | nil => exact ok ()
  | cons x xs ih =>
    refine bind (h x) fun _ => ?_
    split_ifs
    · exact fail _
    · exact ih _

end FailsAsConfig

theorem WriterSettings.failsAsConfig_validate (group : String) (w : WriterSettings) :
    FailsAsConfig (w.validate group) := by
  unfold validate
  apply FailsAsConfig.check
  apply FailsAsConfig.bind (.ofNames _ _)
  intro _
  apply FailsAsConfig.bind (.ofNames _ _)
  intro _
  apply FailsAsConfig.each
  intro f
  cases f.problem? with
  | none => exact .ok ()
  | some p => exact .fail _

theorem GroupSettings.failsAsConfig_dataSetClassId (g : GroupSettings) : FailsAsConfig g.dataSetClassId := by
  unfold dataSetClassId
  split
  · exact .ok _
  · split
    · exact .ok _
    · exact .fail _

theorem GroupSettings.failsAsConfig_validate (g : GroupSettings) : FailsAsConfig g.validate := by
  unfold validate
  apply FailsAsConfig.check
  apply FailsAsConfig.check
  apply FailsAsConfig.bind (.ofNames _ _)
  intro mask
  apply FailsAsConfig.bind g.failsAsConfig_dataSetClassId
  intro _
  apply FailsAsConfig.check
  apply FailsAsConfig.check
  apply FailsAsConfig.each
  exact WriterSettings.failsAsConfig_validate g.name

theorem PublisherSettings.failsAsConfig_validate (p : PublisherSettings) : FailsAsConfig p.validate := by
  have hid : FailsAsConfig (if p.publisherId = some "" then fail .noPublisherId else pure () : Except Fault Unit) := by
    split_ifs
    · exact .fail _
    · exact .ok ()
  unfold validate
  cases p.opsListen with
  | none => exact hid
  | some text =>
    apply FailsAsConfig.check
    exact hid

theorem TransportSettings.failsAsConfig_udpTarget (t : TransportSettings) : FailsAsConfig t.udpTarget := by
  unfold udpTarget
  split
  · exact .fail _
  · split
    · exact .ok _
    · exact .fail _

theorem TransportSettings.failsAsConfig_validate (t : TransportSettings) : FailsAsConfig t.validate := by
  unfold validate
  cases t.kind with
  | log => exact .ok ()
  | udp => exact t.failsAsConfig_udpTarget.map _

theorem Settings.failsAsConfig_validate {s : Settings} (h : s.version = 1) : FailsAsConfig s.validate := by
  simp only [validate, supportedVersion, h, ne_eq, not_true_eq_false, if_false]
  apply FailsAsConfig.check
  apply FailsAsConfig.bind s.publisher.failsAsConfig_validate
  intro _
  apply FailsAsConfig.bind s.transport.failsAsConfig_validate
  intro _
  apply FailsAsConfig.each
  exact GroupSettings.failsAsConfig_validate

theorem Settings.validate_eq_unsupportedVersion {s : Settings} (h : s.version ≠ 1) :
    s.validate = .error .unsupportedVersion := by
  simp only [validate, supportedVersion, ne_eq, h, not_false_eq_true, if_true]
  rfl

/-- **Validation accepts exactly the proper configurations.** One that is refused is of an unsupported version, if its
version is not the supported one, or else a bad configuration. -/
theorem Settings.validate_proper (s : Settings) :
    (s.validate = .ok () ↔ s.Proper) ∧
      ∀ e, s.validate = .error e → e.code = if s.version = 1 then .badConfig else .unsupportedVersion := by
  refine ⟨validate_eq_ok.trans valid_iff_proper, ?_⟩
  intro e he
  by_cases hversion : s.version = 1
  · rw [if_pos hversion]
    exact failsAsConfig_validate hversion e he
  · rw [validate_eq_unsupportedVersion hversion] at he
    rw [if_neg hversion]
    cases he
    rfl

end OpcPubSub.Config
