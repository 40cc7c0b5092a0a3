/-
What a publisher is compiled to.

Names of flags, class ids and addresses are read twice, when settings are validated and when the publisher starts or
opens its sockets; the second reading never fails where the first one did not. Main results:
- `WriterGroup.compiled_of_ofSettings`: a group that is compiled is what its settings mean, flag by flag, and has not
  begun to count.
- `Publisher.ofSettings_started`: a publisher starts iff its settings pass validation, is refused with the very same
  fault, and once started has a group for each configured one, in order, and the addresses it was told.
-/
import OpcPubSub.Proofs.Config.Proper
import OpcPubSub.Proofs.Publisher.Fleet

namespace OpcPubSub

/-! ## What settings mean -/

/-- the writer of these settings before its first message -/
structure DataSetWriter.Compiled (w : Config.WriterSettings) (x : DataSetWriter) : Prop where
  id : x.id = w.id
  name : x.name = w.name
  dataSetMask : x.dataSetMask.Means w.dataSetFlags
  fieldMask : x.fieldMask.Means w.fieldFlags
  version : x.version = w.version
  sequence : x.sequence = 1

/-- the group of these settings before its first cycle -/
structure WriterGroup.Compiled (publisherId : Option String) (settings : Config.GroupSettings) (g : WriterGroup) :
    Prop where
  name : g.name = settings.name
  interval : g.intervalMs = settings.intervalMs
  mask : g.mask.Means settings.networkFlags
  publisherId : g.publisherId = publisherId
  /-- none if none is configured, or else the one that was read -/
  dataSetClassId : settings.classId.map Guid.ofText? = g.dataSetClassId.map some
  replyTo : g.replyTo = settings.replyTo
  writers : List.Forall₂ DataSetWriter.Compiled settings.writers g.writers
  cycles : g.cycles = 0

/-- the publisher of these settings before anything was published -/
structure Publisher.Started (s : Config.Settings) (p : Publisher) : Prop where
  settings : p.settings = s
  metrics : p.metrics = {}
  groups : List.Forall₂ (WriterGroup.Compiled s.publisher.publisherId) s.groups p.groups
  opsAddress : ∀ text, s.publisher.opsListen = some text →
    ∃ address, Net.SocketAddress.ofText? text = some address ∧ s.publisher.opsAddress? = some address
  udpTarget : s.transport.kind = .udp → ∃ address, s.transport.udpTarget = .ok address

/-! ## Compiling -/

theorem DataSetWriter.compiled_of_ofSettings {w : Config.WriterSettings} {x : DataSetWriter}
    (h : ofSettings w = .ok x) : Compiled w x := by
  obtain ⟨dataSetMask, hdataSet, hfield⟩ := bind_eq_ok.1 h
  obtain ⟨fieldMask, hfieldMask, hx⟩ := bind_eq_ok.1 hfield
  cases hx
  exact ⟨rfl, rfl, Mask.ofNames_eq_ok.1 hdataSet, Mask.ofNames_eq_ok.1 hfieldMask, rfl, rfl⟩

/-- **A group is what its settings mean**, and has not begun to count. -/
theorem WriterGroup.compiled_of_ofSettings {publisherId : Option String} {settings : Config.GroupSettings}
    {g : WriterGroup} (h : ofSettings publisherId settings = .ok g) : Compiled publisherId settings g := by
  obtain ⟨mask, hmask, hclass⟩ := bind_eq_ok.1 h
  obtain ⟨classId, hclassId, hmap⟩ := bind_eq_ok.1 hclass
  obtain ⟨writers, hwriters, hg⟩ := bind_eq_ok.1 hmap
  cases hg
  exact
    { name := rfl
      interval := rfl
      mask := Mask.ofNames_eq_ok.1 hmask
      publisherId := rfl
      dataSetClassId := Config.GroupSettings.dataSetClassId_eq_ok.1 hclassId
      replyTo := rfl
      writers := (forall₂_of_mapM hwriters).imp fun _ _ => DataSetWriter.compiled_of_ofSettings
      cycles := rfl }

namespace Publisher

variable {s : Config.Settings}

/-- settings that do not pass are refused before anything is compiled -/
theorem ofSettings_of_refused {e : Fault} (h : s.validate = .error e) : ofSettings s = .error e := by
  rw [ofSettings, h]
  rfl

theorem started_of_ofSettings (hvalid : s.validate = .ok ()) {p : Publisher} (h : ofSettings s = .ok p) :
    p.Started s := by
  obtain ⟨⟨⟩, -, hrest⟩ := bind_eq_ok.1 h
  obtain ⟨groups, hgroups, hp⟩ := bind_eq_ok.1 hrest
  cases hp
  have hproper := Config.Settings.valid_iff_proper.1 (Config.Settings.validate_eq_ok.1 hvalid)
  refine ⟨rfl, rfl, (forall₂_of_mapM hgroups).imp fun _ _ => WriterGroup.compiled_of_ofSettings, ?_, ?_⟩
  · intro text htext
    obtain ⟨address, haddress⟩ := hproper.opsListen text htext
    refine ⟨address, haddress, ?_⟩
    rw [Config.PublisherSettings.opsAddress?, htext, Option.bind_some, haddress]
  · intro hudp
    obtain ⟨text, address, htext, haddress⟩ := hproper.target hudp
    exact ⟨address, Config.TransportSettings.udpTarget_eq_ok.2 ⟨text, htext, haddress⟩⟩

/-- **A publisher starts iff its settings pass validation**, and is refused with the fault that validation finds. One
that starts is what its settings mean, and every address it may ask for is there. -/
theorem ofSettings_started (s : Config.Settings) :
    ((∃ p, ofSettings s = .ok p) ↔ s.validate = .ok ()) ∧
      (∀ e, ofSettings s = .error e ↔ s.validate = .error e) ∧ ∀ p, ofSettings s = .ok p → p.Started s := by
  cases hvalidate : s.validate with
  | error e =>
    rw [ofSettings_of_refused hvalidate]
    refine ⟨⟨?_, ?_⟩, fun e' => by rw [Except.error.injEq, Except.error.injEq], ?_⟩
    · rintro ⟨p, hp⟩
      cases hp
    · intro hok
      cases hok
    · intro p hp
      cases hp
  | ok u =>
    obtain ⟨p, hp, -⟩ := ofSettings_eq_ok hvalidate
    refine ⟨⟨fun _ => rfl, fun _ => ⟨p, hp⟩⟩, fun e => ?_, fun q => started_of_ofSettings hvalidate⟩
    rw [hp]
    constructor <;> (intro herror; cases herror)

end Publisher

end OpcPubSub
