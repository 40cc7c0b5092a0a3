/-
What becomes of the groups of a publisher whose settings are valid.

A run publishes the groups of a publisher in any order and as often as one likes. Each call samples the simulated source
of the settings, every writer at a time of its own, and sends through a transport of its own; the groups share the
metrics and the transports' state. `Due` is the message that a call has to send, told from the settings and from how often
its group was called before. Main results:
- `Working.build`: one cycle of one group. Every sample is there, and the message that is due has a text.
- `Sound.publish`: hence one call sends that text, comes to what the transport says to it and counts no other error.
- `valid_faultless`: hence a publisher of valid settings starts, and in no run does a call fail but for its transport.
-/
import OpcPubSub.Proofs.Encoding.WritesDocument
import OpcPubSub.Proofs.Publisher.Accounting
import OpcPubSub.Proofs.Publisher.Simulation
import OpcPubSub.Publisher.Basic

namespace OpcPubSub

open Metrics

/-! ## Runs -/

/-- the groups of a publisher at work, and what they share -/
structure Fleet (n : ℕ) (σ : Type) where
  groups : Fin n → WriterGroup
  metrics : Registry
  link : σ

/-- the message that a group of these settings owes after `j` calls: its own envelope, and for each writer in order the
dataset message with the next number and with what the fields of the writer show at cycle `j` -/
structure NetworkMessage.Due (s : Config.Settings) (settings : Config.GroupSettings) (j : ℕ)
    (clock : UInt16 → DateTime) (moment : Moment) (m : NetworkMessage) : Prop where
  messageId : m.messageId = moment.messageId
  publisherId : m.publisherId = s.publisher.publisherId
  dataSetClassId : settings.dataSetClassId = .ok m.dataSetClassId
  replyTo : m.replyTo = settings.replyTo
  mask : settings.networkMask = .ok m.mask
  numbered : List.Forall₂ (DataSetMessage.Numbered (j + 1)) settings.writers m.messages
  sampled : List.Forall₂ (fun w d => w.Sampled settings.intervalMs (UInt64.ofNat j) (clock w.id) d.payload)
    settings.writers m.messages
  stamped : ∀ d ∈ m.messages, d.timestamp = moment.now

namespace Fleet

variable {n : ℕ} {σ : Type}

/-- a call that publishes one of the groups -/
structure Call (n : ℕ) (σ : Type) where
  group : Fin n
  /-- when each writer is sampled -/
  clock : UInt16 → DateTime
  moment : Moment
  transport : Transport σ

/-- the group of a call with what all groups share -/
def station (f : Fleet n σ) (i : Fin n) : Station σ := ⟨f.groups i, f.metrics, f.link⟩

/-- a group put back, with what all groups share -/
def put (f : Fleet n σ) (i : Fin n) (after : Station σ) : Fleet n σ :=
  ⟨Function.update f.groups i after.group, after.metrics, after.link⟩

def publish (s : Config.Settings) (c : Call n σ) (f : Fleet n σ) : Except Fault UInt64 × Fleet n σ :=
  let (answer, after) := (f.station c.group).publish c.transport (Simulation.clocked s c.clock) c.moment
  (answer, f.put c.group after)

/-- one call after the other, and the fleet after the last -/
def run (s : Config.Settings) : List (Call n σ) → Fleet n σ → List (Except Fault UInt64) × Fleet n σ
  | [], f => ([], f)
  | c :: rest, f =>
    let (answer, after) := f.publish s c
    let (answers, last) := run s rest after
    (answer :: answers, last)

/-- How calls take the transports' state from one to another, from groups that were called so often before. Each call
sends one frame: the text of the message that is due, as a frame of its group. It comes to what its transport says to
that. -/
inductive Served (s : Config.Settings) (settings : Fin n → Config.GroupSettings) :
    (Fin n → ℕ) → σ → List (Call n σ) → List (Except Fault UInt64) → σ → Prop where
  | nil (counts : Fin n → ℕ) (link : σ) : Served s settings counts link [] [] link
  | cons {counts : Fin n → ℕ} {link last : σ} {c : Call n σ} {calls : List (Call n σ)} {answer : Except Fault UInt64}
      {answers : List (Except Fault UInt64)} {m : NetworkMessage} {frame : Frame}
      (due : m.Due s (settings c.group) (counts c.group) c.clock c.moment) (encoded : m.encode = .ok frame.text)
      (owner : frame.group = (settings c.group).name)
      (answered : answer = (c.transport.send frame link).1.map fun _ => UInt64.ofNat frame.text.utf8ByteSize)
      (rest : Served s settings (Function.update counts c.group (counts c.group + 1)) (c.transport.send frame link).2
        calls answers last) :
      Served s settings counts link (c :: calls) (answer :: answers) last

/-- in the states of which `P` holds the transport accepts every frame, and `P` still holds after it -/
def Call.Accepts (P : σ → Prop) (c : Call n σ) : Prop :=
  ∀ frame link, P link → (c.transport.send frame link).1 = .ok () ∧ P (c.transport.send frame link).2

/-- what some calls leave behind if nothing ever fails but transports -/
structure Faultless (s : Config.Settings) (settings : Fin n → Config.GroupSettings) (link : σ)
    (calls : List (Call n σ)) (answers : List (Except Fault UInt64)) (after : Fleet n σ) : Prop where
  served : Served s settings (fun _ => 0) link calls answers after.link
  /-- with transports that accept their frames no call fails at all -/
  accepted : ∀ P : σ → Prop, P link → (∀ c ∈ calls, c.Accepts P) → ∀ answer ∈ answers, ∃ size, answer = .ok size
  sampleErrors : ∀ labels, after.metrics.sampleErrors.get labels = 0
  encodeErrors : ∀ labels, after.metrics.encodeErrors.get labels = 0

end Fleet

/-! ## One group -/

/-- at every cycle there is a payload for each writer, and it is the writer's own -/
theorem Config.Settings.Valid.sampleAt_sampled {s : Config.Settings} (hs : s.Valid) {settings : Config.GroupSettings}
    (h : settings ∈ s.groups) (clock : UInt16 → DateTime) (cycle : UInt64) :
    ∃ payloads, settings.sampleAt (Simulation.clocked s clock) cycle = .ok payloads ∧
      List.Forall₂ (fun w p => w.Sampled settings.intervalMs cycle (clock w.id) p) settings.writers payloads :=
  exists_mapM_forall₂ fun w hw => hs.source_sampled h hw (clock w.id) cycle

namespace WriterGroup

/-- single message mode is for one writer -/
def Fits (g : WriterGroup) : Prop :=
  g.mask.contains NetworkMask.singleDataSetMessage = true → g.writers.length = 1

/-- a group has the envelope that its settings ask for -/
structure Configured (publisherId : Option String) (settings : Config.GroupSettings) (g : WriterGroup) : Prop where
  publisherId : g.publisherId = publisherId
  dataSetClassId : settings.dataSetClassId = .ok g.dataSetClassId
  replyTo : g.replyTo = settings.replyTo
  mask : settings.networkMask = .ok g.mask

/-- a group of these settings after `j` calls, none of which failed to build its message -/
structure Working (s : Config.Settings) (settings : Config.GroupSettings) (j : ℕ) (g : WriterGroup) : Prop where
  declared : settings ∈ s.groups
  reached : g.Reached settings j j
  configured : g.Configured s.publisher.publisherId settings

theorem build_mask (g : WriterGroup) (source : DataSource) (m : Moment) : (g.build source m).2.mask = g.mask := by
  unfold build
  cases g.sampleAll source <;> rfl

theorem build_writers (g : WriterGroup) (source : DataSource) (m : Moment) :
    (g.build source m).2.writers.length = g.writers.length := by
  unfold build
  cases g.sampleAll source with
  | error e => rfl
  | ok payloads => exact List.length_map _

theorem build_eq_ok {g : WriterGroup} {source : DataSource} {m : Moment} {n : NetworkMessage}
    (h : (g.build source m).1 = .ok n) : ∃ payloads, n = g.message m payloads := by
  unfold build at h
  cases hsample : g.sampleAll source with
  | error e => simp [hsample] at h
  | ok payloads =>
    simp only [hsample, Except.ok.injEq] at h
    exact ⟨payloads, h.symm⟩

variable {s : Config.Settings} {settings : Config.GroupSettings} {j : ℕ} {g : WriterGroup}

theorem Fits.build (h : g.Fits) (source : DataSource) (m : Moment) : (g.build source m).2.Fits := by
  intro hsingle
  rw [build_mask] at hsingle
  rw [build_writers]
  exact h hsingle

/-- whatever was sampled, the message has a text -/
theorem Fits.encode (h : g.Fits) {source : DataSource} {m : Moment} {n : NetworkMessage}
    (hn : (g.build source m).1 = .ok n) : ∃ text, n.encode = .ok text := by
  obtain ⟨payloads, rfl⟩ := build_eq_ok hn
  have hlength : (g.message m payloads).messages.length ≤ g.writers.length := by
    rw [message, List.length_map, List.length_zip]
    exact Nat.min_le_left _ _
  have hvalidate : (g.message m payloads).validate = .ok () := by
    rw [NetworkMessage.validate, if_neg]
    rintro ⟨hsingle, hmany⟩
    have hone := h hsingle
    omega
  exact ⟨_, NetworkMessage.encode_of_validate _ hvalidate⟩

theorem exists_ofSettings (h : settings.Valid) (publisherId : Option String) :
    ∃ g, ofSettings publisherId settings = .ok g := by
  obtain ⟨mask, hmask, -⟩ := h.mask
  obtain ⟨classId, hclass⟩ := h.classId
  have hwriters : ∃ writers, settings.writers.mapM DataSetWriter.ofSettings = .ok writers := by
    apply exists_mapM
    intro w hw
    obtain ⟨dataSetMask, hdataSet⟩ := (h.writers w hw).dataSetMask
    obtain ⟨fieldMask, hfield⟩ := (h.writers w hw).fieldMask
    refine ⟨{ id := w.id, name := w.name, dataSetMask, fieldMask, version := w.version }, ?_⟩
    rw [DataSetWriter.ofSettings, hdataSet, hfield]
    rfl
  obtain ⟨writers, hwriters⟩ := hwriters
  refine ⟨{ name := settings.name, intervalMs := settings.intervalMs, mask, publisherId, dataSetClassId := classId,
            replyTo := settings.replyTo, writers }, ?_⟩
  rw [ofSettings, hmask, hclass, hwriters]
  rfl

theorem configured_of_ofSettings {publisherId : Option String} (h : ofSettings publisherId settings = .ok g) :
    g.Configured publisherId settings := by
  obtain ⟨mask, hmask, hclass⟩ := bind_eq_ok.1 h
  obtain ⟨classId, hclassId, hmap⟩ := bind_eq_ok.1 hclass
  obtain ⟨writers, -, hg⟩ := bind_eq_ok.1 hmap
  cases hg
  exact ⟨rfl, hclassId, rfl, hmask⟩

theorem Configured.build {publisherId : Option String} (h : g.Configured publisherId settings) (source : DataSource)
    (m : Moment) : (g.build source m).2.Configured publisherId settings := by
  unfold WriterGroup.build
  cases g.sampleAll source <;> exact ⟨h.publisherId, h.dataSetClassId, h.replyTo, h.mask⟩

/-- what a group builds is due if its dataset messages are -/
theorem Configured.due (h : g.Configured s.publisher.publisherId settings) {source : DataSource}
    {clock : UInt16 → DateTime} {m : Moment} {n : NetworkMessage} (hn : (g.build source m).1 = .ok n)
    (hnumbered : List.Forall₂ (DataSetMessage.Numbered (j + 1)) settings.writers n.messages)
    (hsampled : List.Forall₂ (fun w d => w.Sampled settings.intervalMs (UInt64.ofNat j) (clock w.id) d.payload)
      settings.writers n.messages) : n.Due s settings j clock m := by
  obtain ⟨payloads, rfl⟩ := build_eq_ok hn
  refine ⟨rfl, h.publisherId, h.dataSetClassId, h.replyTo, h.mask, hnumbered, hsampled, ?_⟩
  intro d hd
  obtain ⟨⟨x, p⟩, -, rfl⟩ := List.mem_map.1 hd
  rfl

/-- valid settings have one writer in single message mode -/
theorem Configured.fits {publisherId : Option String} (h : g.Configured publisherId settings) (hvalid : settings.Valid)
    (hlength : settings.writers.length = g.writers.length) : g.Fits := by
  intro hsingle
  obtain ⟨mask, hmask, hone⟩ := hvalid.mask
  rw [h.mask] at hmask
  cases hmask
  exact hlength ▸ hone hsingle

/-- the groups that valid settings compile to -/
theorem fits_of_ofSettings (hvalid : settings.Valid) {publisherId : Option String}
    (h : ofSettings publisherId settings = .ok g) : g.Fits :=
  (configured_of_ofSettings h).fits hvalid (reached_of_ofSettings h).writers.length_eq

theorem Working.fits (hs : s.Valid) (h : g.Working s settings j) : g.Fits :=
  h.configured.fits (hs.groups settings h.declared) h.reached.writers.length_eq

/-- **One cycle.** Every writer has its sample, and the message that is due has a text. -/
theorem Working.build (hs : s.Valid) (h : g.Working s settings j) (clock : UInt16 → DateTime) (m : Moment) :
    ∃ n text, (g.build (Simulation.clocked s clock) m).1 = .ok n ∧ n.Due s settings j clock m ∧
      n.encode = .ok text ∧ (g.build (Simulation.clocked s clock) m).2.Working s settings (j + 1) := by
  obtain ⟨hsample, hcases⟩ := h.reached.build (Simulation.clocked s clock) m
  obtain ⟨payloads, hpayloads, hshown⟩ := hs.sampleAt_sampled h.declared clock (UInt64.ofNat j)
  rw [hpayloads] at hsample
  rcases hcases with ⟨e, herror, -⟩ | ⟨n, hn, hnumbered, hafter⟩
  · rw [herror] at hsample
    cases hsample
  · obtain ⟨text, htext⟩ := (h.fits hs).encode hn
    rw [hn] at hsample
    obtain rfl : n.messages.map DataSetMessage.payload = payloads := Except.ok.inj hsample
    have hsampled := List.forall₂_map_right_iff.1 hshown
    exact ⟨n, text, hn, h.configured.due hn hnumbered hsampled, htext, h.declared, hafter, h.configured.build _ m⟩

end WriterGroup

/-- a call whose message has a text only does what its transport does to the frame -/
theorem Station.publish_of_encode {σ : Type} {t : Transport σ} {source : DataSource} {m : Moment} {s : Station σ}
    {n : NetworkMessage} {text : String} (hbuild : (s.group.build source m).1 = .ok n) (hencode : n.encode = .ok text) :
    (s.publish t source m).1 =
        (t.send ⟨s.group.name, text⟩ s.link).1.map (fun _ => (Frame.mk s.group.name text).size) ∧
      (s.publish t source m).2.link = (t.send ⟨s.group.name, text⟩ s.link).2 ∧
      (s.publish t source m).2.metrics.sampleErrors = s.metrics.sampleErrors ∧
      (s.publish t source m).2.metrics.encodeErrors = s.metrics.encodeErrors := by
  rcases publish_cases t source m s with
    ⟨e, hbuild', -⟩ | ⟨n', e, hbuild', hencode', -⟩ | ⟨n', text', e, hbuild', hencode', hsend, hpublish⟩ |
    ⟨n', text', hbuild', hencode', hsend, hpublish⟩
  · rw [hbuild] at hbuild'
    cases hbuild'
  · rw [hbuild] at hbuild'
    cases hbuild'
    rw [hencode] at hencode'
    cases hencode'
  · rw [hbuild] at hbuild'
    cases hbuild'
    rw [hencode] at hencode'
    cases hencode'
    rw [hpublish, hsend]
    exact ⟨rfl, rfl, rfl, rfl⟩
  · rw [hbuild] at hbuild'
    cases hbuild'
    rw [hencode] at hencode'
    cases hencode'
    rw [hpublish, hsend]
    exact ⟨rfl, rfl, rfl, rfl⟩

/-! ## All groups -/

namespace Fleet

variable {n : ℕ} {σ : Type} {s : Config.Settings} {settings : Fin n → Config.GroupSettings} {counts : Fin n → ℕ}
  {f : Fleet n σ}

/-- a fleet that has only ever failed to send, and how often each of its groups was called -/
structure Sound (s : Config.Settings) (settings : Fin n → Config.GroupSettings) (counts : Fin n → ℕ) (f : Fleet n σ) :
    Prop where
  working : ∀ i, (f.groups i).Working s (settings i) (counts i)
  sampleErrors : ∀ labels, f.metrics.sampleErrors.get labels = 0
  encodeErrors : ∀ labels, f.metrics.encodeErrors.get labels = 0

theorem put_self (f : Fleet n σ) (i : Fin n) (after : Station σ) : (f.put i after).groups i = after.group := by
  simp only [put, Function.update_self]

theorem put_of_ne (f : Fleet n σ) {i k : Fin n} (h : k ≠ i) (after : Station σ) :
    (f.put i after).groups k = f.groups k := by
  simp only [put, Function.update_of_ne h]

theorem Sound.put (h : f.Sound s settings counts) {i : Fin n} {after : Station σ}
    (hworking : after.group.Working s (settings i) (counts i + 1))
    (hsample : after.metrics.sampleErrors = f.metrics.sampleErrors)
    (hencode : after.metrics.encodeErrors = f.metrics.encodeErrors) :
    (f.put i after).Sound s settings (Function.update counts i (counts i + 1)) where
  working k := by
    by_cases hk : k = i
    · subst hk
      rw [put_self, Function.update_self]
      exact hworking
    · rw [put_of_ne f hk, Function.update_of_ne hk]
      exact h.working k
  sampleErrors labels := by
    rw [Fleet.put, hsample]
    exact h.sampleErrors labels
  encodeErrors labels := by
    rw [Fleet.put, hencode]
    exact h.encodeErrors labels

/-- **One call** sends the message that is due, comes to what the transport says to it, and counts no other error. -/
theorem Sound.publish (hs : s.Valid) (h : f.Sound s settings counts) (c : Call n σ) :
    ∃ (m : NetworkMessage) (frame : Frame),
      m.Due s (settings c.group) (counts c.group) c.clock c.moment ∧ m.encode = .ok frame.text ∧
      frame.group = (settings c.group).name ∧
      (f.publish s c).1 = (c.transport.send frame f.link).1.map (fun _ => frame.size) ∧
      (f.publish s c).2.link = (c.transport.send frame f.link).2 ∧
      (f.publish s c).2.Sound s settings (Function.update counts c.group (counts c.group + 1)) := by
  obtain ⟨m, text, hbuild, hdue, hencode, hworking⟩ := (h.working c.group).build hs c.clock c.moment
  have hstation : ((f.station c.group).group.build (Simulation.clocked s c.clock) c.moment).1 = .ok m := hbuild
  obtain ⟨hanswer, hlink, hsample, hencodes⟩ := Station.publish_of_encode (t := c.transport) hstation hencode
  have hput : (f.publish s c).2 =
      f.put c.group ((f.station c.group).publish c.transport (Simulation.clocked s c.clock) c.moment).2 := rfl
  refine ⟨m, ⟨(f.groups c.group).name, text⟩, hdue, hencode, (h.working c.group).reached.name, hanswer, hlink, ?_⟩
  rw [hput]
  apply h.put
  · rw [Station.publish_group]
    exact hworking
  · exact hsample
  · exact hencodes

theorem run_cons (c : Call n σ) (calls : List (Call n σ)) (f : Fleet n σ) :
    run s (c :: calls) f =
      ((f.publish s c).1 :: (run s calls (f.publish s c).2).1, (run s calls (f.publish s c).2).2) :=
  rfl

/-- a run from a sound fleet -/
theorem Sound.run (hs : s.Valid) (h : f.Sound s settings counts) (calls : List (Call n σ)) :
    Served s settings counts f.link calls (run s calls f).1 (run s calls f).2.link ∧
      ∃ counts', (run s calls f).2.Sound s settings counts' := by
  induction calls generalizing f counts with
  | nil => exact ⟨.nil counts f.link, counts, h⟩
  | cons c calls ih =>
    obtain ⟨m, frame, hdue, hencode, howner, hanswer, hlink, hsound⟩ := h.publish hs c
    obtain ⟨hserved, hlast⟩ := ih hsound
    rw [hlink] at hserved
    rw [run_cons]
    exact ⟨.cons hdue hencode howner hanswer hserved, hlast⟩

/-- if transports accept their frames, every call sends -/
theorem Served.accepted {P : σ → Prop} {link last : σ} {calls : List (Call n σ)}
    {answers : List (Except Fault UInt64)} (h : Served s settings counts link calls answers last) (hlink : P link)
    (haccept : ∀ c ∈ calls, c.Accepts P) : ∀ answer ∈ answers, ∃ size, answer = .ok size := by
  induction h with
  | nil counts link => simp
  | @cons counts link last c calls answer answers m frame hdue hencode howner hanswer hrest ih =>
    obtain ⟨hsend, hnext⟩ := haccept c List.mem_cons_self frame link hlink
    rw [List.forall_mem_cons]
    constructor
    · exact ⟨frame.size, by rw [hanswer, hsend]; rfl⟩
    · exact ih hnext fun c' hc' => haccept c' (List.mem_cons_of_mem c hc')

end Fleet

/-! ## A publisher -/

namespace Publisher

variable {σ : Type} {s : Config.Settings}

/-- the groups of a publisher, with a transport's state -/
def fleet (p : Publisher) (link : σ) : Fleet p.groups.length σ := ⟨p.groups.get, p.metrics, link⟩

/-- the publisher of valid settings starts: nothing is counted, and its groups are those of the settings -/
theorem ofSettings_eq_ok (h : s.validate = .ok ()) :
    ∃ p, ofSettings s = .ok p ∧ p.metrics = {} ∧
      List.Forall₂ (fun settings g => g.Working s settings 0) s.groups p.groups := by
  have hs := Config.Settings.validate_eq_ok.1 h
  have hgroup : ∀ settings ∈ s.groups, ∃ g, WriterGroup.ofSettings s.publisher.publisherId settings = .ok g ∧
      g.Working s settings 0 := by
    intro settings hmem
    obtain ⟨g, hg⟩ := WriterGroup.exists_ofSettings (hs.groups settings hmem) s.publisher.publisherId
    exact ⟨g, hg, hmem, WriterGroup.reached_of_ofSettings hg, WriterGroup.configured_of_ofSettings hg⟩
  obtain ⟨groups, hgroups, hworking⟩ := exists_mapM_forall₂ hgroup
  refine ⟨{ settings := s, groups }, ?_, rfl, hworking⟩
  rw [ofSettings, h, compile, hgroups]
  rfl

/-- **Valid settings never fail at work.** Their publisher starts. Whatever its groups are called to publish, in any
order, over any transports and at any times, a call sends the message that is due with what the writers show at the cycle
of their group, it fails only if its transport refuses the frame, and no error of sampling or encoding is ever counted.
What is sampled for a writer at a cycle is its own fields in their order, each with its own value, whatever else the
settings declare. -/
theorem valid_faultless (h : s.validate = .ok ()) :
    (∃ p, ofSettings s = .ok p ∧ p.groups.map WriterGroup.name = s.groups.map Config.GroupSettings.name ∧
      ∃ hlength : p.groups.length = s.groups.length, ∀ {σ : Type} (link : σ)
        (calls : List (Fleet.Call p.groups.length σ)),
        Fleet.Faultless s (fun i => s.groups.get (i.cast hlength)) link calls (Fleet.run s calls (p.fleet link)).1
          (Fleet.run s calls (p.fleet link)).2) ∧
      ∀ g ∈ s.groups, ∀ w ∈ g.writers, ∀ (now : DateTime) (cycle : UInt64),
        ∃ q, Simulation.source s now g.name w.id cycle = .ok q ∧ w.Sampled g.intervalMs cycle now q := by
  have hs := Config.Settings.validate_eq_ok.1 h
  constructor
  · obtain ⟨p, hp, hmetrics, hworking⟩ := ofSettings_eq_ok h
    have hnames : List.Forall₂ Eq (s.groups.map Config.GroupSettings.name) (p.groups.map WriterGroup.name) := by
      rw [List.forall₂_map_left_iff, List.forall₂_map_right_iff]
      exact hworking.imp fun _ _ hg => hg.reached.name.symm
    rw [List.forall₂_eq_eq_eq] at hnames
    refine ⟨p, hp, hnames.symm, hworking.length_eq.symm, ?_⟩
    intro σ link calls
    have hsound : (p.fleet link).Sound s (fun i => s.groups.get (i.cast hworking.length_eq.symm)) fun _ => 0 :=
      { working := fun i => hworking.get (i.cast hworking.length_eq.symm).isLt i.isLt
        sampleErrors := fun labels => by
          rw [fleet, hmetrics]
          rfl
        encodeErrors := fun labels => by
          rw [fleet, hmetrics]
          rfl }
    obtain ⟨hserved, counts, hlast⟩ := hsound.run hs calls
    exact ⟨hserved, fun P hlink haccept => hserved.accepted hlink haccept, hlast.sampleErrors, hlast.encodeErrors⟩
  · intro g hg w hw now cycle
    exact hs.source_sampled hg hw now cycle

/-- a writer with the id of another group's -/
def hallMeter : Config.WriterSettings where
  id := 1
  fields := [{ name := "count", signal := .counter }, { name := "phase", signal := .sine, periodMs := 4000 }]

def hall : Config.GroupSettings where
  name := "hall"
  intervalMs := 500
  networkFlags := ["SingleDataSetMessage"]
  writers := [hallMeter]

/-- two groups whose writers share an id and a field name -/
def twoGroups : Config.Settings where
  version := 1
  transport := { kind := .log }
  groups :=
    [{ name := "line", writers := [{ id := 1, fields := [{ name := "count", signal := .toggle }] }, { id := 2 }] }, hall]

theorem valid_faultless_twoGroups :
    twoGroups.validate = .ok () ∧
      (∃ p, ofSettings twoGroups = .ok p ∧ p.groups.map WriterGroup.name = ["line", "hall"] ∧
        ∀ calls : List (Fleet.Call p.groups.length Unit), (∀ c ∈ calls, c.transport = Transport.log) →
          ∀ answer ∈ (Fleet.run twoGroups calls (p.fleet ())).1, ∃ size, answer = .ok size) ∧
      ∃ q, Simulation.source twoGroups .min "hall" 1 7 = .ok q ∧ hallMeter.Sampled 500 7 .min q := by
  have hvalid : twoGroups.validate = .ok () := by decide +kernel
  obtain ⟨⟨p, hp, hnames, hlength, hrun⟩, hsampled⟩ := valid_faultless hvalid
  refine ⟨hvalid, ⟨p, hp, hnames, ?_⟩, ?_⟩
  · intro calls hlog
    apply (hrun () calls).accepted (fun _ => True) trivial
    intro c hc frame link _
    rw [hlog c hc]
    exact ⟨rfl, trivial⟩
  · exact hsampled hall (by decide) hallMeter (by decide) .min 7

end Publisher

end OpcPubSub
