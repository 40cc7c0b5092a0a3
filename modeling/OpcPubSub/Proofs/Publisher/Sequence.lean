/-
Sequence numbers over whole runs of a writer group.

A run is a list of calls to a group that was just compiled. A call builds a network message and, if it has a transport,
publishes it. Sources and transports are arbitrary and may differ from call to call, so sampling may fail at any writer
of any call, and sending at any call. Main results:
- `Reached.build`: one step. After `j` calls, of which `k` built a message, a group samples all writers at cycle `j`. If
  that fails it has counted the call and nothing else; if not, every writer has also gone on to its next number.
- `run_inStep`: hence the messages of a run are numbered without a gap from 1 on, every writer alike, modulo `2 ^ 32`,
  whatever became of those that were published.
-/
import Mathlib
import OpcPubSub.Proofs.Except
import OpcPubSub.Publisher.Cycle

namespace OpcPubSub

/-! ## Runs -/

namespace Station

variable {σ : Type}

/-- a call to a group: what it samples, when, and the transport its message goes to, without which it is only built -/
structure Call (σ : Type) where
  source : DataSource
  moment : Moment
  transport : Option (Transport σ) := none

/-- what a call came to: the message it built, and how publishing went if it was published -/
structure Outcome where
  built : Except Fault NetworkMessage
  published : Option (Except Fault UInt64)

/-- the messages that were built, in order, sent or not -/
def messages (log : List Outcome) : List NetworkMessage := log.filterMap fun o => o.built.toOption

/-- one call, and the station after it -/
def call (c : Call σ) (s : Station σ) : Outcome × Station σ :=
  let (built, group) := s.group.build c.source c.moment
  match c.transport with
  | none => (⟨built, none⟩, { s with group })
  | some t =>
    let (answer, after) := s.publish t c.source c.moment
    (⟨built, some answer⟩, after)

/-- one call after the other, and the station after the last -/
def run : List (Call σ) → Station σ → List Outcome × Station σ
  | [], s => ([], s)
  | c :: rest, s =>
    let (outcome, after) := s.call c
    let (log, last) := run rest after
    (outcome :: log, last)

end Station

/-! ## What a run keeps -/

/-- the payloads of all writers at a cycle, in the order of the settings; the first failure is the answer -/
def Config.GroupSettings.sampleAt (settings : Config.GroupSettings) (source : DataSource) (cycle : UInt64) :
    Except Fault (List Payload) :=
  settings.writers.mapM fun w => source settings.name w.id cycle

/-- a message that was built is encoded and sent as a frame of its group; the first failure is the answer -/
def Transport.deliver {σ : Type} (t : Transport σ) (group : String) (built : Except Fault NetworkMessage) (link : σ) :
    Except Fault UInt64 := do
  let text ← (← built).encode
  let frame : Frame := ⟨group, text⟩
  (t.send frame link).1.map fun _ => frame.size

/-- the dataset message with number `n` of a configured writer -/
structure DataSetMessage.Numbered (n : Nat) (w : Config.WriterSettings) (d : DataSetMessage) : Prop where
  writerId : d.writerId = w.id
  writerName : d.writerName = w.name
  version : d.version = w.version
  mask : w.dataSetMask = .ok d.mask
  fieldMask : w.fieldMask = .ok d.fieldMask
  sequenceNumber : d.sequenceNumber.toNat = n % 2 ^ 32

/-- a configured writer whose next message has number `n` -/
structure DataSetWriter.Ready (n : Nat) (w : Config.WriterSettings) (x : DataSetWriter) : Prop where
  id : x.id = w.id
  name : x.name = w.name
  version : x.version = w.version
  mask : w.dataSetMask = .ok x.dataSetMask
  fieldMask : w.fieldMask = .ok x.fieldMask
  sequence : x.sequence.toNat = n % 2 ^ 32

/-- the group of these settings after `j` calls of which `k` built a message -/
structure WriterGroup.Reached (settings : Config.GroupSettings) (j k : Nat) (g : WriterGroup) : Prop where
  name : g.name = settings.name
  cycles : g.cycles = UInt64.ofNat j
  writers : List.Forall₂ (DataSetWriter.Ready (k + 1)) settings.writers g.writers

/-- a run that keeps step with the settings of its group, from `j₀` calls and `k₀` messages on -/
structure Station.InStep {σ : Type} (settings : Config.GroupSettings) (j₀ k₀ : Nat) (calls : List (Call σ))
    (log : List Outcome) (last : WriterGroup) : Prop where
  /-- one outcome for each call -/
  length : log.length = calls.length
  /-- a call samples at the cycle whose number is that of the calls before it, modulo `2 ^ 64`, failed ones included -/
  samples : ∀ (j : Nat) (c : Call σ) (o : Outcome), calls[j]? = some c → log[j]? = some o →
    o.built.map (fun m => m.messages.map DataSetMessage.payload) =
      settings.sampleAt c.source (UInt64.ofNat (j₀ + j))
  /-- what is published is what was built, encoded and sent -/
  publishes : ∀ (j : Nat) (c : Call σ) (o : Outcome) (t : Transport σ), calls[j]? = some c → log[j]? = some o →
    c.transport = some t → ∃ link, o.published = some (t.deliver settings.name o.built link)
  /-- a message has one dataset message for each writer, numbered by the messages before it, dropped ones included -/
  numbers : ∀ (k : Nat) (m : NetworkMessage), (messages log)[k]? = some m →
    List.Forall₂ (DataSetMessage.Numbered (k₀ + k + 1)) settings.writers m.messages
  /-- no number is taken but by a message that was built -/
  last : last.Reached settings (j₀ + calls.length) (k₀ + (messages log).length)

/-! ## One step of a group -/

namespace DataSetWriter

variable {n : Nat} {w : Config.WriterSettings} {x : DataSetWriter}

/-- a writer starts with number 1 -/
theorem ready_of_ofSettings (h : ofSettings w = .ok x) : Ready 1 w x := by
  obtain ⟨mask, hmask, hfield⟩ := bind_eq_ok.1 h
  obtain ⟨fieldMask, hfieldMask, hx⟩ := bind_eq_ok.1 hfield
  cases hx
  exact ⟨rfl, rfl, rfl, hmask, hfieldMask, rfl⟩

theorem Ready.advance (h : Ready n w x) : Ready (n + 1) w x.advance where
  id := h.id
  name := h.name
  version := h.version
  mask := h.mask
  fieldMask := h.fieldMask
  sequence := by
    have hone : (1 : UInt32).toNat = 1 := rfl
    rw [DataSetWriter.advance, UInt32.toNat_add, h.sequence, hone, Nat.mod_add_mod]

theorem Ready.message (h : Ready n w x) (now : DateTime) (p : Payload) : (x.message now p).Numbered n w where
  writerId := h.id
  writerName := h.name
  version := h.version
  mask := h.mask
  fieldMask := h.fieldMask
  sequenceNumber := h.sequence

end DataSetWriter

namespace WriterGroup

variable {settings : Config.GroupSettings} {g : WriterGroup} {j k : Nat}

theorem reached_of_ofSettings {publisherId : Option String} (h : ofSettings publisherId settings = .ok g) :
    g.Reached settings 0 0 := by
  obtain ⟨mask, -, hclass⟩ := bind_eq_ok.1 h
  obtain ⟨classId, -, hmap⟩ := bind_eq_ok.1 hclass
  obtain ⟨writers, hwriters, hg⟩ := bind_eq_ok.1 hmap
  cases hg
  exact ⟨rfl, rfl, (forall₂_of_mapM hwriters).imp fun _ _ => DataSetWriter.ready_of_ofSettings⟩

theorem Reached.sampleAll (h : g.Reached settings j k) (source : DataSource) :
    g.sampleAll source = settings.sampleAt source (UInt64.ofNat j) := by
  refine (mapM_eq_of_forall₂ (h.writers.imp fun w x hx => ?_)).symm
  rw [h.name, h.cycles, hx.id]

/-- one payload for each writer gives one message for each, in the same order -/
theorem numbered_of_ready {n : Nat} {ws : List Config.WriterSettings} {xs : List DataSetWriter}
    (h : List.Forall₂ (DataSetWriter.Ready n) ws xs) (now : DateTime) {payloads : List Payload}
    (hlength : ws.length = payloads.length) :
    List.Forall₂ (DataSetMessage.Numbered n) ws ((xs.zip payloads).map fun (x, p) => x.message now p) := by
  induction h generalizing payloads with
  | nil => exact .nil
  | cons hx _ ih =>
    cases payloads with
    | nil => simp at hlength
    | cons p payloads => exact .cons (hx.message now p) (ih (Nat.succ.inj hlength))

/-- the group counts a call even if its sampling fails -/
theorem Reached.count (h : g.Reached settings j k) :
    ({ g with cycles := g.cycles + 1 } : WriterGroup).Reached settings (j + 1) k where
  name := h.name
  cycles := by
    show g.cycles + 1 = _
    rw [h.cycles, UInt64.ofNat_add]
    rfl
  writers := h.writers

/-- **One step.** A group samples all writers at the cycle that it has counted to. If one of them fails, no writer takes
a number; else all of them do, each for its own dataset message. -/
theorem Reached.build (h : g.Reached settings j k) (source : DataSource) (m : Moment) :
    (g.build source m).1.map (fun n => n.messages.map DataSetMessage.payload) =
        settings.sampleAt source (UInt64.ofNat j) ∧
      ((∃ e, (g.build source m).1 = .error e ∧ (g.build source m).2.Reached settings (j + 1) k) ∨
        ∃ n, (g.build source m).1 = .ok n ∧
          List.Forall₂ (DataSetMessage.Numbered (k + 1)) settings.writers n.messages ∧
          (g.build source m).2.Reached settings (j + 1) (k + 1)) := by
  rw [← h.sampleAll]
  unfold WriterGroup.build
  cases hsample : g.sampleAll source with
  | error e => exact ⟨rfl, .inl ⟨e, rfl, h.count⟩⟩
  | ok payloads =>
    have hlength : settings.writers.length = payloads.length := by
      rw [h.sampleAll] at hsample
      exact (forall₂_of_mapM hsample).length_eq
    have hpayloads : (g.message m payloads).messages.map DataSetMessage.payload = payloads := by
      have hsnd : (g.message m payloads).messages.map DataSetMessage.payload = (g.writers.zip payloads).map Prod.snd :=
        List.map_map
      rw [hsnd, List.map_snd_zip (Nat.le_of_eq (hlength.symm.trans h.writers.length_eq))]
    have hadvance : List.Forall₂ (DataSetWriter.Ready (k + 1 + 1)) settings.writers
        (g.writers.map DataSetWriter.advance) :=
      List.forall₂_map_right_iff.2 (h.writers.imp fun _ _ => DataSetWriter.Ready.advance)
    exact ⟨congrArg Except.ok hpayloads,
      .inr ⟨_, rfl, numbered_of_ready h.writers m.now hlength, h.name, h.count.cycles, hadvance⟩⟩

end WriterGroup

namespace Station

variable {σ : Type}

/-! ## Publishing -/

section Publish

variable (t : Transport σ) (source : DataSource) (m : Moment) (s : Station σ)

/-- publishing leaves the group as building does, whatever becomes of the message -/
theorem publish_group : (s.publish t source m).2.group = (s.group.build source m).2 := by
  unfold publish WriterGroup.prepare
  rcases s.group.build source m with ⟨_ | message, after⟩
  · rfl
  · cases hencode : message.encode <;> simp [hencode]

/-- publishing builds, encodes and sends; the first of them that fails is the answer -/
theorem publish_answer :
    (s.publish t source m).1 = t.deliver s.group.name (s.group.build source m).1 s.link := by
  unfold publish WriterGroup.prepare Transport.deliver
  rcases s.group.build source m with ⟨_ | message, after⟩
  · rfl
  · cases hencode : message.encode with
    | error e => simp [hencode, bind, Except.bind]
    | ok text =>
      cases hsend : (t.send ⟨s.group.name, text⟩ s.link).1 <;>
        simp [hencode, hsend, bind, Except.bind, Frame.settle, Except.map]

end Publish

/-! ## Whole runs -/

theorem call_built (c : Call σ) (s : Station σ) : (s.call c).1.built = (s.group.build c.source c.moment).1 := by
  unfold call
  cases c.transport <;> rfl

theorem call_group (c : Call σ) (s : Station σ) : (s.call c).2.group = (s.group.build c.source c.moment).2 := by
  unfold call
  cases c.transport with
  | none => rfl
  | some t => exact publish_group t c.source c.moment s

theorem call_published {c : Call σ} {t : Transport σ} (ht : c.transport = some t) (s : Station σ) :
    (s.call c).1.published = some (s.publish t c.source c.moment).1 := by
  simp [call, ht]

theorem messages_cons_error {o : Outcome} {e : Fault} (h : o.built = .error e) (log : List Outcome) :
    messages (o :: log) = messages log := by
  simp [messages, h, Except.toOption]

theorem messages_cons_ok {o : Outcome} {m : NetworkMessage} (h : o.built = .ok m) (log : List Outcome) :
    messages (o :: log) = m :: messages log := by
  simp [messages, h, Except.toOption]

variable {settings : Config.GroupSettings}

theorem InStep.nil {j k : Nat} {g : WriterGroup} (h : g.Reached settings j k) :
    InStep settings j k ([] : List (Call σ)) [] g where
  length := rfl
  samples := by simp
  publishes := by simp
  numbers := by simp [messages]
  last := h

/-- a call before a run in step, if the run starts with the number that the call leaves -/
theorem InStep.cons {j k k' : Nat} {c : Call σ} {o : Outcome} {calls : List (Call σ)} {log : List Outcome}
    {last : WriterGroup}
    (hsample : o.built.map (fun m => m.messages.map DataSetMessage.payload) =
      settings.sampleAt c.source (UInt64.ofNat j))
    (hpublish : ∀ t, c.transport = some t → ∃ link, o.published = some (t.deliver settings.name o.built link))
    (hbuilt : (∃ e, o.built = .error e ∧ k' = k) ∨ ∃ m, o.built = .ok m ∧ k' = k + 1 ∧
      List.Forall₂ (DataSetMessage.Numbered (k + 1)) settings.writers m.messages)
    (h : InStep settings (j + 1) k' calls log last) : InStep settings j k (c :: calls) (o :: log) last where
  length := congrArg Nat.succ h.length
  samples := by
    rintro (_ | i) c' o' hc ho
    · cases hc
      cases ho
      exact hsample
    · rw [← Nat.add_assoc, Nat.add_right_comm]
      exact h.samples i c' o' hc ho
  publishes := by
    rintro (_ | i) c' o' t hc ho
    · cases hc
      cases ho
      exact hpublish t
    · exact h.publishes i c' o' t hc ho
  numbers := by
    obtain ⟨e, he, rfl⟩ | ⟨m, hm, rfl, hnumbered⟩ := hbuilt
    · rw [messages_cons_error he]
      exact h.numbers
    · rw [messages_cons_ok hm]
      rintro (_ | i) m' hm'
      · cases hm'
        exact hnumbered
      · rw [← Nat.add_assoc, Nat.add_right_comm k i 1]
        exact h.numbers i m' hm'
  last := by
    have hcalls : j + (c :: calls).length = j + 1 + calls.length := by
      rw [List.length_cons]
      omega
    have hmessages : k + (messages (o :: log)).length = k' + (messages log).length := by
      obtain ⟨e, he, rfl⟩ | ⟨m, hm, rfl, -⟩ := hbuilt
      · rw [messages_cons_error he]
      · rw [messages_cons_ok hm, List.length_cons]
        omega
    rw [hcalls, hmessages]
    exact h.last

/-- a run keeps step from wherever its group is -/
theorem run_inStep_of_reached (calls : List (Call σ)) {j k : Nat} {s : Station σ} (h : s.group.Reached settings j k) :
    InStep settings j k calls (run calls s).1 (run calls s).2.group := by
  induction calls generalizing j k s with
  | nil => exact .nil h
  | cons c calls ih =>
    have hpublish : ∀ t, c.transport = some t →
        ∃ link, (s.call c).1.published = some (t.deliver settings.name (s.call c).1.built link) := by
      intro t ht
      exact ⟨s.link, by rw [call_published ht, publish_answer, call_built, h.name]⟩
    have hstep := h.build c.source c.moment
    rw [← call_built, ← call_group] at hstep
    obtain ⟨hsample, ⟨e, hbuilt, hreached⟩ | ⟨m, hbuilt, hnumbered, hreached⟩⟩ := hstep
    · exact InStep.cons hsample hpublish (.inl ⟨e, hbuilt, rfl⟩) (ih hreached)
    · exact InStep.cons hsample hpublish (.inr ⟨m, hbuilt, rfl, hnumbered⟩) (ih hreached)

/-- **Sequence numbers over whole runs.** Whatever is called on a group after it is compiled from its settings, and
whichever samples and transports fail, the run keeps step with the settings from the start. -/
theorem run_inStep {publisherId : Option String} {g : WriterGroup}
    (h : WriterGroup.ofSettings publisherId settings = .ok g) (metrics : Metrics.Registry) (link : σ)
    (calls : List (Call σ)) :
    InStep settings 0 0 calls (run calls { group := g, metrics, link }).1
      (run calls { group := g, metrics, link }).2.group :=
  run_inStep_of_reached calls (WriterGroup.reached_of_ofSettings h)

/-- two writers without masks -/
def pair : Config.GroupSettings := { name := "line", writers := [{ id := 1 }, { id := 2, name := some "spare" }] }

/-- the second writer has no answer at cycle 0 -/
def flaky : DataSource := fun _ id cycle => if id = 2 ∧ cycle = 0 then .error (.internal "sensor offline") else .ok .empty

/-- a sample that fails, a message that is dropped, one that is sent and one that is only built -/
def mixedCalls : List (Call Transport.Queue) :=
  let moment : Moment := { now := .min, messageId := "m" }
  let refusing : Transport Transport.Queue := { name := "down", send := fun _ q => (.error (.transport "down"), q) }
  [{ source := flaky, moment, transport := some Transport.channel },
   { source := flaky, moment, transport := some refusing },
   { source := flaky, moment, transport := some Transport.channel },
   { source := flaky, moment }]

/-- the group that these settings compile to -/
def pairGroup : WriterGroup where
  name := "line"
  intervalMs := 1000
  mask := Mask.empty
  publisherId := none
  dataSetClassId := none
  replyTo := none
  writers :=
    [{ id := 1, name := none, dataSetMask := Mask.empty, fieldMask := Mask.empty, version := {} },
     { id := 2, name := some "spare", dataSetMask := Mask.empty, fieldMask := Mask.empty, version := {} }]

theorem run_inStep_mixedCalls :
    WriterGroup.ofSettings none pair = .ok pairGroup ∧
      InStep pair 0 0 mixedCalls (run mixedCalls { group := pairGroup, metrics := {}, link := {} }).1
        (run mixedCalls { group := pairGroup, metrics := {}, link := {} }).2.group ∧
      (messages (run mixedCalls { group := pairGroup, metrics := {}, link := {} }).1).map
          (fun m => m.messages.map DataSetMessage.sequenceNumber) = [[1, 1], [2, 2], [3, 3]] := by
  have hcompiled : WriterGroup.ofSettings none pair = .ok pairGroup := by rfl
  have hrun := run_inStep hcompiled ({} : Metrics.Registry) ({} : Transport.Queue) mixedCalls
  refine ⟨hcompiled, hrun, ?_⟩
  decide +kernel

end Station

end OpcPubSub
