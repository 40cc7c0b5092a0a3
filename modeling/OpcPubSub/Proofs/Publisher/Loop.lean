/-
What one event does to the publishing loop, and what it keeps.

The loop builds messages, and for each it waits for the transport's answer before it begins the next cycle. Main
results:
- `moves_step`: everything that one event can do.
- `Tidy.step`: hence the gauge counts a loop that runs, and only a loop that was asked to stop has stopped.
- `Numbers.step`: messages are numbered in the order they are built.
- `Ledger.step`: every message that was built is settled by the transport's answer, but for the one that is being sent,
  and the answers are what is counted.
-/
import OpcPubSub.Proofs.Publisher.Fleet
import OpcPubSub.Publisher.Loop

namespace OpcPubSub

open Metrics

/-- the frame of a message of a group -/
structure NetworkMessage.FrameOf (group : String) (n : NetworkMessage) (f : Frame) : Prop where
  group : f.group = group
  text : n.encode = .ok f.text

namespace Loop

/-- a message and what the transport answered to its frame -/
abbrev Settled := NetworkMessage × Except Fault Unit

/-- the message that an event makes a loop build -/
def made (l : Loop) (e : Event) : Option NetworkMessage :=
  match e, l.phase with
  | .tick source m, .idle => (l.group.build source m).1.toOption
  | .sampled source m, .sampling => (l.group.build source m).1.toOption
  | _, _ => none

/-! ## Everything an event can do -/

/-- `Moves l n l'`: an event takes the loop `l` to `l'`, and the message `n` is built if there is one -/
inductive Moves (l : Loop) : Option NetworkMessage → Loop → Prop where
  | stay : Moves l none l
  | wait (phase : l.phase = .idle) : Moves l none { l with phase := .sampling }
  /-- some sample fails; the loop was idle, or waited for its samples -/
  | failed {source : DataSource} {m : Moment} {group : WriterGroup} {e : Fault}
      (phase : l.phase = .idle ∨ l.phase = .sampling) (build : l.group.build source m = (.error e, group)) :
      Moves l none { l with group, metrics := l.metrics.sampleFailed l.group.name e.code, phase := .idle }
  | unencodable {source : DataSource} {m : Moment} {group : WriterGroup} {n : NetworkMessage} {e : Fault}
      (phase : l.phase = .idle ∨ l.phase = .sampling) (build : l.group.build source m = (.ok n, group))
      (encode : n.encode = .error e) :
      Moves l (some n) { l with group, metrics := l.metrics.encodeFailed l.group.name e.code, phase := .idle }
  | framed {source : DataSource} {m : Moment} {group : WriterGroup} {n : NetworkMessage} {text : String}
      (phase : l.phase = .idle ∨ l.phase = .sampling) (build : l.group.build source m = (.ok n, group))
      (encode : n.encode = .ok text) :
      Moves l (some n)
        { l with
          group
          metrics := l.metrics.encoded l.group.name ⟨m.encodeNanos⟩
          phase := .sending ⟨l.group.name, text⟩ }
  | answered {frame : Frame} (phase : l.phase = .sending frame) (answer : Except Fault Unit) :
      Moves l none
        { l with
          metrics := (frame.settle l.transport answer l.metrics).2
          phase := .idle
          accepted := if answer.isOk then l.accepted ++ [frame] else l.accepted }
  | closing : Moves l none { l with metrics := l.metrics.drain, closing := true }
  | stopped (closing : l.closing = true) (phase : l.phase ≠ .stopped) :
      Moves l none
        { l with group := l.abandoned, metrics := l.metrics.stopped l.group.name, phase := .stopped }

/-- a cycle that has its samples comes to its frame, or fails before -/
theorem moves_prepare {l : Loop} (phase : l.phase = .idle ∨ l.phase = .sampling) (source : DataSource) (m : Moment) :
    l.Moves (l.group.build source m).1.toOption (l.prepare source m) := by
  rcases l.group.prepare_cases source m l.metrics with
    ⟨e, group, hbuild, hprepare⟩ | ⟨n, e, group, hbuild, hencode, hprepare⟩ | ⟨n, text, group, hbuild, hencode, hprepare⟩
  · rw [prepare, hprepare, hbuild]
    exact .failed phase hbuild
  · rw [prepare, hprepare, hbuild]
    exact .unencodable phase hbuild hencode
  · rw [prepare, hprepare, hbuild]
    exact .framed phase hbuild hencode

/-- **Everything that an event can do.** -/
theorem moves_step (l : Loop) (e : Event) : l.Moves (l.made e) (l.step e) := by
  cases e with
  | tick source m =>
    cases hphase : l.phase with
    | idle =>
      simp only [made, step, hphase]
      exact moves_prepare (.inl hphase) source m
    | sampling | sending frame | stopped =>
      simp only [made, step, hphase]
      exact .stay
  | wait =>
    cases hphase : l.phase with
    | idle =>
      simp only [made, step, hphase]
      exact .wait hphase
    | sampling | sending frame | stopped =>
      simp only [made, step, hphase]
      exact .stay
  | sampled source m =>
    cases hphase : l.phase with
    | sampling =>
      simp only [made, step, hphase]
      exact moves_prepare (.inr hphase) source m
    | idle | sending frame | stopped =>
      simp only [made, step, hphase]
      exact .stay
  | answer answer =>
    cases hphase : l.phase with
    | sending frame =>
      simp only [made, step, hphase]
      exact .answered hphase answer
    | idle | sampling | stopped =>
      simp only [made, step, hphase]
      exact .stay
  | shutdown =>
    have hmade : l.made .shutdown = none := rfl
    rw [hmade]
    exact .closing
  | stop =>
    have hmade : l.made .stop = none := rfl
    rw [hmade]
    by_cases hclosing : l.closing = true
    · cases hphase : l.phase with
      | stopped =>
        simp only [step, hphase]
        exact .stay
      | idle | sampling | sending frame =>
        have hmoves : l.Moves none _ := .stopped hclosing (by rw [hphase]; simp)
        simpa only [step, hphase, hclosing, if_true] using hmoves
    · have hstay : l.step .stop = l := by
        cases hphase : l.phase <;> simp only [step, hphase, hclosing, Bool.false_eq_true, if_false]
      rw [hstay]
      exact .stay

/-! ## What one event keeps -/

variable {l l' : Loop} {made? : Option NetworkMessage}

/-- the gauge of a group counts its loop as long as it runs, and only a loop that was asked to stop has stopped -/
structure Tidy (group : String) (before : Registry) (l : Loop) : Prop where
  running : l.metrics.groupsRunning.get (groupLabels group) =
    before.groupsRunning.get (groupLabels group) + if l.phase = .stopped then 0 else 1
  draining : l.closing = true → l.metrics.draining = true
  closing : l.phase = .stopped → l.closing = true

theorem Tidy.start (g : WriterGroup) (before : Registry) (transport : String) :
    Tidy g.name before (start g before transport) where
  running := Gauge.get_add_self before.groupsRunning (groupLabels g.name) 1
  draining := by simp [Loop.start]
  closing := by simp [Loop.start]

/-- an event keeps the gauge if it touches neither the gauge nor the flags and the loop goes on -/
theorem Tidy.keep {group : String} {before : Registry} (h : Tidy group before l)
    (hrunning : l'.metrics.groupsRunning = l.metrics.groupsRunning)
    (hdraining : l'.metrics.draining = l.metrics.draining) (hclosing : l'.closing = l.closing)
    (hphase : l.phase ≠ .stopped) (hphase' : l'.phase ≠ .stopped) : Tidy group before l' where
  running := by
    rw [hrunning, h.running, if_neg hphase, if_neg hphase']
  draining := by
    rw [hdraining, hclosing]
    exact h.draining
  closing := fun hstopped => absurd hstopped hphase'

theorem ne_stopped (h : l.phase = .idle ∨ l.phase = .sampling) : l.phase ≠ .stopped := by
  rcases h with h | h <;> simp [h]

theorem Tidy.step {before : Registry} (h : Tidy l.group.name before l) (hmoves : l.Moves made? l') :
    Tidy l.group.name before l' := by
  cases hmoves with
  | stay => exact h
  | wait phase => exact h.keep rfl rfl rfl (ne_stopped (.inl phase)) (by simp)
  | failed phase => exact h.keep rfl rfl rfl (ne_stopped phase) (by simp)
  | unencodable phase => exact h.keep rfl rfl rfl (ne_stopped phase) (by simp)
  | framed phase => exact h.keep rfl rfl rfl (ne_stopped phase) (by simp)
  | answered phase answer => cases answer <;> exact h.keep rfl rfl rfl (by simp [phase]) (by simp)
  | closing => exact ⟨h.running, fun _ => rfl, fun _ => rfl⟩
  | stopped closing phase =>
    have hrunning := h.running
    rw [if_neg phase] at hrunning
    refine ⟨?_, h.draining, fun _ => closing⟩
    calc (l.metrics.groupsRunning.dec (groupLabels l.group.name)).get (groupLabels l.group.name)
        = l.metrics.groupsRunning.get (groupLabels l.group.name) + -1 := Gauge.get_add_self _ _ _
      _ = before.groupsRunning.get (groupLabels l.group.name) + 1 + -1 := by rw [hrunning]
      _ = before.groupsRunning.get (groupLabels l.group.name) + 0 := Int64.add_assoc _ _ _

/-- the messages that a group has built are numbered from 1 on, and the group goes on with the next number -/
structure Numbers (settings : Config.GroupSettings) (built : List NetworkMessage) (l : Loop) : Prop where
  reached : ∃ j, l.group.Reached settings j built.length
  fits : l.group.Fits
  numbered : ∀ k n, built[k]? = some n →
    List.Forall₂ (DataSetMessage.Numbered (k + 1)) settings.writers n.messages

section Numbers

variable {settings : Config.GroupSettings} {built : List NetworkMessage}

theorem Numbers.name (h : Numbers settings built l) : l.group.name = settings.name := by
  obtain ⟨j, hreached⟩ := h.reached
  exact hreached.name

/-- one more message has the next number -/
theorem Numbers.snoc (h : Numbers settings built l) {source : DataSource} {m : Moment} {n : NetworkMessage}
    {group : WriterGroup} (hbuild : l.group.build source m = (.ok n, group)) (hgroup : l'.group = group) :
    Numbers settings (built ++ [n]) l' := by
  obtain ⟨j, hreached⟩ := h.reached
  have hstep := (hreached.build source m).2
  have hfits := h.fits.build source m
  rw [hbuild] at hstep hfits
  rcases hstep with ⟨e, herror, -⟩ | ⟨n', hn, hnumbered, hafter⟩
  · cases herror
  · cases hn
    refine ⟨⟨j + 1, ?_⟩, ?_, ?_⟩
    · rw [hgroup, List.length_append, List.length_singleton]
      exact hafter
    · rw [hgroup]
      exact hfits
    · intro k n' hk
      rcases Nat.lt_or_ge k built.length with hlt | hge
      · rw [List.getElem?_append_left hlt] at hk
        exact h.numbered k n' hk
      · rw [List.getElem?_append_right hge, List.getElem?_singleton] at hk
        split_ifs at hk with hzero
        cases hk
        have hk : k = built.length := by omega
        subst hk
        exact hnumbered

/-- a cycle that builds nothing is counted and takes no number -/
theorem Numbers.count (h : Numbers settings built l) {j : ℕ} (hreached : l'.group.Reached settings j built.length)
    (hfits : l'.group.Fits) : Numbers settings built l' :=
  ⟨⟨j, hreached⟩, hfits, h.numbered⟩

theorem Numbers.step (h : Numbers settings built l) (hmoves : l.Moves made? l') :
    Numbers settings (built ++ made?.toList) l' := by
  cases hmoves with
  | unencodable phase build => exact h.snoc build rfl
  | framed phase build => exact h.snoc build rfl
  | stay | wait | answered | closing =>
    rw [Option.toList_none, List.append_nil]
    exact ⟨h.reached, h.fits, h.numbered⟩
  | @failed source m group e phase build =>
    rw [Option.toList_none, List.append_nil]
    obtain ⟨j, hreached⟩ := h.reached
    have hstep := (hreached.build source m).2
    have hfits := h.fits.build source m
    rw [build] at hstep hfits
    rcases hstep with ⟨e', -, hafter⟩ | ⟨n, hn, -⟩
    · exact h.count hafter hfits
    · cases hn
  | stopped =>
    rw [Option.toList_none, List.append_nil]
    obtain ⟨j, hreached⟩ := h.reached
    cases hphase : l.phase with
    | sampling =>
      have habandoned : l.abandoned = { l.group with cycles := l.group.cycles + 1 } := by
        simp only [abandoned, hphase]
      refine h.count (j := j + 1) ?_ ?_
      · rw [habandoned]
        exact hreached.count
      · rw [habandoned]
        exact h.fits
    | idle | sending frame | stopped =>
      have habandoned : l.abandoned = l.group := by
        simp only [abandoned, hphase]
      refine h.count (j := j) ?_ ?_
      · rw [habandoned]
        exact hreached
      · rw [habandoned]
        exact h.fits

end Numbers

/-- the message that the loop is busy with, as its phase says -/
def Holds (group : String) (l : Loop) (pending : Option NetworkMessage) : Prop :=
  match l.phase with
  | .idle => pending = none
  | .sampling => pending = none
  | .sending frame => ∃ n, pending = some n ∧ n.FrameOf group frame
  | .stopped => True

/-- What became of the messages that were built. All but the pending one are settled by the transport's answers;
accepted frames are those of the messages that were answered well; the counters count the answers. -/
structure Ledger (group transport : String) (before : Registry) (built : List NetworkMessage)
    (settled : List Settled) (pending : Option NetworkMessage) (l : Loop) : Prop where
  link : l.transport = transport
  built : built = settled.map Prod.fst ++ pending.toList
  pending : l.Holds group pending
  accepted : List.Forall₂ (fun x f => x.1.FrameOf group f) (settled.filter fun x => x.2.isOk) l.accepted
  published : (l.metrics.tally group transport).published =
    (before.tally group transport).published + UInt64.ofNat (settled.countP fun x => x.2.isOk)
  sendErrors : (l.metrics.tally group transport).sendErrors =
    (before.tally group transport).sendErrors + UInt64.ofNat (settled.countP fun x => !x.2.isOk)
  encodeErrors : (l.metrics.tally group transport).encodeErrors = (before.tally group transport).encodeErrors

section Ledger

variable {group transport : String} {before : Registry} {built : List NetworkMessage} {settled : List Settled}
  {pending : Option NetworkMessage}

theorem Holds.eq_none (h : l.Holds group pending) (phase : l.phase = .idle ∨ l.phase = .sampling) :
    pending = none := by
  rcases phase with phase | phase
  · simpa only [Holds, phase] using h
  · simpa only [Holds, phase] using h

theorem Ledger.start (g : WriterGroup) (before : Registry) (transport : String) :
    Ledger g.name transport before [] [] none (start g before transport) where
  link := rfl
  built := rfl
  pending := rfl
  accepted := .nil
  published := (UInt64.add_zero _).symm
  sendErrors := (UInt64.add_zero _).symm
  encodeErrors := rfl

/-- the answer to a frame settles its message -/
theorem Ledger.answered (h : Ledger group transport before built settled pending l) {frame : Frame}
    (phase : l.phase = .sending frame) (answer : Except Fault Unit) :
    ∃ n, Ledger group transport before built (settled ++ [(n, answer)]) none
      { l with
        metrics := (frame.settle l.transport answer l.metrics).2
        phase := .idle
        accepted := if answer.isOk then l.accepted ++ [frame] else l.accepted } := by
  have hpending := h.pending
  simp only [Holds, phase] at hpending
  obtain ⟨n, rfl, hframe⟩ := hpending
  have hbuilt : built = (settled ++ [(n, answer)]).map Prod.fst ++ (none : Option NetworkMessage).toList := by
    rw [h.built]
    simp
  refine ⟨n, ?_⟩
  cases answer with
  | error e =>
    have htally : (l.metrics.sendFailed frame.group l.transport).tally group transport =
        { l.metrics.tally group transport with
          sendErrors := (l.metrics.tally group transport).sendErrors + 1 } := by
      rw [hframe.group, h.link]
      exact Registry.tally_sendFailed _ _ _
    refine ⟨h.link, hbuilt, rfl, ?_, ?_, ?_, ?_⟩
    · simpa [Except.isOk, Except.toBool] using h.accepted
    · simp only [Frame.settle, htally]
      simpa [Except.isOk, Except.toBool] using h.published
    · simp only [Frame.settle, htally, h.sendErrors]
      simp [Except.isOk, Except.toBool, UInt64.ofNat_add, UInt64.add_assoc]
    · simp only [Frame.settle, htally]
      exact h.encodeErrors
  | ok _ =>
    have htally : (l.metrics.sent frame.group frame.size).tally group transport =
        { l.metrics.tally group transport with
          published := (l.metrics.tally group transport).published + 1
          bytes := (l.metrics.tally group transport).bytes + frame.size } := by
      rw [hframe.group]
      exact Registry.tally_sent _ _ _ _
    have haccepted := List.rel_append h.accepted (.cons hframe .nil : List.Forall₂ _ [(n, .ok ())] [frame])
    refine ⟨h.link, hbuilt, rfl, ?_, ?_, ?_, ?_⟩
    · simpa [Except.isOk, Except.toBool] using haccepted
    · simp only [Frame.settle, htally, h.published]
      simp [Except.isOk, Except.toBool, UInt64.ofNat_add, UInt64.add_assoc]
    · simp only [Frame.settle, htally]
      simpa [Except.isOk, Except.toBool] using h.sendErrors
    · simp only [Frame.settle, htally]
      exact h.encodeErrors

/-- a pending message goes on pending, or is pending no more, without a change to what was settled -/
theorem Ledger.keep (h : Ledger group transport before built settled pending l) {built' : List NetworkMessage}
    {pending' : Option NetworkMessage} (hlink : l'.transport = l.transport)
    (hbuilt : built' = settled.map Prod.fst ++ pending'.toList) (hpending : l'.Holds group pending')
    (haccepted : l'.accepted = l.accepted)
    (hpublished : (l'.metrics.tally group transport).published = (l.metrics.tally group transport).published)
    (hsendErrors : (l'.metrics.tally group transport).sendErrors = (l.metrics.tally group transport).sendErrors)
    (hencodeErrors : (l'.metrics.tally group transport).encodeErrors = (l.metrics.tally group transport).encodeErrors) :
    Ledger group transport before built' settled pending' l' where
  link := hlink.trans h.link
  built := hbuilt
  pending := hpending
  accepted := haccepted ▸ h.accepted
  published := hpublished.trans h.published
  sendErrors := hsendErrors.trans h.sendErrors
  encodeErrors := hencodeErrors.trans h.encodeErrors

/-- **One event** settles the pending message, or makes one pending where there was none, or keeps both. -/
theorem Ledger.step (h : Ledger l.group.name transport before built settled pending l) (hmoves : l.Moves made? l')
    (hencode : ∀ n, made? = some n → ∃ text, n.encode = .ok text) :
    ∃ settled' pending', Ledger l.group.name transport before (built ++ made?.toList) settled' pending' l' := by
  cases hmoves with
  | stay =>
    rw [Option.toList_none, List.append_nil]
    exact ⟨settled, pending, h⟩
  | wait phase =>
    have hnone := h.pending.eq_none (.inl phase)
    rw [Option.toList_none, List.append_nil]
    exact ⟨settled, pending, h.keep rfl h.built hnone rfl rfl rfl rfl⟩
  | @failed source m group e phase =>
    have hnone := h.pending.eq_none phase
    rw [Option.toList_none, List.append_nil]
    have htally := Registry.tally_sampleFailed l.metrics l.group.name transport e.code
    exact ⟨settled, pending, h.keep rfl h.built hnone rfl (by rw [htally]) (by rw [htally]) (by rw [htally])⟩
  | unencodable phase build encode =>
    obtain ⟨text, htext⟩ := hencode _ rfl
    rw [htext] at encode
    cases encode
  | @framed source m group n text phase build encode =>
    have hnone := h.pending.eq_none phase
    have hbuilt : built ++ [n] = settled.map Prod.fst ++ [n] := by
      rw [h.built, hnone, Option.toList_none, List.append_nil]
    have htally := Registry.tally_encoded l.metrics l.group.name transport ⟨m.encodeNanos⟩
    exact ⟨settled, some n,
      h.keep rfl hbuilt ⟨n, rfl, rfl, encode⟩ rfl (by rw [htally]) (by rw [htally]) (by rw [htally])⟩
  | @answered frame phase answer =>
    rw [Option.toList_none, List.append_nil]
    obtain ⟨n, hsettled⟩ := h.answered phase answer
    exact ⟨settled ++ [(n, answer)], none, hsettled⟩
  | closing =>
    rw [Option.toList_none, List.append_nil]
    exact ⟨settled, pending, h.keep rfl h.built h.pending rfl rfl rfl rfl⟩
  | stopped =>
    rw [Option.toList_none, List.append_nil]
    exact ⟨settled, pending, h.keep rfl h.built trivial rfl rfl rfl rfl⟩

end Ledger

/-- a group that compiled builds only messages that have a text -/
theorem encode_of_made (h : l.group.Fits) {e : Event} {n : NetworkMessage} (hmade : l.made e = some n) :
    ∃ text, n.encode = .ok text := by
  have hbuild : ∃ source m, (l.group.build source m).1.toOption = some n := by
    cases e with
    | tick source m =>
      cases hphase : l.phase <;> simp only [made, hphase, reduceCtorEq] at hmade
      exact ⟨source, m, hmade⟩
    | sampled source m =>
      cases hphase : l.phase <;> simp only [made, hphase, reduceCtorEq] at hmade
      exact ⟨source, m, hmade⟩
    | wait | answer | shutdown | stop => simp [made] at hmade
  obtain ⟨source, m, hn⟩ := hbuild
  cases hresult : (l.group.build source m).1 with
  | error e =>
    rw [hresult] at hn
    cases hn
  | ok n' =>
    rw [hresult] at hn
    cases hn
    exact h.encode hresult

/-- only an answer adds to the accepted frames -/
theorem accepted_step {e : Event} (h : ∀ answer, e ≠ .answer answer) : (l.step e).accepted = l.accepted := by
  have hprepare : ∀ source m, (l.prepare source m).accepted = l.accepted := by
    intro source m
    unfold prepare
    rcases l.group.prepare source m l.metrics with ⟨result, group, metrics⟩
    cases result <;> rfl
  cases e with
  | tick source m => cases hphase : l.phase <;> simp only [step, hphase, hprepare]
  | sampled source m => cases hphase : l.phase <;> simp only [step, hphase, hprepare]
  | wait => cases hphase : l.phase <;> simp only [step, hphase]
  | shutdown => rfl
  | stop =>
    cases hphase : l.phase <;> simp only [step, hphase]
    all_goals split_ifs <;> rfl
  | answer answer => exact absurd rfl (h answer)

end Loop

end OpcPubSub
