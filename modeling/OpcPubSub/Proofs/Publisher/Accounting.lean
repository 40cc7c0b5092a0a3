/-
What a run of publishing calls counts.

A run publishes a group again and again through one transport, each time from a source and at a moment of its own. The
group, the sources and the transport are arbitrary: any sample may fail, a message may be refused by the encoder, and a
frame by the transport. Main results:
- `publish_cases`: one call. It ends in one of four ways, each with its own counters, and only the last two send.
- `Balanced.publish`: hence one call keeps the balance of the group's counters.
- `publishing_accounted`: hence after a whole run every call is counted once, every frame that was made was sent once
  and in order, what was sent is counted in bytes, and nothing was counted for another group.
-/
import OpcPubSub.Proofs.Metrics.Series
import OpcPubSub.Proofs.Publisher.Sequence

namespace OpcPubSub

open Metrics

namespace Station

variable {σ : Type}

/-! ## What a run leaves behind -/

/-- the calls of a run that publishes at each of these moments, always through the same transport -/
def publishing (t : Transport σ) (cycles : List (DataSource × Moment)) : List (Call σ) :=
  cycles.map fun (source, moment) => { source, moment, transport := some t }

/-- the text that a call made, if sampling and encoding succeeded -/
def Outcome.text (o : Outcome) : Except Fault String := o.built.bind NetworkMessage.encode

/-- the lengths that the successful calls returned, in order -/
def lengths (log : List Outcome) : List UInt64 := log.filterMap fun o => o.published.bind Except.toOption

/-- How a log takes a transport from one state to another. A call that made a text sends it once, as a frame of the
group, and comes to what the transport answers. A call that made none sends nothing, and comes to what stopped it. -/
inductive Delivered (t : Transport σ) (group : String) : σ → List Outcome → σ → Prop where
  | nil (link : σ) : Delivered t group link [] link
  | unsent {link last : σ} {o : Outcome} {log : List Outcome} {e : Fault} (made : o.text = .error e)
      (answer : o.published = some (.error e)) (rest : Delivered t group link log last) :
      Delivered t group link (o :: log) last
  | sent {link last : σ} {o : Outcome} {log : List Outcome} {frame : Frame} (owner : frame.group = group)
      (made : o.text = .ok frame.text) (answer : o.published = some ((t.send frame link).1.map fun _ => frame.size))
      (rest : Delivered t group (t.send frame link).2 log last) : Delivered t group link (o :: log) last

/-- the counts of a group after some calls that sent this many bytes -/
structure Balanced (calls : Nat) (bytes : UInt64) (y : Tally) : Prop where
  /-- every call is counted once, modulo `2 ^ 64`, as what it ended in -/
  handled : y.published + y.sampleErrors + y.encodeErrors + y.sendErrors = UInt64.ofNat calls
  /-- the time of encoding was observed for every frame that was sent -/
  encoded : y.encoded = y.published + y.sendErrors
  bytes : y.bytes = bytes

/-- what publishing calls through `t` leave behind, if the group had counted nothing before -/
structure Accounted (t : Transport σ) (before : Station σ) (calls : Nat) (log : List Outcome) (after : Station σ) :
    Prop where
  /-- one outcome for each call -/
  length : log.length = calls
  balanced : Balanced calls (lengths log).sum (after.metrics.tally before.group.name t.name)
  delivered : Delivered t before.group.name before.link log after.link
  elsewhere : before.metrics.SameElsewhere before.group.name after.metrics

/-! ## One call -/

namespace Balanced

variable {calls : Nat} {bytes : UInt64} {y : Tally}

theorem zero : Balanced 0 0 {} := ⟨rfl, rfl, rfl⟩

/-- one call more than were counted -/
theorem next (h : Balanced calls bytes y) :
    y.published + y.sampleErrors + y.encodeErrors + y.sendErrors + 1 = UInt64.ofNat (calls + 1) := by
  rw [h.handled, UInt64.ofNat_add]
  rfl

theorem sampleFailed (h : Balanced calls bytes y) :
    Balanced (calls + 1) bytes { y with sampleErrors := y.sampleErrors + 1 } where
  handled :=
    calc y.published + (y.sampleErrors + 1) + y.encodeErrors + y.sendErrors
        = y.published + y.sampleErrors + y.encodeErrors + y.sendErrors + 1 := by ac_rfl
      _ = UInt64.ofNat (calls + 1) := h.next
  encoded := h.encoded
  bytes := h.bytes

theorem encodeFailed (h : Balanced calls bytes y) :
    Balanced (calls + 1) bytes { y with encodeErrors := y.encodeErrors + 1 } where
  handled :=
    calc y.published + y.sampleErrors + (y.encodeErrors + 1) + y.sendErrors
        = y.published + y.sampleErrors + y.encodeErrors + y.sendErrors + 1 := by ac_rfl
      _ = UInt64.ofNat (calls + 1) := h.next
  encoded := h.encoded
  bytes := h.bytes

theorem sendFailed (h : Balanced calls bytes y) :
    Balanced (calls + 1) bytes { y with encoded := y.encoded + 1, sendErrors := y.sendErrors + 1 } where
  handled :=
    calc y.published + y.sampleErrors + y.encodeErrors + (y.sendErrors + 1)
        = y.published + y.sampleErrors + y.encodeErrors + y.sendErrors + 1 := by ac_rfl
      _ = UInt64.ofNat (calls + 1) := h.next
  encoded := by
    rw [h.encoded]
    dsimp only
    ac_rfl
  bytes := h.bytes

theorem sent (h : Balanced calls bytes y) (n : UInt64) :
    Balanced (calls + 1) (bytes + n)
      { y with encoded := y.encoded + 1, published := y.published + 1, bytes := y.bytes + n } where
  handled :=
    calc y.published + 1 + y.sampleErrors + y.encodeErrors + y.sendErrors
        = y.published + y.sampleErrors + y.encodeErrors + y.sendErrors + 1 := by ac_rfl
      _ = UInt64.ofNat (calls + 1) := h.next
  encoded := by
    rw [h.encoded]
    dsimp only
    ac_rfl
  bytes := by rw [h.bytes]

end Balanced

end Station

/-- the three ends of a cycle up to its frame -/
theorem WriterGroup.prepare_cases (g : WriterGroup) (source : DataSource) (m : Moment) (metrics : Registry) :
    (∃ e group, g.build source m = (.error e, group) ∧
      g.prepare source m metrics = (.error e, group, metrics.sampleFailed g.name e.code)) ∨
    (∃ n e group, g.build source m = (.ok n, group) ∧ n.encode = .error e ∧
      g.prepare source m metrics = (.error e, group, metrics.encodeFailed g.name e.code)) ∨
    ∃ n text group, g.build source m = (.ok n, group) ∧ n.encode = .ok text ∧
      g.prepare source m metrics = (.ok ⟨g.name, text⟩, group, metrics.encoded g.name ⟨m.encodeNanos⟩) := by
  unfold prepare
  rcases g.build source m with ⟨built, group⟩
  cases built with
  | error e =>
    left
    exact ⟨e, group, rfl, rfl⟩
  | ok n =>
    right
    cases hencode : n.encode with
    | error e =>
      left
      exact ⟨n, e, group, rfl, hencode, by simp only [hencode]⟩
    | ok text =>
      right
      exact ⟨n, text, group, rfl, hencode, by simp only [hencode]⟩

namespace Station

variable {σ : Type}

/-- **The four ends of a call.** Its sampling fails, its message is refused, its frame is refused, or its frame is
sent. Each is counted under the group, and the transport is not touched before there is a frame. -/
theorem publish_cases (t : Transport σ) (source : DataSource) (m : Moment) (s : Station σ) :
    (∃ e, (s.group.build source m).1 = .error e ∧
      s.publish t source m =
        (.error e, ⟨(s.group.build source m).2, s.metrics.sampleFailed s.group.name e.code, s.link⟩)) ∨
    (∃ n e, (s.group.build source m).1 = .ok n ∧ n.encode = .error e ∧
      s.publish t source m =
        (.error e, ⟨(s.group.build source m).2, s.metrics.encodeFailed s.group.name e.code, s.link⟩)) ∨
    (∃ n text e, (s.group.build source m).1 = .ok n ∧ n.encode = .ok text ∧
      (t.send ⟨s.group.name, text⟩ s.link).1 = .error e ∧
      s.publish t source m =
        (.error e, ⟨(s.group.build source m).2,
          (s.metrics.encoded s.group.name ⟨m.encodeNanos⟩).sendFailed s.group.name t.name,
          (t.send ⟨s.group.name, text⟩ s.link).2⟩)) ∨
    ∃ n text, (s.group.build source m).1 = .ok n ∧ n.encode = .ok text ∧
      (t.send ⟨s.group.name, text⟩ s.link).1 = .ok () ∧
      s.publish t source m =
        (.ok (Frame.mk s.group.name text).size, ⟨(s.group.build source m).2,
          (s.metrics.encoded s.group.name ⟨m.encodeNanos⟩).sent s.group.name (Frame.mk s.group.name text).size,
          (t.send ⟨s.group.name, text⟩ s.link).2⟩) := by
  rcases s.group.prepare_cases source m s.metrics with
    ⟨e, group, hbuild, hprepare⟩ | ⟨n, e, group, hbuild, hencode, hprepare⟩ | ⟨n, text, group, hbuild, hencode, hprepare⟩
  · left
    rw [publish, hprepare, hbuild]
    exact ⟨e, rfl, rfl⟩
  · right
    left
    rw [publish, hprepare, hbuild]
    exact ⟨n, e, rfl, hencode, rfl⟩
  · right
    right
    rw [publish, hprepare, hbuild]
    rcases hsend : t.send ⟨s.group.name, text⟩ s.link with ⟨answer, link⟩
    cases answer with
    | error e =>
      left
      exact ⟨n, text, e, rfl, hencode, by rw [hsend], by simp only [hsend, Frame.settle]⟩
    | ok _ =>
      right
      exact ⟨n, text, rfl, hencode, by rw [hsend], by simp only [hsend, Frame.settle]⟩

section Step

variable (t : Transport σ) (source : DataSource) (m : Moment) (s : Station σ)

/-- the group keeps its name -/
theorem publish_name : (s.publish t source m).2.group.name = s.group.name := by
  rw [publish_group]
  unfold WriterGroup.build
  cases s.group.sampleAll source <;> rfl

/-- the bytes that a call has sent -/
def sentBytes (answer : Except Fault UInt64) : UInt64 := answer.toOption.getD 0

theorem sentBytes_error (e : Fault) : sentBytes (.error e) = 0 := rfl

theorem sentBytes_ok (n : UInt64) : sentBytes (.ok n) = n := rfl

/-- **One call** is one more of the calls that are counted, and its bytes are counted if it sent them. -/
theorem Balanced.publish {calls : Nat} {bytes : UInt64}
    (h : Balanced calls bytes (s.metrics.tally s.group.name t.name)) :
    Balanced (calls + 1) (bytes + sentBytes (s.publish t source m).1)
      ((s.publish t source m).2.metrics.tally s.group.name t.name) := by
  rcases publish_cases t source m s with
    ⟨e, -, hpublish⟩ | ⟨n, e, -, -, hpublish⟩ | ⟨n, text, e, -, -, -, hpublish⟩ | ⟨n, text, -, -, -, hpublish⟩
  · rw [hpublish, Registry.tally_sampleFailed, sentBytes_error, UInt64.add_zero]
    exact h.sampleFailed
  · rw [hpublish, Registry.tally_encodeFailed, sentBytes_error, UInt64.add_zero]
    exact h.encodeFailed
  · rw [hpublish, Registry.tally_sendFailed, Registry.tally_encoded, sentBytes_error, UInt64.add_zero]
    exact h.sendFailed
  · rw [hpublish, Registry.tally_sent, Registry.tally_encoded, sentBytes_ok]
    exact h.sent _

theorem publish_elsewhere : s.metrics.SameElsewhere s.group.name (s.publish t source m).2.metrics := by
  rcases publish_cases t source m s with
    ⟨e, -, hpublish⟩ | ⟨n, e, -, -, hpublish⟩ | ⟨n, text, e, -, -, -, hpublish⟩ | ⟨n, text, -, -, -, hpublish⟩
  · rw [hpublish]
    exact .sampleFailed _ _
  · rw [hpublish]
    exact .encodeFailed _ _
  · rw [hpublish]
    exact (Registry.SameElsewhere.encoded _ _).trans (.sendFailed _ _)
  · rw [hpublish]
    exact (Registry.SameElsewhere.encoded _ _).trans (.sent _ _)

/-- a call sends its frame if it made one, and comes before what the transport does next -/
theorem Delivered.publish {log : List Outcome} {last : σ}
    (h : Delivered t s.group.name (s.publish t source m).2.link log last) :
    Delivered t s.group.name s.link (⟨(s.group.build source m).1, some (s.publish t source m).1⟩ :: log) last := by
  rcases publish_cases t source m s with
    ⟨e, hbuilt, hpublish⟩ | ⟨n, e, hbuilt, hencode, hpublish⟩ | ⟨n, text, e, hbuilt, hencode, hsend, hpublish⟩ |
    ⟨n, text, hbuilt, hencode, hsend, hpublish⟩
  · rw [hpublish] at h ⊢
    exact .unsent (by rw [Outcome.text, hbuilt]; rfl) rfl h
  · rw [hpublish] at h ⊢
    exact .unsent (by rw [Outcome.text, hbuilt]; exact hencode) rfl h
  · rw [hpublish] at h ⊢
    exact .sent rfl (by rw [Outcome.text, hbuilt]; exact hencode) (by rw [hsend]; rfl) h
  · rw [hpublish] at h ⊢
    exact .sent rfl (by rw [Outcome.text, hbuilt]; exact hencode) (by rw [hsend]; rfl) h

end Step

/-! ## Whole runs -/

theorem lengths_cons (built : Except Fault NetworkMessage) (answer : Except Fault UInt64) (log : List Outcome) :
    (lengths (⟨built, some answer⟩ :: log)).sum = sentBytes answer + (lengths log).sum := by
  cases answer with
  | error e => exact (UInt64.zero_add _).symm
  | ok n => rfl

theorem run_publishing_cons (t : Transport σ) (source : DataSource) (m : Moment) (rest : List (DataSource × Moment))
    (s : Station σ) :
    run (publishing t ((source, m) :: rest)) s =
      (⟨(s.group.build source m).1, some (s.publish t source m).1⟩ ::
          (run (publishing t rest) (s.publish t source m).2).1,
        (run (publishing t rest) (s.publish t source m).2).2) :=
  rfl

theorem Balanced.run {calls : Nat} {bytes : UInt64} (t : Transport σ) (cycles : List (DataSource × Moment))
    (s : Station σ) (h : Balanced calls bytes (s.metrics.tally s.group.name t.name)) :
    Balanced (calls + cycles.length) (bytes + (lengths (run (publishing t cycles) s).1).sum)
      ((run (publishing t cycles) s).2.metrics.tally s.group.name t.name) := by
  induction cycles generalizing calls bytes s with
  | nil =>
    have hbytes : bytes + (lengths []).sum = bytes := UInt64.add_zero bytes
    rw [← hbytes] at h
    exact h
  | cons cycle rest ih =>
    obtain ⟨source, m⟩ := cycle
    have hstep := h.publish t source m s
    rw [← publish_name t source m s] at hstep
    have hrest := ih (s.publish t source m).2 hstep
    rw [publish_name] at hrest
    rw [run_publishing_cons, lengths_cons, List.length_cons, ← UInt64.add_assoc, Nat.add_comm rest.length,
      ← Nat.add_assoc]
    exact hrest

theorem run_elsewhere (t : Transport σ) (cycles : List (DataSource × Moment)) (s : Station σ) :
    s.metrics.SameElsewhere s.group.name (run (publishing t cycles) s).2.metrics := by
  induction cycles generalizing s with
  | nil => exact .refl s.metrics
  | cons cycle rest ih =>
    obtain ⟨source, m⟩ := cycle
    have hrest := ih (s.publish t source m).2
    rw [publish_name] at hrest
    rw [run_publishing_cons]
    exact (publish_elsewhere t source m s).trans hrest

theorem run_delivered (t : Transport σ) (cycles : List (DataSource × Moment)) (s : Station σ) :
    Delivered t s.group.name s.link (run (publishing t cycles) s).1 (run (publishing t cycles) s).2.link := by
  induction cycles generalizing s with
  | nil => exact .nil s.link
  | cons cycle rest ih =>
    obtain ⟨source, m⟩ := cycle
    have hrest := ih (s.publish t source m).2
    rw [publish_name] at hrest
    rw [run_publishing_cons]
    exact hrest.publish t source m s

theorem length_run (calls : List (Call σ)) (s : Station σ) : (run calls s).1.length = calls.length := by
  induction calls generalizing s with
  | nil => rfl
  | cons c rest ih => exact congrArg Nat.succ (ih (s.call c).2)

/-- **Accounting over whole runs.** Whatever a group publishes, and whichever samples, messages and frames fail on the
way, every call is counted once, every frame that was made was sent once, and no other group's series changes. -/
theorem publishing_accounted (t : Transport σ) (s : Station σ) (fresh : s.metrics.tally s.group.name t.name = {})
    (cycles : List (DataSource × Moment)) :
    Accounted t s cycles.length (run (publishing t cycles) s).1 (run (publishing t cycles) s).2 := by
  have hstart : Balanced 0 0 (s.metrics.tally s.group.name t.name) := by
    rw [fresh]
    exact Balanced.zero
  have hend := hstart.run t cycles s
  rw [Nat.zero_add, UInt64.zero_add] at hend
  exact {
    length := by rw [length_run, publishing, List.length_map]
    balanced := hend
    delivered := run_delivered t cycles s
    elsewhere := run_elsewhere t cycles s }

/-- refuses every other frame; its state is how many it was given -/
def everyOther : Transport Nat where
  name := "link"
  send _ n := (if n % 2 = 0 then .error (.transport "link down") else .ok (), n + 1)

/-- three calls: the second writer has no answer to the first, the other two make a frame -/
def threeCycles : List (DataSource × Moment) :=
  List.replicate 3 (flaky, { now := .min, messageId := "m", encodeNanos := 70000 })

/-- two writers on a link, among the series of another group -/
def besideAnother : Station Nat where
  group := pairGroup
  metrics := ({} : Registry).sent "other" 5
  link := 0

theorem publishing_accounted_threeCycles :
    besideAnother.metrics.tally "line" "link" = {} ∧
      Accounted everyOther besideAnother 3 (run (publishing everyOther threeCycles) besideAnother).1
        (run (publishing everyOther threeCycles) besideAnother).2 ∧
      lengths (run (publishing everyOther threeCycles) besideAnother).1 = [7] ∧
      (run (publishing everyOther threeCycles) besideAnother).2.metrics.encodeDuration.count (groupLabels "line") = 2 := by
  have hfresh : besideAnother.metrics.tally "line" "link" = {} := by decide +kernel
  have hrun := publishing_accounted everyOther besideAnother hfresh threeCycles
  refine ⟨hfresh, hrun, ?_, ?_⟩
  · decide +kernel
  · decide +kernel

end Station

end OpcPubSub
