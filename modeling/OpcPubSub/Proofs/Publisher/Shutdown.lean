/-
Shutdown of the publishing loop.

A run is any list of happenings at a site: ticks and samples at any time, shutdown at any time, offers to a carrier that
may accept, refuse or never answer, and the carrier's own moves. So it covers every interval, source, transport and
receiver, and either choice wherever the loop could go on or stop. Main results:
- `Sound.step`: one happening. The loop keeps its numbers, ledger and gauge, and what it takes for accepted is what the
  carrier accepted.
- `Sound.run`: hence whole runs do.
- `drained_of_stopped`: hence what is left behind when the loop of a publisher has stopped.
-/
import OpcPubSub.Proofs.Publisher.Loop
import OpcPubSub.Publisher.Carrier

namespace OpcPubSub

open Metrics

namespace Site

variable {σ μ : Type}

/-! ## What a run leaves behind -/

/-- the message that is built when this happens -/
def made (s : Site σ) (h : Happening μ) : Option NetworkMessage :=
  match h with
  | .event e => s.loop.made e
  | _ => none

/-- all messages that are built in a run, in order -/
def history (c : Carrier σ μ) : Site σ → List (Happening μ) → List NetworkMessage
  | _, [] => []
  | s, h :: rest => (s.made h).toList ++ history c (s.step c h) rest

/-- what a run leaves behind that has built these messages and has stopped -/
structure Drained (settings : Config.GroupSettings) (c : Carrier σ μ) (before : Registry)
    (built : List NetworkMessage) (after : Site σ) : Prop where
  draining : after.loop.metrics.draining = true
  running : after.loop.metrics.groupsRunning.get (groupLabels settings.name) =
    before.groupsRunning.get (groupLabels settings.name)
  published : (after.loop.metrics.tally settings.name c.name).published =
    UInt64.ofNat (c.accepted after.link).length
  encodeErrors : (after.loop.metrics.tally settings.name c.name).encodeErrors = 0
  /-- messages are numbered from 1 on without a gap, every writer alike -/
  numbered : ∀ k n, built[k]? = some n →
    List.Forall₂ (DataSetMessage.Numbered (k + 1)) settings.writers n.messages
  /-- But for at most one message, the last, all are settled. Those the transport accepted are in the transport, in
  order, and the others are counted as send errors. -/
  settled : ∃ (settled : List Loop.Settled) (abandoned : Option NetworkMessage),
    built = settled.map Prod.fst ++ abandoned.toList ∧
    List.Forall₂ (fun x f => x.1.FrameOf settings.name f) (settled.filter fun x => x.2.isOk) (c.accepted after.link) ∧
    (after.loop.metrics.tally settings.name c.name).sendErrors =
      UInt64.ofNat (settled.countP fun x => !x.2.isOk)

/-! ## Whole runs -/

variable {c : Carrier σ μ} {settings : Config.GroupSettings} {before : Registry}
  {built : List NetworkMessage} {s : Site σ}

/-- a site in order: the carrier has accepted just the frames that the loop thinks it has -/
structure Sound (settings : Config.GroupSettings) (c : Carrier σ μ) (before : Registry) (built : List NetworkMessage)
    (s : Site σ) : Prop where
  tidy : s.loop.Tidy settings.name before
  numbers : s.loop.Numbers settings built
  ledger : ∃ settled pending, s.loop.Ledger settings.name c.name before built settled pending
  accepted : c.accepted s.link = s.loop.accepted

/-- a site that starts, with a group that was just compiled and a carrier that has accepted nothing yet -/
theorem Sound.start {g : WriterGroup} {publisherId : Option String} (hvalid : settings.Valid)
    (hg : WriterGroup.ofSettings publisherId settings = .ok g) {link : σ} (hlink : c.accepted link = []) :
    Sound settings c before [] (start c g before link) := by
  have hreached := WriterGroup.reached_of_ofSettings hg
  have htidy := Loop.Tidy.start g before c.name
  have hledger := Loop.Ledger.start g before c.name
  rw [hreached.name] at htidy hledger
  refine ⟨htidy, ⟨⟨0, hreached⟩, WriterGroup.fits_of_ofSettings hvalid hg, ?_⟩, ⟨[], none, hledger⟩, hlink⟩
  intro k n hn
  simp at hn

/-- **One event** at a sound site leaves it sound, if the carrier keeps account of the frames -/
theorem Sound.event (h : Sound settings c before built s) (e : Event) {link : σ}
    (haccepted : c.accepted link = (s.loop.step e).accepted) :
    Sound settings c before (built ++ (s.loop.made e).toList) ⟨s.loop.step e, link⟩ := by
  have hmoves := s.loop.moves_step e
  have hname := h.numbers.name
  have htidy := h.tidy
  obtain ⟨settled, pending, hledger⟩ := h.ledger
  rw [← hname] at htidy hledger
  have hencode : ∀ n, s.loop.made e = some n → ∃ text, n.encode = .ok text :=
    fun n hn => Loop.encode_of_made h.numbers.fits hn
  have htidy' := htidy.step hmoves
  have hledger' := hledger.step hmoves hencode
  rw [hname] at htidy' hledger'
  exact ⟨htidy', h.numbers.step hmoves, hledger', haccepted⟩

theorem Sound.step (h : Sound settings c before built s) (happening : Happening μ) :
    Sound settings c before (built ++ (s.made happening).toList) (s.step c happening) := by
  cases happening with
  | event e =>
    by_cases hanswer : ∃ answer, e = .answer answer
    · obtain ⟨answer, rfl⟩ := hanswer
      have hmade : s.made (μ := μ) (.event (.answer answer)) = none := rfl
      rw [hmade, Option.toList_none, List.append_nil]
      exact h
    · have hne : ∀ answer, e ≠ .answer answer := fun answer heq => hanswer ⟨answer, heq⟩
      have hstep : s.step c (.event e) = { s with loop := s.loop.step e } := by
        cases e with
        | answer answer => exact absurd rfl (hne answer)
        | _ => rfl
      rw [hstep]
      exact h.event e (h.accepted.trans (Loop.accepted_step hne).symm)
  | offer =>
    have hmade : s.made (μ := μ) .offer = none := rfl
    rw [hmade, Option.toList_none, List.append_nil]
    cases hphase : s.loop.phase with
    | sending frame =>
      cases hoffer : c.offer frame s.link with
      | none =>
        simp only [Site.step, hphase, hoffer]
        exact h
      | some answered =>
        obtain ⟨answer, link⟩ := answered
        have haccepted : c.accepted link = (s.loop.step (.answer answer)).accepted := by
          rw [c.accepted_offer hoffer, h.accepted]
          simp only [Loop.step, hphase]
        have hsound := h.event (.answer answer) haccepted
        have hnone : s.loop.made (.answer answer) = none := rfl
        rw [hnone, Option.toList_none, List.append_nil] at hsound
        simp only [Site.step, hphase, hoffer]
        exact hsound
    | idle | sampling | stopped =>
      simp only [Site.step, hphase]
      exact h
  | move m =>
    have hmade : s.made (.move m) = none := rfl
    rw [hmade, Option.toList_none, List.append_nil]
    exact ⟨h.tidy, h.numbers, h.ledger, (c.accepted_move m s.link).trans h.accepted⟩

theorem run_cons (happening : Happening μ) (rest : List (Happening μ)) (s : Site σ) :
    s.run c (happening :: rest) = (s.step c happening).run c rest :=
  rfl

theorem Sound.run (h : Sound settings c before built s) (happenings : List (Happening μ)) :
    Sound settings c before (built ++ history c s happenings) (s.run c happenings) := by
  induction happenings generalizing built s with
  | nil =>
    rw [history, List.append_nil]
    exact h
  | cons happening rest ih =>
    rw [history, run_cons, ← List.append_assoc]
    exact ih (h.step happening)

/-- what a sound site has that was started with fresh metrics and has stopped -/
theorem Sound.drained (h : Sound settings c {} built s) (hstopped : s.loop.phase = .stopped) :
    Drained settings c {} built s := by
  obtain ⟨settled, pending, hledger⟩ := h.ledger
  have hzero : ({} : Registry).tally settings.name c.name = {} := rfl
  have hlength : settled.countP (fun x => x.2.isOk) = (c.accepted s.link).length := by
    rw [List.countP_eq_length_filter, h.accepted]
    exact hledger.accepted.length_eq
  exact {
    draining := h.tidy.draining (h.tidy.closing hstopped)
    running := by
      rw [h.tidy.running, if_pos hstopped]
      rfl
    published :=
      calc (s.loop.metrics.tally settings.name c.name).published
          = (({} : Registry).tally settings.name c.name).published +
              UInt64.ofNat (settled.countP fun x => x.2.isOk) := hledger.published
        _ = 0 + UInt64.ofNat (c.accepted s.link).length := by rw [hzero, hlength]
        _ = UInt64.ofNat (c.accepted s.link).length := UInt64.zero_add _
    encodeErrors := by
      rw [hledger.encodeErrors, hzero]
    numbered := h.numbers.numbered
    settled := by
      refine ⟨settled, pending, hledger.built, ?_, ?_⟩
      · rw [h.accepted]
        exact hledger.accepted
      · rw [hledger.sendErrors, hzero]
        exact UInt64.zero_add _ }

/-- **Shutdown is safe.** A publisher was just started and has one group. Whatever the group samples and when, whatever
its carrier accepts, refuses or leaves waiting, and whenever shutdown is asked for and seen: once the loop has stopped,
the metrics say so, they count the frames that the carrier accepted, and every message that was built, but for at most
the last one, either is among these frames or is counted as a send error. -/
theorem drained_of_stopped {configured : Config.Settings} {p : Publisher} {g : WriterGroup}
    (hp : Publisher.ofSettings configured = .ok p) (hsettings : configured.groups = [settings]) (hg : p.groups = [g])
    (c : Carrier σ μ) {link : σ} (hlink : c.accepted link = []) (happenings : List (Happening μ))
    (hstopped : ((start c g p.metrics link).run c happenings).loop.phase = .stopped) :
    Drained settings c p.metrics (history c (start c g p.metrics link) happenings)
      ((start c g p.metrics link).run c happenings) := by
  obtain ⟨⟨⟩, hvalidate, hbind⟩ := bind_eq_ok.1 hp
  obtain ⟨groups, hcompile, hpublisher⟩ := bind_eq_ok.1 hbind
  cases hpublisher
  have hvalid : settings.Valid := by
    apply (Config.Settings.validate_eq_ok.1 hvalidate).groups
    rw [hsettings]
    exact List.mem_singleton_self settings
  have hcompiled : WriterGroup.ofSettings configured.publisher.publisherId settings = .ok g := by
    have hall := forall₂_of_mapM hcompile
    have hgroups : groups = [g] := hg
    rw [hsettings, hgroups] at hall
    cases hall with
    | cons hfirst _ => exact hfirst
  exact ((Sound.start hvalid hcompiled hlink).run happenings).drained hstopped

/-- two writers -/
def onlyPair : Config.Settings where
  version := 1
  transport := { kind := .log }
  groups := [Station.pair]

/-- a queue with room for one frame -/
def narrow : Carrier Pipe Pipe.Move := .channel 1

/-- a transport that refuses every other frame, the first one included -/
def flickering : Carrier (ℕ × List Frame) Empty := .immediate Station.everyOther

/-- a cycle whose samples are there at once -/
def cycle {μ : Type} : Happening μ := .event (.tick (fun _ _ _ => .ok .empty) { now := .min, messageId := "m" })

/-- The second frame waits until the first is received. The third still waits when the loop stops. -/
def blockedAtShutdown : List (Happening Pipe.Move) :=
  [cycle, .offer, cycle, .offer, .move .receive, .offer, cycle, .offer, .event .shutdown, .offer, .event .stop]

/-- the first frame is refused -/
def refusedAtFirst : List (Happening Empty) := [cycle, .offer, cycle, .offer, .event .shutdown, .event .stop]

theorem drained_of_stopped_onlyPair :
    Publisher.ofSettings onlyPair = .ok { settings := onlyPair, groups := [Station.pairGroup] } ∧
      (let before := start narrow Station.pairGroup {} {}
      let after := before.run narrow blockedAtShutdown
      after.loop.phase = .stopped ∧ Drained Station.pair narrow {} (history narrow before blockedAtShutdown) after ∧
        (history narrow before blockedAtShutdown).length = 3 ∧ (narrow.accepted after.link).length = 2) ∧
      (let before := start flickering Station.pairGroup {} (0, [])
      let after := before.run flickering refusedAtFirst
      after.loop.phase = .stopped ∧ Drained Station.pair flickering {} (history flickering before refusedAtFirst) after ∧
        (history flickering before refusedAtFirst).length = 2 ∧ (flickering.accepted after.link).length = 1) := by
  have hp : Publisher.ofSettings onlyPair = .ok { settings := onlyPair, groups := [Station.pairGroup] } := by rfl
  refine ⟨hp, ⟨?stopped, ?_, ?_, ?_⟩, ?refused, ?_, ?_, ?_⟩
  case stopped => decide +kernel
  case refused => decide +kernel
  · exact drained_of_stopped hp rfl rfl narrow rfl blockedAtShutdown (by decide +kernel)
  · decide +kernel
  · decide +kernel
  · exact drained_of_stopped hp rfl rfl flickering rfl refusedAtFirst (by decide +kernel)
  · decide +kernel
  · decide +kernel

end Site

end OpcPubSub
