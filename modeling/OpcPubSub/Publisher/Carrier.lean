/-
Transports in time. A frame that is offered to a carrier is accepted, refused, or has to wait for another offer. What
else happens to a carrier, such as a receiver that takes a frame, is a move of its own. A carrier can tell what it ever
accepted, and its laws say that only an accepted offer adds to that: a frame that still waits when its sender gives up
has left nothing behind, and one that was accepted is answered in the same moment.

A site is a loop and the carrier's state. The loop offers the frame it wants to send whenever it is polled; the carrier
moves whenever it likes.
-/
import OpcPubSub.Publisher.Loop

namespace OpcPubSub

/-- a transport with state `σ` and moves `μ` -/
structure Carrier (σ μ : Type) where
  name : String
  /-- the answer to a frame, and the state after it; none as long as the frame has to wait -/
  offer : Frame → σ → Option (Except Fault Unit × σ)
  move : μ → σ → σ
  /-- every frame that was accepted, in order -/
  accepted : σ → List Frame
  accepted_offer : ∀ {frame : Frame} {link after : σ} {answer : Except Fault Unit},
    offer frame link = some (answer, after) →
      accepted after = if answer.isOk then accepted link ++ [frame] else accepted link
  accepted_move : ∀ (m : μ) (link : σ), accepted (move m link) = accepted link

/-- a bounded queue between a sender and a receiver -/
structure Pipe where
  /-- the receiver takes no more frames -/
  closed : Bool := false
  waiting : List Frame := []
  /-- the frames that left the queue, to the receiver or with it -/
  taken : List Frame := []
deriving DecidableEq, Repr

/-- what a receiver does; to drop it is to close the queue and to take what waits -/
inductive Pipe.Move where
  | receive
  | close
deriving DecidableEq, Repr

namespace Carrier

/-- a transport that answers every frame at once -/
def immediate {σ : Type} (t : Transport σ) : Carrier (σ × List Frame) Empty where
  name := t.name
  offer frame link :=
    let (answer, after) := t.send frame link.1
    some (answer, (after, if answer.isOk then link.2 ++ [frame] else link.2))
  move m := m.elim
  accepted := Prod.snd
  accepted_offer h := by
    cases h
    rfl
  accepted_move m := m.elim

/-- a queue that holds `capacity` frames: a frame waits while it is full, and is refused once it is closed -/
def channel (capacity : Nat) : Carrier Pipe Pipe.Move where
  name := "channel"
  offer frame q :=
    if q.closed then some (.error (.transport "channel receiver dropped"), q)
    else if q.waiting.length < capacity then some (.ok (), { q with waiting := q.waiting ++ [frame] })
    else none
  move m q :=
    match m with
    | .close => { q with closed := true }
    | .receive =>
      match q.waiting with
      | [] => q
      | frame :: rest => { q with waiting := rest, taken := q.taken ++ [frame] }
  accepted q := q.taken ++ q.waiting
  accepted_offer {frame link after answer} h := by
    by_cases hclosed : link.closed = true
    · simp only [hclosed, if_true, Option.some.injEq, Prod.mk.injEq] at h
      obtain ⟨rfl, rfl⟩ := h
      rfl
    · by_cases hroom : link.waiting.length < capacity
      · simp only [hclosed, hroom, Bool.false_eq_true, if_true, if_false, Option.some.injEq, Prod.mk.injEq] at h
        obtain ⟨rfl, rfl⟩ := h
        exact (List.append_assoc _ _ _).symm
      · simp [hclosed, hroom] at h
  accepted_move m q := by
    cases m with
    | close => rfl
    | receive =>
      rcases q with ⟨closed, waiting, taken⟩
      cases waiting with
      | nil => rfl
      | cons frame rest => simp

end Carrier

/-- a loop and the state of its carrier -/
structure Site (σ : Type) where
  loop : Loop
  link : σ

/-- what happens at a site -/
inductive Happening (μ : Type) where
  /-- something the loop sees; only a carrier can answer, so an answer from elsewhere changes nothing -/
  | event (e : Event)
  /-- the loop offers the frame that it is sending -/
  | offer
  | move (m : μ)

namespace Site

variable {σ μ : Type}

/-- a site whose loop starts -/
def start (c : Carrier σ μ) (group : WriterGroup) (metrics : Metrics.Registry) (link : σ) : Site σ :=
  ⟨.start group metrics c.name, link⟩

def step (c : Carrier σ μ) (s : Site σ) (h : Happening μ) : Site σ :=
  match h with
  | .event (.answer _) => s
  | .event e => { s with loop := s.loop.step e }
  | .offer =>
    match s.loop.phase with
    | .sending frame =>
      match c.offer frame s.link with
      | some (answer, link) => { loop := s.loop.step (.answer answer), link }
      | none => s
    | _ => s
  | .move m => { s with link := c.move m s.link }

def run (c : Carrier σ μ) (s : Site σ) (happenings : List (Happening μ)) : Site σ := happenings.foldl (step c) s

end Site

end OpcPubSub
