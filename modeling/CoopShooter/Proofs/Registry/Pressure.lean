import Mathlib
import CoopShooter.Proofs.Play.Mail
import CoopShooter.Proofs.Registry.Posting

/-!
An outbox that is full loses datagrams, and that is all it does. A registry that has an outbox at
hand comes to the same state and gives the same answers with any outbox, and a larger outbox takes
in all that a smaller one takes in. It may pop others all the same: a datagram that the smaller one
has lost waits before those that come after it.
-/

namespace CoopShooter

/-! ### Whole datagrams -/

namespace Registry

variable {g : Registry}

lemma fits_flatMap_notices (ds : List Departure) :
    ∀ o ∈ ds.flatMap Departure.notices, o.packet.Fits := by
  intro o ho
  rw [← Departure.partings_flatMap_notices, partings, List.mem_filter] at ho
  have hparting := ho.2
  unfold Packet.parting at hparting
  split at hparting
  · next h => rw [h]; trivial
  · next h => rw [h]; trivial
  · cases hparting

lemma fits_removePlayer (g : Registry) (player : UInt32) :
    ∀ o ∈ (g.removePlayer player).offers, o.packet.Fits := by
  rw [removePlayer_offers]
  exact fits_flatMap_notices _

lemma fits_handleInput (g : Registry) (m : InputReport) (source : Endpoint) (now : UInt32) :
    ∀ o ∈ (g.handleInput m source now).offers, o.packet.Fits := by
  rcases g.handleInput_cases m source now with hg | ⟨room, r, -, -, hg⟩
  · rw [hg]
    simp
  · rw [hg]
    exact (r.change_step (.input m source now)).fits

lemma fits_handleDatagram (g : Registry) (bs : Bytes) (source : Endpoint) (now : UInt32) :
    ∀ o ∈ (g.handleDatagram bs source now).offers, o.packet.Fits := by
  rcases g.handleDatagram_cases bs source now with ⟨m, -, hg⟩ | ⟨m, -, hg⟩ | ⟨m, -, hg⟩ | hg
  · rw [hg]
    exact g.fits_handleInput m source now
  · rw [hg]
    simp [Packet.Fits]
  · rw [hg, handleLeave]
    split
    · exact g.fits_removePlayer m.player
    · simp
  · rw [hg]
    simp

lemma fits_tickAll (g : Registry) (dt : Float32) (now : UInt32) :
    ∀ o ∈ (g.tickAll dt now).offers, o.packet.Fits := by
  rw [offers_tickAll]
  intro o ho
  obtain ⟨r, -, ho⟩ := List.mem_flatMap.1 ho
  exact Room.fits_update r dt now o ho

/-- Every datagram that a registry offers is one that is sent whole. -/
lemma fits_step (g : Registry) (a : Act) : ∀ o ∈ (g.step a).offers, o.packet.Fits := by
  cases a with
  | create seed => simp [step, createRoom, Outcome.quiet]
  | join player name room => simp [step, Outcome.quiet, joinRoom_offers]
  | delete room =>
    change ∀ o ∈ (g.deleteRoom room).offers, o.packet.Fits
    rw [deleteRoom_offers]
    exact fits_flatMap_notices _
  | kick room player =>
    change ∀ o ∈ (g.kickPlayer room player).offers, o.packet.Fits
    rw [kickPlayer_offers]
    exact fits_flatMap_notices _
  | remove player => exact g.fits_removePlayer player
  | start player room => simp [step, Outcome.quiet, startGame_offers]
  | tick dt now => exact g.fits_tickAll dt now
  | input m source now => exact g.fits_handleInput m source now
  | datagram bs source now => exact g.fits_handleDatagram bs source now

end Registry

/-! ### Two runs -/

/-- A registry and the outbox into which its datagrams go. -/
structure Service where
  registry : Registry
  outbox : Outbox

namespace Service

/-- Something happens to the registry, or the oldest datagram is taken out to be sent. -/
inductive Event where
  | act (a : Registry.Act)
  | pop

/-- A registry that has just begun, and an outbox of some capacity. -/
def begin (settings : Settings) (capacity : Nat) : Service :=
  ⟨.begin settings, .ofCapacity capacity⟩

/-- An act with the outbox at hand: the answer, and what has become of both. -/
def perform (s : Service) (a : Registry.Act) : Registry.Answer × Service :=
  let ((answer, registry), outbox) := (s.registry.perform a).run s.outbox
  (answer, ⟨registry, outbox⟩)

def step (s : Service) : Event → Service
  | .act a => (s.perform a).2
  | .pop => { s with outbox := s.outbox.pop.2 }

def after (s : Service) (es : List Event) : Service := es.foldl step s

/-- What is answered in a run. -/
def answers : Service → List Event → List Registry.Answer
  | _, [] => []
  | s, .act a :: es => (s.perform a).1 :: (s.step (.act a)).answers es
  | s, .pop :: es => (s.step .pop).answers es

/-- What the registry offers in a run. -/
def offered : Service → List Event → List Offer
  | _, [] => []
  | s, .act a :: es => (s.registry.step a).offers ++ (s.step (.act a)).offered es
  | s, .pop :: es => (s.step .pop).offered es

/-- The datagrams that find room in the outbox in a run. -/
def accepted : Service → List Event → List Datagram
  | _, [] => []
  | s, .act a :: es =>
    s.outbox.news (s.step (.act a)).outbox ++ (s.step (.act a)).accepted es
  | s, .pop :: es => (s.step .pop).accepted es

/-- The datagrams that are taken out of it. -/
def popped : Service → List Event → List Datagram
  | _, [] => []
  | s, .act a :: es => (s.step (.act a)).popped es
  | s, .pop :: es => s.outbox.pop.1.toList ++ (s.step .pop).popped es

/-- What a run does to the ring of the outbox. -/
def uses : Service → List Event → List (Use Datagram)
  | _, [] => []
  | s, .act a :: es => Outbox.pushes (s.registry.step a).offers ++ (s.step (.act a)).uses es
  | s, .pop :: es => .pop :: (s.step .pop).uses es

variable {s s' : Service} {ds : List Datagram}

lemma perform_eq (s : Service) (a : Registry.Act) :
    s.perform a = (s.registry.answer a,
      ⟨(s.registry.step a).state, s.outbox.queueAll (s.registry.step a).offers⟩) := by
  have hposts := s.registry.posts_perform a s.outbox
  rw [perform, StateT.run, hposts]

lemma registry_step (s : Service) (a : Registry.Act) :
    (s.step (.act a)).registry = (s.registry.step a).state := by
  rw [step, perform_eq]

lemma outbox_step (s : Service) (a : Registry.Act) :
    (s.step (.act a)).outbox = s.outbox.queueAll (s.registry.step a).offers := by
  rw [step, perform_eq]

/-- Nothing of it depends on the outbox. -/
lemma same_game (h : s.registry = s'.registry) (es : List Event) :
    (s.after es).registry = (s'.after es).registry ∧ s.answers es = s'.answers es ∧
      s.offered es = s'.offered es ∧ s.uses es = s'.uses es := by
  induction es generalizing s s' with
  | nil => exact ⟨h, rfl, rfl, rfl⟩
  | cons e es ih =>
    cases e with
    | act a =>
      have hnext : (s.step (.act a)).registry = (s'.step (.act a)).registry := by
        rw [registry_step, registry_step, h]
      obtain ⟨hregistry, hanswers, hoffered, huses⟩ := ih hnext
      refine ⟨hregistry, ?_, ?_, ?_⟩
      · rw [answers, answers, perform_eq, perform_eq, h, hanswers]
      · rw [offered, offered, h, hoffered]
      · rw [uses, uses, h, huses]
    | pop =>
      have hnext : (s.step .pop).registry = (s'.step .pop).registry := h
      obtain ⟨hregistry, hanswers, hoffered, huses⟩ := ih hnext
      exact ⟨hregistry, hanswers, hoffered, congrArg _ huses⟩

/-- Whatever happens, the outbox holds a list of datagrams. -/
lemma holds_step (h : s.outbox.ring.Holds ds) (e : Event) :
    ∃ left, (s.step e).outbox.ring.Holds left := by
  cases e with
  | act a =>
    rw [outbox_step, Outbox.ring_queueAll]
    exact h.after _
  | pop => exact h.after [.pop]

/-- The outbox is a ring that is used so. -/
lemma run_eq_uses (h : s.outbox.ring.Holds ds) (es : List Event) :
    (s.after es).outbox.ring = s.outbox.ring.after (s.uses es) ∧
      s.accepted es = s.outbox.ring.accepted (s.uses es) ∧
      s.popped es = s.outbox.ring.popped (s.uses es) := by
  induction es generalizing s ds with
  | nil => exact ⟨rfl, rfl, rfl⟩
  | cons e es ih =>
    obtain ⟨left, hholds⟩ := holds_step h e
    obtain ⟨hring, haccepted, hpopped⟩ := ih hholds
    cases e with
    | act a =>
      have hnext : (s.step (.act a)).outbox.ring =
          s.outbox.ring.after (Outbox.pushes (s.registry.step a).offers) := by
        rw [outbox_step, Outbox.ring_queueAll]
      rw [hnext] at hring haccepted hpopped
      refine ⟨?_, ?_, ?_⟩
      · rw [uses, Ring.after_append]
        exact hring
      · rw [accepted, uses, Ring.accepted_append, haccepted, outbox_step, Outbox.news_queueAll h]
      · rw [popped, uses, hpopped, Outbox.pushes, Ring.popped_pushes_append]
    | pop =>
      refine ⟨hring, haccepted, ?_⟩
      rw [popped, hpopped]
      rfl

/-- What finds room is what was offered, byte for byte. -/
lemma content_accepted (h : s.outbox.ring.Holds ds) (es : List Event) :
    ((s.accepted es).map Datagram.content).Sublist ((s.offered es).map Offer.content) := by
  induction es generalizing s ds with
  | nil => exact .refl _
  | cons e es ih =>
    obtain ⟨left, hholds⟩ := holds_step h e
    cases e with
    | act a =>
      rw [accepted, offered, List.map_append, List.map_append, outbox_step,
        Outbox.news_queueAll h, Outbox.pushes, ← content_queued (s.registry.fits_step a)]
      exact ((Ring.accepted_pushes_sublist _ _).map _).append (ih hholds)
    | pop => exact ih hholds

lemma holds_begin (settings : Settings) (capacity : Nat) :
    (begin settings capacity).outbox.ring.Holds [] :=
  Ring.holds_ofCapacity capacity

/-- What has found room is taken out in its order, as far as it does not wait any more. -/
lemma accepted_eq (settings : Settings) (capacity : Nat) (es : List Event) :
    (begin settings capacity).accepted es =
      (begin settings capacity).popped es ++
        ((begin settings capacity).after es).outbox.toList := by
  have hbegin := holds_begin settings capacity
  obtain ⟨hring, haccepted, hpopped⟩ := run_eq_uses hbegin es
  rw [haccepted, hpopped, Outbox.toList, hring]
  exact hbegin.accounts _

end Service

end CoopShooter
