import Mathlib
import CoopShooter.Proofs.Registry.Consistent
import CoopShooter.Proofs.Server.Deeds

/-!
Everything that can happen to a server, one event after the other, and whom it lets in on the way.
An event opens a stream, or welcomes a client and goes on with deeds, or is nothing but deeds; every
invariant of a run is proved along those.
-/

namespace CoopShooter.Server

/-- What can happen to a server. -/
inductive Event where
  | connect
  | bytes (link : ℕ) (bs : Bytes) (now : UInt32)
  | close (link : ℕ)
  | datagram (bs : Bytes) (source : Endpoint) (now : UInt32)
  | line (text : String)
  | tick (dt : Float32) (now : UInt32)

/-- A server that has just begun. -/
def begin (settings : Settings) (entropy : List UInt64) (port : UInt16) : Server :=
  { registry := .begin settings, gamePort := port, entropy := entropy }

/-- One event. -/
def step (s : Server) : Event → Outcome Server Unit
  | .connect => s.openLink.quiet
  | .bytes link bs now => s.receive link bs now
  | .close link => s.endLink link
  | .datagram bs source now => s.onRegistry fun g => g.handleDatagram bs source now
  | .line text => (s.answerLine text).quiet
  | .tick dt now => s.onRegistry fun g => g.tickAll dt now

/-- The server after some events. -/
def after (s : Server) (events : List Event) : Server :=
  events.foldl (fun s e => (s.step e).state) s

lemma after_append (s : Server) (es fs : List Event) :
    s.after (es ++ fs) = (s.after es).after fs := by
  simp [after, List.foldl_append]

lemma after_cons (s : Server) (e : Event) (es : List Event) :
    s.after (e :: es) = (s.step e).state.after es := rfl

lemma after_snoc (s : Server) (es : List Event) (e : Event) :
    s.after (es ++ [e]) = ((s.after es).step e).state := by
  rw [after_append]
  rfl

/-- Whom an event lets in: the stream, and the number that is given out. -/
def welcomed? (s : Server) : Event → Option (ℕ × UInt32)
  | .bytes link bs now =>
    if s.stageOf link = .greeting then
      ((s.receive link bs now).state.stageOf link).player?.map fun player => (link, player)
    else none
  | _ => none

lemma welcomed?_connect (s : Server) : s.welcomed? .connect = none := rfl

/-- Whom a run lets in, in the order in which their handshakes are completed. -/
def handshakes (s : Server) : List Event → List (ℕ × UInt32)
  | [] => []
  | e :: es => (s.welcomed? e).toList ++ (s.step e).state.handshakes es

lemma handshakes_append (s : Server) (es fs : List Event) :
    s.handshakes (es ++ fs) = s.handshakes es ++ (s.after es).handshakes fs := by
  induction es generalizing s with
  | nil => rfl
  | cons e es ih => rw [List.cons_append, handshakes, handshakes, ih, List.append_assoc, after_cons]

lemma handshakes_snoc (s : Server) (es : List Event) (e : Event) :
    s.handshakes (es ++ [e]) = s.handshakes es ++ ((s.after es).welcomed? e).toList := by
  rw [handshakes_append, handshakes, handshakes, List.append_nil]

variable {s : Server} {link : ℕ}

/-! ## New streams and new players -/

lemma stageOf_openLink (s : Server) (link : ℕ) :
    s.openLink.state.stageOf link = if link = s.links.next then .greeting else s.stageOf link := by
  rw [stageOf, openLink, Links.find?_add]
  split_ifs <;> rfl

lemma stageOf_of_find?_eq_none (h : s.links.find? link = none) : s.stageOf link = .ended := by
  rw [stageOf, h]
  rfl

/-- Nobody has been on the stream that is opened next. -/
lemma stageOf_next (s : Server) : s.stageOf s.links.next = .ended :=
  stageOf_of_find?_eq_none s.links.find?_next

lemma sent_write (h : s.stageOf link ≠ .ended) (bs : Bytes) :
    (s.write link bs).sent link = s.sent link ++ bs := by
  rw [sent, sent, collect, collect, write, Links.find?_modify, if_pos rfl]
  rcases hl : s.links.find? link with _ | a
  · exact absurd (stageOf_of_find?_eq_none hl) h
  · rfl

lemma sent_keep (s : Server) (link l : ℕ) (bs : Bytes) :
    (s.keep link bs).sent l = s.sent l := by
  rw [sent, sent, collect, collect, keep, Links.find?_modify]
  split_ifs
  · cases s.links.find? l <;> rfl
  · rfl

lemma sent_welcome (h : s.stageOf link = .greeting) (name : String) (now : UInt32) :
    (s.welcome link name now).sent link =
      s.sent link ++ Message.encode (⟨s.nextPlayer, s.gamePort, now⟩ : Welcome) := by
  rw [sent, sent, collect, collect, welcome, write, setStage, Links.find?_modify, if_pos rfl,
    Links.find?_modify, if_pos rfl]
  rcases hl : s.links.find? link with _ | l
  · rw [stageOf_of_find?_eq_none hl] at h
    cases h
  · rfl

/-! ## What an event does -/

/-- A stream whose client was let in goes on with deeds, and one that has ended stays as it is. -/
lemma course_receive (h : s.stageOf link ≠ .greeting) (bs : Bytes) (now : UInt32) :
    Course s (s.receive link bs now).state := by
  rcases hplayer : (s.stageOf link).player? with _ | player
  · have hended : s.stageOf link = .ended := by
      cases hs : s.stageOf link with
      | greeting => exact absurd hs h
      | lobby | inRoom =>
        rw [hs] at hplayer
        cases hplayer
      | ended => rfl
    rw [receive_eq_consume, consume_ended hended]
  · rw [receive_eq_consume]
    exact Admitted.course_consume hplayer _ now

/-- What bytes do on a stream. Only a stream that has not begun yet may be welcomed. -/
lemma receive_cases (s : Server) (link : ℕ) (bs : Bytes) (now : UInt32) :
    (s.welcomed? (.bytes link bs now) = none ∧ Course s (s.receive link bs now).state) ∨
      s.stageOf link = .greeting ∧ s.welcomed? (.bytes link bs now) = some (link, s.nextPlayer) ∧
        ∃ name, Course (s.welcome link name now) (s.receive link bs now).state := by
  by_cases hgreeting : s.stageOf link = .greeting
  · have hwelcomed : s.welcomed? (.bytes link bs now) =
        ((s.receive link bs now).state.stageOf link).player?.map fun player => (link, player) :=
      if_pos hgreeting
    rcases consume_greeting hgreeting (s.unreadOf link ++ bs) now with
      hkept | hrefused | ⟨name, rest, hin⟩
    · refine .inl ⟨?_, ?_⟩
      · rw [hwelcomed, receive_eq_consume, hkept, stageOf_keep, hgreeting]
        rfl
      · rw [receive_eq_consume, hkept]
        exact (s.calm_keep link _).course
    · refine .inl ⟨?_, ?_⟩
      · rw [hwelcomed, receive_eq_consume, hrefused, refuse, stageOf_endLink, if_pos rfl]
        rfl
      · rw [receive_eq_consume, hrefused]
        exact s.course_refuse link
    · have hadmitted := admitted_welcome hgreeting name now
      refine .inr ⟨hgreeting, ?_, name, ?_⟩
      · have hin' : (s.receive link bs now).state.Admitted link s.nextPlayer := by
          rw [receive_eq_consume, hin, hadmitted.consume]
          exact (hadmitted.handleAll now _).keep _
        rw [hwelcomed, hin']
        rfl
      · rw [receive_eq_consume, hin]
        exact hadmitted.course_consume rest now
  · exact .inl ⟨if_neg hgreeting, course_receive hgreeting bs now⟩

/-- A stream is opened, or there are only deeds, or a client is welcomed and then there are. -/
lemma step_cases (s : Server) (e : Event) :
    e = .connect ∨ (s.welcomed? e = none ∧ Course s (s.step e).state) ∨
      ∃ link bs now name, e = .bytes link bs now ∧ s.stageOf link = .greeting ∧
        s.welcomed? e = some (link, s.nextPlayer) ∧
          Course (s.welcome link name now) (s.step e).state := by
  cases e with
  | connect => exact .inl rfl
  | bytes link bs now =>
    rcases s.receive_cases link bs now with ⟨hnone, hcourse⟩ | ⟨hgreeting, hsome, name, hcourse⟩
    · exact .inr (.inl ⟨hnone, hcourse⟩)
    · exact .inr (.inr ⟨link, bs, now, name, rfl, hgreeting, hsome, hcourse⟩)
  | close link => exact .inr (.inl ⟨rfl, .single (.ended link)⟩)
  | datagram bs source now =>
    exact .inr (.inl ⟨rfl, (s.calm_onRegistry (f := fun g => g.handleDatagram bs source now)
      fun hg => hg.handleDatagram bs source now).course⟩)
  | line text => exact .inr (.inl ⟨rfl, s.course_answerLine text⟩)
  | tick dt now =>
    exact .inr (.inl ⟨rfl, (s.calm_onRegistry (f := fun g => g.tickAll dt now)
      fun hg => hg.same (Registry.sameRosters_tickAll s.registry dt now)).course⟩)

/-- A client that is let in is told its number, before anything else. -/
lemma told_of_welcomed? {e : Event} {player : UInt32} (h : s.welcomed? e = some (link, player)) :
    ∃ now, s.sent link ++ Message.encode (⟨player, s.gamePort, now⟩ : Welcome) <+:
      (s.step e).state.sent link := by
  rcases s.step_cases e with rfl | ⟨hnone, -⟩ | ⟨l, bs, now, name, -, hgreeting, hsome, hcourse⟩
  · cases h
  · cases h.symm.trans hnone
  · cases h.symm.trans hsome
    refine ⟨now, ?_⟩
    rw [← sent_welcome hgreeting name now]
    exact hcourse.keeps.sent link

end CoopShooter.Server
