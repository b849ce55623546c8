import Mathlib
import CoopShooter.Proofs.IdMap
import CoopShooter.Proofs.Server.Numbers
import CoopShooter.Proofs.Server.Talk

/-!
Clients that come in one after the other, hang up, and do nothing else. Each opens a stream of its
own, gets the next number and takes its session; rooms and older streams stay as they are. With
enough of them the numbers come round.
-/

namespace CoopShooter.Server

variable {s s' s'' : Server} {n m : ℕ}

/-- How a newcomer greets. -/
def hello : Greeting := ⟨.ofString nameWidth "eve"⟩

/-- A newcomer opens a stream and greets. -/
def arrival (link : ℕ) : List Event := [.connect, .bytes link (Message.encode hello) 0]

/-- A newcomer who hangs up at once. -/
def visit (link : ℕ) : List Event := arrival link ++ [.close link]

/-- So many visits one after the other, on the streams from a place on. -/
def visits (link : ℕ) : ℕ → List Event
  | 0 => []
  | n + 1 => visit link ++ visits (link + 1) n

/-- So many newcomers have come in, and rooms and older streams are as they were. -/
structure Passed (n : ℕ) (s s' : Server) : Prop where
  registry : s'.registry = s.registry
  next : s'.links.next = s.links.next + n
  nextPlayer : s'.nextPlayer = s.nextPlayer + UInt32.ofNat n
  links : ∀ l < s.links.next, s'.links.find? l = s.links.find? l

lemma Passed.refl (s : Server) : Passed 0 s s :=
  ⟨rfl, rfl, (UInt32.add_zero _).symm, fun _ _ => rfl⟩

lemma Passed.trans (h : Passed n s s') (h' : Passed m s' s'') : Passed (n + m) s s'' where
  registry := h'.registry.trans h.registry
  next := by rw [h'.next, h.next, Nat.add_assoc]
  nextPlayer := by rw [h'.nextPlayer, h.nextPlayer, UInt32.ofNat_add, UInt32.add_assoc]
  links l hl := by
    have hlt : l < s'.links.next := by
      rw [h.next]
      omega
    rw [h'.links l hlt, h.links l hl]

lemma Passed.stageOf (h : Passed n s s') {l : ℕ} (hl : l < s.links.next) :
    s'.stageOf l = s.stageOf l := by
  rw [Server.stageOf, Server.stageOf, h.links l hl]

/-- The server after a newcomer was let in. -/
def withNewcomer (s : Server) : Server := s.openLink.state.welcome s.links.next hello.name.text 0

lemma find?_openLink (s : Server) : s.openLink.state.links.find? s.links.next = some {} :=
  (s.links.find?_add {} _).trans (if_pos rfl)

lemma after_arrival (s : Server) : s.after (arrival s.links.next) = s.withNewcomer :=
  congrArg Outcome.state (receive_greeting s.find?_openLink hello 0)

/-- The newcomer is let in under the next number. -/
lemma handshakes_arrival (s : Server) :
    s.handshakes (arrival s.links.next) = [(s.links.next, s.nextPlayer)] := by
  have hgreeting : s.openLink.state.stageOf s.links.next = .greeting := by
    rw [stageOf_openLink, if_pos rfl]
  have hadmitted : s.withNewcomer.Admitted s.links.next s.nextPlayer :=
    admitted_welcome hgreeting _ 0
  have hreceived : (s.openLink.state.receive s.links.next (Message.encode hello) 0).state =
      s.withNewcomer :=
    s.after_arrival
  have hwelcomed : s.openLink.state.welcomed? (.bytes s.links.next (Message.encode hello) 0) =
      some (s.links.next, s.nextPlayer) := by
    rw [welcomed?, if_pos hgreeting, hreceived, hadmitted]
    rfl
  rw [arrival, handshakes, handshakes, handshakes, welcomed?_connect]
  change [] ++ ((s.openLink.state.welcomed? _).toList ++ []) = _
  rw [hwelcomed]
  rfl

lemma stageOf_withNewcomer (s : Server) :
    s.withNewcomer.stageOf s.links.next = .lobby s.nextPlayer hello.name.text := by
  have hgreeting : s.openLink.state.stageOf s.links.next = .greeting := by
    rw [stageOf_openLink, if_pos rfl]
  exact (stageOf_welcome hgreeting _ 0 _).trans (if_pos rfl)

lemma session_withNewcomer (s : Server) :
    s.withNewcomer.sessions.find? s.nextPlayer = some s.links.next :=
  (IdMap.find?_insert _ _ _ _).trans (if_pos rfl)

lemma passed_withNewcomer (s : Server) : Passed 1 s s.withNewcomer where
  registry := rfl
  next := by
    change ((s.links.add {}).modify _ _ |>.modify _ _).next = _
    rw [Links.next_modify, Links.next_modify, Links.next_add]
  nextPlayer := rfl
  links l hl := by
    change ((s.links.add {}).modify _ _ |>.modify _ _).find? l = _
    rw [Links.find?_modify, if_neg hl.ne, Links.find?_modify, if_neg hl.ne, Links.find?_add,
      if_neg hl.ne]

/-- A visitor whose number sits nowhere leaves no room. -/
lemma passed_visit (hfree : s.registry.index.find? s.nextPlayer = none) :
    Passed 1 s (s.after (visit s.links.next)) := by
  have hpassed := s.passed_withNewcomer
  have hplayer : (s.withNewcomer.stageOf s.links.next).player? = some s.nextPlayer :=
    congrArg Stage.player? s.stageOf_withNewcomer
  have hleft : (s.withNewcomer.registry.removePlayer s.nextPlayer).state = s.registry := by
    rw [hpassed.registry, Registry.removePlayer, hfree]
  have hafter : s.after (visit s.links.next) = (s.withNewcomer.endLink s.links.next).state := by
    rw [visit, after_append, after_arrival]
    rfl
  rw [hafter, endLink_player hplayer]
  refine ⟨hleft, (Links.next_modify ..).trans hpassed.next, hpassed.nextPlayer, fun l hl => ?_⟩
  rw [hungUp, Links.find?_modify, if_neg hl.ne]
  exact hpassed.links l hl

/-- **Visitors change nothing** but streams, sessions and numbers of their own. -/
lemma passed_visits
    (hfree : ∀ i < n, s.registry.index.find? (s.nextPlayer + UInt32.ofNat i) = none) :
    Passed n s (s.after (visits s.links.next n)) := by
  induction n generalizing s with
  | zero => exact .refl s
  | succ n ih =>
    have hone : Passed 1 s (s.after (visit s.links.next)) := by
      refine passed_visit ?_
      have hnext := hfree 0 n.succ_pos
      rwa [show UInt32.ofNat 0 = 0 from rfl, UInt32.add_zero] at hnext
    have hrest := ih (s := s.after (visit s.links.next)) fun i hi => by
      rw [hone.registry, hone.nextPlayer, UInt32.add_assoc, ← UInt32.ofNat_add, Nat.add_comm]
      exact hfree (i + 1) (Nat.succ_lt_succ hi)
    rw [visits, after_append, Nat.add_comm]
    rw [hone.next] at hrest
    exact hone.trans hrest

/-- **Numbers come round.** After so many visits, with which the numbers do not reach anybody in a
room, one more client is given a number, in whoever's hands it is, and takes the session. -/
lemma number_comes_again (s : Server) {link last : ℕ} {player : UInt32}
    (hlink : s.links.next = link) (hlast : link + n = last)
    (hplayer : s.nextPlayer + UInt32.ofNat n = player)
    (hfar : ∀ k ∈ s.registry.index.ids, n ≤ (k - s.nextPlayer).toNat) :
    let events := visits link n ++ arrival last
    let s' := s.after events
    Passed (n + 1) s s' ∧ s'.sessions.find? player = some last ∧
      s'.stageOf last = .lobby player hello.name.text ∧ (last, player) ∈ s.handshakes events := by
  intro events s'
  subst hlink hlast
  have hfree : ∀ i < n, s.registry.index.find? (s.nextPlayer + UInt32.ofNat i) = none := by
    intro i hi
    by_contra hsome
    have hle := hfar _ (IdMap.mem_ids_iff.2 (Option.ne_none_iff_exists'.1 hsome))
    rw [UInt32.add_comm, UInt32.add_sub_cancel, UInt32.toNat_ofNat'] at hle
    exact absurd (hle.trans (Nat.mod_le _ _)) hi.not_ge
  set t := s.after (visits s.links.next n) with ht
  have hpassed : Passed n s t := passed_visits hfree
  have hnumber : t.nextPlayer = player := hpassed.nextPlayer.trans hplayer
  have hs' : s' = t.withNewcomer := by
    rw [← after_arrival, hpassed.next, ht, ← after_append]
  refine ⟨?_, ?_, ?_, ?_⟩
  · rw [hs']
    exact hpassed.trans t.passed_withNewcomer
  · rw [hs', ← hnumber, ← hpassed.next]
    exact t.session_withNewcomer
  · rw [hs', ← hnumber, ← hpassed.next]
    exact t.stageOf_withNewcomer
  · rw [handshakes_append, ← ht, ← hnumber, ← hpassed.next, handshakes_arrival]
    exact List.mem_append_right _ (List.mem_singleton_self _)

end CoopShooter.Server
