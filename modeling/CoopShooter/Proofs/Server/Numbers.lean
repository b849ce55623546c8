import Mathlib
import CoopShooter.Proofs.Server.Run

/-!
The numbers that a server gives out. Players are counted from one in the order in which their
handshakes are completed, and nothing else uses a number up. A number is a word of 32 bits, so that
the first one comes again once all of them have been given out.
-/

namespace CoopShooter.Server

variable {s s' : Server} {n : Nat} {doors : List (ℕ × UInt32)}

/-! ## Players in the order of their handshakes -/

/-- The first numbers of players. Zero follows the largest of them. -/
def firstPlayers (n : Nat) : List UInt32 := (List.range n).map fun i => UInt32.ofNat (i + 1)

lemma firstPlayers_succ (n : Nat) :
    firstPlayers (n + 1) = firstPlayers n ++ [UInt32.ofNat (n + 1)] := by
  rw [firstPlayers, List.range_succ, List.map_append]
  rfl

lemma map_toNat_firstPlayers (hn : n < UInt32.size) :
    (firstPlayers n).map UInt32.toNat = List.range' 1 n := by
  rw [firstPlayers, List.map_map, List.range'_eq_map_range]
  refine List.map_congr_left fun i hi => ?_
  have hlt : i + 1 < UInt32.size := by
    have := List.mem_range.1 hi
    omega
  rw [Function.comp_apply, UInt32.toNat_ofNat', Nat.mod_eq_of_lt hlt]
  omega

/-- The number that comes next is not among them. -/
lemma next_notMem_firstPlayers (hn : n < UInt32.size) :
    UInt32.ofNat (n + 1) ∉ firstPlayers n := by
  intro hmem
  obtain ⟨i, hi, heq⟩ := List.mem_map.1 hmem
  have hlt : i < n := List.mem_range.1 hi
  have hmod : (i + 1) % UInt32.size = (n + 1) % UInt32.size := congrArg UInt32.toNat heq
  rw [UInt32.size] at hmod hn
  omega

/-- They are different until all of them have been given out. -/
lemma nodup_firstPlayers (hn : n ≤ UInt32.size) : (firstPlayers n).Nodup := by
  induction n with
  | zero => exact List.nodup_nil
  | succ n ih =>
    rw [firstPlayers_succ]
    exact (ih (Nat.le_of_succ_le hn)).append (List.nodup_singleton _)
      (List.disjoint_singleton.2 (next_notMem_firstPlayers hn))

/-- The players of some handshakes are numbered in their order, and nobody else has a session. -/
structure Counted (s : Server) (doors : List (ℕ × UInt32)) : Prop where
  nextPlayer : s.nextPlayer = UInt32.ofNat (doors.length + 1)
  players : doors.map (·.2) = firstPlayers doors.length
  sessions : ∀ player, s.sessions.find? player ≠ none → player ∈ doors.map (·.2)

lemma Counted.course (h : s.Counted doors) (hcourse : Course s s') : s'.Counted doors where
  nextPlayer := hcourse.keeps.nextPlayer.trans h.nextPlayer
  players := h.players
  sessions player hp := h.sessions player fun hnone => hp (hcourse.keeps.sessions player hnone)

lemma Counted.welcome (h : s.Counted doors) (link : ℕ) (name : String) (now : UInt32) :
    (s.welcome link name now).Counted (doors ++ [(link, s.nextPlayer)]) where
  nextPlayer := by
    change s.nextPlayer + 1 = _
    rw [h.nextPlayer, List.length_append]
    apply UInt32.toNat_inj.1
    simp [UInt32.toNat_add]
  players := by
    rw [List.map_append, h.players, List.length_append, List.length_singleton, firstPlayers_succ,
      h.nextPlayer]
    rfl
  sessions player hp := by
    rw [List.map_append, List.mem_append]
    rw [Server.welcome, IdMap.find?_insert] at hp
    split_ifs at hp with hnew
    · exact .inr (List.mem_singleton.2 hnew)
    · exact .inl (h.sessions player hp)

lemma Counted.step (h : s.Counted doors) (e : Event) :
    (s.step e).state.Counted (doors ++ (s.welcomed? e).toList) := by
  rcases s.step_cases e with rfl | ⟨hnone, hcourse⟩ | ⟨link, bs, now, name, -, -, hsome, hcourse⟩
  · rw [welcomed?_connect, Option.toList_none, List.append_nil]
    exact ⟨h.nextPlayer, h.players, h.sessions⟩
  · rw [hnone, Option.toList_none, List.append_nil]
    exact h.course hcourse
  · rw [hsome]
    exact (h.welcome link name now).course hcourse

lemma counted_after (settings : Settings) (entropy : List UInt64) (port : UInt16)
    (events : List Event) :
    ((begin settings entropy port).after events).Counted
      ((begin settings entropy port).handshakes events) := by
  induction events using List.reverseRecOn with
  | nil => exact ⟨rfl, rfl, fun _ h => absurd rfl h⟩
  | append_singleton es e ih =>
    rw [after_snoc, handshakes_snoc]
    exact ih.step e

/-- The number of the next player is new until all of them have been given out. -/
lemma Counted.nextPlayer_notMem (h : s.Counted doors) (hn : doors.length < UInt32.size) :
    s.nextPlayer ∉ doors.map (·.2) := by
  rw [h.players, h.nextPlayer]
  exact next_notMem_firstPlayers hn

end CoopShooter.Server
