import Mathlib
import CoopShooter.Proofs.Room.Run

/-!
Who belongs to a room, who hosts it and whether its game runs, told from the history of what was
asked of the room and what it answered. The players are those who joined and have not left since,
in the order in which they joined; the first of them is the host. Only a host starts a game, once.
-/

namespace CoopShooter.Room

/-- What was asked of a room, with its answers. -/
def history : Room → List Act → List (Act × Bool)
  | _, [] => []
  | r, a :: as => (a, (r.step a).answer) :: history (r.step a).state as

/-- The player who joins by it. -/
def joins : Act × Bool → Option UInt32
  | (.add id _, true) => some id
  | _ => none

/-- The player who leaves by it. -/
def leaves : Act × Bool → Option UInt32
  | (.remove id, true) | (.kick id, true) => some id
  | _ => none

/-- The game starts by it. -/
def starts : Act × Bool → Bool
  | (.start _, true) => true
  | _ => false

/-- The player who joins or leaves by it. -/
def moves (e : Act × Bool) : Option UInt32 :=
  (joins e).or (leaves e)

/-- Those who have not left since they last joined, in the order in which they last joined. -/
def staying : List (Act × Bool) → List UInt32
  | [] => []
  | e :: es => (joins e).toList.filter (fun id => !es.any (moves · = some id)) ++ staying es

variable {r : Room} {a : Act} {e : Act × Bool} {es : List (Act × Bool)} {id : UInt32}

lemma history_snoc (r : Room) (as : List Act) (a : Act) :
    r.history (as ++ [a]) = r.history as ++ [(a, ((r.after as).step a).answer)] := by
  induction as generalizing r with
  | nil => rfl
  | cons b as ih => exact congrArg (_ :: ·) (ih (r.step b).state)

/-! ## Who stays -/

lemma moves_cases (h : moves e = some id) : joins e = some id ∨ leaves e = some id :=
  (Option.or_eq_some_iff.1 h).imp_right And.right

lemma joins_of_moves_none (h : moves e = none) : joins e = none :=
  (Option.or_eq_none_iff.1 h).1

lemma joins_of_leaves (h : leaves e = some id) : joins e = none := by
  rcases e with ⟨_ | _ | _ | _ | _ | _ | _, _ | _⟩ <;> first | rfl | cases h

lemma moves_of_leaves (h : leaves e = some id) : moves e = some id := by
  rw [moves, joins_of_leaves h, h]
  rfl

lemma staying_snoc (es : List (Act × Bool)) (e : Act × Bool) :
    staying (es ++ [e]) =
      (staying es).filter (fun id => moves e ≠ some id) ++ (joins e).toList := by
  induction es with
  | nil => simp [staying]
  | cons d es ih =>
    have hlater : ∀ id, (!(es ++ [e]).any (moves · = some id)) =
        (decide (moves e ≠ some id) && !es.any (moves · = some id)) := by
      intro id
      rw [List.any_append, Bool.not_or, Bool.and_comm]
      simp
    rw [List.cons_append, staying, staying, ih, List.filter_append, List.filter_filter,
      ← List.append_assoc]
    simp only [hlater]

/-! ## What one act does -/

lemma step_add_answer {name : String} :
    (r.step (.add id name)).answer = true ↔ r.Admits id := by
  by_cases h : r.Admits id
  · simp [step, addPlayer_admitted name h, h]
  · simp [step, addPlayer_refused name h, h]

lemma step_start_answer {q : UInt32} :
    (r.step (.start q)).answer = true ↔ r.host? = some q ∧ r.playing = false := by
  by_cases h : r.host? = some q ∧ r.playing = false
  · simp [step, start_host h.1 h.2, h]
  · simp [step, start_refused h, h]

lemma status_lobby_iff : r.status = .lobby ↔ r.playing = false := by
  unfold status
  split_ifs with h
  · simp [h]
  · simpa using h

lemma host?_eq_head? (r : Room) : r.host? = r.memberIds.head? :=
  (List.head?_map).symm

lemma memberIds_without (r : Room) (id : UInt32) :
    (r.without id).memberIds = r.memberIds.filter fun q => some id ≠ some q := by
  simp only [without, memberIds, List.filter_map]
  congr 1
  refine List.filter_congr fun p _ => ?_
  simp [bne, eq_comm, Bool.beq_eq_decide_eq]

lemma moves_refused (a : Act) : moves (a, false) = none := by
  cases a <;> rfl

/-- One act lets the player in who joins by it and takes the player out who leaves by it. -/
lemma memberIds_step (r : Room) (a : Act) :
    (r.step a).state.memberIds =
      r.memberIds.filter (fun q => moves (a, (r.step a).answer) ≠ some q) ++
        (joins (a, (r.step a).answer)).toList := by
  have idle (hm : moves (a, (r.step a).answer) = none)
      (hs : (r.step a).state.memberIds = r.memberIds) : (r.step a).state.memberIds =
        r.memberIds.filter (fun q => moves (a, (r.step a).answer) ≠ some q) ++
          (joins (a, (r.step a).answer)).toList := by
    rw [joins_of_moves_none hm, hm, hs]
    simp
  have refused (h : r.step a = ⟨r, false, []⟩) := idle (by rw [h, moves_refused]) (by rw [h])
  cases a with
  | add id name =>
    by_cases h : r.Admits id
    · rw [step, addPlayer_admitted name h, List.filter_eq_self.2]
      · exact memberIds_joinedBy r id name
      · intro q hq
        have hne : id ≠ q := fun hid => h.new (hid ▸ hq)
        simpa [moves, joins] using hne
    · exact refused (addPlayer_refused name h)
  | remove id =>
    by_cases h : id ∈ r.memberIds
    · rw [step, removePlayer_member h]
      exact (memberIds_without r id).trans (List.append_nil _).symm
    · exact refused (removePlayer_stranger h)
  | kick id =>
    rcases h : r.player? id with _ | p
    · exact refused (kickPlayer_stranger (player?_eq_none_iff.1 h))
    · rw [step, kickPlayer_member h]
      exact (memberIds_without r id).trans (List.append_nil _).symm
  | start q => exact idle rfl (congrArg (List.map Player.id) (players_start r q))
  | input m source now => exact idle rfl (steady_handleInput r m source now).memberIds_eq
  | spawn kind x vx vy now =>
    exact idle rfl (entitiesOnly_spawn r kind x vx vy now).steady.memberIds_eq
  | update dt now => exact idle rfl (steady_update r dt now).memberIds_eq

/-- The settings stay, and nothing but a start makes a game run or stops it. -/
lemma Change.rules {r' : Room} {os : List Offer} (h : r.Change a r' os) :
    r'.settings = r.settings ∧ ((∀ q, a ≠ .start q) → r'.playing = r.playing) := by
  cases h with
  | nothing => exact ⟨rfl, fun _ => rfl⟩
  | joined => exact ⟨rfl, fun _ => rfl⟩
  | left => exact ⟨rfl, fun _ => rfl⟩
  | kicked => exact ⟨rfl, fun _ => rfl⟩
  | started => exact ⟨rfl, fun ha => absurd rfl (ha _)⟩
  | heard => exact ⟨rfl, fun _ => rfl⟩
  | @counted p m source now =>
    have hs := (steady_steered r p m source).fire (volley p m) now
    exact ⟨hs.settings, fun _ => hs.playing⟩
  | spawned => exact ⟨rfl, fun _ => rfl⟩
  | ticked dt now =>
    have hs := steady_update r dt now
    exact ⟨hs.settings, fun _ => hs.playing⟩

/-- A game that has been started runs, and no other does. -/
lemma playing_step (r : Room) (a : Act) :
    (r.step a).state.playing = (r.playing || starts (a, (r.step a).answer)) := by
  have idle (ha : ∀ q, a ≠ .start q) (hs : starts (a, (r.step a).answer) = false) :
      (r.step a).state.playing = (r.playing || starts (a, (r.step a).answer)) := by
    rw [hs, Bool.or_false, (change_step r a).rules.2 ha]
  cases a with
  | start q =>
    by_cases h : r.host? = some q ∧ r.playing = false
    · rw [step, start_host h.1 h.2]
      exact (Bool.or_true _).symm
    · rw [step, start_refused h]
      exact (Bool.or_false _).symm
  | _ => exact idle (fun _ h => by cases h) rfl

/-- A host starts a game that has not been started. -/
lemma starts_iff : starts (a, (r.step a).answer) = true ↔
    ∃ q, a = .start q ∧ r.host? = some q ∧ r.playing = false := by
  cases a with
  | start q =>
    have hstarts : starts (.start q, (r.step (.start q)).answer) = (r.step (.start q)).answer := by
      cases (r.step (.start q)).answer <;> rfl
    rw [hstarts, step_start_answer]
    exact ⟨fun h => ⟨q, rfl, h⟩, by rintro ⟨q, ⟨⟩, h⟩; exact h⟩
  | _ => simp [starts]

lemma new_of_joins (h : joins (a, (r.step a).answer) = some id) : id ∉ r.memberIds := by
  cases a with
  | add q name =>
    rcases hd : (r.step (.add q name)).answer with _ | _
    · rw [hd] at h
      cases h
    · rw [hd] at h
      cases h
      exact (step_add_answer.1 hd).new
  | _ => cases h

/-- The host stays the host until it leaves, and then whoever comes next takes its place. -/
lemma host?_step (hhost : r.host? = some id) (a : Act) : (r.step a).state.host? =
    if leaves (a, (r.step a).answer) = some id then (r.memberIds.filter (· ≠ id)).head?
    else some id := by
  rw [host?_eq_head?] at hhost ⊢
  obtain ⟨ids, hids⟩ := List.head?_eq_some_iff.1 hhost
  rw [memberIds_step]
  split_ifs with hl
  · rw [moves_of_leaves hl, joins_of_leaves hl, Option.toList_none, List.append_nil]
    simp only [ne_eq, Option.some.injEq, eq_comm]
  · have hstays : moves (a, (r.step a).answer) ≠ some id := by
      intro hm
      rcases moves_cases hm with hj | hl'
      · exact new_of_joins hj (hids ▸ List.mem_cons_self)
      · exact hl hl'
    rw [hids, List.filter_cons, if_pos (decide_eq_true hstays)]
    rfl

/-! ## The whole run -/

lemma memberIds_after (id : UInt32) (settings : Settings) (seed : UInt64) (acts : List Act) :
    ((create id settings seed).after acts).memberIds =
      staying ((create id settings seed).history acts) := by
  induction acts using List.reverseRecOn with
  | nil => rfl
  | append_singleton as a ih => rw [after_snoc, history_snoc, staying_snoc, memberIds_step, ih]

lemma playing_after (id : UInt32) (settings : Settings) (seed : UInt64) (acts : List Act) :
    ((create id settings seed).after acts).playing =
      ((create id settings seed).history acts).any starts := by
  induction acts using List.reverseRecOn with
  | nil => rfl
  | append_singleton as a ih =>
    rw [after_snoc, history_snoc, playing_step, ih, List.any_append, List.any_cons, List.any_nil,
      Bool.or_false]

lemma settings_after (id : UInt32) (settings : Settings) (seed : UInt64) (acts : List Act) :
    ((create id settings seed).after acts).settings = settings := by
  induction acts using List.reverseRecOn with
  | nil => rfl
  | append_singleton as a ih => rw [after_snoc, (change_step _ a).rules.1, ih]

/-- A game is started once at most. -/
lemma countP_starts (id : UInt32) (settings : Settings) (seed : UInt64) (acts : List Act) :
    ((create id settings seed).history acts).countP starts ≤ 1 := by
  induction acts using List.reverseRecOn with
  | nil => exact Nat.zero_le 1
  | append_singleton as a ih =>
    rw [history_snoc, List.countP_append, List.countP_singleton]
    split_ifs with hs
    · obtain ⟨q, rfl, -, hlobby⟩ := starts_iff.1 hs
      rw [playing_after, List.any_eq_false] at hlobby
      rw [List.countP_eq_zero.2 hlobby]
    · exact ih

/-- Whoever comes back is the last in line. -/
example : staying ((create 3 ⟨2, 5000⟩ 0).history
    [.add 10 "a", .add 11 "b", .add 12 "c", .remove 10, .add 10 "a", .start 11]) = [11, 10] := by
  decide +kernel

end CoopShooter.Room
