import Mathlib
import CoopShooter.Proofs.Room.Effects

/-!
What collisions do. Entities are struck and stay where they are, and nothing that was struck is
mended. A ship is sent back exactly if an enemy strikes it when its turn comes.
-/

namespace CoopShooter

/-- What a collision does to an entity: nothing, or it strikes it. -/
def Entity.Marked (e e' : Entity) : Prop :=
  e' = e ∨ e' = { e with struck := true }

lemma Entity.Marked.trans {e e' e'' : Entity} (h : e.Marked e') (h' : e'.Marked e'') :
    e.Marked e'' := by
  rcases h with rfl | rfl
  · exact h'
  · rcases h' with rfl | rfl <;> exact .inr rfl

namespace Collision

/-- The same entities, some of them struck. -/
def Marked (es es' : IdMap Entity) : Prop :=
  ∀ k, Option.Rel Entity.Marked (es.find? k) (es'.find? k)

variable {es es' es'' : IdMap Entity} {k : UInt32} {p : Player} {ps : List Player}

lemma Marked.refl (es : IdMap Entity) : Marked es es := by
  intro k
  rcases es.find? k with _ | e
  · exact .none
  · exact .some (.inl rfl)

lemma Marked.trans (h : Marked es es') (h' : Marked es' es'') : Marked es es'' := by
  intro k
  have hk := h k
  have hk' := h' k
  generalize es.find? k = x, es'.find? k = y, es''.find? k = z at hk hk'
  cases hk with
  | none =>
    cases hk'
    exact .none
  | some hmark =>
    cases hk' with
    | some hmark' => exact .some (hmark.trans hmark')

lemma marked_strike (es : IdMap Entity) (ids : List UInt32) : Marked es (strike es ids) := by
  intro k
  rw [strike, IdMap.find?_map]
  rcases es.find? k with _ | e
  · exact .none
  · refine .some ?_
    split
    · exact .inr rfl
    · exact .inl rfl

lemma marked_contacts (ps : List Player) (es : IdMap Entity) : Marked es (contacts ps es).2 := by
  induction ps generalizing es with
  | nil => exact .refl es
  | cons p ps ih =>
    unfold contacts
    rcases contact? p es with _ | enemy
    · exact ih es
    · exact (marked_strike es [enemy]).trans (ih _)

/-! ### Ships that are sent back -/

/-- The entities as a player finds them when its turn comes: those before it have been struck. -/
def before (id : UInt32) : List Player → IdMap Entity → IdMap Entity
  | [], es => es
  | p :: ps, es =>
    if p.id = id then es
    else
      match contact? p es with
      | none => before id ps es
      | some enemy => before id ps (strike es [enemy])

/-- A player is sent back if an enemy strikes it when its turn comes, and keeps its place if none
does. -/
lemma find?_contacts {id : UInt32} (hp : ps.find? (·.id == id) = some p) (es : IdMap Entity) :
    (contacts ps es).1.find? (·.id == id) =
      some (if (contact? p (before id ps es)).isSome then { p with position := shipSpawn }
        else p) := by
  induction ps generalizing es with
  | nil => cases hp
  | cons q ps ih =>
    unfold contacts before
    by_cases hq : q.id = id
    · have hqp : q = p := by
        rw [List.find?_cons_of_pos (by simpa using hq)] at hp
        exact Option.some.inj hp
      subst hqp
      rw [if_pos hq]
      rcases contact? q es with _ | enemy
      · exact List.find?_cons_of_pos (by simpa using hq)
      · exact List.find?_cons_of_pos (by simpa using hq)
    · rw [List.find?_cons_of_neg (by simpa using hq)] at hp
      rw [if_neg hq]
      rcases contact? q es with _ | enemy
      · exact (List.find?_cons_of_neg (by simpa using hq)).trans (ih hp es)
      · exact (List.find?_cons_of_neg (by simpa using hq)).trans (ih hp _)

end Collision

namespace Room

variable {r : Room} {k : UInt32}

/-- The entities of a room after they have struck each other. -/
def clashed (r : Room) : IdMap Entity :=
  Collision.strike r.entities (Collision.clash r.entities.entries [])

lemma marked_resolveCollisions (r : Room) :
    Collision.Marked r.entities r.resolveCollisions.entities :=
  (Collision.marked_strike _ _).trans (Collision.marked_contacts _ _)

/-- A tick sends a ship back: when its turn comes, an enemy that has moved and is not struck yet
overlaps it. -/
def SendsBack (r : Room) (id now : UInt32) : Prop :=
  ∃ p, r.player? id = some p ∧
    (Collision.contact? p (Collision.before id r.players (r.advance now).state.clashed)).isSome

lemma player?_settled {id : UInt32} {p : Player} (hp : r.player? id = some p) (now : UInt32) :
    (¬ r.SendsBack id now → (r.settled now).player? id = some p) ∧
      (r.SendsBack id now →
        (r.settled now).player? id = some { p with position := shipSpawn }) := by
  have hfound := Collision.find?_contacts hp (r.advance now).state.clashed
  refine ⟨fun hnot => ?_, fun ⟨q, hq, hback⟩ => ?_⟩
  · rw [if_neg fun hback => hnot ⟨p, hp, hback⟩] at hfound
    exact hfound
  · obtain rfl := Option.some.inj (hp.symm.trans hq)
    rw [if_pos hback] at hfound
    exact hfound

end Room

end CoopShooter
