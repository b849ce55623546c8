import Mathlib
import CoopShooter.Proofs.IdMap
import CoopShooter.Proofs.Registry.Partings
import CoopShooter.Proofs.Room.Posting
import CoopShooter.Server.Posting

/-!
What happens to the registry with the outbox at hand does not depend on it: rooms, index and answers
are the same whatever is taken in, and so are the datagrams that are queued.
-/

namespace CoopShooter.Registry

namespace Posting

variable (g : Registry) (player room now : UInt32)

lemma posts_kickAll (r : Room) (players : List UInt32) :
    Posts (kickAll r players) (Registry.kickAll r players).state
      (Registry.kickAll r players).offers := by
  induction players generalizing r with
  | nil => exact posts_pure r
  | cons player players ih =>
    exact ((Room.Posting.posts_kickPlayer r player).bind_pure Prod.snd).bind (ih _)

lemma posts_deleteRoom : Posts (deleteRoom g room)
    ((g.deleteRoom room).answer, (g.deleteRoom room).state) (g.deleteRoom room).offers := by
  unfold deleteRoom Registry.deleteRoom
  rcases g.room? room with _ | r
  · exact posts_pure _
  · exact (posts_kickAll r r.memberIds).bind_pure _

lemma posts_kickPlayer : Posts (kickPlayer g room player)
    ((g.kickPlayer room player).answer, (g.kickPlayer room player).state)
    (g.kickPlayer room player).offers := by
  unfold kickPlayer Registry.kickPlayer
  rcases g.room? room with _ | r
  · exact posts_pure _
  · have hkick := Room.Posting.posts_kickPlayer r player
    rcases hp : r.player? player with _ | p
    · have hstranger := Room.kickPlayer_stranger (Room.player?_eq_none_iff.1 hp)
      simp only [hstranger] at hkick ⊢
      exact hkick.bind_quiet (posts_pure _)
    · simp only [Room.kickPlayer_member hp, if_true] at hkick ⊢
      exact hkick.bind_quiet (posts_pure _)

lemma posts_removePlayer : Posts (removePlayer g player)
    ((g.removePlayer player).answer, (g.removePlayer player).state)
    (g.removePlayer player).offers := by
  unfold removePlayer Registry.removePlayer
  rcases g.index.find? player with _ | room
  · exact posts_pure _
  · rcases hr : ({ g with index := g.index.erase player } : Registry).room? room with _ | r
    · simp only [hr]
      exact posts_pure _
    · simp only [hr]
      exact (Room.Posting.posts_removePlayer r player).bind_pure _

lemma posts_tickAll (dt : Float32) :
    Posts (tickAll g dt now) (g.tickAll dt now).state (g.tickAll dt now).offers := by
  have hrooms : g.rooms.entries.foldl
      (fun rooms e => rooms.modify e.1 fun _ => (e.2.update dt now).state) g.rooms =
        g.rooms.map fun _ r => (r.update dt now).state := by
    refine IdMap.ext_find? fun k => ?_
    rw [IdMap.find?_foldl_modify g.rooms g.rooms fun r _ => (r.update dt now).state,
      IdMap.find?_map]
    rcases g.rooms.find? k with _ | r <;> rfl
  have hupdates := posts_foldlM (fun (rooms : IdMap Room) (e : UInt32 × Room) =>
    (Room.Posting.posts_update e.2 now dt).bind_pure fun r => rooms.modify e.1 fun _ => r)
    g.rooms.entries g.rooms
  rw [state_tickAll, offers_tickAll, ← hrooms, IdMap.values, List.flatMap_map]
  exact hupdates.bind_pure _

lemma posts_handleInput (m : InputReport) (source : Endpoint) :
    Posts (handleInput g m source now) (g.handleInput m source now).state
      (g.handleInput m source now).offers := by
  unfold handleInput Registry.handleInput
  rcases g.index.find? m.player with _ | room
  · exact posts_pure _
  · simp only [withRoom, Registry.withRoom]
    rcases g.room? room with _ | r
    · exact posts_pure _
    · have h := (Room.Posting.posts_handleInput r now m source).bind_pure fun x =>
        (some x.1, { g with rooms := g.rooms.insert room x.2 })
      exact h.bind_pure Prod.snd

lemma posts_handleLeave (notice : LeaveNotice) (source : Endpoint) :
    Posts (handleLeave g notice source) (g.handleLeave notice source).state
      (g.handleLeave notice source).offers := by
  unfold handleLeave Registry.handleLeave
  split_ifs
  · exact (posts_removePlayer g notice.player).bind_pure Prod.snd
  · exact posts_pure _

lemma posts_handleDatagram (bs : Bytes) (source : Endpoint) :
    Posts (handleDatagram g bs source now) (g.handleDatagram bs source now).state
      (g.handleDatagram bs source now).offers := by
  unfold handleDatagram Registry.handleDatagram
  rcases bs.head?.bind GameOp.ofCode? with _ | op
  · exact posts_pure g
  · cases op
    case input =>
      rcases Message.decode InputReport bs with err | m
      · exact posts_pure g
      · exact posts_handleInput g now m source
    case ping =>
      rcases Message.decode Ping bs with err | m
      · exact posts_pure g
      · exact (posts_pure g).post _
    case leave =>
      rcases Message.decode LeaveNotice bs with err | m
      · exact posts_pure g
      · exact posts_handleLeave g m source
    all_goals exact posts_pure g

end Posting

/-- What an act answers to whoever asked for it. -/
inductive Answer where
  | nothing
  | number (room : UInt32)
  | success (yes : Bool)
  | expelled (players : Option (List UInt32))
  deriving DecidableEq

/-- One act, with the outbox at hand. -/
def perform (g : Registry) : Act → Posting (Answer × Registry)
  | .create seed => do
    let out := g.createRoom seed
    return (.number out.answer, out.state)
  | .join player name room => do
    let out := g.joinRoom player name room
    return (.success out.answer, out.state)
  | .delete room => do
    let (expelled, g) ← Posting.deleteRoom g room
    return (.expelled expelled, g)
  | .kick room player => do
    let (kicked, g) ← Posting.kickPlayer g room player
    return (.success kicked, g)
  | .remove player => do
    let (removed, g) ← Posting.removePlayer g player
    return (.success removed, g)
  | .start player room => do
    let out := g.startGame player room
    return (.success out.answer, out.state)
  | .tick dt now => do
    let g ← Posting.tickAll g dt now
    return (.nothing, g)
  | .input report source now => do
    let g ← Posting.handleInput g report source now
    return (.nothing, g)
  | .datagram bs source now => do
    let g ← Posting.handleDatagram g bs source now
    return (.nothing, g)

/-- The answer, with no outbox at hand. -/
def answer (g : Registry) : Act → Answer
  | .create seed => .number (g.createRoom seed).answer
  | .join player name room => .success (g.joinRoom player name room).answer
  | .delete room => .expelled (g.deleteRoom room).answer
  | .kick room player => .success (g.kickPlayer room player).answer
  | .remove player => .success (g.removePlayer player).answer
  | .start player room => .success (g.startGame player room).answer
  | .tick .. | .input .. | .datagram .. => .nothing

/-- **No act depends on the outbox**, and what it queues is what it offers. -/
lemma posts_perform (g : Registry) (a : Act) :
    Posts (g.perform a) (g.answer a, (g.step a).state) (g.step a).offers := by
  cases a with
  | create seed => exact posts_pure _
  | join player name room =>
    change Posts _ _ (g.joinRoom player name room).offers
    rw [joinRoom_offers]
    exact posts_pure _
  | delete room => exact (Posting.posts_deleteRoom g room).bind_pure _
  | kick room player => exact (Posting.posts_kickPlayer g player room).bind_pure _
  | remove player => exact (Posting.posts_removePlayer g player).bind_pure _
  | start player room =>
    change Posts _ _ (g.startGame player room).offers
    rw [startGame_offers]
    exact posts_pure _
  | tick dt now => exact (Posting.posts_tickAll g now dt).bind_pure _
  | input m source now => exact (Posting.posts_handleInput g now m source).bind_pure _
  | datagram bs source now => exact (Posting.posts_handleDatagram g now bs source).bind_pure _

end CoopShooter.Registry
