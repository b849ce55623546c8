import Mathlib
import CoopShooter.Proofs.Net.Outbox
import CoopShooter.Proofs.Room.Effects
import CoopShooter.Room.Posting

/-!
What a room does with the outbox at hand does not depend on it. Whatever the outbox takes in, the
room comes to the same state, gives the same answer, and queues the same datagrams in the same
order.
-/

namespace CoopShooter

/-- With any outbox this comes to the same result, and queues these datagrams. -/
def Posts {α : Type} (f : Posting α) (a : α) (os : List Offer) : Prop :=
  ∀ o : Outbox, f o = (a, o.queueAll os)

section Posts

variable {α β : Type} {f : Posting α} {a : α} {os os' : List Offer}

lemma posts_pure (a : α) : Posts (pure a) a [] := fun _ => rfl

lemma Posts.bind {k : α → Posting β} {b : β} (hf : Posts f a os) (hk : Posts (k a) b os') :
    Posts (f >>= k) b (os ++ os') := by
  intro o
  have hfirst : (f >>= k) o = k (f o).1 (f o).2 := rfl
  rw [hfirst, hf o, hk, Outbox.queueAll_append]

/-- Nothing more is queued. -/
lemma Posts.bind_quiet {k : α → Posting β} {b : β} (hf : Posts f a os) (hk : Posts (k a) b []) :
    Posts (f >>= k) b os := by
  have h := hf.bind hk
  rwa [List.append_nil] at h

lemma Posts.bind_pure (hf : Posts f a os) (k : α → β) :
    Posts (f >>= fun a => pure (k a)) (k a) os :=
  hf.bind_quiet (k := fun a => pure (k a)) (posts_pure (k a))

/-- Nobody looks at whether a datagram was taken in. -/
lemma Posts.post (hf : Posts f a os) (offer : Offer) :
    Posts (CoopShooter.post offer >>= fun _ => f) a (offer :: os) :=
  fun _ => hf _

lemma posts_forM {act : β → Posting Unit} {offers : β → List Offer}
    (h : ∀ x, Posts (act x) () (offers x)) (xs : List β) :
    Posts (xs.forM act) () (xs.flatMap offers) := by
  induction xs with
  | nil => exact posts_pure ()
  | cons x xs ih => exact (h x).bind ih

lemma posts_foldlM {σ : Type} {act : σ → β → Posting σ} {next : σ → β → σ}
    {offers : β → List Offer} (h : ∀ s x, Posts (act s x) (next s x) (offers x)) (xs : List β)
    (s : σ) : Posts (xs.foldlM act s) (xs.foldl next s) (xs.flatMap offers) := by
  induction xs generalizing s with
  | nil => exact posts_pure s
  | cons x xs ih => exact (h s x).bind (ih _)

end Posts

namespace Room.Posting

variable (r : Room) (id : UInt32) (now : UInt32)

lemma posts_broadcast (packet : Packet) : Posts (broadcast r packet) () (r.broadcast packet) := by
  have h := posts_forM (fun peer => (posts_pure ()).post ⟨peer, packet⟩) r.addresses
  rwa [← List.map_eq_flatMap] at h

/-! ### Members -/

lemma posts_removePlayer : Posts (removePlayer r id)
    ((r.removePlayer id).answer, (r.removePlayer id).state) (r.removePlayer id).offers := by
  unfold removePlayer Room.removePlayer
  split_ifs
  · exact (posts_broadcast _ _).bind_pure _
  · exact posts_pure _

lemma posts_kickPlayer : Posts (kickPlayer r id)
    ((r.kickPlayer id).answer, (r.kickPlayer id).state) (r.kickPlayer id).offers := by
  unfold kickPlayer Room.kickPlayer
  rcases r.player? id with _ | p
  · exact posts_pure _
  · rcases hp : p.address with _ | peer
    · simp only [hp]
      exact posts_removePlayer r id
    · simp only [hp]
      exact (posts_removePlayer r id).post ⟨peer, .kick⟩

/-! ### Entities -/

lemma posts_insertEntity (e : Entity) : Posts (insertEntity r e now)
    ((r.insertEntity e now).answer, (r.insertEntity e now).state)
    (r.insertEntity e now).offers :=
  (posts_broadcast _ _).bind_pure _

lemma posts_fire (shots : List (EntityKind × Position × Float32)) :
    Posts (fire r shots now) (r.fire shots now).state (r.fire shots now).offers := by
  induction shots generalizing r with
  | nil => exact posts_pure r
  | cons shot shots ih =>
    obtain ⟨kind, x, vx⟩ := shot
    rw [fire_cons]
    exact ((posts_insertEntity r now _).bind_pure Prod.snd).bind (ih _)

lemma posts_handleInput (m : InputReport) (source : Endpoint) :
    Posts (handleInput r m source now)
      ((r.handleInput m source now).answer, (r.handleInput m source now).state)
      (r.handleInput m source now).offers := by
  unfold handleInput Room.handleInput
  rcases r.player? m.player with _ | p
  · exact posts_pure _
  · simp only
    split_ifs
    · exact (posts_fire _ now _).bind_pure _
    · exact posts_pure _
    · exact posts_pure _

/-! ### Ticks -/

lemma posts_advance : Posts (advance r now) (r.advance now).state (r.advance now).offers :=
  (posts_forM (fun _ => posts_broadcast r _) _).bind
    ((posts_forM (fun _ => posts_broadcast r _) _).bind_pure _)

lemma posts_report : Posts (report r now) (r.report now).state (r.report now).offers :=
  (posts_forM (fun _ => posts_broadcast _ _) _).bind_pure _

lemma posts_spawnDue (dt : Float32) :
    Posts (spawnDue r dt now) (r.spawnDue dt now).state (r.spawnDue dt now).offers := by
  unfold spawnDue Room.spawnDue
  simp only
  split_ifs
  · exact (posts_insertEntity _ now _).bind_pure Prod.snd
  · exact posts_pure _

lemma posts_syncDue (dt : Float32) :
    Posts (syncDue r dt) (r.syncDue dt).state (r.syncDue dt).offers := by
  unfold syncDue Room.syncDue
  simp only
  split_ifs
  · exact (posts_forM (posts_broadcast _) _).bind_pure _
  · exact posts_pure _

/-- **A tick does not depend on the outbox.** -/
lemma posts_update (dt : Float32) :
    Posts (update r dt now) (r.update dt now).state (r.update dt now).offers := by
  unfold update Room.update
  split_ifs
  · simp only [List.append_assoc]
    refine (posts_advance r now).bind ?_
    refine (posts_report _ now).bind ?_
    exact (posts_spawnDue _ now dt).bind (posts_syncDue _ dt)
  · exact posts_pure r

end Room.Posting

end CoopShooter
