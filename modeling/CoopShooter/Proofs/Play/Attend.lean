import Mathlib
import CoopShooter.Proofs.Play.Follow

/-!
A player who attends a run of its room: it stays, and its address is known before there is anything
to be shown. While it is not known nothing is sent to it; once it is known it stays known.
-/

namespace CoopShooter

namespace Room

/-! ### A player who attends a run -/

/-- How many full lists are sent in the course of some acts. -/
def syncCount (r : Room) : List Act → Nat
  | [] => 0
  | b :: bs => (if (r.step b).state.syncs = r.syncs then 0 else 1) + (r.step b).state.syncCount bs

/-- The player stays in the room and is known at an address of its own before there are entities;
nobody comes back who has left; there are fewer full lists than numbers for them, and each of them
fits into its fragments. -/
structure Attends (r : Room) (p : UInt32) (a : Endpoint) (acts : List Act) : Prop where
  stays : .remove p ∉ acts ∧ .kick p ∉ acts
  known : ∀ as, as <+: acts → (r.after as).entities ≠ ∅ → (r.after as).At p a
  alone : ∀ as, as <+: acts → (r.after as).Alone p a
  final : ∀ as bs cs, as <+: bs → bs <+: cs → cs <+: acts →
    ∀ q ∈ (r.after as).memberIds, q ∉ (r.after bs).memberIds → q ∉ (r.after cs).memberIds
  few : r.syncCount acts < UInt32.size
  small : ∀ as b, as ++ [b] <+: acts → (r.after (as ++ [b])).syncs ≠ (r.after as).syncs →
    (r.after (as ++ [b])).entities.size ≤ entriesPerFragment * maxFragments

variable {r r' : Room} {p : UInt32} {a : Endpoint} {as bs : List Act} {b : Act} {os : List Offer}

lemma syncCount_snoc (r : Room) (as : List Act) (b : Act) : r.syncCount (as ++ [b]) =
    r.syncCount as + if (r.after (as ++ [b])).syncs = (r.after as).syncs then 0 else 1 := by
  induction as generalizing r with
  | nil =>
    change _ + 0 = 0 + _
    rw [Nat.add_zero, Nat.zero_add]
    rfl
  | cons c as ih =>
    rw [List.cons_append, syncCount, ih, syncCount, Nat.add_assoc]
    rfl

lemma Attends.init (h : r.Attends p a (as ++ [b])) : r.Attends p a as := by
  have hp : as <+: as ++ [b] := List.prefix_append _ _
  refine ⟨⟨fun hm => h.stays.1 (hp.subset hm), fun hm => h.stays.2 (hp.subset hm)⟩,
    fun bs hbs => h.known bs (hbs.trans hp), fun bs hbs => h.alone bs (hbs.trans hp),
    fun bs cs ds hbs hcs hds => h.final bs cs ds hbs hcs (hds.trans hp), ?_,
    fun bs c hbs => h.small bs c (hbs.trans hp)⟩
  have hfew := h.few
  rw [syncCount_snoc] at hfew
  omega

lemma Attends.prefix (h : r.Attends p a bs) (hp : as <+: bs) : r.Attends p a as := by
  obtain ⟨cs, rfl⟩ := hp
  induction cs using List.reverseRecOn with
  | nil => rwa [List.append_nil] at h
  | append_singleton cs c ih =>
    rw [← List.append_assoc] at h
    exact ih h.init

/-! ### Who stays -/

/-- Only the player itself is removed or kicked out. -/
lemma Change.stays {q : UInt32} (hc : r.Change b r' os) (hr : b ≠ .remove q) (hk : b ≠ .kick q)
    (hq : q ∈ r.memberIds) : q ∈ r'.memberIds := by
  cases hc with
  | joined => simp [hq]
  | left => exact mem_memberIds_without.2 ⟨hq, fun h => hr (by rw [h])⟩
  | kicked => exact mem_memberIds_without.2 ⟨hq, fun h => hk (by rw [h])⟩
  | heard => rwa [(steady_heard r _ _).memberIds_eq]
  | counted now => rwa [((steady_steered r _ _ _).fire _ now).memberIds_eq]
  | ticked dt now => rwa [(steady_update r dt now).memberIds_eq]
  | _ => exact hq

lemma stays_after {q : UInt32} (hr : .remove q ∉ bs) (hk : .kick q ∉ bs) (hp : as <+: bs)
    (hq : q ∈ (r.after as).memberIds) : q ∈ (r.after bs).memberIds := by
  obtain ⟨cs, rfl⟩ := hp
  induction cs using List.reverseRecOn with
  | nil => rwa [List.append_nil]
  | append_singleton cs c ih =>
    rw [← List.append_assoc] at hr hk ⊢
    have hstay := ih (fun h => hr (List.mem_append_left _ h))
      (fun h => hk (List.mem_append_left _ h))
    have hc := change_step (r.after (as ++ cs)) c
    rw [← after_snoc] at hc
    exact hc.stays (fun h => hr (by simp [h])) (fun h => hk (by simp [h])) hstay

/-! ### Counting full lists -/

lemma update_syncs (r : Room) (dt : Float32) (t : UInt32) :
    (r.update dt t).state.syncs = r.syncs ∨ (r.update dt t).state.syncs = r.syncs + 1 := by
  rcases hp : r.playing with _ | _
  · rw [update_lobby dt t hp]
    exact .inl rfl
  · rw [update_playing dt t hp]
    have hs := (spawnDue_frame (r.ticked dt t) dt t).2
    rcases (syncDue_frame ((r.ticked dt t).spawnDue dt t).state dt).2.2 with h | ⟨h, -⟩
    · exact .inr (h.trans (congrArg (· + 1) hs))
    · exact .inl (h.trans hs)

lemma Change.syncs (h : r.Change b r' os) : r'.syncs = r.syncs ∨ r'.syncs = r.syncs + 1 := by
  cases h with
  | counted now =>
    rw [entitiesOnly_fire _ _ now]
    exact .inl rfl
  | ticked dt now => exact update_syncs r dt now
  | _ => exact .inl rfl

lemma toNat_syncs (h0 : r.syncs = 0) (hn : r.syncCount as < UInt32.size) :
    (r.after as).syncs.toNat = r.syncCount as := by
  induction as using List.reverseRecOn with
  | nil => rw [after_nil, h0]; rfl
  | append_singleton as b ih =>
    rw [syncCount_snoc] at hn ⊢
    have ih := ih (by omega)
    by_cases hs : (r.after (as ++ [b])).syncs = (r.after as).syncs
    · rw [if_pos hs, hs, ih, Nat.add_zero]
    · rw [if_neg hs] at hn ⊢
      rw [after_snoc] at hs ⊢
      rw [(change_step _ b).syncs.resolve_left hs, UInt32.toNat_add, ih]
      exact Nat.mod_eq_of_lt hn

/-! ### Whether the player is known -/

lemma mem_players_without {q : Player} {id : UInt32} :
    q ∈ (r.without id).players ↔ q ∈ r.players ∧ q.id ≠ id := by
  simp [without]

lemma at_without {id : UInt32} (hid : id ≠ p) : (r.without id).At p a ↔ r.At p a := by
  simp only [At, mem_players_without]
  constructor
  · rintro ⟨q, ⟨hq, -⟩, h⟩
    exact ⟨q, hq, h⟩
  · rintro ⟨q, hq, rfl, h⟩
    exact ⟨q, ⟨hq, Ne.symm hid⟩, rfl, h⟩

lemma at_joinedBy {id : UInt32} {name : String} : (r.joinedBy id name).At p a ↔ r.At p a := by
  constructor
  · rintro ⟨q, hq, hid, ha⟩
    rcases List.mem_append.1 hq with hq | hq
    · exact ⟨q, hq, hid, ha⟩
    · rw [List.mem_singleton.1 hq] at ha
      cases ha
  · rintro ⟨q, hq, h⟩
    exact ⟨q, List.mem_append_left _ hq, h⟩

lemma at_respawned (h : List.Forall₂ Player.Respawned r.players r'.players) :
    r'.At p a ↔ r.At p a := by
  have key : ∀ {ps qs : List Player}, List.Forall₂ Player.Respawned ps qs →
      ((∃ q ∈ qs, q.id = p ∧ q.address = some a) ↔ ∃ q ∈ ps, q.id = p ∧ q.address = some a) := by
    intro ps qs h
    induction h with
    | nil => simp
    | cons hpq _ ih => simp only [List.exists_mem_cons_iff, ih, hpq.same.id, hpq.address]
  exact key h

lemma at_modifyPlayer {id : UInt32} {f : Player → Player} (hf : ∀ q, (f q).id = q.id)
    (ha : ∀ q ∈ r.players, q.id = id → ∀ b, q.address = some b → (f q).address = some b)
    (h : r.At p a) : (r.modifyPlayer id f).At p a := by
  obtain ⟨q, hq, hid, haddr⟩ := h
  by_cases hqid : q.id = id
  · refine ⟨f q, List.mem_map.2 ⟨q, hq, if_pos hqid⟩, (hf q).trans hid, ha q hq hqid a haddr⟩
  · exact ⟨q, List.mem_map.2 ⟨q, hq, if_neg hqid⟩, hid, haddr⟩

/-- The address of a known player is the one its inputs come from. -/
lemma address_of_accepts (hn : r.memberIds.Nodup) {id : UInt32} {q : Player} {source : Endpoint}
    (hq : r.player? id = some q) (ha : accepts q source = true) :
    ∀ s ∈ r.players, s.id = q.id → ∀ b, s.address = some b → some source = some b := by
  intro s hs hsid b hb
  have hsq : s = q := by
    have hfound := player?_of_mem hn hs
    rw [hsid, (mem_of_player? hq).2, hq] at hfound
    exact (Option.some.inj hfound).symm
  rw [hsq] at hb
  simpa [accepts, hb, eq_comm] using ha

/-- A known player stays known. -/
lemma Change.at (hc : r.Change b r' os) (hn : r.memberIds.Nodup) (hr : b ≠ .remove p)
    (hk : b ≠ .kick p) (h : r.At p a) : r'.At p a := by
  cases hc with
  | nothing => exact h
  | joined => exact at_joinedBy.2 h
  | left => exact (at_without fun hp => hr (by rw [hp])).2 h
  | kicked => exact (at_without fun hp => hk (by rw [hp])).2 h
  | started => exact h
  | heard now hq ha => exact at_modifyPlayer (fun _ => rfl) (address_of_accepts hn hq ha) h
  | counted now hq ha =>
    rw [At, (entitiesOnly_fire _ _ now).players_eq]
    exact at_modifyPlayer (fun _ => rfl) (address_of_accepts hn hq ha) h
  | spawned => exact h
  | ticked dt now => exact (at_respawned (update_frame r dt now).2.2.2).2 h

/-! ### Nothing comes to an address that is not known -/

lemma mail_fire_nil (h : a ∉ r.addresses) (shots : List (EntityKind × Position × Float32))
    (t : UInt32) : mail a (r.fire shots t).offers = [] := by
  induction shots generalizing r with
  | nil => rfl
  | cons s shots ih =>
    obtain ⟨kind, x, vx⟩ := s
    have hnext : a ∉ (r.spawn kind x vx 0 t).state.addresses := h
    rw [fire_cons, mail_append, ih hnext, spawn, insertEntity, mail_broadcast_nil h]
    rfl

lemma mail_update_nil (h : a ∉ r.addresses) (dt : Float32) (t : UInt32) :
    mail a (r.update dt t).offers = [] := by
  rcases hp : r.playing with _ | _
  · rw [update_lobby dt t hp]
    rfl
  · have hsettled : a ∉ (r.settled t).addresses := by
      rw [addresses, addresses_respawned (respawned_settled r t)]
      exact h
    have hticked : a ∉ (r.ticked dt t).addresses := hsettled
    have hspawned : a ∉ ((r.ticked dt t).spawnDue dt t).state.addresses := by
      rw [addresses, (spawnDue_frame _ dt t).1]
      exact hsettled
    have hspawn : mail a ((r.ticked dt t).spawnDue dt t).offers = [] := by
      rcases spawnDue_cases (r.ticked dt t) dt t with ⟨timer, hs⟩ | ⟨timer, g, e, hs⟩
      · rw [hs]
        rfl
      · rw [hs]
        exact mail_broadcast_nil hticked _
    have hsync : mail a (((r.ticked dt t).spawnDue dt t).state.syncDue dt).offers = [] := by
      by_cases hd : ((r.ticked dt t).spawnDue dt t).state.SyncIsDue dt
      · rw [syncDue_due hd]
        exact mail_flatMap_broadcast_nil hspawned (fun packet => packet) _
      · rw [syncDue_early hd]
        rfl
    rw [update_playing dt t hp]
    simp only [mail_append, advance_offers, report_offers, mail_flatMap_broadcast_nil h,
      mail_flatMap_broadcast_nil hsettled, hspawn, hsync, List.append_nil]

/-- A kicked player is told so at its own address. -/
lemma mail_kick_notice (halone : r.Alone p a) {id : UInt32} (hid : id ≠ p) {q : Player}
    (hq : r.player? id = some q) :
    mail a (q.address.toList.map fun peer => ⟨peer, .kick⟩) = [] := by
  obtain ⟨hmem, hqid⟩ := mem_of_player? hq
  rcases ha : q.address with _ | peer
  · rfl
  · have hne : peer ≠ a := by
      rintro rfl
      exact hid (hqid ▸ halone q hmem ha)
    simp [mail, hne]

lemma Change.mail_nil (hc : r.Change b r' os) (halone : r.Alone p a) (halone' : r'.Alone p a)
    (hk : b ≠ .kick p) (h : ¬ r.At p a) (h' : ¬ r'.At p a) : mail a os = [] := by
  have hr := not_mem_addresses h halone
  have hr' := not_mem_addresses h' halone'
  cases hc with
  | left => exact mail_broadcast_nil hr' _
  | kicked hq =>
    rw [mail_append, mail_kick_notice halone (fun hp => hk (by rw [hp])) hq]
    exact mail_broadcast_nil hr' _
  | counted now =>
    rw [addresses, (entitiesOnly_fire _ _ now).players_eq] at hr'
    exact mail_fire_nil hr' _ now
  | spawned => exact mail_broadcast_nil hr _
  | ticked dt now => exact mail_update_nil hr dt now
  | _ => rfl

end Room

end CoopShooter
