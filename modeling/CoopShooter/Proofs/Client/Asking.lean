import Mathlib
import CoopShooter.Proofs.Client.Calls
import CoopShooter.Proofs.Client.Holding

/-!
What a client writes to log in, and what it makes of the answer when it asks who waits in its room.
The answer is found behind whatever else has arrived.
-/

namespace CoopShooter

namespace FrameBuffer

variable {b : FrameBuffer} {x : Frame.Whole} {front rest : List Frame.Whole}
  {wanted : LobbyOp → Bool}

/-- Chat at the front is put aside up to another message at most. -/
lemma Holds.behind_chat (h : b.Holds [] (front ++ x :: rest)) (hx : x.1 ≠ .chat) :
    ∃ front', front' <:+ front ∧ (LobbyClient.takeChat b).2.Holds [] (front' ++ x :: rest) := by
  obtain ⟨talk, left, hsplit, htalk, -, hleft, -⟩ := h.takeChat
  rcases List.append_eq_append_iff.1 hsplit with ⟨more, rfl, hmore⟩ | ⟨front', rfl, rfl⟩
  · rcases more with _ | ⟨y, more⟩
    · rw [List.nil_append] at hmore
      exact ⟨[], List.nil_suffix, hmore ▸ hleft⟩
    · -- the answer would be among the chat
      cases (List.cons.inj hmore).1
      exact absurd (htalk x (List.mem_append_right _ List.mem_cons_self)) hx
  · exact ⟨front', List.suffix_append talk front', hleft⟩

/-- The first message that is wanted is found behind those that are not. -/
lemma Holds.search (h : b.Holds [] (front ++ x :: rest)) (hchat : wanted .chat = false)
    (hfront : ∀ y ∈ front, wanted y.1 = false) (hx : wanted x.1 = true) :
    (LobbyClient.search wanted b).2.1 = some x := by
  have hnochat : x.1 ≠ .chat := fun hop => by simp [hop, hchat] at hx
  fun_induction LobbyClient.search wanted b generalizing front with
  | case1 b left htake =>
    obtain ⟨front', -, hholds⟩ := h.behind_chat hnochat
    obtain ⟨y, ys, hys⟩ := List.exists_cons_of_ne_nil (List.append_ne_nil_of_right_ne_nil front'
      (List.cons_ne_nil x rest))
    rw [hys] at hholds
    obtain ⟨b', hsome, -⟩ := hholds.take?_whole (Nat.zero_le _)
    cases htake.symm.trans hsome
  | case2 b frame left htake hwanted =>
    obtain ⟨front', hsub, hholds⟩ := h.behind_chat hnochat
    rcases front' with _ | ⟨y, front'⟩
    · obtain ⟨b', hsome, -⟩ := hholds.take?_whole (Nat.zero_le _)
      cases htake.symm.trans hsome
      rfl
    · obtain ⟨b', hsome, -⟩ := hholds.take?_whole (Nat.zero_le _)
      cases htake.symm.trans hsome
      have hno := hfront frame (hsub.subset List.mem_cons_self)
      cases hno.symm.trans hwanted
  | case3 b frame left htake hwanted hlt hle more found left' hmore ih =>
    obtain ⟨front', hsub, hholds⟩ := h.behind_chat hnochat
    rcases front' with _ | ⟨y, front'⟩
    · obtain ⟨b', hsome, -⟩ := hholds.take?_whole (Nat.zero_le _)
      cases htake.symm.trans hsome
      exact absurd hx hwanted
    · obtain ⟨b', hsome, hrest⟩ := hholds.take?_whole (Nat.zero_le _)
      cases htake.symm.trans hsome
      have hfound := ih hrest fun z hz => hfront z (hsub.subset (List.mem_cons_of_mem _ hz))
      rwa [hmore] at hfound

end FrameBuffer

namespace LobbyClient

/-! ## Logging in -/

/-- What is done with a client writes nothing. -/
def Silent {α : Type} (x : Exchange α) : Prop := ∀ c, (perform x c).2.sent = c.sent

section

variable {α β : Type}

lemma Silent.bind {x : Exchange α} {f : α → Exchange β} (hx : Silent x) (hf : ∀ a, Silent (f a)) :
    Silent (x >>= f) :=
  Within.bind (R := fun c d => d.sent = c.sent) (fun h h' => h'.trans h) hx hf

lemma silent_pure (a : α) : Silent (pure a) := fun _ => rfl
lemma silent_throw (err : LobbyError) : Silent (throw err : Exchange α) := fun _ => rfl

lemma silent_expectOk (r : Except WireError α) : Silent (expectOk r) := by
  cases r with
  | ok a => exact silent_pure a
  | error err => exact silent_throw _

lemma silent_readExactly (count : ℕ) : Silent (readExactly count) := by
  intro c
  simp only [perform, readExactly, Bind.bind, EStateM.bind, get, getThe, MonadStateOf.get,
    EStateM.get]
  split_ifs <;> rfl

lemma sent_write_bind [Message β] {f : Unit → Exchange α} (hf : Silent (f ())) (m : β)
    (c : LobbyClient) : (perform (write m >>= f) c).2.sent = c.sent ++ Message.encode m :=
  hf { c with sent := c.sent ++ Message.encode m }

end

/-- A client that logs in says a greeting, whatever it is answered. -/
lemma sent_handshake (text : String) (c : LobbyClient) : (perform (handshake text) c).2.sent =
    c.sent ++ Message.encode (⟨.ofString nameWidth text⟩ : Greeting) := by
  unfold handshake
  refine sent_write_bind ((silent_readExactly 1).bind fun bs => ?_) _ c
  dsimp only
  split
  · exact silent_throw _
  · exact (silent_readExactly _).bind fun _ => (silent_expectOk _).bind fun _ => fun _ => rfl
  · exact (silent_readExactly _).bind fun _ => (silent_expectOk _).bind fun _ => silent_throw _
  · exact silent_throw _

/-! ## Asking who waits -/

variable {c : LobbyClient} {h : LobbyHeader} {entries : List MemberEntry}

/-- The message that a client waits for that asks how it stands with its room. -/
def aboutRoom (op : LobbyOp) : Bool := op = .lobby || op = .startNotice

/-- An idle client that finds the list of those who wait makes of it what it says. -/
lemma perform_lobbyState (hidle : c.waiting = .idle) (hopen : c.ended = false)
    (hcount : Listing.count h = entries.length)
    (hfound : (search aboutRoom (c.buffer.append c.incoming)).2.1 =
      some (.lobby, Listing.bytes h entries)) :
    (perform lobbyState c).1 =
        .ok (.waiting h.host (entries.map fun e => (e.player, e.name.text))) ∧
      (perform lobbyState c).2.sent = c.sent ++ Message.encode ({} : LobbyRequest) := by
  have hdecode := Listing.decode_bytes h entries hcount
  rcases hsearch : search aboutRoom (c.buffer.append c.incoming) with ⟨lines, found, left⟩
  obtain rfl : found = some (.lobby, Listing.bytes h entries) := by
    rw [hsearch] at hfound
    exact hfound
  let d : LobbyClient := { c with sent := c.sent ++ Message.encode ({} : LobbyRequest) }
  have hwrite : write ({} : LobbyRequest) c = .ok () d := rfl
  have hawait : await (fun op => op = .lobby || op = .startNotice) d =
      .ok (.lobby, Listing.bytes h entries)
        { d with incoming := [], buffer := left, inbox := c.inbox ++ lines } :=
    await_open (c := d) hopen hsearch
  have hrun : lobbyState c = .ok (.waiting h.host (entries.map fun e => (e.player, e.name.text)))
      { d with incoming := [], buffer := left, inbox := c.inbox ++ lines } := by
    simp only [lobbyState, Bind.bind, EStateM.bind, ensureIdle_idle hidle, hwrite, hawait, hdecode,
      expectOk, reduceCtorEq, if_false]
    rfl
  rw [perform, hrun]
  exact ⟨rfl, rfl⟩

end LobbyClient

end CoopShooter
