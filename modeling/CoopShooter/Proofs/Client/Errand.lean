import Mathlib
import CoopShooter.Proofs.Client.Calls
import CoopShooter.Proofs.Client.Holding

/-!
A step of an errand.

While an errand is under way, the messages of the server fall into those that are gone and those
that are left: chat is gone once it was put aside, other messages once they were dropped, and the
answer once it was taken. Every call keeps this picture; and each call that takes the errand
further brings it one step nearer to its end as soon as the answer has arrived.
-/

namespace CoopShooter.LobbyClient

open CoopShooter.Frame (Whole lines lines_append)

/-- The calls that put chat aside and are no part of an errand. -/
def Call.Listens (a : Call) : Prop := a = .receiveChat ∨ a = .isConnected

namespace Errand

/-- Among these calls, after an errand began, is one that listens when the answer has been taken. -/
def ListensLate (e : Errand) (c₀ : LobbyClient) (calls : List Call) : Prop :=
  ∃ before a since frame, calls = before ++ a :: since ∧ a.Listens ∧
    ((c₀.call e.call).2.after before).waiting = .arrived e.expected frame

/-- How far an errand has come when some messages are gone: none of them is its answer, or the
answer was taken, and behind it at most chat is gone, and that by listening late. -/
inductive Stands (e : Errand) (c₀ c : LobbyClient) (gone : List Whole) (calls : List Call) :
    Prop where
  | asked (h : c.waiting = .requested e.expected) (hgone : ∀ x ∈ gone, x.1 ≠ e.expected)
  | seen (h : c.waiting = .announced e.expected) (hgone : ∀ x ∈ gone, x.1 ≠ e.expected)
    (hfront : c.buffer.peek? = some e.expected)
  | taken {front talk : List Whole} {frame : Bytes}
    (h : c.waiting = .arrived e.expected frame) (hspells : e.expected.Spells frame)
    (hgone : gone = front ++ (e.expected, frame) :: talk)
    (hfront : ∀ x ∈ front, x.1 ≠ e.expected) (htalk : ∀ x ∈ talk, x.1 = .chat)
    (hlate : talk ≠ [] → e.ListensLate c₀ calls)

/-- An errand that a client has begun is under way after some calls. -/
structure UnderWay (e : Errand) (c₀ c : LobbyClient) (told : List Chat) (calls : List Call)
    (future : Bytes) (gone left : List Whole) : Prop where
  opened : c.ended = false
  joining : c.joining = e.room?
  sent : c.sent = c₀.sent ++ e.request
  holds : c.buffer.Holds (c.incoming ++ future) left
  inbox : c₀.inbox ++ lines gone = told ++ c.inbox
  stands : e.Stands c₀ c gone calls

/-- The answer stands behind some messages, and all of its bytes have arrived. -/
structure There (e : Errand) (left : List Whole) (future : Bytes) (front behind : List Whole)
    (answer : Bytes) : Prop where
  left_eq : left = front ++ (e.expected, answer) :: behind
  first : ∀ x ∈ front, x.1 ≠ e.expected
  arrived : future.length ≤ (behind.flatMap (·.2)).length

/-- The answer has arrived, and an errand that has come this far needs no more calls than these. -/
def Owes (e : Errand) (waiting : Waiting) (left : List Whole) (future : Bytes) (n : ℕ) : Prop :=
  match waiting with
  | .idle => False
  | .requested _ => ∃ front behind answer, e.There left future front behind answer ∧
      (front.filter (·.1 ≠ .chat)).length + 3 ≤ n
  | .announced _ => ∃ behind answer, e.There left future [] behind answer ∧ 2 ≤ n
  | .arrived _ _ => 1 ≤ n

variable {e : Errand} {c c₀ : LobbyClient} {told : List Chat} {calls : List Call} {future : Bytes}
  {gone left : List Whole}

lemma Stands.expected (h : e.Stands c₀ c gone calls) : c.waiting.expected? = some e.expected := by
  cases h with
  | asked h | seen h | taken h => rw [h]; rfl

/-- The chat in front is put aside, whatever else happens then. -/
lemma UnderWay.pumped (h : e.UnderWay c₀ c told calls future gone left) :
    ∃ talk rest, left = talk ++ rest ∧ (∀ x ∈ talk, x.1 = .chat) ∧
      c.pumped.inbox = c.inbox ++ lines talk ∧ c.pumped.buffer.Holds future rest ∧
      (c.pumped.buffer.peek? = some .chat →
        c.pumped.buffer.take? = (none, c.pumped.buffer)) := by
  obtain ⟨talk, rest, hleft, htalk, hlines, hholds, hlate⟩ := h.holds.append.takeChat
  refine ⟨talk, rest, hleft, htalk, ?_, hholds, hlate⟩
  rw [← hlines]
  rfl

/-- With the answer in front there is no chat to put aside. -/
lemma UnderWay.pumped_seen (h : e.UnderWay c₀ c told calls future gone left)
    (hfront : c.buffer.peek? = some e.expected) :
    c.pumped.inbox = c.inbox ++ lines [] ∧ c.pumped.buffer.Holds future left ∧
      c.pumped.buffer.peek? = some e.expected := by
  obtain ⟨talk, rest, hleft, htalk, hinbox, hholds, -⟩ := h.pumped
  obtain ⟨x, xs, hx, hop⟩ : ∃ x xs, left = x :: xs ∧ x.1 = e.expected := by
    rcases h.holds.peek? with ⟨-, hnone⟩ | ⟨x, xs, hx, hop⟩
    · cases hfront.symm.trans hnone
    · exact ⟨x, xs, hx, Option.some.inj (hop.symm.trans hfront)⟩
  have hnone : talk = [] := by
    rcases talk with _ | ⟨y, talk⟩
    · rfl
    · rw [hx] at hleft
      cases hleft
      exact absurd (hop.symm.trans (htalk x List.mem_cons_self)) e.expected_ne_chat
  subst hnone
  obtain rfl : left = rest := hleft
  have hbytes : c.pumped.buffer.bytes = c.buffer.bytes ++ c.incoming := by
    have hsame := hholds.bytes.trans h.holds.bytes.symm
    rw [← List.append_assoc] at hsame
    exact List.append_cancel_right hsame
  refine ⟨hinbox, hholds, ?_⟩
  rcases hholds.peek? with ⟨hempty, -⟩ | ⟨y, ys, hy, hop'⟩
  · rw [hbytes] at hempty
    have hnothing : c.buffer.peek? = none := by
      rw [FrameBuffer.peek?, h.holds.settle_eq, (List.append_eq_nil_iff.1 hempty).1]
      rfl
    cases hfront.symm.trans hnothing
  · rw [hx] at hy
    cases hy
    rw [hop', hop]

lemma ListensLate.append (h : e.ListensLate c₀ calls) (more : List Call) :
    e.ListensLate c₀ (calls ++ more) := by
  obtain ⟨before, a, since, frame, rfl, ha, hwaiting⟩ := h
  exact ⟨before, a, since ++ more, frame, by simp, ha, hwaiting⟩

/-- A call that puts no chat aside and goes no further leaves an errand where it stands. -/
lemma Stands.keep {d : LobbyClient} (h : e.Stands c₀ c gone calls)
    (hwaiting : d.waiting = c.waiting) (hbuffer : d.buffer = c.buffer) (a : Call) :
    e.Stands c₀ d gone (calls ++ [a]) := by
  cases h with
  | asked h hgone => exact .asked (hwaiting.trans h) hgone
  | seen h hgone hfront => exact .seen (hwaiting.trans h) hgone (by rw [hbuffer, hfront])
  | taken h hspells hgone hfront htalk hlate =>
    exact .taken (hwaiting.trans h) hspells hgone hfront htalk fun hne => (hlate hne).append [a]

/-- An errand is under way in the state that a call leaves which put chat aside: of the messages
that are read, the lines of chat are in the inbox, or the player has heard them. -/
lemma UnderWay.moved (h : e.UnderWay c₀ c told calls future gone left)
    {out keep : List Chat} {read left' : List Whole} {calls' : List Call}
    {buffer : FrameBuffer} {waiting : Waiting} (hinbox : c.pumped.inbox = c.inbox ++ lines read)
    (hkeep : c.pumped.inbox = out ++ keep) (hholds : buffer.Holds future left')
    (hstands : e.Stands c₀ { c.pumped with buffer := buffer, waiting := waiting, inbox := keep }
      (gone ++ read) calls') :
    e.UnderWay c₀ { c.pumped with buffer := buffer, waiting := waiting, inbox := keep }
      (told ++ out) calls' future (gone ++ read) left' where
  opened := h.opened
  joining := h.joining
  sent := h.sent
  holds := hholds
  inbox := by
    rw [lines_append, ← List.append_assoc, h.inbox, List.append_assoc, ← hinbox, hkeep,
      List.append_assoc]
  stands := hstands

lemma not_answer_of_chat {talk : List Whole} (h : ∀ x ∈ talk, x.1 = .chat) :
    ∀ x ∈ talk, x.1 ≠ e.expected :=
  fun x hx heq => e.expected_ne_chat (heq.symm.trans (h x hx))

/-- What is no answer does not hide the answer behind it. -/
lemma There.skip {front behind skipped rest : List Whole} {answer : Bytes}
    (h : e.There (skipped ++ rest) future front behind answer)
    (hskipped : ∀ x ∈ skipped, x.1 ≠ e.expected) :
    ∃ front', front = skipped ++ front' ∧ e.There rest future front' behind answer := by
  rcases List.append_eq_append_iff.1 h.left_eq with ⟨front', rfl, hrest⟩ | ⟨ys, rfl, hbehind⟩
  · exact ⟨front', rfl, hrest, fun x hx => h.first x (List.mem_append_right _ hx), h.arrived⟩
  · rcases ys with _ | ⟨y, ys⟩
    · exact ⟨[], by simp, hbehind.symm, by simp, h.arrived⟩
    · cases hbehind
      exact absurd rfl (hskipped _ (List.mem_append_right _ List.mem_cons_self))

lemma There.answer_first {front behind : List Whole} {answer : Bytes} {x : Whole}
    (h : e.There (x :: left) future front behind answer) (hx : x.1 = e.expected) :
    e.There (x :: left) future [] behind answer := by
  rcases front with _ | ⟨y, front⟩
  · exact h
  · cases h.left_eq
    exact absurd hx (h.first x List.mem_cons_self)

lemma Owes.mono {waiting : Waiting} {m n : ℕ} (h : e.Owes waiting left future m) (hle : m ≤ n) :
    e.Owes waiting left future n := by
  cases waiting with
  | idle => exact h
  | requested =>
    obtain ⟨front, behind, answer, hthere, hm⟩ := h
    exact ⟨front, behind, answer, hthere, hm.trans hle⟩
  | announced =>
    obtain ⟨behind, answer, hthere, hm⟩ := h
    exact ⟨behind, answer, hthere, hm.trans hle⟩
  | arrived => exact hle.trans' h

lemma Owes.later {waiting : Waiting} {bs : Bytes} {n : ℕ}
    (h : e.Owes waiting left (bs ++ future) n) : e.Owes waiting left future n := by
  have hlen : future.length ≤ (bs ++ future).length := by simp
  cases waiting with
  | idle => exact h
  | requested =>
    obtain ⟨front, behind, answer, hthere, hn⟩ := h
    exact ⟨front, behind, answer, ⟨hthere.left_eq, hthere.first, hlen.trans hthere.arrived⟩, hn⟩
  | announced =>
    obtain ⟨behind, answer, hthere, hn⟩ := h
    exact ⟨behind, answer, ⟨hthere.left_eq, hthere.first, hlen.trans hthere.arrived⟩, hn⟩
  | arrived => exact h

lemma Owes.talk {waiting : Waiting} {talk rest : List Whole} {n : ℕ}
    (h : e.Owes waiting (talk ++ rest) future n) (htalk : ∀ x ∈ talk, x.1 = .chat) :
    e.Owes waiting rest future n := by
  cases waiting with
  | idle => exact h
  | requested =>
    obtain ⟨front, behind, answer, hthere, hn⟩ := h
    obtain ⟨front', rfl, hthere'⟩ := hthere.skip (not_answer_of_chat htalk)
    have hnone : talk.filter (·.1 ≠ .chat) = [] :=
      List.filter_eq_nil_iff.2 fun x hx => by simp [htalk x hx]
    rw [List.filter_append, hnone, List.nil_append] at hn
    exact ⟨front', behind, answer, hthere', hn⟩
  | announced =>
    obtain ⟨behind, answer, hthere, hn⟩ := h
    obtain ⟨front', hfront, hthere'⟩ := hthere.skip (not_answer_of_chat htalk)
    obtain rfl := (List.append_eq_nil_iff.1 hfront.symm).2
    exact ⟨behind, answer, hthere', hn⟩
  | arrived => exact h

/-- What comes next is there whole once the answer has arrived. -/
lemma There.take? {front behind : List Whole} {answer : Bytes} {b : FrameBuffer}
    (h : e.There left future front behind answer) (hholds : b.Holds future left) :
    b.take?.1 ≠ none := by
  obtain ⟨x, rest, rfl, hrest⟩ : ∃ x rest, left = x :: rest ∧
      (behind.flatMap (·.2)).length ≤ (rest.flatMap (·.2)).length := by
    rcases front with _ | ⟨x, front⟩
    · exact ⟨_, behind, h.left_eq, le_rfl⟩
    · refine ⟨x, front ++ (e.expected, answer) :: behind, h.left_eq, ?_⟩
      simp only [List.flatMap_append, List.flatMap_cons, List.length_append]
      omega
  obtain ⟨b', htake, -⟩ := hholds.take?_whole (h.arrived.trans hrest)
  rw [htake]
  exact Option.some_ne_none x

/-- Bytes arrive. -/
lemma UnderWay.deliver {bs : Bytes} (h : e.UnderWay c₀ c told calls (bs ++ future) gone left) :
    e.UnderWay c₀ (c.deliver bs) told (calls ++ [.deliver bs]) future gone left where
  opened := h.opened
  joining := h.joining
  sent := h.sent
  holds := by
    have hholds := h.holds
    rw [← List.append_assoc] at hholds
    exact hholds
  inbox := h.inbox
  stands := h.stands.keep (d := c.deliver bs) rfl rfl _

/-- A call that finds the client busy leaves it as it is. -/
lemma UnderWay.refused (h : e.UnderWay c₀ c told calls future gone left) (a : Call) :
    e.UnderWay c₀ c told (calls ++ [a]) future gone left :=
  { h with stands := h.stands.keep rfl rfl a }

/-- The player listens: chat at the front is put aside, and some of it may be read. -/
lemma UnderWay.listened (h : e.UnderWay c₀ c told calls future gone left) {a : Call}
    (hreached : c = (c₀.call e.call).2.after calls) (ha : a.Listens) {out keep : List Chat}
    (hkeep : c.pumped.inbox = out ++ keep) :
    ∃ talk left', left = talk ++ left' ∧ (∀ x ∈ talk, x.1 = .chat) ∧
      e.UnderWay c₀ { c.pumped with inbox := keep } (told ++ out) (calls ++ [a]) future
        (gone ++ talk) left' := by
  cases h.stands with
  | asked hwaiting hgone =>
    obtain ⟨talk, rest, hleft, htalk, hinbox, hholds, -⟩ := h.pumped
    have hnone : ∀ x ∈ gone ++ talk, x.1 ≠ e.expected :=
      List.forall_mem_append.2 ⟨hgone, not_answer_of_chat htalk⟩
    exact ⟨talk, rest, hleft, htalk, h.moved hinbox hkeep hholds (.asked hwaiting hnone)⟩
  | seen hwaiting hgone hfront =>
    obtain ⟨hinbox, hholds, hpeek⟩ := h.pumped_seen hfront
    exact ⟨[], left, rfl, by simp, h.moved hinbox hkeep hholds
      (.seen hwaiting (by rwa [List.append_nil]) hpeek)⟩
  | @taken front talk frame hwaiting hspells hgone hfront htalk hlate =>
    obtain ⟨more, rest, hleft, hmore, hinbox, hholds, -⟩ := h.pumped
    have hgone' : gone ++ more = front ++ (e.expected, frame) :: (talk ++ more) := by
      rw [hgone, List.append_assoc, List.cons_append]
    have htalk' : ∀ x ∈ talk ++ more, x.1 = .chat := List.forall_mem_append.2 ⟨htalk, hmore⟩
    have hlate' : e.ListensLate c₀ (calls ++ [a]) :=
      ⟨calls, a, [], frame, rfl, ha, by rw [← hreached, hwaiting]⟩
    exact ⟨more, rest, hleft, hmore, h.moved hinbox hkeep hholds
      (.taken hwaiting hspells hgone' hfront htalk' fun _ => hlate')⟩

/-- What is looked for is the answer, or is no chat and is dropped, or there is nothing whole. -/
lemma UnderWay.looked (h : e.UnderWay c₀ c told calls future gone left)
    (hwaiting : c.waiting = .requested e.expected) (hgone : ∀ x ∈ gone, x.1 ≠ e.expected) :
    ∃ read left', left = read ++ left' ∧
      e.UnderWay c₀ (c.pumped.looked e.expected) told (calls ++ [e.call]) future (gone ++ read)
        left' ∧
      ∀ n, e.Owes c.waiting left future (n + 1) →
        e.Owes (c.pumped.looked e.expected).waiting left' future n := by
  obtain ⟨talk, rest, rfl, htalk, hinbox, hholds, hlate⟩ := h.pumped
  have hnone : ∀ x ∈ gone ++ talk, x.1 ≠ e.expected :=
    List.forall_mem_append.2 ⟨hgone, not_answer_of_chat htalk⟩
  rw [← List.append_nil told]
  rcases hholds.take? with htake | ⟨x, xs, b', rfl, htake, hrest⟩
  · -- nothing is there whole, so the answer has not arrived
    have howes : ∀ n, ¬ e.Owes c.waiting (talk ++ rest) future n := by
      intro n howes
      have hrest := howes.talk htalk
      rw [hwaiting] at hrest
      obtain ⟨front, behind, answer, hthere, -⟩ := hrest
      exact hthere.take? hholds (by rw [htake])
    by_cases hpeek : c.pumped.buffer.peek? = some e.expected
    · rw [looked_found hpeek]
      exact ⟨talk, rest, rfl, h.moved hinbox rfl hholds (.seen rfl hnone hpeek),
        fun n hn => absurd hn (howes _)⟩
    · rw [looked_other hpeek htake fun _ => rfl]
      exact ⟨talk, rest, rfl, h.moved hinbox rfl hholds (.asked rfl hnone),
        fun n hn => absurd hn (howes _)⟩
  · have hpeek := FrameBuffer.peek?_of_take? htake
    by_cases hx : x.1 = e.expected
    · rw [looked_found (by rw [hpeek, hx])]
      refine ⟨talk, x :: xs, rfl, h.moved hinbox rfl hholds (.seen rfl hnone (by rw [hpeek, hx])),
        fun n hn => ?_⟩
      have hrest := hn.talk htalk
      rw [hwaiting] at hrest
      obtain ⟨front, behind, answer, hthere, hlen⟩ := hrest
      exact ⟨behind, answer, hthere.answer_first hx, by omega⟩
    · have hchat : x.1 ≠ .chat := by
        intro hx
        cases htake.symm.trans (hlate (by rw [hpeek, hx]))
      have hread : c.pumped.inbox = c.inbox ++ lines (talk ++ [x]) := by
        rw [hinbox, lines_append, Frame.lines_eq_nil (List.forall_mem_singleton.2 hchat),
          List.append_nil]
      have hgone' : ∀ y ∈ gone ++ (talk ++ [x]), y.1 ≠ e.expected := by
        rw [← List.append_assoc]
        simp only [List.forall_mem_append, List.forall_mem_singleton]
        exact ⟨List.forall_mem_append.1 hnone, hx⟩
      rw [looked_other (by rw [hpeek]; simpa using hx) htake (by rw [hpeek]; simp)]
      refine ⟨talk ++ [x], xs, by simp, h.moved hread rfl hrest (.asked rfl hgone'), fun n hn => ?_⟩
      have hrest := hn.talk htalk
      rw [hwaiting] at hrest
      obtain ⟨front, behind, answer, hthere, hlen⟩ := hrest
      obtain ⟨front', rfl, hthere'⟩ := hthere.skip (List.forall_mem_singleton.2 hx)
      rw [List.singleton_append, List.filter_cons_of_pos (by simpa using hchat),
        List.length_cons] at hlen
      exact ⟨front', behind, answer, hthere', by omega⟩

/-- The answer that was seen to come is taken as soon as it is there whole. -/
lemma UnderWay.grabbed (h : e.UnderWay c₀ c told calls future gone left)
    (hwaiting : c.waiting = .announced e.expected) (hgone : ∀ x ∈ gone, x.1 ≠ e.expected)
    (hfront : c.buffer.peek? = some e.expected) :
    ∃ read left', left = read ++ left' ∧
      e.UnderWay c₀ (c.pumped.grabbed e.expected) told (calls ++ [e.call]) future (gone ++ read)
        left' ∧
      ∀ n, e.Owes c.waiting left future (n + 1) →
        e.Owes (c.pumped.grabbed e.expected).waiting left' future n := by
  obtain ⟨hinbox, hholds, hpeek⟩ := h.pumped_seen hfront
  rw [← List.append_nil told]
  rcases hholds.take? with htake | ⟨x, xs, b', rfl, htake, hrest⟩
  · have hgrabbed : c.pumped.grabbed e.expected =
        { c.pumped with waiting := .announced e.expected } := by
      rw [LobbyClient.grabbed, htake]
    rw [hgrabbed]
    refine ⟨[], left, rfl, h.moved hinbox rfl hholds
      (.seen rfl (by rwa [List.append_nil]) hpeek), fun n hn => ?_⟩
    rw [hwaiting] at hn
    obtain ⟨behind, answer, hthere, -⟩ := hn
    exact absurd (by rw [htake]) (hthere.take? hholds)
  · have hx : x.1 = e.expected :=
      Option.some.inj ((FrameBuffer.peek?_of_take? htake).symm.trans hpeek)
    have hread : c.pumped.inbox = c.inbox ++ lines [x] := by
      rw [hinbox, Frame.lines_eq_nil (List.forall_mem_singleton.2 (hx ▸ e.expected_ne_chat))]
      rfl
    have hgrabbed : c.pumped.grabbed e.expected =
        { c.pumped with buffer := b', waiting := .arrived e.expected x.2 } := by
      rw [LobbyClient.grabbed, htake]
    have hspells : e.expected.Spells x.2 := hx ▸ hholds.spelled x List.mem_cons_self
    have hgone' : gone ++ [x] = gone ++ (e.expected, x.2) :: [] := by rw [← hx]
    rw [hgrabbed]
    refine ⟨[x], xs, rfl, h.moved hread rfl hrest
      (.taken rfl hspells hgone' hgone (by simp) fun hne => absurd rfl hne), fun n hn => ?_⟩
    rw [hwaiting] at hn
    obtain ⟨behind, answer, -, hlen⟩ := hn
    show 1 ≤ n
    omega

/-- The call that takes an errand further, as long as it goes on. -/
lemma UnderWay.poll (h : e.UnderWay c₀ c told calls future gone left)
    (hpending : (c.call e.call).1 = e.pending) :
    ∃ read left', left = read ++ left' ∧
      e.UnderWay c₀ (c.call e.call).2 told (calls ++ [e.call]) future (gone ++ read) left' ∧
      ∀ n, e.Owes c.waiting left future (n + 1) →
        e.Owes (c.call e.call).2.waiting left' future n := by
  cases h.stands with
  | asked hwaiting hgone =>
    rw [call_requested hwaiting h.joining h.opened]
    exact h.looked hwaiting hgone
  | seen hwaiting hgone hfront =>
    rw [call_announced hwaiting h.joining h.opened]
    exact h.grabbed hwaiting hgone hfront
  | taken hwaiting hspells =>
    have hsettles := (call_arrived hwaiting h.joining hspells).1
    exact absurd hpending hsettles.ne_pending

/-- A step of an errand. As long as it goes on, it is under way after every call; and once its
answer has arrived, each call that takes it further brings it one nearer to its end. -/
lemma UnderWay.call {a : Call} (h : e.UnderWay c₀ c told calls (a.arriving ++ future) gone left)
    (hreached : c = (c₀.call e.call).2.after calls)
    (hpending : a = e.call → (c.call a).1 = e.pending) :
    ∃ read left', left = read ++ left' ∧
      e.UnderWay c₀ (c.call a).2 (told ++ (c.call a).1.heard) (calls ++ [a]) future (gone ++ read)
        left' ∧
      ∀ n, e.Owes c.waiting left (a.arriving ++ future) (n + if a = e.call then 1 else 0) →
        e.Owes (c.call a).2.waiting left' future n := by
  by_cases ha : a = e.call
  · subst ha
    rw [e.arriving_call, List.nil_append] at h
    rw [hpending rfl, e.heard_pending, List.append_nil, e.arriving_call, List.nil_append,
      if_pos rfl]
    exact h.poll (hpending rfl)
  · rw [if_neg ha]
    rcases hrefusal : a.refusal? with _ | refusal
    · cases a with
      | deliver bs =>
        refine ⟨[], left, rfl, ?_, fun n hn => hn.later⟩
        simp only [LobbyClient.call, Answer.heard, List.append_nil]
        exact h.deliver
      | receiveChat =>
        have hkeep : c.pumped.inbox = c.pumped.inbox.head?.toList ++ c.pumped.inbox.tail := by
          cases c.pumped.inbox <;> rfl
        obtain ⟨talk, left', rfl, htalk, hlistened⟩ := h.listened hreached (.inl rfl) hkeep
        rw [receiveChat_open h.opened, Answer.heard_chat]
        exact ⟨talk, left', rfl, hlistened, fun n hn => hn.talk htalk⟩
      | isConnected =>
        have hnone : c.pumped.inbox = [] ++ c.pumped.inbox := rfl
        obtain ⟨talk, left', rfl, htalk, hlistened⟩ := h.listened hreached (.inr rfl) hnone
        rw [isConnected_open h.opened]
        exact ⟨talk, left', rfl, hlistened, fun n hn => hn.talk htalk⟩
      | createRoom | joinRoom | listRooms | lobbyState => cases hrefusal
    · rw [call_busy h.stands.expected h.joining hrefusal ha]
      have harriving : a.arriving = [] := by cases a <;> first | rfl | cases hrefusal
      have hheard : refusal.heard = [] := by cases a <;> cases hrefusal <;> rfl
      rw [harriving, List.nil_append] at h
      rw [harriving, hheard, List.append_nil, List.nil_append]
      exact ⟨[], left, rfl, by rw [List.append_nil]; exact h.refused a, fun n hn => hn⟩

end Errand

end CoopShooter.LobbyClient
