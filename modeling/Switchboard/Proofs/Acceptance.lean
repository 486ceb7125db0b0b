import Switchboard.Proofs.Framing

/-!
# What a stream channel takes, its peer reads

A channel that takes a message looks only at the length of its text, while the reader also asks for the name
of a service. So a message for the service without a name is taken, and is out of order where it arrives;
every other message that is taken arrives as it was sent.
-/

namespace Switchboard

namespace World

/-- What a reader is to do about a message: hand it on, unless the service has no name. -/
def receipt (t : Stream) (ch : Channel) (m : Envelope) : Action :=
  if m.service.isEmpty then
    .violation t.policy ch.label s!"failed to decode a frame of {m.text.toUTF8.size} bytes" t.channel
  else .deliver t.channel m.service m.data

section

variable {w : World} {c s : Nat} {ch : Channel} {t : Stream} {m : Envelope} {closed : Bool}

/-- An open stream channel that takes a message has queued its frame. -/
theorem queued_of_send (channel : w.channels.get? c = some ch) (transport : ch.transport = .stream s)
    (stream : w.streams.get? s = some t) (accepted : (w.send c m.service m.data).2 = .ok ()) :
    m.text.toUTF8.size ≤ maxFrameSize ∧ (w.send c m.service m.data).1.streams.get? s =
      some { t with outbox := t.outbox ++ [Frame.wrap m.text.toUTF8] } := by
  unfold World.send at accepted ⊢
  simp only [channel, transport] at accepted ⊢
  cases closed : ch.core.disposed with
  | true => simp [closed] at accepted
  | false =>
    by_cases fits : m.text.toUTF8.size ≤ maxFrameSize
    · have encoded : Frame.encode m.service m.data = .ok (Frame.wrap m.text.toUTF8) :=
        if_neg (Nat.not_lt.mpr fits)
      have woken := wake_eq (.stream s) { w with
        streams := w.streams.modify s fun t => { t with outbox := t.outbox ++ [Frame.wrap m.text.toUTF8] } }
      simp only [encoded, Bool.false_eq_true, if_false]
      rw [woken]
      exact ⟨fits, by rw [Table.get?_modify_self, stream]; rfl⟩
    · obtain ⟨e, refused⟩ : ∃ e, Frame.encode m.service m.data = .error e := ⟨_, if_pos (Nat.not_le.mp fits)⟩
      simp [closed, refused] at accepted

/-- A message in a frame comes out as what was put in, and what comes behind it is left for later. -/
theorem Listening.receives {rest : ByteArray} (writable : m.Writable)
    (fits : m.text.toUTF8.size ≤ maxFrameSize)
    (h : Listening w s t ch closed (Frame.wrap m.text.toUTF8 ++ rest)) : ∃ w',
      w.readNext s = (w', [.frame s m.text.toUTF8, .readOn s]) ∧ Listening w' s t ch closed rest ∧
      w'.takeFrame s m.text.toUTF8 = (w', [receipt t ch m]) := by
  obtain ⟨keeping, kept, step⟩ := h.readNext_eq
  rw [Frame.cut_wrap fits rest] at step
  obtain ⟨still, -⟩ := kept rest
  obtain ⟨_, _, found, -⟩ := still.stream
  refine ⟨keeping rest, step, still, ?_⟩
  simp only [takeFrame, found, writable.decode?_text, receipt, still.channel]
  cases m.service.isEmpty <;> rfl

/-- A message for the service without a name stops everything, where the policy is to abort. -/
theorem Listening.aborts (writable : m.Writable) (fits : m.text.toUTF8.size ≤ maxFrameSize)
    (unnamed : m.service.isEmpty = true) (policy : t.policy = .abort)
    (h : Listening w s t ch closed (Frame.wrap m.text.toUTF8)) (n : Nat) :
    (drain (n + 3) [.readNext s] w).aborted.isSome = true := by
  rw [← ByteArray.append_empty (b := Frame.wrap m.text.toUTF8)] at h
  obtain ⟨w', read, still, taken⟩ := h.receives writable fits
  have stopped (scope detail : String) :
      w'.perform (.violation t.policy scope detail t.channel) = (w'.abort scope detail, []) := by
    rw [policy]
    rfl
  rw [drain_step (.readNext s) h.going read, List.append_nil, drain_step (.frame s _) still.going taken,
    receipt, if_pos unnamed, List.singleton_append, drain_step _ still.going (stopped ..)]
  cases n <;> simp [drain, World.abort, still.going]

/-- Whatever an open stream channel takes, its peer reads as one frame, whatever comes behind it. A message
for a service with a name is handed on as it was sent; one for the service without a name is a breach of
protocol, and nothing else is. The codec of envelopes makes the same difference. -/
theorem accepted_message_is_read (channel : w.channels.get? c = some ch)
    (transport : ch.transport = .stream s) (stream : w.streams.get? s = some t) (writable : m.Writable)
    (accepted : (w.send c m.service m.data).2 = .ok ()) :
    Envelope.ofJson? m.toJson = (if m.service.isEmpty then none else some m) ∧
    ∃ body, (w.send c m.service m.data).1.streams.get? s =
        some { t with outbox := t.outbox ++ [Frame.wrap body] } ∧
      Frame.leading (Frame.wrap body) = (if m.service.isEmpty then ([], none) else ([m], some .empty)) ∧
      ∀ (peer : World) (s' : Nat) (t' : Stream) (ch' : Channel) (closed : Bool) (rest : ByteArray),
        Listening peer s' t' ch' closed (Frame.wrap body ++ rest) → ∃ peer',
          peer.readNext s' = (peer', [.frame s' body, .readOn s']) ∧
          Listening peer' s' t' ch' closed rest ∧
          peer'.takeFrame s' body = (peer', [receipt t' ch' m]) := by
  obtain ⟨fits, queued⟩ := queued_of_send channel transport stream accepted
  refine ⟨Envelope.ofJson?_toJson m, m.text.toUTF8, queued, ?_, ?_⟩
  · have cut := Frame.cut_wrap fits .empty
    rw [ByteArray.append_empty] at cut
    rw [Frame.leading_frame cut, writable.decode?_text]
    cases m.service.isEmpty with
    | true => rfl
    | false => simp [Frame.leading_short (show Frame.cut .empty = .short from rfl)]
  · intro peer s' t' ch' closed rest listening
    exact listening.receives writable fits

end

theorem send_loneWorld {m : Envelope} (fits : m.text.toUTF8.size ≤ maxFrameSize) :
    (loneWorld.send 0 m.service m.data).2 = .ok () := by
  have encoded : Frame.encode m.service m.data = .ok (Frame.wrap m.text.toUTF8) :=
    if_neg (Nat.not_lt.mpr fits)
  simp [World.send, loneWorld, loneChannel, Table.get?, encoded]

/-- A message for a service with a name, as it is queued and read. -/
theorem accepted_message_is_read_named : ∃ body,
    (loneWorld.send 0 "a" (.str "é")).2 = .ok () ∧
    (loneWorld.send 0 "a" (.str "é")).1.streams.get? 0 =
      some { loneStream with outbox := [Frame.wrap body] } ∧
    Frame.leading (Frame.wrap body) = ([⟨"a", .str "é"⟩], some .empty) := by
  have remark : (⟨"a", .str "é"⟩ : Envelope) ∈ remarks := .tail _ (.head _)
  have plain := remarks_plain _ remark
  have accepted := send_loneWorld (remarks_small _ remark)
  obtain ⟨-, body, queued, read, -⟩ := accepted_message_is_read (w := loneWorld) (c := 0) rfl rfl rfl
    ⟨plain.canonical, plain.exact, plain.height⟩ accepted
  exact ⟨body, accepted, queued, read⟩

def unnamed : Envelope := ⟨"", .null⟩

/-- A message for the service without a name is accepted, and its frame stops a reader for which nothing
may be out of order. -/
theorem unnamed_message_aborts : ∃ frame, (loneWorld.send 0 "" .null).2 = .ok () ∧
    (loneWorld.send 0 "" .null).1.streams.get? 0 = some { loneStream with outbox := [frame] } ∧
    (drain 3 [.readNext 0] (loneWorld.feed 0 frame)).aborted.isSome = true := by
  have small : unnamed.text.toUTF8.size ≤ maxFrameSize := by
    simp only [Envelope.text_eq_ofList]
    decide +kernel
  have accepted := send_loneWorld small
  have writable : unnamed.Writable := ⟨rfl, rfl, by decide⟩
  obtain ⟨-, queued⟩ := queued_of_send (m := unnamed) (w := loneWorld) (c := 0) rfl rfl rfl accepted
  refine ⟨_, accepted, queued, ?_⟩
  have there := listening_loneWorld.feed (Frame.wrap unnamed.text.toUTF8)
  exact there.aborts writable small rfl rfl 0

end World

end Switchboard
