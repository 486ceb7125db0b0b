import Switchboard.Proofs.Reader
import Switchboard.Proofs.Reading
import Switchboard.Proofs.WireFormat

/-!
# Frames arrive as they were sent

However a run of frames is cut into pieces on its way, the reader of a stream hands on each message once
and in order, and reports the end of the stream.
-/

namespace Switchboard

theorem fromUTF8?_toUTF8 (s : String) : String.fromUTF8? s.toUTF8 = some s := by
  unfold String.fromUTF8?
  rw [dif_pos (show s.toUTF8.IsValidUTF8 from s.isValidUTF8)]
  rfl

namespace Envelope

/-- Whether a message survives being written and read: a service with a name and a payload without
doubles, with fields in order and integers in range, that does not nest too deep. -/
structure Plain (m : Envelope) : Prop where
  service : m.service.isEmpty = false
  canonical : m.data.isCanonical = true
  exact : m.data.exact = true
  height : m.data.height + 1 < Json.depthLimit

/-- Everything that `Plain` asks for but a name of the service. -/
structure Writable (m : Envelope) : Prop where
  canonical : m.data.isCanonical = true
  exact : m.data.exact = true
  height : m.data.height + 1 < Json.depthLimit

/-- A service without a name is refused. -/
theorem ofJson?_toJson (m : Envelope) : ofJson? m.toJson = if m.service.isEmpty then none else some m := by
  rw [toJson, Json.object_pair_of_gt (by decide)]
  simp [ofJson?, Message.pair?, List.lookup_cons]

theorem Writable.decode?_text {m : Envelope} (h : m.Writable) :
    Frame.decode? m.text.toUTF8 = if m.service.isEmpty then none else some m := by
  have exact : Json.exact (.obj [("type", .str m.service), ("data", m.data)]) = true := by
    simp [Json.exact, Json.exactFields, h.exact]
  have flat : Json.height (.obj [("type", .str m.service), ("data", m.data)]) < Json.depthLimit := by
    have := h.height
    simp only [Json.height, Json.heightFields]
    omega
  have read : Json.parse m.text = .ok m.toJson := by
    rw [text, Json.parse_render exact flat]
    simp only [Json.reread, Json.rereadFields, Json.reread_of_isCanonical _ h.canonical]
    rfl
  simp only [Frame.decode?, fromUTF8?_toUTF8, read]
  exact ofJson?_toJson m

theorem Plain.decode?_text {m : Envelope} (h : m.Plain) : Frame.decode? m.text.toUTF8 = some m := by
  rw [Writable.decode?_text ⟨h.canonical, h.exact, h.height⟩, h.service]
  rfl

theorem text_eq_ofList (m : Envelope) : m.text = String.ofList
    (Json.spell .compact 0 (.obj [("type", .str m.service), ("data", m.data)])) := by
  rw [← Json.toList_render, String.ofList_toList]
  rfl

end Envelope

namespace Frame

theorem size_lengthBytes (n : Nat) : (lengthBytes n).size = lengthSize := rfl

theorem lengthOf_lengthBytes {n : Nat} (h : n ≤ maxFrameSize) : lengthOf (lengthBytes n) = n := by
  have bytes : lengthOf (lengthBytes n) = (n / 2 ^ 24).toUInt8.toNat * 2 ^ 24 +
      (n / 2 ^ 16).toUInt8.toNat * 2 ^ 16 + (n / 2 ^ 8).toUInt8.toNat * 2 ^ 8 + n.toUInt8.toNat := rfl
  unfold maxFrameSize at h
  simp only [bytes, Nat.toUInt8_eq, UInt8.toNat_ofNat']
  omega

theorem size_wrap (body : ByteArray) : (wrap body).size = lengthSize + body.size := by
  rw [wrap, ByteArray.size_append, size_lengthBytes]

theorem cut_wrap {body : ByteArray} (h : body.size ≤ maxFrameSize) (rest : ByteArray) :
    cut (wrap body ++ rest) = .frame body rest :=
  cut_parts (size_lengthBytes _) (lengthOf_lengthBytes h) h rest

theorem wrap_of_encode : ∀ {messages : List Envelope} {frames : List ByteArray},
    messages.map (fun m => encode m.service m.data) = frames.map .ok →
    frames = messages.map (fun m => wrap m.text.toUTF8) ∧
      ∀ m ∈ messages, m.text.toUTF8.size ≤ maxFrameSize
  | [], [], _ => ⟨rfl, fun _ h => absurd h List.not_mem_nil⟩
  | [], _ :: _, h => by cases h
  | _ :: _, [], h => by cases h
  | m :: messages, _ :: frames, h => by
    rw [List.map_cons, List.map_cons, List.cons.injEq] at h
    obtain ⟨rest, small⟩ := wrap_of_encode h.2
    have first := h.1
    unfold encode at first
    simp only at first
    split at first
    · cases first
    · next fits =>
      refine ⟨?_, fun m' hm => ?_⟩
      · rw [List.map_cons, ← rest, ← Except.ok.inj first]
      · rcases List.mem_cons.mp hm with rfl | hm
        · exact Nat.le_of_not_lt fits
        · exact small m' hm

/-- Frames that hold messages are cut into these messages. -/
theorem leading_joined {messages : List Envelope} (plain : ∀ m ∈ messages, m.Plain)
    (small : ∀ m ∈ messages, m.text.toUTF8.size ≤ maxFrameSize) :
    leading (joined (messages.map fun m => wrap m.text.toUTF8)) = (messages, some .empty) := by
  induction messages with
  | nil => exact leading_short rfl
  | cons m messages ih =>
    rw [List.map_cons, joined_cons, leading_frame (cut_wrap (small m (.head _)) _),
      (plain m (.head _)).decode?_text, ih (fun m hm => plain m (.tail _ hm)) fun m hm => small m (.tail _ hm)]

end Frame

namespace World

def reportOf (label : String) (time : Nat) (m : Envelope) : Logged :=
  ⟨time, .delivered label m.service m.data⟩

section Observers

variable {w w' : World} {s : Nat} {t : Stream} {ch : Channel} {label : String} {ms messages : List Envelope}
  {observers : List (Nat × String × String)}

/-- Observers are told of messages, and do nothing about them. -/
structure Reported (label : String) (s : Nat) (t : Stream) (w : World) (ms : List Envelope) (w' : World) :
    Prop where
  channels : w'.channels = w.channels
  clock : w'.clock = w.clock
  going : w'.aborted = none
  events : w'.events = w.events ++ ms.map (reportOf label w.clock)
  stream : ∃ kept, w'.streams.get? s = some { t with fragment := kept }

theorem leads_deliver (channel : w.channels.get? t.channel = some ch) (going : w.aborted = none) {m : Envelope}
    (heard : ch.core.handler? m.service = some (.observer label m.service [])) :
    Leads 1 [.deliver t.channel m.service m.data] w [] (w.log (.delivered label m.service m.data)) := by
  refine .perform going ?_
  show w.deliver t.channel m.service m.data = _
  simp only [deliver, channel, Option.bind_some, heard]
  rfl

theorem leads_hooks (going : w.aborted = none) (observers : List (Nat × String × String)) :
    Leads observers.length (observers.map fun o => .runHook (.observer o.2.1 o.2.2 [])) w []
      { w with events := w.events ++ observers.map fun o => ⟨w.clock, .disposed o.2.1 o.2.2⟩ } := by
  induction observers generalizing w with
  | nil => exact ⟨0, Nat.le_refl 0, fun n rest => by simp⟩
  | cons o observers ih =>
    have first : Leads 1 [.runHook (.observer o.2.1 o.2.2 [])] w [] (w.log (.disposed o.2.1 o.2.2)) :=
      .perform going rfl
    have run := (first.append _).trans (ih (w := w.log (.disposed o.2.1 o.2.2)) going)
    rw [List.length_cons, Nat.add_comm]
    simpa [World.log] using run

variable (observers) in
/-- The end of an observed channel. -/
theorem leads_closeCore {c : Nat} (channel : w.channels.get? c = some ch) (isOpen : ch.core.disposed = false)
    (hooks : ch.core.hooks = observers.map fun o => (o.1, .observer o.2.1 o.2.2 [])) (going : w.aborted = none) :
    ∃ w', Leads (observers.length + 1) [.closeCore c] w [] w' ∧ w'.aborted = none ∧ w'.isOpen c = false ∧
      w'.streams = w.streams ∧
      w'.events = w.events ++ observers.map fun o => ⟨w.clock, .disposed o.2.1 o.2.2⟩ := by
  have shut : w.perform (.closeCore c) =
      (w.modifyChannel c fun _ => { ch.core with disposed := true, services := [], hooks := [] },
        observers.map fun o => .runHook (.observer o.2.1 o.2.2 [])) := by
    show w.closeCore c = _
    simp only [closeCore, channel, Option.bind_some, ChannelCore.dispose, isOpen, hooks]
    simp
  have run := (Leads.perform going shut).trans (leads_hooks (w := w.modifyChannel ..) going observers)
  refine ⟨_, run.mono (Nat.le_of_eq (Nat.add_comm ..)), going, ?_, rfl, rfl⟩
  simp [World.isOpen, modifyChannel, channel]

section

variable (channel : w.channels.get? t.channel = some ch)
  (heard : ∀ m ∈ messages, ch.core.handler? m.service = some (.observer label m.service []))
include channel heard

theorem Handles.reported (going : w.aborted = none)
    (stream : ∃ kept, w.streams.get? s = some { t with fragment := kept }) (handled : Handles s t 1 w ms w')
    (few : ms <+: messages) : Reported label s t w ms w' := by
  induction handled with
  | start => exact ⟨rfl, rfl, going, by simp, stream⟩
  | sift _ sifts ih =>
    obtain ⟨channels, clock, going, events, kept, here⟩ := ih few
    obtain ⟨_, _, _, rfl, -⟩ := sifts
    exact ⟨channels, clock, going, events, _, (Table.get?_modify_self ..).trans (congrArg _ here)⟩
  | @hand ms _ _ m _ done ih =>
    obtain ⟨channels, clock, going, events, here⟩ := ih ((List.prefix_append ..).trans few)
    have told := leads_deliver (t := t) (channels ▸ channel) going (heard m (few.subset (by simp)))
    obtain rfl := done.unique told
    refine ⟨channels, clock, going, ?_, here⟩
    show _ ++ _ = _
    rw [events, clock, List.map_append, List.append_assoc]
    rfl

theorem tolerant_of_observers (hooks : ch.core.hooks = observers.map fun o => (o.1, .observer o.2.1 o.2.2 []))
    (listening : Listening w s t ch false .empty) :
    Tolerant s t 1 (observers.length + 1) w messages := by
  obtain ⟨_, kept, stream, -⟩ := listening.stream
  have reported {ms : List Envelope} {w' : World} (handled : Handles s t 1 w ms w') (few : ms <+: messages) :=
    handled.reported channel heard listening.going ⟨kept, stream⟩ few
  refine ⟨fun ms m w' few handled => ?_, fun w' closed unread handled work => ?_⟩
  · have before := reported handled ((List.prefix_append ..).trans few)
    refine ⟨_, leads_deliver (t := t) (before.channels ▸ channel) before.going
      (heard m (few.subset (by simp))), ?_⟩
    rintro _ _ ⟨t', ch', there, same⟩
    exact ⟨t', ch', ⟨there.stream, there.channel, there.reads, there.isOpen, there.going⟩, same⟩
  · have before := reported handled (List.prefix_refl _)
    obtain ⟨w'', run, going, shut, streams, -⟩ :=
      leads_closeCore observers (before.channels ▸ channel) listening.isOpen hooks before.going
    obtain ⟨kept, here⟩ := before.stream
    exact ⟨w'', run, going, shut, { t with fragment := kept }, streams ▸ here, rfl⟩

end

end Observers

/-- Messages that can be encoded, cut into pieces anywhere, are delivered exactly as they are, in order;
then the end of the stream closes the channel and stops the reader. -/
theorem frames_delivered (w : World) (s n : Nat) (t : Stream) (ch : Channel) (label : String)
    (observers : List (Nat × String × String)) (messages : List Envelope) (frames chunks : List ByteArray)
    (listening : Listening w s t ch false .empty) (transport : ch.transport = .stream s)
    (hooks : ch.core.hooks = observers.map fun o => (o.1, .observer o.2.1 o.2.2 []))
    (heard : ∀ m ∈ messages, ch.core.handler? m.service = some (.observer label m.service []))
    (plain : ∀ m ∈ messages, m.Plain)
    (encoded : messages.map (fun m => Frame.encode m.service m.data) = frames.map .ok)
    (pieces : Frame.joined chunks = Frame.joined frames)
    (enough : 4 * messages.length + observers.length + 5 ≤ n) :
    let after := w.hearing n s t.incoming chunks
    let ended := drain n [.readNext s] (after.modifyPipe t.incoming Pipe.close)
    after.events = w.events ++ messages.map (reportOf label w.clock) ∧
    Listening after s t ch false .empty ∧
    ended.events = after.events ++ (observers.map fun o => ⟨w.clock, .disposed o.2.1 o.2.2⟩) ∧
    ended.isOpen t.channel = false ∧ (ended.streams.get? s).any (·.readerDone) = true := by
  obtain ⟨wrapped, small⟩ := Frame.wrap_of_encode encoded
  have whole : Frame.leading (Frame.joined chunks) = (messages, some .empty) := by
    rw [pieces, wrapped]
    exact Frame.leading_joined plain small
  have tolerant := tolerant_of_observers listening.channel heard hooks listening
  obtain ⟨_, kept, stream, -⟩ := listening.stream
  have reported {w' : World} (handled : Handles s t 1 w messages w') :=
    handled.reported listening.channel heard listening.going ⟨kept, stream⟩ (List.prefix_refl _)
  have heard := AtWork.hears (n := n) (by rwa [whole]) (by rw [whole]; nofun)
    (by rw [whole]; simp [effort]; omega) ⟨t, ch, listening, transport, rfl, rfl, rfl⟩ (rfl : Frame.joined chunks = _)
  rw [whole] at heard
  generalize w.hearing n s t.incoming chunks = after at *
  obtain ⟨rests, ends⟩ := heard
  cases rests with
  | waits handled work =>
    have now := reported handled
    obtain ⟨_, here⟩ := now.stream
    obtain ⟨t', _, still, -, incoming, -⟩ := work
    obtain ⟨pipe, _, here', held, same, left⟩ := still.stream
    have fragment := congrArg (·.map Stream.fragment) (here.symm.trans here')
    refine ⟨now.events, ⟨⟨pipe, _, here, incoming ▸ held, same, ?_⟩, now.channels ▸ listening.channel,
      listening.reads, listening.isOpen, now.going⟩, ?_⟩
    · exact (congrArg (· ++ pipe.held) (Option.some.inj fragment)).trans left
    · cases ends with
      | stopped handled work closes rest ended =>
        obtain ⟨_, _, _, rest⟩ := rest
        have then' := reported handled
        obtain ⟨_, run, -, -, -, events⟩ :=
          leads_closeCore _ (then'.channels ▸ listening.channel) listening.isOpen hooks then'.going
        obtain rfl := closes.unique run
        obtain ⟨_, stream, done⟩ := ended.reader
        refine ⟨(congrArg World.events rest).trans (events.trans ?_), ended.closed, by rw [stream]; exact done⟩
        rw [then'.events, then'.clock, now.events]

def loneChannel : Channel where
  label := "c"
  transport := .stream 0
  core := {
    services := [("a", .observer "c" "a" []), ("b", .observer "c" "b" [])]
    hooks := [(0, .observer "c" "end" [])]
    nextKey := 1 }

def loneStream : Stream := { channel := 0, policy := .abort, incoming := 0, outgoing := 1 }

def loneWorld : World where
  script _ := .ofOutcome (.ok .null)
  channels := ⟨#[loneChannel]⟩
  streams := ⟨#[loneStream]⟩
  pipes := ⟨#[{ capacity := 64 }, { capacity := 64 }]⟩

theorem listening_loneWorld : Listening loneWorld 0 loneStream loneChannel false .empty :=
  ⟨⟨_, .empty, rfl, rfl, rfl, rfl⟩, rfl, ⟨rfl, rfl, rfl⟩, rfl, rfl⟩

def remarks : List Envelope := [⟨"b", .obj [("x", .arr [.null, .int (-7)])]⟩, ⟨"a", .str "é"⟩]

theorem remarks_small : ∀ m ∈ remarks, m.text.toUTF8.size ≤ maxFrameSize := by
  simp only [Envelope.text_eq_ofList]
  decide +kernel

theorem remarks_plain : ∀ m ∈ remarks, m.Plain := by
  intro m hm
  rcases List.mem_cons.mp hm with rfl | hm
  · exact ⟨by decide, by decide +kernel, by decide, by decide⟩
  · obtain rfl := List.mem_singleton.mp hm
    exact ⟨by decide, by decide +kernel, by decide, by decide⟩

def halves (bytes : ByteArray) : List ByteArray := [bytes.extract 0 3, bytes.extract 3 bytes.size]

theorem joined_halves {bytes : ByteArray} (long : 3 ≤ bytes.size) : Frame.joined (halves bytes) = bytes := by
  rw [halves, Frame.joined_cons, Frame.joined_cons, Frame.joined_nil, ByteArray.append_empty,
    ← ByteArray.extract_eq_extract_append_extract 3 (Nat.zero_le 3) long, ByteArray.extract_zero_size]

theorem remarks_long (rest : ByteArray) :
    3 ≤ (Frame.joined (remarks.map fun m => Frame.wrap m.text.toUTF8) ++ rest).size := by
  show 3 ≤ ((Frame.wrap _ ++ Frame.joined _) ++ rest).size
  rw [ByteArray.size_append, ByteArray.size_append, Frame.size_wrap, Frame.lengthSize]
  omega

/-- Two messages, cut in the middle of the first length, as the reader hands them on. -/
theorem frames_delivered_cut :
    let bytes := Frame.joined (remarks.map fun m => Frame.wrap m.text.toUTF8)
    (loneWorld.hearing 100 0 0 [bytes.extract 0 3, bytes.extract 3 bytes.size]).events =
      [⟨0, .delivered "c" "b" (.obj [("x", .arr [.null, .int (-7)])])⟩,
        ⟨0, .delivered "c" "a" (.str "é")⟩] := by
  intro bytes
  have long : 3 ≤ bytes.size := by simpa only [ByteArray.append_empty] using remarks_long .empty
  have encoded : remarks.map (fun m => Frame.encode m.service m.data) =
      (remarks.map fun m => Frame.wrap m.text.toUTF8).map .ok := by
    rw [List.map_map]
    refine List.map_congr_left fun m hm => ?_
    exact if_neg (Nat.not_lt.mpr (remarks_small m hm))
  have heard : ∀ m ∈ remarks,
      loneChannel.core.handler? m.service = some (.observer "c" m.service []) := by
    intro m hm
    rcases List.mem_cons.mp hm with rfl | hm
    · rfl
    · obtain rfl := List.mem_singleton.mp hm
      rfl
  exact (frames_delivered loneWorld 0 100 loneStream loneChannel "c" [(0, "c", "end")] remarks _
    [bytes.extract 0 3, bytes.extract 3 bytes.size] listening_loneWorld rfl rfl heard remarks_plain encoded
    (joined_halves long)
    (by decide)).1

/-- The messages at the front of any bytes, cut into pieces anywhere, are handed on in order, whatever is done
about them, as long as nobody closes the channel; then the channel is closed once, and no later byte is looked
at. -/
theorem leading_messages_delivered (w : World) (s n cost ending : Nat) (t : Stream) (chunks : List ByteArray)
    (work : AtWork w s t false .empty) (policy : t.policy = .disposeChannel)
    (tolerant : Tolerant s t cost ending w (Frame.leading (Frame.joined chunks)).1)
    (enough : effort cost ending (Frame.leading (Frame.joined chunks)) ≤ n) :
    let after := w.hearing n s t.incoming chunks
    let ended := drain n [.readNext s] (after.modifyPipe t.incoming Pipe.close)
    Reader s t cost ending w (Frame.leading (Frame.joined chunks))
        (Frame.leading (Frame.joined chunks)).2.isNone after ∧
      Reader s t cost ending w (Frame.leading (Frame.joined chunks)) true ended :=
  work.hears tolerant (fun _ => policy) enough rfl

def chattyChannel : Channel :=
  { loneChannel with core := { loneChannel.core with
      services := [("a", .observer "c" "a" []), ("b", .pings 0)] } }

def chattyStream : Stream := { loneStream with policy := .disposeChannel }

/-- A world in which one message is answered on the channel it came on. -/
def chattyWorld : World :=
  { loneWorld with
    channels := ⟨#[chattyChannel]⟩
    streams := ⟨#[chattyStream]⟩
    responders := ⟨#[{ label := "r", channel := 0, channelId := 7, listener := some [] }]⟩ }

def garbage : ByteArray := Frame.wrap ⟨#[255]⟩

theorem leading_garbage : Frame.leading garbage = ([], none) := by
  have cut : Frame.cut garbage = .frame ⟨#[255]⟩ .empty := by
    exact Frame.cut_wrap (by decide) .empty
  have undecodable : Frame.decode? ⟨#[255]⟩ = none := by decide +kernel
  rw [Frame.leading_frame cut, undecodable]

/-- What is reported of a message in a chatty world. -/
def remarkOf (m : Envelope) : Logged := ⟨0, if m.service = "b" then .pinged "r" else .delivered "c" "a" m.data⟩

structure Chatty (ms : List Envelope) (w : World) : Prop where
  channel : w.channels.get? 0 = some chattyChannel
  responder : w.responders.get? 0 = some { label := "r", channel := 0, channelId := 7, listener := some [] }
  clock : w.clock = 0
  going : w.aborted = none
  events : w.events = ms.map remarkOf
  stream : ∃ t, w.streams.get? 0 = some t ∧ t.channel = 0

theorem Chatty.leads {ms : List Envelope} {m : Envelope} {w : World} (h : Chatty ms w) (hm : m ∈ remarks) :
    ∃ box q, Leads 1 [.deliver 0 m.service m.data] w [] { w with
      streams := w.streams.modify 0 fun t => { t with outbox := t.outbox ++ box }, queue := q,
      events := w.events ++ [remarkOf m] } := by
  have same : w.streams.modify 0 (fun t => { t with outbox := t.outbox ++ [] }) = w.streams :=
    Table.modify_eq_self fun t _ => by rw [List.append_nil]
  have note (e : Event) : w.events ++ [⟨0, e⟩] = (w.log e).events := by rw [← h.clock]; rfl
  rcases List.mem_cons.mp hm with rfl | hm
  · obtain ⟨box, q, sent⟩ : ∃ box q, w.sendQuietly 0 Service.pong (.obj [(Key.channelId, .ofNat 7)]) =
        { w with streams := w.streams.modify 0 fun t => { t with outbox := t.outbox ++ box }, queue := q } := by
      simp only [sendQuietly, send, h.channel, chattyChannel, loneChannel, Bool.false_eq_true, if_false]
      split
      · exact ⟨[], w.queue, by rw [same]⟩
      · exact ⟨_, _, wake_eq ..⟩
    have isOpen : w.isOpen 0 = true := by
      unfold World.isOpen
      rw [h.channel]
      rfl
    refine ⟨box, q, .perform h.going ?_⟩
    show w.deliver 0 "b" _ = _
    unfold deliver
    rw [h.channel]
    show w.onPing 0 = _
    unfold onPing
    rw [h.responder]
    show (if !true || false || !w.isOpen 0 then (w, []) else
      ((w.sendQuietly 0 Service.pong (.obj [(Key.channelId, .ofNat 7)])).log (.pinged "r"), [])) = _
    rw [isOpen, sent, remarkOf, note]
    rfl
  · obtain rfl := List.mem_singleton.mp hm
    refine ⟨[], w.queue, .perform h.going ?_⟩
    show w.deliver 0 "a" _ = _
    unfold deliver
    rw [h.channel, same, remarkOf, note]
    rfl

theorem Chatty.of_handles {ms : List Envelope} {w : World} (handled : Handles 0 chattyStream 1 chattyWorld ms w)
    (few : ms <+: remarks) : Chatty ms w := by
  induction handled with
  | start => exact ⟨rfl, rfl, rfl, rfl, rfl, chattyStream, rfl, rfl⟩
  | sift _ sifts ih =>
    obtain ⟨channel, responder, clock, going, events, t, stream, same⟩ := ih few
    obtain ⟨_, _, _, rfl, -⟩ := sifts
    exact ⟨channel, responder, clock, going, events, _,
      (Table.get?_modify_self ..).trans (congrArg _ stream), same⟩
  | @hand ms _ _ m _ done ih =>
    have before := ih ((List.prefix_append ..).trans few)
    obtain ⟨_, _, run⟩ := before.leads (m := m) (few.subset (by simp))
    obtain rfl := done.unique run
    obtain ⟨channel, responder, clock, going, events, t, stream, same⟩ := before
    refine ⟨channel, responder, clock, going, ?_, _,
      (Table.get?_modify_self ..).trans (congrArg _ stream), same⟩
    rw [List.map_append, ← events]
    rfl

theorem tolerant_chattyWorld : Tolerant 0 chattyStream 1 2 chattyWorld remarks := by
  refine ⟨fun ms m w few handled => ?_, fun w _ _ handled _ => ?_⟩
  · obtain ⟨box, q, run⟩ := (Chatty.of_handles handled ((List.prefix_append ..).trans few)).leads (m := m)
      (few.subset (by simp))
    refine ⟨_, run, ?_⟩
    rintro _ _ ⟨t, ch, ⟨⟨pipe, kept, stream, held⟩, channel, reads, isOpen, going⟩, same⟩
    refine ⟨{ t with outbox := t.outbox ++ box }, ch, ⟨⟨pipe, kept, ?_, held⟩, channel, reads, isOpen, going⟩, same⟩
    rw [Table.get?_modify_self, stream]
    rfl
  · obtain ⟨channel, -, -, going, -, t, stream, same⟩ := Chatty.of_handles handled (List.prefix_refl _)
    obtain ⟨w', run, going', shut, streams, -⟩ :=
      leads_closeCore [(0, "c", "end")] channel rfl rfl going
    exact ⟨w', run, going', shut, t, streams ▸ stream, same⟩

/-- Two messages, one of which is answered, and a body that is no text, cut in the middle of the first length:
the messages are delivered, and then the channel is closed. -/
theorem leading_messages_delivered_broken :
    let bytes := Frame.joined (remarks.map fun m => Frame.wrap m.text.toUTF8) ++ garbage
    let after := chattyWorld.hearing 100 0 0 (halves bytes)
    after.events = [⟨0, .pinged "r"⟩, ⟨0, .delivered "c" "a" (.str "é")⟩, ⟨0, .disposed "c" "end"⟩] ∧
      after.isOpen 0 = false := by
  intro bytes after
  have whole : Frame.leading (Frame.joined (halves bytes)) = (remarks, none) := by
    rw [joined_halves (remarks_long garbage), Frame.leading_append,
      Frame.leading_joined remarks_plain remarks_small]
    simp only [ByteArray.empty_append, leading_garbage, List.append_nil]
  have work : AtWork chattyWorld 0 chattyStream false .empty :=
    ⟨chattyStream, chattyChannel, ⟨⟨_, .empty, rfl, rfl, rfl, rfl⟩, rfl, ⟨rfl, rfl, rfl⟩, rfl, rfl⟩, rfl, rfl, rfl, rfl⟩
  have rests := (leading_messages_delivered chattyWorld 0 100 1 2 chattyStream (halves bytes) work rfl
    (by rw [whole]; exact tolerant_chattyWorld) (by rw [whole]; decide)).1
  rw [whole] at rests
  cases rests with
  | stopped handled work closes rest ended =>
    have before := Chatty.of_handles handled (List.prefix_refl _)
    obtain ⟨_, run, -, -, -, events⟩ :=
      leads_closeCore [(0, "c", "end")] before.channel rfl rfl before.going
    obtain rfl := closes.unique run
    obtain ⟨_, _, _, rest⟩ := rest
    refine ⟨(congrArg World.events rest).trans (events.trans ?_), ended.closed⟩
    rw [before.events, before.clock]
    rfl

end World

end Switchboard
