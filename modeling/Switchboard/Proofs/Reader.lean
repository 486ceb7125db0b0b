import Mathlib.Data.List.Basic
import Switchboard.Proofs.Effects
import Switchboard.World.Run

/-!
# What a reader makes of any bytes

`Frame.leading` cuts a run of bytes into frames as long as they hold messages. The reader of a stream
delivers exactly these messages, however the bytes are cut into pieces on their way. The channel is
closed once: at the first frame that holds no message, at a length over the limit, or where the stream
ends, and what comes after that is not looked at.

The invariant is `World.Listening`: what has come in and has not been taken as a frame is kept, partly
in the stream and partly in the pipe. One look takes one frame off (`Listening.takes`), finds that the
next one is not whole yet (`Listening.waits`), or closes the channel (`Listening.breaks`).
-/

namespace Switchboard

namespace Frame

theorem lengthOf_append {head : ByteArray} (h : lengthSize ≤ head.size) (rest : ByteArray) :
    lengthOf (head ++ rest) = lengthOf head := by
  have byte : ∀ i, i < lengthSize → (head ++ rest)[i]? = head[i]? := by
    intro i hi
    have inside : i < head.size := Nat.lt_of_lt_of_le hi h
    rw [getElem?_pos head i inside, getElem?_pos (head ++ rest) i (by simp; omega),
      ByteArray.getElem_append_left inside]
  unfold lengthOf
  rw [byte 0 (by decide), byte 1 (by decide), byte 2 (by decide), byte 3 (by decide)]

def joined (pieces : List ByteArray) : ByteArray := pieces.foldr (· ++ ·) .empty

@[simp]
theorem joined_nil : joined [] = .empty := rfl

@[simp]
theorem joined_cons (b : ByteArray) (bs : List ByteArray) : joined (b :: bs) = b ++ joined bs := rfl

variable {bytes body rest : ByteArray}

theorem cut_parts {head : ByteArray} (four : head.size = lengthSize) (length : lengthOf head = body.size)
    (small : body.size ≤ maxFrameSize) (rest : ByteArray) :
    cut (head ++ body ++ rest) = .frame body rest := by
  have size : (head ++ body ++ rest).size = lengthSize + body.size + rest.size := by
    rw [ByteArray.size_append, ByteArray.size_append, four]
  have stands : lengthOf (head ++ body ++ rest) = body.size := by
    rw [ByteArray.append_assoc, lengthOf_append (Nat.le_of_eq four.symm), length]
  unfold cut
  simp only [size, stands]
  rw [if_neg (by omega), if_neg (by omega), if_neg (by omega)]
  congr 1
  · rw [ByteArray.append_assoc]
    exact (ByteArray.extract_append_size_add' (i := 0) four.symm).trans (ByteArray.extract_append_eq_left rfl)
  · exact ByteArray.extract_append_eq_right (by rw [ByteArray.size_append, four])
      (by rw [ByteArray.size_append, four])

theorem parts_of_cut (h : cut bytes = .frame body rest) : ∃ head, head.size = lengthSize ∧
    lengthOf head = body.size ∧ body.size ≤ maxFrameSize ∧ bytes = head ++ body ++ rest := by
  have parts : lengthOf bytes ≤ maxFrameSize ∧ lengthSize + lengthOf bytes ≤ bytes.size ∧
      body = bytes.extract lengthSize (lengthSize + lengthOf bytes) ∧
      rest = bytes.extract (lengthSize + lengthOf bytes) bytes.size := by
    simp only [cut] at h
    split at h
    · cases h
    · split at h
      · cases h
      · split at h
        · cases h
        · cases h
          exact ⟨by omega, by omega, rfl, rfl⟩
  obtain ⟨small, fits, rfl, rfl⟩ := parts
  have whole : bytes = bytes.extract 0 lengthSize ++ bytes.extract lengthSize bytes.size := by
    conv_lhs => rw [← ByteArray.extract_zero_size (b := bytes),
      ByteArray.extract_eq_extract_append_extract lengthSize (Nat.zero_le _) (by omega)]
  have four : (bytes.extract 0 lengthSize).size = lengthSize := by
    rw [ByteArray.size_extract]
    omega
  have length : lengthOf (bytes.extract 0 lengthSize) = lengthOf bytes := by
    conv_rhs => rw [whole]
    rw [lengthOf_append (Nat.le_of_eq four.symm)]
  have size : (bytes.extract lengthSize (lengthSize + lengthOf bytes)).size = lengthOf bytes := by
    rw [ByteArray.size_extract]
    omega
  refine ⟨bytes.extract 0 lengthSize, four, by rw [size, length], by rw [size]; exact small, ?_⟩
  conv_lhs => rw [whole]
  rw [ByteArray.append_assoc, ← ByteArray.extract_eq_extract_append_extract _ (by omega) fits]

theorem size_of_cut (h : cut bytes = .frame body rest) : rest.size + lengthSize ≤ bytes.size := by
  obtain ⟨_, _, -, -, rfl⟩ := parts_of_cut h
  simp only [ByteArray.size_append]
  omega

/-- The messages at the front of a run of bytes, and what is left behind them: a piece of a frame, or
nothing that could become a message. -/
def leading (bytes : ByteArray) : List Envelope × Option ByteArray :=
  match _ : cut bytes with
  | .short => ([], some bytes)
  | .tooLong _ => ([], none)
  | .frame body rest =>
    match decode? body with
    | none => ([], none)
    | some m => (m :: (leading rest).1, (leading rest).2)
termination_by bytes.size
decreasing_by
  all_goals
    have := size_of_cut ‹_›
    simp only [lengthSize] at this
    omega

theorem leading_short (h : cut bytes = .short) : leading bytes = ([], some bytes) := by
  unfold leading
  split <;> simp_all

theorem leading_tooLong (h : cut bytes = .tooLong rest) :
    leading bytes = ([], none) := by
  unfold leading
  split <;> simp_all

theorem leading_frame (h : cut bytes = .frame body rest) :
    leading bytes = match decode? body with
      | none => ([], none)
      | some m => (m :: (leading rest).1, (leading rest).2) := by
  rw [leading]
  split <;> simp_all

theorem cut_append_frame (h : cut bytes = .frame body rest) (more : ByteArray) :
    cut (bytes ++ more) = .frame body (rest ++ more) := by
  obtain ⟨_, four, length, small, rfl⟩ := parts_of_cut h
  rw [ByteArray.append_assoc]
  exact cut_parts four length small _

theorem cut_append_tooLong (h : cut bytes = .tooLong rest) (more : ByteArray) :
    ∃ rest', cut (bytes ++ more) = .tooLong rest' := by
  simp only [cut] at h
  split at h
  · cases h
  · next four =>
    split at h
    · next long =>
      refine ⟨(bytes ++ more).extract lengthSize (bytes ++ more).size, ?_⟩
      unfold cut
      rw [lengthOf_append (Nat.le_of_not_lt four), if_neg (by rw [ByteArray.size_append]; omega)]
      exact if_pos long
    · split at h <;> cases h

/-- More bytes go on where the first ones left off. -/
theorem leading_append (bytes more : ByteArray) :
    leading (bytes ++ more) = match leading bytes with
      | (ms, some piece) => (ms ++ (leading (piece ++ more)).1, (leading (piece ++ more)).2)
      | (ms, none) => (ms, none) := by
  fun_induction leading bytes with
  | case1 bytes _ => rfl
  | case2 bytes rest long =>
    obtain ⟨_, long'⟩ := cut_append_tooLong long more
    rw [leading_tooLong long']
  | case3 bytes body rest frame broken => rw [leading_frame (cut_append_frame frame more), broken]
  | case4 bytes body rest frame _ decoded ih =>
    rw [leading_frame (cut_append_frame frame more), decoded]
    rw [ih]
    obtain ⟨ms, _ | piece⟩ := leading rest <;> rfl

theorem leading_prefix (bytes more : ByteArray) : (leading bytes).1 <+: (leading (bytes ++ more)).1 ∧
    ((leading bytes).2 = none → leading (bytes ++ more) = leading bytes) := by
  rw [leading_append]
  rcases leading bytes with ⟨ms, _ | piece⟩
  · exact ⟨List.prefix_refl ms, fun _ => rfl⟩
  · exact ⟨List.prefix_append .., nofun⟩

end Frame

namespace World

theorem wakePipe_eq (p : Nat) (w : World) : ∃ q, w.wakePipe p = { w with queue := q } := by
  have fold : ∀ {α : Type} (l : List α) (cond : α → Prop) [DecidablePred cond] (source : α → Source)
      (acc : World), (∃ q, acc = { w with queue := q }) →
      ∃ q, l.foldl (fun acc e => if cond e then wake (source e) acc else acc) acc =
        { w with queue := q } := by
    intro α l cond _ source
    induction l with
    | nil => exact fun _ h => h
    | cons e l ih =>
      rintro acc ⟨q, rfl⟩
      refine ih _ ?_
      dsimp only
      split
      · exact ⟨_, wake_eq ..⟩
      · exact ⟨q, rfl⟩
  exact fold _ _ _ _ (fold _ _ _ w ⟨w.queue, rfl⟩)

/-! ## Carrying out actions -/

theorem drain_nil (n : Nat) (w : World) : drain n [] w = w := by cases n <;> rfl

theorem drain_step {w w' : World} (action : Action) {more : List Action} (going : w.aborted = none)
    (did : w.perform action = (w', more)) (n : Nat) (rest : List Action) :
    drain (n + 1) (action :: rest) w = drain n (more ++ rest) w' := by
  rw [drain, going, did]
  rfl

/-- To carry out `as` before anything else takes at most `cost` steps until only `bs` is left of it. -/
def Leads (cost : Nat) (as : List Action) (w : World) (bs : List Action) (w' : World) : Prop :=
  ∃ j ≤ cost, ∀ n rest, drain (n + j) (as ++ rest) w = drain n (bs ++ rest) w'

section Leads

variable {a b : Nat} {as bs cs : List Action} {w w₁ w₂ : World}

theorem Leads.trans (h : Leads a as w bs w₁) (h' : Leads b bs w₁ cs w₂) : Leads (a + b) as w cs w₂ := by
  obtain ⟨i, hi, first⟩ := h
  obtain ⟨j, hj, second⟩ := h'
  refine ⟨j + i, by omega, fun n rest => ?_⟩
  rw [← Nat.add_assoc, first, second]

theorem Leads.append (h : Leads a as w bs w₁) (cs : List Action) : Leads a (as ++ cs) w (bs ++ cs) w₁ := by
  obtain ⟨i, hi, run⟩ := h
  refine ⟨i, hi, fun n rest => ?_⟩
  rw [List.append_assoc, run, List.append_assoc]

theorem Leads.mono (h : Leads a as w bs w₁) (le : a ≤ b) : Leads b as w bs w₁ := by
  obtain ⟨i, hi, run⟩ := h
  exact ⟨i, Nat.le_trans hi le, run⟩

theorem Leads.perform {x : Action} (going : w.aborted = none) (did : w.perform x = (w₁, bs)) :
    Leads 1 [x] w bs w₁ :=
  ⟨1, Nat.le_refl 1, drain_step x going did⟩

theorem Leads.drain_eq (h : Leads a as w [] w₁) {n : Nat} (enough : a ≤ n) : drain n as w = w₁ := by
  obtain ⟨i, hi, run⟩ := h
  have ran := run (n - i) []
  rwa [Nat.sub_add_cancel (Nat.le_trans hi enough), List.append_nil, List.append_nil, drain_nil] at ran

theorem Leads.unique (h : Leads a as w [] w₁) (h' : Leads b as w [] w₂) : w₁ = w₂ :=
  (h.drain_eq (Nat.le_max_left a b)).symm.trans (h'.drain_eq (Nat.le_max_right a b))

end Leads

/-! ## The reader at work -/

/-- The reader of stream `s` is at work: the stream is `t` up to the bytes it keeps, its channel is `ch`,
and `unread` has come in and has not been taken as a frame. -/
structure Listening (w : World) (s : Nat) (t : Stream) (ch : Channel) (closed : Bool)
    (unread : ByteArray) : Prop where
  stream : ∃ pipe kept, w.streams.get? s = some { t with fragment := kept } ∧
    w.pipes.get? t.incoming = some pipe ∧ pipe.closed = closed ∧ kept ++ pipe.held = unread
  channel : w.channels.get? t.channel = some ch
  reads : t.readerDone = false ∧ t.cancelled = false ∧ t.orphaned = false
  isOpen : ch.core.disposed = false
  going : w.aborted = none

/-- What a reader changes by itself: its pipe, the bytes its stream keeps, and who is to go on. -/
def Sifts (s p : Nat) (w w' : World) : Prop :=
  ∃ (g : ByteArray → ByteArray) (ps : Table Pipe) (q : List Nat), w' = { w with
    streams := w.streams.modify s fun t => { t with fragment := g t.fragment }, pipes := ps, queue := q } ∧
    ∀ i, i ≠ p → ps.get? i = w.pipes.get? i

theorem Sifts.modifyPipe (s p : Nat) (w : World) (f : Pipe → Pipe) : Sifts s p w (w.modifyPipe p f) := by
  refine ⟨id, w.pipes.modify p f, w.queue, ?_, fun i hi => Table.get?_modify_of_ne (Ne.symm hi) ..⟩
  have same : w.streams.modify s (fun t => { t with fragment := id t.fragment }) = w.streams :=
    Table.modify_eq_self fun _ _ => rfl
  rw [same]
  rfl

variable {w w' : World} {s : Nat} {t : Stream} {ch : Channel} {closed : Bool} {unread : ByteArray}

theorem Listening.readNext_eq (h : Listening w s t ch closed unread) :
    ∃ keeping : ByteArray → World,
      (∀ kept, Listening (keeping kept) s t ch closed kept ∧ Sifts s t.incoming w (keeping kept)) ∧
      w.readNext s =
        match Frame.cut unread with
        | .frame body rest => (keeping rest, [.frame s body, .readOn s])
        | .tooLong rest => (keeping rest, [.closeChannel t.channel, .finishReader s])
        | .short =>
          (keeping unread, if closed then [.closeChannel t.channel, .finishReader s] else []) := by
  obtain ⟨pipe, kept, stream, held, rfl, rfl⟩ := h.stream
  obtain ⟨readerDone, cancelled, orphaned⟩ := h.reads
  obtain ⟨ps, q, eq, emptied, others⟩ : ∃ ps q, (if pipe.held.isEmpty then w
      else (w.modifyPipe t.incoming fun _ => pipe.drain.1).wakePipe t.incoming) =
        { w with pipes := ps, queue := q } ∧ ps.get? t.incoming = some pipe.drain.1 ∧
          ∀ i, i ≠ t.incoming → ps.get? i = w.pipes.get? i := by
    split
    · next empty =>
      refine ⟨w.pipes, w.queue, rfl, ?_, fun _ _ => rfl⟩
      rw [held, Pipe.drain, ← ByteArray.size_eq_zero_iff.mp (by simpa [ByteArray.isEmpty] using empty)]
    · obtain ⟨q, eq⟩ := wakePipe_eq t.incoming (w.modifyPipe t.incoming fun _ => pipe.drain.1)
      exact ⟨w.pipes.modify t.incoming fun _ => pipe.drain.1, q, eq,
        by rw [Table.get?_modify_self, held]; rfl, fun i hi => Table.get?_modify_of_ne (Ne.symm hi) ..⟩
  refine ⟨fun rest => modifyStream s (fun t => { t with fragment := rest })
    { w with pipes := ps, queue := q }, fun rest => ⟨?_, fun _ => rest, ps, q, rfl, others⟩, ?_⟩
  · refine ⟨⟨pipe.drain.1, rest, ?_, emptied, rfl, ByteArray.append_empty⟩, h.channel, h.reads, h.isOpen,
      h.going⟩
    show (w.streams.modify s _).get? s = _
    rw [Table.get?_modify_self, stream]
    rfl
  · unfold readNext
    simp only [stream, held, readerDone, cancelled, orphaned, Bool.false_eq_true, if_false]
    rw [← eq]
    simp only [Pipe.drain]
    cases Frame.cut (kept ++ pipe.held) with
    | frame | tooLong => rfl
    | short => simp only; split <;> rfl

theorem Listening.modifyPipe (h : Listening w s t ch closed unread) {f : Pipe → Pipe} {shut : Bool}
    {more : ByteArray} (grows : ∀ pipe : Pipe, (f pipe).held = pipe.held ++ more)
    (shuts : ∀ pipe : Pipe, pipe.closed = closed → (f pipe).closed = shut) :
    Listening (w.modifyPipe t.incoming f) s t ch shut (unread ++ more) := by
  obtain ⟨pipe, kept, stream, held, same, rfl⟩ := h.stream
  refine ⟨⟨f pipe, kept, stream, ?_, shuts pipe same, ?_⟩, h.channel, h.reads, h.isOpen, h.going⟩
  · show (w.pipes.modify t.incoming _).get? t.incoming = _
    rw [Table.get?_modify_self, held]
    rfl
  · rw [grows, ByteArray.append_assoc]

def feed (p : Nat) (bytes : ByteArray) (w : World) : World :=
  w.modifyPipe p fun pipe => { pipe with held := pipe.held ++ bytes }

theorem Listening.feed (h : Listening w s t ch closed unread) (bytes : ByteArray) :
    Listening (w.feed t.incoming bytes) s t ch closed (unread ++ bytes) :=
  h.modifyPipe (fun _ => rfl) fun _ same => same

/-- Let bytes come in piece by piece, the reader going on each time as far as it can. -/
def hearing (n s p : Nat) (chunks : List ByteArray) (w : World) : World :=
  chunks.foldl (fun w chunk => drain n [.readNext s] (w.feed p chunk)) w

theorem closePipe_eq (p : Nat) (w : World) : ∃ ps q, w.closePipe p = { w with pipes := ps, queue := q } := by
  obtain ⟨q, eq⟩ := wakePipe_eq p (w.modifyPipe p Pipe.close)
  exact ⟨_, q, eq⟩

theorem finishReader_eq (s : Nat) (w : World) : ∃ ps q, w.finishReader s = { w with
    streams := w.streams.modify s fun t => { t with readerDone := true }, pipes := ps, queue := q } := by
  unfold finishReader releasePipes
  split
  · exact ⟨w.pipes, w.queue, rfl⟩
  · next t _ =>
    split
    · obtain ⟨ps, q, eq⟩ := closePipe_eq t.incoming (w.modifyStream s fun t => { t with readerDone := true })
      obtain ⟨ps', q', eq'⟩ := closePipe_eq t.outgoing
        ((w.modifyStream s fun t => { t with readerDone := true }).closePipe t.incoming)
      refine ⟨ps', q', ?_⟩
      rw [eq', eq]
      rfl
    · exact ⟨w.pipes, w.queue, rfl⟩

/-- The reader of stream `s` is at work, with the pipe, the channel and the policy of `t`. -/
def AtWork (w : World) (s : Nat) (t : Stream) (closed : Bool) (unread : ByteArray) : Prop :=
  ∃ t' ch, Listening w s t' ch closed unread ∧ ch.transport = .stream s ∧ t'.incoming = t.incoming ∧
    t'.channel = t.channel ∧ t'.policy = t.policy

/-- The reader of a stream has stopped, and the channel is closed. -/
structure Ended (w : World) (s : Nat) (t : Stream) : Prop where
  reader : ∃ t', w.streams.get? s = some t' ∧ t'.readerDone = true
  closed : w.isOpen t.channel = false
  going : w.aborted = none

/-! ## Handlers -/

/-- What becomes of a world when messages are handed on, one after the other, and everything is done that
their handlers want done; in between, the reader is at work. -/
inductive Handles (s : Nat) (t : Stream) (cost : Nat) (start : World) : List Envelope → World → Prop
  | start : Handles s t cost start [] start
  | sift {ms : List Envelope} {w w' : World} (before : Handles s t cost start ms w)
      (sifts : Sifts s t.incoming w w') : Handles s t cost start ms w'
  | hand {ms : List Envelope} {w w' : World} {m : Envelope} (before : Handles s t cost start ms w)
      (done : Leads cost [.deliver t.channel m.service m.data] w [] w') :
      Handles s t cost start (ms ++ [m]) w'

/-- The channel is left alone by those who handle messages, and survived by those who see its end. -/
structure Tolerant (s : Nat) (t : Stream) (cost ending : Nat) (start : World)
    (messages : List Envelope) : Prop where
  /-- Whoever a message is for comes to an end with it, and does not close the channel, stop everything or
  touch what the reader has to read. -/
  hands : ∀ ms m w, ms ++ [m] <+: messages → Handles s t cost start ms w →
    ∃ w', Leads cost [.deliver t.channel m.service m.data] w [] w' ∧
      ∀ closed unread, AtWork w s t closed unread → AtWork w' s t closed unread
  /-- When the channel is closed, all who are told come to an end with it and do not stop everything. -/
  ends : ∀ w closed unread, Handles s t cost start messages w → AtWork w s t closed unread →
    ∃ w', Leads ending [.closeCore t.channel] w [] w' ∧ w'.aborted = none ∧ w'.isOpen t.channel = false ∧
      ∃ t', w'.streams.get? s = some t' ∧ t'.channel = t.channel

/-- What a reader has made of bytes when it rests, by the messages at their front and the piece that is
left. Either the messages are handled and the piece is kept; or the messages are handled, the channel was
closed once after that, and the reader has stopped. -/
inductive Reader (s : Nat) (t : Stream) (cost ending : Nat) (start : World) :
    List Envelope × Option ByteArray → Bool → World → Prop
  | waits {ms : List Envelope} {piece : ByteArray} {w : World} (handled : Handles s t cost start ms w)
      (work : AtWork w s t false piece) : Reader s t cost ending start (ms, some piece) false w
  | stopped {ms : List Envelope} {left : Option ByteArray} {w w₁ w₂ : World} {closed : Bool}
      {unread : ByteArray} (handled : Handles s t cost start ms w₁) (work : AtWork w₁ s t closed unread)
      (closes : Leads ending [.closeCore t.channel] w₁ [] w₂)
      (rest : ∃ ss ps q, w = { w₂ with streams := ss, pipes := ps, queue := q }) (ended : Ended w s t) :
      Reader s t cost ending start (ms, left) true w

variable {cost ending : Nat} {start : World} {ms messages : List Envelope}

/-- The channel is closed, and with it the reader is told to stop. -/
theorem Tolerant.shuts (tolerant : Tolerant s t cost ending start messages)
    (handled : Handles s t cost start messages w) (work : AtWork w s t closed unread) :
    ∃ w₁ w₂, Leads ending [.closeCore t.channel] w [] w₁ ∧
      Leads (ending + 2) [.closeChannel t.channel] w [] w₂ ∧
      (∃ ss q, w₂ = { w₁ with streams := ss, queue := q }) ∧ w₂.aborted = none ∧
      w₂.isOpen t.channel = false ∧ ∃ t', w₂.streams.get? s = some t' ∧ t'.channel = t.channel := by
  obtain ⟨w₁, closes, going, shut, t', stream, same⟩ := tolerant.ends w _ _ handled work
  obtain ⟨t₀, ch, listening, transport, -, channel, -⟩ := work
  have first : Leads 1 [.closeChannel t.channel] w ([.closeCore t.channel] ++ [.cancelStream s]) w := by
    refine .perform listening.going ?_
    show w.closeChannel t.channel = _
    rw [← channel]
    simp [closeChannel, listening.channel, transport, listening.isOpen]
  have last : Leads 1 [.cancelStream s] w₁ []
      (wake (.stream s) (w₁.modifyStream s fun t => { t with cancelled := true })) := .perform going rfl
  refine ⟨w₁, _, closes, ((first.trans (closes.append _)).trans last).mono (by omega), ?_⟩
  rw [wake_eq]
  refine ⟨⟨_, _, rfl⟩, going, shut, { t' with cancelled := true }, ?_, same⟩
  simp [modifyStream, stream]

/-- The reader stops behind a closed channel. -/
theorem Ended.of_closed {t' : Stream} (stream : w.streams.get? s = some t') (closed : w.isOpen t.channel = false)
    (going : w.aborted = none) : ∃ ss ps q, Leads 1 [.finishReader s] w []
      { w with streams := ss, pipes := ps, queue := q } ∧
      Ended { w with streams := ss, pipes := ps, queue := q } s t := by
  obtain ⟨ps, q, finished⟩ := finishReader_eq s w
  refine ⟨_, ps, q, .perform going (congrArg (·, []) finished), ⟨{ t' with readerDone := true }, ?_, rfl⟩,
    closed, going⟩
  simp [stream]

/-- The channel is closed, and the reader stops with the next action. -/
theorem Tolerant.stops (tolerant : Tolerant s t cost ending start messages)
    (handled : Handles s t cost start messages w) (work : AtWork w s t closed unread) (left : Option ByteArray) :
    ∃ w₂ w', Leads (ending + 2) [.closeChannel t.channel] w [] w₂ ∧
      Leads 1 [.readOn s] w₂ [.finishReader s] w₂ ∧ Leads 1 [.finishReader s] w₂ [] w' ∧
      Reader s t cost ending start (messages, left) true w' := by
  obtain ⟨w₁, w₂, closes, shuts, ⟨_, _, rfl⟩, going, shut, t', stream, same⟩ := tolerant.shuts handled work
  obtain ⟨_, _, _, last, ended⟩ := Ended.of_closed (t := t) stream shut going
  refine ⟨_, _, shuts, .perform going ?_, last, .stopped handled work closes ⟨_, _, _, rfl⟩ ended⟩
  show readOn s _ = _
  simp only [readOn, stream, same, shut]
  rfl

theorem AtWork.going (work : AtWork w s t closed unread) : w.aborted = none := by
  obtain ⟨_, _, listening, -⟩ := work
  exact listening.going

/-- One look at what has come in. -/
theorem AtWork.reads (work : AtWork w s t closed unread) : ∃ w₁, Sifts s t.incoming w w₁ ∧
    match Frame.cut unread with
    | .frame body rest => AtWork w₁ s t closed rest ∧ Leads 1 [.readNext s] w [.frame s body, .readOn s] w₁
    | .tooLong rest => AtWork w₁ s t closed rest ∧
        Leads 1 [.readNext s] w [.closeChannel t.channel, .finishReader s] w₁
    | .short => AtWork w₁ s t closed unread ∧ Leads 1 [.readNext s] w
        (if closed then [.closeChannel t.channel, .finishReader s] else []) w₁ := by
  obtain ⟨t', ch, listening, transport, incoming, channel, policy⟩ := work
  obtain ⟨keeping, kept, step⟩ := listening.readNext_eq
  rw [channel] at step
  rw [incoming] at kept
  have work' (rest : ByteArray) : AtWork (keeping rest) s t closed rest :=
    ⟨t', ch, (kept rest).1, transport, incoming, channel, policy⟩
  cases cut : Frame.cut unread <;> rw [cut] at step <;>
    exact ⟨_, (kept _).2, work' _, .perform listening.going step⟩

theorem AtWork.takeFrame_eq (work : AtWork w s t closed unread) (body : ByteArray) :
    ∃ scope detail, w.takeFrame s body = (w, [match Frame.decode? body with
      | some m => .deliver t.channel m.service m.data
      | none => .violation t.policy scope detail t.channel]) := by
  obtain ⟨t', ch, listening, -, -, channel, policy⟩ := work
  obtain ⟨_, _, stream, -⟩ := listening.stream
  simp only [takeFrame, stream, channel, policy]
  cases Frame.decode? body with
  | none => exact ⟨_, _, rfl⟩
  | some => exact ⟨"", "", rfl⟩

theorem AtWork.readOn_eq (work : AtWork w s t closed unread) : w.readOn s = (w, [.readNext s]) := by
  obtain ⟨t', ch, listening, -⟩ := work
  obtain ⟨_, _, stream, -⟩ := listening.stream
  simp only [readOn, stream, World.isOpen, listening.channel, listening.isOpen]
  rfl

/-- How many steps a reader needs for some bytes. -/
def effort (cost ending : Nat) : List Envelope × Option ByteArray → Nat
  | (ms, left) => (cost + 3) * ms.length + ending + if left.isNone then 7 else 4

/-- The reader goes on as far as it can. -/
theorem Tolerant.goesOn (tolerant : Tolerant s t cost ending start messages)
    (handled : Handles s t cost start ms w) (work : AtWork w s t closed unread)
    (begins : ms ++ (Frame.leading unread).1 <+: messages)
    (policy : (Frame.leading unread).2 = none → t.policy = .disposeChannel)
    (whole : (closed || (Frame.leading unread).2.isNone) = true → ms ++ (Frame.leading unread).1 = messages) :
    ∃ w', Leads (effort cost ending (Frame.leading unread)) [.readNext s] w [] w' ∧
      Reader s t cost ending start (ms ++ (Frame.leading unread).1, (Frame.leading unread).2)
        (closed || (Frame.leading unread).2.isNone) w' := by
  fun_induction Frame.leading unread generalizing w ms with
  | case1 bytes short =>
    obtain ⟨w₁, sifts, work', first⟩ := by simpa only [short] using work.reads
    rw [List.append_nil] at whole ⊢
    cases closed with
    | false => exact ⟨_, first.mono (by simp [effort]), .waits (handled.sift sifts) work'⟩
    | true =>
      obtain rfl := whole rfl
      obtain ⟨_, w', shuts, -, last, reader⟩ := tolerant.stops (handled.sift sifts) work' (some bytes)
      refine ⟨w', ((first.trans (shuts.append [.finishReader s])).trans last).mono ?_, reader⟩
      simp [effort]
      omega
  | case2 bytes rest long =>
    obtain ⟨w₁, sifts, work', first⟩ := by simpa only [long] using work.reads
    rw [List.append_nil, Option.isNone_none, Bool.or_true] at whole ⊢
    obtain rfl := whole rfl
    obtain ⟨_, w', shuts, -, last, reader⟩ := tolerant.stops (handled.sift sifts) work' none
    refine ⟨w', ((first.trans (shuts.append [.finishReader s])).trans last).mono ?_, reader⟩
    simp [effort]
    omega
  | case3 bytes body rest frame undecodable =>
    obtain ⟨w₁, sifts, work', first⟩ := by simpa only [frame] using work.reads
    obtain ⟨scope, detail, taken⟩ := work'.takeFrame_eq body
    rw [undecodable, policy rfl] at taken
    have second := Leads.perform (x := .frame s body) work'.going taken
    have third : Leads 1 [.violation .disposeChannel scope detail t.channel] w₁ [.closeChannel t.channel] w₁ :=
      .perform work'.going rfl
    rw [List.append_nil, Option.isNone_none, Bool.or_true] at whole ⊢
    obtain rfl := whole rfl
    obtain ⟨_, w', shuts, on, last, reader⟩ := tolerant.stops (handled.sift sifts) work' none
    have run := first.trans (((second.trans (third.trans shuts)).append [.readOn s]).trans (on.trans last))
    refine ⟨w', run.mono ?_, reader⟩
    simp [effort]
    omega
  | case4 bytes body rest frame m decoded ih =>
    obtain ⟨w₁, sifts, work', first⟩ := by simpa only [frame] using work.reads
    obtain ⟨_, _, taken⟩ := work'.takeFrame_eq body
    rw [decoded] at taken
    have second := Leads.perform (x := .frame s body) work'.going taken
    rw [List.append_cons] at begins whole ⊢
    obtain ⟨w₂, done, stays⟩ := tolerant.hands ms m _ ((List.prefix_append ..).trans begins) (handled.sift sifts)
    have work₂ := stays _ _ work'
    have third := Leads.perform (x := .readOn s) work₂.going work₂.readOn_eq
    obtain ⟨w', later, reader⟩ := ih ((handled.sift sifts).hand done) work₂ begins policy whole
    have run := first.trans (((second.trans done).append [.readOn s]).trans (third.trans later))
    refine ⟨w', run.mono ?_, reader⟩
    simp only [effort, List.length_cons, Nat.mul_succ]
    omega

/-! ## Bytes that come in piece by piece -/

theorem AtWork.modifyPipe (work : AtWork w s t closed unread) {f : Pipe → Pipe} {shut : Bool}
    {more : ByteArray} (grows : ∀ pipe : Pipe, (f pipe).held = pipe.held ++ more)
    (shuts : ∀ pipe : Pipe, pipe.closed = closed → (f pipe).closed = shut) :
    AtWork (w.modifyPipe t.incoming f) s t shut (unread ++ more) := by
  obtain ⟨t', ch, listening, transport, incoming, same⟩ := work
  exact ⟨t', ch, incoming ▸ listening.modifyPipe grows shuts, transport, incoming, same⟩

theorem Ended.idle (h : Ended w s t) (n : Nat) : drain n [.readNext s] w = w := by
  obtain ⟨_, stream, done⟩ := h.reader
  have step : w.readNext s = (w, []) := by simp [readNext, stream, done]
  cases n with
  | zero => rfl
  | succ n => exact (drain_step (.readNext s) h.going step _ _).trans (drain_nil _ _)

theorem Ended.modifyPipe (h : Ended w s t) (p : Nat) (f : Pipe → Pipe) : Ended (w.modifyPipe p f) s t :=
  ⟨h.reader, h.closed, h.going⟩

variable {bytes more total : ByteArray} {n : Nat}

variable (cost ending) in
theorem effort_mono (h : (Frame.leading bytes).1 <+: (Frame.leading total).1)
    (broken : (Frame.leading bytes).2 = none → Frame.leading total = Frame.leading bytes) :
    effort cost ending (Frame.leading bytes) ≤ effort cost ending (Frame.leading total) := by
  cases left : (Frame.leading bytes).2 with
  | none => exact Nat.le_of_eq (by rw [broken left])
  | some =>
    have fewer := Nat.mul_le_mul_left (cost + 3) h.length_le
    simp only [effort, left, Option.isNone_some, Bool.false_eq_true, if_false]
    split <;> omega

variable (tolerant : Tolerant s t cost ending start (Frame.leading total).1)
  (policy : (Frame.leading total).2 = none → t.policy = .disposeChannel)
  (enough : effort cost ending (Frame.leading total) ≤ n)
include tolerant policy enough

/-- Bytes come in, or the stream ends, and the reader goes on. -/
theorem Reader.goesOn {later : ByteArray} (split : total = bytes ++ more ++ later) {f : Pipe → Pipe} {shut : Bool}
    (grows : ∀ pipe : Pipe, (f pipe).held = pipe.held ++ more)
    (shuts : ∀ pipe : Pipe, pipe.closed = false → (f pipe).closed = shut) (last : shut = true → later = .empty)
    (reader : Reader s t cost ending start (Frame.leading bytes) (Frame.leading bytes).2.isNone w) :
    Reader s t cost ending start (Frame.leading (bytes ++ more)) (shut || (Frame.leading (bytes ++ more)).2.isNone)
      (drain n [.readNext s] (w.modifyPipe t.incoming f)) := by
  obtain ⟨begins, broken⟩ := Frame.leading_prefix (bytes ++ more) later
  rw [← split] at begins broken
  have few := Nat.le_trans (effort_mono cost ending begins broken) enough
  have together := Frame.leading_append bytes more
  rcases left : Frame.leading bytes with ⟨ms, _ | piece⟩
  · rw [left] at reader together
    rw [together, Option.isNone_none, Bool.or_true]
    cases reader with
    | stopped handled work closes rest ended =>
      obtain ⟨_, _, _, rfl⟩ := rest
      rw [(ended.modifyPipe _ f).idle]
      exact .stopped handled work closes ⟨_, _, _, rfl⟩ (ended.modifyPipe _ f)
  · rw [left] at reader together
    simp only at together
    rw [together] at begins broken few ⊢
    cases reader with
    | waits handled work =>
      have whole : (shut || (Frame.leading (piece ++ more)).2.isNone) = true →
          ms ++ (Frame.leading (piece ++ more)).1 = (Frame.leading total).1 := fun ended => by
        cases hs : shut with
        | true => rw [split, last hs, ByteArray.append_empty, together]
        | false =>
          rw [hs, Bool.false_or, Option.isNone_iff_eq_none] at ended
          rw [broken ended]
      obtain ⟨w', run, reader⟩ := tolerant.goesOn (handled.sift (.modifyPipe s _ w f)) (work.modifyPipe grows shuts)
        begins (fun none => policy (by rw [broken none]; exact none)) whole
      rw [run.drain_eq (Nat.le_trans ?_ few)]
      · exact reader
      · simp only [effort, List.length_append, Nat.mul_add]
        omega

theorem Reader.hearing {chunks : List ByteArray} (split : total = bytes ++ Frame.joined chunks)
    (reader : Reader s t cost ending start (Frame.leading bytes) (Frame.leading bytes).2.isNone w) :
    Reader s t cost ending start (Frame.leading total) (Frame.leading total).2.isNone
      (w.hearing n s t.incoming chunks) := by
  induction chunks generalizing w bytes with
  | nil =>
    rw [split, Frame.joined_nil, ByteArray.append_empty]
    exact reader
  | cons chunk chunks ih =>
    rw [Frame.joined_cons, ← ByteArray.append_assoc] at split
    exact ih split (reader.goesOn (f := fun pipe => { pipe with held := pipe.held ++ chunk }) tolerant policy
      enough split (fun _ => rfl) (fun _ same => same) nofun)

/-- A reader that has not heard anything yet hears pieces and then the end of the stream. -/
theorem AtWork.hears {chunks : List ByteArray} (work : AtWork start s t false .empty)
    (pieces : Frame.joined chunks = total) :
    Reader s t cost ending start (Frame.leading total) (Frame.leading total).2.isNone
        (start.hearing n s t.incoming chunks) ∧ Reader s t cost ending start (Frame.leading total) true
        (drain n [.readNext s] ((start.hearing n s t.incoming chunks).modifyPipe t.incoming Pipe.close)) := by
  have silent : Frame.leading .empty = ([], some .empty) := Frame.leading_short rfl
  have first : Reader s t cost ending start (Frame.leading .empty) (Frame.leading .empty).2.isNone start := by
    rw [silent]
    exact .waits .start work
  have heard := first.hearing tolerant policy enough (ByteArray.empty_append.trans pieces).symm
  have closed := heard.goesOn tolerant policy enough (show total = total ++ .empty ++ .empty by simp) (f := Pipe.close)
    (fun _ => ByteArray.append_empty.symm) (fun _ _ => (rfl : _ = true)) fun _ => rfl
  rw [ByteArray.append_empty, Bool.true_or] at closed
  exact ⟨heard, closed⟩

end World

end Switchboard
