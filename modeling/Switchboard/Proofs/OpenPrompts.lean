import Switchboard.Proofs.SharedAnswer

/-!
# Prompts that stay open

A check that waits for the user is let in when its origin comes onto the list, and the prompt is closed.
That takes somebody who looks at the check while the list has the origin. Where everybody who waits
is let in before an origin is taken off the list again, an origin has at most one open prompt, and the
prompt of an origin on the list is open only if all who waited for it went away.

Where a check is passed by, this fails. It waits on for an inquiry that was forgotten, and when it finds
the prompt of that one closed, the prompt of the next inquiry no longer counts as shown: nobody closes it
when the origin is let in, and the user is asked again beside it.
-/

namespace Switchboard

def InquiryPhase.prompt? : InquiryPhase → Option Nat
  | .asking p => some p
  | _ => none

def CheckPhase.inquiry? : CheckPhase → Option Nat
  | .racing i => some i
  | _ => none

def CheckPhase.isSettled : CheckPhase → Bool
  | .settled _ => true
  | _ => false

/-! ## Visits -/

/-- A desk and the checks for which nobody waits any more. -/
structure Lobby where
  desk : Desk
  left : List Nat := []

namespace Lobby

/-- What can happen in the lobby. -/
inductive Turn where
  | check (origin : String)
  | look (check : Nat)
  | leave (check : Nat)
  | list (list : AllowList)
  | answer (origin : String) (answer : Answer)
  /-- A grant is stored. -/
  | store (origin : String)
  /-- The stored decisions have been read. -/
  | loaded

def turn (x : Lobby) : Turn → Lobby
  | .check origin => { x with desk := x.desk.check origin }
  | .look c => if x.left.contains c then x else { x with desk := (x.desk.look c).1 }
  | .leave c => { x with left := c :: x.left }
  | .list list => { x with desk := { x.desk with list := list } }
  | .answer origin answer => { x with desk := (x.desk.answer? origin answer).getD x.desk }
  | .store origin => { x with desk := x.desk.storeGrant origin }
  | .loaded => { x with desk := x.desk.finishLoading }

def run (x : Lobby) (ts : List Turn) : Lobby := Runs.run turn x ts

theorem run_concat (x : Lobby) (ts : List Turn) (t : Turn) : x.run (ts ++ [t]) = (x.run ts).turn t :=
  Runs.run_append turn x ts [t]

/-- Whether somebody waits for a check, and the check for an inquiry about an origin. -/
def attends (x : Lobby) (c : Nat) (origin : String) : Bool :=
  !x.left.contains c && (x.desk.checks.get? c).any fun k => k.origin == origin && k.phase.inquiry?.isSome

/-- Whether a turn takes no origin off the list before those who wait have been let in. -/
def heeds (x : Lobby) : Turn → Prop
  | .list list => ∀ c < x.desk.checks.size, ∀ k ∈ x.desk.checks.get? c, x.attends c k.origin = true →
      x.desk.list.contains k.origin = true → list.contains k.origin = true
  | _ => True

/-- Every turn heeds those who wait. -/
def Heeded (x : Lobby) : List Turn → Prop
  | [] => True
  | t :: ts => x.heeds t ∧ Heeded (x.turn t) ts

instance decidableHeeds (x : Lobby) : (t : Turn) → Decidable (x.heeds t)
  | .list list => inferInstanceAs (Decidable (∀ c < x.desk.checks.size, ∀ k ∈ x.desk.checks.get? c,
      x.attends c k.origin = true → x.desk.list.contains k.origin = true →
        list.contains k.origin = true))
  | .check _ | .look _ | .leave _ | .answer _ _ | .store _ | .loaded => .isTrue trivial

instance decidableHeeded : (ts : List Turn) → (x : Lobby) → Decidable (x.Heeded ts)
  | [], _ => .isTrue trivial
  | t :: ts, x => @instDecidableAnd _ _ _ (decidableHeeded ts (x.turn t))

theorem heeded_concat {x : Lobby} {ts : List Turn} {t : Turn} :
    x.Heeded (ts ++ [t]) ↔ x.Heeded ts ∧ (x.run ts).heeds t := by
  induction ts generalizing x with
  | nil => simp [Heeded, run, Runs.run]
  | cons _ ts ih =>
    show _ ∧ Heeded _ (ts ++ [t]) ↔ (_ ∧ _) ∧ _
    rw [ih, and_assoc]
    rfl

end Lobby

/-! ## What a look at an inquiry comes to -/

namespace Desk

variable {d : Desk} {i : Nat} {q : Inquiry}

/-- The number of the open or answered prompt with which the inquiry in the memo asks about an origin. -/
def askedWith? (d : Desk) (origin : String) : Option Nat :=
  (d.memo.lookup origin).bind fun i => (d.inquiries.get? i).bind fun q => q.phase.prompt?

/-! ## Prompts belong to inquiries -/

/-- Who waits, who asks and what is on show go together: an inquiry in the memo is about its origin; a
check for which somebody waits waits for the inquiry in the memo, unless the list will let it in; open
prompts are those of inquiries in the memo; and an origin counts as shown while its inquiry asks. -/
structure Kept (d : Desk) (left : List Nat) : Prop where
  own : ∀ {origin i}, d.memo.lookup origin = some i → ∃ q, d.inquiries.get? i = some q ∧ q.origin = origin
  waits : ∀ {c k i}, d.checks.get? c = some k → k.phase = .racing i → c ∉ left →
    d.list.contains k.origin = true ∨ d.memo.lookup k.origin = some i
  shown : ∀ {p prompt}, d.prompts.get? p = some prompt → prompt.answer = none →
    d.askedWith? prompt.origin = some p
  pending : ∀ origin, origin ∈ d.pending ↔ (d.askedWith? origin).isSome = true

/-- If the user is asked about an origin, a check of it waits for the inquiry. -/
def HeldAt (d : Desk) (origin : String) : Prop := ∀ {i p}, d.memo.lookup origin = some i →
  d.askedWith? origin = some p → ∃ c k, d.checks.get? c = some k ∧ k.origin = origin ∧ k.phase = .racing i

/-- Prompts belong to inquiries, and inquiries to checks. -/
structure Tidy (d : Desk) (left : List Nat) : Prop extends Kept d left where
  held : ∀ origin, d.HeldAt origin

section

variable {left : List Nat} {origin : String}

theorem askedWith?_of_lookup (hi : d.memo.lookup origin = some i) (hq : d.inquiries.get? i = some q) :
    d.askedWith? origin = q.phase.prompt? := by
  rw [askedWith?, hi, Option.bind_some, hq, Option.bind_some]

theorem askedWith?_setInquiry
    (own : ∀ {origin i}, d.memo.lookup origin = some i → ∃ q, d.inquiries.get? i = some q ∧ q.origin = origin)
    (hi : d.memo.lookup origin = some i) (phase : InquiryPhase) (other : String) :
    (d.setInquiry i phase).askedWith? other = if other = origin then phase.prompt? else d.askedWith? other := by
  obtain ⟨q, hq, _⟩ := own hi
  have here : ∀ j, (d.setInquiry i phase).inquiries.get? j =
      if i = j then some { q with phase := phase } else d.inquiries.get? j :=
    Table.get?_modify_of_some hq _
  split
  · next eq =>
    subst eq
    have cell := here i
    rw [if_pos rfl] at cell
    exact askedWith?_of_lookup (d := d.setInquiry i phase) hi cell
  · unfold askedWith?
    show (d.memo.lookup other).bind _ = _
    cases hj : d.memo.lookup other with
    | none => rfl
    | some =>
      grind

/-- What is kept when the inquiry about an origin goes on to a phase. -/
theorem Kept.revise (h : Kept d left) (hi : d.memo.lookup origin = some i) (d' : Desk) (phase : InquiryPhase)
    (inquiries : d'.inquiries = (d.setInquiry i phase).inquiries) (memo : d'.memo = d.memo)
    (checks : d'.checks = d.checks) (list : d'.list = d.list)
    (pending : ∀ o, o ∈ d'.pending ↔ if o = origin then phase.prompt?.isSome = true else o ∈ d.pending)
    (prompts : ∀ {p prompt}, d'.prompts.get? p = some prompt → prompt.answer = none →
      if prompt.origin = origin then phase.prompt? = some p else d.prompts.get? p = some prompt) :
    Kept d' left ∧ ∀ o, d'.askedWith? o = if o = origin then phase.prompt? else d.askedWith? o := by
  have asked : ∀ o, d'.askedWith? o = if o = origin then phase.prompt? else d.askedWith? o := by
    intro o
    rw [← askedWith?_setInquiry h.own hi phase o]
    unfold askedWith?
    rw [inquiries, memo]
    rfl
  refine ⟨⟨?_, ?_, ?_, ?_⟩, asked⟩
  · intro o _ hj
    rw [memo] at hj
    obtain ⟨q, hq, about⟩ := h.own hj
    rw [inquiries, setInquiry, Table.get?_modify, hq]
    split
    · exact ⟨_, rfl, about⟩
    · exact ⟨q, rfl, about⟩
  · grind [h.waits]
  · grind [h.shown]
  · intro o
    rw [pending, asked]
    split
    · rfl
    · exact h.pending o

theorem mem_pending_posed (d : Desk) (origin o : String) :
    o ∈ (d.posed origin).pending ↔ o = origin ∨ o ∈ d.pending := by
  unfold posed
  by_cases mem : origin ∈ d.pending
  · grind
  · simp [mem, or_comm]

variable {p : Nat} {prompt : Prompt}

theorem prompts_posed (h : (d.posed origin).prompts.get? p = some prompt) :
    (p = d.prompts.size ∧ prompt = ⟨origin, d.standing⟩) ∨ d.prompts.get? p = some prompt := by
  have cell : (d.prompts.push ⟨origin, d.standing⟩).get? p = some prompt := h
  rw [Table.get?_push] at cell
  split at cell
  · next last => exact .inl ⟨last, (Option.some.inj cell).symm⟩
  · exact .inr cell

/-- Looking at the inquiry about an origin keeps prompts and inquiries together. -/
theorem Kept.lookInquiry (h : Kept d left) (hi : d.memo.lookup origin = some i) :
    Kept (d.lookInquiry i).1 left ∧ (d.lookInquiry i).1.memo = d.memo ∧
      (∀ o, o ≠ origin → (d.lookInquiry i).1.askedWith? o = d.askedWith? o) ∧
      ((d.lookInquiry i).2.2 ≠ none → (d.lookInquiry i).1.askedWith? origin = none) := by
  obtain ⟨q, hq, rfl⟩ := h.own hi
  have asked := askedWith?_of_lookup hi hq
  have sight := sight_lookInquiry hq
  -- What is on show about the origin is on show for this inquiry.
  have silent : ∀ {p prompt}, d.prompts.get? p = some prompt → prompt.answer = none →
      if prompt.origin = q.origin then q.phase.prompt? = some p else d.prompts.get? p = some prompt := by
    intro p prompt found unanswered
    split
    · next eq =>
      rw [← asked, ← eq]
      exact h.shown found unanswered
    · exact found
  have unseen : q.phase = .fresh → ∀ o (phase : InquiryPhase), phase.prompt? = none →
      (o ∈ d.pending ↔ if o = q.origin then phase.prompt?.isSome = true else o ∈ d.pending) := by
    intro fresh o phase none
    split
    · next eq => rw [h.pending, eq, asked, fresh, none]; rfl
    · rfl
  generalize d.lookInquiry i = result at sight
  cases sight with
  | @finished outcome phase =>
    refine ⟨h, rfl, fun _ _ => rfl, fun _ => ?_⟩
    rw [asked, phase]
    rfl
  | unanswered => exact ⟨h, rfl, fun _ _ => rfl, fun some => absurd rfl some⟩
  | @answered p prompt answer phase found told =>
    obtain ⟨kept, asks⟩ := h.revise hi (d.conclude i q.origin answer).1 (.settled _) rfl rfl rfl rfl
      (fun o => by
        show o ∈ d.pending.filter (· != q.origin) ↔ _
        by_cases eq : o = q.origin <;> simp [eq, InquiryPhase.prompt?])
      fun {p' prompt'} found' open' => by
        have := silent found' open'
        split at this
        · rw [phase] at this
          cases this
          rw [show d.prompts.get? p = some prompt' from found'] at found
          cases found
          rw [open'] at told
          cases told
        · next ne => rwa [if_neg ne]
    exact ⟨kept, rfl, fun o ne => (asks o).trans (if_neg ne), fun _ => (asks _).trans (if_pos rfl)⟩
  | @decided read outcome phase _ =>
    obtain ⟨kept, asks⟩ := h.revise hi ({ d with read := read }.setInquiry i (.settled outcome)) _ rfl rfl
      rfl rfl (fun o => unseen phase o _ rfl) fun found' open' => by
        have := silent found' open'
        rwa [phase] at this
    exact ⟨kept, rfl, fun o ne => (asks o).trans (if_neg ne), fun _ => (asks _).trans (if_pos rfl)⟩
  | asks phase =>
    rw [ask_eq]
    split
    · obtain ⟨kept, asks⟩ := h.revise hi ({ d with read := some d.decisionsRead }.showing i q.origin)
        (.asking d.prompts.size) rfl rfl rfl rfl
        (fun o => by
          show o ∈ (posed _ _).pending ↔ _
          rw [mem_pending_posed]
          by_cases eq : o = q.origin <;> simp [eq, InquiryPhase.prompt?])
        fun {p' prompt'} found' open' => by
          rcases prompts_posed found' with ⟨rfl, rfl⟩ | found'
          · rw [if_pos rfl]
            rfl
          · have := silent found' open'
            split at this
            · rw [phase] at this
              cases this
            · next ne => rwa [if_neg ne]
      exact ⟨kept, rfl, fun o ne => (asks o).trans (if_neg ne), fun some => absurd rfl some⟩
    · next answer standing =>
      obtain ⟨kept, asks⟩ := h.revise hi
        (({ d with read := some d.decisionsRead }.showing i q.origin).conclude i q.origin answer).1 (.settled _)
        (Table.modify_modify ..) rfl rfl rfl
        (fun o => by
          show o ∈ (posed _ _).pending.filter (· != q.origin) ↔ _
          rw [List.mem_filter, mem_pending_posed]
          by_cases eq : o = q.origin <;> simp [eq, InquiryPhase.prompt?])
        fun {p' prompt'} found' open' => by
          rcases prompts_posed found' with ⟨rfl, rfl⟩ | found'
          · grind
          · have := silent found' open'
            rwa [phase] at this
      exact ⟨kept, rfl, fun o ne => (asks o).trans (if_neg ne), fun _ => (asks _).trans (if_pos rfl)⟩

theorem get?_setCheck (d : Desk) (c : Nat) (phase : CheckPhase) (c' : Nat) :
    (d.setCheck c phase).checks.get? c' =
      if c = c' then (d.checks.get? c').map fun k => { k with phase := phase } else d.checks.get? c' :=
  Table.get?_modify ..

variable {c : Nat} {k : Check}

/-- A check goes on to a phase, in which it may wait only for the inquiry in the memo. -/
theorem Kept.setCheck (h : Kept d left) (hk : d.checks.get? c = some k)
    {phase : CheckPhase} (fine : ∀ i, phase = .racing i → d.memo.lookup k.origin = some i)
    (free : ∀ {i p}, d.memo.lookup k.origin = some i → d.askedWith? k.origin = some p →
      phase = .racing i ∨ ∃ c' k', d.checks.get? c' = some k' ∧ c ≠ c' ∧ k'.origin = k.origin ∧
        k'.phase = .racing i) (held : ∀ o, o ≠ k.origin → d.HeldAt o) : Tidy (d.setCheck c phase) left := by
  refine ⟨⟨h.own, ?_, h.shown, h.pending⟩, ?_⟩
  · intro c' k' i hk' racing attended
    rw [get?_setCheck] at hk'
    split at hk'
    · next eq =>
      subst eq
      rw [hk] at hk'
      cases hk'
      exact .inr (fine i racing)
    · exact h.waits hk' racing attended
  · intro o i p hi asked
    by_cases eq : o = k.origin
    · subst eq
      obtain racing | ⟨c', k', hk', ne, own, racing⟩ := free hi asked
      · refine ⟨c, { k with phase := phase }, ?_, rfl, racing⟩
        rw [get?_setCheck, if_pos rfl, hk, Option.map_some]
      · refine ⟨c', k', ?_, own, racing⟩
        rw [get?_setCheck, if_neg ne, hk']
    · obtain ⟨c', k', hk', own, racing⟩ := held o eq hi asked
      refine ⟨c', k', ?_, own, racing⟩
      rw [get?_setCheck, if_neg, hk']
      rintro rfl
      rw [hk] at hk'
      cases hk'
      exact eq own.symm

/-- A check that waits for the inquiry about its origin looks at it. -/
theorem Tidy.race (h : Tidy d left) (hk : d.checks.get? c = some k)
    (unlisted : d.list.contains k.origin = false) (hi : d.memo.lookup k.origin = some i) :
    Tidy (d.race c k.origin i).1 left := by
  rw [race_of_unlisted unlisted]
  obtain ⟨kept, memo, others, closed⟩ := h.toKept.lookInquiry hi
  have checks := checks_lookInquiry d i
  refine kept.setCheck (by rw [checks]; exact hk) (fun j racing => ?_) (fun {j p} hj asked => .inl ?_)
    fun o ne j p hj asked => ?_
  · rw [memo]
    cases outcome : (d.lookInquiry i).2.2 with
    | none =>
      rw [outcome] at racing
      cases racing
      exact hi
    | some =>
      rw [outcome] at racing
      cases racing
  · cases outcome : (d.lookInquiry i).2.2 with
    | none =>
      rw [memo, hi] at hj
      cases hj
      rfl
    | some =>
      rw [closed (by rw [outcome]; exact Option.some_ne_none _)] at asked
      cases asked
  · rw [memo] at hj
    rw [others o ne] at asked
    rw [checks]
    exact h.held o hj asked

/-- A check joins the inquiry about its origin, which is begun if the memo has none. -/
theorem Tidy.join (h : Tidy d left) (origin : String) :
    Tidy (d.join origin).1 left ∧ (d.join origin).1.memo.lookup origin = some (d.join origin).2 := by
  unfold Desk.join
  split
  · next i hi => exact ⟨h, hi⟩
  · next none =>
    have lookup : ∀ o, (Assoc.set origin d.inquiries.size d.memo).lookup o =
        if o == origin then some d.inquiries.size else d.memo.lookup o := Assoc.lookup_set _ _ _
    have cell : ∀ j, (d.inquire origin).inquiries.get? j =
        if j = d.inquiries.size then some ⟨origin, d.known.find? origin, .fresh⟩ else d.inquiries.get? j :=
      Table.get?_push _ _
    have old : ∀ {o j}, d.memo.lookup o = some j → ∃ q, (d.inquire origin).inquiries.get? j = some q ∧
        d.inquiries.get? j = some q ∧ q.origin = o := by
      intro o j hj
      obtain ⟨q, hq, about⟩ := h.own hj
      rw [cell, if_neg (Nat.ne_of_lt (Table.lt_size_of_get? hq))]
      exact ⟨q, hq, hq, about⟩
    -- The new inquiry asks nothing yet.
    have asked : ∀ o,
        askedWith? { d.inquire origin with memo := Assoc.set origin d.inquiries.size d.memo } o =
          d.askedWith? o := by
      intro o
      unfold askedWith?
      simp only [lookup]
      by_cases eq : o = origin
      · subst eq
        simp [none, cell, InquiryPhase.prompt?]
      · rw [if_neg (by simpa using eq)]
        cases hj : d.memo.lookup o with
        | none => rfl
        | some =>
          obtain ⟨q, new, hq, -⟩ := old hj
          simp only [Option.bind_some, new, hq]
    refine ⟨⟨⟨fun {o j} hj => ?_, fun {_ _ j} hk racing attended => ?_, fun {p _} found unanswered => ?_,
      fun o => ?_⟩, fun o i p hi isAsked => ?_⟩, ?_⟩
    · rw [lookup] at hj
      split at hj
      · next eq =>
        cases hj
        exact ⟨_, (cell _).trans (if_pos rfl), (eq_of_beq eq).symm⟩
      · obtain ⟨q, new, -, about⟩ := old hj
        exact ⟨q, new, about⟩
    · rcases h.waits hk racing attended with listed | memo
      · exact .inl listed
      · grind
    · rw [asked]
      exact h.shown found unanswered
    · rw [asked]
      exact h.pending o
    · rw [asked] at isAsked
      rw [lookup] at hi
      split at hi
      · next eq =>
        rw [eq_of_beq eq, askedWith?, none] at isAsked
        cases isAsked
      · exact h.held o hi isAsked
    · dsimp only
      rw [lookup, if_pos (beq_self_eq_true _)]

theorem get?_closePrompts (h : (d.closePrompts origin).prompts.get? p = some prompt)
    (unanswered : prompt.answer = none) : d.prompts.get? p = some prompt ∧ prompt.origin ≠ origin := by
  unfold closePrompts Table.get? at h
  simp only [Array.getElem?_map, Option.map_eq_some_iff] at h
  obtain ⟨_, found, eq⟩ := h
  split at eq
  · rw [← eq] at unanswered
    cases unanswered
  · next other =>
    subst eq
    refine ⟨found, fun about => other ?_⟩
    rw [about, unanswered]
    simp

theorem list_admitLate (d : Desk) (c : Nat) (origin : String) : (d.admitLate c origin).1.list = d.list := by
  unfold Desk.admitLate
  dsimp only
  split <;> rfl

theorem pending_admitLate (d : Desk) (c : Nat) (origin : String) :
    (d.admitLate c origin).1.pending = d.pending.filter (· != origin) := by
  unfold Desk.admitLate
  dsimp only
  split <;> rfl

theorem prompts_admitLate
    (h : (d.admitLate c origin).1.prompts.get? p = some prompt) (unanswered : prompt.answer = none) :
    d.prompts.get? p = some prompt ∧ (prompt.origin = origin → origin ∉ d.pending) := by
  unfold Desk.admitLate at h
  dsimp only at h
  split at h
  · obtain ⟨found, other⟩ := get?_closePrompts h unanswered
    exact ⟨found, fun eq => absurd eq other⟩
  · next notShown => exact ⟨h, fun _ => by simpa [withdrawPrompt, forget] using notShown⟩

/-- An origin that the list has is let in, and its prompt is closed. -/
theorem Tidy.admitLate (h : Tidy d left) (hk : d.checks.get? c = some k)
    (listed : d.list.contains k.origin = true) : Tidy (d.admitLate c k.origin).1 left := by
  have lookup : ∀ o, (d.admitLate c k.origin).1.memo.lookup o =
      if o == k.origin then none else d.memo.lookup o := by
    intro o
    rw [memo_admitLate, Assoc.lookup_erase]
  have asked : ∀ o, (d.admitLate c k.origin).1.askedWith? o =
      if o == k.origin then none else d.askedWith? o := by
    intro o
    rw [askedWith?, lookup, inquiries_admitLate]
    split <;> rfl
  refine ⟨⟨fun {o i} hi => ?_, fun {c' k' i} hk' racing _ => ?_, fun {p _} found unanswered => ?_,
    fun o => ?_⟩, fun o i p hi isAsked => ?_⟩
  · rw [inquiries_admitLate]
    rw [lookup] at hi
    split at hi
    · cases hi
    · exact h.own hi
  · rw [checks_admitLate, get?_setCheck] at hk'
    rw [list_admitLate]
    by_cases eq : k'.origin = k.origin
    · exact .inl (eq ▸ listed)
    · grind [h.waits]
  · obtain ⟨found, closed⟩ := prompts_admitLate found unanswered
    have shown := h.shown found unanswered
    rw [asked, if_neg, shown]
    intro eq
    refine closed (eq_of_beq eq) ((h.pending k.origin).mpr ?_)
    rw [← eq_of_beq eq, shown]
    rfl
  · rw [pending_admitLate, List.mem_filter, asked, h.pending]
    by_cases eq : o = k.origin <;> simp [eq]
  · rw [asked] at isAsked
    rw [lookup] at hi
    split at hi
    · cases hi
    · next ne =>
      rw [if_neg ne] at isAsked
      obtain ⟨c', k', hk', own, racing⟩ := h.held o hi isAsked
      refine ⟨c', k', ?_, own, racing⟩
      rw [checks_admitLate, get?_setCheck, if_neg, hk']
      rintro rfl
      rw [hk] at hk'
      cases hk'
      exact ne (beq_iff_eq.mpr own.symm)

/-- Somebody who waits for a check looks at it. -/
theorem Tidy.look (h : Tidy d left) (attended : c ∉ left) : Tidy (d.look c).1 left := by
  cases hk : d.checks.get? c with
  | none =>
    rw [look_of_none hk]
    exact h
  | some k =>
    have glimpse := glimpse_look hk
    generalize d.look c = result at glimpse
    cases glimpse with
    | waits | settled => exact h
    | listed phase =>
      refine h.toKept.setCheck hk nofun (fun {_ _} hi asked => ?_) fun o _ => h.held o
      obtain ⟨c', k', hk', own, racing⟩ := h.held k.origin hi asked
      refine .inr ⟨c', k', hk', ?_, own, racing⟩
      rintro rfl
      rw [hk] at hk'
      cases hk'
      rw [phase] at racing
      cases racing
    | late _ list => exact h.admitLate hk list
    | joins _ list =>
      obtain ⟨joined, memo⟩ := h.join k.origin
      exact joined.race (by rw [checks_join]; exact hk) (by rw [list_join]; exact list) memo
    | races phase list =>
      rcases h.waits hk phase attended with listed | memo
      · rw [list] at listed
        cases listed
      · exact h.race hk list memo

section

variable (h : Tidy d left) (origin : String)
include h

theorem Tidy.check : Tidy (d.check origin) left := by
  have cell : ∀ c, (d.check origin).checks.get? c =
      if c = d.checks.size then some { origin := origin } else d.checks.get? c := Table.get?_push _ _
  refine ⟨⟨h.own, fun {c k i} hk racing attended => ?_, h.shown, h.pending⟩, fun o i _ hi asked => ?_⟩
  · rw [cell] at hk
    split at hk
    · cases hk
      cases racing
    · exact h.waits hk racing attended
  · obtain ⟨c, k, hk, own, racing⟩ := h.held o hi asked
    refine ⟨c, k, ?_, own, racing⟩
    rw [cell, if_neg (Nat.ne_of_lt (Table.lt_size_of_get? hk)), hk]

/-- The user's answer leaves no prompt open that was not. -/
theorem Tidy.answer (answer : Answer) : Tidy ((d.answer? origin answer).getD d) left := by
  unfold Desk.answer?
  cases d.openPrompt? origin with
  | none => exact h
  | some p =>
    refine ⟨⟨h.own, h.waits, fun {p' prompt} found unanswered => ?_, h.pending⟩, h.held⟩
    have cell : (d.prompts.modify p fun q => { q with answer := some answer }).get? p' = some prompt := found
    rw [Table.get?_modify] at cell
    split at cell
    · obtain ⟨_, -, rfl⟩ := Option.map_eq_some_iff.mp cell
      cases unanswered
    · exact h.shown cell unanswered

theorem Tidy.storeGrant : Tidy (d.storeGrant origin) left := by
  unfold Desk.storeGrant
  split
  · exact h
  · exact ⟨⟨h.own, h.waits, h.shown, h.pending⟩, h.held⟩

end

theorem Tidy.finishLoading (h : Tidy d left) : Tidy d.finishLoading left := by
  unfold Desk.finishLoading
  split
  · exact ⟨⟨h.own, h.waits, h.shown, h.pending⟩, h.held⟩
  · exact h

theorem Tidy.fresh (s : Start) : Tidy (fresh s) [] :=
  ⟨⟨nofun, nofun, nofun, fun _ => ⟨nofun, nofun⟩⟩, fun _ _ _ => nofun⟩

end

end Desk

/-! ## Runs -/

namespace Lobby

variable {x : Lobby}

theorem tidy_turn (h : x.desk.Tidy x.left) {t : Turn} (heeded : x.heeds t) :
    (x.turn t).desk.Tidy (x.turn t).left := by
  cases t with
  | check origin => exact h.check origin
  | look =>
    dsimp only [turn]
    split
    · exact h
    · next attended => exact h.look (by simpa using attended)
  | leave c =>
    refine ⟨⟨h.own, fun hk racing attended => ?_, h.shown, h.pending⟩, h.held⟩
    exact h.waits hk racing fun mem => attended (List.mem_cons_of_mem c mem)
  | list =>
    refine ⟨⟨h.own, fun {c k _} hk racing attended => ?_, h.shown, h.pending⟩, h.held⟩
    rcases h.waits hk racing attended with listed | memo
    · refine .inl (heeded c (Table.lt_size_of_get? hk) k hk ?_ listed)
      have stays : c ∉ x.left := attended
      have cell : x.desk.checks.get? c = some k := hk
      simp [attends, cell, racing, CheckPhase.inquiry?, stays]
    · exact .inr memo
  | answer origin answer => exact h.answer origin answer
  | store origin => exact h.storeGrant origin
  | loaded => exact h.finishLoading

def opening (s : Desk.Start) : Lobby := { desk := Desk.fresh s }

theorem tidy_run (s : Desk.Start) (ts : List Turn) (heeded : (opening s).Heeded ts) :
    ((opening s).run ts).desk.Tidy ((opening s).run ts).left := by
  induction ts using List.reverseRecOn with
  | nil => exact .fresh ..
  | append_singleton _ _ ih =>
    obtain ⟨before, last⟩ := heeded_concat.mp heeded
    rw [run_concat]
    exact tidy_turn (ih before) last

/-- However checks begin, are looked at and are left, and whatever the user answers: if no origin is taken
off the list before those who wait have been let in, at most one prompt of an origin is open. -/
theorem at_most_one_open_prompt (s : Desk.Start) (ts : List Turn) (heeded : (opening s).Heeded ts) :
    let d := ((opening s).run ts).desk
    ∀ origin p p', d.prompts.get? p = some ⟨origin, none⟩ → d.prompts.get? p' = some ⟨origin, none⟩ →
      p = p' := by
  intro d origin p p' found found'
  have tidy := tidy_run s ts heeded
  exact Option.some.inj ((tidy.shown found rfl).symm.trans (tidy.shown found' rfl))

def unread : Lobby := opening { list := .loaded [], loading := true }

/-- Two checks of an origin wait while the stored decisions are read and the origin comes onto the list. Both
are let in, and a third asks the user again when the origin is off the list. -/
def readmission : List Turn :=
  [.check "a", .look 0, .check "a", .loaded, .look 1, .list (.loaded ["a"]), .look 0, .look 1,
    .list (.loaded []), .check "a", .look 2]

theorem at_most_one_open_prompt_again :
    (unread.run readmission).desk.prompts.get? 1 = some ⟨"a", none⟩ ∧
      ∀ p, (unread.run readmission).desk.prompts.get? p = some ⟨"a", none⟩ → p = 1 := by
  have last : (unread.run readmission).desk.prompts.get? 1 = some ⟨"a", none⟩ := by decide +kernel
  exact ⟨last, fun p found => at_most_one_open_prompt _ _ (by decide +kernel) "a" p 1 found last⟩

def unlisted : Lobby := opening { list := .loaded [] }

/-- Where checks are passed by while the list has their origin, two prompts of the origin are open at once,
and for the inquiry of each there is a check that waits. -/
theorem two_open_prompts :
    let x := unlisted.run [.check "a", .look 0, .check "a", .look 1, .list (.loaded ["a"]), .look 0,
      .list (.loaded []), .check "a", .look 2, .look 1, .check "a", .look 3, .list (.loaded ["a"]), .look 2,
      .list (.loaded []), .check "a", .look 4]
    (x.desk.prompts.get? 1 = some ⟨"a", none⟩ ∧ x.attends 3 "a" = true ∧
      (x.desk.checks.get? 3).bind (·.phase.inquiry?) = some 1 ∧
      (x.desk.inquiries.get? 1).bind (·.phase.prompt?) = some 1) ∧
    x.desk.prompts.get? 2 = some ⟨"a", none⟩ ∧ x.attends 4 "a" = true ∧
      (x.desk.checks.get? 4).bind (·.phase.inquiry?) = some 2 ∧
      (x.desk.inquiries.get? 2).bind (·.phase.prompt?) = some 2 := by
  decide +kernel

/-- To look at a check that somebody waits for changes nothing. -/
def Quiet (x : Lobby) : Prop := ∀ c, c ∉ x.left → (x.desk.look c).1 = x.desk

/-- The user is asked about an origin, and all who waited for the answer have left. -/
def Deserted (x : Lobby) (origin : String) : Prop :=
  ∃ i q p, x.desk.memo.lookup origin = some i ∧ x.desk.inquiries.get? i = some q ∧ q.phase = .asking p ∧
    (∃ c k, x.desk.checks.get? c = some k ∧ k.origin = origin ∧ k.phase = .racing i) ∧
    ∀ c k, x.desk.checks.get? c = some k → k.origin = origin → k.phase = .racing i → c ∈ x.left

/-- At rest, nobody waits for the inquiry about an origin on the list. -/
theorem Quiet.admitted (quiet : x.Quiet) {origin : String} (listed : x.desk.list.contains origin = true)
    {c i : Nat} {k : Check} (hk : x.desk.checks.get? c = some k) (own : k.origin = origin) (racing : k.phase = .racing i) :
    c ∈ x.left := by
  by_contra attended
  have same := quiet c attended
  have glimpse := Desk.glimpse_look hk
  generalize x.desk.look c = result at glimpse same
  subst own
  cases glimpse with
  | waits phase | listed phase | joins phase | settled phase =>
    rw [racing] at phase
    cases phase
  | late =>
    have cell := congrArg (fun d => d.checks.get? c) same
    rw [Desk.checks_admitLate, Desk.get?_setCheck, if_pos rfl, hk, Option.map_some] at cell
    rw [← Option.some.inj cell] at racing
    cases racing
  | races _ unlisted =>
    rw [unlisted] at listed
    cases listed

theorem quiet_of_lt (h : ∀ c < x.desk.checks.size, c ∉ x.left → (x.desk.look c).1 = x.desk) : x.Quiet := by
  intro c attended
  by_cases known : c < x.desk.checks.size
  · exact h c known attended
  · unfold Desk.look
    rw [Table.get?_of_size_le (Nat.le_of_not_lt known)]

/-- When nobody who waits has anything to do, a prompt of an origin on the list is open, or counts as shown,
only if all who waited for its answer have left. -/
theorem open_prompt_iff_deserted (s : Desk.Start) (ts : List Turn) (heeded : (opening s).Heeded ts)
    {origin : String} :
    let x := (opening s).run ts
    x.Quiet → x.desk.list.contains origin = true →
      ((origin ∈ x.desk.pending ∨ ∃ p, x.desk.prompts.get? p = some ⟨origin, none⟩) ↔ x.Deserted origin) := by
  intro x quiet listed
  have tidy : x.desk.Tidy x.left := tidy_run s ts heeded
  constructor
  · intro dangling
    obtain ⟨p, asked⟩ : ∃ p, x.desk.askedWith? origin = some p := by
      rcases dangling with shown | ⟨p, found⟩
      · exact Option.isSome_iff_exists.mp ((tidy.pending origin).mp shown)
      · exact ⟨p, tidy.shown found rfl⟩
    obtain ⟨i, hi, asking⟩ := Option.bind_eq_some_iff.mp asked
    obtain ⟨q, hq, phase⟩ := Option.bind_eq_some_iff.mp asking
    refine ⟨i, q, p, hi, hq, ?_, tidy.held origin hi asked, fun _ _ hk own racing => ?_⟩
    · cases eq : q.phase <;> rw [eq] at phase <;> cases phase
      rfl
    · exact quiet.admitted listed hk own racing
  · rintro ⟨i, q, p, hi, hq, phase, -⟩
    refine .inl ((tidy.pending origin).mpr ?_)
    rw [Desk.askedWith?_of_lookup hi hq, phase]
    rfl

theorem look_of_settled {d : Desk} {c : Nat} (h : (d.checks.get? c).any (·.phase.isSettled) = true) :
    (d.look c).1 = d := by
  obtain ⟨k, hk, settled⟩ := (Option.any_eq_true _ _).mp h
  unfold Desk.look
  rw [hk]
  dsimp only
  cases phase : k.phase with
  | settled => rfl
  | _ =>
    rw [phase] at settled
    cases settled

/-- One of two clients leaves while the user is asked; the other is let in by the list. -/
def departure : List Turn :=
  [.check "a", .look 0, .check "a", .look 1, .leave 0, .list (.loaded ["a"]), .look 1]

theorem open_prompt_iff_deserted_admitted :
    ("a" ∈ (unlisted.run departure).desk.pending ∨
      ∃ p, (unlisted.run departure).desk.prompts.get? p = some ⟨"a", none⟩) ↔
      (unlisted.run departure).Deserted "a" := by
  refine open_prompt_iff_deserted _ _ (by decide +kernel) (quiet_of_lt fun c known attended => ?_)
    (by decide +kernel)
  match c, known with
  | 0, _ => exact absurd (by decide +kernel) attended
  | 1, _ => exact look_of_settled (by decide +kernel)

/-- The prompt of an origin on the list stays open: its only client left while the user was asked. -/
theorem prompt_left_open :
    let x := unlisted.run [.check "a", .look 0, .leave 0, .list (.loaded ["a"])]
    x.Quiet ∧ x.desk.list.contains "a" = true ∧ "a" ∈ x.desk.pending ∧
      x.desk.prompts.get? 0 = some ⟨"a", none⟩ := by
  refine ⟨quiet_of_lt fun c known attended => ?_, by decide +kernel, by decide +kernel, by decide +kernel⟩
  obtain rfl : c = 0 := Nat.lt_one_iff.mp known
  exact absurd (by decide +kernel) attended

end Lobby

end Switchboard
