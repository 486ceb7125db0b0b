import Switchboard.Permission.Desk
import Switchboard.Proofs.Runs

/-!
# Grants are justified

A desk is put to use in any order: checks begin, are looked at and are forgotten, the list changes,
the user answers or does not. Whatever happens, a check that ends well has a reason that concerns its
own origin: the administrator's list had it while the check was under way, the operator approves of
it, the decisions that were read let it in, or a prompt about it was answered with yes. Every other
check that ends is denied, and the fault names its origin.

`Evidence` is what a run has brought to light. `Sound` says that everything a desk remembers is borne
out by the evidence; each function of the desk keeps it so.
-/

namespace Switchboard

namespace Desk

/-! ## Runs of a desk -/

/-- What can happen at a desk. -/
inductive Incident where
  | check (origin : String)
  /-- The user is asked about an origin without a check. -/
  | inquire (origin : String)
  | look (check : Nat)
  | lookInquiry (inquiry : Nat)
  /-- The administrator's list is replaced, is lost, or is loaded again. -/
  | list (list : AllowList)
  | answer (origin : String) (answer : Answer)
  | forget (origin : String)
  | withdraw (origin : String)
  | close (origin : String)
  | store (origin : String)
  /-- The stored decisions have been read. -/
  | loaded

def meet (d : Desk) : Incident → Desk × List Errand
  | .check origin => (d.check origin, [])
  | .inquire origin => (d.inquire origin, [])
  | .look c => ((d.look c).1, (d.look c).2.1)
  | .lookInquiry i => ((d.lookInquiry i).1, (d.lookInquiry i).2.1)
  | .list list => ({ d with list := list }, [])
  | .answer origin answer => ((d.answer? origin answer).getD d, [])
  | .forget origin => ((d.forget origin).1, [])
  | .withdraw origin => ((d.withdrawPrompt origin).1, [])
  | .close origin => (d.closePrompts origin, [])
  | .store origin => (d.storeGrant origin, [])
  | .loaded => (d.finishLoading, [])

def run (d : Desk) (es : List Incident) : Desk := Runs.run (fun acc e => (acc.meet e).1) d es

theorem run_concat (d : Desk) (es : List Incident) (e : Incident) :
    d.run (es ++ [e]) = ((d.run es).meet e).1 :=
  Runs.run_append _ d es [e]

/-- What a desk is opened with. -/
structure Start where
  list : AllowList
  known : KnownClients := {}
  decisions : Decisions := []
  unreadable : Bool := false
  unwritable : Bool := false
  loading : Bool := false
  standing : Option Answer := none

def fresh (s : Start) : Desk :=
  { list := s.list, known := s.known, decisions := s.decisions, unreadable := s.unreadable,
    unwritable := s.unwritable, loading := s.loading, standing := s.standing }

/-! ## What a look comes to -/

def onFile (d : Desk) : Decisions := if d.unreadable then [] else d.decisions

def posed (d : Desk) (origin : String) : Desk :=
  { d with
    pending := if d.pending.contains origin then d.pending else d.pending ++ [origin]
    prompts := d.prompts.push { origin := origin, answer := d.standing } }

def showing (d : Desk) (i : Nat) (origin : String) : Desk :=
  (d.posed origin).setInquiry i (.asking d.prompts.size)

theorem ask_eq (d : Desk) (i : Nat) (q : Inquiry) : d.ask i q =
    match d.standing with
    | none => (d.showing i q.origin, [.display (request q)], none)
    | some answer =>
      (((d.showing i q.origin).conclude i q.origin answer).1,
        .display (request q) :: ((d.showing i q.origin).conclude i q.origin answer).2.1,
        ((d.showing i q.origin).conclude i q.origin answer).2.2) := by
  unfold Desk.ask showing posed Desk.setInquiry
  cases d.standing <;> rfl

theorem request_origin (q : Inquiry) : (request q).origin = q.origin := by
  unfold request
  split <;> rfl

/-- What looking at an inquiry comes to, by what it was waiting for. -/
inductive Sight (d : Desk) (i : Nat) (q : Inquiry) : Desk × List Errand × Option (Except Fault Unit) → Prop
  | finished {outcome : Except Fault Unit} (phase : q.phase = .settled outcome) :
      Sight d i q (d, [], some outcome)
  | unanswered : Sight d i q (d, [], none)
  | answered {p : Nat} {prompt : Prompt} {answer : Answer} (phase : q.phase = .asking p)
      (found : d.prompts.get? p = some prompt) (told : prompt.answer = some answer) :
      Sight d i q (d.conclude i q.origin answer)
  /-- The operator approves, or there is a stored decision. -/
  | decided {read : Option Decisions} {outcome : Except Fault Unit} (phase : q.phase = .fresh)
      (reason : read = d.read ∧ q.client.any (·.autoapprove) = true ∧ outcome = .ok () ∨
        read = some d.decisionsRead ∧ (d.decisionsRead.lookup q.origin = some true ∧ outcome = .ok () ∨
          outcome = .error (deniedByStore q.origin))) :
      Sight d i q ({ d with read := read }.setInquiry i (.settled outcome), [], some outcome)
  | asks (phase : q.phase = .fresh) : Sight d i q ({ d with read := some d.decisionsRead }.ask i q)

section

variable {d : Desk} {i c : Nat} {q : Inquiry} {k : Check}

theorem lookInquiry_of_none (hq : d.inquiries.get? i = none) : d.lookInquiry i = (d, [], none) := by
  simp only [Desk.lookInquiry, hq]

theorem sight_lookInquiry (hq : d.inquiries.get? i = some q) : Sight d i q (d.lookInquiry i) := by
  unfold Desk.lookInquiry
  rw [hq]
  dsimp only
  cases phase : q.phase with
  | settled => exact .finished phase
  | asking p =>
    dsimp only
    cases told : (d.prompts.get? p).bind Prompt.answer with
    | none => exact .unanswered
    | some =>
      obtain ⟨_, found, told⟩ := Option.bind_eq_some_iff.mp told
      exact .answered phase found told
  | fresh =>
    dsimp only
    unfold Desk.startInquiry
    split
    · next approved => exact .decided phase (.inl ⟨rfl, approved, rfl⟩)
    · split
      · exact .unanswered
      · dsimp only
        split
        · next granted => exact .decided phase (.inr ⟨rfl, .inl ⟨granted, rfl⟩⟩)
        · exact .decided phase (.inr ⟨rfl, .inr rfl⟩)
        · exact .asks phase

theorem checks_ask (d : Desk) (i : Nat) (q : Inquiry) : (d.ask i q).1.checks = d.checks := by
  rw [ask_eq]
  cases d.standing <;> rfl

/-- Looking at an inquiry leaves the checks alone. -/
theorem checks_lookInquiry (d : Desk) (i : Nat) : (d.lookInquiry i).1.checks = d.checks := by
  cases hq : d.inquiries.get? i with
  | none => rw [lookInquiry_of_none hq]
  | some q =>
    have sight := sight_lookInquiry hq
    generalize d.lookInquiry i = result at sight
    cases sight with
    | asks => exact checks_ask ..
    | _ => rfl

end

def CheckPhase.after (i : Nat) : Option (Except Fault Unit) → CheckPhase
  | none => .racing i
  | some outcome => .settled outcome

theorem race_of_unlisted {d : Desk} {origin : String} (unlisted : d.list.contains origin = false)
    (c i : Nat) : d.race c origin i =
      ((d.lookInquiry i).1.setCheck c (CheckPhase.after i (d.lookInquiry i).2.2),
        (d.lookInquiry i).2.1, (d.lookInquiry i).2.2) := by
  unfold Desk.race
  rw [if_neg (by rw [unlisted]; decide)]
  obtain ⟨_, _, outcome⟩ := d.lookInquiry i
  cases outcome <;> rfl

/-- What looking at a check comes to. -/
inductive Glimpse (d : Desk) (c : Nat) (k : Check) :
    Desk × List Errand × Option (Except Fault Unit) → Prop
  | waits (phase : k.phase = .start) : Glimpse d c k (d, [], none)
  | settled {outcome : Except Fault Unit} (phase : k.phase = .settled outcome) :
      Glimpse d c k (d, [], some outcome)
  | listed (phase : k.phase = .start) (list : d.list.contains k.origin = true) :
      Glimpse d c k (d.setCheck c (.settled (.ok ())), [], some (.ok ()))
  | late {i : Nat} (phase : k.phase = .racing i) (list : d.list.contains k.origin = true) :
      Glimpse d c k (d.admitLate c k.origin)
  | joins (phase : k.phase = .start) (list : d.list.contains k.origin = false) :
      Glimpse d c k ((d.join k.origin).1.race c k.origin (d.join k.origin).2)
  | races {i : Nat} (phase : k.phase = .racing i) (list : d.list.contains k.origin = false) :
      Glimpse d c k (d.race c k.origin i)

theorem look_of_none {d : Desk} {c : Nat} (hk : d.checks.get? c = none) : d.look c = (d, [], none) := by
  simp only [Desk.look, hk]

theorem glimpse_look {d : Desk} {c : Nat} {k : Check} (hk : d.checks.get? c = some k) :
    Glimpse d c k (d.look c) := by
  unfold Desk.look
  rw [hk]
  dsimp only
  cases hp : k.phase with
  | settled => exact .settled hp
  | racing i =>
    cases hl : d.list.contains k.origin with
    | true =>
      have late : d.race c k.origin i = d.admitLate c k.origin := if_pos hl
      show Glimpse d c k (d.race c k.origin i)
      rw [late]
      exact .late hp hl
    | false => exact .races hp hl
  | start =>
    dsimp only
    split
    · exact .waits hp
    · split
      · next hl => exact .listed hp hl
      · next hl => exact .joins hp (Bool.eq_false_iff.mpr hl)

section

variable (d : Desk) (origin : String)

theorem prompts_join : (d.join origin).1.prompts = d.prompts := by
  unfold Desk.join
  split <;> rfl

theorem list_join : (d.join origin).1.list = d.list := by
  unfold Desk.join
  split <;> rfl

theorem onFile_join : (d.join origin).1.onFile = d.onFile := by
  unfold Desk.join
  split <;> rfl

theorem checks_join : (d.join origin).1.checks = d.checks := by
  unfold Desk.join
  split <;> rfl

end

theorem size_checks_race (d : Desk) (c : Nat) (origin : String) (i : Nat) :
    (d.race c origin i).1.checks.size = d.checks.size := by
  cases list : d.list.contains origin with
  | true =>
    rw [show d.race c origin i = d.admitLate c origin from if_pos list]
    unfold Desk.admitLate
    dsimp only
    split <;> exact Table.size_modify ..
  | false =>
    rw [race_of_unlisted list, ← checks_lookInquiry d i]
    exact Table.size_modify ..

/-- Looking at a check begins no other. -/
theorem size_checks_look (d : Desk) (c : Nat) : (d.look c).1.checks.size = d.checks.size := by
  cases hk : d.checks.get? c with
  | none => rw [look_of_none hk]
  | some k =>
    have glimpse := glimpse_look hk
    generalize d.look c = result at glimpse
    cases glimpse with
    | waits | settled => rfl
    | listed => exact Table.size_modify ..
    | late _ list =>
      rw [← show d.race c k.origin 0 = d.admitLate c k.origin from if_pos list]
      exact size_checks_race ..
    | joins =>
      rw [size_checks_race, checks_join]
    | races => exact size_checks_race ..

/-! ## Reasons for a grant -/

/-- The list had an origin while a check was under way, before the last incident. -/
def Listed (d : Desk) (es : List Incident) (c : Nat) (origin : String) : Prop :=
  ∃ before, before <+: es ∧ before.length < es.length ∧ c < (d.run before).checks.size ∧
    ∃ origins, (d.run before).list = .loaded origins ∧ origin ∈ origins

def Loaded (d : Desk) (es : List Incident) (decisions : Decisions) : Prop :=
  ∃ before, before <+: es ∧ decisions = (d.run before).onFile

/-- The prompt with a number was shown to the user, and it was about an origin. -/
def Shown (d : Desk) (es : List Incident) (p : Nat) (origin : String) : Prop :=
  ∃ before e request, before ++ [e] <+: es ∧ .display request ∈ ((d.run before).meet e).2 ∧
    request.origin = origin ∧ (d.run before).prompts.size = p

/-- What has come to light. -/
structure Evidence where
  known : KnownClients
  listed : Nat → String → Prop
  loaded : Decisions → Prop
  shown : Nat → String → Prop

def evidence (d : Desk) (es : List Incident) : Evidence :=
  ⟨d.known, d.Listed es, d.Loaded es, d.Shown es⟩

/-- The operator approves, the decisions that were read let in, or the user said yes. -/
def Grounds (E : Evidence) (d : Desk) (origin : String) : Prop :=
  (∃ client, E.known.find? origin = some client ∧ client.autoapprove = true) ∨
  (∃ decisions, d.read = some decisions ∧ E.loaded decisions ∧
    decisions.lookup origin = some true) ∨
  ∃ p, E.shown p origin ∧ d.prompts.get? p = some ⟨origin, some .yes⟩

/-- An outcome about an origin: a grant for a reason, or a denial that names it. -/
def Warranted (reason : Prop) (origin : String) : Except Fault Unit → Prop
  | .ok _ => reason
  | .error e => ∃ text, e = .permissionDenied origin text

theorem Warranted.imp {p q : Prop} {origin : String} {outcome : Except Fault Unit} (hpq : p → q)
    (h : Warranted p origin outcome) : Warranted q origin outcome := by
  cases outcome with
  | ok => exact hpq h
  | error => exact h

def InquiryOk (E : Evidence) (d : Desk) (origin : String) : InquiryPhase → Prop
  | .fresh => True
  | .asking p => ∃ prompt, d.prompts.get? p = some prompt ∧ prompt.origin = origin
  | .settled outcome => Warranted (Grounds E d origin) origin outcome

def CheckOk (E : Evidence) (d : Desk) (c : Nat) (origin : String) : CheckPhase → Prop
  | .start => True
  | .racing i => ∃ q, d.inquiries.get? i = some q ∧ q.origin = origin
  | .settled outcome => Warranted (E.listed c origin ∨ Grounds E d origin) origin outcome

/-- Everything that a desk remembers is borne out by the evidence. -/
structure Sound (E : Evidence) (d : Desk) : Prop where
  known : d.known = E.known
  read : ∀ decisions, d.read = some decisions → E.loaded decisions
  memo : ∀ e ∈ d.memo, ∃ q, d.inquiries.get? e.2 = some q ∧ q.origin = e.1
  prompts : d.prompts.All fun p prompt => E.shown p prompt.origin
  inquiries : d.inquiries.All fun _ q =>
    q.client = E.known.find? q.origin ∧ InquiryOk E d q.origin q.phase
  checks : d.checks.All fun c k => CheckOk E d c k.origin k.phase

/-! ## Later desks -/

/-- What a desk has read, been answered and inquired about stays so. -/
structure Later (d d' : Desk) : Prop where
  read : ∀ decisions, d.read = some decisions → d'.read = some decisions
  prompts : ∀ p prompt, d.prompts.get? p = some prompt → ∃ prompt', d'.prompts.get? p = some prompt' ∧
    prompt'.origin = prompt.origin ∧ (prompt.answer.isSome = true → prompt' = prompt)
  inquiries : ∀ i q, d.inquiries.get? i = some q →
    ∃ q', d'.inquiries.get? i = some q' ∧ q'.origin = q.origin

section Later

variable {E : Evidence} {d d' : Desk} {origin : String}

theorem Later.refl (d : Desk) : Later d d :=
  ⟨fun _ h => h, fun _ prompt h => ⟨prompt, h, rfl, fun _ => rfl⟩, fun _ q h => ⟨q, h, rfl⟩⟩

theorem Later.trans {d'' : Desk} (h : Later d d') (h' : Later d' d'') : Later d d'' where
  read decisions hr := h'.read _ (h.read _ hr)
  prompts p prompt hp := by
    obtain ⟨_, _, ho', _⟩ := h.prompts p prompt hp
    grind [h'.prompts]
  inquiries i q hq := by
    obtain ⟨q', hq', ho'⟩ := h.inquiries i q hq
    obtain ⟨q'', hq'', ho''⟩ := h'.inquiries i q' hq'
    exact ⟨q'', hq'', ho''.trans ho'⟩

theorem Grounds.later (hd : Later d d') (h : Grounds E d origin) : Grounds E d' origin := by
  refine h.imp_right fun h => ?_
  refine h.imp (fun ⟨decisions, hr, rest⟩ => ⟨decisions, hd.read _ hr, rest⟩) ?_
  rintro ⟨p, hs, hp⟩
  obtain ⟨_, hprompt, -, same⟩ := hd.prompts p _ hp
  exact ⟨p, hs, same rfl ▸ hprompt⟩

theorem InquiryOk.later (hd : Later d d') {phase : InquiryPhase} (h : InquiryOk E d origin phase) :
    InquiryOk E d' origin phase := by
  cases phase with
  | fresh => trivial
  | asking p =>
    obtain ⟨prompt, hp, ho⟩ := h
    obtain ⟨prompt', hp', ho', -⟩ := hd.prompts p prompt hp
    exact ⟨prompt', hp', ho'.trans ho⟩
  | settled => exact Warranted.imp (Grounds.later hd) h

theorem CheckOk.later (hd : Later d d') {c : Nat} {phase : CheckPhase} (h : CheckOk E d c origin phase) :
    CheckOk E d' c origin phase := by
  cases phase with
  | start => trivial
  | racing i =>
    obtain ⟨q, hq, ho⟩ := h
    obtain ⟨q', hq', ho'⟩ := hd.inquiries i q hq
    exact ⟨q', hq', ho'.trans ho⟩
  | settled => exact Warranted.imp (Or.imp_right (Grounds.later hd)) h

/-- A later desk is sound if what it has that is new is borne out. -/
theorem Sound.later (h : Sound E d) (hd : Later d d') (known : d'.known = d.known)
    (read : ∀ decisions, d'.read = some decisions → d.read = some decisions ∨ E.loaded decisions)
    (memo : ∀ e ∈ d'.memo, e ∈ d.memo ∨ ∃ q, d'.inquiries.get? e.2 = some q ∧ q.origin = e.1)
    (prompts : d'.prompts.All fun p prompt =>
      (∃ old, d.prompts.get? p = some old ∧ prompt.origin = old.origin) ∨ E.shown p prompt.origin)
    (inquiries : d'.inquiries.All fun i q => d.inquiries.get? i = some q ∨
      q.client = E.known.find? q.origin ∧ InquiryOk E d' q.origin q.phase)
    (checks : d'.checks.All fun c k => d.checks.get? c = some k ∨ CheckOk E d' c k.origin k.phase) :
    Sound E d' where
  known := known.trans h.known
  read decisions hr := (read decisions hr).elim (h.read decisions) id
  memo e he := (memo e he).elim (fun hm => by
    obtain ⟨q, hq, ho⟩ := h.memo e hm
    obtain ⟨q', hq', ho'⟩ := hd.inquiries _ q hq
    exact ⟨q', hq', ho'.trans ho⟩) id
  prompts p prompt hp := (prompts p prompt hp).elim
    (fun ⟨old, hold, ho⟩ => show E.shown p prompt.origin from ho ▸ h.prompts p old hold) id
  inquiries i q hq := (inquiries i q hq).elim
    (fun hold => ⟨(h.inquiries i q hold).1, (h.inquiries i q hold).2.later hd⟩) id
  checks c k hk := (checks c k hk).elim (fun hold => (h.checks c k hold).later hd) id

end Later

section Functions

variable {E E' : Evidence} {d : Desk}

theorem promptsKept (d : Desk) : d.prompts.All fun p prompt =>
    (∃ old, d.prompts.get? p = some old ∧ prompt.origin = old.origin) ∨ E.shown p prompt.origin :=
  fun _ prompt hp => .inl ⟨prompt, hp, rfl⟩

/-! ## Inquiries -/

theorem Later.setInquiry (d : Desk) (i : Nat) (phase : InquiryPhase) : Later d (d.setInquiry i phase) :=
  { Later.refl d with
    inquiries := fun _ q hq => by
      unfold Desk.setInquiry
      dsimp only
      rw [Table.get?_modify, hq]
      split
      · exact ⟨_, rfl, rfl⟩
      · exact ⟨q, rfl, rfl⟩ }

variable {i : Nat} {q : Inquiry}

theorem Sound.setInquiry (h : Sound E d) (hq : d.inquiries.get? i = some q)
    {phase : InquiryPhase} (ok : InquiryOk E d q.origin phase) : Sound E (d.setInquiry i phase) := by
  have later := Later.setInquiry d i phase
  refine h.later later rfl (fun _ => .inl) (fun _ => .inl) (promptsKept d) ?_ fun _ _ => .inl
  grind [h.inquiries, ok.later, Desk.setInquiry]

theorem Sound.setPending (h : Sound E d) (pending : List String) :
    Sound E { d with pending := pending } :=
  h.later ⟨fun _ => id, (Later.refl d).prompts, (Later.refl d).inquiries⟩ rfl (fun _ => .inl)
    (fun _ => .inl) (promptsKept d) (fun _ _ => .inl) fun _ _ => .inl

def SoundResult (E : Evidence) (reason : Desk → Prop) (origin : String)
    (result : Desk × List Errand × Option (Except Fault Unit)) : Prop :=
  Sound E result.1 ∧ ∀ outcome, result.2.2 = some outcome → Warranted (reason result.1) origin outcome

/-- The answer to the prompt of an inquiry settles it. -/
theorem Sound.conclude (h : Sound E d) {p : Nat} {prompt : Prompt} {answer : Answer}
    {origin : String} (hq : d.inquiries.get? i = some q) (hqo : q.origin = origin)
    (hp : d.prompts.get? p = some prompt) (ho : prompt.origin = origin) (ha : prompt.answer = some answer) :
    SoundResult E (Grounds E · origin) origin (d.conclude i origin answer) := by
  subst hqo
  have pending := h.setPending (d.pending.filter (· != q.origin))
  have grounds : answer = .yes →
      Grounds E { d with pending := d.pending.filter (· != q.origin) } q.origin := by
    rintro rfl
    obtain ⟨origin, _⟩ := prompt
    obtain rfl : origin = q.origin := ho
    obtain rfl : _ = some Answer.yes := ha
    exact .inr (.inr ⟨p, h.prompts p _ hp, hp⟩)
  cases answer with
  | yes =>
    refine ⟨pending.setInquiry hq (grounds rfl), ?_⟩
    rintro _ ⟨⟩
    exact (grounds rfl).later (.setInquiry _ _ _)
  | no | dismissed => exact ⟨pending.setInquiry hq ⟨_, rfl⟩, by rintro _ ⟨⟩; exact ⟨_, rfl⟩⟩

theorem Later.posed (d : Desk) (origin : String) : Later d (d.posed origin) :=
  { Later.refl d with
    prompts := fun _ old hp => by
      unfold Desk.posed
      dsimp only
      rw [Table.get?_push_of_lt (Table.lt_size_of_get? hp)]
      exact ⟨old, hp, rfl, fun _ => rfl⟩ }

theorem Later.setRead (d : Desk) (loading : Bool) :
    Later d { d with loading := loading, read := some d.decisionsRead } :=
  { Later.refl d with read := fun _ hr => by simp [decisionsRead, hr] }

theorem Sound.loaded_decisionsRead (h : Sound E d) (loaded : E.loaded d.onFile) : E.loaded d.decisionsRead := by
  unfold decisionsRead
  cases hr : d.read with
  | none => exact loaded
  | some => exact h.read _ hr

/-- The stored decisions are read, if they were not. -/
theorem Sound.setRead (h : Sound E d) (loaded : E.loaded d.onFile) (loading : Bool) :
    Sound E { d with loading := loading, read := some d.decisionsRead } :=
  h.later (.setRead d loading) rfl (fun _ hr => .inr (Option.some.inj hr ▸ h.loaded_decisionsRead loaded))
    (fun _ => .inl) (promptsKept d) (fun _ _ => .inl) fun _ _ => .inl

section

variable (h : Sound E d) (hq : d.inquiries.get? i = some q)
include h hq

/-- A prompt is shown; with a standing answer it is answered at once. -/
theorem Sound.ask
    (shown : ∀ request, .display request ∈ (d.ask i q).2.1 → E.shown d.prompts.size request.origin) :
    SoundResult E (Grounds E · q.origin) q.origin (d.ask i q) := by
  have last : (d.showing i q.origin).prompts.get? d.prompts.size =
      some { origin := q.origin, answer := d.standing } := Table.get?_push_size ..
  have hq' : (d.showing i q.origin).inquiries.get? i =
      some { q with phase := .asking d.prompts.size } := by
    unfold showing posed Desk.setInquiry
    rw [Table.get?_modify_self, hq]
    rfl
  have asked : .display (request q) ∈ (d.ask i q).2.1 := by
    rw [ask_eq]
    cases d.standing <;> exact .head _
  have asking : Sound E (d.showing i q.origin) := by
    have posed : Sound E (d.posed q.origin) := by
      refine h.later (.posed d q.origin) rfl (fun _ => .inl) (fun _ => .inl) ?_ (fun _ _ => .inl)
        fun _ _ => .inl
      intro _ prompt hp
      unfold Desk.posed at hp
      rw [Table.get?_push] at hp
      split at hp
      · next he =>
        obtain rfl := Option.some.inj hp
        exact .inr (he ▸ request_origin q ▸ shown _ asked)
      · exact .inl ⟨prompt, hp, rfl⟩
    exact posed.setInquiry hq ⟨_, last, rfl⟩
  rw [ask_eq]
  cases hs : d.standing with
  | none => exact ⟨asking, nofun⟩
  | some => exact asking.conclude hq' rfl last rfl hs

/-- Looking at an inquiry is sound. -/
theorem Sound.lookInquiry (loaded : E.loaded d.onFile)
    (shown : ∀ request, .display request ∈ (d.lookInquiry i).2.1 → E.shown d.prompts.size request.origin) :
    SoundResult E (Grounds E · q.origin) q.origin (d.lookInquiry i) := by
  obtain ⟨client, ok⟩ := h.inquiries i q hq
  have read := h.setRead loaded d.loading
  have sight := sight_lookInquiry hq
  generalize d.lookInquiry i = result at sight shown
  cases sight with
  | finished phase =>
    rw [phase] at ok
    exact ⟨h, by rintro _ ⟨⟩; exact ok⟩
  | unanswered => exact ⟨h, nofun⟩
  | answered phase found told =>
    rw [phase] at ok
    obtain ⟨_, found', ho⟩ := ok
    cases found.symm.trans found'
    exact h.conclude hq rfl found ho told
  | decided _ reason =>
    have settle {d' : Desk} (sound : Sound E d') (hq : d'.inquiries.get? i = some q) {outcome : Except Fault Unit}
        (warranted : Warranted (Grounds E d' q.origin) q.origin outcome) : SoundResult E (Grounds E · q.origin)
          q.origin (d'.setInquiry i (.settled outcome), [], some outcome) :=
      ⟨sound.setInquiry hq warranted, by rintro _ ⟨⟩; exact warranted.imp (.later (.setInquiry ..))⟩
    obtain ⟨rfl, approved, rfl⟩ | ⟨rfl, ⟨granted, rfl⟩ | rfl⟩ := reason
    · obtain ⟨known, found, approves⟩ := (Option.any_eq_true _ _).mp approved
      exact settle h hq (.inl ⟨known, client ▸ found, approves⟩)
    · exact settle read hq (.inr (.inl ⟨_, rfl, h.loaded_decisionsRead loaded, granted⟩))
    · exact settle read hq ⟨_, rfl⟩
  | asks => exact read.ask hq shown

end

theorem Later.conclude (d : Desk) (i : Nat) (origin : String) (answer : Answer) :
    Later d (d.conclude i origin answer).1 := by
  have pending : Later d { d with pending := d.pending.filter (· != origin) } := { Later.refl d with }
  exact pending.trans (.setInquiry ..)

theorem Later.ask (d : Desk) (i : Nat) (q : Inquiry) : Later d (d.ask i q).1 := by
  have showing : Later d (d.showing i q.origin) := (Later.posed d q.origin).trans (.setInquiry _ _ _)
  rw [ask_eq]
  cases d.standing with
  | none => exact showing
  | some => exact showing.trans (.conclude ..)

/-- Looking at an inquiry undoes nothing. -/
theorem Later.lookInquiry (d : Desk) (i : Nat) : Later d (d.lookInquiry i).1 := by
  have read := Later.setRead d d.loading
  cases hq : d.inquiries.get? i with
  | none =>
    rw [lookInquiry_of_none hq]
    exact .refl d
  | some q =>
    have sight := sight_lookInquiry hq
    generalize d.lookInquiry i = result at sight
    cases sight with
    | finished | unanswered => exact .refl d
    | answered => exact .conclude ..
    | decided _ reason =>
      obtain ⟨rfl, -⟩ | ⟨rfl, -⟩ := reason
      · exact .setInquiry ..
      · exact read.trans (.setInquiry _ _ _)
    | asks => exact read.trans (.ask _ _ _)

theorem Sound.inquire (h : Sound E d) (origin : String) : Sound E (d.inquire origin) := by
  have later : Later d (d.inquire origin) :=
    { Later.refl d with
      inquiries := fun i q hq => by
        unfold Desk.inquire
        rw [Table.get?_push_of_lt (Table.lt_size_of_get? hq)]
        exact ⟨q, hq, rfl⟩ }
  refine h.later later rfl (fun _ => .inl) (fun _ => .inl) (promptsKept d) ?_ fun _ _ => .inl
  intro i q hq
  unfold Desk.inquire at hq
  rw [Table.get?_push] at hq
  split at hq
  · obtain rfl := Option.some.inj hq
    exact .inr ⟨by rw [h.known], trivial⟩
  · exact .inl hq

/-! ## Checks -/

variable {c : Nat} {k : Check}

theorem Sound.setCheck (h : Sound E d) (hk : d.checks.get? c = some k)
    {p : CheckPhase} (ok : CheckOk E d c k.origin p) : Sound E (d.setCheck c p) := by
  have later : Later d (d.setCheck c p) := { Later.refl d with }
  refine h.later later rfl (fun _ => .inl) (fun _ => .inl) (promptsKept d) (fun _ _ => .inl) ?_
  grind [ok.later, Desk.setCheck]

theorem Sound.setMemo (h : Sound E d) {memo : List (String × Nat)}
    (ok : ∀ e ∈ memo, e ∈ d.memo ∨ ∃ q, d.inquiries.get? e.2 = some q ∧ q.origin = e.1) :
    Sound E { d with memo := memo } :=
  h.later ⟨fun _ => id, (Later.refl d).prompts, (Later.refl d).inquiries⟩ rfl (fun _ => .inl)
    ok (promptsKept d) (fun _ _ => .inl) fun _ _ => .inl

/-- The inquiry that a check joins is about the check's origin. -/
theorem Sound.join (h : Sound E d) (origin : String) : Sound E (d.join origin).1 ∧
    ∃ q, (d.join origin).1.inquiries.get? (d.join origin).2 = some q ∧ q.origin = origin := by
  unfold Desk.join
  split
  · next i hi => exact ⟨h, h.memo (origin, i) (Assoc.mem_of_lookup hi)⟩
  · have last : (d.inquire origin).inquiries.get? d.inquiries.size =
        some { origin := origin, client := d.known.find? origin } := Table.get?_push_size ..
    refine ⟨(h.inquire origin).setMemo fun _ he => ?_, _, last, rfl⟩
    rcases Assoc.eq_or_mem_of_mem_set he with rfl | he
    · exact .inr ⟨_, last, rfl⟩
    · exact .inl he

theorem Later.closePrompts (d : Desk) (origin : String) : Later d (d.closePrompts origin) :=
  { Later.refl d with
    prompts := fun p prompt hp => by
      have cell : (d.closePrompts origin).prompts.get? p =
          some (if prompt.origin == origin && prompt.answer.isNone then
            { prompt with answer := some .dismissed } else prompt) := by
        unfold Desk.closePrompts Table.get? at *
        simp only [Array.getElem?_map]
        rw [hp]
        rfl
      refine ⟨_, cell, ?_, fun answered => ?_⟩
      · split <;> rfl
      · simp [Option.isNone_iff_eq_none, Option.isSome_iff_ne_none.mp answered] }

theorem Sound.closePrompts (h : Sound E d) (origin : String) : Sound E (d.closePrompts origin) := by
  refine h.later (.closePrompts d origin) rfl (fun _ => .inl) (fun _ => .inl) ?_ (fun _ _ => .inl)
    fun _ _ => .inl
  intro p _ hp
  have hlt : p < d.prompts.size := by
    have := Table.lt_size_of_get? hp
    simpa [Desk.closePrompts, Table.size] using this
  obtain ⟨old, hold⟩ := Table.get?_isSome_of_lt hlt
  obtain ⟨ho, -⟩ := of_eq_some ((Later.closePrompts d origin).prompts p old hold) hp
  exact .inl ⟨old, hold, ho⟩

/-- An origin that the list has is let in. -/
theorem Sound.admitLate (h : Sound E d) (hk : d.checks.get? c = some k) (listed : E.listed c k.origin) :
    SoundResult E (fun d => E.listed c k.origin ∨ Grounds E d k.origin) k.origin (d.admitLate c k.origin) := by
  have forgotten : Sound E (d.forget k.origin).1 :=
    h.setMemo fun _ he => .inl (Assoc.mem_of_mem_erase he)
  have withdrawn := forgotten.setPending ((d.forget k.origin).1.pending.filter (· != k.origin))
  have settled := withdrawn.setCheck (c := c) (p := .settled (.ok ())) hk (.inl listed)
  unfold Desk.admitLate
  dsimp only
  split
  · exact ⟨settled.closePrompts k.origin, by rintro _ ⟨⟩; exact .inl listed⟩
  · exact ⟨settled, by rintro _ ⟨⟩; exact .inl listed⟩

theorem Sound.race (h : Sound E d) (hk : d.checks.get? c = some k) (hq : d.inquiries.get? i = some q)
    (ho : q.origin = k.origin) (unlisted : d.list.contains k.origin = false) (loaded : E.loaded d.onFile)
    (shown : ∀ request, .display request ∈ (d.race c k.origin i).2.1 → E.shown d.prompts.size request.origin) :
    SoundResult E (fun d => E.listed c k.origin ∨ Grounds E d k.origin) k.origin (d.race c k.origin i) := by
  have same : (d.lookInquiry i).1.checks.get? c = some k := by rw [checks_lookInquiry, hk]
  rw [race_of_unlisted unlisted] at shown ⊢
  obtain ⟨sound, warranted⟩ := h.lookInquiry hq loaded shown
  rw [ho] at warranted
  cases hr : (d.lookInquiry i).2.2 with
  | none =>
    obtain ⟨q', hq', ho'⟩ := (Later.lookInquiry d i).inquiries i q hq
    exact ⟨sound.setCheck same ⟨q', hq', ho'.trans ho⟩, nofun⟩
  | some outcome =>
    have warranted := warranted outcome hr
    refine ⟨sound.setCheck same (warranted.imp .inr), ?_⟩
    rintro _ ⟨⟩
    exact warranted.imp fun grounds => .inr (grounds.later { Later.refl _ with })

/-- Looking at a check is sound. -/
theorem Sound.look (h : Sound E d) (hk : d.checks.get? c = some k)
    (listed : d.list.contains k.origin = true → E.listed c k.origin) (loaded : E.loaded d.onFile)
    (shown : ∀ request, .display request ∈ (d.look c).2.1 → E.shown d.prompts.size request.origin) :
    SoundResult E (fun d => E.listed c k.origin ∨ Grounds E d k.origin) k.origin (d.look c) := by
  have ok : CheckOk E d c k.origin k.phase := h.checks c k hk
  have glimpse := glimpse_look hk
  generalize d.look c = result at glimpse shown
  cases glimpse with
  | waits => exact ⟨h, nofun⟩
  | settled phase =>
    rw [phase] at ok
    exact ⟨h, by rintro _ ⟨⟩; exact ok⟩
  | listed _ list =>
    have admitted : CheckOk E d c k.origin (.settled (.ok ())) := .inl (listed list)
    exact ⟨h.setCheck hk admitted, by rintro _ ⟨⟩; exact .inl (listed list)⟩
  | late _ list => exact h.admitLate hk (listed list)
  | joins _ list =>
    obtain ⟨sound, q, hq, ho⟩ := h.join k.origin
    rw [← prompts_join d k.origin] at shown
    rw [← list_join d k.origin] at list
    rw [← onFile_join d k.origin] at loaded
    exact sound.race (by rw [checks_join, hk]) hq ho list loaded shown
  | races phase list =>
    rw [phase] at ok
    obtain ⟨q, hq, ho⟩ := ok
    exact h.race hk hq ho list loaded shown

/-! ## Every run is sound -/

/-- More has come to light. -/
structure Evidence.Le (E E' : Evidence) : Prop where
  known : E'.known = E.known
  listed : ∀ {c origin}, E.listed c origin → E'.listed c origin
  loaded : ∀ {decisions}, E.loaded decisions → E'.loaded decisions
  shown : ∀ {p origin}, E.shown p origin → E'.shown p origin

theorem Grounds.mono (hE : E.Le E') {origin : String} (h : Grounds E d origin) : Grounds E' d origin :=
  Or.imp (fun ⟨client, hc, ha⟩ => ⟨client, hE.known ▸ hc, ha⟩)
    (Or.imp (fun ⟨decisions, hr, hl, hg⟩ => ⟨decisions, hr, hE.loaded hl, hg⟩)
      fun ⟨p, hs, hp⟩ => ⟨p, hE.shown hs, hp⟩) h

theorem Sound.mono (h : Sound E d) (hE : E.Le E') : Sound E' d where
  known := h.known.trans hE.known.symm
  read decisions hr := hE.loaded (h.read decisions hr)
  memo := h.memo
  prompts p prompt hp := hE.shown (h.prompts p prompt hp)
  inquiries i q hq := by
    obtain ⟨client, ok⟩ := h.inquiries i q hq
    refine ⟨hE.known ▸ client, ?_⟩
    cases hp : q.phase with
    | fresh => trivial
    | asking =>
      rw [hp] at ok
      exact ok
    | settled =>
      rw [hp] at ok
      exact ok.imp (Grounds.mono hE)
  checks c k hk := by
    have ok : CheckOk E d c k.origin k.phase := h.checks c k hk
    show CheckOk E' d c k.origin k.phase
    cases hp : k.phase with
    | start => trivial
    | racing =>
      rw [hp] at ok
      exact ok
    | settled =>
      rw [hp] at ok
      exact ok.imp (Or.imp hE.listed (Grounds.mono hE))

theorem evidence_concat (d : Desk) (es : List Incident) (e : Incident) :
    (d.evidence es).Le (d.evidence (es ++ [e])) where
  known := rfl
  listed := fun ⟨before, hb, hl, rest⟩ => ⟨before, hb.trans (List.prefix_append ..),
    Nat.lt_of_lt_of_le hl (List.prefix_append es [e]).length_le, rest⟩
  loaded := fun ⟨before, hb, rest⟩ => ⟨before, hb.trans (List.prefix_append ..), rest⟩
  shown := fun ⟨before, e', request, hb, rest⟩ =>
    ⟨before, e', request, hb.trans (List.prefix_append ..), rest⟩

variable {es : List Incident}

theorem evidence_listed {d : Desk} {origin : String} (e : Incident) (hk : (d.run es).checks.get? c = some k)
    (h : (d.run es).list.contains origin = true) : (d.evidence (es ++ [e])).listed c origin := by
  refine ⟨es, List.prefix_append .., by simp, Table.lt_size_of_get? hk, ?_⟩
  cases hl : (d.run es).list with
  | loaded origins =>
    rw [hl] at h
    exact ⟨origins, rfl, List.contains_iff_mem.mp h⟩
  | loading | unavailable => rw [hl] at h; cases h

theorem evidence_loaded (d : Desk) (es : List Incident) (e : Incident) :
    (d.evidence (es ++ [e])).loaded (d.run es).onFile := ⟨es, List.prefix_append .., rfl⟩

theorem evidence_shown {d : Desk} {e : Incident} {request : PromptRequest}
    (h : .display request ∈ ((d.run es).meet e).2) :
    (d.evidence (es ++ [e])).shown (d.run es).prompts.size request.origin :=
  ⟨es, e, request, List.prefix_rfl, h, rfl, rfl⟩

/-- The user's answer to an open prompt takes nothing back. -/
theorem Sound.answer (h : Sound E d) (origin : String) (answer : Answer) :
    Sound E ((d.answer? origin answer).getD d) := by
  unfold Desk.answer?
  cases ho : d.openPrompt? origin with
  | none => exact h
  | some p =>
    have unanswered : ∀ prompt, d.prompts.get? p = some prompt → prompt.answer = none := by
      intro prompt hp
      unfold openPrompt? at ho
      obtain ⟨_, he, rfl⟩ := Option.map_eq_some_iff.mp ho
      have found := List.find?_some he
      have mem := List.mem_of_find?_eq_some he
      simp only [Table.entries, List.mem_map, List.mem_zipIdx_iff_getElem?] at mem
      obtain ⟨⟨prompt', i⟩, hi, rfl⟩ := mem
      have same : d.prompts.get? i = some prompt' := by
        unfold Table.get?
        rw [← Array.getElem?_toList]
        exact hi
      cases hp.symm.trans same
      simpa using (Bool.and_eq_true_iff.mp found).2
    refine h.later { Later.refl d with prompts := fun _ prompt _ => ?_ } rfl (fun _ => .inl)
      (fun _ => .inl) ?_ (fun _ _ => .inl) fun _ _ => .inl
    · grind
    · grind

theorem Sound.check (h : Sound E d) (origin : String) : Sound E (d.check origin) := by
  refine h.later { Later.refl d with } rfl (fun _ => .inl) (fun _ => .inl) (promptsKept d)
    (fun _ _ => .inl) ?_
  intro _ _ hk
  unfold Desk.check at hk
  rw [Table.get?_push] at hk
  split at hk
  · obtain rfl := Option.some.inj hk
    exact .inr trivial
  · exact .inl hk

/-- An incident leaves a desk sound. -/
theorem Sound.meet {d₀ : Desk} (h : Sound (d₀.evidence es) (d₀.run es))
    (e : Incident) : Sound (d₀.evidence (es ++ [e])) ((d₀.run es).meet e).1 := by
  have h := h.mono (evidence_concat d₀ es e)
  have same : ∀ {d' : Desk}, d'.known = (d₀.run es).known → d'.read = (d₀.run es).read →
      d'.memo = (d₀.run es).memo → d'.prompts = (d₀.run es).prompts →
      d'.inquiries = (d₀.run es).inquiries → d'.checks = (d₀.run es).checks →
      Sound (d₀.evidence (es ++ [e])) d' := by
    rintro ⟨⟩ rfl rfl rfl rfl rfl rfl
    exact h.later { Later.refl (d₀.run es) with } rfl (fun _ => .inl) (fun _ => .inl)
      (promptsKept _) (fun _ _ => .inl) fun _ _ => .inl
  cases e with
  | check origin => exact h.check origin
  | inquire origin => exact h.inquire origin
  | look c =>
    cases hk : (d₀.run es).checks.get? c with
    | none =>
      show Sound _ ((d₀.run es).look c).1
      rw [look_of_none hk]
      exact h
    | some =>
      exact (h.look hk (evidence_listed _ hk) (evidence_loaded d₀ es _) fun _ =>
        evidence_shown (e := .look c)).1
  | lookInquiry i =>
    cases hq : (d₀.run es).inquiries.get? i with
    | none =>
      show Sound _ ((d₀.run es).lookInquiry i).1
      rw [lookInquiry_of_none hq]
      exact h
    | some => exact (h.lookInquiry hq (evidence_loaded d₀ es _) fun _ =>
      evidence_shown (e := .lookInquiry i)).1
  | list => exact same rfl rfl rfl rfl rfl rfl
  | answer origin answer => exact h.answer origin answer
  | forget => exact h.setMemo fun e he => .inl (Assoc.mem_of_mem_erase he)
  | withdraw => exact h.setPending _
  | close origin => exact h.closePrompts origin
  | store origin =>
    show Sound _ ((d₀.run es).storeGrant origin)
    unfold Desk.storeGrant
    split
    · exact h
    · exact same rfl rfl rfl rfl rfl rfl
  | loaded =>
    show Sound _ (d₀.run es).finishLoading
    unfold Desk.finishLoading
    split
    · exact h.setRead (evidence_loaded d₀ es _) false
    · exact h

/-- Whatever happens at a fresh desk, it stays sound. -/
theorem Sound.run (s : Start) (es : List Incident) : Sound ((fresh s).evidence es) ((fresh s).run es) := by
  induction es using List.reverseRecOn with
  | nil =>
    exact { known := rfl, read := nofun, memo := nofun, prompts := .empty, inquiries := .empty
            checks := .empty }
  | append_singleton _ e ih =>
    rw [run_concat]
    exact ih.meet e

end Functions

/-- A check that ends well has a reason that concerns its own origin: the list had it while the check
was under way, the operator approves of it, the decisions that were read let it in, or a prompt shown
about it was answered with yes. Every other end is a denial that names the origin. -/
theorem look_warranted (s : Start) (es : List Incident) (c : Nat) (k : Check) (outcome : Except Fault Unit)
    (hk : ((fresh s).run es).checks.get? c = some k) (h : (((fresh s).run es).look c).2.2 = some outcome) :
    let d := fresh s
    let seen := es ++ [.look c]
    match outcome with
    | .ok _ =>
      (∃ before, before <+: es ∧ c < (d.run before).checks.size ∧
        ∃ origins, (d.run before).list = .loaded origins ∧ k.origin ∈ origins) ∨
      (∃ client, s.known.find? k.origin = some client ∧ client.autoapprove = true) ∨
      (∃ read, (d.run seen).read = some read ∧ read.lookup k.origin = some true ∧
        ∃ before, before <+: seen ∧ read = (d.run before).onFile) ∨
      ∃ p, d.Shown seen p k.origin ∧ (d.run seen).prompts.get? p = some ⟨k.origin, some .yes⟩
    | .error e => ∃ text, e = .permissionDenied k.origin text := by
  intro d seen
  have sound : Sound (d.evidence seen) (d.run es) :=
    (Sound.run s es).mono (evidence_concat d es _)
  obtain ⟨-, warranted⟩ := sound.look hk (evidence_listed _ hk) (evidence_loaded d es _) fun _ =>
    evidence_shown (e := .look c)
  have after : d.run seen = ((d.run es).look c).1 := run_concat d es (.look c)
  have warranted := warranted outcome h
  cases outcome with
  | error => exact warranted
  | ok =>
    rw [after]
    refine Or.imp ?_ (Or.imp id (Or.imp ?_ id)) warranted
    · rintro ⟨before, hb, hl, rest⟩
      refine ⟨before, List.prefix_of_prefix_length_le hb (List.prefix_append es [.look c]) ?_, rest⟩
      rw [List.length_append] at hl
      exact Nat.le_of_lt_succ hl
    · exact fun ⟨read, hr, hl, hg⟩ => ⟨read, hr, hg, hl⟩

/-- A check that waits for the list while the user is asked about the same origin by another check:
the first is let in because of the list, once it has the origin. -/
theorem look_warranted_by_list :
    let d := fresh { list := .unavailable }
    let es : List Incident := [.check "a", .check "a", .look 0, .list (.loaded ["a"])]
    (d.run es).checks.get? 1 = some { origin := "a" } ∧
      ((d.run es).look 1).2.2 = some (.ok ()) ∧
      ((∃ before, before <+: es ∧ 1 < (d.run before).checks.size ∧
        ∃ origins, (d.run before).list = .loaded origins ∧ "a" ∈ origins) ∨
      (∃ client, ({} : KnownClients).find? "a" = some client ∧ client.autoapprove = true) ∨
      (∃ read, (d.run (es ++ [.look 1])).read = some read ∧ read.lookup "a" = some true ∧
        ∃ before, before <+: es ++ [.look 1] ∧ read = (d.run before).onFile) ∨
      ∃ p, d.Shown (es ++ [.look 1]) p "a" ∧
        (d.run (es ++ [.look 1])).prompts.get? p = some ⟨"a", some .yes⟩) := by
  intro d es
  have hk : (d.run es).checks.get? 1 = some { origin := "a" } := rfl
  have h : ((d.run es).look 1).2.2 = some (.ok ()) := rfl
  exact ⟨hk, h, look_warranted { list := .unavailable } es 1 _ _ hk h⟩

end Desk

end Switchboard
