import Mathlib.Data.List.Infix
import Switchboard.Proofs.Grants

/-!
# One prompt and one answer for each origin

Checks of one origin share the inquiry in the memo. An inquiry shows its prompt when it is first looked
at and never again, and a new one is begun only when the memo has none. So the user is asked about an
origin at most once, and once more for every time that the list came to have the origin and a check
took its inquiry out of the memo. While the list does not have the origin, the inquiry stays, and what
comes of it is what comes of every check.
-/

namespace Switchboard

def InquiryPhase.isFresh : InquiryPhase → Bool
  | .fresh => true
  | _ => false

namespace Table

variable {α : Type}

theorem countP_push (p : α → Bool) (t : Table α) (a : α) :
    (t.push a).toList.countP p = t.toList.countP p + (p a).toNat := by
  cases hp : p a <;> simp [toList, push, List.countP_append, hp]

theorem countP_modify {t : Table α} {i : Nat} {a : α} (h : t.get? i = some a) (p : α → Bool)
    (f : α → α) : (t.modify i f).toList.countP p + (p a).toNat =
      t.toList.countP p + (p (f a)).toNat := by
  have found : t.toList[i]? = some a := by simpa [toList, get?] using h
  have cells : (t.modify i f).toList = t.toList.modify i f := by simp [toList, modify]
  rw [cells]
  clear h cells
  generalize t.toList = l at found
  induction l generalizing i with
  | nil => cases found
  | cons =>
    grind

end Table

namespace Desk

/-! ## What a run shows -/

def asksAbout (origin : String) : Errand → Bool
  | .display request => request.origin == origin
  | _ => false

def errands (d : Desk) : List Incident → List Errand
  | [] => []
  | e :: es => (d.meet e).2 ++ errands (d.meet e).1 es

/-- Whether a check of an origin that the list has come to have takes its inquiry out of the memo. -/
def evicts (d : Desk) (origin : String) : Incident → Bool
  | .look c => (d.checks.get? c).any (·.origin == origin) && d.list.contains origin &&
      (d.look c).2.2.any Except.isOk && Assoc.has origin d.memo && !Assoc.has origin (d.look c).1.memo
  | _ => false

/-- How often the inquiry about an origin was taken out of the memo by a check. -/
def evictions (d : Desk) (origin : String) : List Incident → Nat
  | [] => 0
  | e :: es => (d.evicts origin e).toNat + evictions (d.meet e).1 origin es

/-- Whether it is left to the checks to ask about an origin and to forget the inquiry about it. -/
def leavesAlone (origin : String) : Incident → Bool
  | .inquire origin' => origin' != origin
  | .forget origin' => origin' != origin
  | _ => true

def Resolves (d : Desk) (es : List Incident) (origin : String) (outcome : Except Fault Unit) : Prop :=
  ∃ before c after k, es = before ++ .look c :: after ∧ (d.run before).checks.get? c = some k ∧
    k.origin = origin ∧ ((d.run before).look c).2.2 = some outcome

theorem errands_concat (d : Desk) (es : List Incident) (e : Incident) :
    d.errands (es ++ [e]) = d.errands es ++ ((d.run es).meet e).2 := by
  induction es generalizing d with
  | nil => simp [errands, run, Runs.run]
  | cons _ es ih =>
    show _ ++ errands _ (es ++ [e]) = _
    rw [ih, ← List.append_assoc]
    rfl

theorem evictions_concat (d : Desk) (origin : String) (es : List Incident) (e : Incident) :
    d.evictions origin (es ++ [e]) =
      d.evictions origin es + ((d.run es).evicts origin e).toNat := by
  induction es generalizing d with
  | nil => exact Nat.add_comm ..
  | cons _ es ih =>
    show _ + evictions _ origin (es ++ [e]) = _
    rw [ih, ← Nat.add_assoc]
    rfl

/-! ## What a look changes -/

/-- An inquiry that was not settled goes on to a phase, and its prompt is shown if it was fresh. -/
structure Moves (d : Desk) (i : Nat) (q : Inquiry) (phase : InquiryPhase)
    (result : Desk × List Errand × Option (Except Fault Unit)) : Prop where
  begun : phase.isFresh = false
  inquiries : result.1.inquiries = d.inquiries.modify i fun q => { q with phase := phase }
  memo : result.1.memo = d.memo
  outcome : ∀ o, result.2.2 = some o → phase = .settled o
  asked : ∀ origin, result.2.1.countP (asksAbout origin) ≤
    (q.phase.isFresh && q.origin == origin).toNat

/-- What looking at an inquiry comes to. -/
inductive Progress (d : Desk) (i : Nat) (result : Desk × List Errand × Option (Except Fault Unit)) : Prop
  | idle (desk : result.1 = d) (errands : result.2.1 = [])
      (outcome : ∀ o, result.2.2 = some o → ∃ q, d.inquiries.get? i = some q ∧ q.phase = .settled o)
  | moved {q : Inquiry} {phase : InquiryPhase} (inquiry : d.inquiries.get? i = some q)
      (unsettled : ∀ o, q.phase ≠ .settled o) (moves : Moves d i q phase result)

theorem errands_conclude (d : Desk) (i : Nat) (origin : String) (answer : Answer) (origin' : String) :
    (d.conclude i origin answer).2.1.countP (asksAbout origin') = 0 := by
  cases answer <;> rfl

variable {q : Inquiry}

/-- The prompt of a fresh inquiry is shown; with a standing answer it is answered at once. -/
theorem Moves.ask (d : Desk) (i : Nat) (read : Option Decisions) (fresh : q.phase.isFresh = true) :
    ∃ phase, Moves d i q phase ({ d with read := read }.ask i q) := by
  have one : ∀ origin errands, errands.countP (asksAbout origin) = 0 →
      (Errand.display (request q) :: errands).countP (asksAbout origin) ≤
        (q.phase.isFresh && q.origin == origin).toNat := by
    intro origin errands none
    rw [List.countP_cons, none, asksAbout, request_origin, fresh, Bool.true_and]
    cases q.origin == origin <;> decide
  rw [ask_eq]
  cases d.standing with
  | none => exact ⟨_, rfl, rfl, rfl, nofun, fun origin => one origin [] rfl⟩
  | some =>
    exact ⟨_, rfl, Table.modify_modify .., rfl, by rintro _ ⟨⟩; rfl,
      fun origin => one origin _ (errands_conclude ..)⟩

theorem progress_lookInquiry (d : Desk) (i : Nat) : Progress d i (d.lookInquiry i) := by
  cases hq : d.inquiries.get? i with
  | none =>
    rw [lookInquiry_of_none hq]
    exact .idle rfl rfl nofun
  | some q =>
    have sight := sight_lookInquiry hq
    generalize d.lookInquiry i = result at sight
    cases sight with
    | finished phase => exact .idle rfl rfl (by rintro o ⟨⟩; exact ⟨q, hq, phase⟩)
    | unanswered => exact .idle rfl rfl nofun
    | answered phase =>
      refine .moved hq (by rw [phase]; nofun) ⟨rfl, rfl, rfl, by rintro _ ⟨⟩; rfl, fun _ => ?_⟩
      rw [errands_conclude]
      exact Nat.zero_le _
    | decided phase =>
      exact .moved hq (by rw [phase]; nofun) ⟨rfl, rfl, rfl, by rintro _ ⟨⟩; rfl, fun _ => Nat.zero_le _⟩
    | asks phase =>
      obtain ⟨_, moves⟩ := Moves.ask d i (some d.decisionsRead) (by rw [phase]; rfl)
      exact .moved hq (by rw [phase]; nofun) moves

section

variable (d : Desk) (c : Nat)

theorem memo_admitLate (origin : String) : (d.admitLate c origin).1.memo = Assoc.erase origin d.memo := by
  unfold Desk.admitLate
  dsimp only
  split <;> rfl

theorem inquiries_admitLate (origin : String) : (d.admitLate c origin).1.inquiries = d.inquiries := by
  unfold Desk.admitLate
  dsimp only
  split <;> rfl

theorem errands_admitLate (origin origin' : String) :
    (d.admitLate c origin).2.1.countP (asksAbout origin') = 0 := by
  unfold Desk.admitLate
  dsimp only
  split <;> rfl

theorem outcome_admitLate (origin : String) : (d.admitLate c origin).2.2 = some (.ok ()) := by
  unfold Desk.admitLate
  dsimp only
  split <;> rfl

theorem checks_admitLate (origin : String) :
    (d.admitLate c origin).1.checks = (d.setCheck c (.settled (.ok ()))).checks := by
  unfold Desk.admitLate
  dsimp only
  split <;> rfl

end

/-- The desk remembers the same of its checks and inquiries. -/
structure Alike (d d' : Desk) : Prop where
  inquiries : d'.inquiries = d.inquiries
  memo : d'.memo = d.memo
  checks : d'.checks = d.checks

/-- The user's answer has no bearing on an inquiry until it is looked at. -/
theorem Alike.answer (d : Desk) (origin : String) (answer : Answer) :
    Alike d ((d.answer? origin answer).getD d) := by
  unfold Desk.answer?
  cases d.openPrompt? origin <;> exact ⟨rfl, rfl, rfl⟩

theorem Alike.storeGrant (d : Desk) (origin : String) : Alike d (d.storeGrant origin) := by
  unfold Desk.storeGrant
  split <;> exact ⟨rfl, rfl, rfl⟩

theorem Alike.finishLoading (d : Desk) : Alike d d.finishLoading := by
  unfold Desk.finishLoading
  split <;> exact ⟨rfl, rfl, rfl⟩

/-! ## Prompts are counted by inquiries -/

def about (origin : String) (inquiries : Table Inquiry) : Nat :=
  inquiries.toList.countP (·.origin == origin)

def unseen (origin : String) (inquiries : Table Inquiry) : Nat :=
  inquiries.toList.countP fun q => q.phase.isFresh && q.origin == origin

/-- How many prompts about an origin were shown, and how often the inquiry about it was taken out of
the memo: every prompt has an inquiry of its own that was looked at, and all inquiries but the one in
the memo were taken out. -/
structure Tally (origin : String) (shown evicted : Nat) (d : Desk) : Prop where
  prompted : shown + unseen origin d.inquiries ≤ about origin d.inquiries
  begun : about origin d.inquiries ≤ evicted + (Assoc.has origin d.memo).toNat

namespace Tally

variable {origin : String} {shown evicted : Nat} {d : Desk}

theorem fresh (origin : String) (s : Start) : Tally origin 0 0 (.fresh s) :=
  ⟨Nat.le_refl _, Nat.zero_le _⟩

theorem congr {d' : Desk} (h : Tally origin shown evicted d) (inquiries : d'.inquiries = d.inquiries)
    (memo : d'.memo = d.memo) : Tally origin shown evicted d' :=
  ⟨inquiries ▸ h.prompted, inquiries ▸ memo ▸ h.begun⟩

section

variable (h : Tally origin shown evicted d)
include h

/-- An inquiry begins: none that is about the origin, or the one that the memo had not. -/
theorem inquire (origin' : String) {d' : Desk} (inquiries : d'.inquiries = (d.inquire origin').inquiries)
    (memo : (Assoc.has origin d.memo).toNat + (origin' == origin).toNat ≤
      (Assoc.has origin d'.memo).toNat) : Tally origin shown evicted d' := by
  obtain ⟨_, _⟩ := h
  have more : about origin d'.inquiries = about origin d.inquiries + (origin' == origin).toNat := by
    rw [inquiries]
    exact Table.countP_push ..
  have unseen : unseen origin d'.inquiries = unseen origin d.inquiries + (origin' == origin).toNat := by
    rw [inquiries]
    exact Table.countP_push ..
  constructor <;> omega

theorem join (origin' : String) : Tally origin shown evicted (d.join origin').1 := by
  unfold Desk.join
  split
  · exact h
  · refine h.inquire origin' rfl ?_
    simp only [Assoc.has_eq_isSome_lookup, Assoc.lookup_set]
    grind

/-- The prompt of an inquiry is shown when it is first looked at. -/
theorem lookInquiry (i : Nat) : Tally origin (shown + (d.lookInquiry i).2.1.countP (asksAbout origin)) evicted
      (d.lookInquiry i).1 := by
  cases progress_lookInquiry d i with
  | idle desk errands =>
    rw [desk, errands]
    exact h
  | @moved q phase hq _ moves =>
    obtain ⟨_, _⟩ := h
    have asked := moves.asked origin
    have same : about origin (d.lookInquiry i).1.inquiries = about origin d.inquiries := by
      rw [moves.inquiries]
      exact Nat.add_right_cancel
        (Table.countP_modify hq (·.origin == origin) fun q => { q with phase := phase })
    have fewer : unseen origin (d.lookInquiry i).1.inquiries +
        (q.phase.isFresh && q.origin == origin).toNat = unseen origin d.inquiries := by
      rw [moves.inquiries]
      refine (Table.countP_modify hq (fun q => q.phase.isFresh && q.origin == origin)
        fun q => { q with phase := phase }).trans ?_
      rw [moves.begun]
      rfl
    constructor
    · omega
    · rw [moves.memo]
      omega

theorem race {origin' : String} (unlisted : d.list.contains origin' = false) (c i : Nat) :
    Tally origin (shown + (d.race c origin' i).2.1.countP (asksAbout origin)) evicted
      (d.race c origin' i).1 := by
  rw [race_of_unlisted unlisted]
  exact (h.lookInquiry i).congr rfl rfl

/-- An inquiry is taken out of the memo. -/
theorem erase {d' : Desk} {evicted' : Nat} (inquiries : d'.inquiries = d.inquiries)
    (counted : Assoc.has origin d.memo = true → Assoc.has origin d'.memo = true ∨ evicted < evicted')
    (le : evicted ≤ evicted') : Tally origin shown evicted' d' := by
  refine ⟨inquiries ▸ h.prompted, ?_⟩
  have begun := h.begun
  rw [inquiries]
  cases before : Assoc.has origin d.memo with
  | false =>
    rw [before, Bool.toNat_false] at begun
    omega
  | true =>
    grind

/-- One look at a check. -/
theorem look (c : Nat) : Tally origin (shown + (d.look c).2.1.countP (asksAbout origin))
      (evicted + (d.evicts origin (.look c)).toNat) (d.look c).1 := by
  have more {n : Nat} {d' : Desk} (h : Tally origin n evicted d') :
      Tally origin n (evicted + (d.evicts origin (.look c)).toNat) d' :=
    ⟨h.prompted, Nat.le_trans h.begun (by omega)⟩
  cases hk : d.checks.get? c with
  | none =>
    rw [look_of_none hk]
    exact more h
  | some k =>
    have glimpse := glimpse_look hk
    generalize hr : d.look c = result at glimpse ⊢
    cases glimpse with
    | waits | settled => exact more h
    | listed => exact more (h.congr rfl rfl)
    | joins _ list => exact more ((h.join k.origin).race (by rw [list_join, list]) ..)
    | races _ list => exact more (h.race list ..)
    | late _ list =>
      rw [errands_admitLate, Nat.add_zero]
      refine h.erase (inquiries_admitLate ..) (fun had => ?_) (Nat.le_add_right ..)
      -- Only the entry of the check's own origin is taken out.
      by_cases same : k.origin = origin
      · subst same
        right
        have taken : Assoc.has k.origin (d.admitLate c k.origin).1.memo = false := by
          rw [memo_admitLate, Assoc.has_eq_isSome_lookup, Assoc.lookup_erase]
          simp
        have evicts : d.evicts k.origin (.look c) = true := by
          unfold Desk.evicts
          simp only [hk, hr, list, had, taken, outcome_admitLate]
          simp [Except.isOk, Except.toBool]
        rw [evicts]
        exact Nat.lt_succ_self _
      · left
        rw [memo_admitLate, Assoc.has_eq_isSome_lookup, Assoc.lookup_erase,
          if_neg (by simpa using Ne.symm same), ← Assoc.has_eq_isSome_lookup]
        exact had

/-- What one incident preserves. -/
theorem meet {e : Incident} (alone : leavesAlone origin e = true) :
    Tally origin (shown + (d.meet e).2.countP (asksAbout origin))
      (evicted + (d.evicts origin e).toNat) (d.meet e).1 := by
  cases e with
  | look c => exact h.look c
  | lookInquiry i => exact h.lookInquiry i
  | check | list | withdraw | close => exact h.congr rfl rfl
  | inquire origin' =>
    have other : origin' ≠ origin := by simpa [leavesAlone] using alone
    exact h.inquire origin' rfl (by rw [beq_false_of_ne other]; exact Nat.le_refl _)
  | answer origin' answer =>
    have alike := Alike.answer d origin' answer
    exact h.congr alike.inquiries alike.memo
  | store origin' =>
    have alike := Alike.storeGrant d origin'
    exact h.congr alike.inquiries alike.memo
  | loaded =>
    have alike := Alike.finishLoading d
    exact h.congr alike.inquiries alike.memo
  | forget origin' =>
    have other : origin' ≠ origin := by simpa [leavesAlone] using alone
    refine h.erase rfl (fun _ => .inl ?_) (Nat.le_add_right ..)
    show Assoc.has origin (Assoc.erase origin' d.memo) = true
    grind [Assoc.has_eq_isSome_lookup]

end

theorem run (h : Tally origin 0 0 d) {es : List Incident}
    (alone : ∀ e ∈ es, leavesAlone origin e = true) :
    Tally origin ((d.errands es).countP (asksAbout origin)) (d.evictions origin es) (d.run es) := by
  induction es using List.reverseRecOn with
  | nil => exact h
  | append_singleton _ e ih =>
    have before := ih fun e' he' => alone e' (List.mem_append_left _ he')
    grind [before.meet, errands_concat, evictions_concat, run_concat]

theorem shown_le (h : Tally origin shown evicted d) : shown ≤ evicted + 1 := by
  have := h.prompted
  have := h.begun
  have := Bool.toNat_le (Assoc.has origin d.memo)
  omega

end Tally

/-! ## Checks share the outcome -/

/-- The inquiry about an origin stays in the memo, and what has been settled stays so. -/
structure Keeps (origin : String) (d d' : Desk) : Prop where
  memo : ∀ i, d.memo.lookup origin = some i → d'.memo.lookup origin = some i
  settled : ∀ i q o, d.inquiries.get? i = some q → q.phase = .settled o →
    ∃ q', d'.inquiries.get? i = some q' ∧ q'.phase = .settled o

theorem Keeps.of_eq {origin : String} {d d' : Desk} (memo : d'.memo = d.memo)
    (inquiries : d'.inquiries = d.inquiries) : Keeps origin d d' :=
  ⟨fun _ h => memo ▸ h, fun _ q _ h hq => ⟨q, inquiries ▸ h, hq⟩⟩

theorem Keeps.trans {origin : String} {d d' d'' : Desk} (h : Keeps origin d d')
    (h' : Keeps origin d' d'') : Keeps origin d d'' where
  memo i hi := h'.memo i (h.memo i hi)
  settled i q o hq ho := by
    obtain ⟨q', hq', ho'⟩ := h.settled i q o hq ho
    exact h'.settled i q' o hq' ho'

/-- Taking the inquiry of another origin out of the memo. -/
theorem Keeps.erase {origin origin' : String} (other : origin' ≠ origin) {d d' : Desk}
    (memo : d'.memo = Assoc.erase origin' d.memo) (inquiries : d'.inquiries = d.inquiries) :
    Keeps origin d d' where
  memo i hi := by
    rw [memo, Assoc.lookup_erase, if_neg (by simpa using Ne.symm other)]
    exact hi
  settled := fun _ q _ hq ho => ⟨q, inquiries ▸ hq, ho⟩

theorem Keeps.inquire (origin origin' : String) (d : Desk) : Keeps origin d (d.inquire origin') where
  memo _ hi := hi
  settled _ q _ hq ho := ⟨q, (Table.get?_push_of_lt (Table.lt_size_of_get? hq) _).trans hq, ho⟩

theorem Keeps.join (origin origin' : String) (d : Desk) : Keeps origin d (d.join origin').1 := by
  unfold Desk.join
  split
  · exact .of_eq rfl rfl
  · refine ⟨fun _ _ => ?_, (Keeps.inquire origin origin' d).settled⟩
    grind

theorem Keeps.lookInquiry (origin : String) (d : Desk) (i : Nat) :
    Keeps origin d (d.lookInquiry i).1 := by
  cases progress_lookInquiry d i with
  | idle desk =>
    rw [desk]
    exact .of_eq rfl rfl
  | moved hq unsettled moves =>
    refine ⟨fun _ hi => moves.memo ▸ hi, fun j q' o hq' ho => ⟨q', ?_, ho⟩⟩
    have apart : i ≠ j := by
      rintro rfl
      cases hq.symm.trans hq'
      exact unsettled o ho
    rw [moves.inquiries, Table.get?_modify_of_ne apart, hq']

theorem Keeps.race (origin : String) {d : Desk} {origin' : String}
    (unlisted : d.list.contains origin' = false) (c i : Nat) :
    Keeps origin d (d.race c origin' i).1 := by
  rw [race_of_unlisted unlisted]
  exact (Keeps.lookInquiry origin d i).trans (.of_eq rfl rfl)

/-- Where a check of an origin may stand: it waits for the inquiry in the memo, or has its outcome. -/
def Agrees (d : Desk) (origin : String) : CheckPhase → Prop
  | .start => True
  | .racing i => d.memo.lookup origin = some i
  | .settled o => ∃ i q, d.memo.lookup origin = some i ∧ d.inquiries.get? i = some q ∧
      q.phase = .settled o

theorem Agrees.keep {origin : String} {d d' : Desk} (keeps : Keeps origin d d') {phase : CheckPhase}
    (h : Agrees d origin phase) : Agrees d' origin phase := by
  cases phase with
  | start => trivial
  | racing i => exact keeps.memo i h
  | settled o =>
    obtain ⟨i, q, hi, hq, ho⟩ := h
    obtain ⟨q', hq', ho'⟩ := keeps.settled i q o hq ho
    exact ⟨i, q', keeps.memo i hi, hq', ho'⟩

variable {o : Except Fault Unit}

theorem Agrees.unique {origin : String} {d : Desk} {o' : Except Fault Unit}
    (h : Agrees d origin (.settled o)) (h' : Agrees d origin (.settled o')) : o = o' := by
  obtain ⟨_, _, hi, hq, ho⟩ := h
  obtain ⟨_, _, hi', hq', ho'⟩ := h'
  cases hi.symm.trans hi'
  cases hq.symm.trans hq'
  exact InquiryPhase.settled.inj (ho.symm.trans ho')

def Agreed (origin : String) (d : Desk) : Prop :=
  d.checks.All fun _ k => k.origin = origin → Agrees d origin k.phase

namespace Agreed

variable {origin : String} {d d' : Desk}

theorem keep (h : Agreed origin d) (keeps : Keeps origin d d') (checks : d'.checks = d.checks) :
    Agreed origin d' := by
  intro c k hk same
  rw [checks] at hk
  exact (h c k hk same).keep keeps

theorem setCheck (h : Agreed origin d) {c : Nat} {k : Check} (hk : d.checks.get? c = some k)
    (phase : CheckPhase) (ok : k.origin = origin → Agrees d origin phase) :
    Agreed origin (d.setCheck c phase) := by
  intro c' k' hk' same
  have keeps : Keeps origin d (d.setCheck c phase) := .of_eq rfl rfl
  unfold Desk.setCheck at hk'
  dsimp only at hk'
  rw [Table.get?_modify_of_some hk] at hk'
  split at hk'
  · obtain rfl := Option.some.inj hk'
    exact (ok same).keep keeps
  · exact (h c' k' hk' same).keep keeps

/-- A check that waits for the inquiry in the memo takes its outcome. -/
theorem race (h : Agreed origin d) {c i : Nat} {k : Check} (hk : d.checks.get? c = some k)
    (unlisted : d.list.contains k.origin = false)
    (memo : k.origin = origin → d.memo.lookup origin = some i) :
    Agreed origin (d.race c k.origin i).1 := by
  have keeps := Keeps.lookInquiry origin d i
  have checks := checks_lookInquiry d i
  have looked := h.keep keeps checks
  rw [race_of_unlisted unlisted]
  refine looked.setCheck (by rw [checks, hk]) _ fun same => ?_
  have memo := memo same
  cases outcome : (d.lookInquiry i).2.2 with
  | none => exact keeps.memo i memo
  | some o =>
    refine ⟨i, ?_⟩
    cases progress_lookInquiry d i with
    | idle desk _ settled =>
      obtain ⟨q, hq, ho⟩ := settled o outcome
      rw [desk]
      exact ⟨q, memo, hq, ho⟩
    | @moved q _ hq _ moves =>
      grind [keeps.memo, moves.outcome, moves.inquiries]

end Agreed

theorem lookup_join (d : Desk) (origin : String) :
    (d.join origin).1.memo.lookup origin = some (d.join origin).2 := by
  unfold Desk.join
  split
  · next _ hi => exact hi
  · grind

section

variable {origin : String} {d : Desk} (h : Agreed origin d) (unlisted : d.list.contains origin = false)
include h unlisted

/-- Looking at a check while the list does not have the origin: the checks of the origin stay agreed. -/
theorem Agreed.look (c : Nat) : Agreed origin (d.look c).1 ∧ Keeps origin d (d.look c).1 := by
  cases hk : d.checks.get? c with
  | none =>
    rw [look_of_none hk]
    exact ⟨h, .of_eq rfl rfl⟩
  | some k =>
    have glimpse := glimpse_look hk
    generalize d.look c = result at glimpse ⊢
    have elsewhere (list : d.list.contains k.origin = true) : k.origin ≠ origin := by
      rintro rfl
      rw [list] at unlisted
      cases unlisted
    cases glimpse with
    | waits | settled => exact ⟨h, .of_eq rfl rfl⟩
    | listed _ list =>
      exact ⟨h.setCheck hk _ fun same => absurd same (elsewhere list), .of_eq rfl rfl⟩
    | late _ list =>
      have keeps : Keeps origin d (d.admitLate c k.origin).1 :=
        .erase (elsewhere list) (memo_admitLate ..) (inquiries_admitLate ..)
      have settled := h.setCheck hk (.settled (.ok ())) fun same =>
        absurd same (elsewhere list)
      exact ⟨settled.keep ⟨keeps.memo, keeps.settled⟩ (checks_admitLate ..), keeps⟩
    | joins _ list =>
      have joined := h.keep (Keeps.join origin k.origin d) (checks_join ..)
      have list : (d.join k.origin).1.list.contains k.origin = false := by rw [list_join, list]
      refine ⟨joined.race (by rw [checks_join, hk]) list fun same => same ▸ lookup_join .., ?_⟩
      exact (Keeps.join origin k.origin d).trans (.race origin list ..)
    | races phase list =>
      refine ⟨h.race hk list fun same => ?_, .race origin list ..⟩
      have agrees := h c k hk same
      rw [phase] at agrees
      exact agrees

/-- What one incident preserves while the list does not have the origin. -/
theorem Agreed.meet {e : Incident} (alone : leavesAlone origin e = true) :
    Agreed origin (d.meet e).1 ∧ Keeps origin d (d.meet e).1 := by
  have same {d' : Desk} (alike : Alike d d') : Agreed origin d' ∧ Keeps origin d d' := by
    have keeps : Keeps origin d d' := .of_eq alike.memo alike.inquiries
    exact ⟨h.keep keeps alike.checks, keeps⟩
  cases e with
  | look c => exact h.look unlisted c
  | lookInquiry i =>
    have keeps := Keeps.lookInquiry origin d i
    exact ⟨h.keep keeps (checks_lookInquiry d i), keeps⟩
  | inquire origin' =>
    have keeps := Keeps.inquire origin origin' d
    exact ⟨h.keep keeps rfl, keeps⟩
  | forget origin' =>
    have keeps : Keeps origin d (d.forget origin').1 :=
      .erase (by simpa [leavesAlone] using alone) rfl rfl
    exact ⟨h.keep keeps rfl, keeps⟩
  | check =>
    refine ⟨fun c k hk own => ?_, .of_eq rfl rfl⟩
    unfold Desk.meet Desk.check at hk
    rw [Table.get?_push] at hk
    split at hk
    · obtain rfl := Option.some.inj hk
      trivial
    · exact (h c k hk own).keep (.of_eq rfl rfl)
  | list | withdraw | close => exact same ⟨rfl, rfl, rfl⟩
  | answer origin' answer => exact same (.answer d origin' answer)
  | store origin' => exact same (.storeGrant d origin')
  | loaded => exact same (.finishLoading d)

end

theorem checks_look_of_outcome {d : Desk} {c : Nat} {k : Check} (hk : d.checks.get? c = some k)
    (ho : (d.look c).2.2 = some o) :
    (d.look c).1.checks.get? c = some { k with phase := .settled o } := by
  have set (d' : Desk) (checks : d'.checks = d.checks) :
      (d'.setCheck c (.settled o)).checks.get? c = some { k with phase := .settled o } := by
    unfold Desk.setCheck
    rw [Table.get?_modify_self, checks, hk]
    rfl
  have race (d' : Desk) (checks : d'.checks = d.checks) (i : Nat)
      (list : d'.list.contains k.origin = false) (ho : (d'.race c k.origin i).2.2 = some o) :
      (d'.race c k.origin i).1.checks.get? c = some { k with phase := .settled o } := by
    rw [race_of_unlisted list] at ho ⊢
    rw [ho]
    exact set _ ((checks_lookInquiry d' i).trans checks)
  have glimpse := glimpse_look hk
  generalize d.look c = result at glimpse ho ⊢
  cases glimpse with
  | waits => cases ho
  | settled phase =>
    cases ho
    rw [← phase]
    exact hk
  | listed =>
    cases ho
    exact set d rfl
  | late =>
    rw [outcome_admitLate] at ho
    cases ho
    rw [checks_admitLate]
    exact set d rfl
  | joins _ list => exact race _ (checks_join ..) _ (by rw [list_join, list]) ho
  | races _ list => exact race d rfl _ list ho

variable {es : List Incident}

theorem Resolves.of_concat {d : Desk} {e : Incident} {origin : String}
    (h : d.Resolves (es ++ [e]) origin o) : d.Resolves es origin o ∨
      ∃ c k, e = .look c ∧ (d.run es).checks.get? c = some k ∧ k.origin = origin ∧
        ((d.run es).look c).2.2 = some o := by
  obtain ⟨before, c, after, k, hes, rest⟩ := h
  cases after using List.reverseRecOn with
  | nil =>
    obtain ⟨rfl, he⟩ := List.append_inj' hes rfl
    exact .inr ⟨c, k, (List.cons.inj he).1, rest⟩
  | append_singleton after =>
    rw [← List.cons_append, ← List.append_assoc] at hes
    obtain ⟨rfl, -⟩ := List.append_inj' hes rfl
    exact .inl ⟨before, c, after, k, rfl, rest⟩

/-- While the list never has the origin, every outcome that was seen is that of the inquiry in the
memo. -/
theorem Agreed.run {origin : String} {d : Desk} (h : Agreed origin d)
    (alone : ∀ e ∈ es, leavesAlone origin e = true)
    (unlisted : ∀ before, before <+: es → (d.run before).list.contains origin = false) :
    Agreed origin (d.run es) ∧
      ∀ o, d.Resolves es origin o → Agrees (d.run es) origin (.settled o) := by
  induction es using List.reverseRecOn with
  | nil =>
    refine ⟨h, ?_⟩
    rintro o ⟨before, c, _, k, hes, -⟩
    simp at hes
  | append_singleton es e ih =>
    obtain ⟨agreed, seen⟩ := ih (fun e' he' => alone e' (List.mem_append_left _ he'))
      fun before hb => unlisted before (hb.trans (List.prefix_append ..))
    obtain ⟨agreed', keeps⟩ := agreed.meet (unlisted es (List.prefix_append ..))
      (alone e (List.mem_append_right _ (.head _)))
    rw [run_concat]
    refine ⟨agreed', fun o ho => ?_⟩
    rcases ho.of_concat with ho | ⟨c, k, rfl, hk, same, ho⟩
    · exact (seen o ho).keep keeps
    · exact agreed' c _ (checks_look_of_outcome hk ho) same

theorem evictions_eq_zero {origin : String} {d : Desk}
    (unlisted : ∀ before, before <+: es → (d.run before).list.contains origin = false) :
    d.evictions origin es = 0 := by
  induction es using List.reverseRecOn with
  | nil => rfl
  | append_singleton es e ih =>
    have none : (d.run es).evicts origin e = false := by
      have list := unlisted es (List.prefix_append ..)
      cases e <;> simp [evicts, list]
    rw [evictions_concat, ih fun before hb => unlisted before (hb.trans (List.prefix_append ..)), none]
    rfl

/-! ## One prompt and one answer -/

/-- However checks of an origin and of others begin and are looked at, whatever the user does and
however the list changes, the user is asked about the origin at most once more than a check of it that
the list let in later took its inquiry out of the memo. If the list never has the origin, the user is
asked at most once, and all checks of the origin that end have the same outcome. -/
theorem prompts_shared (s : Start) (es : List Incident) (origin : String)
    (alone : ∀ e ∈ es, leavesAlone origin e = true) :
    let d := fresh s
    let shown := (d.errands es).countP (asksAbout origin)
    shown ≤ d.evictions origin es + 1 ∧
      ((∀ before, before <+: es → (d.run before).list.contains origin = false) →
        shown ≤ 1 ∧ ∀ o o', d.Resolves es origin o → d.Resolves es origin o' → o = o') := by
  intro d shown
  have tally := (Tally.fresh origin s).run alone
  refine ⟨tally.shown_le, fun unlisted => ⟨?_, fun o o' ho ho' => ?_⟩⟩
  · have few := tally.shown_le
    rw [evictions_eq_zero unlisted] at few
    exact few
  · have none : Agreed origin d := fun _ _ hk => by cases hk
    obtain ⟨-, seen⟩ := none.run alone unlisted
    exact (seen o ho).unique (seen o' ho')

/-- Two checks of an origin wait for the stored decisions, and share the prompt that the user dismissed. -/
theorem prompts_shared_dismissed :
    let d := fresh { list := .unavailable, loading := true }
    let es : List Incident := [.check "a", .check "a", .check "b", .look 0, .look 2, .loaded, .look 1,
      .answer "a" .dismissed, .look 1, .look 0]
    (∀ e ∈ es, leavesAlone "a" e = true) ∧ (d.errands es).countP (asksAbout "a") = 1 ∧
      d.Resolves es "a" (.error (dismissed "a")) ∧
      ∀ o, d.Resolves es "a" o → o = .error (dismissed "a") := by
  intro d es
  have alone : ∀ e ∈ es, leavesAlone "a" e = true := by decide
  have seen : d.Resolves es "a" (.error (dismissed "a")) := by
    have check : ((d.run es.dropLast).checks.get? 0).map Check.origin = some "a" := by decide +kernel
    obtain ⟨k, hk, own⟩ := Option.map_eq_some_iff.mp check
    exact ⟨es.dropLast, 0, [], k, rfl, hk, own, by decide +kernel⟩
  have unlisted : ∀ before, before <+: es → (d.run before).list.contains "a" = false := by
    intro before hb
    rw [← List.mem_inits] at hb
    revert before
    decide +kernel
  have once : (d.errands es).countP (asksAbout "a") = 1 := by decide +kernel
  obtain ⟨-, shared⟩ := prompts_shared _ es "a" alone
  exact ⟨alone, once, seen, fun o ho => (shared unlisted).2 o _ ho seen⟩

/-- The inquiry that a check waits for is taken out of the memo while the stored decisions are read. It asks
the user nevertheless, and so does the next one. -/
example :
    let d := fresh { list := .unavailable, loading := true }
    let es : List Incident := [.check "a", .check "a", .look 0, .look 1, .list (.loaded ["a"]), .look 0,
      .list .unavailable, .loaded, .look 1, .check "a", .look 2]
    (d.errands es).countP (asksAbout "a") = 2 ∧ d.evictions "a" es = 1 := by decide +kernel

end Desk

end Switchboard
