import Mathlib.Data.List.Induction
import Mathlib.Data.List.Nodup
import Switchboard.Proofs.Dialogue

/-!
# The fate of every reply

Whatever the peer sends and whenever the channel or the requester is closed, the reply to each request
of a requester is settled once, by the first thing that concerns it: the requester was closed before,
sending failed, a response with its number came, or the requester was closed while it waited.

`Books` relates what a requester has pending to the replies that are open; `Fated` says of each reply
that it is as the turns since the request make it.
-/

namespace Switchboard

open World

namespace Dialogue

namespace Turn

/-- The requester that was given a payload, as it was before, and the payload. -/
def posting? (t : Turn) (r : Nat) : Option (Requester Nat × Json) :=
  match t.event with
  | .post r' payload => if r' = r then (coreOf t.before.world r).map (·, payload) else none
  | _ => none

def reply? (t : Turn) (r : Nat) : Option Future :=
  (t.posting? r).map fun post => (t.before.world.post r post.2).2

def number? (t : Turn) (r : Nat) : Option Nat :=
  (t.posting? r).bind fun post => if post.1.disposed then none else some post.1.nextId

def sending (t : Turn) (core : Requester Nat) (payload : Json) : Except Fault Unit :=
  (t.before.world.send line (Service.request core.name) (requestOf core payload)).2

def request? (t : Turn) (r : Nat) : Option Json :=
  (t.posting? r).bind fun post =>
    if post.1.disposed then none
    else
      match t.sending post.1 post.2 with
      | .ok _ => some (requestOf post.1 post.2)
      | .error _ => none

/-- The outcome in a response to the request with a number, which came while the channel was open. -/
def answer? (t : Turn) (name : String) (id : Nat) : Option Outcome :=
  match t.event with
  | .hear service v =>
    if service = Service.response name ∧ t.before.world.isOpen line = true then
      (Response.ofJson? v).bind fun m => if m.id = id then some (Requester.outcomeOf m) else none
    else none
  | _ => none

def closes (t : Turn) (r : Nat) : Bool :=
  (coreOf t.before.world r).any (!·.disposed) && (coreOf t.after.world r).any (·.disposed)

def settles? (t : Turn) (r : Nat) (name : String) (id : Nat) : Option Outcome :=
  (t.answer? name id).or (if t.closes r then some (.error (.requesterDisposed name)) else none)

def fate (t : Turn) (r : Nat) (core : Requester Nat) (payload : Json) (later : List Turn) :
    Option Outcome :=
  if core.disposed then some (.error (.requesterDisposed core.name))
  else
    match t.sending core payload with
    | .error e => some (.error e)
    | .ok _ => later.findSome? (·.settles? r core.name core.nextId)

end Turn

def replyIn (w : World) (reply : Future) : Option Outcome := (w.lookAt reply).2.map outcomeOf

def replies (ts : List Turn) (r : Nat) : List Future := ts.filterMap (·.reply? r)

theorem replyIn_promise (w : World) (p : Nat) :
    replyIn w (.promise p) = (w.promises.get? p).bind Promise.outcome := by
  show (((w.promises.get? p).bind Promise.outcome).map Settled.outcome).map outcomeOf = _
  cases (w.promises.get? p).bind Promise.outcome <;> rfl

variable {w' : World}

theorem replyIn_congr {w : World} (h : w'.promises = w.promises) (p : Nat) :
    replyIn w' (.promise p) = replyIn w (.promise p) := by
  rw [replyIn_promise, replyIn_promise, h]

theorem replyIn_push {w : World} {c : Promise} (h : w'.promises = w.promises.push c) (p : Nat) :
    replyIn w' (.promise p) = if p = w.promises.size then c.outcome else replyIn w (.promise p) := by
  rw [replyIn_promise, replyIn_promise, h, Table.get?_push]
  split <;> rfl

variable {o : Outcome} {p : Nat}

theorem replyIn_keep {w : World} (tickets : List Nat)
    (h : w'.promises = w.promises.modifyAll tickets (Promise.keep o)) (hp : p < w.promises.size) :
    replyIn w' (.promise p) =
      if p ∈ tickets then some ((replyIn w (.promise p)).getD o) else replyIn w (.promise p) := by
  obtain ⟨_, hc⟩ := Table.get?_isSome_of_lt hp
  rw [replyIn_promise, replyIn_promise, h, Table.get?_modifyAll, hc]
  · split <;> rfl
  · intro _
    exact Promise.keep_of_outcome rfl

variable {r : Nat} {core : Requester Nat}

/-- A requester replies with a promise, unless it is closed. -/
theorem post_reply {w : World} (hr : coreOf w r = some core) (payload : Json) :
    (w.post r payload).2 = if core.disposed then .done (.outcome (.error (.requesterDisposed core.name)))
      else .promise w.promises.size := by
  obtain ⟨cell, hcell, rfl⟩ := Option.map_eq_some_iff.mp hr
  unfold World.post
  rw [hcell]
  dsimp only
  cases hd : cell.core.disposed with
  | true =>
    rw [Requester.post_of_disposed hd]
    rfl
  | false =>
    rw [Requester.post_of_open hd]
    dsimp only
    split
    · rfl
    · split <;> rfl

/-! ## What is pending and what is open -/

variable {t : Turn}

theorem Turn.coreOf_of_posting {payload : Json} (h : t.posting? r = some (core, payload)) :
    t.event = .post r payload ∧ coreOf t.before.world r = some core := by
  grind [Turn.posting?]

theorem Turn.posting?_of_post {r₀ : Nat} {payload : Json} (h : t.event = .post r₀ payload)
    (r : Nat) : t.posting? r = if r₀ = r then (coreOf t.before.world r).map (·, payload) else none := by
  unfold Turn.posting?
  rw [h]

/-- What is given to a requester that is closed, if anything is, has no number and does not go out. -/
theorem Turn.idle (closed : ∀ core payload, t.posting? r = some (core, payload) → core.disposed = true) :
    t.number? r = none ∧ t.request? r = none := by
  unfold Turn.number? Turn.request?
  cases hp : t.posting? r with
  | none => exact ⟨rfl, rfl⟩
  | some post => exact ⟨if_pos (closed post.1 post.2 hp), if_pos (closed post.1 post.2 hp)⟩

/-- The number of a request, with the promise that is its reply. -/
def Turn.booking? (t : Turn) (r : Nat) : Option (Nat × Nat) :=
  (t.number? r).map (·, t.before.world.promises.size)

def entries (ts : List Turn) (r : Nat) : List (Nat × Nat) := ts.filterMap (·.booking? r)

theorem entries_append (ts : List Turn) (t : Turn) (r : Nat) :
    entries (ts ++ [t]) r = entries ts r ++ (t.booking? r).toList := by
  rw [entries, List.filterMap_append, ← entries]
  cases h : t.booking? r <;> simp [h]

def awaited (w : World) (e : Nat × Nat) : Bool := (replyIn w (.promise e.2)).isNone

/-- What a requester has pending are those of its requests whose replies are open. -/
structure Books (ts : List Turn) (w : World) : Prop where
  bound : ∀ r, ∀ e ∈ entries ts r, e.2 < w.promises.size
  apart : ∀ r r', ∀ e ∈ entries ts r, ∀ e' ∈ entries ts r', e.2 = e'.2 → r = r' ∧ e = e'
  numbers : ∀ r core, coreOf w r = some core → (entries ts r).map Prod.fst = List.range core.nextId
  pending : ∀ r core, coreOf w r = some core → core.pending = (entries ts r).filter (awaited w)
  shut : ∀ r core, coreOf w r = some core → core.disposed = true → core.pending = []
  posters : ∀ t ∈ ts, ∀ r before payload, t.posting? r = some (before, payload) →
    ∃ core, coreOf w r = some core ∧ core.name = before.name

/-- A requester keeps its name, and stays closed once it is. -/
theorem Act.kept_core {w : World} {e : Event} (act : Act w e w')
    (hr : coreOf w r = some core) : ∃ core', coreOf w' r = some core' ∧ core'.name = core.name ∧
      (core.disposed = true → core'.disposed = true) := by
  have acting {r₁ : Nat} {core₁ core₁' : Requester Nat} (h₁ : coreOf w r₁ = some core₁)
      (live : core₁.disposed = false)
      (cores : ∀ r', coreOf w' r' = if r' = r₁ then some core₁' else coreOf w r')
      (name : core₁'.name = core₁.name) :
      ∃ core', coreOf w' r = some core' ∧ core'.name = core.name ∧
        (core.disposed = true → core'.disposed = true) := by
    rw [cores]
    split
    · grind
    · exact ⟨core, hr, rfl, id⟩
  cases act with
  | rest cores => exact ⟨core, (cores r).trans hr, rfl, id⟩
  | enlist _ _ cores =>
    obtain ⟨_, hcell, -⟩ := Option.map_eq_some_iff.mp hr
    rw [cores, if_neg (Nat.ne_of_lt (Table.lt_size_of_get? hcell))]
    exact ⟨core, hr, rfl, id⟩
  | send _ _ _ _ h₁ live _ _ cores | fail _ _ _ _ _ h₁ live _ _ cores
  | answer _ _ _ _ _ _ _ _ _ h₁ live _ cores | giveUp _ _ _ h₁ live cores => exact acting h₁ live cores rfl

namespace Books

variable {ts : List Turn} {w : World}

theorem mem_pending (h : Books ts w) (hr : coreOf w r = some core) {e : Nat × Nat} :
    e ∈ core.pending ↔ e ∈ entries ts r ∧ replyIn w (.promise e.2) = none := by
  rw [h.pending r core hr, List.mem_filter, awaited, Option.isNone_iff_eq_none]

theorem nodup_ids (h : Books ts w) (hr : coreOf w r = some core) : (core.pending.map Prod.fst).Nodup := by
  rw [h.pending r core hr]
  refine List.Nodup.sublist (List.filter_sublist.map _) ?_
  rw [h.numbers r core hr]
  exact List.nodup_range

theorem entries_eq_nil (h : Books ts w) (hr : coreOf w r = none) : entries ts r = [] := by
  refine List.filterMap_eq_nil_iff.mpr fun t ht => ?_
  cases hp : t.posting? r with
  | none => simp [Turn.booking?, Turn.number?, hp]
  | some post =>
    obtain ⟨_, hcore, -⟩ := h.posters t ht r post.1 post.2 hp
    cases hr.symm.trans hcore

variable {e : Event} {x x' : Exchange}

theorem posters_step (h : Books ts x.world) (act : Act x.world e x'.world) :
    ∀ t ∈ ts ++ [⟨x, e, x'⟩], ∀ r before payload, t.posting? r = some (before, payload) →
      ∃ core, coreOf x'.world r = some core ∧ core.name = before.name := by
  intro t ht r before payload hp
  obtain ⟨core, hr, hn⟩ : ∃ core, coreOf x.world r = some core ∧ core.name = before.name := by
    rcases List.mem_append.mp ht with ht | ht
    · exact h.posters t ht r before payload hp
    · obtain rfl := List.mem_singleton.mp ht
      exact ⟨before, (Turn.coreOf_of_posting hp).2, rfl⟩
  obtain ⟨core', hr', hn', -⟩ := act.kept_core hr
  exact ⟨core', hr', hn'.trans hn⟩

/-- What an event that makes no promise leaves of the books: the promises that were kept are no longer
open. -/
theorem settle (h : Books ts x.world) (act : Act x.world e x'.world) (tickets : List Nat)
    (unnumbered : ∀ r, (turn x e x').number? r = none) {o : Outcome}
    (promises : x'.world.promises = x.world.promises.modifyAll tickets (Promise.keep o))
    (cores : ∀ r core', coreOf x'.world r = some core' → (core'.disposed = true → core'.pending = []) ∧
      ((∃ core, coreOf x.world r = some core ∧ core'.nextId = core.nextId ∧
        core'.pending = core.pending.filter (·.2 ∉ tickets)) ∨
          coreOf x.world r = none ∧ core'.nextId = 0 ∧ core'.pending = [])) :
    Books (ts ++ [⟨x, e, x'⟩]) x'.world := by
  have same : ∀ r, entries (ts ++ [⟨x, e, x'⟩]) r = entries ts r := by
    intro r
    rw [entries_append, Turn.booking?, unnumbered]
    exact List.append_nil _
  have closed : ∀ r, ∀ e ∈ entries ts r,
      awaited x'.world e = (decide (e.2 ∉ tickets) && awaited x.world e) := by
    intro r e he
    rw [awaited, awaited, replyIn_keep _ promises (h.bound r e he)]
    cases replyIn x.world (.promise e.2) <;> by_cases hp : e.2 ∈ tickets <;> simp [hp]
  constructor
  · simpa only [same, promises, Table.size_modifyAll] using h.bound
  · simpa only [same] using h.apart
  · intro r core' hr'
    rw [same]
    rcases (cores r core' hr').2 with ⟨core, hr, hn, -⟩ | ⟨hr, hn, -⟩
    · rw [h.numbers r core hr, hn]
    · rw [h.entries_eq_nil hr, hn]
      rfl
  · intro r core' hr'
    rw [same]
    rcases (cores r core' hr').2 with ⟨core, hr, -, hp⟩ | ⟨hr, -, hp⟩
    · rw [hp, h.pending r core hr, List.filter_filter]
      exact List.filter_congr fun e he => (closed r e he).symm
    · rw [hp, h.entries_eq_nil hr]
      rfl
  · exact fun r core' hr' => (cores r core' hr').1
  · exact h.posters_step act

/-- A post of an open requester: its reply is the next promise, which is open if the request went out. -/
theorem post (h : Books ts x.world) (act : Act x.world e x'.world) {r₀ : Nat} {payload : Json}
    {core₀ : Requester Nat} {c : Promise} (event : e = .post r₀ payload)
    (requester : coreOf x.world r₀ = some core₀) (live : core₀.disposed = false)
    (cores : ∀ r, coreOf x'.world r = if r = r₀ then some { core₀ with
      nextId := core₀.nextId + 1
      pending := core₀.pending ++ if c.outcome.isNone then [(core₀.nextId, x.world.promises.size)] else [] }
        else coreOf x.world r)
    (promises : x'.world.promises = x.world.promises.push c) : Books (ts ++ [⟨x, e, x'⟩]) x'.world := by
  have added : ∀ r, entries (ts ++ [⟨x, e, x'⟩]) r =
      entries ts r ++ if r = r₀ then [(core₀.nextId, x.world.promises.size)] else [] := by
    intro r
    rw [entries_append, Turn.booking?, Turn.number?, Turn.posting?_of_post event]
    by_cases same : r₀ = r
    · subst same
      simp [requester, live]
    · simp [same, Ne.symm same]
  have kept : ∀ r, (entries ts r).filter (awaited x'.world) = (entries ts r).filter (awaited x.world) := by
    refine fun r => List.filter_congr fun e he => ?_
    rw [awaited, awaited, replyIn_push promises, if_neg (Nat.ne_of_lt (h.bound r e he))]
  have origin : ∀ {r e'}, e' ∈ entries (ts ++ [⟨x, e, x'⟩]) r → e' ∈ entries ts r ∨
      r = r₀ ∧ e' = (core₀.nextId, x.world.promises.size) := by
    grind
  constructor
  · intro r e' he'
    rw [promises, Table.size_push]
    rcases origin he' with old | ⟨-, rfl⟩
    · exact Nat.lt_succ_of_lt (h.bound r e' old)
    · exact Nat.lt_succ_self _
  · intro r r' e₁ he₁ e₂ he₂ same
    rcases origin he₁ with old₁ | ⟨rfl, rfl⟩ <;> rcases origin he₂ with old₂ | ⟨rfl, rfl⟩
    · exact h.apart r r' e₁ old₁ e₂ old₂ same
    · exact absurd same (Nat.ne_of_lt (h.bound r e₁ old₁))
    · exact absurd same.symm (Nat.ne_of_lt (h.bound r' e₂ old₂))
    · exact ⟨rfl, rfl⟩
  · intro r core hr
    rw [added, List.map_append]
    rw [cores] at hr
    split at hr
    · next mine =>
      subst mine
      obtain rfl := Option.some.inj hr
      rw [h.numbers r core₀ requester, if_pos rfl, List.range_succ]
      rfl
    · next other =>
      rw [if_neg other, h.numbers r core hr]
      exact List.append_nil _
  · intro r core hr
    rw [added, List.filter_append, kept]
    rw [cores] at hr
    split at hr
    · next mine =>
      subst mine
      obtain rfl := Option.some.inj hr
      rw [← h.pending r core₀ requester, if_pos rfl, List.filter_singleton, awaited, replyIn_push promises, if_pos rfl]
      cases c.outcome <;> rfl
    · next other =>
      rw [if_neg other, h.pending r core hr]
      exact (List.append_nil _).symm
  · grind [h.shut]
  · exact h.posters_step act

theorem erase_eq (h : Books ts w) (hr : coreOf w r = some core) {id ticket : Nat}
    (found : core.pending.lookup id = some ticket) :
    Assoc.erase id core.pending = core.pending.filter (·.2 ∉ [ticket]) := by
  have mem := Assoc.mem_of_lookup found
  refine List.filter_congr fun e he => ?_
  by_cases same : e = (id, ticket)
  · subst same
    simp
  · have hi : e.1 ≠ id := fun hi => same (List.inj_on_of_nodup_map (h.nodup_ids hr) he mem hi)
    have ht : e.2 ≠ ticket := fun ht =>
      same (h.apart r r e ((h.mem_pending hr).mp he).1 _ ((h.mem_pending hr).mp mem).1 ht).2
    simp [hi, ht]

/-- What one turn preserves. -/
theorem step (h : Books ts x.world) (act : Act x.world e x'.world) : Books (ts ++ [⟨x, e, x'⟩]) x'.world := by
  have quiet (hp : ∀ r payload, e ≠ .post r payload) (r : Nat) : (turn x e x').number? r = none :=
    (Turn.idle fun _ payload h => absurd (Turn.coreOf_of_posting h).1 (hp r payload)).1
  -- The requesters that do not act keep what they have pending.
  have others {r₀ : Nat} {core₀ core₀' : Requester Nat} (h₀ : coreOf x.world r₀ = some core₀) {tickets : List Nat}
      (ht : ∀ p ∈ tickets, ∃ e ∈ core₀.pending, e.2 = p)
      (cores : ∀ r, coreOf x'.world r = if r = r₀ then some core₀' else coreOf x.world r)
      (next : core₀'.nextId = core₀.nextId) (left : core₀'.pending = core₀.pending.filter (·.2 ∉ tickets))
      (shut : core₀'.disposed = true → core₀'.pending = []) (r : Nat) (core' : Requester Nat)
      (hr' : coreOf x'.world r = some core') : (core'.disposed = true → core'.pending = []) ∧
      ((∃ core, coreOf x.world r = some core ∧ core'.nextId = core.nextId ∧
        core'.pending = core.pending.filter (·.2 ∉ tickets)) ∨
          coreOf x.world r = none ∧ core'.nextId = 0 ∧ core'.pending = []) := by
    rw [cores] at hr'
    split at hr'
    · next mine =>
      subst mine
      obtain rfl := Option.some.inj hr'
      exact ⟨shut, .inl ⟨core₀, h₀, next, left⟩⟩
    · next other =>
      refine ⟨h.shut r core' hr', .inl ⟨core', hr', rfl, (List.filter_eq_self.mpr fun e he => ?_).symm⟩⟩
      refine decide_eq_true fun hp => other ?_
      obtain ⟨e₀, he₀, same⟩ := ht e.2 hp
      exact (h.apart r r₀ e ((h.mem_pending hr').mp he).1 e₀ ((h.mem_pending h₀).mp he₀).1 same.symm).1
  have act' := act
  cases act with
  | rest cores promises _ silent =>
    refine h.settle act' [] (o := .ok .null) (fun r => (Turn.idle fun core payload hp => ?_).1) promises
      fun r core hr => ?_
    · obtain ⟨event, hr⟩ := Turn.coreOf_of_posting hp
      exact silent r payload core event hr
    · rw [cores] at hr
      exact ⟨h.shut r core hr, .inl ⟨core, hr, rfl, by simp⟩⟩
  | enlist _ event cores promises =>
    refine h.settle act' [] (o := .ok .null) (quiet fun r payload => by rw [event]; rintro ⟨⟩) promises
      fun r core hr => ?_
    rw [cores] at hr
    split at hr
    · next last =>
      obtain rfl := Option.some.inj hr
      refine ⟨fun _ => rfl, .inr ⟨?_, rfl, rfl⟩⟩
      rw [coreOf, last, Table.get?_of_size_le (Nat.le_refl _)]
      rfl
    · exact ⟨h.shut r core hr, .inl ⟨core, hr, rfl, by simp⟩⟩
  | send _ _ core event requester live _ _ cores promises =>
    exact h.post act' (c := { fallback := .error core.gaveUp }) event requester live cores promises
  | fail _ _ _ _ event requester live _ _ cores promises =>
    refine h.post act' event requester live (fun _ => ?_) promises
    rw [cores]
    simp
  | answer _ _ _ r core ticket event _ _ requester live pending cores promises =>
    refine h.settle act' [ticket] (quiet fun r payload => by rw [event]; rintro ⟨⟩) promises
      (others requester ?_ cores rfl (h.erase_eq requester pending) fun hd => ?_)
    · exact fun p hp => ⟨_, Assoc.mem_of_lookup pending, (List.mem_singleton.mp hp).symm⟩
    · cases live.symm.trans hd
  | giveUp r core cause requester _ cores promises =>
    refine h.settle act' (core.pending.map Prod.snd) (quiet fun r payload => ?_) promises
      (others requester (fun p hp => List.mem_map.mp hp) cores rfl ?_ fun _ => rfl)
    · rcases cause with rfl | ⟨rfl, -⟩ <;> rintro ⟨⟩
    · refine (List.filter_eq_nil_iff.mpr fun e he => ?_).symm
      simpa using ⟨e.1, he⟩

end Books

/-! ## Fates -/

/-- Every reply of a requester is as the turns since the request make it. -/
def Fated (ts : List Turn) (w : World) (r : Nat) : Prop :=
  ∀ earlier t later core payload, ts = earlier ++ t :: later → t.posting? r = some (core, payload) →
    replyIn w (t.before.world.post r payload).2 = t.fate r core payload later

theorem Turn.fate_append (t : Turn) (r : Nat) (core : Requester Nat) (payload : Json) (later : List Turn)
    (u : Turn) : t.fate r core payload (later ++ [u]) =
      (t.fate r core payload later).or (u.settles? r core.name core.nextId) := by
  grind [Turn.fate]

variable {e : Event}

theorem Act.replyIn {w : World} (act : Act w e w') {f : Future}
    (h : replyIn w f = some o) (hf : (∃ s, f = .done s) ∨ ∃ p, f = .promise p) :
    replyIn w' f = some o := by
  rcases hf with ⟨s, rfl⟩ | ⟨p, rfl⟩
  · exact h
  have hp : p < w.promises.size := by
    rw [replyIn_promise] at h
    cases hc : w.promises.get? p with
    | none =>
      rw [hc] at h
      cases h
    | some => exact Table.lt_size_of_get? hc
  cases act with
  | rest _ promises _ _ _ | enlist _ _ _ promises _ => rw [replyIn_congr promises, h]
  | send _ _ _ _ _ _ _ _ _ promises _ | fail _ _ _ _ _ _ _ _ _ _ promises _ =>
    rw [replyIn_push promises, if_neg (Nat.ne_of_lt hp), h]
  | answer _ _ _ _ _ ticket _ _ _ _ _ _ _ promises =>
    rw [replyIn_keep [ticket] promises hp, h]
    split <;> rfl
  | giveUp _ _ _ _ _ _ promises =>
    rw [replyIn_keep _ promises hp, h]
    split <;> rfl

theorem reply_future {payload : Json} (h : t.posting? r = some (core, payload)) :
    (∃ s, (t.before.world.post r payload).2 = .done s) ∨
      ∃ p, (t.before.world.post r payload).2 = .promise p := by
  rw [post_reply (Turn.coreOf_of_posting h).2]
  split
  · exact .inl ⟨_, rfl⟩
  · exact .inr ⟨_, rfl⟩

theorem Sole.name_ne {w : World} {r' : Nat} (h : Sole w r) {core core' : Requester Nat}
    (hr : coreOf w r = some core) (hr' : coreOf w r' = some core') (other : r' ≠ r) :
    core'.name ≠ core.name := by
  obtain ⟨cell, hcell, rfl⟩ := Option.map_eq_some_iff.mp hr
  obtain ⟨cell', hcell', rfl⟩ := Option.map_eq_some_iff.mp hr'
  exact h r' cell cell' other hcell hcell'

theorem Act.sole {w : World} (act : Act w e w') (h : Sole w' r) : Sole w r := by
  refine h.of_names fun r _ hcell => ?_
  obtain ⟨_, hr, hn, -⟩ := act.kept_core (coreOf_eq hcell)
  obtain ⟨cell', hcell', rfl⟩ := Option.map_eq_some_iff.mp hr
  exact ⟨cell', hcell', hn⟩

theorem Turn.answer?_of_quiet (h : ∀ service v, t.event ≠ .hear service v) (name : String)
    (id : Nat) : t.answer? name id = none := by
  unfold Turn.answer?
  split
  · next service v he => exact absurd he (h service v)
  · rfl

variable {x x' : Exchange} {id : Nat}

/-- A turn settles a request that waits, or leaves its reply open. -/
theorem Act.settles {ch : Channel} {ts : List Turn}
    {now : Requester Nat} (wiring : Wiring ch x) (act : Act x.world e x'.world)
    (books : Books ts x.world) (sole : Sole x.world r) (requester : coreOf x.world r = some now)
    (pending : (id, p) ∈ now.pending) :
    Dialogue.replyIn x'.world (.promise p) = (turn x e x').settles? r now.name id := by
  obtain ⟨mem, waits⟩ := (books.mem_pending requester).mp pending
  have hp : p < x.world.promises.size := books.bound r _ mem
  have live : now.disposed = false := by
    by_contra hd
    rw [books.shut r now requester (by simpa using hd)] at pending
    cases pending
  -- The requester stays open and hears nothing that concerns the request.
  have waiting {now' : Requester Nat} (after : coreOf x'.world r = some now') (alive : now'.disposed = false)
      (reply : Dialogue.replyIn x'.world (.promise p) = none)
      (answer : (turn x e x').answer? now.name id = none) :
      Dialogue.replyIn x'.world (.promise p) = (turn x e x').settles? r now.name id := by
    rw [reply, Turn.settles?, answer, Turn.closes, after]
    simp [alive]
  -- Whose promise it is.
  have mine {r₁ : Nat} {core₁ : Requester Nat} {e₁ : Nat × Nat} (h₁ : coreOf x.world r₁ = some core₁)
      (he₁ : e₁ ∈ core₁.pending) (same : p = e₁.2) : r = r₁ ∧ (id, p) = e₁ :=
    books.apart r r₁ _ mem _ ((books.mem_pending h₁).mp he₁).1 same
  cases act with
  | rest cores promises _ silent deaf =>
    refine waiting ((cores r).trans requester) live (by rw [replyIn_congr promises, waits]) ?_
    unfold Turn.answer?
    dsimp only
    split
    · next service v =>
      split
      · next own =>
        cases parsed : Response.ofJson? v with
        | none => rfl
        | some m =>
          have listens := wiring.listens requester live sole own.2
          rw [← own.1] at listens
          have none := deaf service v m r now rfl listens parsed requester live
          grind [List.lookup_eq_none_iff]
      · rfl
    · rfl
  | enlist _ event cores promises =>
    refine @waiting now ?_ live (by rw [replyIn_congr promises, waits])
      (Turn.answer?_of_quiet (fun service v => by rw [event]; nofun) ..)
    rw [cores, if_neg, requester]
    obtain ⟨_, hcell, -⟩ := Option.map_eq_some_iff.mp requester
    exact Nat.ne_of_lt (Table.lt_size_of_get? hcell)
  | send _ _ _ event h₁ live₁ _ _ cores promises | fail _ _ _ _ event h₁ live₁ _ _ cores promises =>
    have quiet := Turn.answer?_of_quiet (t := turn x e x') (fun service v => by rw [event]; nofun) now.name id
    have reply : Dialogue.replyIn x'.world (.promise p) = none := by
      rw [replyIn_push promises, if_neg (Nat.ne_of_lt hp), waits]
    have after := cores r
    split at after
    · exact waiting after live₁ reply quiet
    · exact waiting (after.trans requester) live reply quiet
  | answer _ _ m _ _ ticket event listens parsed h₁ live₁ pending₁ cores promises =>
    have keep := replyIn_keep [ticket] promises hp
    rw [waits] at keep
    obtain ⟨own, ho⟩ := wiring.service_of_listens h₁ listens
    have mine := @mine _ _ (m.id, ticket) h₁ (Assoc.mem_of_lookup pending₁)
    have after := cores r
    split at after
    · next same =>
      subst same
      cases requester.symm.trans h₁
      have heard : (turn x e x').answer? now.name id =
          if m.id = id then some (Requester.outcomeOf m) else none := by
        unfold Turn.answer?
        rw [event]
        dsimp only
        rw [if_pos ⟨own, ho⟩, parsed]
        rfl
      by_cases hid : m.id = id
      · have same := List.inj_on_of_nodup_map (books.nodup_ids requester) pending
          (Assoc.mem_of_lookup pending₁) hid.symm
        obtain rfl : p = ticket := (Prod.mk.inj same).2
        rw [keep, if_pos (.head _), Turn.settles?, heard, if_pos hid]
        rfl
      · rw [if_neg hid] at heard
        refine waiting after live (keep.trans (if_neg fun hm => hid ?_)) heard
        exact (Prod.mk.inj (mine (List.mem_singleton.mp hm)).2).1.symm
    · next other =>
      refine waiting (after.trans requester) live
        (keep.trans (if_neg fun hm => other (mine (List.mem_singleton.mp hm)).1)) ?_
      unfold Turn.answer?
      rw [event]
      dsimp only
      rw [if_neg]
      exact fun mine => sole.name_ne requester h₁ (Ne.symm other)
        (Service.response_injective (own.symm.trans mine.1))
  | giveUp _ _ cause h₁ _ cores promises =>
    have quiet := Turn.answer?_of_quiet (t := turn x e x')
      (fun service v => by rcases cause with rfl | ⟨rfl, -⟩ <;> nofun) now.name id
    have keep := replyIn_keep _ promises hp
    rw [waits] at keep
    have after := cores r
    split at after
    · next same =>
      subst same
      cases requester.symm.trans h₁
      have closes : (turn x e x').closes r = true := by
        unfold Turn.closes
        rw [requester, after]
        simp [live]
      rw [keep, if_pos (List.mem_map_of_mem (f := Prod.snd) pending), Turn.settles?, quiet, closes]
      rfl
    · next other =>
      refine waiting (after.trans requester) live (keep.trans (if_neg fun hm => ?_)) quiet
      obtain ⟨e₁, he₁, same⟩ := List.mem_map.mp hm
      exact other (mine h₁ he₁ same.symm).1

/-- What one turn preserves. -/
theorem Fated.step {ch : Channel} {ts : List Turn}
    (h : Fated ts x.world r) (wiring : Wiring ch x) (act : Act x.world e x'.world)
    (books : Books ts x.world) (sole : Sole x.world r) : Fated (ts ++ [⟨x, e, x'⟩]) x'.world r := by
  intro earlier t later core payload hts hpost
  have reply := post_reply (Turn.coreOf_of_posting hpost).2 payload
  cases later using List.reverseRecOn with
  | append_singleton later =>
    rw [← List.cons_append, ← List.append_assoc] at hts
    obtain ⟨rfl, hu⟩ := List.append_inj' hts rfl
    obtain rfl := (List.cons.inj hu).1
    have mem : t ∈ earlier ++ t :: later := List.mem_append_right _ (.head _)
    have before := h earlier t later core payload rfl hpost
    rw [Turn.fate_append]
    cases hf : t.fate r core payload later with
    | some => exact act.replyIn (before.trans hf) (reply_future hpost)
    | none =>
      have live : core.disposed = false := by
        cases hd : core.disposed with
        | false => rfl
        | true => simp [Turn.fate, hd] at hf
      obtain ⟨_, hnow, name⟩ := books.posters t mem r core payload hpost
      rw [reply, live] at before ⊢
      rw [Option.none_or, ← name]
      refine act.settles wiring books sole hnow ((books.mem_pending hnow).mpr ⟨?_, before.trans hf⟩)
      exact List.mem_filterMap.mpr ⟨t, mem, by simp [Turn.booking?, Turn.number?, hpost, live]⟩
  | nil =>
    obtain ⟨rfl, ht⟩ := List.append_inj' hts rfl
    obtain rfl := (List.cons.inj ht).1
    -- The post itself is the last turn.
    obtain ⟨rfl, hr⟩ := Turn.coreOf_of_posting hpost
    rw [reply, Turn.fate]
    cases act with
    | rest _ _ _ silent =>
      rw [if_pos (silent r payload core rfl hr), if_pos (silent r payload core rfl hr)]
      rfl
    | send _ _ _ event h₁ live sent _ _ promises =>
      obtain ⟨rfl, rfl⟩ := Event.post.inj event
      cases hr.symm.trans h₁
      rw [live, Turn.sending, sent]
      exact (replyIn_push promises _).trans (if_pos rfl)
    | fail _ _ _ _ event h₁ live refused _ _ promises =>
      obtain ⟨rfl, rfl⟩ := Event.post.inj event
      cases hr.symm.trans h₁
      rw [live, Turn.sending, refused]
      exact (replyIn_push promises _).trans (if_pos rfl)
    | enlist _ event | answer _ _ _ _ _ _ event => cases event
    | giveUp _ _ cause => rcases cause with h | ⟨h, -⟩ <;> cases h

/-! ## What was sent, and what was closed -/

def recorded (w : World) (service : String) : List Json :=
  w.events.filterMap fun logged =>
    match logged.event with
    | .sent _ service' v => if service' = service then some v else none
    | _ => none

/-- What went out for a requester that is the only one of its name are its requests. -/
structure Record (ts : List Turn) (w : World) : Prop where
  sent : ∀ r core, coreOf w r = some core → Sole w r →
    recorded w (Service.request core.name) = ts.filterMap (·.request? r)
  known : ∀ service v, v ∈ recorded w service →
    ∃ r core, coreOf w r = some core ∧ service = Service.request core.name

theorem requests_append (ts : List Turn) (t : Turn) (r : Nat) :
    (ts ++ [t]).filterMap (·.request? r) = ts.filterMap (·.request? r) ++ (t.request? r).toList := by
  cases h : t.request? r <;> simp [h]

/-- A turn in which nothing goes out. -/
theorem Record.quiet {ts : List Turn} (h : Record ts x.world)
    (act : Act x.world e x'.world) (events : x'.world.events = x.world.events)
    (silent : ∀ r, (turn x e x').request? r = none)
    (fresh : ∀ r core, coreOf x.world r = none → coreOf x'.world r = some core → Sole x'.world r →
      recorded x.world (Service.request core.name) = ts.filterMap (·.request? r)) :
    Record (ts ++ [⟨x, e, x'⟩]) x'.world where
  sent r core hr sole := by
    rw [requests_append, silent, Option.toList_none, List.append_nil]
    have same : recorded x'.world (Service.request core.name) =
        recorded x.world (Service.request core.name) := by rw [recorded, recorded, events]
    rw [same]
    cases hr₀ : coreOf x.world r with
    | none => exact fresh r core hr₀ hr sole
    | some =>
      grind [act.kept_core, h.sent, act.sole]
  known service v hv := by
    rw [recorded, events, ← recorded] at hv
    obtain ⟨r, core, hr, hs⟩ := h.known service v hv
    obtain ⟨core', hr', hn, -⟩ := act.kept_core hr
    exact ⟨r, core', hr', by rw [hs, hn]⟩

/-- What one turn preserves. -/
theorem Record.step {ts : List Turn} (h : Record ts x.world)
    (books : Books ts x.world) (act : Act x.world e x'.world) :
    Record (ts ++ [⟨x, e, x'⟩]) x'.world := by
  have noPost (hp : ∀ r payload, e ≠ .post r payload) (r : Nat) : (turn x e x').request? r = none :=
    (Turn.idle fun _ payload h => absurd (Turn.coreOf_of_posting h).1 (hp r payload)).2
  have old {r₁ : Nat} {core₁ core₁' : Requester Nat} (h₁ : coreOf x.world r₁ = some core₁)
      (cores : ∀ r', coreOf x'.world r' = if r' = r₁ then some core₁' else coreOf x.world r') (r : Nat)
      (core : Requester Nat) (hr₀ : coreOf x.world r = none) (hr : coreOf x'.world r = some core) :
      False := by
    rw [cores] at hr
    split at hr
    · next same =>
      subst same
      cases hr₀.symm.trans h₁
    · cases hr₀.symm.trans hr
  have act' := act
  cases act with
  | rest cores _ events silent =>
    refine h.quiet act' events (fun r => (Turn.idle fun core payload hp => ?_).2) fun r core hr₀ hr =>
      absurd (hr₀.symm.trans ((cores r).symm.trans hr)) nofun
    obtain ⟨event, hr⟩ := Turn.coreOf_of_posting hp
    exact silent r payload core event hr
  | enlist _ event _ _ events =>
    refine h.quiet act' events (noPost fun r payload => by rw [event]; nofun) fun r core hr₀ hr sole => ?_
    have none : recorded x.world (Service.request core.name) = [] := by
      refine List.eq_nil_iff_forall_not_mem.mpr fun _ _ => ?_
      grind [h.known, sole.name_ne, Service.request_injective]
    rw [none, eq_comm, List.filterMap_eq_nil_iff]
    intro t ht
    cases hp : t.posting? r with
    | none => simp [Turn.request?, hp]
    | some post =>
      obtain ⟨_, hcore, -⟩ := books.posters t ht r post.1 post.2 hp
      cases hr₀.symm.trans hcore
  | answer | giveUp => grind [h.quiet]
  | fail _ _ core₁ _ event h₁ live refused _ cores _ events =>
    refine h.quiet act' events (fun r => ?_) fun r core hr₀ hr => (old h₁ cores r core hr₀ hr).elim
    rw [Turn.request?, Turn.posting?_of_post event]
    split
    · next same =>
      subst same
      rw [h₁]
      show (if core₁.disposed then _ else _) = none
      rw [live, Turn.sending, refused]
      rfl
    · rfl
  | send r₁ payload core₁ event h₁ live sent _ cores _ events =>
    obtain ⟨_, _, events⟩ := events
    have more : ∀ service, recorded x'.world service = recorded x.world service ++
        if Service.request core₁.name = service then [requestOf core₁ payload] else [] := by
      intro service
      rw [recorded, events, List.filterMap_append, ← recorded]
      refine congrArg _ ?_
      by_cases same : Service.request core₁.name = service <;> simp [same]
    have request : ∀ r, (turn x e x').request? r =
        if r₁ = r then some (requestOf core₁ payload) else none := by
      intro r
      rw [Turn.request?, Turn.posting?_of_post event]
      split
      · next same =>
        subst same
        rw [h₁]
        show (if core₁.disposed then _ else _) = _
        rw [live, Turn.sending, sent]
        rfl
      · rfl
    constructor
    · intro r core hr sole
      rw [more, requests_append, request]
      have was := cores r
      rw [hr] at was
      split at was
      · next same =>
        subst same
        obtain rfl := Option.some.inj was
        show recorded _ (Service.request core₁.name) ++ (if _ = Service.request core₁.name then _ else _) = _
        rw [if_pos rfl, if_pos rfl]
        exact congrArg (· ++ _) (h.sent r core₁ h₁ (act'.sole sole))
      · next other =>
        obtain ⟨core₁', hr₁', hn, -⟩ := act'.kept_core h₁
        have apart : core₁.name ≠ core.name := hn ▸ sole.name_ne hr hr₁' (Ne.symm other)
        rw [if_neg fun same => apart (Service.request_injective same), if_neg (Ne.symm other),
          List.append_nil, Option.toList_none, List.append_nil]
        exact h.sent r core was.symm (act'.sole sole)
    · grind [h.known, act'.kept_core]

def ClosedByOwner (ts : List Turn) (r : Nat) : Prop :=
  ∃ t ∈ ts, t.event = .dispose r ∧ (coreOf t.before.world r).isSome = true

/-- A requester is closed only with the channel or by its owner, who can always close it. -/
structure Closures (ts : List Turn) (w : World) : Prop where
  cause : ∀ r core, coreOf w r = some core → core.disposed = true →
    w.isOpen line = false ∨ ClosedByOwner ts r
  effect : ∀ r, ClosedByOwner ts r → ∃ core, coreOf w r = some core ∧ core.disposed = true

/-- What one turn preserves. -/
theorem Closures.step {ts : List Turn} (h : Closures ts x.world) (act : Act x.world e (Dialogue.step x e).world)
    (shut : x.world.isOpen line = false → (Dialogue.step x e).world.isOpen line = false) :
    Closures (ts ++ [⟨x, e, Dialogue.step x e⟩]) (Dialogue.step x e).world := by
  have later {r : Nat} (hc : ClosedByOwner ts r) : ClosedByOwner (ts ++ [⟨x, e, Dialogue.step x e⟩]) r := by
    obtain ⟨t, ht, rest⟩ := hc
    exact ⟨t, List.mem_append_left _ ht, rest⟩
  constructor
  · intro r core hr hd
    have known (hr : coreOf x.world r = some core) :
        (Dialogue.step x e).world.isOpen line = false ∨
          ClosedByOwner (ts ++ [⟨x, e, Dialogue.step x e⟩]) r :=
      (h.cause r core hr hd).imp shut later
    cases act with
    | rest cores => exact known (cores r ▸ hr)
    | enlist | fail => grind
    | send _ _ _ _ _ live _ _ cores | answer _ _ _ _ _ _ _ _ _ _ live _ cores =>
      rw [cores] at hr
      split at hr
      · obtain rfl := Option.some.inj hr
        cases live.symm.trans hd
      · exact known hr
    | giveUp _ _ cause h₁ _ cores =>
      rw [cores] at hr
      split at hr
      · next same =>
        subst same
        rcases cause with he | ⟨-, closed⟩
        · refine .inr ⟨_, List.mem_append_right _ (.head _), he, ?_⟩
          rw [h₁]
          rfl
        · exact .inl (shut closed)
      · exact known hr
  · rintro r ⟨t, ht, he, existed⟩
    rcases List.mem_append.mp ht with ht | ht
    · obtain ⟨core, hr, hd⟩ := h.effect r ⟨t, ht, he, existed⟩
      obtain ⟨core', hr', -, hd'⟩ := act.kept_core hr
      exact ⟨core', hr', hd' hd⟩
    · obtain rfl := List.mem_singleton.mp ht
      obtain rfl : e = .dispose r := he
      obtain ⟨core, hr⟩ := Option.isSome_iff_exists.mp existed
      obtain ⟨core', hr', -, -⟩ := act.kept_core hr
      obtain ⟨cell, hcell, rfl⟩ := Option.map_eq_some_iff.mp hr'
      exact ⟨cell.core, hr', disposed_of_disposeRequester hcell⟩

/-! ## All replies -/

/-- What holds after every run. -/
structure Kept (ts : List Turn) (x : Exchange) : Prop where
  wiring : ∃ ch, Wiring ch x
  books : Books ts x.world
  record : Record ts x.world
  closures : Closures ts x.world
  fated : ∀ r, Sole x.world r → Fated ts x.world r

theorem coreOf_opening (r : Nat) : coreOf opening.world r = none := by
  simp [coreOf, opening, Table.get?]

theorem Kept.opening : Kept [] Dialogue.opening := by
  have none {P : Prop} {r : Nat} {core : Requester Nat}
      (hr : coreOf Dialogue.opening.world r = some core) : P := by
    rw [coreOf_opening] at hr
    cases hr
  refine ⟨Wiring.opening, ?_, ⟨fun _ _ => none, fun _ _ hv => absurd hv List.not_mem_nil⟩,
    ⟨fun _ _ => none, ?_⟩, ?_⟩
  · exact
      { bound := fun _ _ he => absurd he List.not_mem_nil, apart := fun _ _ _ he => absurd he List.not_mem_nil
        numbers := fun _ _ => none, pending := fun _ _ => none, shut := fun _ _ => none
        posters := fun _ ht => absurd ht List.not_mem_nil }
  · rintro r ⟨t, ht, -⟩
    exact absurd ht List.not_mem_nil
  · intro r _ _ t _ core _ hts
    simp at hts

theorem Kept.step {ts : List Turn} (h : Kept ts x) (e : Event) :
    Kept (ts ++ [⟨x, e, Dialogue.step x e⟩]) (Dialogue.step x e) := by
  obtain ⟨_, wiring⟩ := h.wiring
  obtain ⟨⟨ch', shut, wiring'⟩, act⟩ := wiring.step e
  refine ⟨⟨ch', wiring'⟩, h.books.step act, h.record.step h.books act, h.closures.step act ?_, ?_⟩
  · rw [wiring.isOpen, wiring'.isOpen]
    simpa using shut
  · exact fun r sole => (h.fated r (act.sole sole)).step wiring act h.books (act.sole sole)

theorem kept (es : List Event) : Kept (turns opening es) (run opening es) :=
  Runs.induction .opening (fun _ _ e h => h.step e) es

end Dialogue

end Switchboard
