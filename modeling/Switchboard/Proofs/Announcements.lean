import Switchboard.Proofs.Steady

/-!
# What handlers say to the server

All that a server handler ever sends on the server channel is: that it is there, its calls under numbers
that are counted from zero, and that it is gone. It says the last only if it is closed after it has
introduced itself and while the server channel is open. The calls of a handler that belongs to a client
are the client's requests in the order of their arrival, from the first one on and without a gap.
-/

namespace Switchboard

open Exchange History

namespace Exchange

/-- The messages that carry a handler's number, of those sent on the server channel. -/
def saidBy (ts : List Transition) (h : Nat) : List (String × Json) :=
  (sentOn ts near).filter (concerns h)

/-- The requests sent for a server handler. -/
def requestsOf (ts : List Transition) (h : Nat) : List (String × Json) :=
  (sentOn ts near).filter fun m => m.1 == Service.request (Service.callFunction h)

def questions (h : Nat) (calls : List Call) : List (String × Json) :=
  calls.mapIdx fun n call => question h n call

/-- The calls that came to a client handler. -/
def callsTo (ts : List Transition) (k : Nat) : List Call :=
  ts.filterMap fun t => (t.request? k).map Prod.snd

/-- Whether a server handler is closed at a move. -/
def Transition.closes (t : Transition) (h : Nat) : Bool :=
  (t.before.world.serverHandlers.get? h).any (fun c => !c.disposed) &&
    (t.after.world.serverHandlers.get? h).any (·.disposed)

/-- A handler was closed after it had introduced itself and while the server channel was open. -/
def LeftOpenly (ts : List Transition) (h : Nat) : Prop :=
  ∃ earlier t later, ts = earlier ++ t :: later ∧ (∃ name, greeting h name ∈ sentOn earlier near) ∧
    t.closes h = true ∧ t.before.world.isOpen near = true

end Exchange

variable {L L' : Ledger} {w w' : World} {κ : Cause} {more rest : List Action} {ts : List Transition}
  {x : Exchange} {m : Move}

/-! ## What is said at a move -/

variable {y : Exchange}

theorem NearSide.sent {t : Transition} {out : List (String × Json)} (h : NearSide t.before.world w' κ out)
    (after : t.after.world = w') : t.sent near = out := by
  subst after
  rcases h.outgoing with grown | ⟨rfl, _, popped⟩
  · exact Transition.sent_of_append grown
  · show (t.after.world.outgoing near).drop (t.before.world.outgoing near).length = []
    rw [popped]
    exact List.drop_of_length_le (Nat.le_succ _)

theorem saidBy_append (ts : List Transition) (t : Transition) (h : Nat) :
    saidBy (ts ++ [t]) h = saidBy ts h ++ (t.sent near).filter (concerns h) := by
  rw [saidBy, sentOn_append, List.filter_append, saidBy]

theorem questions_concat (h : Nat) (calls : List Call) (call : Call) :
    questions h (calls ++ [call]) = questions h calls ++ [question h calls.length call] := by
  simp [questions]

theorem callsTo_eq (ts : List Transition) (k : Nat) :
    callsTo ts k = ((ofTrace ts).arrivals k).map Prod.snd := by
  simp [callsTo, ofTrace, List.map_filterMap]

variable {h : Nat}

theorem World.closes_iff {t : Transition} : t.closes h = true ↔
    ∃ s, t.before.world.standing h = some s ∧ s ≠ .gone ∧ t.after.world.standing h = some .gone := by
  have gone : ∀ (w : World), (w.serverHandlers.get? h).any (·.disposed) = true ↔
      w.standing h = some .gone := by
    intro w
    cases hc : w.serverHandlers.get? h with
    | none => simp [standing_eq_none hc]
    | some =>
      rw [standing_eq_some hc, Option.some.injEq, standingOf_eq_gone]
      rfl
  have here : ∀ (w : World), (w.serverHandlers.get? h).any (fun c => !c.disposed) = true ↔
      ∃ s, w.standing h = some s ∧ s ≠ .gone := by
    intro w
    cases hc : w.serverHandlers.get? h with
    | none => simp [standing_eq_none hc]
    | some =>
      rw [standing_eq_some hc]
      simp only [Option.any_some, Bool.not_eq_true', Option.some.injEq, exists_eq_left', ne_eq,
        standingOf_eq_gone, Bool.not_eq_true]
      rfl
  rw [Transition.closes, Bool.and_eq_true, gone, here]
  grind

theorem Exchange.LeftOpenly.mono (t : Transition) (hl : LeftOpenly ts h) : LeftOpenly (ts ++ [t]) h := by
  obtain ⟨earlier, t', later, rfl, rest⟩ := hl
  exact ⟨earlier, t', later ++ [t], by simp, rest⟩

/-- A handler has left openly before, or it does so now. -/
theorem Exchange.LeftOpenly.of_append {t : Transition} (hl : LeftOpenly (ts ++ [t]) h) :
    LeftOpenly ts h ∨ ((∃ name, greeting h name ∈ sentOn ts near) ∧ t.closes h = true ∧
      t.before.world.isOpen near = true) := by
  obtain ⟨earlier, t', later, heq, greeted, closes, isOpen⟩ := hl
  obtain ⟨rfl, rfl, -⟩ | ⟨later', -, rfl⟩ := Runs.split_last heq
  · exact .inr ⟨greeted, closes, isOpen⟩
  · exact .inl ⟨earlier, t', later', rfl, greeted, closes, isOpen⟩

/-! ## What was said -/

/-- What a handler has said so far, by where it stands. -/
inductive Said (ts : List Transition) (w : World) (h : Nat) : List Call → Prop
  | silent (standing : ∀ s, w.standing h = some s → s = .unannounced ∨ s = .gone)
      (said : saidBy ts h = []) (stayed : ¬ LeftOpenly ts h) : Said ts w h []
  | present {calls : List Call} (name : String) (s : Standing) (standing : w.standing h = some s)
      (announced : s ≠ .unannounced)
      (number : w.isOpen near = true → s = .gone ∨ s = .announced calls.length)
      (said : saidBy ts h = greeting h name :: questions h calls) (stayed : ¬ LeftOpenly ts h) :
      Said ts w h calls
  | departed {calls : List Call} (name : String) (standing : w.standing h = some .gone)
      (said : saidBy ts h = greeting h name :: (questions h calls ++ [farewell h]))
      (left : LeftOpenly ts h) : Said ts w h calls

/-- What the stage of a handler says about where it stands. -/
theorem World.standing_of_stage (stage : (w'.serverHandlers.get? h).map ServerHandlerCell.stage =
      (w.serverHandlers.get? h).map ServerHandlerCell.stage) {s' : Standing} (hs' : w'.standing h = some s') :
    ∃ s, w.standing h = some s ∧ (s = .gone ↔ s' = .gone) ∧ (s = .unannounced ↔ s' = .unannounced) := by
  obtain ⟨_, _, rfl⟩ := Option.map_eq_some_iff.mp hs'
  grind [standing_eq_some, standingOf_eq_gone, standingOf_eq_unannounced]

variable {calls : List Call}

/-- Nothing new is said. -/
theorem Said.still (said : Said ts x.world h calls) (mute : saidBy (ts ++ [⟨x, m, y⟩]) h = saidBy ts h)
    (open_mono : y.world.isOpen near = true → x.world.isOpen near = true)
    (stays : ∀ s', y.world.standing h = some s' → x.world.standing h = none ∧ s' ≠ .cutOff ∧
      (∀ n, s' ≠ .announced n) ∨ ∃ s, x.world.standing h = some s ∧ (s = .gone → s' = .gone) ∧
      (s = .unannounced → s' = .unannounced ∨ s' = .gone) ∧
      (s ≠ .unannounced → s' ≠ .unannounced) ∧ (x.world.isOpen near = true → s' = s ∨ s' = .gone))
    (back : ∀ s, x.world.standing h = some s → ∃ s', y.world.standing h = some s')
    (here : LeftOpenly (ts ++ [⟨x, m, y⟩]) h → LeftOpenly ts h) :
    Said (ts ++ [⟨x, m, y⟩]) y.world h calls := by
  cases said with
  | silent standing said stayed =>
    refine .silent (fun s' hs' => ?_) (mute.trans said) fun hl => stayed (here hl)
    rcases stays s' hs' with ⟨-, uncut, unannounced⟩ | ⟨s, hs, gone, quiet, -, -⟩
    · cases s' with
      | unannounced => exact .inl rfl
      | announced n => exact absurd rfl (unannounced n)
      | cutOff => exact absurd rfl uncut
      | gone => exact .inr rfl
    · rcases standing s hs with rfl | rfl
      · exact quiet rfl
      · exact .inr (gone rfl)
  | present name s standing announced number said stayed =>
    obtain ⟨s', hs'⟩ := back s standing
    rcases stays s' hs' with ⟨none, -⟩ | ⟨s₀, hs₀, gone, -, loud, same⟩
    · cases none.symm.trans standing
    · cases standing.symm.trans hs₀
      refine .present name s' hs' (loud announced) (fun ho => ?_) (mute.trans said) fun hl =>
        stayed (here hl)
      rcases same (open_mono ho) with rfl | rfl
      · exact number (open_mono ho)
      · exact .inl rfl
  | departed name standing said left =>
    obtain ⟨s', hs'⟩ := back _ standing
    rcases stays s' hs' with ⟨none, -⟩ | ⟨s₀, hs₀, gone, -⟩
    · cases none.symm.trans standing
    · cases standing.symm.trans hs₀
      exact .departed name (gone rfl ▸ hs') (mute.trans said) (left.mono _)

theorem saidBy_ne_nil {name : String} (hm : greeting h name ∈ sentOn ts near) :
    saidBy ts h ≠ [] :=
  List.ne_nil_of_mem (List.mem_filter.mpr ⟨hm, by simp⟩)

/-- Every move keeps the account of what was said. -/
theorem Said.step {out : List (String × Json)}
    (said : Said ts x.world h calls) (side : NearSide x.world y.world κ out)
    (open_mono : y.world.isOpen near = true → x.world.isOpen near = true) :
    ∃ new, Said (ts ++ [⟨x, m, y⟩]) y.world h (calls ++ new) ∧
      (new = [] ∨ ∃ call t, new = [call] ∧ κ = .action (.invoke (.post h call) t) ∧
        x.world.upcoming h = some calls.length) := by
  have grown : saidBy (ts ++ [⟨x, m, y⟩]) h = saidBy ts h ++ out.filter (concerns h) := by
    rw [saidBy_append, NearSide.sent (t := ⟨x, m, y⟩) side rfl]
  have leaves : LeftOpenly (ts ++ [⟨x, m, y⟩]) h → LeftOpenly ts h ∨
      saidBy ts h ≠ [] ∧ (∃ s, x.world.standing h = some s ∧ s ≠ .gone ∧
        y.world.standing h = some .gone) ∧ x.world.isOpen near = true := fun hl =>
    hl.of_append.imp_right fun ⟨⟨_, greeted⟩, closes, ho⟩ =>
      ⟨saidBy_ne_nil greeted, World.closes_iff.mp closes, ho⟩
  have conduct := side.conduct h
  generalize out.filter (concerns h) = mine at conduct grown
  cases conduct with
  | same eq =>
    refine ⟨[], ?_, .inl rfl⟩
    rw [List.append_nil] at grown ⊢
    refine said.still grown open_mono (fun s' hs' => ?_) (fun s hs => ⟨s, eq.trans hs⟩) fun hl => ?_
    · exact .inr ⟨s', eq ▸ hs', id, .inl, id, fun _ => .inl rfl⟩
    · grind
  | stranded closed stage =>
    refine ⟨[], ?_, .inl rfl⟩
    rw [List.append_nil] at grown ⊢
    refine said.still grown open_mono (fun s' hs' => ?_) (fun s hs => ?_) fun hl => ?_
    · obtain ⟨s, hs, gone, quiet⟩ := World.standing_of_stage stage hs'
      exact .inr ⟨s, hs, gone.mp, fun h => .inl (quiet.mp h), fun h h' => h (quiet.mpr h'),
        fun ho => absurd (ho.symm.trans closed) nofun⟩
    · obtain ⟨s', hs', -⟩ := World.standing_of_stage stage.symm hs
      exact ⟨s', hs'⟩
    · rcases leaves hl with hl | ⟨-, -, ho⟩
      · exact hl
      · cases ho.symm.trans closed
  | made fresh =>
    refine ⟨[], ?_, .inl rfl⟩
    rw [List.append_nil] at grown ⊢
    refine said.still grown open_mono (fun s' hs' => .inl ⟨fresh, ?_⟩) (fun s hs => ?_) fun hl => ?_
    · grind
    · cases fresh.symm.trans hs
    · rcases leaves hl with hl | ⟨-, ⟨s, hs, -⟩, -⟩
      · exact hl
      · cases fresh.symm.trans hs
  | @announced call t name cause isOpen before after =>
    cases said with
    | present _ _ standing announced =>
      exact absurd (Option.some.inj (standing.symm.trans before)) announced
    | departed _ standing => cases standing.symm.trans before
    | silent _ said stayed =>
      refine ⟨[call], ?_, .inr ⟨call, t, rfl, cause, ?_⟩⟩
      · refine .present name _ after nofun (fun _ => .inr rfl) (by rw [grown, said]; rfl) fun hl => ?_
        rcases leaves hl with hl | ⟨hne, -⟩
        · exact stayed hl
        · exact hne said
      · exact World.upcoming_eq_some.mpr ⟨isOpen, .inl ⟨before, rfl⟩⟩
  | @posted call t _ cause isOpen before after =>
    cases said with
    | silent standing => rcases standing _ before with h | h <;> cases h
    | departed _ standing => cases standing.symm.trans before
    | present name _ standing _ number said =>
      cases standing.symm.trans before
      obtain heq | heq := number isOpen
      · cases heq
      obtain rfl := Standing.announced.inj heq
      refine ⟨[call], ?_, .inr ⟨call, t, rfl, cause, ?_⟩⟩
      · refine .present name _ after nofun (fun _ => .inr (by simp)) ?_ fun hl => ?_
        · rw [grown, said, questions_concat]
          rfl
        · grind
      · exact World.upcoming_eq_some.mpr ⟨isOpen, .inr before⟩
  | @left s _ cause before here after leave_eq =>
    refine ⟨[], ?_, .inl rfl⟩
    rw [List.append_nil]
    cases said with
    | silent standing said stayed =>
      obtain rfl : s = .unannounced := (standing s before).resolve_right here
      rw [leave_eq, if_neg fun h => h.1 rfl, List.append_nil] at grown
      refine .silent (fun s' hs' => .inr ?_) (grown.trans said) fun hl => ?_
      · exact (Option.some.inj (after.symm.trans hs')).symm
      · rcases leaves hl with hl | ⟨hne, -⟩
        · exact stayed hl
        · exact hne said
    | departed _ standing => exact absurd (Option.some.inj (before.symm.trans standing)) here
    | present name _ standing announced _ said stayed =>
      cases standing.symm.trans before
      cases ho : x.world.isOpen near with
      | true =>
        rw [leave_eq, if_pos ⟨announced, ho⟩] at grown
        refine .departed name after (by rw [grown, said]; rfl) ?_
        have greeted : greeting h name ∈ sentOn ts near :=
          (List.mem_filter.mp (said ▸ (.head _) : greeting h name ∈ saidBy ts h)).1
        exact ⟨ts, _, [], rfl, ⟨name, greeted⟩, World.closes_iff.mpr ⟨_, before, here, after⟩, ho⟩
      | false =>
        rw [leave_eq, if_neg fun both => Bool.false_ne_true (ho.symm.trans both.2), List.append_nil] at grown
        refine .present name _ after nofun (fun _ => .inl rfl) (grown.trans said) fun hl => ?_
        rcases leaves hl with hl | ⟨-, -, ho'⟩
        · exact stayed hl
        · cases ho.symm.trans ho'

/-! ## All runs -/

def Spoken (ts : List Transition) (x : Exchange) (L : Ledger) : Prop :=
  ∀ h, ∃ calls, Said ts x.world h calls ∧
    ∀ k ρ, L.client k = some ρ → ρ.handler = h → calls <+: callsTo ts k

theorem Said.nil_of_none (said : Said ts w h calls) (absent : w.standing h = none) : calls = [] := by
  cases said with
  | silent => rfl
  | present _ _ standing | departed _ standing => cases absent.symm.trans standing

theorem Steady.next_call (s : Steady ts x L) {t k : Nat} {call : Call} {ρ : ClientRole}
    (agenda : x.agenda = .invoke (.post h call) t :: rest)
    (hb : x.world.upcoming h = some calls.length) (hρ : L.client k = some ρ) (hh : ρ.handler = h)
    (before : calls <+: callsTo ts k) : calls ++ [call] <+: callsTo ts k := by
  subst hh
  obtain ⟨γ, hjob, -, -⟩ := s.agenda _ (agenda ▸ List.mem_cons_self)
  obtain rfl : γ = .readiness ρ.handler :=
    (Option.some.inj (hjob.lane s.regular.coherent)).symm
  obtain ⟨_, _, hη, heq, hrole⟩ := hjob
  obtain ⟨-, _, hη', howner⟩ := s.regular.coherent.client hρ
  obtain rfl := Option.some.inj (hη.symm.trans hη')
  obtain ⟨-, rfl⟩ := Job.post.inj heq
  rw [howner] at hrole
  obtain ⟨-, _, _, role, arrived⟩ := hrole
  have can : x.world.canPost ρ.handler := by
    obtain ⟨ho, hs⟩ := World.upcoming_eq_some.mp hb
    obtain ⟨cell, hcell⟩ := s.regular.handler_get? hη
    refine ⟨ho, cell, hcell, ?_⟩
    rw [World.standing_eq_some hcell] at hs
    cases hd : cell.disposed with
    | false => rfl
    | true =>
      have gone : World.standingOf x.world.tally cell.stage = .gone := World.standingOf_eq_gone.mpr hd
      rw [gone] at hs
      rcases hs with ⟨hs, -⟩ | hs <;> cases hs
  obtain rfl := Option.some.inj ((s.numbered agenda can role).symm.trans hb)
  have next : (callsTo ts k)[calls.length]? = some call := by
    rw [callsTo_eq, List.getElem?_map, show ((ofTrace ts).arrivals k)[calls.length]? = _ from arrived]
    rfl
  obtain ⟨later, split⟩ := before
  rw [← split, List.getElem?_append_right (Nat.le_refl _), Nat.sub_self] at next
  cases later with
  | nil => cases next
  | cons _ later =>
    obtain rfl := Option.some.inj next
    exact ⟨later, by rw [← split]; simp⟩

theorem Spoken.step (s : Steady ts x L) (spoken : Spoken ts x L)
    (v : Advance ts x m L L' κ w' more rest) :
    Spoken (ts ++ [x.transition m]) ⟨w', more ++ rest⟩ L' := by
  intro h
  obtain ⟨calls, said, served⟩ := spoken h
  obtain ⟨_, side⟩ := v.nearSide s
  have world : (x.step m).world = w' := by rw [v.occurs.after]
  have mono : ∀ k, callsTo ts k <+: callsTo (ts ++ [x.transition m]) k := fun k => by
    rw [callsTo, callsTo, List.filterMap_append]
    exact List.prefix_append ..
  obtain ⟨new, said', sent⟩ := said.step (m := m) (y := x.step m) (world ▸ side)
    (by rw [world]; exact v.near_mono s)
  refine ⟨calls ++ new, world ▸ said', fun k _ hρ hh => ?_⟩
  cases hold : L.client k with
  | none =>
    -- A new client has a new handler, which has said nothing.
    subst hh
    have absent := (v.handler_new s hold hρ).2
    rcases sent with rfl | ⟨_, _, -, -, hb⟩
    · rw [said.nil_of_none absent]
      exact List.nil_prefix
    · exact absurd hb (World.upcoming_ne_some absent _)
  | some ρ' =>
    obtain rfl := Option.some.inj ((v.grows.client hold).symm.trans hρ)
    rcases sent with rfl | ⟨_, _, rfl, rfl, hb⟩
    · rw [List.append_nil]
      exact (served k ρ' hold hh).trans (mono k)
    · exact (s.next_call v.occurs.agenda hb hold hh (served k ρ' hold hh)).trans (mono k)

theorem Spoken.opening (serve : Serving) : Spoken [] (opening serve) .blank := by
  refine fun h => ⟨[], .silent (fun _ hs => ?_) rfl ?_, nofun⟩
  · rw [World.standing_eq_none rfl] at hs
    cases hs
  · rintro ⟨earlier, _, _, heq, -⟩
    cases earlier <;> cases heq

theorem spoken_run (serve : Serving) (ms : List Move) :
    ∃ L, Steady ((opening serve).trace ms) ((opening serve).run ms) L ∧
      Spoken ((opening serve).trace ms) ((opening serve).run ms) L :=
  steady_induction (A := fun _ => True) (.opening serve)
    (fun _ _ _ _ _ _ _ _ _ s spoken _ v => spoken.step s v) ms fun _ _ => trivial

/-- All that a server handler ever sends on the server channel is one announcement, calls under numbers
counted from zero, and at most one farewell; the farewell if and only if the handler was closed after its
announcement while the server channel was open. -/
theorem saidBy_announcement (serve : Serving) (ms : List Move) (h : Nat) :
    (saidBy ((opening serve).trace ms) h = [] ∧ ¬ LeftOpenly ((opening serve).trace ms) h) ∨
      ∃ name calls,
        (saidBy ((opening serve).trace ms) h = greeting h name :: questions h calls ∧
          ¬ LeftOpenly ((opening serve).trace ms) h) ∨
        (saidBy ((opening serve).trace ms) h = greeting h name :: (questions h calls ++ [farewell h]) ∧
          LeftOpenly ((opening serve).trace ms) h) := by
  obtain ⟨_, -, hall⟩ := spoken_run serve ms
  obtain ⟨calls, said, -⟩ := hall h
  cases said with
  | silent _ said stayed => exact .inl ⟨said, stayed⟩
  | present name _ _ _ _ said stayed => exact .inr ⟨name, calls, .inl ⟨said, stayed⟩⟩
  | departed name _ said left => exact .inr ⟨name, calls, .inr ⟨said, left⟩⟩

/-! ## Requests -/

theorem concerns_of_request {message : String × Json}
    (hm : (message.1 == Service.request (Service.callFunction h)) = true) : concerns h message = true := by
  simp [concerns, hm]

theorem requestsOf_eq (ts : List Transition) (h : Nat) : requestsOf ts h =
    (saidBy ts h).filter fun m => m.1 == Service.request (Service.callFunction h) := by
  rw [requestsOf, saidBy, List.filter_filter]
  refine List.filter_congr fun message _ => ?_
  cases hm : message.1 == Service.request (Service.callFunction h) with
  | false => rfl
  | true => rw [concerns_of_request hm]; rfl

theorem filter_questions (h : Nat) (calls : List Call) :
    (questions h calls).filter (fun m => m.1 == Service.request (Service.callFunction h)) =
      questions h calls := by
  refine List.filter_eq_self.mpr fun _ hm => ?_
  obtain ⟨_, _, rfl⟩ := List.mem_mapIdx.mp hm
  simp [question]

theorem Said.requests (said : Said ts w h calls) :
    requestsOf ts h = questions h calls := by
  have create : (Service.createHandler == Service.request (Service.callFunction h)) = false :=
    beq_false_of_ne (Service.request_ne _ (by decide)).symm
  have delete : (Service.deleteHandler == Service.request (Service.callFunction h)) = false :=
    beq_false_of_ne (Service.request_ne _ (by decide)).symm
  rw [requestsOf_eq]
  cases said with
  | silent _ said => rw [said]; rfl
  | present _ _ _ _ _ said =>
    rw [said, List.filter_cons_of_neg (by simp [greeting, create]), filter_questions]
  | departed _ _ said =>
    rw [said, List.filter_cons_of_neg (by simp [greeting, create]), List.filter_append, filter_questions,
      List.filter_cons_of_neg (by simp [farewell, delete])]
    simp

/-- The requests that are sent for a client handler are the calls that it received, in the order of
their arrival, from the first one on and without a gap, under numbers counted from zero. -/
theorem requestsOf_eq_take (serve : Serving) (ms : List Move) (k : Nat)
    (cell : ClientHandlerCell) (hk : ((opening serve).run ms).world.clientHandlers.get? k = some cell) :
    ∃ n, n ≤ (callsTo ((opening serve).trace ms) k).length ∧
      requestsOf ((opening serve).trace ms) cell.serverHandler =
        ((callsTo ((opening serve).trace ms) k).take n).mapIdx fun i call =>
          question cell.serverHandler i call := by
  obtain ⟨_, s, hall⟩ := spoken_run serve ms
  obtain ⟨calls, said, served⟩ := hall cell.serverHandler
  obtain ⟨ρ, hρ, ok⟩ := s.regular.orderly.clients k cell hk
  have first := served k ρ hρ ok.handler.symm
  refine ⟨calls.length, first.length_le, ?_⟩
  rw [said.requests, ← List.prefix_iff_eq_take.mp first]
  rfl

/-- A client posts two calls, its permission is granted, and the calls are let through. -/
def passage : List Move :=
  [.hire "checker", .connect, .accept 3 .always none (.manual 0), .enlist 2 .abort, .post 0 ⟨"f", []⟩,
    .post 0 ⟨"g", []⟩, .proceed, .poll 2] ++ List.replicate 7 .proceed ++
    [.settle 2 (.ok .null), .poll 5] ++ List.replicate 8 .proceed ++ .poll 4 :: List.replicate 8 .proceed

/-- The calls of a client that has the permission are sent in the order in which they arrived. -/
theorem requestsOf_passage : ∃ cell,
    ((opening oblige).run passage).world.clientHandlers.get? 0 = some cell ∧
    (callsTo ((opening oblige).trace passage) 0).map (·.function) = ["f", "g"] ∧
    requestsOf ((opening oblige).trace passage) cell.serverHandler =
      questions cell.serverHandler (callsTo ((opening oblige).trace passage) 0) := by
  have arrived : (callsTo ((opening oblige).trace passage) 0).map (·.function) = ["f", "g"] := by decide +kernel
  have sent : (((opening oblige).run passage).world.clientHandlers.get? 0).any
      (fun cell => (requestsOf ((opening oblige).trace passage) cell.serverHandler).length == 2) = true := by
    decide +kernel
  obtain ⟨cell, hcell, two⟩ := (Option.any_eq_true _ _).mp sent
  obtain ⟨n, small, inOrder⟩ := requestsOf_eq_take _ _ 0 cell hcell
  refine ⟨cell, hcell, arrived, ?_⟩
  have length : (callsTo ((opening oblige).trace passage) 0).length = 2 := by
    simpa using congrArg List.length arrived
  rw [inOrder] at two ⊢
  rw [List.take_of_length_le (by grind), questions]

end Switchboard
