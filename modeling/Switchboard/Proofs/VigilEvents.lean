import Switchboard.Proofs.Vigil

/-!
# Each event of a pinger's life

What messages, calls of the owners and the actions of the agenda do to a pinger, one by one. A channel on which
there is no pinger yet is one whose pinger has stopped (`Held.absent`), so that the same lemmas tell its life.
-/

namespace Switchboard

open World

namespace Vigil

def seat (seated : Bool) (cell : PingerCell) : Table PingerCell :=
  if seated then ({} : Table PingerCell).push cell else {}

theorem seat_modify (seated : Bool) (cell : PingerCell) (f : PingerCell → PingerCell) :
    (seat seated cell).modify watcher f = seat seated (f cell) := by
  cases seated with
  | false => rfl
  | true => exact Table.modify_push_size _ cell f

/-- How the pinger stands in the world. -/
structure Held (seated callback : Bool) (ch : Channel) (cell : PingerCell) (x : Exchange) : Prop where
  fit : Fit callback ch cell
  channel : x.world.channels.get? line = some ch
  pingers : x.world.pingers = seat seated cell
  tasks : x.world.tasks = if seated then ({} : Table Task).push (.pingLoop watcher) else {}
  absent : seated = false → cell.core.isDisposed = true
  chores : ∀ a ∈ x.agenda, Chore a

def Leads (seated callback : Bool) (ch : Channel) (cell : PingerCell) (x : Exchange) (e : Event) : Prop :=
  ∃ ch' cell', Held seated callback ch' cell' (step x e) ∧
    Next callback (turn x e) (view ch cell x.agenda) (view ch' cell' (step x e).agenda)

section Events

variable {seated callback : Bool} {ch ch' : Channel} {cell cell' : PingerCell} {x y : Exchange} {e : Event}

namespace Held

theorem found (h : Held true callback ch cell x) : x.world.pingers.get? watcher = some cell := by
  rw [h.pingers]
  rfl

section

variable (h : Held seated callback ch cell x)
include h

theorem here (live : cell.core.isDisposed = false) :
    seated = true ∧ x.world.pingers.get? watcher = some cell := by
  cases seated with
  | false => exact absurd ((h.absent rfl).symm.trans live) nofun
  | true => exact ⟨rfl, h.found⟩

/-- Only a pinger that has stopped can be found if it has. -/
theorem gone (gone : cell.core.isDisposed = true) (cell' : PingerCell)
    (found : x.world.pingers.get? watcher = some cell') : cell'.core.isDisposed = true := by
  cases seated with
  | false =>
    rw [h.pingers] at found
    exact absurd found nofun
  | true => rwa [← Option.some.inj (h.found.symm.trans found)]

theorem modify (f : PingerCell → PingerCell) : x.world.pingers.modify watcher f = seat seated (f cell) := by
  rw [h.pingers, seat_modify]

end

theorem coreOf (h : Held true callback ch cell x) : Vigil.coreOf x = cell.core := by
  rw [Vigil.coreOf, h.found]
  rfl

theorem isOpen (h : Held seated callback ch cell x) : x.world.isOpen line = !ch.core.disposed := by
  unfold World.isOpen
  rw [h.channel]

theorem get?_modify (h : Held seated callback ch cell x) (f : Channel → Channel) :
    (x.world.channels.modify line f).get? line = some (f ch) := by
  rw [Table.get?_modify_self, h.channel]
  rfl

end Held

section

variable (after : step x e = y) (held : Held seated callback ch' cell' y)
include after held

theorem Leads.of (next : Next callback ⟨x, e, y⟩ (view ch cell x.agenda) (view ch' cell' y.agenda)) :
    Leads seated callback ch cell x e := by
  subst after
  exact ⟨ch', cell', held, next⟩

/-- An event that is no message and does nothing to the pinger. -/
theorem Leads.calm (moves : Moves e (view ch cell x.agenda) (view ch' cell' y.agenda))
    (cause : cell.core.isDisposed = false → (turn x e).cause? = none)
    (pong : cell.core.isDisposed = false → (turn x e).pong?.isSome = true → cell.core.remote ≠ none)
    (reports : Reports cell.core x.world.events y.world.events) : Leads seated callback ch cell x e :=
  .of after held (.calm moves cause pong reports)

end

theorem Leads.still (h : Held seated callback ch cell x) (same : step x e = x)
    (cause : cell.core.isDisposed = false → (turn x e).cause? = none)
    (pong : cell.core.isDisposed = false → (turn x e).pong?.isSome = true → cell.core.remote ≠ none) :
    Leads seated callback ch cell x e :=
  .calm same h .stay cause pong (.none _)

theorem Leads.stop (h : Held seated callback ch cell x) (live : cell.core.isDisposed = false)
    {reason : PingerStop} {agenda : List Action}
    (after : step x e = ⟨x.world.disposePinger watcher reason, agenda⟩) (chores : ∀ a ∈ agenda, Chore a)
    (cause : (turn x e).cause? = some reason)
    (pong : (turn x e).pong?.isSome = true → cell.core.remote ≠ none)
    (orders : reason.isOwn = true → agenda.filter isVital = .closeChannel line :: x.agenda.filter isVital)
    (leaves : reason.isOwn = false → x.agenda.filter isVital = agenda.filter isVital ∨
      x.agenda.filter isVital = tells :: agenda.filter isVital) : Leads seated callback ch cell x e := by
  rw [disposePinger_of_live (h.here live).2 live, h.fit.mine] at after
  refine .of after
    { h with
      fit := h.fit.stop reason, channel := h.get?_modify _, pingers := h.modify _, absent := fun _ => rfl
      chores := chores } ?_
  unfold view
  rw [disposed_unwatched]
  exact .stopped live cause pong rfl orders leaves

variable (h : Held seated callback ch cell x)
include h

/-! ### Messages -/

theorem heard_eq_none {service : String} {v : Json}
    (unheard : service = Service.pong → ch.core.disposed = true) :
    (turn x (.hear service v)).heard? = none := by
  refine if_neg fun ⟨pong, isOpen, _⟩ => ?_
  rw [h.isOpen, unheard pong] at isOpen
  exact absurd isOpen nofun

/-- A pong reaches the pinger. -/
theorem leads_pong (isOpen : ch.core.disposed = false)
    (live : cell.core.isDisposed = false) (v : Json)
    (reaches : x.world.deliver line Service.pong v = x.world.onPong watcher v) :
    Leads seated callback ch cell x (.hear Service.pong v) := by
  obtain ⟨rfl, here⟩ := h.here live
  have after : step x (.hear Service.pong v) =
      ⟨(x.world.onPong watcher v).1, (x.world.onPong watcher v).2 ++ x.agenda⟩ := by
    rw [← reaches]
    rfl
  have heard : (turn x (.hear Service.pong v)).heard? = some v :=
    if_pos ⟨rfl, by rw [h.isOpen, isOpen]; rfl, by rw [h.coreOf, live]⟩
  have pong : (turn x (.hear Service.pong v)).pong? = Pinger.pongId? v := by
    rw [Turn.pong?, heard]
    rfl
  have cause : (turn x (.hear Service.pong v)).cause? =
      (Pinger.pongId? v).elim (some .malformedPong) fun id =>
        if cell.core.remote.any (· != id) then some .channelIdMismatch else none := by
    show (Turn.heard? _).bind _ = _
    rw [heard, h.coreOf, Option.bind_some]
    cases Pinger.pongId? v <;> rfl
  have chores : ∀ a ∈ Action.closeChannel line :: x.agenda, Chore a :=
    List.forall_mem_cons.mpr ⟨.closeChannel, h.chores⟩
  cases hv : Pinger.pongId? v with
  | none =>
    rw [hv] at cause pong
    rw [onPong_malformed here live hv, h.fit.mine] at after
    exact .stop h live after chores cause (by rw [pong]; rintro ⟨⟩) (fun _ => rfl) (by rintro ⟨⟩)
  | some id =>
    rw [hv] at cause pong
    cases known : cell.core.remote with
    | none =>
      rw [known] at cause
      rw [onPong_first here live hv known, h.fit.callback live known] at after
      have held : ∀ events, Held true callback ch (World.acquainted id cell)
          ⟨{ x.world with pingers := x.world.pingers.modify watcher (World.acquainted id), events := events },
            x.agenda⟩ := fun events =>
        { h with fit := h.fit.acquainted live id, pingers := h.modify _, absent := by rintro ⟨⟩ }
      cases callback with
      | false => exact .of after (held _) (@Next.met _ _ _ id 0 "" live known cause pong (List.append_nil _).symm)
      | true => exact .of after (held _) (.met live known cause pong rfl)
    | some expected =>
      rw [known] at cause
      by_cases same : expected = id
      · subst same
        rw [onPong_alive here live hv known, wake_eq] at after
        have held q : Held true callback ch (reassured cell)
            ⟨{ x.world with pingers := x.world.pingers.modify watcher reassured, queue := q }, x.agenda⟩ :=
          { h with fit := { h.fit with }, pingers := h.modify _ }
        exact .calm after (held _) .stay (fun _ => cause.trans (if_neg (by simp))) (fun _ _ => by rw [known]; rintro ⟨⟩)
          (.none _)
      · rw [onPong_mismatch here live hv known same, h.fit.mine] at after
        exact .stop h live after chores (cause.trans (if_pos (by simpa using same)))
          (fun _ => by rw [known]; rintro ⟨⟩) (fun _ => rfl) (by rintro ⟨⟩)

theorem leads_hear (service : String) (v : Json) : Leads seated callback ch cell x (.hear service v) := by
  have after : step x (.hear service v) =
      ⟨(x.world.deliver line service v).1, (x.world.deliver line service v).2 ++ x.agenda⟩ := rfl
  have silent : (service = Service.pong → ch.core.disposed = true) →
      (turn x (.hear service v)).cause? = none ∧ (turn x (.hear service v)).pong? = none := fun unheard => by
    have none := heard_eq_none h unheard (v := v)
    exact ⟨by show (Turn.heard? _).bind _ = _; rw [none]; rfl, by rw [Turn.pong?, none]; rfl⟩
  unfold World.deliver at after
  rw [h.channel, Option.bind_some] at after
  rcases h.fit.handler_cases service with ⟨none, unheard⟩ | ⟨_, _, other, hne⟩ | ⟨mine, rfl, isOpen, live⟩
  · rw [none] at after
    exact .still h after (fun live => (silent (unheard live)).1)
      fun live => by rw [(silent (unheard live)).2]; nofun
  · rw [other] at after
    obtain ⟨cause, pong⟩ := silent fun pong => absurd pong hne
    exact .calm after { h with } .stay (fun _ => cause) (fun _ => by rw [pong]; nofun) (.log _ nofun nofun)
  · refine leads_pong h isOpen live v ?_
    unfold World.deliver
    rw [h.channel, Option.bind_some, mine]

/-! ### Calls of the owners -/

/-- Sending a ping adds at most a report of it, and nothing once the pinger has stopped. -/
theorem Held.postPing : ∃ events, x.world.postPing watcher = { x.world with events := events } ∧
      Reports cell.core x.world.events events := by
  have nothing : ∃ events, x.world = { x.world with events := events } ∧
      Reports cell.core x.world.events events := ⟨_, rfl, .none _⟩
  unfold World.postPing
  split
  · exact nothing
  · next found =>
    split
    · exact nothing
    · next live =>
      have live' := Bool.eq_false_iff.mpr fun dead => live (h.gone dead _ found)
      cases (h.here live').2.symm.trans found
      obtain ⟨fault, recorder⟩ := h.fit.recorder
      unfold World.sendQuietly World.send
      rw [h.fit.mine, h.channel]
      dsimp only
      split
      · exact nothing
      · rw [recorder]
        cases fault with
        | some => exact nothing
        | none => exact ⟨_, rfl, .log _ nofun fun dead => absurd dead live⟩

theorem leads_postPing : Leads seated callback ch cell x .postPing := by
  obtain ⟨_, sent, reports⟩ := h.postPing
  have after : step x .postPing = ⟨x.world.postPing watcher, x.agenda⟩ := rfl
  rw [sent] at after
  exact .calm after { h with } .stay (fun _ => rfl) nofun reports

theorem leads_tick (ms : Nat) : Leads seated callback ch cell x (.tick ms) := by
  cases agenda : x.agenda with
  | cons => exact .still h (by simp only [step, agenda]) (fun _ => rfl) nofun
  | nil =>
    have after : step x (.tick ms) = ⟨{ x.world with clock := x.world.clock + ms }, x.agenda⟩ := by
      simp only [step, agenda]
    exact .calm after { h with } .stay (fun _ => rfl) nofun (.none _)

theorem leads_poll (t : Nat) : Leads seated callback ch cell x (.poll t) := by
  cases agenda : x.agenda with
  | cons => exact .still h (by simp only [step, agenda]) (fun _ => rfl) (by rintro _ ⟨⟩)
  | nil =>
    have after : step x (.poll t) = ⟨(x.world.poll t).1, (x.world.poll t).2⟩ := by
      simp only [step, agenda]
    cases task : x.world.tasks.get? t with
    | none =>
      refine .still h ?_ (fun _ => rfl) (by rintro _ ⟨⟩)
      rw [after, World.poll, task, ← agenda]
    | some task' =>
      obtain ⟨rfl, rfl⟩ : seated = true ∧ task' = .pingLoop watcher := by
        rw [h.tasks] at task
        cases seated with
        | false => cases task
        | true =>
          rw [if_pos rfl, Table.get?_push] at task
          split at task
          · exact ⟨rfl, (Option.some.inj task).symm⟩
          · cases task
      rw [poll_pingLoop task h.found] at after
      by_cases loop : cell.loop = .fresh
      · obtain ⟨q, hq⟩ := schedule_eq t (x.world.setLoop watcher .starting)
        rw [if_pos loop, hq, ← agenda] at after
        have held : Held true callback ch { cell with loop := .starting }
            ⟨{ x.world.setLoop watcher .starting with queue := q }, x.agenda⟩ :=
          { h with
            fit := { h.fit with idle := fun gone => by cases loop.symm.trans (h.fit.idle gone).2 }
            pingers := h.modify _ }
        exact .calm after held .stay (fun _ => rfl) (by rintro _ ⟨⟩) (.none _)
      · rw [if_neg loop] at after
        refine .calm after { h with chores := List.forall_mem_singleton.mpr .pingNext } ?_ (fun _ => rfl) (by rintro _ ⟨⟩) (.none _)
        rw [agenda]
        exact .stay

theorem leads_close : Leads seated callback ch cell x .close := by
  have after : step x .close = ⟨x.world, .closeChannel line :: x.agenda⟩ := rfl
  exact .calm after { h with chores := List.forall_mem_cons.mpr ⟨.closeChannel, h.chores⟩ } (.ordered rfl)
    (fun _ => rfl) nofun (.none _)

theorem leads_dispose : Leads seated callback ch cell x .dispose := by
  have after : step x .dispose = ⟨x.world.disposePinger watcher .explicit, x.agenda⟩ := rfl
  cases live : cell.core.isDisposed with
  | false => exact .stop h live after h.chores rfl nofun nofun fun _ => .inl rfl
  | true =>
    rw [disposePinger_of_stopped (h.gone live)] at after
    exact .still h after (fun hd => absurd (hd.symm.trans live) nofun) nofun

theorem leads_drop : Leads seated callback ch cell x .drop := by
  have after : step x .drop =
      ⟨{ x.world.disposePinger watcher .explicit with
          pingers := (x.world.disposePinger watcher .explicit).pingers.modify watcher
            fun c => { c with live := false } }, x.agenda⟩ := rfl
  cases live : cell.core.isDisposed with
  | false =>
    rw [disposePinger_of_live (h.here live).2 live, h.fit.mine] at after
    have held : Held seated callback (unwatched cell.hook ch) { stopped .explicit cell with live := false } (step x .drop) := by
      rw [after]
      exact
        { h with
          fit := { h.fit.stop .explicit with }, channel := h.get?_modify _, absent := fun _ => rfl
          pingers := by dsimp only; rw [h.modify, seat_modify] }
    refine .of rfl held ?_
    unfold view
    rw [disposed_unwatched]
    exact .stopped live rfl nofun (by rw [after]) nofun fun _ => .inl rfl
  | true =>
    rw [disposePinger_of_stopped (h.gone live)] at after
    have held : Held seated callback ch { cell with live := false } (step x .drop) := by
      rw [after]
      exact { h with fit := { h.fit with }, pingers := h.modify _ }
    exact .calm rfl held .stay (fun hd => absurd (hd.symm.trans live) nofun) nofun (by rw [after]; exact .none _)

theorem leads_listen (service name : String) : Leads seated callback ch cell x (.listen service name) := by
  by_cases pong : service = Service.pong
  · exact .still h (by simp only [step, Event.apply, pong, if_true, List.nil_append]) (fun _ => rfl) nofun
  · have after : step x (.listen service name) =
        ⟨x.world.register line service (.observer "line" name []), x.agenda⟩ := by
      simp only [step, Event.apply, pong, if_false, List.nil_append]
    refine .calm after { h with fit := h.fit.listen pong name, channel := get?_register h.channel _ _ } ?_
      (fun _ => rfl) nofun (.none _)
    unfold view
    rw [ChannelCore.disposed_register]
    exact .stay

theorem leads_heed (name : String) : Leads seated callback ch cell x (.heed name) := by
  have after : step x (.heed name) =
      ⟨x.world.modifyChannel line fun core => core.addHook (.observer "line" name []),
        (if ch.core.disposed then [.runHook (.observer "line" name [])] else []) ++ x.agenda⟩ := by
    simp only [step, Event.apply, guardChannel, addHook_eq h.channel]
  refine .calm after { h with fit := h.fit.heed name, channel := h.get?_modify _, chores := ?_ } ?_ (fun _ => rfl) nofun (.none _)
  · split
    · exact List.forall_mem_cons.mpr ⟨.other ⟨_, _, rfl⟩, h.chores⟩
    · exact h.chores
  · unfold view
    rw [ChannelCore.disposed_addHook]
    split <;> exact .stay

theorem leads_jam (fault : Option Fault) : Leads seated callback ch cell x (.jam fault) := by
  have held : Held seated callback { ch with transport := .recorder fault } cell (step x (.jam fault)) :=
    { h with
      fit := { h.fit with recorder := ⟨fault, rfl⟩ }
      channel := h.get?_modify fun ch => { ch with transport := .recorder fault } }
  exact .calm rfl held .stay (fun _ => rfl) nofun (.none _)

/-! ### The agenda -/

section Proceed

variable {rest : List Action}

omit h in
theorem step_proceed {a : Action} (agenda : x.agenda = a :: rest) :
    step x .proceed = ⟨(x.world.perform a).1, (x.world.perform a).2 ++ rest⟩ := by
  simp only [step, agenda]

theorem Held.chores_rest {a : Action} (agenda : x.agenda = a :: rest) :
    ∀ b ∈ rest, Chore b := fun b hb => h.chores b (agenda ▸ .tail _ hb)

theorem leads_closing (agenda : x.agenda = .closeChannel line :: rest) :
    Leads seated callback ch cell x .proceed := by
  obtain ⟨_, recorder⟩ := h.fit.recorder
  have after : step x .proceed = ⟨x.world, .closeCore line :: rest⟩ := by
    rw [step_proceed agenda]
    show Exchange.mk (x.world.closeChannel line).1 ((x.world.closeChannel line).2 ++ rest) = _
    simp only [closeChannel, h.channel, recorder]
    rfl
  refine .calm after { h with chores := List.forall_mem_cons.mpr ⟨.closeCore, h.chores_rest agenda⟩ } ?_
    (fun _ => by simp only [Turn.cause?, agenda]) nofun (.none _)
  rw [agenda]
  exact .closing rfl

theorem leads_shutting (agenda : x.agenda = .closeCore line :: rest) :
    Leads seated callback ch cell x .proceed := by
  have cause : (turn x .proceed).cause? = none := by simp only [Turn.cause?, agenda]
  have after : step x .proceed = ⟨(x.world.closeCore line).1, (x.world.closeCore line).2 ++ rest⟩ :=
    step_proceed agenda
  unfold World.closeCore at after
  rw [h.channel, Option.bind_some, ChannelCore.dispose] at after
  cases closed : ch.core.disposed with
  | true =>
    have after : step x .proceed = ⟨x.world, rest⟩ := by rwa [if_pos closed] at after
    refine .calm after { h with chores := h.chores_rest agenda } ?_ (fun _ => cause) (by rintro _ ⟨⟩) (.none _)
    rw [agenda, view, view, closed]
    exact @Moves.shut _ ⟨cell.core, true, _⟩ [] _ rfl (List.forall_mem_nil _) fun _ isOpen => by cases isOpen
  | false =>
    rw [if_neg (by rw [closed]; exact Bool.false_ne_true)] at after
    let news : List Action := (ch.core.hooks.map Prod.snd).map .runHook
    have told : ∀ a ∈ news, a = tells ∨ ∃ hook, Hook.IsOther hook ∧ a = .runHook hook := by
      simp only [news, List.map_map, List.forall_mem_map]
      intro e he
      exact (h.fit.hooks e he).imp (fun mine => congrArg Action.runHook mine.1) fun other => ⟨_, other, rfl⟩
    have chores : ∀ a ∈ news, Chore a := fun a ha => by
      rcases told a ha with rfl | ⟨hook, other, rfl⟩
      · exact .told
      · exact .other other
    have held : Held seated callback (shutDown ch) cell
        ⟨x.world.modifyChannel line fun _ => (shutDown ch).core, news ++ rest⟩ :=
      { h with
        fit := h.fit.shut, channel := h.get?_modify _
        chores := List.forall_mem_append.mpr ⟨chores, h.chores_rest agenda⟩ }
    refine .calm after held ?_ (fun _ => cause) (by rintro _ ⟨⟩) (.none _)
    show Moves _ _ ⟨cell.core, true, (news ++ rest).filter isVital⟩
    rw [agenda, List.filter_append]
    refine .shut rfl (fun a ha => ?_) fun live isOpen => ?_
    · obtain ⟨ha, vital⟩ := List.mem_filter.mp ha
      rcases told a ha with mine | ⟨_, ⟨_, _, rfl⟩, rfl⟩
      · exact mine
      · cases vital
    · obtain ⟨_, mine⟩ := h.fit.hooked live isOpen
      exact List.mem_filter.mpr ⟨List.mem_map_of_mem (List.mem_map_of_mem mine), rfl⟩

theorem leads_telling (agenda : x.agenda = tells :: rest) : Leads seated callback ch cell x .proceed := by
  have after : step x .proceed = ⟨x.world.disposePinger watcher .channelClosed, rest⟩ := step_proceed agenda
  cases live : cell.core.isDisposed with
  | false =>
    refine .stop h live after (h.chores_rest agenda) (by simp only [Turn.cause?, agenda]) nofun nofun fun _ => .inr ?_
    rw [agenda]
    rfl
  | true =>
    rw [disposePinger_of_stopped (h.gone live)] at after
    refine .calm after { h with chores := h.chores_rest agenda } ?_ (fun hd => absurd (hd.symm.trans live) nofun) nofun (.none _)
    rw [agenda]
    exact .told rfl live

theorem Leads.minor {a : Action} (agenda : x.agenda = a :: rest)
    (minor : isVital a = false) {w : World} {more : List Action} (after : step x .proceed = ⟨w, more ++ rest⟩)
    (quiet : ∀ b ∈ more, b = .pingNext watcher) (channels : w.channels = x.world.channels)
    (pingers : w.pingers = seat seated cell') (tasks : w.tasks = x.world.tasks) (fit : Fit callback ch cell')
    (core : cell'.core = cell.core) (cause : cell.core.isDisposed = false → (turn x .proceed).cause? = none)
    (reports : Reports cell.core x.world.events w.events) : Leads seated callback ch cell x .proceed := by
  have chores : ∀ b ∈ more ++ rest, Chore b := List.forall_mem_append.mpr
    ⟨fun b hb => quiet b hb ▸ .pingNext, h.chores_rest agenda⟩
  have same : view ch cell' (more ++ rest) = view ch cell x.agenda := by
    have none : more.filter isVital = [] := List.filter_eq_nil_iff.mpr fun b hb => by rw [quiet b hb]; nofun
    rw [agenda, view, view, core, List.filter_append, none, List.filter_cons_of_neg (by rw [minor]; nofun)]
    rfl
  refine .calm after
    { fit := fit, channel := channels ▸ h.channel, pingers := pingers, tasks := tasks.trans h.tasks
      absent := core ▸ h.absent, chores := chores } ?_ cause nofun reports
  rw [same]
  exact .stay

theorem leads_observing {hook : Hook} (other : Hook.IsOther hook)
    (agenda : x.agenda = .runHook hook :: rest) : Leads seated callback ch cell x .proceed := by
  obtain ⟨owner, name, rfl⟩ := other
  have after : step x .proceed = ⟨x.world.log (.disposed owner name), [] ++ rest⟩ := step_proceed agenda
  exact .minor h agenda rfl after (List.forall_mem_nil _) rfl h.pingers rfl h.fit rfl
    (fun _ => by simp only [Turn.cause?, agenda]) (.log _ nofun nofun)

theorem leads_pinging (agenda : x.agenda = .pingNext watcher :: rest) :
    Leads seated callback ch cell x .proceed := by
  have after : step x .proceed = ⟨(x.world.pingNext watcher).1, (x.world.pingNext watcher).2 ++ rest⟩ :=
    step_proceed agenda
  have again : ∀ b ∈ [Action.pingNext watcher], b = .pingNext watcher := List.forall_mem_singleton.mpr rfl
  unfold World.pingNext at after
  cases seated with
  | false =>
    rw [h.pingers] at after
    exact .minor h agenda rfl after (List.forall_mem_nil _) rfl h.pingers rfl h.fit rfl
      (fun live => absurd ((h.absent rfl).symm.trans live) nofun) (.none _)
  | true =>
    have causes : (turn x .proceed).cause? =
        if cell.loop = .running ∧ cell.watch.deadline ≤ x.world.clock then some .timedOut else none := by
      simp only [Turn.cause?, agenda, isOverdue, h.found, Option.any_some, Bool.and_eq_true, decide_eq_true_eq]
    obtain ⟨_, sent, reports⟩ := h.postPing
    rw [h.found] at after
    cases loop : cell.loop with
    | stopped | fresh =>
      simp only [loop] at after
      exact .minor h agenda rfl after (List.forall_mem_nil _) rfl h.pingers rfl h.fit rfl
        (fun _ => causes.trans (if_neg (by rw [loop]; nofun))) (.none _)
    | starting =>
      simp only [loop, sent] at after
      have pingers : ∀ f g, (x.world.pingers.modify watcher f).modify watcher g = seat true (g (f cell)) :=
        fun f g => by rw [h.modify, seat_modify]
      exact .minor h agenda rfl after again rfl (pingers _ _) rfl
        { h.fit with idle := fun gone => absurd (loop.symm.trans (h.fit.idle gone).2) nofun } rfl
        (fun _ => causes.trans (if_neg (by rw [loop]; nofun))) reports
    | running =>
      have live : cell.core.isDisposed = false := Bool.eq_false_iff.mpr fun gone =>
        absurd (loop.symm.trans (h.fit.idle gone).2) nofun
      have timely : cell.watch.duty x.world.clock ≠ .giveUp → (turn x .proceed).cause? = .none := fun other =>
        causes.trans (if_neg fun late => other (Watch.duty_eq_giveUp_iff.mpr late.2))
      simp only [loop] at after
      cases duty : cell.watch.duty x.world.clock with
      | giveUp =>
        rw [duty, h.fit.mine] at after
        refine .stop h live after (List.forall_mem_cons.mpr ⟨.closeChannel, h.chores_rest agenda⟩)
          (causes.trans (if_pos ⟨loop, Watch.duty_eq_giveUp_iff.mp duty⟩)) nofun (fun _ => ?_) nofun
        rw [agenda]
        rfl
      | postpone =>
        rw [duty] at after
        exact .minor h agenda rfl after again rfl (h.modify _) rfl { h.fit with } rfl
          (fun _ => timely (by rw [duty]; nofun)) (.none _)
      | ping =>
        simp only [duty, sent] at after
        exact .minor h agenda rfl after again rfl (h.modify _) rfl { h.fit with } rfl
          (fun _ => timely (by rw [duty]; nofun)) reports
      | rest =>
        rw [duty] at after
        exact .minor h agenda rfl after (List.forall_mem_nil _) rfl h.pingers rfl h.fit rfl
          (fun _ => timely (by rw [duty]; nofun)) (.none _)

theorem leads_proceed : Leads seated callback ch cell x .proceed := by
  cases agenda : x.agenda with
  | nil => exact .still h (by simp only [step, agenda]) (fun _ => by simp only [Turn.cause?, agenda]) nofun
  | cons a =>
    cases h.chores a (agenda ▸ (.head _)) with
    | closeChannel => exact leads_closing h agenda
    | closeCore => exact leads_shutting h agenda
    | told => exact leads_telling h agenda
    | other other => exact leads_observing h other agenda
    | pingNext => exact leads_pinging h agenda

end Proceed

/-- What an event does to the pinger. -/
theorem leads (e : Event) : Leads seated callback ch cell x e := by
  cases e with
  | hear service v => exact leads_hear h service v
  | poll t => exact leads_poll h t
  | tick ms => exact leads_tick h ms
  | postPing => exact leads_postPing h
  | close => exact leads_close h
  | dispose => exact leads_dispose h
  | drop => exact leads_drop h
  | listen service name => exact leads_listen h service name
  | heed name => exact leads_heed h name
  | jam fault => exact leads_jam h fault
  | proceed => exact leads_proceed h

end Events

end Vigil

end Switchboard
