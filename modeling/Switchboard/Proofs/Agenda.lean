import Mathlib.Algebra.BigOperators.Group.Finset.Basic
import Mathlib.Algebra.Order.BigOperators.Group.List
import Mathlib.Algebra.Order.Ring.Nat
import Switchboard.Proofs.Steady
import Switchboard.World.Run

/-!
# The agenda is worked off

Carrying out an action may put more on the agenda: hooks of what is closed, jobs that are let through,
the next message on its way. All of that was there before, on a channel, with a handler, before a gate
or on its way, and `World.burden` counts it. An action that is carried out makes the burden and the weight of
the agenda together smaller, so the agenda is empty in the end, unless a breach of protocol stops
everything.
-/

namespace Switchboard

open World

open Exchange

/-! ## Sums over tables -/

namespace Table

variable {α : Type} {g : α → Nat} {t t' : Table α}

def total (g : α → Nat) (t : Table α) : Nat := ∑ i ∈ Finset.range t.size, (t.get? i).elim 0 g

theorem total_push (a : α) : total g (t.push a) = total g t + g a := by
  unfold total
  rw [size_push, Finset.sum_range_succ, get?_push_size]
  refine congrArg₂ (· + ·) (Finset.sum_congr rfl fun _ hi => ?_) rfl
  rw [get?_push_of_lt (Finset.mem_range.mp hi)]

variable {i : Nat}

theorem total_modify {a : α} (h : t.get? i = some a) (f : α → α) :
    total g (t.modify i f) + g a = total g t + g (f a) := by
  have mem : i ∈ Finset.range t.size := Finset.mem_range.mpr (lt_size_of_get? h)
  unfold total
  rw [size_modify, ← Finset.add_sum_erase _ _ mem, ← Finset.add_sum_erase (Finset.range t.size) _ mem,
    get?_modify_self, h]
  have others : ∑ j ∈ (Finset.range t.size).erase i, ((t.modify i f).get? j).elim 0 g =
      ∑ j ∈ (Finset.range t.size).erase i, (t.get? j).elim 0 g :=
    Finset.sum_congr rfl fun j hj => by rw [get?_modify_of_ne (Finset.ne_of_mem_erase hj).symm]
  simp only [Option.map_some, Option.elim_some]
  omega

theorem total_modify_le {n : Nat} {f : α → α} (hf : ∀ a, t.get? i = some a → g (f a) ≤ g a + n) :
    total g (t.modify i f) ≤ total g t + n := by
  grind [modify_eq_self, total_modify]

theorem total_congr (h : ∀ i, (t'.get? i).map g = (t.get? i).map g) : total g t' = total g t := by
  have size_le : ∀ {t t' : Table α}, (∀ i, (t'.get? i).map g = (t.get? i).map g) → t.size ≤ t'.size := by
    intro t t' heq
    by_contra hlt
    obtain ⟨_, ha⟩ := get?_isSome_of_lt (Nat.lt_of_not_le hlt)
    have := heq t'.size
    rw [ha, get?_of_size_le (Nat.le_refl _)] at this
    cases this
  unfold total
  rw [Nat.le_antisymm (size_le fun i => (h i).symm) (size_le h)]
  refine Finset.sum_congr rfl fun i _ => ?_
  have same := h i
  cases hi : t.get? i <;> cases hi' : t'.get? i <;> simp_all

end Table

/-! ## Weights -/

def Hook.weight : Hook → Nat
  | .serverHandler _ => 8
  | .clientHandler _ => 13
  | _ => 1

def Job.weight : Job → Nat
  | .post _ _ => 15
  | .forward _ _ => 20
  | _ => 0

def Exchange.letter (c : Nat) : Nat := if isHandlerEnd c then 25 else 5

/-- The weight of an action is more than that of all it can put on the agenda or leave behind. -/
def Action.weight : Action → Nat
  | .deliver c _ _ => letter c
  | .closeChannel _ => 3
  | .runHook hook => hook.weight
  | .closeServerHandler _ => 7
  | .closeClientHandler _ => 12
  | .violation _ _ _ _ => 4
  | .flush _ => 2
  | .invoke job _ => job.weight
  | .guardChannel _ hook => hook.weight + 1
  | _ => 1

def agendaWeight (agenda : List Action) : Nat := (agenda.map Action.weight).sum

namespace World

def hookLoad (chs : Table Channel) : Nat := chs.total fun ch => (ch.core.hooks.map fun e => e.2.weight).sum

def handlerLoad (hs : Table ServerHandlerCell) : Nat := hs.total fun c => (c.hooks.map Hook.weight).sum

def gateLoad (gs : Table GateCell) : Nat := gs.total fun c => (c.core.queue.map fun e => e.1.weight + 1).sum

def mailLoad (w : World) : Nat :=
  ∑ c ∈ Finset.range w.channels.size, (w.outgoing c).length * (letter (peer c) + 1)

def burden (w : World) : Nat :=
  hookLoad w.channels + handlerLoad w.serverHandlers + gateLoad w.gates + w.mailLoad

end World

@[simp] theorem agendaWeight_nil : agendaWeight [] = 0 := rfl

@[simp] theorem agendaWeight_cons (a : Action) (l : List Action) :
    agendaWeight (a :: l) = a.weight + agendaWeight l := List.sum_cons

@[simp] theorem agendaWeight_append (l l' : List Action) :
    agendaWeight (l ++ l') = agendaWeight l + agendaWeight l' := by
  simp [agendaWeight]

theorem agendaWeight_runHook (hooks : List Hook) :
    agendaWeight (hooks.map .runHook) = (hooks.map Hook.weight).sum := by
  simp [agendaWeight, Function.comp_def, Action.weight]

@[simp] theorem letter_far : letter far = 5 := rfl

theorem letter_pos (c : Nat) : 5 ≤ letter c := by
  unfold letter
  split <;> decide

/-! ## Hooks -/

namespace World

variable {w w' : World} {c n : Nat}

theorem hookLoad_modify_le {chs : Table Channel} {f : Channel → Channel}
    (hf : ∀ ch, ((f ch).core.hooks.map fun e => e.2.weight).sum ≤
      (ch.core.hooks.map fun e => e.2.weight).sum + n) :
    hookLoad (chs.modify c f) ≤ hookLoad chs + n := Table.total_modify_le fun ch _ => hf ch

theorem sum_erase_le (key : Nat) (hooks : List (Nat × Hook)) :
    ((Assoc.erase key hooks).map fun e => e.2.weight).sum ≤ (hooks.map fun e => e.2.weight).sum :=
  (List.filter_sublist.map _).sum_le_sum fun _ _ => Nat.zero_le _

theorem hookLoad_hooked_le (chs : Table Channel) (hook : Hook) :
    hookLoad (chs.modify c (hooked hook)) ≤ hookLoad chs + hook.weight := by
  refine hookLoad_modify_le fun _ => ?_
  unfold hooked ChannelCore.addHook
  split
  · exact Nat.le_add_right ..
  · simp

theorem hookLoad_guard (w : World) (c : Nat) (hook : Hook) :
    hookLoad (w.channels.modify c (hooked hook)) +
        agendaWeight (if (w.channels.get? c).any (·.core.disposed) then [.runHook hook] else []) ≤
      hookLoad w.channels + hook.weight := by
  split
  · next closed =>
    obtain ⟨_, hch, hd⟩ := (Option.any_eq_true _ _).mp closed
    have bare : hookLoad (w.channels.modify c (hooked hook)) ≤ hookLoad w.channels :=
      Table.total_modify_le (n := 0) fun _ hch' => by
        cases hch.symm.trans hch'
        unfold hooked ChannelCore.addHook
        rw [if_pos hd]
        exact Nat.le_refl _
    simpa [Action.weight] using bare
  · exact hookLoad_hooked_le ..

theorem hookLoad_listening_le (chs : Table Channel) (name : String) (r : Nat) :
    hookLoad (chs.modify c (listening name r)) ≤ hookLoad chs + 1 := by
  refine hookLoad_modify_le fun ch => ?_
  have same : (ch.core.register (Service.response name) (.responses r)).hooks = ch.core.hooks := by
    unfold ChannelCore.register
    split <;> rfl
  unfold listening ChannelCore.addHook
  split <;> simp [same, Hook.weight]

theorem hookLoad_registered_le (chs : Table Channel) (service : String) (handler : Handler) :
    hookLoad (chs.modify c (registered service handler)) ≤ hookLoad chs := by
  refine hookLoad_modify_le (n := 0) fun _ => ?_
  unfold registered ChannelCore.register
  split <;> exact Nat.le_refl _

theorem hookLoad_unhook_le (chs : Table Channel) (key : Option Nat) :
    hookLoad (chs.modify c fun ch => { ch with core := unhook key ch.core }) ≤ hookLoad chs := by
  refine hookLoad_modify_le (n := 0) fun ch => ?_
  cases key with
  | none => exact Nat.le_refl _
  | some k => exact sum_erase_le k ch.core.hooks

theorem hookLoad_left_le (w : World) (r : Nat) (chs : Table Channel) :
    hookLoad (w.left r chs) ≤ hookLoad chs := by
  unfold left
  split
  · next cell _ =>
    split
    · exact Nat.le_refl _
    · refine hookLoad_modify_le (n := 0) fun ch => ?_
      cases cell.hook with
      | none => exact Nat.le_refl _
      | some k => exact sum_erase_le k ch.core.hooks
  · exact Nat.le_refl _

theorem hookLoad_parted_le (w : World) (cell : ServerHandlerCell) :
    hookLoad (w.parted cell) ≤ hookLoad w.channels := by
  unfold parted
  cases cell.requester with
  | none => exact hookLoad_unhook_le ..
  | some => exact Nat.le_trans (hookLoad_left_le ..) (hookLoad_unhook_le ..)

theorem hookLoad_withdrawn_le (w : World) (v : Nat) : hookLoad (w.withdrawn v) ≤ hookLoad w.channels := by
  unfold withdrawn
  split
  · split
    · exact hookLoad_modify_le (n := 0) fun _ => Nat.le_refl _
    · exact Nat.le_refl _
  · exact Nat.le_refl _

theorem hookLoad_clearRegistry_le (g : Nat) (w : World) :
    hookLoad (w.clearRegistry g).channels ≤ hookLoad w.channels := by
  unfold clearRegistry
  split
  · exact Nat.le_refl _
  · suffices ∀ (es : List (Nat × Nat)) (w₁ : World), hookLoad w₁.channels ≤ hookLoad w.channels →
        hookLoad (es.foldl (fun acc e => acc.releaseReceiver e.2) w₁).channels ≤ hookLoad w.channels from
      this _ _ (Nat.le_refl _)
    intro es
    induction es with
    | nil => exact fun _ h => h
    | cons e _ ih =>
      intro w₁ h
      refine ih _ (Nat.le_trans ?_ h)
      show hookLoad (w₁.releaseReceiver e.2).channels ≤ _
      rw [releaseReceiver_eq]
      exact hookLoad_withdrawn_le w₁ e.2

/-! ## Handlers and gates -/

variable {hs : Table ServerHandlerCell} {h : Nat}

theorem handlerLoad_modify_le {f : ServerHandlerCell → ServerHandlerCell} (hf : ∀ c, (f c).hooks = c.hooks) :
    handlerLoad (hs.modify h f) ≤ handlerLoad hs :=
  Table.total_modify_le (n := 0) fun c _ => by rw [hf]; exact Nat.le_refl _

theorem handlerLoad_shut {cell : ServerHandlerCell} (hcell : hs.get? h = some cell) :
    handlerLoad (hs.modify h shutHandler) + (cell.hooks.map Hook.weight).sum = handlerLoad hs :=
  Table.total_modify hcell shutHandler

variable {gs : Table GateCell}

theorem gateLoad_modify_le {g : Nat} {f : GateCell → GateCell}
    (hf : ∀ c, gs.get? g = some c → ((f c).core.queue.map fun e => e.1.weight + 1).sum ≤
      (c.core.queue.map fun e => e.1.weight + 1).sum + n) :
    gateLoad (gs.modify g f) ≤ gateLoad gs + n := Table.total_modify_le hf

theorem gateLoad_shut_le (gs : Table GateCell) (g : Nat) : gateLoad (gs.modify g shutGate) ≤ gateLoad gs := by
  refine gateLoad_modify_le (n := 0) fun _ _ => ?_
  unfold shutGate
  split
  · exact Nat.le_refl _
  · exact Nat.zero_le _

theorem gateLoad_set_le {g : Nat} {cell : GateCell} (hcell : gs.get? g = some cell)
    {core : Deferred Job Nat} (same : core.queue = cell.core.queue) :
    gateLoad (gs.modify g fun c => { c with core := core }) ≤ gateLoad gs := by
  refine gateLoad_modify_le (n := 0) fun c hc => ?_
  cases hcell.symm.trans hc
  rw [same]
  exact Nat.le_refl _

theorem gateLoad_join_le (gs : Table GateCell) (g : Nat) (job : Job) (t : Nat) :
    gateLoad (gs.modify g (joinGate job t)) ≤ gateLoad gs + (job.weight + 1) := by
  refine gateLoad_modify_le fun _ _ => ?_
  unfold joinGate
  split <;> simp [Deferred.queued]

theorem agendaWeight_flushes (g : Nat) (cell : GateCell) : agendaWeight (flushes g cell) ≤ 2 := by
  unfold flushes
  split <;> simp [Action.weight]

/-! ## Messages -/

theorem mailLoad_congr (outgoing : ∀ c, w'.outgoing c = w.outgoing c)
    (size : w'.channels.size = w.channels.size) : w'.mailLoad = w.mailLoad := by
  unfold mailLoad
  rw [size]
  exact Finset.sum_congr rfl fun c _ => by rw [outgoing]

theorem mailLoad_change {k : Nat} (hc : c < w.channels.size) (size : w'.channels.size = w.channels.size)
    (others : ∀ c', c' ≠ c → w'.outgoing c' = w.outgoing c')
    (self : (w'.outgoing c).length + n = (w.outgoing c).length + k) :
    w'.mailLoad + n * (letter (peer c) + 1) = w.mailLoad + k * (letter (peer c) + 1) := by
  have mem : c ∈ Finset.range w.channels.size := Finset.mem_range.mpr hc
  unfold mailLoad
  rw [size, ← Finset.add_sum_erase _ _ mem, ← Finset.add_sum_erase (Finset.range w.channels.size) _ mem]
  have rest : ∑ c' ∈ (Finset.range w.channels.size).erase c,
        (w'.outgoing c').length * (letter (peer c') + 1) =
      ∑ c' ∈ (Finset.range w.channels.size).erase c, (w.outgoing c').length * (letter (peer c') + 1) :=
    Finset.sum_congr rfl fun c' hc' => by rw [others c' (Finset.ne_of_mem_erase hc')]
  grind

theorem mailLoad_mail {ms : List (String × Json)} (hw : w.Wired) (hc : c < w.channels.size)
    (ho : ms ≠ [] → w.isOpen c = true) :
    (w.mail c ms).mailLoad = w.mailLoad + ms.length * (letter (peer c) + 1) := by
  have outgoing := outgoing_mail hw ho
  have size : (w.mail c ms).channels.size = w.channels.size := rfl
  have change := mailLoad_change (n := 0) (k := ms.length) hc size
    (fun _ hne => by rw [outgoing, if_neg hne, List.append_nil])
    (by rw [outgoing, if_pos rfl, List.length_append]; rfl)
  rwa [Nat.zero_mul, Nat.add_zero] at change

end World

/-! ## Every action lightens the burden -/

variable {H : History} {L : Ledger} {w w' : World} {a : Action} {more : List Action}

namespace World

theorem burden_eq (channels : w'.channels = w.channels) (handlers : w'.serverHandlers = w.serverHandlers)
    (gates : w'.gates = w.gates) (pairs : w'.pairs = w.pairs) : w'.burden = w.burden := by
  have mail : w'.mailLoad = w.mailLoad :=
    mailLoad_congr (fun _ => by unfold outgoing; rw [pairs]) (by rw [channels])
  unfold burden
  rw [channels, handlers, gates, mail]

theorem Unmoved.handlerLoad_eq (h : Unmoved w w') :
    handlerLoad w'.serverHandlers = handlerLoad w.serverHandlers := by
  refine Table.total_congr fun i => ?_
  have same := congrArg (Option.map fun c : ServerHandlerCell => (c.hooks.map Hook.weight).sum)
    (h.handlers i)
  simpa only [Option.map_map, Function.comp_def] using same

theorem Rewired.load_le (h : Rewired w (.action a) w') (unguarded : ∀ c hook, a ≠ .guardChannel c hook) :
    hookLoad w'.channels ≤ hookLoad w.channels ∧
      handlerLoad w'.serverHandlers ≤ handlerLoad w.serverHandlers := by
  have requester : ∀ {r : Nat}, w' = w.disposeRequester r → hookLoad w'.channels ≤ hookLoad w.channels ∧
      handlerLoad w'.serverHandlers ≤ handlerLoad w.serverHandlers := by
    rintro r rfl
    obtain ⟨_, _, -, heq⟩ := disposeRequester_eq r w
    rw [heq]
    exact ⟨hookLoad_left_le w r w.channels, Nat.le_refl _⟩
  unfold Rewired at h
  split at h
  · next c hook heq => exact absurd (Cause.action.inj heq) (unguarded c hook)
  · rcases h with rfl | h
    · exact ⟨Nat.le_refl _, Nat.le_refl _⟩
    · exact requester h
  · next g _ =>
    rcases h with rfl | rfl
    · exact ⟨Nat.le_refl _, Nat.le_refl _⟩
    · refine ⟨hookLoad_clearRegistry_le g w, ?_⟩
      obtain ⟨_, _, -, heq⟩ := clearRegistry_eq g w
      rw [heq]
  · next v _ =>
    rw [h, releaseReceiver_eq]
    exact ⟨hookLoad_withdrawn_le w v, Nat.le_refl _⟩
  · next heq => cases heq
  · next heq => cases heq
  · next heq => cases heq
  · exact ⟨Nat.le_of_eq (by rw [h.channels]), Nat.le_of_eq h.handlerLoad_eq⟩

theorem Closing.weight_lt (h : Closing w (.action a) more) (errand : a.isErrand = true)
    (unguarded : ∀ c hook, a ≠ .guardChannel c hook) : agendaWeight more < a.weight := by
  cases a with
  | closeChannel =>
    rw [h]
    split <;> simp [Action.weight]
  | closeCore | closeServerHandler | closeClientHandler => simp [h.2, Action.weight]
  | runHook hook =>
    cases hook with
    | serverHandler | clientHandler =>
      rw [h]
      split <;> simp [Action.weight, Hook.weight]
    | _ =>
      obtain rfl : more = [] := h
      exact Nat.zero_lt_one
  | releaseReceiver =>
    obtain rfl : more = [] := h
    exact Nat.zero_lt_one
  | violation _ _ _ c =>
    obtain rfl : more = [.closeChannel c] := h
    simp [Action.weight]
  | guardChannel c hook => exact absurd rfl (unguarded c hook)
  | _ => cases errand

theorem burden_mail (w₀ : World) (ms : List (String × Json)) (hw : w.Wired) (linked : 2 ≤ w.channels.size)
    (shape : SameShape w.channels w₀.channels) (pairs : w₀.pairs = w.pairs)
    (ho : ms ≠ [] → w.isOpen near = true) :
    (w₀.mail near ms).burden = hookLoad w₀.channels + handlerLoad w₀.serverHandlers + gateLoad w₀.gates +
      w.mailLoad + ms.length * 6 := by
  have before : w₀.mailLoad = w.mailLoad :=
    mailLoad_congr (fun _ => by unfold outgoing; rw [pairs]) shape.size
  have mail := mailLoad_mail (shape.wired pairs hw)
    (Nat.lt_of_lt_of_le Nat.zero_lt_two (shape.size ▸ linked)) fun hne => (shape.isOpen near).trans (ho hne)
  unfold burden
  rw [mail, before]
  exact (Nat.add_assoc ..).symm

theorem mailLoad_taken {p : Nat} {second : Bool} (hw : w.Wired)
    (h : Carriage w (.action (.pumpNext p second)) w' more) (size : w'.channels.size = w.channels.size)
    (hmore : more ≠ []) : w'.mailLoad + agendaWeight more = w.mailLoad := by
  cases h with
  | sent _ _ _ cause => exact absurd rfl (cause p second)
  | stopped => exact absurd rfl hmore
  | @taken _ _ _ _ _ c head others =>
    have bound : c < w.channels.size := by
      grind [hw.size, outgoing]
    have change := mailLoad_change (n := 1) (k := 0) bound size others (by rw [head]; rfl)
    simpa [Action.weight] using change

end World

theorem Regular.lightens (reg : Regular H L w) (linked : 2 ≤ w.channels.size)
    (hap : Happening L w (.action a) w' more) (going : w'.aborted = none) :
    w'.burden + agendaWeight more < w.burden + a.weight := by
  have hw := reg.orderly.wired
  -- What changes neither channels nor handlers, gates or messages on their way.
  have still : ∀ {w' : World}, w'.channels = w.channels → w'.serverHandlers = w.serverHandlers →
      w'.gates = w.gates → w'.pairs = w.pairs → agendaWeight more < a.weight →
      w'.burden + agendaWeight more < w.burden + a.weight := by
    intro w' channels handlers gates pairs less
    rw [burden_eq channels handlers gates pairs]
    omega
  -- What adds no more than is counted with it.
  have lighter : ∀ {w' : World} (i j k l : Nat), hookLoad w'.channels ≤ hookLoad w.channels + i →
      handlerLoad w'.serverHandlers ≤ handlerLoad w.serverHandlers + j →
      gateLoad w'.gates ≤ gateLoad w.gates + k → w'.mailLoad ≤ w.mailLoad + l →
      i + j + k + l + agendaWeight more < a.weight →
      w'.burden + agendaWeight more < w.burden + a.weight := by
    intro w' i j k l hooks handlers gates mail less
    unfold World.burden
    omega
  -- A request is taken in on an end that a client handler serves.
  have heavy : ∀ {k : Nat} {ρ : ClientRole}, L.client k = some ρ → letter ρ.channel = 25 := by
    intro k ρ hρ
    exact if_pos (reg.coherent.client hρ).1
  cases hap with
  | calm trifling calm _ _ closing wires =>
    have mail : w'.mailLoad = w.mailLoad := mailLoad_congr calm.outgoing calm.shape.size
    by_cases guard : ∃ c hook, a = .guardChannel c hook
    · obtain ⟨c, hook, rfl⟩ := guard
      obtain rfl : w' = _ := wires
      have kept := hookLoad_guard w c hook
      rw [closing]
      unfold World.burden at *
      rw [mail]
      dsimp only [Action.weight]
      omega
    · have unguarded : ∀ c hook, a ≠ .guardChannel c hook := fun c hook heq => guard ⟨c, hook, heq⟩
      have less := closing.weight_lt trifling unguarded
      obtain ⟨hooks, handlers⟩ := wires.load_le unguarded
      unfold World.burden
      rw [calm.gates, mail]
      omega
  | @ignored c service v _ _ _ calm protest _ unmoved =>
    have mail : w'.mailLoad = w.mailLoad := mailLoad_congr calm.outgoing calm.shape.size
    have handlers := unmoved.handlerLoad_eq
    have less : agendaWeight more < letter c := by
      have := letter_pos c
      obtain rfl | ⟨_, _, _, rfl⟩ := protest
      · exact Nat.lt_of_lt_of_le (by decide) this
      · exact Nat.lt_of_lt_of_le (by simp [Action.weight]) this
    unfold World.burden
    rw [calm.gates, mail, unmoved.channels, handlers]
    exact Nat.add_lt_add_left less _
  | vacant reason =>
    obtain ⟨_, rfl⟩ | ⟨_, rfl, -⟩ := reason <;> simp [Action.weight]
  | breach => cases going
  | @settled c => exact still rfl rfl rfl rfl (Nat.lt_of_lt_of_le (by decide) (letter_pos c))
  | @joined _ _ _ g _ _ _ _ gate _ _ client =>
    have less := agendaWeight_flushes g gate
    refine lighter 0 0 21 0 (Nat.le_refl _) (Nat.le_refl _) (gateLoad_join_le ..)
      (Nat.le_of_eq (mailLoad_congr (fun _ => rfl) rfl)) ?_
    simp only [agendaWeight_append, agendaWeight_cons, agendaWeight_nil, Action.weight, heavy client]
    omega
  | first client =>
    refine lighter 0 0 21 0 (Nat.le_refl _) (Nat.le_refl _) (Nat.le_of_eq (Table.total_push _))
      (Nat.le_of_eq (mailLoad_congr (fun _ => rfl) rfl)) ?_
    simp [Action.weight, heavy client]
  | late client | garbled client => exact still rfl rfl rfl rfl (by simp [Action.weight, heavy client])
  | asked | spawned | drained => exact still rfl rfl rfl rfl (by simp [Action.weight])
  | arrived =>
    exact lighter 0 0 0 0 (hookLoad_registered_le ..) (Nat.le_refl _) (Nat.le_refl _)
      (Nat.le_of_eq (mailLoad_congr (fun _ => rfl) (Table.size_modify ..))) (by simp [Action.weight])
  | @departed _ _ i =>
    exact lighter 0 0 0 0 (hookLoad_withdrawn_le w i) (Nat.le_refl _) (Nat.le_refl _)
      (Nat.le_of_eq (mailLoad_congr (fun _ => rfl) (SameShape.withdrawn w i).size)) (by simp [Action.weight])
  | @shutCore c ch channel =>
    have hooks : hookLoad (w.modifyChannel c fun _ =>
        { ch.core with disposed := true, services := [], hooks := [] }).channels +
          (ch.core.hooks.map fun e => e.2.weight).sum = hookLoad w.channels :=
      Table.total_modify channel _
    have mail : (w.modifyChannel c fun _ =>
        { ch.core with disposed := true, services := [], hooks := [] }).mailLoad = w.mailLoad :=
      mailLoad_congr (fun _ => rfl) (Table.size_modify ..)
    have weight : agendaWeight ((ch.core.hooks.map Prod.snd).map .runHook) =
        (ch.core.hooks.map fun e => e.2.weight).sum := by
      rw [agendaWeight_runHook, List.map_map]
      rfl
    rw [weight]
    unfold World.burden
    rw [mail, ← hooks]
    show _ + handlerLoad w.serverHandlers + gateLoad w.gates + _ + _ < _ + 1
    omega
  | @shutHandler h cell ps q leave handler _ _ leave_eq =>
    have burden := burden_mail { w with
      serverHandlers := w.serverHandlers.modify h shutHandler
      gates := w.gates.modify cell.gate shutGate
      requesters := cell.requester.elim w.requesters fun r =>
        w.requesters.modify r (dropRequester ∘ shutRequester)
      channels := w.parted cell, promises := ps, queue := q } leave hw linked (.parted w cell) rfl fun hne => by
        rw [leave_eq] at hne
        by_contra closed
        exact hne (if_neg fun hc => closed hc.2.2)
    have short : leave.length ≤ 1 := by
      rw [leave_eq]
      split <;> simp
    have hooks := hookLoad_parted_le w cell
    have handlers := handlerLoad_shut handler
    have gates := gateLoad_shut_le w.gates cell.gate
    rw [burden, agendaWeight_runHook]
    unfold World.burden
    dsimp only [Action.weight]
    omega
  | @shutClient _ cell _ _ _ _ _ _ _ more_eq =>
    have shut : gateLoad (cell.gate.elim w.gates fun g => w.gates.modify g shutGate) ≤
        gateLoad w.gates := by
      cases cell.gate with
      | none => exact Nat.le_refl _
      | some => exact gateLoad_shut_le ..
    refine lighter 0 0 0 0 (Nat.le_refl _) (Nat.le_refl _) shut
      (Nat.le_of_eq (mailLoad_congr (fun _ => rfl) rfl)) ?_
    rw [more_eq]
    cases cell.receiver <;> simp [Action.weight]
  | flushed gate | paused gate =>
    exact lighter 0 0 0 0 (Nat.le_refl _) (Nat.le_refl _) (gateLoad_set_le gate rfl)
      (Nat.le_of_eq (mailLoad_congr (fun _ => rfl) rfl)) (by simp [Action.weight])
  | @released g cell _ t rest gate _ queue =>
    have gates : gateLoad (w.gates.modify g fun c => { c with core := { cell.core with queue := rest } }) +
        (cell.core.queue.map fun e => e.1.weight + 1).sum =
          gateLoad w.gates + (rest.map fun e => e.1.weight + 1).sum := Table.total_modify gate _
    have mail : (w.setGate g { cell.core with queue := rest }).mailLoad = w.mailLoad :=
      mailLoad_congr (fun _ => rfl) rfl
    rw [queue, List.map_cons, List.sum_cons] at gates
    dsimp only at gates
    unfold World.burden
    rw [mail]
    simp only [setGate, agendaWeight_cons, agendaWeight_nil, Action.weight]
    omega
  | @forwarded _ _ _ cell gate =>
    have less := agendaWeight_flushes cell.gate gate
    refine lighter 0 0 16 0 (Nat.le_refl _) (Nat.le_refl _) (gateLoad_join_le ..)
      (Nat.le_of_eq (mailLoad_congr (fun _ => rfl) rfl)) ?_
    simp only [agendaWeight_append, agendaWeight_cons, agendaWeight_nil, Action.weight, Job.weight]
    omega
  | @announced h _ call cell requester o q _ _ _ isOpen =>
    have burden := burden_mail { w with
      requesters := w.requesters.push requester
      channels := w.channels.modify near (listening (Service.callFunction h) w.requesters.size)
      serverHandlers := w.serverHandlers.modify h fun c => { c with requester := some w.requesters.size }
      promises := w.promises.push { fallback := o }
      queue := q } [(Service.createHandler, (Arrival.mk h cell.clientName).toJson),
        (Service.request (Service.callFunction h), (Request.mk 0 call.toJson).toJson)]
      hw linked (.listening _ _ _ _) rfl fun _ => isOpen
    have hooks := hookLoad_listening_le (c := near) w.channels (Service.callFunction h) w.requesters.size
    have handlers : handlerLoad (w.serverHandlers.modify h fun c =>
        { c with requester := some w.requesters.size }) ≤ handlerLoad w.serverHandlers :=
      handlerLoad_modify_le fun _ => rfl
    rw [burden]
    unfold World.burden
    simp only [agendaWeight_cons, agendaWeight_nil, Action.weight, Job.weight, List.length_cons, List.length_nil]
    omega
  | @posted h t r call cell requester o q _ _ _ _ isOpen _ _ =>
    have burden := burden_mail { w with
      requesters := w.requesters.modify r fun c => { c with core := requester.core.posted w.promises.size }
      promises := w.promises.push { fallback := o }
      queue := q } [(Service.request (Service.callFunction h),
        (Request.mk requester.core.nextId call.toJson).toJson)] hw linked (.refl _) rfl fun _ => isOpen
    rw [burden]
    unfold World.burden
    simp only [agendaWeight_cons, agendaWeight_nil, Action.weight, Job.weight, List.length_cons, List.length_nil]
    omega
  | unposted => exact still rfl rfl rfl rfl (by simp [Action.weight, Job.weight])
  | pumped pair_eq next =>
    have mail := mailLoad_taken hw (carriage_pumped hw pair_eq next) rfl (List.cons_ne_nil _ _)
    unfold World.burden
    dsimp only [Action.weight]
    omega

/-! ## Working off the agenda -/

namespace Exchange

variable {x : Exchange}

theorem step_of_aborted (h : x.world.aborted.isSome = true) (m : Move) : x.step m = x := if_pos h

theorem run_of_still (m : Move) (still : x.step m = x) (n : Nat) : x.run (List.replicate n m) = x := by
  induction n with
  | zero => rfl
  | succ n ih =>
    show (x.step m).run (List.replicate n m) = x
    rw [still, ih]

/-- Going on and on is what the program does after each command and each task. -/
theorem run_proceed (x : Exchange) (n : Nat) :
    (x.run (List.replicate n .proceed)).world = drain n x.agenda x.world := by
  induction n generalizing x with
  | zero => rfl
  | succ n ih =>
    show ((x.step .proceed).run (List.replicate n .proceed)).world = _
    rw [ih]
    obtain ⟨w, agenda⟩ := x
    cases agenda with
    | nil =>
      have : Exchange.step ⟨w, []⟩ .proceed = ⟨w, []⟩ := by
        unfold step
        split <;> rfl
      rw [this]
      cases n <;> rfl
    | cons a rest =>
      cases ha : w.aborted.isSome with
      | true =>
        rw [step_of_aborted ha]
        show drain n (a :: rest) w = if w.aborted.isSome then w else _
        rw [if_pos ha]
        cases n with
        | zero => rfl
        | succ => exact if_pos ha
      | false =>
        show drain n (Exchange.step ⟨w, a :: rest⟩ .proceed).agenda _ = if w.aborted.isSome then w else _
        simp [step, ha]

end Exchange

/-- The agenda is worked off, unless a breach of protocol stops everything. -/
theorem Steady.settles {ts : List Transition} {x : Exchange} {n : Nat} (s : Steady ts x L) (hn : x.world.burden + agendaWeight x.agenda < n) :
    (x.run (List.replicate n .proceed)).agenda = [] ∨
      (x.run (List.replicate n .proceed)).world.aborted.isSome = true := by
  induction n generalizing ts x L with
  | zero => exact absurd hn (Nat.not_lt_zero _)
  | succ n ih =>
    cases ha : x.world.aborted with
    | some =>
      grind [run_of_still, step_of_aborted]
    | none =>
      cases hx : x.agenda with
      | nil =>
        have still : x.step .proceed = x := by simp [step, ha, hx]
        rw [run_of_still .proceed still]
        exact .inl hx
      | cons a rest =>
        have after : x.step .proceed = ⟨(x.world.perform a).1, (x.world.perform a).2 ++ rest⟩ := by
          simp [step, ha, hx]
        obtain ⟨_, _, _, _, _, v⟩ := s.advance .proceed
        have next := v.steady s
        cases going : (x.world.perform a).1.aborted with
        | some =>
          have stuck : (x.step .proceed).world.aborted.isSome = true := by rw [after, going]; rfl
          refine .inr ?_
          show ((x.step .proceed).run (List.replicate n .proceed)).world.aborted.isSome = true
          rwa [run_of_still .proceed (step_of_aborted stuck _)]
        | none =>
          refine ih next ?_
          have lighter := s.regular.lightens s.linked
            (s.regular.happens_perform (s.agenda a (hx ▸ (.head _)))) going
          rw [hx, agendaWeight_cons] at hn
          rw [after, agendaWeight_append]
          show (x.world.perform a).1.burden + _ < n
          omega

end Switchboard
