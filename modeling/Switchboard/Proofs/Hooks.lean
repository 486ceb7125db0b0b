import Switchboard.Proofs.Happening

/-!
# Hooks and their holders

A requester or a server handler that hangs on a channel remembers the key of its hook there and takes
the hook down by that key when it leaves. Keys are handed out once, so nobody takes down what is not his:
while the server channel is open, the hook of every handler that is not closed is in its place, and
when a channel is closed, every hook on it is run.

`HookStep` says what a change does to hooks and to those who hold them, and `Fastened` is the
invariant that follows.
-/

namespace Switchboard

open World Exchange

/-! ## Hooks of a channel -/

namespace World

variable {w w' : World} {c : Nat}

def hooksOn (w : World) (c : Nat) : List (Nat × Hook) :=
  (w.channels.get? c).elim [] fun ch => ch.core.hooks

def keyOn (w : World) (c : Nat) : Nat := (w.channels.get? c).elim 0 fun ch => ch.core.nextKey

variable {ch : Channel}

theorem hooksOn_eq (h : w.channels.get? c = some ch) : w.hooksOn c = ch.core.hooks := by
  simp [hooksOn, h]

theorem keyOn_eq (h : w.channels.get? c = some ch) : w.keyOn c = ch.core.nextKey := by
  simp [keyOn, h]

def Holds (w : World) (c key : Nat) : Hook → Prop
  | .requester r => ∃ cell, w.requesters.get? r = some cell ∧ cell.channel = c ∧ cell.hook = some key
  | .serverHandler h =>
    ∃ cell, w.serverHandlers.get? h = some cell ∧ cell.channel = c ∧ cell.hook = some key
  | _ => False

/-- The same hooks are on the channels, and the same keys are next. -/
structure SameHooks (w w' : World) : Prop where
  hooks : ∀ c, w'.hooksOn c = w.hooksOn c
  keys : ∀ c, w'.keyOn c = w.keyOn c

theorem SameHooks.of_channels (h : w'.channels = w.channels) : SameHooks w w' :=
  ⟨fun c => by rw [hooksOn, h, hooksOn], fun c => by rw [keyOn, h, keyOn]⟩

theorem SameHooks.trans {w'' : World} (h : SameHooks w w') (h' : SameHooks w' w'') : SameHooks w w'' :=
  ⟨fun c => (h'.hooks c).trans (h.hooks c), fun c => (h'.keys c).trans (h.keys c)⟩

variable {f : Channel → Channel}

/-- Changes of the services of a channel do not concern its hooks. -/
theorem SameHooks.of_modify (h : w'.channels = w.channels.modify c f)
    (hooks : ∀ ch, (f ch).core.hooks = ch.core.hooks) (keys : ∀ ch, (f ch).core.nextKey = ch.core.nextKey) :
    SameHooks w w' := by
  constructor <;> intro c'
  · unfold hooksOn
    rw [h, Table.get?_modify]
    split
    · cases w.channels.get? c' <;> simp [hooks]
    · rfl
  · unfold keyOn
    rw [h, Table.get?_modify]
    split
    · cases w.channels.get? c' <;> simp [keys]
    · rfl

theorem hooksOn_modify_of_ne {c' : Nat} (h : w'.channels = w.channels.modify c f)
    (hne : c ≠ c') : w'.hooksOn c' = w.hooksOn c' ∧ w'.keyOn c' = w.keyOn c' := by
  unfold hooksOn keyOn
  rw [h, Table.get?_modify_of_ne hne]
  exact ⟨rfl, rfl⟩

theorem hooksOn_modify_self (h : w'.channels = w.channels.modify c f) (hch : w.channels.get? c = some ch) :
    w'.hooksOn c = (f ch).core.hooks ∧ w'.keyOn c = (f ch).core.nextKey := by
  unfold hooksOn keyOn
  rw [h, Table.get?_modify_self, hch]
  exact ⟨rfl, rfl⟩

/-- The same requesters and handlers hang on the channels, and the same handlers are closed. -/
structure SameTies (w w' : World) : Prop where
  requesters : ∀ r, (w'.requesters.get? r).map (fun c => (c.channel, c.hook)) =
    (w.requesters.get? r).map fun c => (c.channel, c.hook)
  handlers : ∀ h, (w'.serverHandlers.get? h).map (fun c => (c.channel, c.hook, c.disposed, c.hooks)) =
    (w.serverHandlers.get? h).map fun c => (c.channel, c.hook, c.disposed, c.hooks)

theorem SameTies.of_tables (hr : w'.requesters = w.requesters) (hh : w'.serverHandlers = w.serverHandlers) :
    SameTies w w' :=
  ⟨fun _ => by rw [hr], fun h => by rw [hh]⟩

theorem SameTies.holds (h : SameTies w w') {key : Nat} {hook : Hook} :
    w'.Holds c key hook ↔ w.Holds c key hook := by
  have via : ∀ {α β : Type} {f : α → β} {o o' : Option α} {P : α → Prop} (Q : β → Prop),
      (∀ a, P a ↔ Q (f a)) → o'.map f = o.map f → ((∃ a, o' = some a ∧ P a) ↔ ∃ a, o = some a ∧ P a) := by
    intro α β f o o' P Q _ _
    cases o <;> cases o' <;> simp_all
  cases hook with
  | requester r =>
    exact via (fun q => q.1 = c ∧ q.2 = some key) (fun _ => Iff.rfl) (h.requesters r)
  | serverHandler h' =>
    exact via (fun q => q.1 = c ∧ q.2.1 = some key) (fun _ => Iff.rfl) (h.handlers h')
  | _ => exact Iff.rfl

end World

/-! ## What a change does to hooks -/

/-- A handler that is not closed was there with the same ties, or is new and hangs on the server channel. -/
def World.Attended (w w' : World) : Prop :=
  ∀ h cell', w'.serverHandlers.get? h = some cell' → cell'.disposed = false →
    (∃ cell, w.serverHandlers.get? h = some cell ∧ cell.disposed = false ∧
      cell'.channel = cell.channel ∧ cell'.hook = cell.hook ∧ cell'.hooks = cell.hooks) ∨
    w.serverHandlers.get? h = none ∧ w'.isOpen near = true ∧
      ∃ key, cell'.hook = some key ∧ (key, .serverHandler h) ∈ w'.hooksOn near

/-- What a change does to the hooks on the channels and to those who hold them. -/
structure HookStep (w w' : World) (more : List Action) : Prop where
  keys : ∀ c, w.keyOn c ≤ w'.keyOn c
  added : ∀ c e, e ∈ w'.hooksOn c → e ∈ w.hooksOn c ∨ e.1 = w.keyOn c ∧ e.1 < w'.keyOn c
  kept : ∀ c e, e ∈ w.hooksOn c → e ∈ w'.hooksOn c ∨ .runHook e.2 ∈ more ∨
    ∃ hook, w.Holds c e.1 hook ∧ ∀ key, ¬ w'.Holds c key hook
  holders : ∀ c key hook, w'.Holds c key hook → w.Holds c key hook ∨
    key = w.keyOn c ∧ key < w'.keyOn c ∧
      ∀ a, (key, a) ∈ w'.hooksOn c → (key, a) ∈ w.hooksOn c ∨ a = hook
  handlers : w.Attended w'

namespace HookStep

variable {w w' : World} {more : List Action}

theorem handlers_of_ties (ties : SameTies w w') {h : Nat} {cell' : ServerHandlerCell}
    (hcell' : w'.serverHandlers.get? h = some cell') (hd : cell'.disposed = false) :
    ∃ cell, w.serverHandlers.get? h = some cell ∧ cell.disposed = false ∧
      cell'.channel = cell.channel ∧ cell'.hook = cell.hook ∧ cell'.hooks = cell.hooks := by
  have same := ties.handlers h
  grind

/-- Nothing changes that concerns hooks. -/
theorem of_same (hooks : SameHooks w w') (ties : SameTies w w') : HookStep w w' more where
  keys c := Nat.le_of_eq (hooks.keys c).symm
  added c _ he := .inl (hooks.hooks c ▸ he)
  kept c _ he := .inl ((hooks.hooks c).symm ▸ he)
  holders _ _ _ hold := .inl (ties.holds.mp hold)
  handlers _ _ hcell' hd := .inl (handlers_of_ties ties hcell' hd)

theorem of_shutCore {c : Nat} {ch : Channel} (hch : w.channels.get? c = some ch)
    (after : w' = w.modifyChannel c fun _ =>
      { ch.core with disposed := true, services := [], hooks := [] }) :
    HookStep w w' ((ch.core.hooks.map Prod.snd).map .runHook) := by
  have ties : SameTies w w' := by
    rw [after]
    exact .of_tables rfl rfl
  have channels := congrArg World.channels after
  have self : w'.hooksOn c = [] ∧ w'.keyOn c = ch.core.nextKey := hooksOn_modify_self channels hch
  have other : ∀ {c'}, c ≠ c' → w'.hooksOn c' = w.hooksOn c' ∧ w'.keyOn c' = w.keyOn c' :=
    hooksOn_modify_of_ne channels
  refine ⟨fun c' => ?_, fun c' e he => ?_, fun c' e he => ?_, fun _ _ _ hold => .inl (ties.holds.mp hold),
    fun _ _ hcell' hd => .inl (handlers_of_ties ties hcell' hd)⟩
  · grind [keyOn_eq]
  · grind
  · grind [hooksOn_eq]

end HookStep

/-! ### Hanging up -/

/-- A channel after a change that may have hung up a hook on it, as the next key allows. -/
structure Hung (hook : Hook) (ch ch' : Channel) : Prop where
  disposed : ch'.core.disposed = ch.core.disposed
  key : ch'.core.nextKey = ch.core.nextKey + 1
  hooks : ch'.core.hooks =
    if ch.core.disposed then ch.core.hooks else ch.core.hooks ++ [(ch.core.nextKey, hook)]

theorem Hung.hooked (hook : Hook) (ch : Channel) : Hung hook ch (hooked hook ch) := by
  unfold World.hooked ChannelCore.addHook
  split <;> next h => exact ⟨rfl, rfl, by simp [h]⟩

theorem Hung.listening (name : String) (r : Nat) (ch : Channel) :
    Hung (.requester r) ch (listening name r ch) := by
  unfold World.listening ChannelCore.addHook
  unfold ChannelCore.register
  split <;> next h => exact ⟨rfl, rfl, by simp [h]⟩

namespace HookStep

variable {w w' : World} {more : List Action} {c : Nat} {hook : Hook}

/-- A hook is hung up: keys and entries. -/
structure Raised (w w' : World) (c : Nat) (hook : Hook) : Prop where
  keys : ∀ c', w.keyOn c' ≤ w'.keyOn c'
  added : ∀ c' e, e ∈ w'.hooksOn c' → e ∈ w.hooksOn c' ∨
    c' = c ∧ e = (w.keyOn c, hook) ∧ w.keyOn c < w'.keyOn c
  kept : ∀ c' e, e ∈ w.hooksOn c' → e ∈ w'.hooksOn c'
  hung : w.isOpen c = true → (w.keyOn c, hook) ∈ w'.hooksOn c ∧ w.keyOn c < w'.keyOn c

theorem Raised.of_modify {f : Channel → Channel} (h : w'.channels = w.channels.modify c f)
    (hf : ∀ ch, Hung hook ch (f ch)) : Raised w w' c hook := by
  have other : ∀ {c'}, c ≠ c' → w'.hooksOn c' = w.hooksOn c' ∧ w'.keyOn c' = w.keyOn c' :=
    hooksOn_modify_of_ne h
  cases hch : w.channels.get? c with
  | none =>
    have same : w'.channels = w.channels := by
      rw [h, Table.modify_of_none hch]
    have hooks := SameHooks.of_channels same
    refine ⟨fun c' => Nat.le_of_eq (hooks.keys c').symm, fun c' e he => .inl (hooks.hooks c' ▸ he),
      fun c' e he => (hooks.hooks c').symm ▸ he, fun ho => ?_⟩
    simp [World.isOpen, hch] at ho
  | some ch =>
    have self := hooksOn_modify_self h hch
    have hung := hf ch
    have before := hooksOn_eq hch
    have key := keyOn_eq hch
    have grown : w.keyOn c < w'.keyOn c := by
      rw [key, self.2, hung.key]
      exact Nat.lt_succ_self _
    refine ⟨fun c' => ?_, fun c' e he => ?_, fun c' e he => ?_, fun ho => ⟨?_, grown⟩⟩
    · grind
    · grind [hung.hooks]
    · grind [hung.hooks]
    · have undisposed : ch.core.disposed = false := by simpa [World.isOpen, hch] using ho
      rw [self.1, hung.hooks, key]
      simp [undisposed]

theorem Raised.hookStep (h : Raised w w' c hook)
    (holders : ∀ c' key hook', w'.Holds c' key hook' → w.Holds c' key hook' ∨
      c' = c ∧ key = w.keyOn c ∧ hook' = hook ∧ w.isOpen c = true)
    (handlers : w.Attended w') : HookStep w w' more where
  keys := h.keys
  added c' e he := (h.added c' e he).imp_right fun ⟨hc, heq, hlt⟩ => by
    subst hc heq
    exact ⟨rfl, hlt⟩
  kept c' e he := .inl (h.kept c' e he)
  holders c' key hook' hold := (holders c' key hook' hold).imp_right fun ⟨hc, hkey, hhook, ho⟩ => by
    subst hc hkey hhook
    refine ⟨rfl, (h.hung ho).2, fun _ ha => (h.added _ _ ha).imp_right fun ⟨_, heq, _⟩ => ?_⟩
    exact (Prod.mk.inj heq).2
  handlers := handlers

theorem of_hooked {hook : Hook} (h : w' = { w with channels := w.channels.modify c (hooked hook) }) :
    HookStep w w' more := by
  have ties : SameTies w w' := by
    subst h
    exact .of_tables rfl rfl
  have raised : Raised w w' c hook := .of_modify (congrArg World.channels h) (.hooked hook)
  exact raised.hookStep (fun _ _ _ hold => .inl (ties.holds.mp hold)) fun _ _ hcell' hd =>
    .inl (handlers_of_ties ties hcell' hd)

end HookStep

/-! ### Taking down -/

/-- Some hooks have been taken down, by their keys. -/
structure Lowered (w w' : World) (gone : Nat → Nat → Prop) : Prop where
  keys : ∀ c, w'.keyOn c = w.keyOn c
  less : ∀ c e, e ∈ w'.hooksOn c → e ∈ w.hooksOn c
  kept : ∀ c e, e ∈ w.hooksOn c → e ∈ w'.hooksOn c ∨ gone c e.1

namespace Lowered

variable {w w' w'' : World} {gone gone' : Nat → Nat → Prop} {c : Nat}

theorem trans (h : Lowered w w' gone) (h' : Lowered w' w'' gone') :
    Lowered w w'' fun c key => gone c key ∨ gone' c key where
  keys c := (h'.keys c).trans (h.keys c)
  less c e he := h.less c e (h'.less c e he)
  kept c e he := (h.kept c e he).elim (fun he => (h'.kept c e he).imp_right .inr) fun g => .inr (.inl g)

theorem imp (h : Lowered w w' gone) (hg : ∀ c key, gone c key → gone' c key) : Lowered w w' gone' :=
  { h with kept := fun c e he => (h.kept c e he).imp_right (hg c e.1) }

theorem of_same (h : SameHooks w w') : Lowered w w' gone :=
  ⟨h.keys, fun c _ he => h.hooks c ▸ he, fun c _ he => .inl ((h.hooks c).symm ▸ he)⟩

theorem of_modify {f : Channel → Channel} {key : Option Nat} (h : w'.channels = w.channels.modify c f)
    (hk : ∀ ch, (f ch).core.nextKey = ch.core.nextKey)
    (hf : ∀ ch, (f ch).core.hooks = key.elim ch.core.hooks fun k => Assoc.erase k ch.core.hooks) :
    Lowered w w' fun c' k => c' = c ∧ key = some k := by
  have other : ∀ {c'}, c ≠ c' → w'.hooksOn c' = w.hooksOn c' ∧ w'.keyOn c' = w.keyOn c' :=
    hooksOn_modify_of_ne h
  cases hch : w.channels.get? c with
  | none =>
    refine of_same (.of_channels ?_)
    rw [h, Table.modify_of_none hch]
  | some =>
    have self := hooksOn_modify_self h hch
    rw [hf, hk] at self
    refine ⟨fun c' => ?_, fun c' e he => ?_, fun c' e he => ?_⟩
    · grind [keyOn_eq]
    · by_cases hc : c = c'
      · subst hc
        rw [hooksOn_eq hch]
        rw [self.1] at he
        cases key with
        | none => exact he
        | some => exact Assoc.mem_of_mem_erase he
      · exact (other hc).1 ▸ he
    · by_cases hc : c = c'
      · subst hc
        rw [hooksOn_eq hch] at he
        rw [self.1]
        cases key with
        | none => exact .inl he
        | some k =>
          by_cases hk : e.1 = k
          · exact .inr ⟨rfl, congrArg some hk.symm⟩
          · exact .inl (List.mem_filter.mpr ⟨he, by simpa using hk⟩)
      · exact .inl ((other hc).1.symm ▸ he)

theorem of_unhook {key : Option Nat}
    (h : w'.channels = w.channels.modify c fun ch => { ch with core := unhook key ch.core }) :
    Lowered w w' fun c' k => c' = c ∧ key = some k := by
  refine of_modify h (fun ch => ?_) fun ch => ?_ <;> cases key <;> rfl

theorem of_left (w₀ : World) {r : Nat} (h : w'.channels = w₀.left r w.channels) :
    Lowered w w' fun c k => ∃ cell, w₀.requesters.get? r = some cell ∧ cell.core.disposed = false ∧
      cell.channel = c ∧ cell.hook = some k := by
  unfold World.left at h
  split at h
  · next cell hcell =>
    split at h
    · exact of_same (.of_channels h)
    · next undisposed =>
      have lowered : Lowered w w' fun c' k => c' = cell.channel ∧ cell.hook = some k := by
        refine of_modify h (fun ch => ?_) fun ch => ?_ <;> cases cell.hook <;> rfl
      exact lowered.imp fun c k ⟨hc, hk⟩ => ⟨cell, hcell, by simpa using undisposed, hc.symm, hk⟩
  · exact of_same (.of_channels h)

theorem hookStep {more : List Action} (h : Lowered w w' gone)
    (dropped : ∀ c k, gone c k → ∃ hook, w.Holds c k hook ∧ ∀ key, ¬ w'.Holds c key hook)
    (holders : ∀ c key hook, w'.Holds c key hook → w.Holds c key hook)
    (handlers : ∀ h cell', w'.serverHandlers.get? h = some cell' → cell'.disposed = false →
      w.serverHandlers.get? h = some cell') : HookStep w w' more where
  keys c := Nat.le_of_eq (h.keys c).symm
  added c e he := .inl (h.less c e he)
  kept c e he := (h.kept c e he).imp_right fun g => .inr (dropped c e.1 g)
  holders c key hook hold := .inl (holders c key hook hold)
  handlers i cell' hcell' hd := .inl ⟨cell', handlers i cell' hcell' hd, hd, rfl, rfl, rfl⟩

end Lowered

namespace World

variable {w w' : World}

/-- Requesters change nothing but themselves: a hook that is still held was held before. -/
theorem Holds.of_requesters {r : Nat} {f : RequesterCell → RequesterCell}
    (hr : w'.requesters = w.requesters.modify r f)
    (hf : ∀ cell, (f cell).channel = cell.channel ∧ ((f cell).hook = cell.hook ∨ (f cell).hook = none))
    {c key r' : Nat} (hold : w'.Holds c key (.requester r')) : w.Holds c key (.requester r') := by
  obtain ⟨cell', hcell', hc, hk⟩ := hold
  rw [hr, Table.get?_modify] at hcell'
  split at hcell'
  · obtain ⟨cell, hcell, rfl⟩ := Option.map_eq_some_iff.mp hcell'
    refine ⟨cell, hcell, (hf cell).1.symm.trans hc, ?_⟩
    rcases (hf cell).2 with same | none
    · exact same.symm.trans hk
    · cases none.symm.trans hk
  · exact ⟨cell', hcell', hc, hk⟩

theorem shutRequester_ties (cell : RequesterCell) : (shutRequester cell).channel = cell.channel ∧
    ((shutRequester cell).hook = cell.hook ∨ (shutRequester cell).hook = none) := by
  grind [shutRequester]

end World

theorem World.not_holds_of_shut {w w' : World} {r : Nat} {cell : RequesterCell}
    {f : RequesterCell → RequesterCell} (hr : w'.requesters = w.requesters.modify r f)
    (hcell : w.requesters.get? r = some cell) (hf : (f cell).hook = none) (c key : Nat) :
    ¬ w'.Holds c key (.requester r) := by
  rintro ⟨_, _, -, _⟩
  grind

namespace HookStep

variable {w w' : World} {more : List Action} {r : Nat}

theorem of_disposeRequester (after : w' = w.disposeRequester r) : HookStep w w' more := by
  obtain ⟨_, _, -, heq⟩ := disposeRequester_eq r w
  obtain ⟨requesters, channels, handlers⟩ : w'.requesters = w.requesters.modify r shutRequester ∧
      w'.channels = w.left r w.channels ∧ w'.serverHandlers = w.serverHandlers := by
    rw [after, heq]
    exact ⟨rfl, rfl, rfl⟩
  refine (Lowered.of_left w channels).hookStep ?_ ?_ fun h _ hcell' _ => handlers ▸ hcell'
  · rintro c _ ⟨cell, hcell, undisposed, hc, hk⟩
    refine ⟨.requester r, ⟨cell, hcell, hc, hk⟩, not_holds_of_shut requesters hcell ?_ c⟩
    simp [shutRequester, undisposed]
  · intro c _ hook hold
    cases hook with
    | requester => exact .of_requesters requesters shutRequester_ties hold
    | serverHandler =>
      obtain ⟨cell, hcell, tie⟩ := hold
      exact ⟨cell, handlers ▸ hcell, tie⟩
    | _ => exact hold

theorem of_shutHandler {h : Nat} {cell : ServerHandlerCell} (hcell : w.serverHandlers.get? h = some cell)
    (handlers : w'.serverHandlers = w.serverHandlers.modify h shutHandler)
    (requesters : w'.requesters = cell.requester.elim w.requesters fun r =>
      w.requesters.modify r (dropRequester ∘ shutRequester))
    (channels : w'.channels = w.parted cell) : HookStep w w' more := by
  set w₁ : World := { w with
    channels := w.channels.modify cell.channel fun ch => { ch with core := unhook cell.hook ch.core } }
  have first : Lowered w w₁ fun c k => c = cell.channel ∧ cell.hook = some k := .of_unhook rfl
  have mine : ∀ c key, ¬ w'.Holds c key (.serverHandler h) := by
    rintro c key ⟨cell', hcell', -, hk⟩
    rw [handlers, Table.get?_modify_self, hcell] at hcell'
    cases hcell'
    cases hk
  have others : ∀ c key h', w'.Holds c key (.serverHandler h') → w.Holds c key (.serverHandler h') := by
    rintro c key h' ⟨cell', hcell', tie⟩
    by_cases hh : h = h'
    · exact absurd ⟨cell', hcell', tie⟩ (hh ▸ mine c key)
    · rw [handlers, Table.get?_modify_of_ne hh] at hcell'
      exact ⟨cell', hcell', tie⟩
  have standing : ∀ h' cell', w'.serverHandlers.get? h' = some cell' → cell'.disposed = false →
      w.serverHandlers.get? h' = some cell' := by
    intro h' cell' hcell' hd
    rw [handlers, Table.get?_modify] at hcell'
    split at hcell'
    · obtain ⟨c, -, rfl⟩ := Option.map_eq_some_iff.mp hcell'
      cases hd
    · exact hcell'
  have held : ∀ c k, c = cell.channel ∧ cell.hook = some k →
      ∃ hook, w.Holds c k hook ∧ ∀ key, ¬ w'.Holds c key hook := by
    rintro c k ⟨rfl, hk⟩
    exact ⟨.serverHandler h, ⟨cell, hcell, rfl, hk⟩, mine cell.channel⟩
  cases hreq : cell.requester with
  | none =>
    rw [hreq, Option.elim_none] at requesters
    rw [parted, hreq] at channels
    refine (Lowered.of_unhook channels).hookStep held (fun c key hook hold => ?_) standing
    cases hook with
    | requester =>
      obtain ⟨c', hc', tie⟩ := hold
      exact ⟨c', requesters ▸ hc', tie⟩
    | serverHandler h' => exact others c key h' hold
    | _ => exact hold
  | some r =>
    rw [hreq] at requesters
    rw [parted, hreq] at channels
    have second : Lowered w₁ w' _ := .of_left w channels
    refine (first.trans second).hookStep ?_ (fun c key hook hold => ?_) standing
    · rintro c k (gone | ⟨rcell, hr, undisposed, hc, hk⟩)
      · exact held c k gone
      · refine ⟨.requester r, ⟨rcell, hr, hc, hk⟩, not_holds_of_shut requesters hr ?_ c⟩
        simp [dropRequester, shutRequester, undisposed]
    · cases hook with
      | requester => exact .of_requesters requesters shutRequester_ties hold
      | serverHandler h' => exact others c key h' hold
      | _ => exact hold

end HookStep

/-! ### Newcomers -/

namespace HookStep

variable {w w' : World} {more : List Action}

theorem of_listening {c : Nat} {name : String} {cell : RequesterCell} (ho : w.isOpen c = true)
    (channels : w'.channels = w.channels.modify c (listening name w.requesters.size))
    (requesters : w'.requesters = w.requesters.push cell)
    (tie : cell.channel = c ∧ cell.hook = some (w.keyOn c))
    (handlers : ∀ h, (w'.serverHandlers.get? h).map (fun c => (c.channel, c.hook, c.disposed, c.hooks)) =
      (w.serverHandlers.get? h).map fun c => (c.channel, c.hook, c.disposed, c.hooks)) :
    HookStep w w' more := by
  have raised : Raised w w' c (.requester w.requesters.size) := .of_modify channels (.listening name _)
  -- The world but for the new requester, whose ties are as before.
  set w₁ : World := { w with serverHandlers := w'.serverHandlers }
  have ties : SameTies w w₁ := ⟨fun _ => rfl, handlers⟩
  refine raised.hookStep (fun _ _ hook hold => ?_) fun h cell' hcell' hd =>
    .inl (handlers_of_ties ties hcell' hd)
  cases hook with
  | requester =>
    obtain ⟨cell', hcell', hc, hk⟩ := hold
    rw [requesters, Table.get?_push] at hcell'
    split at hcell'
    · grind
    · exact .inl ⟨cell', hcell', hc, hk⟩
  | serverHandler => exact .inl (ties.holds.mp hold)
  | _ => exact absurd hold id

theorem of_unhooked {cell : RequesterCell} (hooks : ∀ c, w'.hooksOn c = w.hooksOn c)
    (keys : ∀ c, w.keyOn c ≤ w'.keyOn c) (requesters : w'.requesters = w.requesters.push cell)
    (tie : cell.hook = none) (handlers : w'.serverHandlers = w.serverHandlers) : HookStep w w' more where
  keys := keys
  added c _ he := .inl (hooks c ▸ he)
  kept c _ he := .inl ((hooks c).symm ▸ he)
  holders c key hook hold := by
    refine .inl ?_
    cases hook with
    | requester =>
      obtain ⟨cell', hcell', hc, hk⟩ := hold
      rw [requesters, Table.get?_push] at hcell'
      split at hcell'
      · cases hcell'
        cases tie.symm.trans hk
      · exact ⟨cell', hcell', hc, hk⟩
    | serverHandler =>
      obtain ⟨cell', hcell', rest⟩ := hold
      exact ⟨cell', handlers ▸ hcell', rest⟩
    | _ => exact hold
  handlers h cell' hcell' hd := .inl ⟨cell', handlers ▸ hcell', hd, rfl, rfl, rfl⟩

theorem of_manned {handler : ServerHandlerCell} {hooks : List Hook} {w₁ : World}
    (linked : 2 ≤ w.channels.size) (manned : w.Manned handler hooks)
    (channels : w₁.channels = w.channels.modify near (hooked (.serverHandler w.serverHandlers.size)))
    (same : SameHooks w₁ w') (shape : SameShape w.channels w'.channels)
    (requesters : w'.requesters = w.requesters)
    (handlers : w'.serverHandlers = w.serverHandlers.push handler) : HookStep w w' more := by
  have raised₁ : Raised w w₁ near (.serverHandler w.serverHandlers.size) :=
    .of_modify channels (.hooked _)
  have raised : Raised w w' near (.serverHandler w.serverHandlers.size) :=
    { keys := fun c => (same.keys c).symm ▸ raised₁.keys c
      added := fun c e he => by
        rw [same.hooks c] at he
        rw [same.keys near]
        exact raised₁.added c e he
      kept := fun c e he => (same.hooks c).symm ▸ raised₁.kept c e he
      hung := fun ho => by
        rw [same.hooks near, same.keys near]
        exact raised₁.hung ho }
  obtain ⟨ch, hch⟩ := Table.get?_isSome_of_lt (Nat.lt_of_lt_of_le Nat.zero_lt_two linked)
  have tie : handler.hook = none ∧ handler.disposed = true ∨
      handler.hook = some (w.keyOn near) ∧ w.isOpen near = true ∧ handler.channel = near := by
    obtain ⟨key, _, at_key, rfl⟩ | ⟨-, hd, hk⟩ := manned
    · obtain ⟨ho, rfl⟩ := at_key ch hch
      exact .inr ⟨congrArg some (keyOn_eq hch).symm, by simp [World.isOpen, hch, ho], rfl⟩
    · exact .inl ⟨hk, hd⟩
  refine raised.hookStep (fun c key hook hold => ?_) fun h cell' hcell' hd => ?_
  · cases hook with
    | requester =>
      obtain ⟨cell', hcell', rest⟩ := hold
      exact .inl ⟨cell', requesters ▸ hcell', rest⟩
    | serverHandler =>
      obtain ⟨cell', hcell', hc, hk⟩ := hold
      rw [handlers, Table.get?_push] at hcell'
      split at hcell'
      · grind
      · exact .inl ⟨cell', hcell', hc, hk⟩
    | _ => exact absurd hold id
  · rw [handlers, Table.get?_push] at hcell'
    split at hcell'
    · next hh =>
      cases hcell'
      obtain ⟨-, gone⟩ | ⟨some, ho, -⟩ := tie
      · cases hd.symm.trans gone
      · rw [hh]
        exact .inr ⟨Table.get?_of_size_le (Nat.le_refl _), (shape.isOpen near).trans ho, _, some,
          (raised.hung ho).1⟩
    · exact .inl ⟨cell', hcell', hd, rfl, rfl, rfl⟩

end HookStep

/-! ### Everything that happens -/

section

variable {w w' : World}

theorem World.SameTies.of_handlers (hr : w'.requesters = w.requesters) {h : Nat}
    {f : ServerHandlerCell → ServerHandlerCell} (hh : w'.serverHandlers = w.serverHandlers.modify h f)
    (hf : ∀ c, ((f c).channel, (f c).hook, (f c).disposed, (f c).hooks) =
      (c.channel, c.hook, c.disposed, c.hooks)) : SameTies w w' := by
  refine ⟨fun _ => by rw [hr], ?_⟩
  rw [hh]
  exact Table.map_get?_modify hf _ h

theorem World.SameTies.of_requesters {r : Nat} {f : RequesterCell → RequesterCell}
    (hr : w'.requesters = w.requesters.modify r f) (hh : w'.serverHandlers = w.serverHandlers)
    (hf : ∀ c, ((f c).channel, (f c).hook) = (c.channel, c.hook)) : SameTies w w' := by
  refine ⟨?_, fun h => by rw [hh]⟩
  rw [hr]
  exact Table.map_get?_modify hf _ r

/-- A new channel has no hooks. -/
theorem World.SameHooks.of_push {ch : Channel} (h : w'.channels = w.channels.push ch)
    (hooks : ch.core.hooks = []) (key : ch.core.nextKey = 0) : SameHooks w w' := by
  constructor <;> intro _
  · grind [hooksOn, Table.get?_of_size_le]
  · unfold keyOn
    rw [h, Table.get?_push]
    split
    · next hc => simp [key, Table.get?_of_size_le (Nat.le_of_eq hc.symm)]
    · rfl

theorem World.SameHooks.withdrawn {v : Nat} (h : w'.channels = w.withdrawn v) : SameHooks w w' := by
  unfold World.withdrawn at h
  split at h
  · split at h
    · exact .of_modify h (fun _ => rfl) fun _ => rfl
    · exact .of_channels h
  · exact .of_channels h

theorem World.SameHooks.registered {c : Nat} {service : String} {handler : Handler}
    (h : w'.channels = w.channels.modify c (registered service handler)) : SameHooks w w' := by
  refine .of_modify h (fun ch => ?_) fun ch => ?_ <;> unfold World.registered ChannelCore.register <;>
    split <;> rfl

end

variable {L : Ledger} {w w' : World} {κ : Cause} {more : List Action}

theorem World.Unmoved.sameTies (h : Unmoved w w') : SameTies w w' := by
  refine ⟨fun _ => by rw [h.requesters], fun i => ?_⟩
  have same := congrArg (Option.map fun c : ServerHandlerCell => (c.channel, c.hook, c.disposed, c.hooks))
    (h.handlers i)
  simpa only [Option.map_map, Function.comp_def] using same

theorem HookStep.of_unmoved (h : Unmoved w w') : HookStep w w' more :=
  .of_same (.of_channels h.channels) h.sameTies

theorem World.SameHooks.clearRegistry (g : Nat) (w : World) : SameHooks w (w.clearRegistry g) := by
  unfold World.clearRegistry
  split
  · exact .of_channels rfl
  · suffices ∀ (es : List (Nat × Nat)) (w₁ : World), SameHooks w w₁ →
        SameHooks w (es.foldl (fun acc e => acc.releaseReceiver e.2) w₁) from
      this _ _ (.of_channels rfl)
    intro es
    induction es with
    | nil => exact fun _ h => h
    | cons e _ ih =>
      intro w₁ h
      have released : (w₁.releaseReceiver e.2).channels = w₁.withdrawn e.2 := by rw [releaseReceiver_eq]
      exact ih _ (h.trans (.withdrawn released))

theorem HookStep.of_rewired (h : Rewired w κ w') : HookStep w w' more := by
  unfold Rewired at h
  split at h
  · exact .of_hooked h
  · rcases h with rfl | h
    · exact .of_unmoved (.refl _)
    · exact .of_disposeRequester h
  · next g =>
    rcases h with rfl | rfl
    · exact .of_unmoved (.refl _)
    · obtain ⟨_, _, -, heq⟩ := clearRegistry_eq g w
      exact .of_same (.clearRegistry g w) (by rw [heq]; exact .of_tables rfl rfl)
  · next v =>
    have heq := releaseReceiver_eq v w
    rw [← h] at heq
    exact .of_same (.withdrawn (congrArg World.channels heq)) (by rw [heq]; exact .of_tables rfl rfl)
  · rcases h with rfl | ⟨-, h⟩
    · exact .of_unmoved (.refl _)
    · exact .of_disposeRequester h
  · rcases h with rfl | rfl
    · exact .of_unmoved (.refl _)
    · exact .of_same (.registered rfl) (.of_tables rfl rfl)
  · rcases h with rfl | h
    · exact .of_unmoved (.refl _)
    · exact .of_hooked h
  · exact .of_unmoved h

/-- Whatever happens does to hooks only what it may. -/
theorem Happening.hookStep (hap : Happening L w κ w' more) (linked : 2 ≤ w.channels.size) :
    HookStep w w' more := by
  have still : ∀ {w' : World}, w'.channels = w.channels → w'.requesters = w.requesters →
      w'.serverHandlers = w.serverHandlers → HookStep w w' more := fun hc hr hh =>
    .of_same (.of_channels hc) (.of_tables hr hh)
  cases hap with
  | calm _ _ _ _ _ wires => exact .of_rewired wires
  | ignored _ _ _ _ unmoved => exact .of_unmoved unmoved
  | settled | unrequested | posted | requested =>
    exact .of_same (.of_channels rfl) (.of_requesters rfl rfl fun _ => rfl)
  | arrived => exact .of_same (.registered rfl) (.of_tables rfl rfl)
  | departed => exact .of_same (.withdrawn rfl) (.of_tables rfl rfl)
  | shutCore channel => exact .of_shutCore channel rfl
  | shutHandler handler => exact .of_shutHandler handler rfl rfl rfl
  | @announced h _ _ _ _ _ _ _ _ _ isOpen channel _ hook =>
    obtain ⟨ch, hch, hk⟩ := hook
    have ties : SameTies w { w with serverHandlers := w.serverHandlers.modify h fun c =>
        { c with requester := some w.requesters.size } } := .of_handlers rfl rfl fun _ => rfl
    exact .of_listening isOpen rfl rfl
      ⟨channel, hk.trans (congrArg some (keyOn_eq hch).symm)⟩ ties.handlers
  | unposted _ requesters =>
    rcases requesters with rfl | ⟨-, _, _, -, rfl⟩
    · exact still rfl rfl rfl
    · exact .of_same (.of_channels rfl) (.of_requesters rfl rfl fun _ => rfl)
  | connected =>
    let ch : Channel := { label := "client", transport := .paired w.pairs.size false }
    have first : SameHooks w { w with channels := w.channels.push ch } := .of_push rfl rfl rfl
    exact .of_same (first.trans (.of_push rfl rfl rfl)) (.of_tables rfl rfl)
  | admitted _ _ _ _ _ manned =>
    let w₁ : World := { w with
      channels := w.channels.modify near (hooked (.serverHandler w.serverHandlers.size)) }
    exact .of_manned linked manned (show w₁.channels = _ from rfl) (.registered rfl)
      (.trans (.hooked _ _ _) (.registered _ _ _ _)) rfl rfl
  | attached _ _ _ _ manned =>
    exact .of_manned linked manned rfl (.of_channels rfl) (.hooked _ _ _) rfl rfl
  | @enlisted _ _ requester _ _ _ _ channel wires =>
    subst channel
    obtain ⟨ch, hch, ⟨ho, hk, channels⟩ | ⟨-, hk, _, channels, -, hooks, keys⟩⟩ := wires
    · have isOpen : w.isOpen _ = true := isOpen_eq_true.mpr ⟨ch, hch, ho⟩
      exact .of_listening isOpen channels rfl
        ⟨rfl, hk.trans (congrArg some (keyOn_eq hch).symm)⟩ fun _ => rfl
    · refine .of_unhooked (fun c' => ?_) (fun c' => ?_) rfl hk rfl
      · by_cases hc : requester.channel = c'
        · subst hc
          rw [hooksOn_eq hch, (hooksOn_modify_self channels hch).1, hooks]
        · exact (hooksOn_modify_of_ne channels hc).1
      · by_cases hc : requester.channel = c'
        · subst hc
          rw [keyOn_eq hch, (hooksOn_modify_self channels hch).2]
          exact keys
        · exact Nat.le_of_eq (hooksOn_modify_of_ne channels hc).2.symm
  | _ => exact still rfl rfl rfl

/-! ## Hooks are in their places -/

/-- Every key belongs to one holder, and the hook of every handler that is not closed is on the server
channel while that is open. -/
structure Fastened (w : World) : Prop where
  bound : ∀ c e, e ∈ w.hooksOn c → e.1 < w.keyOn c
  own : ∀ c key hook, w.Holds c key hook → key < w.keyOn c ∧ ∀ a, (key, a) ∈ w.hooksOn c → a = hook
  held : ∀ h cell, w.serverHandlers.get? h = some cell → cell.disposed = false → w.isOpen near = true →
    ∃ key, cell.hook = some key ∧ (key, .serverHandler h) ∈ w.hooksOn near

/-- A hook of which nobody holds the key stays until it is run. -/
theorem Fastened.kept (f : Fastened w) (step : HookStep w w' more) {c : Nat} {e : Nat × Hook}
    (he : e ∈ w.hooksOn c) (unheld : ∀ key, ¬ w.Holds c key e.2) :
    e ∈ w'.hooksOn c ∨ .runHook e.2 ∈ more := by
  obtain stays | runs | ⟨hook, hold, -⟩ := step.kept c e he
  · exact .inl stays
  · exact .inr runs
  · obtain rfl := (f.own c e.1 hook hold).2 e.2 he
    exact absurd hold (unheld e.1)

theorem Fastened.step (f : Fastened w) (step : HookStep w w' more)
    (server : ∀ h cell, w.serverHandlers.get? h = some cell → cell.channel = near)
    (isOpen : w'.isOpen near = true → w.isOpen near = true)
    (unrun : w'.isOpen near = true → ∀ h, .runHook (.serverHandler h) ∉ more) : Fastened w' where
  bound c e he := by
    rcases step.added c e he with old | ⟨-, new⟩
    · exact Nat.lt_of_lt_of_le (f.bound c e old) (step.keys c)
    · exact new
  own c key hook hold := by
    obtain old | ⟨rfl, new, only⟩ := step.holders c key hook hold
    · obtain ⟨low, single⟩ := f.own c key hook old
      refine ⟨Nat.lt_of_lt_of_le low (step.keys c), fun a ha => ?_⟩
      rcases step.added c _ ha with before | ⟨late, -⟩
      · exact single a before
      · exact absurd late (Nat.ne_of_lt low)
    · refine ⟨new, fun a ha => (only a ha).elim (fun before => ?_) id⟩
      exact absurd (f.bound c _ before) (Nat.lt_irrefl _)
  held h cell' hcell' hd ho := by
    obtain ⟨cell, hcell, undisposed, channel, hook, -⟩ | new := step.handlers h cell' hcell' hd
    · obtain ⟨key, hkey, entry⟩ := f.held h cell hcell undisposed (isOpen ho)
      refine ⟨key, hook.trans hkey, ?_⟩
      obtain stays | runs | ⟨other, hold, dropped⟩ := step.kept near _ entry
      · exact stays
      · exact absurd runs (unrun ho h)
      · obtain rfl := (f.own near key other hold).2 _ entry
        exact absurd ⟨cell', hcell', channel.trans (server h cell hcell), hook.trans hkey⟩ (dropped key)
    · exact new.2.2

/-- A channel is closed by running all its hooks. -/
theorem Happening.run_hooks (hap : Happening L w κ w' more) {c : Nat} (ho : w.isOpen c = true) :
    w'.isOpen c = true ∨ ∀ e ∈ w.hooksOn c, .runHook e.2 ∈ more := by
  obtain shape | ⟨c', ch, _, -, channel, rfl, shut⟩ | ⟨_, _, added⟩ := hap.channels
  · exact .inl ((shape.isOpen c).trans ho)
  · by_cases hc : c' = c
    · subst hc
      refine .inr fun e he => ?_
      rw [hooksOn_eq channel] at he
      exact List.mem_map.mpr ⟨e.2, List.mem_map.mpr ⟨e, he, rfl⟩, rfl⟩
    · refine .inl ?_
      unfold World.isOpen at *
      rwa [shut, Table.get?_modify_of_ne hc]
  · obtain ⟨ch, hch, open_⟩ := isOpen_eq_true.mp ho
    refine .inl (isOpen_eq_true.mpr ⟨ch, ?_, open_⟩)
    have lt := Table.lt_size_of_get? hch
    rw [added, Table.get?_push_of_lt (by rw [Table.size_push]; omega), Table.get?_push_of_lt lt, hch]

theorem Fastened.opening (serve : Serving) : Fastened (opening serve).world := by
  rw [opening_eq]
  refine ⟨fun c e he => ?_, fun c key hook hold => ?_, by rintro _ _ ⟨⟩⟩
  · match c with
    | 0 | 1 =>
      obtain rfl := List.mem_singleton.mp he
      exact Nat.zero_lt_one
    | _ + 2 => cases he
  · cases hook with
    | requester | serverHandler =>
      obtain ⟨_, ⟨⟩, -⟩ := hold
    | _ => exact absurd hold id

end Switchboard
