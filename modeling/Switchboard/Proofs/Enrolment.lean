import Switchboard.Proofs.Closure
import Switchboard.Proofs.Registrations

/-!
# The registry knows the handlers that have introduced themselves

The registry at the server's end takes in a handler when it introduces itself and strikes it off when it
takes its leave. While the server channel is open, the handlers it knows are those that result from the
introductions and leaves that were handed over, and the services for calls are theirs. When nothing is on
its way, they are the handlers that have introduced themselves and are not closed.
-/

namespace Switchboard

open World

open Exchange History

open Service (callFunction createHandler deleteHandler request request_ne)

variable {H : History} {L L' : Ledger} {w w' : World} {κ : Cause} {more rest : List Action}
  {ts : List Transition} {x : Exchange} {m : Move}

/-! ## What does not concern the registry -/

/-- A change leaves the server's end of the server channel, the registry and its receivers alone. -/
structure FarSame (L : Ledger) (w w' : World) : Prop where
  channel : w'.channels.get? far = w.channels.get? far
  registries : w'.registries = w.registries
  receivers : ∀ v h cell, L.receiver v = some (.registry h) → w.receivers.get? v = some cell →
    w'.receivers.get? v = some cell

namespace FarSame

theorem of_tables (hc : w'.channels.get? far = w.channels.get? far) (hg : w'.registries = w.registries)
    (hv : w'.receivers = w.receivers) : FarSame L w w' :=
  ⟨hc, hg, fun _ _ _ _ hcell => hv ▸ hcell⟩

end FarSame

section

variable (reg : Regular H L w)
include reg

theorem Regular.requester_away {r : Nat} {cell : RequesterCell}
    (hcell : w.requesters.get? r = some cell) : cell.channel ≠ far := by
  obtain ⟨ℓ, hℓ, ok⟩ := reg.orderly.requesters r cell hcell
  rw [ok.channel]
  cases ℓ with
  | server => exact Nat.zero_ne_one
  | client =>
    rintro rfl
    exact absurd (reg.coherent.line hℓ) nofun

theorem Regular.farSame_disposeRequester {r : Nat} (after : w' = w.disposeRequester r) : FarSame L w w' := by
  obtain ⟨_, _, -, heq⟩ := disposeRequester_eq r w
  rw [after, heq]
  exact .of_tables (get?_left _ fun _ hcell _ => reg.requester_away hcell) rfl rfl

theorem Regular.registry_shut {g : Nat} (ok : ActionOk H L (.runHook (.registry g))) :
    w.isOpen far = false := by
  obtain ⟨_, ⟨-, rfl⟩, closed⟩ := ok
  exact reg.orderly.isOpen_of_closed (closed Nat.one_lt_two)

theorem Regular.farSame_calm (ok : ∀ a, κ = .action a → ActionOk H L a)
    (registries : w'.registries = w.registries ∨
      w.isOpen far = false ∧ κ = .action (.runHook (.registry 0))) (wires : Rewired w κ w')
    (uncleared : κ ≠ .action (.runHook (.registry 0))) : FarSame L w w' := by
  have registries : w'.registries = w.registries := registries.resolve_right fun ⟨_, clears⟩ => uncleared clears
  have unmoved : Unmoved w w' → FarSame L w w' := fun h =>
    .of_tables (by rw [h.channels]) registries h.receivers
  unfold Rewired at wires
  split at wires
  · next c _ =>
    subst wires
    have away : c ≠ far := fun h => by
      have := (ok _ rfl).2
      rw [h] at this
      exact absurd this (by decide)
    exact .of_tables (Table.get?_modify_of_ne away _ _) rfl rfl
  · rcases wires with rfl | after
    · exact unmoved (.refl _)
    · exact reg.farSame_disposeRequester after
  · obtain ⟨_, ⟨rfl, -⟩, -⟩ := ok _ rfl
    exact absurd rfl uncleared
  · next v =>
    obtain ⟨k, hk⟩ := ok _ rfl
    rw [releaseReceiver_eq] at wires
    subst wires
    refine ⟨get?_withdrawn fun cell hcell hfar => ?_, rfl, fun _ h cell _ hcell => ?_⟩
    · obtain ⟨place, -⟩ := of_eq_some (reg.orderly.receivers v cell hcell) hk
      obtain ⟨_, hρ, hc⟩ := place
      have := two_le_of_isHandlerEnd (reg.coherent.client hρ).1
      rw [hc, hfar] at this
      exact absurd this (by decide)
    · grind
  · rcases wires with rfl | ⟨-, after⟩
    · exact unmoved (.refl _)
    · exact reg.farSame_disposeRequester after
  · rcases wires with rfl | rfl
    · exact unmoved (.refl _)
    · exact .of_tables (Table.get?_modify_of_ne Nat.zero_ne_one _ _) rfl rfl
  · rcases wires with rfl | rfl
    · exact unmoved (.refl _)
    · exact .of_tables (Table.get?_modify_of_ne Nat.zero_ne_one _ _) rfl rfl
  · exact unmoved wires

end

def Cause.tells : Cause → Bool
  | .action (.deliver c service _) =>
    c == far && (service == createHandler || service == deleteHandler)
  | _ => false

theorem Advance.farSame (s : Steady ts x L)
    (v : Advance ts x m L L' κ w' more rest) (unshut : κ ≠ .action (.closeCore far))
    (uncleared : κ ≠ .action (.runHook (.registry 0))) (cause : κ.tells = false) : FarSame L x.world w' := by
  have lt : far < x.world.channels.size := s.linked
  have away : near ≠ far := Nat.zero_ne_one
  have regular' := v.regular
  cases v.occurs.happening with
  | calm _ _ _ registries _ wires => exact s.regular.farSame_calm (v.action_ok s) registries wires uncleared
  | ignored _ _ _ registries unmoved =>
    exact .of_tables (by rw [unmoved.channels]) registries unmoved.receivers
  | arrived | departed => simp [Cause.tells] at cause
  | @shutCore c =>
    have other : c ≠ far := fun h => unshut (by rw [h])
    exact .of_tables (Table.get?_modify_of_ne other _ _) rfl rfl
  | @shutHandler h cell _ _ _ handler =>
    obtain ⟨_, -, fit⟩ := s.regular.orderly.handlers h cell handler
    refine .of_tables ?_ rfl rfl
    show (x.world.parted cell).get? far = _
    rw [parted, fit.channel]
    cases cell.requester with
    | none => exact Table.get?_modify_of_ne away _ _
    | some =>
      refine (get?_left _ fun q hq _ => s.regular.requester_away hq).trans ?_
      exact Table.get?_modify_of_ne away _ _
  | announced | attached => exact .of_tables (Table.get?_modify_of_ne away _ _) rfl rfl
  | connected =>
    refine .of_tables ?_ rfl rfl
    show ((x.world.channels.push _).push _).get? far = _
    rw [Table.get?_push_of_lt (by rw [Table.size_push]; omega), Table.get?_push_of_lt lt]
  | @admitted c =>
    have other : c ≠ far := by
      obtain ⟨ρ, hρ, ok⟩ := regular'.orderly.clients _ _ (Table.get?_push_size _ _)
      have outer : 2 ≤ ρ.channel := two_le_of_isHandlerEnd (regular'.coherent.client hρ).1
      obtain rfl : ρ.channel = c := ok.channel.symm
      exact Nat.ne_of_gt outer
    refine ⟨?_, rfl, fun i h cell _ hcell => ?_⟩
    · rw [Table.get?_modify_of_ne other]
      exact Table.get?_modify_of_ne away _ _
    · exact (Table.get?_push_of_lt (Table.lt_size_of_get? hcell) _).trans hcell
  | @enlisted c _ _ chs _ _ allowed _ wires =>
    have other : c ≠ far := by
      rintro rfl
      simp [canEnlist, isClientEnd] at allowed
    refine .of_tables ?_ rfl rfl
    obtain ⟨_, -, ⟨-, -, hchs⟩ | ⟨-, -, _, hchs, -⟩⟩ := wires
    · rw [hchs]
      exact Table.get?_modify_of_ne other _ _
    · rw [hchs]
      exact Table.get?_modify_of_ne other _ _
  | _ => exact .of_tables rfl rfl rfl

/-- While the server's end stays open, it is not closed and the registry is not cleared. -/
theorem Advance.farSame_of_open (s : Steady ts x L)
    (v : Advance ts x m L L' κ w' more rest) (ho : w'.isOpen far = true) (cause : κ.tells = false) :
    FarSame L x.world w' := by
  refine v.farSame s ?_ ?_ cause
  · rintro rfl
    have outcome : (w', more) = x.world.closeCore far := v.occurs.outcome
    obtain ⟨ch, hch, isOpen⟩ := isOpen_eq_true.mp (v.open_mono s s.linked ho)
    obtain ⟨rfl, -⟩ := Prod.mk.inj outcome
    simp [isOpen_eq_true, ChannelCore.dispose, modifyChannel, hch, isOpen] at ho
  · rintro rfl
    cases (v.open_mono s s.linked ho).symm.trans (s.regular.registry_shut (v.action_ok s _ rfl))

/-! ## What the registry is told -/

namespace Exchange

def enrol (ids : List Nat) (message : String × Json) : List Nat :=
  if message.1 = createHandler then
    match Arrival.ofJson? message.2 with
    | some a => if a.handler ∈ ids then ids else ids ++ [a.handler]
    | none => ids
  else if message.1 = deleteHandler then
    match Departure.ofJson? message.2 with
    | some d => ids.filter (· != d.handler)
    | none => ids
  else ids

def roll (messages : List (String × Json)) : List Nat := messages.foldl enrol []

theorem roll_concat (messages : List (String × Json)) (message : String × Json) :
    roll (messages ++ [message]) = enrol (roll messages) message := by
  simp [roll]

theorem enrol_create {ids : List Nat} {v : Json} :
    enrol ids (createHandler, v) =
      match Arrival.ofJson? v with
      | some a => if a.handler ∈ ids then ids else ids ++ [a.handler]
      | none => ids :=
  if_pos rfl

theorem enrol_delete {ids : List Nat} {v : Json} :
    enrol ids (deleteHandler, v) =
      match Departure.ofJson? v with
      | some d => ids.filter (· != d.handler)
      | none => ids := by
  rw [enrol, if_neg (show deleteHandler ≠ createHandler by decide), if_pos rfl]

theorem enrol_other {ids : List Nat} {message : String × Json} (hc : message.1 ≠ createHandler)
    (hd : message.1 ≠ deleteHandler) : enrol ids message = ids := by
  rw [enrol, if_neg hc, if_neg hd]

theorem nodup_enrol {ids : List Nat} (h : ids.Nodup) (message : String × Json) :
    (enrol ids message).Nodup := by
  unfold enrol
  split
  · grind
  · split
    · split
      · exact h.filter _
      · exact h
    · exact h

theorem nodup_roll (messages : List (String × Json)) : (roll messages).Nodup := by
  induction messages using List.reverseRecOn with
  | nil => exact List.nodup_nil
  | append_singleton _ message ih =>
    rw [roll_concat]
    exact nodup_enrol ih message

end Exchange

def callService (e : Nat × Nat) : String × Handler :=
  (request (callFunction e.1), .requests e.2)

/-- The registry knows some handlers, and takes the calls of these. -/
structure Enrolled (w : World) (cell : RegistryCell) (ids : List Nat) : Prop where
  registry : w.registries.get? 0 = some cell
  ids : cell.entries.map Prod.fst = ids
  services : w.servicesOn far = (createHandler, .arrivals 0) ::
    (deleteHandler, .departures 0) :: cell.entries.map callService
  serving : ∀ e ∈ cell.entries, ∃ r, w.receivers.get? e.2 = some r ∧ r.live = true

variable {cell : RegistryCell} {ids : List Nat}

theorem Enrolled.of_same (e : Enrolled w cell ids) (reg : Regular H L w) (same : FarSame L w w') :
    Enrolled w' cell ids where
  registry := same.registries ▸ e.registry
  ids := e.ids
  services := by rw [servicesOn, same.channel, ← servicesOn, e.services]
  serving entry he := by
    obtain ⟨r, hr, live⟩ := e.serving entry he
    have window := (reg.orderly.registries 0 cell e.registry).entries entry he
    exact ⟨r, same.receivers _ _ _ window hr, live⟩

theorem Enrolled.abort (e : Enrolled w cell ids) (scope detail : String) :
    Enrolled (w.abort scope detail) cell ids := by
  unfold World.abort
  split <;> exact { e with }

/-- What is told to the registry reaches it. -/
theorem Enrolled.told (e : Enrolled w cell ids) (reg : Regular H L w) (ho : w.isOpen far = true) (v : Json) :
    w.deliver far createHandler v = (w.arrive 0 v, []) ∧
      w.deliver far deleteHandler v = (w.depart 0 v, []) := by
  obtain ⟨ch, hch, isOpen⟩ := isOpen_eq_true.mp ho
  have services := e.services
  rw [servicesOn_eq hch] at services
  have live : (w.registries.get? 0).any (·.live) = true := by
    simp [e.registry, (reg.orderly.registries 0 cell e.registry).live]
  have create : ch.core.handler? createHandler = some (.arrivals 0) := by
    simp [ChannelCore.handler?, isOpen, services]
  have delete : ch.core.handler? deleteHandler = some (.departures 0) := by
    have other : (deleteHandler == createHandler) = false := by decide
    simp [ChannelCore.handler?, isOpen, services, List.lookup_cons, other]
  constructor
  · simp [deliver, hch, create, live]
  · simp [deliver, hch, delete, live]

theorem Assoc.set_of_forall_ne {κ ν : Type} [BEq κ] [LawfulBEq κ] {key : κ} {table : List (κ × ν)}
    (value : ν) (fresh : ∀ e ∈ table, e.1 ≠ key) : Assoc.set key value table = table ++ [(key, value)] := by
  induction table with
  | nil => rfl
  | cons e _ ih =>
    obtain ⟨k, _⟩ := e
    have other : (k == key) = false := beq_false_of_ne (fresh _ (.head _))
    rw [Assoc.set, other, ih fun e he => fresh e (.tail _ he)]
    rfl

theorem Assoc.has_eq_true_iff {entries : List (Nat × Nat)} {key : Nat} :
    Assoc.has key entries = true ↔ key ∈ entries.map Prod.fst := by
  simp [Assoc.has]

theorem Assoc.notMem_of_lookup {entries : List (Nat × Nat)} {key : Nat} (h : entries.lookup key = none) :
    key ∉ entries.map Prod.fst := by
  rw [← Assoc.has_eq_true_iff, Assoc.has_eq_isSome_lookup, h]
  exact Bool.false_ne_true

variable {h : Nat}

theorem callService_ne {e : Nat × Nat} (other : e.1 ≠ h) :
    (callService e).1 ≠ request (callFunction h) := fun heq =>
  other (Service.callFunction_injective (Service.request_injective heq))

section

variable (e : Enrolled w cell ids) (reg : Regular H L w) (ho : w.isOpen far = true) (v : Json)
include e reg ho

/-- The registry is told of a handler. -/
theorem Enrolled.arrive : ∃ cell', Enrolled (w.arrive 0 v) cell' (enrol ids (createHandler, v)) := by
  rw [enrol_create]
  unfold World.arrive
  rw [e.registry]
  dsimp only
  cases hm : Arrival.ofJson? v with
  | none => exact ⟨cell, e.abort _ _⟩
  | some a =>
    dsimp only
    cases known : Assoc.has a.handler cell.entries with
    | true =>
      rw [if_pos rfl, if_pos (e.ids ▸ Assoc.has_eq_true_iff.mp known)]
      exact ⟨cell, e.abort _ _⟩
    | false =>
      have fresh : a.handler ∉ cell.entries.map Prod.fst := fun mem =>
        absurd (known.symm.trans (Assoc.has_eq_true_iff.mpr mem)) nofun
      rw [if_neg nofun, if_neg (e.ids ▸ fresh)]
      obtain ⟨ch, hch, isOpen⟩ := isOpen_eq_true.mp ho
      have services := e.services
      rw [servicesOn_eq hch] at services
      have channel : cell.channel = far := (reg.orderly.registries 0 cell e.registry).channel
      refine ⟨{ cell with entries := cell.entries ++ [(a.handler, w.receivers.size)] }, ?_, ?_, ?_, ?_⟩
      · show (w.registries.modify 0 _).get? 0 = _
        rw [Table.get?_modify_self, e.registry]
        rfl
      · simp [e.ids]
      · have after : ((w.channels.modify cell.channel (registered
            (request (callFunction a.handler)) (.requests w.receivers.size))).get? far) =
              some (registered (request (callFunction a.handler))
                (.requests w.receivers.size) ch) := by
          rw [channel, Table.get?_modify_self, hch]
          rfl
        have unnamed : ∀ s ∈ ch.core.services, s.1 ≠ request (callFunction a.handler) := by
          intro s hs
          rw [services] at hs
          rcases List.mem_cons.mp hs with rfl | hs
          · exact (request_ne _ (by decide)).symm
          · rcases List.mem_cons.mp hs with rfl | hs
            · exact (request_ne _ (by decide)).symm
            · obtain ⟨entry, hentry, rfl⟩ := List.mem_map.mp hs
              refine callService_ne fun heq => fresh ?_
              exact heq ▸ List.mem_map_of_mem hentry
        refine (servicesOn_eq after).trans ?_
        simp only [registered, ChannelCore.register, isOpen, Bool.false_eq_true, if_false]
        rw [Assoc.set_of_forall_ne _ unnamed, services]
        simp [callService]
      · intro entry he
        show ∃ r, (w.receivers.push _).get? entry.2 = some r ∧ _
        rcases List.mem_append.mp he with _ | new
        · grind [e.serving]
        · obtain rfl := List.mem_singleton.mp new
          exact ⟨_, Table.get?_push_size _ _, rfl⟩

/-- The registry is told that a handler is gone. -/
theorem Enrolled.depart : ∃ cell', Enrolled (w.depart 0 v) cell' (enrol ids (deleteHandler, v)) := by
  rw [enrol_delete]
  unfold World.depart
  rw [e.registry]
  dsimp only
  cases hm : Departure.ofJson? v with
  | none => exact ⟨cell, e.abort _ _⟩
  | some d =>
    dsimp only
    cases hi : cell.entries.lookup d.handler with
    | none =>
      have unknown := Assoc.notMem_of_lookup hi
      rw [List.filter_eq_self.mpr fun h hh => by
        simpa using fun heq : h = d.handler => unknown (heq ▸ e.ids ▸ hh)]
      exact ⟨cell, e.abort _ _⟩
    | some i =>
      obtain ⟨ch, hch, _⟩ := isOpen_eq_true.mp ho
      have services := e.services
      rw [servicesOn_eq hch] at services
      have ok := reg.orderly.registries 0 cell e.registry
      have entry := Assoc.mem_of_lookup hi
      obtain ⟨r, hr, live⟩ := e.serving _ entry
      obtain ⟨_, hω, place, name, -⟩ := reg.orderly.receivers i r hr
      cases hω.symm.trans (ok.entries _ entry)
      have channel : r.channel = far := place
      dsimp only
      rw [releaseReceiver_eq]
      refine ⟨{ cell with entries := Assoc.erase d.handler cell.entries }, ?_, ?_, ?_, ?_⟩
      · show (w.registries.modify 0 _).get? 0 = _
        rw [Table.get?_modify_self, e.registry]
        rfl
      · rw [← e.ids, List.filter_map]
        rfl
      · have after : (w.withdrawn i).get? far =
            some { ch with core := ch.core.unregister (request (callFunction d.handler)) } := by
          unfold withdrawn
          simp only [hr, live, if_true]
          rw [channel, Table.get?_modify_self, hch, name]
          rfl
        have kept : ∀ {name : String}, name.toList.getLast? ≠ some 't' →
            (!(name == request (callFunction d.handler))) = true := fun h => by
          rw [beq_false_of_ne (request_ne _ h).symm]
          rfl
        have create := kept (show createHandler.toList.getLast? ≠ some 't' by decide)
        have delete := kept (show deleteHandler.toList.getLast? ≠ some 't' by decide)
        refine (servicesOn_eq after).trans ?_
        show ch.core.services.filter _ = _
        rw [services, List.filter_cons, if_pos create, List.filter_cons, if_pos delete, List.filter_map]
        refine congrArg (fun l => _ :: _ :: List.map callService l) (List.filter_congr fun entry _ => ?_)
        by_cases same : entry.1 = d.handler
        · simp [callService, same]
        · simp [beq_false_of_ne (callService_ne same), same]
      · intro entry' he
        obtain ⟨he, _⟩ := List.mem_filter.mp he
        obtain ⟨r', hr', live'⟩ := e.serving entry' he
        refine ⟨r', (Table.get?_modify_of_ne (fun same => ?_) _ _).trans hr', live'⟩
        grind [ok.entries]

end

/-! ## What is handed over is what the registry knows -/

theorem Cause.of_message {heard : String × Json} (h : messageTo far κ.delivered? = some heard) :
    κ = .action (.deliver far heard.1 heard.2) := by
  unfold messageTo Cause.delivered? at h
  split at h
  · grind
  · cases h

theorem Cause.message_of_tells (h : κ.tells = true) : ∃ heard, messageTo far κ.delivered? = some heard := by
  cases κ with
  | action a =>
    cases a with
    | deliver c service u =>
      obtain ⟨rfl, -⟩ : c = far ∧ _ := by simpa [Cause.tells] using h
      exact ⟨(service, u), by simp [Cause.delivered?, messageTo]⟩
    | _ => cases h
  | _ => cases h

theorem Steady.enrolled_step (s : Steady ts x L)
    (e : Enrolled x.world cell (roll (handedTo ts far))) (v : Advance ts x m L L' κ w' more rest)
    (ho : w'.isOpen far = true) :
    ∃ cell', Enrolled w' cell' (roll (handedTo (ts ++ [x.transition m]) far)) := by
  have before := v.open_mono s s.linked ho
  rw [handedTo_append, v.occurs.delivered]
  have same : κ.tells = false → Enrolled w' cell (roll (handedTo ts far)) := fun tells =>
    e.of_same s.regular (v.farSame_of_open s ho tells)
  cases message : messageTo far κ.delivered? with
  | none =>
    refine ⟨cell, ?_⟩
    rw [Option.toList_none, List.append_nil]
    cases tells : κ.tells with
    | false => exact same tells
    | true =>
      obtain ⟨heard, given⟩ := Cause.message_of_tells tells
      cases message.symm.trans given
  | some heard =>
    obtain ⟨service, u⟩ := heard
    obtain rfl := Cause.of_message message
    rw [Option.toList_some, roll_concat]
    have outcome : (w', more) = x.world.deliver far service u := v.occurs.outcome
    obtain ⟨create, delete⟩ := e.told s.regular before u
    by_cases hc : service = createHandler
    · subst hc
      obtain rfl : w' = _ := congrArg Prod.fst (outcome.trans create)
      exact e.arrive s.regular before u
    · by_cases hd : service = deleteHandler
      · subst hd
        obtain rfl : w' = _ := congrArg Prod.fst (outcome.trans delete)
        exact e.depart s.regular before u
      · rw [enrol_other hc hd]
        exact ⟨cell, same (by simp [Cause.tells, hc, hd])⟩

/-! ## The registry goes with its channel -/

namespace World

/-- The handlers that the registry knows. -/
def handlerIds (w : World) : List Nat := (w.registries.get? 0).elim [] fun cell => cell.entries.map Prod.fst

/-- The services by which the server takes calls. -/
def callServices (w : World) : List String :=
  (w.servicesOn far).filterMap fun s =>
    match s.2 with
    | .requests _ => some s.1
    | _ => none

theorem servicesOn_clearRegistry {c : Nat} (g : Nat) (none : w.servicesOn c = []) :
    (w.clearRegistry g).servicesOn c = [] := by
  unfold clearRegistry
  split
  · exact none
  · suffices ∀ (es : List (Nat × Nat)) (w₁ : World), w₁.servicesOn c = [] →
        (es.foldl (fun acc e => acc.releaseReceiver e.2) w₁).servicesOn c = [] from this _ _ none
    intro es
    induction es with
    | nil => exact fun _ h => h
    | cons e _ ih =>
      intro w₁ none
      rw [List.foldl_cons, releaseReceiver_eq]
      refine ih _ ?_
      show ((w₁.withdrawn e.2).get? c).elim [] (fun ch => ch.core.services) = []
      unfold withdrawn
      split
      · split
        · rw [Table.get?_modify]
          split
          · cases hch : w₁.channels.get? c with
            | none => rfl
            | some ch =>
              rw [servicesOn_eq hch] at none
              simp [ChannelCore.unregister, Assoc.erase, none]
          · exact none
        · exact none
      · exact none

end World

/-- While the server's end of the server channel is open, the registry is to be told of its end. Once it
is closed no service is left there, and when the registry has been told it knows no handler. -/
structure Dismissal (x : Exchange) : Prop where
  hung : x.world.isOpen far = true → ∃ key, (key, .registry 0) ∈ x.world.hooksOn far
  emptied : x.world.isOpen far = false → x.world.servicesOn far = [] ∧
    (.runHook (.registry 0) ∈ x.agenda ∨ x.world.handlerIds = [])

/-- What can still happen at the server's end when that is closed. -/
theorem Advance.far_shut (s : Steady ts x L)
    (v : Advance ts x m L L' κ w' more rest) (shut : x.world.isOpen far = false) :
    FarSame L x.world w' ∨ κ = .action (.runHook (.registry 0)) := by
  obtain ⟨ch, hch⟩ := Table.get?_isSome_of_lt (show far < x.world.channels.size from s.linked)
  have disposed : ch.core.disposed = true := by simpa [isOpen, hch] using shut
  have same : w' = x.world → FarSame L x.world w' := by
    rintro rfl
    exact .of_tables rfl rfl rfl
  by_cases clears : κ = .action (.runHook (.registry 0))
  · exact .inr clears
  refine .inl ?_
  by_cases closes : κ = .action (.closeCore far)
  · subst closes
    have outcome : (w', more) = x.world.closeCore far := v.occurs.outcome
    simp only [closeCore, hch, Option.bind_some, ChannelCore.dispose, disposed, if_true] at outcome
    exact same (Prod.mk.inj outcome).1
  cases tells : κ.tells with
  | false => exact v.farSame s closes clears tells
  | true =>
    obtain ⟨heard, message⟩ := Cause.message_of_tells tells
    obtain rfl := Cause.of_message message
    have outcome : (w', more) = x.world.deliver far heard.1 heard.2 := v.occurs.outcome
    simp only [deliver, hch, Option.bind_some, ChannelCore.handler?, disposed, if_true] at outcome
    exact same (Prod.mk.inj outcome).1

theorem Happening.emptied (hap : Happening L w κ w' more) {c : Nat} (ho : w.isOpen c = true)
    (shut : w'.isOpen c = false) : w'.servicesOn c = [] := by
  obtain ⟨ch, hch, isOpen⟩ := isOpen_eq_true.mp ho
  obtain shape | ⟨c', _, _, none, channel, -, closed⟩ | ⟨_, _, added⟩ := hap.channels
  · cases (shape.isOpen c).symm.trans shut |>.symm.trans ho
  · by_cases hc : c' = c
    · subst hc
      simp [servicesOn, closed, hch, none]
    · have : w'.isOpen c = true := isOpen_eq_true.mpr ⟨ch, by rw [closed, Table.get?_modify_of_ne hc, hch], isOpen⟩
      cases this.symm.trans shut
  · have lt := Table.lt_size_of_get? hch
    have : w'.isOpen c = true := isOpen_eq_true.mpr ⟨ch, by
      rw [added, Table.get?_push_of_lt (by rw [Table.size_push]; omega), Table.get?_push_of_lt lt, hch], isOpen⟩
    cases this.symm.trans shut

theorem Dismissal.step (d : Dismissal x) (s : Steady ts x L) (f : Fastened x.world)
    (v : Advance ts x m L L' κ w' more rest) : Dismissal ⟨w', more ++ rest⟩ := by
  refine ⟨fun ho => ?_, fun shut => ?_⟩
  · obtain ⟨key, entry⟩ := d.hung (v.open_mono s s.linked ho)
    obtain stays | run := f.kept (v.occurs.happening.hookStep s.linked) entry nofun
    · exact ⟨key, stays⟩
    · cases ho.symm.trans (v.regular.registry_shut (v.agenda _ (List.mem_append_left _ run)))
  · cases ho : x.world.isOpen far with
    | true =>
      obtain ⟨_, entry⟩ := d.hung ho
      obtain still | run := v.occurs.happening.run_hooks ho
      · cases still.symm.trans shut
      · exact ⟨v.occurs.happening.emptied ho shut, .inl (List.mem_append_left _ (run _ entry))⟩
    | false =>
      obtain ⟨services, told⟩ := d.emptied ho
      by_cases clears : κ = .action (.runHook (.registry 0))
      · subst clears
        have outcome : (w', more) = x.world.runHook (.registry 0) := v.occurs.outcome
        cases hcell : x.world.registries.get? 0 with
        | none =>
          simp only [runHook, hcell, Option.any_none, Bool.false_eq_true, if_false] at outcome
          obtain ⟨rfl, -⟩ := Prod.mk.inj outcome
          exact ⟨services, .inr (by rw [handlerIds, hcell]; rfl)⟩
        | some cell =>
          have live := (s.regular.orderly.registries 0 cell hcell).live
          simp only [runHook, hcell, Option.any_some, live, if_true] at outcome
          obtain ⟨rfl, -⟩ := Prod.mk.inj outcome
          refine ⟨servicesOn_clearRegistry 0 services, .inr ?_⟩
          obtain ⟨_, _, -, heq⟩ := clearRegistry_eq 0 x.world
          rw [heq, handlerIds, Table.get?_modify_self, hcell]
          rfl
      · have same := (v.far_shut s ho).resolve_right clears
        refine ⟨by rw [servicesOn, same.channel, ← servicesOn, services], told.imp (fun due => ?_) fun none => ?_⟩
        · rw [v.occurs.agenda] at due
          refine List.mem_append_right _ ((List.mem_append.mp due).resolve_left fun taken => clears ?_)
          cases κ with
          | action a => rw [List.mem_singleton.mp taken]
          | _ => exact absurd taken List.not_mem_nil
        · rw [handlerIds, same.registries, ← handlerIds, none]

/-! ## What is on its way -/

/-- What a handler may say. -/
inductive Utterance (h : Nat) : String × Json → Prop
  | greeting (name : String) : Utterance h (greeting h name)
  | question (n : Nat) (call : Call) : Utterance h (question h n call)
  | farewell : Utterance h (farewell h)

variable {message : String × Json}

theorem Utterance.concerns {h' : Nat} (u : Utterance h message) :
    concerns h' message = (h == h') := by
  cases u <;> simp

theorem Exchange.enrol_question {n : Nat} {call : Call} {ids : List Nat} :
    enrol ids (question h n call) = ids :=
  enrol_other (request_ne _ (by decide)) (request_ne _ (by decide))

theorem Utterance.mem_enrol_of_ne {h' : Nat} (u : Utterance h message)
    (other : h ≠ h') (ids : List Nat) : h' ∈ enrol ids message ↔ h' ∈ ids := by
  cases u with
  | question => rw [enrol_question]
  | greeting =>
    grind [Exchange.greeting, enrol_create, Arrival.ofJson?_toJson]
  | farewell =>
    grind [Exchange.farewell, enrol_delete, Departure.ofJson?_toJson]

theorem Exchange.mem_enrol_congr {ids ids' : List Nat} (same : h ∈ ids ↔ h ∈ ids')
    (message : String × Json) : h ∈ enrol ids message ↔ h ∈ enrol ids' message := by
  unfold enrol
  grind

theorem Exchange.mem_roll_filter {messages : List (String × Json)}
    (uttered : ∀ message ∈ messages, ∃ h, Utterance h message) (h : Nat) :
    h ∈ roll messages ↔ h ∈ roll (messages.filter (concerns h)) := by
  induction messages using List.reverseRecOn with
  | nil => exact Iff.rfl
  | append_singleton _ message ih =>
    have before := ih fun m hm => uttered m (List.mem_append_left _ hm)
    obtain ⟨speaker, u⟩ := uttered message (List.mem_append_right _ (.head _))
    rw [roll_concat, List.filter_append]
    by_cases mine : speaker = h
    · rw [List.filter_cons_of_pos (by simp [u.concerns, mine]), List.filter_nil, roll_concat]
      exact mem_enrol_congr before message
    · grind [u.concerns, u.mem_enrol_of_ne]

theorem Exchange.foldl_enrol_questions (h : Nat) (calls : List Call) (ids : List Nat) :
    (questions h calls).foldl enrol ids = ids := by
  induction calls using List.reverseRecOn with
  | nil => rfl
  | append_singleton _ _ ih => 
    rw [questions_concat, List.foldl_append, ih, List.foldl_cons, enrol_question, List.foldl_nil]

theorem Exchange.roll_present (small : h < Json.idLimit) (name : String) (calls : List Call) :
    roll (greeting h name :: questions h calls) = [h] := by
  rw [roll, List.foldl_cons, foldl_enrol_questions, greeting, enrol_create, Arrival.ofJson?_toJson,
    if_pos small]
  rfl

theorem Exchange.roll_departed (small : h < Json.idLimit) (name : String) (calls : List Call) :
    roll (greeting h name :: (questions h calls ++ [farewell h])) = [] := by
  rw [← List.cons_append, roll_concat, roll_present small, farewell, enrol_delete,
    Departure.ofJson?_toJson, if_pos small]
  simp

/-! ## Who has introduced himself -/

theorem Said.uttered {calls : List Call} (said : Said ts w h calls)
    (mem : message ∈ saidBy ts h) : Utterance h message := by
  have asked : ∀ message ∈ questions h calls, Utterance h message := by
    intro message mem
    obtain ⟨n, _, rfl⟩ := List.mem_mapIdx.mp mem
    exact .question n _
  cases said with
  | silent _ said => exact absurd (said ▸ mem) List.not_mem_nil
  | present name _ _ _ _ said =>
    rw [said] at mem
    rcases List.mem_cons.mp mem with rfl | mem
    · exact .greeting name
    · exact asked _ mem
  | departed name _ said =>
    rw [said] at mem
    rcases List.mem_cons.mp mem with rfl | mem
    · exact .greeting name
    · rcases List.mem_append.mp mem with mem | mem
      · exact asked _ mem
      · obtain rfl := List.mem_singleton.mp mem
        exact .farewell

/-- While the server channel is open, whoever is gone after having said something has taken his leave. -/
theorem Said.leaves {calls : List Call} {out : List (String × Json)}
    (said : Said ts x.world h calls) {y : Exchange} (side : NearSide x.world y.world κ out)
    (isOpen : x.world.isOpen near = true)
    (before : x.world.standing h = some .gone → saidBy ts h ≠ [] → LeftOpenly ts h)
    (gone : y.world.standing h = some .gone) (spoke : saidBy (ts ++ [⟨x, m, y⟩]) h ≠ []) :
    LeftOpenly (ts ++ [⟨x, m, y⟩]) h := by
  have grown : saidBy (ts ++ [⟨x, m, y⟩]) h = saidBy ts h ++ out.filter (concerns h) := by
    rw [saidBy_append, side.sent rfl]
  have conduct := side.conduct h
  generalize out.filter (concerns h) = mine at conduct grown
  rw [grown] at spoke
  cases conduct with
  | same eq =>
    rw [List.append_nil] at spoke
    exact (before (eq ▸ gone) spoke).mono _
  | stranded closed => cases isOpen.symm.trans closed
  | made fresh =>
    rw [List.append_nil] at spoke
    cases said with
    | silent _ silence => exact absurd silence spoke
    | present _ _ standing | departed _ standing => cases fresh.symm.trans standing
  | announced _ _ _ after | posted _ _ _ after => cases gone.symm.trans after
  | @left _ _ _ before here after _ =>
    cases said with
    | silent =>
      grind
    | departed _ standing => exact absurd (Option.some.inj (before.symm.trans standing)) here
    | present name _ _ _ _ words =>
      have greeted : greeting h name ∈ sentOn ts near :=
        (List.mem_filter.mp (words ▸ (.head _) : greeting h name ∈ saidBy ts h)).1
      exact ⟨ts, _, [], rfl, ⟨name, greeted⟩, closes_iff.mpr ⟨_, before, here, after⟩, isOpen⟩

/-! ## Runs -/

theorem Enrolled.handlerIds (e : Enrolled w cell ids) : w.handlerIds = ids := by
  simp [World.handlerIds, e.registry, e.ids]

theorem Enrolled.callServices (e : Enrolled w cell ids) :
    w.callServices = ids.map fun h => request (callFunction h) := by
  rw [World.callServices, e.services, ← e.ids]
  simp [callService, List.filterMap_map, Function.comp_def]

theorem Dismissal.opening (serve : Serving) : Dismissal (opening serve) := by
  refine ⟨fun _ => ⟨0, ?_⟩, fun shut => ?_⟩ <;> rw [opening_eq] at *
  · exact .head _
  · cases shut

theorem Enrolled.opening (serve : Serving) :
    Enrolled (opening serve).world { channel := far, backend := 0 } [] :=
  opening_eq serve ▸ ⟨rfl, rfl, rfl, List.forall_mem_nil _⟩

/-- What is known of the registry and of what the handlers have said. -/
structure Acquainted (ts : List Transition) (x : Exchange) (L : Ledger) : Prop where
  dismissal : Dismissal x
  enrolled : x.world.isOpen far = true → ∃ cell, Enrolled x.world cell (roll (handedTo ts far))
  spoken : Spoken ts x L
  spoke : ∀ message ∈ sentOn ts near, ∃ h, concerns h message = true
  leaves : x.world.isOpen near = true → ∀ h, x.world.standing h = some .gone → saidBy ts h ≠ [] →
    LeftOpenly ts h

namespace Acquainted

theorem opening (serve : Serving) : Acquainted [] (opening serve) .blank where
  dismissal := .opening serve
  enrolled _ := ⟨_, .opening serve⟩
  spoken := .opening serve
  spoke := nofun
  leaves _ _ _ spoke := absurd rfl spoke

theorem step (a : Acquainted ts x L) (s : Steady ts x L) (f : Fastened x.world)
    (v : Advance ts x m L L' κ w' more rest) :
    Acquainted (ts ++ [x.transition m]) ⟨w', more ++ rest⟩ L' := by
  have world : (x.step m).world = w' := by rw [v.occurs.after]
  obtain ⟨_, side⟩ := v.nearSide s
  refine ⟨a.dismissal.step s f v, fun ho => ?_, a.spoken.step s v, fun message mem => ?_, fun ho h gone spoke => ?_⟩
  · obtain ⟨_, e⟩ := a.enrolled (v.open_mono s s.linked ho)
    exact s.enrolled_step e v ho
  · rw [sentOn_append, side.sent world] at mem
    rcases List.mem_append.mp mem with old | new
    · exact a.spoke message old
    · exact side.bears message new
  · obtain ⟨_, said, -⟩ := a.spoken h
    have isOpen := v.near_mono s ho
    exact said.leaves (world ▸ side) isOpen (a.leaves isOpen h) (world ▸ gone) spoke

end Acquainted

theorem Acquainted.mem_roll_iff (a : Acquainted ts x L) (s : Steady ts x L)
    (isOpen : x.world.isOpen near = true) (arrived : x.transit near = [])
    (small : x.world.serverHandlers.size ≤ Json.idLimit) (h : Nat) :
    h ∈ roll (handedTo ts far) ↔ (∃ name, greeting h name ∈ sentOn ts near) ∧
      ∃ cell, x.world.serverHandlers.get? h = some cell ∧ cell.disposed = false := by
  have all : handedTo ts far = sentOn ts near := by
    rw [s.delivery.balance near, arrived, List.append_nil]
    rfl
  have uttered : ∀ message ∈ sentOn ts near, ∃ h, Utterance h message := fun message mem => by
    obtain ⟨h, mine⟩ := a.spoke message mem
    obtain ⟨_, said, -⟩ := a.spoken h
    exact ⟨h, said.uttered (List.mem_filter.mpr ⟨mem, mine⟩)⟩
  have greeted : (∃ name, greeting h name ∈ sentOn ts near) ↔ ∃ name, greeting h name ∈ saidBy ts h := by
    simp [saidBy]
  have bounded : ∀ {s : Standing}, x.world.standing h = some s → h < Json.idLimit := fun hs => by
    obtain ⟨cell, hcell, -⟩ := Option.map_eq_some_iff.mp hs
    exact Nat.lt_of_lt_of_le (Table.lt_size_of_get? hcell) small
  rw [all, mem_roll_filter uttered h, greeted, ← saidBy]
  obtain ⟨_, said, -⟩ := a.spoken h
  cases said with
  | silent _ said => simp [said, roll]
  | present name st standing _ _ said stayed =>
    obtain ⟨cell, hcell, hst⟩ := Option.map_eq_some_iff.mp standing
    have undisposed : cell.disposed = false := by
      cases hd : cell.disposed with
      | false => rfl
      | true =>
        have gone : st = .gone := hst.symm.trans (standingOf_eq_gone.mpr hd)
        exact absurd (a.leaves isOpen h (gone ▸ standing) (by simp [said])) stayed
    rw [said, roll_present (bounded standing)]
    simp only [List.mem_singleton, true_iff]
    exact ⟨⟨name, .head _⟩, cell, hcell, undisposed⟩
  | departed _ standing said =>
    obtain ⟨cell, hcell, hst⟩ := Option.map_eq_some_iff.mp standing
    have disposed : cell.disposed = true := standingOf_eq_gone.mp hst
    rw [said, roll_departed (bounded standing)]
    simp [hcell, disposed]

theorem acquainted_run (serve : Serving) (ms : List Move) :
    ∃ L, Steady ((opening serve).trace ms) ((opening serve).run ms) L ∧
      Acquainted ((opening serve).trace ms) ((opening serve).run ms) L ∧ Collapse ((opening serve).run ms) L :=
  steady_induction (A := fun _ => True) (P := fun ts x L => Acquainted ts x L ∧ Collapse x L)
    ⟨.opening serve, .opening serve⟩
    (fun _ _ _ _ _ _ _ _ _ s ⟨a, c⟩ _ v => ⟨a.step s c.fastened v, c.step s v⟩) ms fun _ _ => trivial

/-- While the server's end of the server channel is open, the handlers that the registry knows and the
services for calls there result from the introductions and leaves that were handed over. When nothing is
on its way from the handlers, these are the handlers that have introduced themselves and are not closed.
Once that end is closed there are no services for calls, and the registry, as soon as it is told of it,
knows no handler. -/
theorem registry_agrees (serve : Serving) (ms : List Move) :
    let x := (opening serve).run ms
    let ts := (opening serve).trace ms
    (x.world.isOpen far = true →
      x.world.handlerIds = roll (handedTo ts far) ∧
      x.world.callServices =
        (roll (handedTo ts far)).map (fun h => request (callFunction h)) ∧
      (x.world.isOpen near = true → x.transit near = [] → x.world.serverHandlers.size ≤ Json.idLimit →
        x.world.handlerIds.Nodup ∧
        (∀ h, h ∈ x.world.handlerIds ↔ (∃ name, greeting h name ∈ sentOn ts near) ∧
          ∃ cell, x.world.serverHandlers.get? h = some cell ∧ cell.disposed = false) ∧
        (x.agenda = [] → ∀ k cell, x.world.clientHandlers.get? k = some cell →
          (cell.serverHandler ∈ x.world.handlerIds ↔
            (∃ name, greeting cell.serverHandler name ∈ sentOn ts near) ∧ cell.disposed = false)))) ∧
    (x.world.isOpen far = false →
      x.world.callServices = [] ∧ (.runHook (.registry 0) ∈ x.agenda ∨ x.world.handlerIds = [])) := by
  obtain ⟨_, s, a, c⟩ := acquainted_run serve ms
  refine ⟨fun isOpen => ?_, fun shut => ?_⟩
  · obtain ⟨cell, e⟩ := a.enrolled isOpen
    refine ⟨e.handlerIds, e.callServices, fun near_open arrived small => ?_⟩
    have known := a.mem_roll_iff s near_open arrived small
    rw [e.handlerIds]
    refine ⟨nodup_roll _, known, fun idle k client hclient => (known _).trans (and_congr_right fun _ => ?_)⟩
    obtain ⟨ρ, hρ, ok⟩ := s.regular.orderly.clients k client hclient
    obtain ⟨handler, hhandler⟩ := Table.get?_isSome_of_lt (s.has_client hρ).2.1
    obtain ⟨_, -⟩ := c.closed_iff idle hρ
    have client_gone : ((opening serve).run ms).world.gone (.client k) = client.disposed := by
      simp [gone, hclient]
    have handler_gone : ((opening serve).run ms).world.gone (.handler ρ.handler) = handler.disposed := by
      simp [gone, hhandler]
    grind [ok.handler]
  · obtain ⟨services, told⟩ := a.dismissal.emptied shut
    exact ⟨by rw [callServices, services]; rfl, told⟩

/-- Calls are let through, and all that is on its way to the server is handed over. -/
def introduction : List Move := passage ++ .poll 0 :: List.replicate 9 .proceed

/-- The registry knows the one handler that has introduced itself. -/
theorem registry_agrees_introduction :
    ((opening oblige).run introduction).world.handlerIds = [0] ∧
    ((opening oblige).run introduction).world.callServices =
      [request (callFunction 0)] ∧
    (∃ name, greeting 0 name ∈
      sentOn ((opening oblige).trace introduction) near) ∧
    ∃ cell, ((opening oblige).run introduction).world.serverHandlers.get? 0 =
      some cell ∧ cell.disposed = false := by
  have isOpen : ((opening oblige).run introduction).world.isOpen far = true := by
    decide +kernel
  obtain ⟨ids, services, agree⟩ := (registry_agrees oblige introduction).1 isOpen
  have known : ((opening oblige).run introduction).world.handlerIds = [0] := by
    decide +kernel
  obtain ⟨-, members, -⟩ := agree (by decide +kernel) (List.isEmpty_iff.mp (by decide +kernel)) (by decide +kernel)
  obtain ⟨greeted, handler⟩ := (members 0).mp (known ▸ List.mem_singleton.mpr rfl)
  refine ⟨known, ?_, greeted, handler⟩
  rw [services, ← ids, known]
  rfl

/-- With its channel the registry loses the handler that has introduced itself: it is not what the messages
handed over have made of it. -/
theorem registry_forgets_with_channel :
    let ms := introduction ++ .close near :: List.replicate 24 .proceed
    let x := (opening oblige).run ms
    let ts := (opening oblige).trace ms
    roll (handedTo ts far) = [0] ∧ x.world.handlerIds = [] ∧ x.world.callServices = [] := by
  decide +kernel

end Switchboard
