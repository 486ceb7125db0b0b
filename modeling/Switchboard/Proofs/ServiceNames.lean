import Std.Data.String.ToNat
import Switchboard.Service

/-!
# Service names do not collide

The service names of requesters end in `::request` or `::response`, which keeps the two directions
apart and gives the requester's name back. The requester of a handler bears the handler's number in
decimal, which gives the number back. The fixed names have neither ending.
-/

namespace Switchboard

namespace Service

theorem request_injective {x y : String} (h : request x = request y) : x = y :=
  (String.append_left_inj _).mp h

theorem response_injective {x y : String} (h : response x = response y) : x = y :=
  (String.append_left_inj _).mp h

/-- A name that does not end in `t` is no request service. -/
theorem request_ne (x : String) {name : String} (h : name.toList.getLast? ≠ some 't') :
    request x ≠ name := by
  rintro rfl
  simp [request, String.toList_append] at h

/-- A name that does not end in `e` is no response service. -/
theorem response_ne (x : String) {name : String} (h : name.toList.getLast? ≠ some 'e') :
    response x ≠ name := by
  rintro rfl
  simp [response, String.toList_append] at h

theorem callFunction_injective {a b : Nat} (h : callFunction a = callFunction b) : a = b := by
  exact Nat.repr_injective ((String.append_right_inj _).mp ((String.append_left_inj _).mp h))

/-- The two ways of the messages between a requester and its receiver. -/
inductive Direction where
  | request
  | response
deriving DecidableEq, Repr

def Direction.service : Direction → String → String
  | .request => Service.request
  | .response => Service.response

/-- The services that no name is part of. -/
def fixedNames : List String := [ping, pong, serverReady, createHandler, deleteHandler]

theorem service_eq_iff {d d' : Direction} {x y : String} : d.service x = d'.service y ↔ d = d' ∧ x = y := by
  have apart (x y : String) : request x ≠ response y := request_ne x (by simp [response, String.toList_append])
  cases d <;> cases d'
  · exact ⟨fun h => ⟨rfl, request_injective h⟩, fun h => congrArg request h.2⟩
  · exact ⟨fun h => absurd h (apart x y), nofun⟩
  · exact ⟨fun h => absurd h.symm (apart y x), nofun⟩
  · exact ⟨fun h => ⟨rfl, response_injective h⟩, fun h => congrArg response h.2⟩

theorem service_notMem_fixedNames (d : Direction) (x : String) : d.service x ∉ fixedNames := by
  have endings : ∀ name ∈ fixedNames, name.toList.getLast? ≠ some 't' ∧ name.toList.getLast? ≠ some 'e' := by
    decide
  intro fixed
  obtain ⟨noRequest, noResponse⟩ := endings _ fixed
  cases d with
  | request => exact request_ne x noRequest rfl
  | response => exact response_ne x noResponse rfl

theorem callFunction_ne_clientRequester (a : Nat) : callFunction a ≠ clientRequester := by
  intro h
  have last := congrArg (fun name => name.toList.getLast?) h
  simp only [callFunction, String.toList_append, List.getLast?_append] at last
  exact absurd (show some 'n' = some 't' from last) (by decide)

/-- No two of the names that meet on a channel are the same. -/
theorem names_do_not_collide :
    (∀ (d d' : Direction) (a b : Nat),
      d.service (callFunction a) = d'.service (callFunction b) ↔ d = d' ∧ a = b) ∧
    (∀ (d d' : Direction) (a : Nat), d.service (callFunction a) ≠ d'.service clientRequester) ∧
    (∀ (d : Direction) (a : Nat), d.service (callFunction a) ∉ fixedNames) ∧
    ∀ (d d' : Direction) (x y : String), d.service x = d'.service y ↔ d = d' ∧ x = y := by
  refine ⟨fun d d' a b => ?_, fun d d' a h => ?_, fun d a => service_notMem_fixedNames d _, fun _ _ _ _ => service_eq_iff⟩
  · rw [service_eq_iff]
    exact and_congr_right fun _ => ⟨callFunction_injective, congrArg callFunction⟩
  · exact callFunction_ne_clientRequester a (service_eq_iff.mp h).2

end Service

end Switchboard
