import Switchboard.Message.Announcement
import Switchboard.Message.Call
import Switchboard.Message.Request

/-!
# What announcements are written as

An announcement is read back from the value it is written as, provided its number is one that the
format admits (below `Json.idLimit`); one with a larger number is not read at all.
-/

namespace Switchboard

theorem Json.asId?_ofNat (n : Nat) :
    (Json.ofNat n).asId? = if n < Json.idLimit then some n else none := by
  simp [Json.ofNat, Json.asId?]

/-- Two fields in the other order. -/
theorem Json.object_pair_of_gt {a b : String} (h : b < a) (x y : Json) :
    Json.object [(a, x), (b, y)] = .obj [(b, y), (a, x)] := by
  simp [Json.object, Json.sortFields, Json.setField, h]

theorem Response.toJson_ok (n : Nat) (v : Json) :
    (Response.mk n (.ok v)).toJson =
      .obj [("request_id", .ofNat n), ("status", .str "ok"), ("value", v)] := by
  have h₁ : ¬ "status" < "request_id" := by decide
  have h₂ : ¬ "value" < "request_id" := by decide
  have h₃ : ¬ "value" < "status" := by decide
  simp [Response.toJson, Response.parts, Json.object, Json.sortFields, Json.setField, h₁, h₂, h₃]

theorem Response.toJson_error (n : Nat) (e : String) :
    (Response.mk n (.error e)).toJson =
      .obj [("error", .str e), ("request_id", .ofNat n), ("status", .str "error")] := by
  have h₁ : ¬ "status" < "request_id" := by decide
  have h₂ : "error" < "request_id" := by decide
  simp [Response.toJson, Response.parts, Json.object, Json.sortFields, Json.setField, h₁, h₂]

theorem Arrival.toJson_eq (m : Arrival) :
    m.toJson = .obj [(Key.clientName, .str m.clientName), (Key.handlerId, .ofNat m.handler)] :=
  Json.object_pair_of_gt (by decide) _ _

theorem Arrival.ofJson?_toJson (m : Arrival) :
    Arrival.ofJson? m.toJson = if m.handler < Json.idLimit then some m else none := by
  simp [Arrival.toJson_eq, Arrival.ofJson?, Message.pair?, List.lookup_cons, Json.asId?_ofNat,
    Key.clientName, Key.handlerId]

theorem Departure.toJson_eq (m : Departure) :
    m.toJson = .obj [(Key.handlerId, .ofNat m.handler)] := rfl

theorem Departure.ofJson?_toJson (m : Departure) :
    Departure.ofJson? m.toJson = if m.handler < Json.idLimit then some m else none := by
  simp [Departure.toJson_eq, Departure.ofJson?, Message.single?, Json.asId?_ofNat]

end Switchboard
