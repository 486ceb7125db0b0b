import Switchboard.Message.Record
import Switchboard.Json.Printer

/-!
# Requests and responses

A request carries a number that its response repeats. A response reports success with a value or
failure with a text; the status may be given by its name or by its place among the two.
-/

namespace Switchboard

structure Request where
  id : Nat
  payload : Json
deriving BEq, Inhabited

namespace Request

def toJson (m : Request) : Json := .object [("request_id", .ofNat m.id), ("payload", m.payload)]

def ofJson? (v : Json) : Option Request :=
  match Message.pair? "request_id" "payload" v with
  | some (id, payload) => id.asId?.map fun n => ⟨n, payload⟩
  | none => none

def text (m : Request) : String :=
  Json.render (.obj [("request_id", .ofNat m.id), ("payload", m.payload)])

end Request

/-- The answer to a request: a value, or the text of a failure. -/
structure Response where
  id : Nat
  outcome : Except String Json
deriving Inhabited

namespace Response

def parts (m : Response) : List (String × Json) :=
  match m.outcome with
  | .ok value => [("request_id", .ofNat m.id), ("status", .str "ok"), ("value", value)]
  | .error error => [("request_id", .ofNat m.id), ("status", .str "error"), ("error", .str error)]

def toJson (m : Response) : Json := .object m.parts

def text (m : Response) : String := Json.render (.obj m.parts)

def status? : Json → Option Bool
  | .str "ok" => some true
  | .str "error" => some false
  | .int 0 => some true
  | .int 1 => some false
  | _ => none

def ofJson? (v : Json) : Option Response :=
  match v.field? "request_id", v.field? "status" with
  | some id, some status =>
    match id.asId?, status? status with
    | some n, some true => (v.field? "value").map fun value => ⟨n, .ok value⟩
    | some n, some false =>
      match v.field? "error" with
      | some (.str error) => some ⟨n, .error error⟩
      | _ => none
    | _, _ => none
  | _, _ => none

end Response

end Switchboard
