import Switchboard.Message.Record
import Switchboard.Json.Printer

/-!
# Envelopes

A message on a byte stream names the service it is meant for and carries the payload.
-/

namespace Switchboard

/-- A payload addressed to a service. -/
structure Envelope where
  service : String
  data : Json
deriving BEq, Inhabited

namespace Envelope

def toJson (m : Envelope) : Json := .object [("type", .str m.service), ("data", m.data)]

def ofJson? (v : Json) : Option Envelope :=
  match Message.pair? "type" "data" v with
  | some (.str service, data) => if service.isEmpty then none else some ⟨service, data⟩
  | _ => none

def text (m : Envelope) : String :=
  Json.render (.obj [("type", .str m.service), ("data", m.data)])

end Envelope

end Switchboard
