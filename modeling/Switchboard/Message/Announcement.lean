import Switchboard.Message.Record
import Switchboard.Json.Printer
import Switchboard.Service

/-!
# Announcements

A client handler announces itself to the server with its number and the client's name, and later
takes its leave by number.
-/

namespace Switchboard

/-- A client handler introduces itself. -/
structure Arrival where
  handler : Nat
  clientName : String
deriving DecidableEq, Inhabited

namespace Arrival

def toJson (m : Arrival) : Json :=
  .object [(Key.handlerId, .ofNat m.handler), (Key.clientName, .str m.clientName)]

def ofJson? (v : Json) : Option Arrival :=
  match Message.pair? Key.handlerId Key.clientName v with
  | some (id, .str name) => id.asId?.map fun n => ⟨n, name⟩
  | _ => none

def text (m : Arrival) : String :=
  Json.render (.obj [(Key.handlerId, .ofNat m.handler), (Key.clientName, .str m.clientName)])

end Arrival

/-- A client handler takes its leave. -/
structure Departure where
  handler : Nat
deriving DecidableEq, Inhabited

namespace Departure

def toJson (m : Departure) : Json := .object [(Key.handlerId, .ofNat m.handler)]

def ofJson? (v : Json) : Option Departure :=
  match Message.single? Key.handlerId v with
  | some id => id.asId?.map fun n => ⟨n⟩
  | none => none

def text (m : Departure) : String := Json.render (.obj [(Key.handlerId, .ofNat m.handler)])

end Departure

end Switchboard
