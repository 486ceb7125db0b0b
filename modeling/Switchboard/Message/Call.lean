import Switchboard.Message.Record
import Switchboard.Json.Printer

/-!
# Remote calls

What a client wants from the server: a function by name, with its arguments in order.
-/

namespace Switchboard

/-- A function to be called on the server. -/
structure Call where
  function : String
  arguments : List Json
deriving BEq, Inhabited

namespace Call

def toJson (c : Call) : Json :=
  .object [("function_name", .str c.function), ("arguments", .arr c.arguments)]

def ofJson? (v : Json) : Option Call :=
  match Message.pair? "function_name" "arguments" v with
  | some (.str function, .arr arguments) => some ⟨function, arguments⟩
  | _ => none

def text (c : Call) : String :=
  Json.render (.obj [("function_name", .str c.function), ("arguments", .arr c.arguments)])

def describe (c : Call) : String :=
  c.function ++ "(" ++ Json.joinWith ", " (c.arguments.map Json.render) ++ ")"

end Call

end Switchboard
