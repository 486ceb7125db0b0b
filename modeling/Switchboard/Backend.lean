import Switchboard.Fault
import Switchboard.Message.Call

/-!
# The demonstration server

A server with a handful of functions: `echo` returns its arguments, `add` their sum, `fail` fails with
a given text, and `list_clients` names the clients that are connected.
-/

namespace Switchboard

/-- The server knows the clients that have been announced to it, by number. -/
structure Backend where
  clients : List (Nat × String) := []
deriving DecidableEq, Inhabited

namespace Backend

def setClient (id : Nat) (name : String) : List (Nat × String) → List (Nat × String)
  | [] => [(id, name)]
  | (i, n) :: rest =>
    if id < i then (id, name) :: (i, n) :: rest
    else if id = i then (id, name) :: rest
    else (i, n) :: setClient id name rest

def created (b : Backend) (id : Nat) (name : String) : Backend := ⟨setClient id name b.clients⟩

def deleted (b : Backend) (id : Nat) : Backend := ⟨b.clients.filter fun c => c.1 != id⟩

def sum : Double → List Json → Except Fault Double
  | acc, [] => .ok acc
  | acc, v :: rest =>
    match v.asDouble? with
    | some x => sum (acc.add x) rest
    | none => .error (.remote s!"add: expected a number, got {v.render}")

def failureText : List Json → String
  | .str text :: _ => text
  | _ => "failed on request"

def dispatch (b : Backend) (call : Call) : Except Fault Json :=
  match call.function with
  | "echo" => .ok (.arr call.arguments)
  | "add" => (sum (Double.ofNat 0) call.arguments).map Json.ofDouble
  | "fail" => .error (.remote (failureText call.arguments))
  | "list_clients" => .ok (.object (b.clients.map fun c => (toString c.1, .str c.2)))
  | other => .error (.remote s!"unknown function: {other}")

end Backend

end Switchboard
