import Switchboard.Json.Basic

/-!
# Records on the wire

A record with named parts travels as an object that has exactly these names as keys. It is also read
from a list that holds exactly the parts, in the order in which the record declares them.
-/

namespace Switchboard

namespace Message

def pair? (a b : String) : Json → Option (Json × Json)
  | .obj fields =>
    if fields.length = 2 then
      match fields.lookup a, fields.lookup b with
      | some x, some y => some (x, y)
      | _, _ => none
    else none
  | .arr [x, y] => some (x, y)
  | _ => none

def single? (a : String) : Json → Option Json
  | .obj [(k, x)] => if k = a then some x else none
  | .arr [x] => some x
  | _ => none

end Message

end Switchboard
