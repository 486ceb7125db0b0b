import Switchboard.Number.Double

/-!
# JSON values

Integers and floating-point numbers are different values: `1` is an integer and `1.0` is not. An
object is a list of fields in increasing order of their keys, without repetition; `Json.object` puts
any list of fields into that form, and of two fields with one key the later one counts.
-/

namespace Switchboard

attribute [local instance (high)] instPowNat

inductive Json where
  | null
  | bool (b : Bool)
  | int (i : Int)
  | float (d : Double)
  | str (s : String)
  | arr (items : List Json)
  | obj (fields : List (String × Json))
deriving BEq, Inhabited

namespace Json

def setField (key : String) (value : Json) : List (String × Json) → List (String × Json)
  | [] => [(key, value)]
  | (k, v) :: rest =>
    if key < k then (key, value) :: (k, v) :: rest
    else if key = k then (key, value) :: rest
    else (k, v) :: setField key value rest

def sortFields (fields : List (String × Json)) : List (String × Json) :=
  fields.foldl (fun acc f => setField f.1 f.2 acc) []

def object (fields : List (String × Json)) : Json := .obj (sortFields fields)

def field? (key : String) : Json → Option Json
  | .obj fields => fields.lookup key
  | _ => none

def idLimit : Nat := 2 ^ (64 : Nat)

def asId? : Json → Option Nat
  | .int i => if 0 ≤ i && i < idLimit then some i.toNat else none
  | _ => none

def asBool? : Json → Option Bool
  | .bool b => some b
  | _ => none

def asStr? : Json → Option String
  | .str s => some s
  | _ => none

def asArr? : Json → Option (List Json)
  | .arr items => some items
  | _ => none

def ofNat (n : Nat) : Json := .int n

def ofDouble (d : Double) : Json := if d.isFinite then .float d else .null

def asDouble? : Json → Option Double
  | .int i => some (Double.ofInt i)
  | .float d => some d
  | _ => none

end Json

end Switchboard
