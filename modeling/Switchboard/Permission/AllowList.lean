import Switchboard.Fault
import Switchboard.Json.Parser
import Switchboard.Origin

/-!
# The allow-list

An administrator's list of origins that are let in without asking. It may not have been loaded yet
when the first client comes, and it may be replaced later. A load that fails changes nothing once a
list has been loaded; before that it makes the list unavailable.
-/

namespace Switchboard

/-- The state of the administrator's list. The origins are sorted and without repetition. -/
inductive AllowList where
  | loading
  | loaded (origins : List String)
  | unavailable
deriving DecidableEq, Repr, Inhabited

namespace AllowList

def insertOrigin (origin : String) : List String → List String
  | [] => [origin]
  | o :: rest =>
    if origin < o then origin :: o :: rest
    else if origin = o then o :: rest
    else o :: insertOrigin origin rest

def ofIdentifiers (identifiers : List String) : AllowList :=
  .loaded (identifiers.foldl (fun acc i => insertOrigin (Origin.normalize i) acc) [])

def contains (l : AllowList) (origin : String) : Bool :=
  match l with
  | .loaded origins => origins.contains origin
  | _ => false

/-- Record that the list could not be loaded. A list that was loaded stays in force. -/
def markUnavailable : AllowList → AllowList
  | .loading => .unavailable
  | l => l

def strings? : List Json → Option (List String)
  | [] => some []
  | .str s :: rest => (strings? rest).map (s :: ·)
  | _ :: _ => none

def ofJson (v : Json) : Except Fault AllowList :=
  match v with
  | .arr items =>
    match strings? items with
    | some identifiers => .ok (ofIdentifiers identifiers)
    | none => .error (.config "allow-list entries must be strings")
  | _ => .error (.config "the allow-list must be a JSON array")

def missingFile : Fault := .io "No such file or directory (os error 2)"

def ofFile (content : Except Fault String) : Except Fault AllowList :=
  match content with
  | .error e => .error e
  | .ok text =>
    match Json.parse text with
    | .error e => .error (.json e.message)
    | .ok v => ofJson v

def loadJson (l : AllowList) (v : Json) : AllowList × Except Fault Unit :=
  match ofJson v with
  | .ok new => (new, .ok ())
  | .error e => (l, .error e)

def loadFile (l : AllowList) (content : Except Fault String) : AllowList × Except Fault Unit :=
  match ofFile content with
  | .ok new => (new, .ok ())
  | .error e => (l.markUnavailable, .error e)

end AllowList

end Switchboard
