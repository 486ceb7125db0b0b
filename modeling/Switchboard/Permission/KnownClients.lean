import Switchboard.Assoc
import Switchboard.Fault
import Switchboard.Json.Parser
import Switchboard.Json.Printer
import Switchboard.Origin
import Switchboard.Text.Quoted

/-!
# Known clients

The operator may describe clients by origin: a name to show, and whether they are let in without
asking. The description is a JSON object keyed by origin, or by a bare extension identifier, whose
entries are objects with a `name` and an optional `autoapprove`, or lists of these two.

Entries are checked in the order of their keys and the first unfit one is reported.
-/

namespace Switchboard

/-- What the operator says about a client. -/
structure KnownClient where
  name : String
  autoapprove : Bool
deriving DecidableEq, Repr, Inhabited

structure KnownClients where
  clients : List (String × KnownClient) := []
deriving Inhabited

namespace KnownClient

def describe : Json → String
  | .null => "null"
  | .bool b => s!"boolean `{b}`"
  | .int i => s!"integer `{i}`"
  | .float d => s!"floating point `{Json.doubleText d}`"
  | .str s => "string " ++ Text.quoted s
  | .arr _ => "sequence"
  | .obj _ => "map"

def wrongType (found : Json) (expected : String) : String :=
  s!"invalid type: {describe found}, expected {expected}"

def readName : Json → Except String String
  | .str s => .ok s
  | v => .error (wrongType v "a string")

def readFlag : Json → Except String Bool
  | .bool b => .ok b
  | v => .error (wrongType v "a boolean")

def ofItems (items : List Json) : Except String KnownClient :=
  match items with
  | [] => .error "invalid length 0, expected struct TrustedClientInfo with 2 elements"
  | [name] => return ⟨← readName name, false⟩
  | name :: flag :: rest => do
    let name ← readName name
    let flag ← readFlag flag
    if rest.isEmpty then return ⟨name, flag⟩
    else .error s!"invalid length {items.length}, expected fewer elements in array"

def ofFields : List (String × Json) → Option String → Bool → Except String KnownClient
  | [], some name, flag => .ok ⟨name, flag⟩
  | [], none, _ => .error "missing field `name`"
  | (key, v) :: rest, name, flag =>
    if key == "name" then
      match readName v with
      | .ok n => ofFields rest (some n) flag
      | .error e => .error e
    else if key == "autoapprove" then
      match readFlag v with
      | .ok b => ofFields rest name b
      | .error e => .error e
    else ofFields rest name flag

def ofJson : Json → Except String KnownClient
  | .arr items => ofItems items
  | .obj fields => ofFields fields none false
  | v => .error (wrongType v "struct TrustedClientInfo")

end KnownClient

namespace KnownClients

/-- Add a client; a bare extension identifier becomes the extension's origin. -/
def insert (r : KnownClients) (identifier : String) (client : KnownClient) : KnownClients :=
  ⟨Assoc.set (Origin.normalize identifier) client r.clients⟩

/-- The clients of a list of entries taken in this order; the later of two entries that mean one
origin counts. -/
def ofEntries (entries : List (String × KnownClient)) : KnownClients :=
  entries.foldl (fun r e => r.insert e.1 e.2) {}

def find? (r : KnownClients) (origin : String) : Option KnownClient := r.clients.lookup origin

def size (r : KnownClients) : Nat := r.clients.length

def readEntries : List (String × Json) → Except String (List (String × KnownClient))
  | [] => .ok []
  | (key, v) :: rest => do
    let client ← KnownClient.ofJson v
    let others ← readEntries rest
    return (key, client) :: others

def ofJson (v : Json) : Except Fault KnownClients :=
  let entries : Except String (List (String × KnownClient)) :=
    match v with
    | .obj fields => readEntries fields
    | v => .error (KnownClient.wrongType v "a map")
  match entries with
  | .ok es => .ok (ofEntries es)
  | .error e => .error (.config s!"invalid trusted clients list: {e}")

def ofText (text : String) : Except Fault KnownClients :=
  match Json.parse text with
  | .ok v => ofJson v
  | .error e => .error (.json e.message)

end KnownClients

end Switchboard
