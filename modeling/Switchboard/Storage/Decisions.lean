import Switchboard.Fault
import Switchboard.Json.Parser
import Switchboard.Json.Printer
import Switchboard.Origin
import Switchboard.Storage.Tree

/-!
# Stored decisions

The user's decisions are kept as a JSON object from origins to truth values, in memory or in a file.
Only grants are ever added. Adding one to a file keeps all other entries as they are, also those that
are no decisions; a file that holds no object is put aside first. The new content is written beside
the file and then put in its place, so that the file is never seen half written.
-/

namespace Switchboard

abbrev Decisions := List (String × Bool)

namespace Decisions

/-- Decisions with the origins that the identifiers mean; the later of two for one origin counts. -/
def ofEntries (entries : List (String × Bool)) : Decisions :=
  entries.foldl (fun acc d => Assoc.set (Origin.normalize d.1) d.2 acc) []

def grant (d : Decisions) (origin : String) : Decisions := Assoc.set origin true d

def ofFields (fields : List (String × Json)) : Decisions :=
  ofEntries (fields.filterMap fun f => f.2.asBool?.map fun b => (f.1, b))

end Decisions

/-- A file of decisions. The number of the process goes into the names of temporary files. -/
structure DecisionFile where
  path : String
  process : String
deriving DecidableEq, Repr, Inhabited

namespace DecisionFile

/-! ## Names -/

def temporary (f : DecisionFile) : String := Path.withEnding f.path s!"json.{f.process}.tmp"

def aside (f : DecisionFile) : String := f.path ++ ".corrupted"

/-! ## Reading -/

def unreadable (f : DecisionFile) (e : FileError) : Fault :=
  .storage s!"failed to read {f.path}: {e.message}"

def readValue (f : DecisionFile) (t : FileTree) : Except Fault (Option Json) :=
  if !t.has f.path then .ok none
  else
    match t.readText f.path with
    | .error e => .error (f.unreadable e)
    | .ok text =>
      match Json.parse text with
      | .ok v => .ok (some v)
      | .error e => .error (.storage s!"failed to parse {f.path}: {e.message}")

def load (f : DecisionFile) (t : FileTree) : Except Fault Decisions :=
  match f.readValue t with
  | .error e => .error e
  | .ok none => .ok []
  | .ok (some (.obj fields)) => .ok (Decisions.ofFields fields)
  | .ok (some _) => .error (.storage "stored decisions must be a JSON object")

/-! ## Writing -/

/-- The fields to which a grant is added. A file without an object is put aside. -/
def readForUpdate (f : DecisionFile) (t : FileTree) :
    Except Fault (FileTree × List (String × Json)) :=
  if !t.has f.path then .ok (t, [])
  else
    match t.readText f.path with
    | .error e => .error (f.unreadable e)
    | .ok text =>
      match Json.parse text with
      | .ok (.obj fields) => .ok (t, fields)
      | _ =>
        match t.rename f.path f.aside with
        | .ok t => .ok (t, [])
        | .error e => .error (.storage s!"failed to move the unreadable {f.path} aside: {e.message}")

def prepare (f : DecisionFile) (t : FileTree) : FileTree × Except Fault Unit :=
  let above := (Path.parent? f.path).getD ""
  if above.isEmpty || t.has above then (t, .ok ())
  else
    let (t, made) := t.makeDirectory above
    (t, made.mapError fun e => .io e.message)

/-- Replace the content of the file. What was done before a failure stays done, except that the
temporary file is removed. -/
def replace (f : DecisionFile) (t : FileTree) (value : Json) : FileTree × Except Fault Unit :=
  match f.prepare t with
  | (t, .error e) => (t, .error e)
  | (t, .ok ()) =>
    match t.write f.temporary value.renderPretty.toUTF8 with
    | .error e => (t, .error (.storage s!"failed to create {f.temporary}: {e.message}"))
    | .ok written =>
      match written.rename f.temporary f.path with
      | .ok t => (t, .ok ())
      | .error e =>
        (written.remove f.temporary, .error (.storage s!"failed to replace {f.path}: {e.message}"))

def grant (f : DecisionFile) (t : FileTree) (origin : String) : FileTree × Except Fault Unit :=
  match f.readForUpdate t with
  | .error e => (t, .error e)
  | .ok (t, fields) => f.replace t (.obj (Json.setField origin (.bool true) fields))

end DecisionFile

end Switchboard
