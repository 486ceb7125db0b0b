import Switchboard.Permission.AllowList
import Switchboard.Storage.Tree

/-!
# The policy file

The administrator's list is read from a file when the watch begins, and again each time the file is
written or put in place. A reading that fails leaves a list that was loaded in force; the removal of
the file is no reason to read. The watch is kept on the file's directory, which has to be there.
-/

namespace Switchboard

/-- A watched policy file and the list it has given. -/
structure PolicyFile where
  path : String
  list : AllowList := .loading
deriving DecidableEq, Repr, Inhabited

namespace PolicyFile

def reload (p : PolicyFile) (t : FileTree) : PolicyFile :=
  { p with list := (p.list.loadFile ((t.readText p.path).mapError fun e => .io e.message)).1 }

def directory (p : PolicyFile) : String :=
  match Path.parent? p.path with
  | none => "."
  | some "" => "."
  | some above => above

/-- Begin to watch a file; the error says that its directory cannot be watched. -/
def watch (path : String) (t : FileTree) : Except String PolicyFile :=
  let p := PolicyFile.reload { path := path } t
  if t.has p.directory then .ok p else .error s!"failed to watch {p.directory}"

/-- Whether a change at a path is one of the watched file: it is in the watched directory and has the
name of the file. -/
def concerns (p : PolicyFile) (t : FileTree) (path : String) : Bool :=
  match Path.name? path, t.locate p.directory, t.locate ((Path.parent? path).getD "") with
  | some name, .ok watched, .ok changed => Path.name? p.path == some name && watched == changed
  | _, _, _ => false

end PolicyFile

end Switchboard
