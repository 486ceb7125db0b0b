import Switchboard.Assoc
import Switchboard.Storage.Path

/-!
# File trees

Files and directories by path. A path is given as text, and counts from the root if it begins with a
slash and from the current directory otherwise. `.` stays where it is, and `..` leads up again.
Everything on the way to the last part has to be a directory, and so has the end of the way where a
path ends in `.`, in `..` or in a slash.
-/

namespace Switchboard

/-- Why an operation on files failed. -/
inductive FileError where
  | notFound
  | alreadyThere
  | notDirectory
  | isDirectory
  /-- The path leads to where nothing can be put. -/
  | busy
  | tooLong
  | nullInPath
  | notText
deriving DecidableEq, Repr, Inhabited

def FileError.message : FileError → String
  | .notFound => "No such file or directory (os error 2)"
  | .alreadyThere => "File exists (os error 17)"
  | .notDirectory => "Not a directory (os error 20)"
  | .isDirectory => "Is a directory (os error 21)"
  | .busy => "Device or resource busy (os error 16)"
  | .tooLong => "File name too long (os error 36)"
  | .nullInPath => "file name contained an unexpected NUL byte"
  | .notText => "stream did not contain valid UTF-8"

inductive FileNode where
  | file (content : ByteArray)
  | directory
deriving Inhabited

abbrev Place := List String

/-- Files and directories; the root is a directory and is not listed. -/
structure FileTree where
  nodes : List (Place × FileNode) := []
  here : Place := []
deriving Inhabited

namespace FileTree

/-! ## Ways -/

def maxName : Nat := 255

def maxPath : Nat := 4095

def flaw? (path : String) : Option FileError :=
  if path.toList.contains '\x00' then some .nullInPath
  else if path.isEmpty then some .notFound
  else if maxPath < path.utf8ByteSize then some .tooLong
  else none

def node? (t : FileTree) : Place → Option FileNode
  | [] => some .directory
  | place => t.nodes.lookup place

/-- The place that parts lead to from a directory. Only the last part may be missing. -/
def locateFrom (t : FileTree) : Place → List String → Except FileError Place
  | here, [] => .ok here
  | here, part :: rest =>
    match t.node? here with
    | none => .error .notFound
    | some (.file _) => .error .notDirectory
    | some .directory =>
      if part == "." then t.locateFrom here rest
      else if part == ".." then t.locateFrom here.dropLast rest
      else if maxName < part.utf8ByteSize then .error .tooLong
      else t.locateFrom (here ++ [part]) rest

def start (t : FileTree) (path : String) : Place := if Path.isAbsolute path then [] else t.here

/-- The place that a path means. A slash at the end demands a directory, as `.` does. -/
def locate (t : FileTree) (path : String) : Except FileError Place :=
  match flaw? path with
  | some e => .error e
  | none =>
    let parts := Path.parts path
    t.locateFrom (t.start path) (if Path.endsInSlash path then parts ++ ["."] else parts)

def find (t : FileTree) (path : String) : Except FileError FileNode :=
  match t.locate path with
  | .error e => .error e
  | .ok place =>
    match t.node? place with
    | none => .error .notFound
    | some node => .ok node

def has (t : FileTree) (path : String) : Bool :=
  match t.find path with
  | .ok _ => true
  | .error _ => false

def isDirectory (t : FileTree) (path : String) : Bool :=
  match t.find path with
  | .ok .directory => true
  | _ => false

/-- The end of a way on which something may be put. -/
inductive Spot where
  | back
  | at (place : Place) (slash : Bool)
deriving DecidableEq, Repr

def spot (t : FileTree) (path : String) : Except FileError Spot :=
  match flaw? path with
  | some e => .error e
  | none =>
    match (Path.parts path).getLast? with
    | none => .ok .back
    | some last =>
      -- A last `.` makes sure that the way there ends in a directory.
      match t.locateFrom (t.start path) ((Path.parts path).dropLast ++ ["."]) with
      | .error e => .error e
      | .ok above =>
        if last == "." || last == ".." then .ok .back
        else .ok (.at (above ++ [last]) (Path.endsInSlash path))

def isTooLong (place : Place) : Bool := place.getLast?.any fun name => maxName < name.utf8ByteSize

/-! ## Files -/

def readBytes (t : FileTree) (path : String) : Except FileError ByteArray :=
  match t.find path with
  | .error e => .error e
  | .ok .directory => .error .isDirectory
  | .ok (.file content) => .ok content

def readText (t : FileTree) (path : String) : Except FileError String :=
  match t.readBytes path with
  | .error e => .error e
  | .ok content =>
    match String.fromUTF8? content with
    | some text => .ok text
    | none => .error .notText

def setNode (t : FileTree) (place : Place) (node : FileNode) : FileTree :=
  { t with nodes := Assoc.set place node t.nodes }

def write (t : FileTree) (path : String) (content : ByteArray) : Except FileError FileTree :=
  match t.spot path with
  | .error e => .error e
  | .ok .back => .error .isDirectory
  | .ok (.at _ true) => .error .isDirectory
  | .ok (.at place false) =>
    if isTooLong place then .error .tooLong
    else
      match t.node? place with
      | some .directory => .error .isDirectory
      | _ => .ok (t.setNode place (.file content))

def rename (t : FileTree) (source target : String) : Except FileError FileTree :=
  match t.spot source, t.spot target with
  | .error e, _ => .error e
  | _, .error e => .error e
  | .ok (.at source sourceSlash), .ok (.at target targetSlash) =>
    if isTooLong source then .error .tooLong
    else
      match t.node? source with
      | none => .error .notFound
      | some .directory => .error .isDirectory
      | some (.file content) =>
        if isTooLong target then .error .tooLong
        else if sourceSlash || targetSlash then .error .notDirectory
        else
          match t.node? target with
          | some .directory => .error .isDirectory
          | _ =>
            let rest := { t with nodes := Assoc.erase source t.nodes }
            .ok (rest.setNode target (.file content))
  | _, _ => .error .busy

def remove (t : FileTree) (path : String) : FileTree :=
  match t.locate path with
  | .error _ => t
  | .ok place => { t with nodes := t.nodes.filter fun n => !place.isPrefixOf n.1 }

/-! ## Directories -/

def makeOne (t : FileTree) (path : String) : Except FileError FileTree :=
  match t.spot path with
  | .error e => .error e
  | .ok .back => .error .alreadyThere
  | .ok (.at place _) =>
    if isTooLong place then .error .tooLong
    else if (t.node? place).isSome then .error .alreadyThere
    else .ok (t.setNode place .directory)

/-- Make a directory, given with those above it from the longest path on, where they are missing.
What is made before a failure stays. -/
def makeChain (t : FileTree) : List String → FileTree × Except FileError Unit
  | [] => (t, .ok ())
  | path :: above =>
    if path.isEmpty || t.isDirectory path then (t, .ok ())
    else
      match t.makeOne path with
      | .ok t => (t, .ok ())
      | .error .notFound =>
        match t.makeChain above with
        | (t, .error e) => (t, .error e)
        | (t, .ok ()) =>
          match t.makeOne path with
          | .ok t => (t, .ok ())
          | .error e => (t, if t.isDirectory path then .ok () else .error e)
      | .error e => (t, .error e)

def makeDirectory (t : FileTree) (path : String) : FileTree × Except FileError Unit :=
  t.makeChain (Path.ancestors path)

def list (t : FileTree) (path : String) : List String :=
  match t.locate path with
  | .error _ => []
  | .ok place =>
    match t.node? place with
    | some .directory =>
      let inside := t.nodes.filter fun n =>
        place.isPrefixOf n.1 && n.1.length == place.length + 1
      (inside.filterMap fun n => n.1.getLast?).mergeSort fun a b => !(b < a)
    | _ => []

end FileTree

end Switchboard
