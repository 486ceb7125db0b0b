/-!
# Paths

A path is a text of parts between slashes. Empty parts, and `.` anywhere but at the beginning of a
relative path, say nothing about where it leads: the path above, the name and the ending of a name
are those of the last part that does.
-/

namespace Switchboard

namespace Path

def isAbsolute (path : String) : Bool := path.toList.head? == some '/'

def parts (path : String) : List String :=
  ((path.toList.splitOn '/').map String.ofList).filter (· != "")

def endsInSlash (path : String) : Bool := path.toList.getLast? == some '/'

def dropEnd : List Char → List Char
  | ['/'] => ['/']
  | '/' :: rest => dropEnd rest
  | '.' :: '/' :: rest => dropEnd ('/' :: rest)
  | path => path
termination_by path => path.length

/-- The last part that counts, backwards, and what stands before it, backwards. The root has no
such part. -/
def splitLast (path : String) : List Char × List Char :=
  let whole := dropEnd path.toList.reverse
  (whole.takeWhile (· != '/'), whole.dropWhile (· != '/'))

def parent? (path : String) : Option String :=
  match splitLast path with
  | ([], _) => none
  | (_ :: _, above) => some (String.ofList (dropEnd above).reverse)

def name? (path : String) : Option String :=
  match String.ofList (splitLast path).1.reverse with
  | "" => none
  | "." => none
  | ".." => none
  | name => some name

def ancestorsUpTo : Nat → String → List String
  | 0, path => [path]
  | count + 1, path =>
    match parent? path with
    | none => [path]
    | some above => path :: ancestorsUpTo count above

def ancestors (path : String) : List String := ancestorsUpTo path.length path

/-! ## Endings of names -/

/-- A name up to its last dot, and what follows the dot. A dot at the beginning does not count. -/
def splitName (name : String) : String × Option String :=
  let backwards := name.toList.reverse
  match backwards.dropWhile (· != '.') with
  | _ :: c :: before =>
    let ending := (backwards.takeWhile (· != '.')).reverse
    (String.ofList (c :: before).reverse, some (String.ofList ending))
  | _ => (name, none)

/-- The path cut behind the name without its ending, then a dot and the new ending. A path without
a name stays as it is. -/
def setEnding (path : String) (ending : String) : String :=
  match name? path with
  | none => path
  | some name =>
    let above := (splitLast path).2
    String.ofList above.reverse ++ (splitName name).1 ++ "." ++ ending

/-- The path with another ending. The letters of the old ending are first taken off the text, which
leaves no name if that was two dots and the ending. -/
def withEnding (path : String) (ending : String) : String :=
  match (name? path).bind fun name => (splitName name).2 with
  | none => setEnding path ending
  | some old => setEnding (String.ofList (path.toList.take (path.length - old.length))) ending

end Path

end Switchboard
