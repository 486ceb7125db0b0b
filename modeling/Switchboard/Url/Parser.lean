import Switchboard.Url.Host

/-!
# Addresses

An address is read only as far as its scheme, its host and its port: nothing behind them can make it
invalid. The schemes of the web, and `file`, are special: for them the number of slashes is free, a
backslash counts as a slash, and the host is a domain or a number. Blanks and controls around an
address, and tabs and line breaks inside it, do not count.
-/

namespace Switchboard

/-- What matters of an address. The port is absent when it is the usual one of the scheme. -/
structure Url where
  scheme : String
  host : Option String
  port : Option Nat
deriving DecidableEq, Repr

namespace Url

/-- How a scheme shapes the rest of the address. -/
inductive SchemeKind where
  | file
  | web
  | plain
deriving DecidableEq, Repr

def SchemeKind.isSpecial : SchemeKind → Bool
  | .plain => false
  | _ => true

def schemeKind (scheme : String) : SchemeKind :=
  if scheme == "file" then .file
  else if ["http", "https", "ws", "wss", "ftp"].contains scheme then .web
  else .plain

def defaultPort? (scheme : String) : Option Nat :=
  match scheme with
  | "http" => some 80
  | "ws" => some 80
  | "https" => some 443
  | "wss" => some 443
  | "ftp" => some 21
  | _ => none

def isBlankOrControl (c : Char) : Bool := c.toNat ≤ 0x20

def isTabOrBreak (c : Char) : Bool := c == '\t' || c == '\n' || c == '\r'

def meaningful (text : String) : List Char :=
  let front := text.toList.dropWhile isBlankOrControl
  let whole := (front.reverse.dropWhile isBlankOrControl).reverse
  whole.filter fun c => !isTabOrBreak c

def isSchemeChar (c : Char) : Bool := c.isAlphanum || c == '+' || c == '-' || c == '.'

def splitScheme? : List Char → Option (String × List Char)
  | [] => none
  | c :: rest =>
    if c.isAlpha then
      let tail := rest.takeWhile isSchemeChar
      match rest.dropWhile isSchemeChar with
      | ':' :: after => some (String.ofList ((c :: tail).map Char.toLower), after)
      | _ => none
    else none

def endsAuthority (special : Bool) (c : Char) : Bool :=
  c == '/' || c == '?' || c == '#' || (special && c == '\\')

def afterLastAt (cs : List Char) : Option (List Char) :=
  if cs.contains '@' then some (cs.reverse.takeWhile (· != '@')).reverse else none

/-- The host text before a colon that does not stand in brackets, and the rest from the colon on. -/
def splitHostPort (inBrackets : Bool) : List Char → List Char × List Char
  | [] => ([], [])
  | c :: rest =>
    if c == ':' && !inBrackets then ([], c :: rest)
    else
      let inside := if c == '[' then true else if c == ']' then false else inBrackets
      let (host, port) := splitHostPort inside rest
      (c :: host, port)

def maxPort : Nat := 65535

/-- A port, which must be made of digits up to the end; no digits are no port. -/
def readPort? (cs : List Char) : Option (Option Nat) :=
  let digits := cs.takeWhile Char.isDigit
  -- A backslash ends a port also where it does not end the host.
  match cs.dropWhile Char.isDigit with
  | [] => if digits.isEmpty then some none else portOf digits
  | '\\' :: _ => if digits.isEmpty then some none else portOf digits
  | _ => none
where
  portOf (digits : List Char) : Option (Option Nat) :=
    match natOfDigits? 10 digits with
    | some n => if n ≤ maxPort then some (some n) else none
    | none => none

def readAuthority? (scheme : String) (kind : SchemeKind) (rest : List Char) : Option Url :=
  let authority := rest.takeWhile fun c => !endsAuthority kind.isSpecial c
  let located := (afterLastAt authority).getD authority
  let hasUser := (afterLastAt authority).isSome
  let (hostText, portText) := splitHostPort false located
  if hostText.isEmpty then
    -- Only an opaque host may be empty, and then it stands alone.
    if kind.isSpecial || hasUser || !portText.isEmpty then none else some ⟨scheme, none, none⟩
  else
    let host := if kind.isSpecial then webHost? hostText else opaqueHost? hostText
    match host, portText with
    | none, _ => none
    | some h, [] => some ⟨scheme, some h, none⟩
    | some h, _ :: digits =>
      match readPort? digits with
      | none => none
      | some port => some ⟨scheme, some h, if port == defaultPort? scheme then none else port⟩

def isSlash (c : Char) : Bool := c == '/' || c == '\\'

def isDriveLetter : List Char → Bool
  | [a, b] => a.isAlpha && (b == ':' || b == '|')
  | _ => false

def endsSegment (c : Char) : Bool := c == '/' || c == '\\' || c == '?' || c == '#'

/-- Whether a segment of a path stays where it is. A dot may be written as its percent code. -/
def staysPut (segment : List Char) : Bool :=
  [".", "%2e"].contains (String.ofList (segment.map Char.toLower))

def goesUp (segment : List Char) : Bool :=
  ["..", ".%2e", "%2e.", "%2e%2e"].contains (String.ofList (segment.map Char.toLower))

/-- Whether, `depth` segments below the top, the segments that follow put a drive letter at the
top. -/
def leadsToDrive (depth : Nat) : List (List Char) → Bool
  | [] => false
  | segment :: rest =>
    if staysPut segment then leadsToDrive depth rest
    else if goesUp segment then leadsToDrive (depth - 1) rest
    else (depth == 0 && isDriveLetter segment) || leadsToDrive (depth + 1) rest

def pathSegments (path : List Char) : List (List Char) :=
  Unicode.splitAll isSlash ((path.drop 1).takeWhile fun c => c != '?' && c != '#')

/-- The address of a file. The local machine, and a host before a drive letter, are no host. -/
def readFile? (scheme : String) (rest : List Char) : Option Url :=
  match rest with
  | a :: b :: more =>
    if isSlash a && isSlash b then
      let hostText := more.takeWhile fun c => !endsSegment c
      let path := more.dropWhile fun c => !endsSegment c
      if hostText.isEmpty || isDriveLetter hostText then some ⟨scheme, none, none⟩
      else
        match webHost? hostText with
        | none => none
        | some host =>
          let onDrive := path.head?.any isSlash && leadsToDrive 0 (pathSegments path)
          some ⟨scheme, if host == "localhost" || onDrive then none else some host, none⟩
    else some ⟨scheme, none, none⟩
  | _ => some ⟨scheme, none, none⟩

def parse? (text : String) : Option Url :=
  match splitScheme? (meaningful text) with
  | none => none
  | some (scheme, rest) =>
    match schemeKind scheme with
    | .file => readFile? scheme rest
    | .web => readAuthority? scheme .web (rest.dropWhile isSlash)
    | .plain =>
      match rest with
      | '/' :: '/' :: after => readAuthority? scheme .plain after
      | _ => some ⟨scheme, none, none⟩

end Url

end Switchboard
