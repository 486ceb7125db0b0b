/-!
# Plain text

What a terminal would show of a text, without the colours: control sequences are left out, and so are
the control characters that are no blanks. A sequence begins with an escape character. It is a short
one, a control sequence with parameters and a final letter, a command to the terminal that ends in a
bell, or a string that another sequence ends. A blank within one of the first two kinds shows and
breaks the sequence off.
-/

namespace Switchboard

namespace Text

/-- Where in a sequence a reader stands. -/
inductive Mode where
  | ground
  | escape
  | signs
  | parameters
  | command
  | device
  | deviceParameters
  | deviceSigns
  | string
deriving DecidableEq, Repr, Inhabited

def isControlBlank (c : Char) : Bool := c == '\t' || c == '\n' || c == '\x0c' || c == '\r'

def endsString (c : Char) : Bool := (String.singleton c).toUTF8.toList.contains 0x9C

def showsPlain (c : Char) : Bool := isControlBlank c || (0x20 ≤ c.toNat && c != '\x7f')

/-- Reads a character in a sequence that blanks break off: where the reader stands then, and whether
the character shows. -/
def stepShort (mode : Mode) (next : Char → Mode) (c : Char) : Mode × Bool :=
  if isControlBlank c then (.ground, true)
  else if c.toNat < 0x20 || 0x7F ≤ c.toNat then (mode, false)
  else (next c, false)

def afterEscape (c : Char) : Mode :=
  if c < '0' then .signs
  else
    match c with
    | '[' => .parameters
    | ']' => .command
    | 'P' => .device
    | 'X' => .string
    | '^' => .string
    | '_' => .string
    | _ => .ground

/-- Where a character leads in the head of a device string; `param` says which signs are
parameters. -/
def deviceStep (mode : Mode) (param : Char → Bool) (c : Char) : Mode :=
  if c.toNat < 0x20 || 0x7F ≤ c.toNat then mode
  else if c < '0' then if mode == .deviceSigns then mode else .deviceSigns
  else if param c then .deviceParameters
  else .string

/-- Reads a character: where the reader stands then, and whether the character shows. -/
def Mode.step (mode : Mode) (c : Char) : Mode × Bool :=
  if c == '\x1b' then (.escape, false)
  else if c == '\x18' || c == '\x1a' then (.ground, false)
  else
    match mode with
    | .ground => (.ground, showsPlain c)
    | .escape => stepShort .escape afterEscape c
    | .signs => stepShort .signs (fun c => if c < '0' then .signs else .ground) c
    | .parameters => stepShort .parameters (fun c => if c < '@' then .parameters else .ground) c
    | .command => (if c == '\x07' then .ground else .command, false)
    | .device => (deviceStep .device (fun c => c < '@' && c != ':') c, false)
    | .deviceParameters =>
      (deviceStep .deviceParameters (fun c => c.isDigit || c == ';') c, false)
    | .deviceSigns => (deviceStep .deviceSigns (fun _ => false) c, false)
    | .string => (if endsString c then .ground else .string, false)

def plainFrom : Mode → List Char → List Char
  | _, [] => []
  | mode, c :: rest =>
    match mode.step c with
    | (next, true) => c :: plainFrom next rest
    | (next, false) => plainFrom next rest

def plain (text : String) : String := String.ofList (plainFrom .ground text.toList)

end Text

end Switchboard
