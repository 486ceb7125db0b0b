import Switchboard.Text.Plain

/-!
# Command line options

Options are long (`--port 80`, `--port=80`) or short (`-p 80`, `-p80`, `-p=80`), and short switches may
be written together. There are no other arguments. An option may be given once.

The value of an option that stands as an argument of its own is not looked at before the next option
or the end; an argument that is no option of this program is reported before that.
-/

namespace Switchboard

attribute [local instance (high)] instPowNat

namespace Cli

/-- The options of the program. -/
inductive Flag where
  | port
  | host
  | debug
  | policy
  | decisions
  | trustedClients
  | autoGrant
  | autoDeny
  | pingInterval
  | pingTimeout
  | help
deriving DecidableEq, Repr, Inhabited

/-- What kind of value an option takes. -/
inductive ValueKind where
  | switch
  | text
  | path
  | port
  | count
deriving DecidableEq, Repr, Inhabited

namespace Flag

def all : List Flag :=
  [port, host, debug, policy, decisions, trustedClients, autoGrant, autoDeny, pingInterval,
   pingTimeout, help]

def long : Flag → String
  | port => "port"
  | host => "host"
  | debug => "debug"
  | policy => "policy"
  | decisions => "decisions"
  | trustedClients => "trusted-clients"
  | autoGrant => "auto-grant"
  | autoDeny => "auto-deny"
  | pingInterval => "ping-interval-ms"
  | pingTimeout => "ping-timeout-ms"
  | help => "help"

def short? : Flag → Option Char
  | port => some 'p'
  | debug => some 'd'
  | help => some 'h'
  | _ => none

def kind : Flag → ValueKind
  | port => .port
  | host => .text
  | policy => .path
  | decisions => .path
  | trustedClients => .path
  | pingInterval => .count
  | pingTimeout => .count
  | _ => .switch

def display (o : Flag) : String :=
  if o.kind = .switch then "--" ++ o.long
  else
    let value := o.long.toList.map fun c => if c == '-' then '_' else c.toUpper
    "--" ++ o.long ++ " <" ++ String.ofList value ++ ">"

def ofLong? (name : String) : Option Flag := all.find? fun o => o.long == name

def ofShort? (letter : Char) : Option Flag := all.find? fun o => o.short? == some letter

end Flag

/-- What is wrong with a command line. -/
inductive UsageError where
  | unexpectedArgument (argument : String)
  | valueRequired (option : Flag)
  | invalidValue (value : String) (option : Flag) (reason : String)
  | unexpectedValue (value : String) (option : Flag)
  | repeated (option : Flag)
  | conflict (former latter : Flag)
  | helpWanted
deriving DecidableEq, Repr, Inhabited

/-- The wording of an error. Of what was typed only that is repeated which shows. -/
def UsageError.message : UsageError → String
  | .unexpectedArgument argument => s!"error: unexpected argument '{Text.plain argument}' found"
  | .valueRequired option => s!"error: a value is required for '{option.display}' but none was supplied"
  | .invalidValue value option reason =>
    s!"error: invalid value '{Text.plain value}' for '{option.display}': {reason}"
  | .unexpectedValue value option =>
    s!"error: unexpected value '{Text.plain value}' for '{option.display}' found; no more were expected"
  | .repeated option => s!"error: the argument '{option.display}' cannot be used multiple times"
  | .conflict former latter =>
    s!"error: the argument '{former.display}' cannot be used with '{latter.display}'"
  | .helpWanted => ""

/-! ## Values -/

/-- Digits up to a greatest number, read from the left; the first thing that goes wrong counts. -/
def readDigits (most : Nat) (overflow : String) : Nat → List Char → Except String Nat
  | acc, [] => .ok acc
  | acc, c :: rest =>
    if !c.isDigit then .error "invalid digit found in string"
    else
      let next := acc * 10 + (c.toNat - '0'.toNat)
      if next > most then .error overflow else readDigits most overflow next rest

def tooLarge : String := "number too large to fit in target type"

def readNumber (most : Nat) (overflow : String) (cs : List Char) : Except String Nat :=
  if cs.isEmpty then .error "invalid digit found in string" else readDigits most overflow 0 cs

def readInteger (text : String) : Except String Int :=
  match text.toList with
  | [] => .error "cannot parse integer from empty string"
  | '+' :: rest => (readNumber (2 ^ (63 : Nat) - 1) tooLarge rest).map Int.ofNat
  | '-' :: rest =>
    (readNumber (2 ^ (63 : Nat)) "number too small to fit in target type" rest).map fun n => -(n : Int)
  | cs => (readNumber (2 ^ (63 : Nat) - 1) tooLarge cs).map Int.ofNat

def readCount (text : String) : Except String Nat :=
  match text.toList with
  | [] => .error "cannot parse integer from empty string"
  | '+' :: rest => readNumber (2 ^ (64 : Nat) - 1) tooLarge rest
  | cs => readNumber (2 ^ (64 : Nat) - 1) tooLarge cs

def readPort (text : String) : Except String Nat :=
  match readInteger text with
  | .error e => .error e
  | .ok n => if 0 ≤ n && n ≤ 65535 then .ok n.toNat else .error s!"{n} is not in 0..=65535"

def checkValue (option : Flag) (value : String) : Except UsageError Unit :=
  let report (result : Except String Nat) : Except UsageError Unit :=
    match result with
    | .ok _ => .ok ()
    | .error reason => .error (.invalidValue value option reason)
  match option.kind with
  | .switch => .ok ()
  | .text => .ok ()
  | .path => if value.isEmpty then .error (.valueRequired option) else .ok ()
  | .port => report (readPort value)
  | .count => report (readCount value)

/-! ## Reading a command line -/

/-- What has been read: the options given, and one whose value is to be looked at. -/
structure Reading where
  given : List (Flag × String) := []
  pending : Option (Flag × Option String) := none
  plain : Bool := false
deriving Inhabited

namespace Reading

def take (r : Reading) (option : Flag) (value : String) : Except UsageError Reading :=
  if r.given.any (fun g => g.1 = option) then .error (.repeated option)
  else
    match checkValue option value with
    | .error e => .error e
    | .ok () => .ok { r with given := r.given ++ [(option, value)] }

def resolve (r : Reading) : Except UsageError Reading :=
  match r.pending with
  | none => .ok r
  | some (option, none) => .error (.valueRequired option)
  | some (option, some value) => ({ r with pending := none }).take option value

def switch (r : Reading) (option : Flag) : Except UsageError Reading :=
  match r.resolve with
  | .error e => .error e
  | .ok r => if option = .help then .error .helpWanted else r.take option ""

def valued (r : Reading) (option : Flag) (attached : Option String) : Except UsageError Reading :=
  match r.resolve with
  | .error e => .error e
  | .ok r =>
    match attached with
    | some value => r.take option value
    | none => .ok { r with pending := some (option, none) }

def longArgument (r : Reading) (body : List Char) : Except UsageError Reading :=
  let name := String.ofList (body.takeWhile (· != '='))
  let attached : Option String :=
    match body.dropWhile (· != '=') with
    | _ :: value => some (String.ofList value)
    | [] => none
  match Flag.ofLong? name with
  | none => .error (.unexpectedArgument ("--" ++ name))
  | some option =>
    if option.kind = .switch then
      match attached with
      | some value => .error (.unexpectedValue value option)
      | none => r.switch option
    else r.valued option attached

def shortArgument (r : Reading) : List Char → Except UsageError Reading
  | [] => .ok r
  | letter :: rest =>
    match Flag.ofShort? letter with
    | none => .error (.unexpectedArgument ("-" ++ String.singleton letter))
    | some option =>
      if option.kind = .switch then
        match r.switch option with
        | .error e => .error e
        | .ok r => r.shortArgument rest
      else
        match rest with
        | [] => r.valued option none
        | '=' :: value => r.valued option (some (String.ofList value))
        | value => r.valued option (some (String.ofList value))

/-- An argument that is no option: the value that is waited for, or one too many. -/
def plainArgument (r : Reading) (argument : String) : Except UsageError Reading :=
  match r.plain, r.pending with
  | false, some (option, none) => .ok { r with pending := some (option, some argument) }
  | _, _ => .error (.unexpectedArgument argument)

def argument (r : Reading) (argument : String) : Except UsageError Reading :=
  if r.plain then r.plainArgument argument
  else
    match argument.toList with
    | ['-', '-'] => .ok { r with plain := true }
    | '-' :: '-' :: body => r.longArgument body
    | '-' :: letter :: rest => r.shortArgument (letter :: rest)
    | _ => r.plainArgument argument

def all (r : Reading) : List String → Except UsageError Reading
  | [] => r.resolve
  | a :: rest =>
    match r.argument a with
    | .error e => .error e
    | .ok r => r.all rest

end Reading

def conflict? (given : List (Flag × String)) : Option UsageError :=
  match (given.map Prod.fst).filter fun o => o = .autoGrant || o = .autoDeny with
  | former :: latter :: _ => some (.conflict former latter)
  | _ => none

structure Settings where
  port : Nat := 0
  host : String := "127.0.0.1"
  debug : Bool := false
  policy : Option String := none
  decisions : Option String := none
  trustedClients : Option String := none
  autoGrant : Bool := false
  autoDeny : Bool := false
  pingInterval : Option Nat := none
  pingTimeout : Option Nat := none
deriving DecidableEq, Repr, Inhabited

def Settings.apply (s : Settings) (option : Flag) (value : String) : Settings :=
  match option with
  | .port => { s with port := (readPort value).toOption.getD 0 }
  | .host => { s with host := value }
  | .debug => { s with debug := true }
  | .policy => { s with policy := some value }
  | .decisions => { s with decisions := some value }
  | .trustedClients => { s with trustedClients := some value }
  | .autoGrant => { s with autoGrant := true }
  | .autoDeny => { s with autoDeny := true }
  | .pingInterval => { s with pingInterval := (readCount value).toOption }
  | .pingTimeout => { s with pingTimeout := (readCount value).toOption }
  | .help => s

def Settings.ofArguments (arguments : List String) : Except UsageError Settings :=
  match ({} : Reading).all arguments with
  | .error e => .error e
  | .ok r =>
    match conflict? r.given with
    | some e => .error e
    | none => .ok (r.given.foldl (fun s g => s.apply g.1 g.2) {})

end Cli

end Switchboard
