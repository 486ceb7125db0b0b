import Switchboard.Cli.Options

/-!
# The help text

What the program is for, how it is called, and one line for each option, with the explanations in a
column.
-/

namespace Switchboard

namespace Cli

def programName : String := "conduit-relay"

def Flag.about : Flag → String
  | .port => "Port to listen on (0 = auto-assign) [default: 0]"
  | .host => "Host to bind to [default: 127.0.0.1]"
  | .debug => "Enable debug logging (also shortens the liveness timings)"
  | .policy => "JSON array of allowed origins; reloaded when it changes"
  | .decisions => "JSON file persisting the clients granted at the prompt"
  | .trustedClients => "JSON object describing known clients"
  | .autoGrant => "Grant every client that reaches the prompt"
  | .autoDeny => "Reject every client that reaches the prompt"
  | .pingInterval => "Interval between server liveness pings"
  | .pingTimeout => "Time without a pong after which the server is considered dead"
  | .help => "Print help"

def Flag.spelling (o : Flag) : String :=
  match o.short? with
  | some letter => s!"-{letter}, {o.display}"
  | none => s!"    {o.display}"

def helpWidth : Nat := (Flag.all.map fun o => o.spelling.length).foldl max 0

def Flag.helpLine (o : Flag) : String :=
  "  " ++ o.spelling ++ String.ofList (List.replicate (helpWidth - o.spelling.length + 2) ' ') ++ o.about

def usage : String := s!"Usage: {programName} [OPTIONS]"

def help : String :=
  "\n".intercalate
    (["Permission-checked client relay for a single server", "", usage, "", "Options:"] ++
      Flag.all.map Flag.helpLine)

end Cli

end Switchboard
