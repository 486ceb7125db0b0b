import Switchboard.Cli.Options
import Switchboard.Permission.PolicyFile
import Switchboard.Relay.Basic

/-!
# Launching the relay

From a command line and the files it names to a running relay. What goes wrong is reported in a fixed
order: the command line itself, the policy file's directory, the description of known clients, the
liveness timing, and at last the address.
-/

namespace Switchboard

namespace Cli

/-- What becomes of a command line. -/
inductive Launch where
  | ended (code : Nat) (line : String)
  | running (relay : Relay)

def Settings.liveness (s : Settings) : Except Fault LivenessConfig :=
  let base := if s.debug then LivenessConfig.debug else LivenessConfig.standard
  LivenessConfig.make ((s.pingInterval.map Span.ofMillis).getD base.interval)
    ((s.pingTimeout.map Span.ofMillis).getD base.timeout)

def Settings.list (s : Settings) (files : FileTree) : Except String AllowList :=
  match s.policy with
  | none => .ok (.loaded [])
  | some path => (PolicyFile.watch path files).map PolicyFile.list

def Settings.known (s : Settings) (files : FileTree) : Except Fault KnownClients :=
  match s.trustedClients with
  | none => .ok {}
  | some path =>
    match files.readText path with
    | .error e => .error (.io e.message)
    | .ok text => KnownClients.ofText text

def Settings.stored (s : Settings) (files : FileTree) : Except Fault Decisions :=
  match s.decisions with
  | none => .ok []
  | some path => (DecisionFile.mk path "").load files

/-- The answer to every prompt that settings ask for; none if the operator is to be asked. -/
def Settings.answer? (s : Settings) : Option Answer :=
  if s.autoGrant then some .yes else if s.autoDeny then some .no else none

def failed (message : String) : Launch := .ended 1 ("Error: " ++ message)

def Settings.start (s : Settings) (files : FileTree) : Launch :=
  match s.list files with
  | .error e => failed e
  | .ok list =>
    match s.known files with
    | .error e => failed e.message
    | .ok known =>
      match s.liveness with
      | .error e => failed e.message
      | .ok liveness =>
        let stored := s.stored files
        let desk : Desk :=
          { list := list, known := known, decisions := stored.toOption.getD [],
            unreadable := stored.toOption.isNone, loading := s.decisions.isSome, standing := s.answer? }
        match Relay.start ⟨s.host, s.port, liveness⟩ desk with
        | .error e => failed e.message
        | .ok relay => .running relay

def launch (arguments : List String) (files : FileTree) : Launch :=
  match Settings.ofArguments arguments with
  | .error .helpWanted => .ended 0 ""
  | .error e => .ended 2 e.message
  | .ok settings => settings.start files

end Cli

end Switchboard
