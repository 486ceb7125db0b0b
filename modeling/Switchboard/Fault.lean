/-!
# Faults

Everything that can go wrong in the stack, by cause. The wording of each fault stands in one place,
`Fault.message`: it is what peers receive in failure responses and what logs show.
-/

namespace Switchboard

/-- Why an operation failed. -/
inductive Fault where
  | channelDisposed
  | requesterDisposed (name : String)
  | handlerDisposed
  | jobSkipped
  | notReady (reason : String)
  /-- The peer answered with a failure. -/
  | remote (message : String)
  /-- The client may not talk to the server. -/
  | permissionDenied (origin reason : String)
  | invalidPayload (message : String)
  | config (message : String)
  | io (message : String)
  | json (message : String)
  | storage (message : String)
  | other (message : String)
deriving DecidableEq, Repr, Inhabited

namespace Fault

def message : Fault → String
  | .channelDisposed => "The message channel is disposed"
  | .requesterDisposed name => s!"The requester \"{name}\" is disposed"
  | .handlerDisposed => "The client handler is disposed"
  | .jobSkipped => "Deferred job was skipped: the job processor has been disposed"
  | .notReady reason => s!"Server is not ready: {reason}"
  | .remote message => message
  | .permissionDenied origin reason => s!"Permission denied for client {origin}: {reason}"
  | .invalidPayload message => s!"Invalid payload: {message}"
  | .config message => s!"Invalid configuration: {message}"
  | .io message => s!"IO error: {message}"
  | .json message => s!"JSON error: {message}"
  | .storage message => s!"Storage error: {message}"
  | .other message => message

def isDisposal : Fault → Bool
  | .channelDisposed => true
  | .requesterDisposed _ => true
  | .handlerDisposed => true
  | .jobSkipped => true
  | _ => false

def isPermissionDenied : Fault → Bool
  | .permissionDenied _ _ => true
  | _ => false

end Fault

end Switchboard
