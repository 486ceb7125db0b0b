import Switchboard.Message.Call
import Switchboard.Permission.Desk

/-!
# Commands

A world is driven by commands that create and use objects by name. A command may carry further
commands as a script, to be carried out inside the callback that it installs.
-/

namespace Switchboard

/-- What becomes of a message that cannot be read. -/
inductive Policy where
  /-- The two sides disagree about the protocol: everything stops. -/
  | abort
  | disposeChannel
deriving DecidableEq, Repr, Inhabited

/-- How a job ends. -/
inductive Script where
  | fail (fault : Fault)
  | reply (value : Json)
  | wait (token : String)
  /-- It takes a time, in milliseconds. -/
  | sleep (ms : Nat)
  | echo (value : Json)
deriving Inhabited

def Script.ofOutcome : Except Fault Json → Script
  | .ok value => .reply value
  | .error fault => .fail fault

/-- One thing to do. -/
inductive Command where
  -- channels
  | record (key : String)
  | failSend (on : String) (fault : Option Fault)
  | pair (first second name : String)
  | streamPair (first second : String) (policies : Policy × Policy) (buffer : Nat)
  | rawStream (key peer : String) (policy : Policy) (buffer : Nat) (reads : Bool)
  | rawWrite (on : String) (bytes : ByteArray)
  | rawShutdown (on : String)
  | rawDrop (on : String)
  | send (on service : String) (payload : Json)
  | sendBig (on service : String) (size : Nat)
  | receive (on service : String) (payload : Json)
  | register (on service name : String) (script : List Command)
  | unregister (on service : String)
  | addHook (on name : String) (script : List Command)
  | removeHook (name : String)
  | dispose (on : String)
  | drop (on : String)
  | forget (key : String)
  -- time
  | settle
  | advance (ms : Nat)
  | jump (ms : Nat)
  -- requests
  | requester (key on name : String) (policy : Policy)
  | post (key on : String) (payload : Json)
  | receiver (key on name : String) (policy : Policy)
  | finish (token : String) (outcome : Except Fault Json)
  -- liveness and readiness
  | pinger (key on : String) (interval timeout : Nat) (silent : Bool) (script : List Command)
  | postPing (on : String)
  | responder (key on : String) (listens : Bool) (script : List Command)
  | tracker (key on : String)
  | signal (key on : String)
  | announce (on : String)
  | wait (key on : String) (origin : Option String)
  -- deferred jobs
  | deferred (key : String) (readiness : Option (Except Fault Unit)) (silent : Bool)
      (script : List Command)
  | ready (on : String) (outcome : Except Fault Unit)
  | abandon (on : String)
  | addJob (key on : String) (job : Script) (script : List Command)
  -- clients
  | serverHandler (key server readiness name : String)
  | clientHandler (key on server readiness : String) (origin : Option String) (checker : String)
  | handle (key on : String) (call : Call)
  | backend (key : String)
  | backendCall (on : String) (handler : Nat) (call : Call)
  | backendCreated (on : String) (handler : Nat) (name : String)
  | backendDeleted (on : String) (handler : Nat)
  | registry (key on backend : String)
  -- permissions
  | manualChecker (key : String)
  | decide (on : String) (check : Nat) (outcome : Except Fault Unit)
  | stack (key : String) (desk : Except Fault Desk)
  | answer (on origin : String) (answer : Answer)
  | check (key on : String) (origin : Option String)
  | userCheck (key on origin : String)
  | cancelPrompt (key on origin : String)
  | isPending (on origin : String)
  | managed (key : String) (list : AllowList)
  | allow (on : String) (origins : List String)
  | loadJson (on : String) (value : Json)
  | loadFile (on : String) (content : Except Fault String)
  | unavailable (on : String)
  | contains (on origin : String)
  | cache (key : String)
  | cacheStart (key on origin : String) (job : Script)
  | cacheForget (on origin : String)
  | token (key on : String)
deriving Inhabited

namespace Command

def name : Command → String
  | record .. => "record"
  | failSend .. => "fail_send"
  | pair .. => "pair"
  | streamPair .. => "stream_pair"
  | rawStream .. => "raw_stream"
  | rawWrite .. => "raw_write"
  | rawShutdown .. => "raw_shutdown"
  | rawDrop .. => "raw_drop"
  | send .. => "send"
  | sendBig .. => "send_big"
  | receive .. => "receive"
  | register .. => "register"
  | unregister .. => "unregister"
  | addHook .. => "add_cb"
  | removeHook .. => "remove_cb"
  | dispose .. => "dispose"
  | drop .. => "drop"
  | forget .. => "forget"
  | settle => "settle"
  | advance .. => "advance"
  | jump .. => "jump"
  | requester .. => "requester"
  | post .. => "post"
  | receiver .. => "receiver"
  | finish .. => "finish"
  | pinger .. => "pinger"
  | postPing .. => "post_ping"
  | responder .. => "responder"
  | tracker .. => "tracker"
  | signal .. => "signal"
  | announce .. => "announce"
  | wait .. => "wait"
  | deferred .. => "deferred"
  | ready .. => "ready"
  | abandon .. => "abandon"
  | addJob .. => "add_job"
  | serverHandler .. => "server_handler"
  | clientHandler .. => "client_handler"
  | handle .. => "handle"
  | backend .. => "backend"
  | backendCall .. => "backend_call"
  | backendCreated .. => "backend_created"
  | backendDeleted .. => "backend_deleted"
  | registry .. => "registry"
  | manualChecker .. => "manual_checker"
  | decide .. => "decide"
  | stack .. => "stack"
  | answer .. => "answer"
  | check .. => "check"
  | userCheck .. => "user_check"
  | cancelPrompt .. => "cancel_prompt"
  | isPending .. => "is_pending"
  | managed .. => "managed"
  | allow .. => "allow"
  | loadJson .. => "load_json"
  | loadFile .. => "load_file"
  | unavailable .. => "unavailable"
  | contains .. => "contains"
  | cache .. => "cache"
  | cacheStart .. => "cache_start"
  | cacheForget .. => "cache_forget"
  | token .. => "token"

end Command

/-- The result of a command. -/
inductive Reply where
  | none
  | nothing
  | bool (b : Bool)
  | outcome (o : Except Fault Json)
  | fault (e : Fault)
  /-- The identifier drawn for a responder fits into 32 bits. -/
  | fitsWord (b : Bool)
deriving Inhabited

/-- Something that was seen to happen. The first name is the object it happened to. -/
inductive Event where
  | sent (channel service : String) (payload : Json)
  | delivered (channel name : String) (payload : Json)
  | disposed (owner name : String)
  | nested (command : String) (reply : Reply)
  | invoked (receiver : String) (payload : Json)
  | established (pinger : String)
  | pinged (responder : String)
  | dispatched (gate job : String)
  | rejected (gate : String) (fault : Fault)
  | checked (checker : String) (origin : Option String)
  | prompted (desk : String) (request : PromptRequest)
  | promptClosed (desk origin : String)
  | started (cache origin : String)
  | rawOut (peer : String) (bytes : ByteArray)
  | rawEnd (peer : String)
deriving Inhabited

end Switchboard
