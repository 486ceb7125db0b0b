/-!
# Service names

The names under which the parts of the stack meet on a channel, and the limits both sides agree on.
A requester called `n` sends to `n::request` and is answered on `n::response`. Every client handler
has a requester of its own on the server channel, named by the handler's number.
-/

namespace Switchboard

namespace Service

def ping : String := "ping"

def pong : String := "pong"

def serverReady : String := "server_ready"

def createHandler : String := "create_client_handler"

def deleteHandler : String := "delete_client_handler"

def clientRequester : String := "conduit"

def request (name : String) : String := name ++ "::request"

def response (name : String) : String := name ++ "::response"

def callFunction (id : Nat) : String := s!"client_handler_{id}_call_function"

end Service

namespace Key

def handlerId : String := "handler_id"

def clientName : String := "client_name_for_log"

def channelId : String := "channel_id"

end Key

def maxFrameSize : Nat := 16 * 1024 * 1024

end Switchboard
