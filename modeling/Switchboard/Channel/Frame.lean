import Switchboard.Fault
import Switchboard.Json.Parser
import Switchboard.Message.Envelope
import Switchboard.Service

/-!
# Frames

On a byte stream a message is a frame: the length of the body in four bytes, the most significant
first, and then the body, which is the text of an envelope. `Frame.cut` takes the first frame off a
run of bytes. It looks at the length before the body, so a length over the limit is refused whether
or not the body is there.
-/

namespace Switchboard

attribute [local instance (high)] instPowNat

namespace Frame

def lengthSize : Nat := 4

def lengthBytes (n : Nat) : ByteArray :=
  ⟨#[(n / 2 ^ (24 : Nat)).toUInt8, (n / 2 ^ (16 : Nat)).toUInt8, (n / 2 ^ (8 : Nat)).toUInt8, n.toUInt8]⟩

def lengthOf (bytes : ByteArray) : Nat :=
  (bytes[0]?.getD 0).toNat * 2 ^ (24 : Nat) + (bytes[1]?.getD 0).toNat * 2 ^ (16 : Nat) +
    (bytes[2]?.getD 0).toNat * 2 ^ (8 : Nat) + (bytes[3]?.getD 0).toNat

def wrap (body : ByteArray) : ByteArray := lengthBytes body.size ++ body

def encode (service : String) (payload : Json) : Except Fault ByteArray :=
  let body := (Envelope.mk service payload).text.toUTF8
  if body.size > maxFrameSize then
    .error (.invalidPayload
      s!"message for service \"{service}\" is {body.size} bytes, the frame limit is {maxFrameSize}")
  else .ok (wrap body)

def decode? (body : ByteArray) : Option Envelope :=
  match String.fromUTF8? body with
  | none => none
  | some text =>
    match Json.parse text with
    | .ok v => Envelope.ofJson? v
    | .error _ => none

/-- What stands at the front of a run of bytes. -/
inductive Cut where
  /-- Too few bytes to tell. -/
  | short
  /-- A length over the limit; what follows the length is `rest`. -/
  | tooLong (rest : ByteArray)
  | frame (body rest : ByteArray)

def cut (bytes : ByteArray) : Cut :=
  if bytes.size < lengthSize then .short
  else
    let n := lengthOf bytes
    if n > maxFrameSize then .tooLong (bytes.extract lengthSize bytes.size)
    else if bytes.size < lengthSize + n then .short
    else .frame (bytes.extract lengthSize (lengthSize + n))
      (bytes.extract (lengthSize + n) bytes.size)

end Frame

end Switchboard
