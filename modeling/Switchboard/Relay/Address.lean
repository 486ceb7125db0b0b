import Switchboard.Url.Address

/-!
# Network addresses

An address and a port as they are written in settings: four decimal bytes, a colon and the port, or an
address of eight pieces in brackets, which may name a zone, a colon and the port.
-/

namespace Switchboard

attribute [local instance (high)] instPowNat

inductive IpAddress where
  /-- Four bytes as one number. -/
  | v4 (bits : Nat)
  | v6 (pieces : List Nat)
deriving DecidableEq, Repr, Inhabited

structure SocketAddress where
  ip : IpAddress
  port : Nat
deriving DecidableEq, Repr, Inhabited

namespace IpAddress

def render : IpAddress → String
  | .v4 bits => Url.ipv4Text bits
  | .v6 [0, 0, 0, 0, 0, 0xffff, a, b] => "::ffff:" ++ Url.ipv4Text (a * 65536 + b)
  | .v6 pieces => String.ofList (((Url.ipv6Text pieces).toList.drop 1).dropLast)

/-- Whether every machine can listen on an address of four bytes: all of its own, one of its inner
network, one of a group, or the one of everybody. -/
def canListenV4 (bits : Nat) : Bool :=
  bits = 0 || bits / 2 ^ (24 : Nat) = 127 || bits / 2 ^ (28 : Nat) = 14 || bits = 2 ^ (32 : Nat) - 1

def canListen : IpAddress → Bool
  | .v4 bits => canListenV4 bits
  | .v6 [0, 0, 0, 0, 0, 0xffff, a, b] => canListenV4 (a * 65536 + b)
  | .v6 pieces => pieces.take 7 == List.replicate 7 0 && pieces.getLast?.any (· ≤ 1)

end IpAddress

namespace SocketAddress

def number? (bound : Nat) (cs : List Char) : Option Nat :=
  if cs.isEmpty || !cs.all Char.isDigit then none else (Url.natOfDigits? 10 cs).filter (· < bound)

def v4? (cs : List Char) : Option IpAddress :=
  match (Url.splitAt '.' cs).mapM Url.decimalByte? with
  | some [a, b, c, d] => some (.v4 (((a * 256 + b) * 256 + c) * 256 + d))
  | _ => none

def v6? (cs : List Char) : Option IpAddress :=
  match Url.splitAt '%' cs with
  | [address] => (Url.ipv6? address).map .v6
  | [address, zone] => if (number? (2 ^ (32 : Nat)) zone).isSome then (Url.ipv6? address).map .v6 else none
  | _ => none

def parse? (text : String) : Option SocketAddress :=
  match text.toList with
  | '[' :: rest =>
    let inner := rest.takeWhile (· != ']')
    match rest.dropWhile (· != ']') with
    | ']' :: ':' :: port =>
      match v6? inner, number? 65536 port with
      | some ip, some p => some ⟨ip, p⟩
      | _, _ => none
    | _ => none
  | cs =>
    match Url.splitAt ':' cs with
    | [address, port] =>
      match v4? address, number? 65536 port with
      | some ip, some p => some ⟨ip, p⟩
      | _, _ => none
    | _ => none

end SocketAddress

end Switchboard
