import Switchboard.Url.Address
import Switchboard.Url.Domain

/-!
# Hosts

The host of a web address is a domain, a four-byte address, or an address of eight pieces in
brackets. Under any other scheme a host is opaque: it is kept as it is, except that controls and
characters outside ASCII are percent-coded.
-/

namespace Switchboard

namespace Url

def bracketed? : List Char → Option (Option (List Char))
  | '[' :: rest => some (if rest.getLast? == some ']' then some rest.dropLast else none)
  | _ => none

def webHost? (text : List Char) : Option String :=
  match bracketed? text with
  | some inner => (inner.bind ipv6?).map ipv6Text
  | none =>
    match String.fromUTF8? ⟨(percentDecode text).toArray⟩ with
    | none => none
    | some decoded =>
      match domainToAscii? decoded.toList with
      | none => none
      | some [] => none
      | some domain =>
        if endsInNumber domain then (ipv4? domain).map ipv4Text else some (String.ofList domain)

def deniedInOpaque : List Char := "\x00\t\n\r #/:<>?@[\\]^|".toList

def opaqueHost? (text : List Char) : Option String :=
  match bracketed? text with
  | some inner => (inner.bind ipv6?).map ipv6Text
  | none =>
    if text.any deniedInOpaque.contains then none else some (String.ofList (encodeControls text))

end Url

end Switchboard
