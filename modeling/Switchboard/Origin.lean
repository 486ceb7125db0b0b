import Switchboard.Url.Parser

/-!
# Origins

A client is known by its origin, an address such as `https://example.org`. Browser extensions have
identifiers of 32 letters from `a` to `p`; where origins are configured a bare identifier stands for
the extension's origin.
-/

namespace Switchboard

namespace Origin

def extensionScheme : String := "chrome-extension"

def extensionIdLength : Nat := 32

def isExtensionIdChar (c : Char) : Bool := 'a' ≤ c && c ≤ 'p'

def isExtensionId (s : String) : Bool :=
  s.toList.length == extensionIdLength && s.toList.all isExtensionIdChar

def ofExtensionId (id : String) : String := extensionScheme ++ "://" ++ id

def extensionId? (origin : String) : Option String :=
  match Url.parse? origin with
  | some url => if url.scheme == extensionScheme then url.host else none
  | none => none

def normalize (identifier : String) : String :=
  if isExtensionId identifier then ofExtensionId identifier else identifier

def clientName : Option String → String
  | none => ""
  | some origin =>
    match Url.parse? origin with
    | none => origin
    | some url =>
      match url.host, url.port with
      | some host, some port => s!"{host}:{port}"
      | some host, none => host
      | none, _ => origin

def infoLink (origin : String) : String :=
  match extensionId? origin with
  | some id => "https://chrome.google.com/webstore/detail/" ++ id
  | none => origin

end Origin

end Switchboard
