/-!
# Percent coding

In a percent-coded text `%hh` stands for one byte. A percent sign that is not followed by two
hexadecimal digits stands for itself.
-/

namespace Switchboard

namespace Url

def hexDigit? (c : Char) : Option Nat :=
  if c.isDigit then some (c.toNat - '0'.toNat)
  else if 'a' ≤ c && c ≤ 'f' then some (c.toNat - 'a'.toNat + 10)
  else if 'A' ≤ c && c ≤ 'F' then some (c.toNat - 'A'.toNat + 10)
  else none

def charBytes (c : Char) : List UInt8 := (String.singleton c).toUTF8.data.toList

def percentDecode : List Char → List UInt8
  | '%' :: a :: b :: rest =>
    match hexDigit? a, hexDigit? b with
    | some x, some y => (x * 16 + y).toUInt8 :: percentDecode rest
    | _, _ => '%'.toNat.toUInt8 :: percentDecode (a :: b :: rest)
  | c :: rest => charBytes c ++ percentDecode rest
  | [] => []
termination_by cs => cs.length

def upperHex (n : Nat) : Char := (Nat.digitChar n).toUpper

def percentByte (b : UInt8) : List Char := ['%', upperHex (b.toNat / 16), upperHex (b.toNat % 16)]

def isControlOrWide (c : Char) : Bool := c.toNat < 0x20 || 0x7E < c.toNat

def encodeControls (cs : List Char) : List Char :=
  cs.flatMap fun c => if isControlOrWide c then (charBytes c).flatMap percentByte else [c]

end Url

end Switchboard
