import Switchboard.Unicode.Visible

/-!
# Quoted text

A text between double quotes as diagnostics show it: quotes, backslashes and the usual control
characters are escaped by a letter, other characters that would not show by their number.
-/

namespace Switchboard

namespace Text

def quotedChar (c : Char) : String :=
  match c with
  | '"' => "\\\""
  | '\\' => "\\\\"
  | '\n' => "\\n"
  | '\r' => "\\r"
  | '\t' => "\\t"
  | '\x00' => "\\0"
  | c =>
    if Unicode.shows c then String.singleton c
    else "\\u\x7b" ++ String.ofList (Nat.toDigits 16 c.toNat) ++ "\x7d"

def quoted (s : String) : String := "\"" ++ String.join (s.toList.map quotedChar) ++ "\""

end Text

end Switchboard
