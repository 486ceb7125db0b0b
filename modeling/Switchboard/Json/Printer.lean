import Switchboard.Json.Basic
import Switchboard.Number.Shortest

/-!
# Writing JSON

The compact form has no blanks. The indented form puts every element on its own line, two blanks
deeper than its container, and writes an empty container as in the compact form. Text outside ASCII
is written as it is; only the quote, the backslash and the control characters are escaped.
-/

namespace Switchboard

namespace Json

def hexDigit (n : Nat) : Char := (Nat.digitChar n)

def escapeChar (c : Char) : String :=
  match c with
  | '"' => "\\\""
  | '\\' => "\\\\"
  | '\x08' => "\\b"
  | '\x0c' => "\\f"
  | '\n' => "\\n"
  | '\r' => "\\r"
  | '\t' => "\\t"
  | c =>
    if c.toNat < 0x20 then
      "\\u00" ++ String.ofList [hexDigit (c.toNat / 16), hexDigit (c.toNat % 16)]
    else String.singleton c

def pushEscaped (acc : String) (c : Char) : String :=
  if c.toNat < 0x20 || c == '"' || c == '\\' then acc ++ escapeChar c else acc.push c

def quote (s : String) : String := (s.foldl pushEscaped "\"").push '"'

/-- Doubles always show a fraction or an exponent; the exponent form starts at `1e16` and below
`1e-5`. -/
def doubleFormat : DecimalFormat where
  positionalFrom := -5
  exponentFrom := 16
  wholeSuffix := ".0"
  exponentMark := "e"
  positiveExponentSign := "+"

def doubleText (d : Double) : String :=
  (if d.isNegative then "-" else "") ++ d.shortest.render doubleFormat

def joinWith (sep : String) : List String → String
  | [] => ""
  | [x] => x
  | x :: rest => x ++ sep ++ joinWith sep rest

mutual

def write (acc : String) : Json → String
  | .null => acc ++ "null"
  | .bool true => acc ++ "true"
  | .bool false => acc ++ "false"
  | .int i => acc ++ toString i
  | .float d => acc ++ (if d.isFinite then doubleText d else "null")
  | .str s => (s.foldl pushEscaped (acc.push '"')).push '"'
  | .arr [] => acc ++ "[]"
  | .arr (x :: xs) => (writeItems (write (acc.push '[') x) xs).push ']'
  | .obj [] => acc ++ "\x7b\x7d"
  | .obj ((k, v) :: rest) =>
    (writeFields (write ((k.foldl pushEscaped (acc ++ "\x7b\"")) ++ "\":") v) rest) ++ "\x7d"

def writeItems (acc : String) : List Json → String
  | [] => acc
  | x :: xs => writeItems (write (acc.push ',') x) xs

def writeFields (acc : String) : List (String × Json) → String
  | [] => acc
  | (k, v) :: rest => writeFields (write ((k.foldl pushEscaped (acc ++ ",\"")) ++ "\":") v) rest

end

def render (v : Json) : String := write "" v

def newline (depth : Nat) : String := "\n" ++ String.ofList (List.replicate (2 * depth) ' ')

mutual

def prettyAt (depth : Nat) : Json → String
  | .arr [] => "[]"
  | .arr (x :: xs) =>
    "[" ++ newline (depth + 1) ++ prettyAt (depth + 1) x ++ prettyItems depth xs ++ newline depth ++ "]"
  | .obj [] => "\x7b\x7d"
  | .obj ((k, v) :: rest) =>
    "\x7b" ++ newline (depth + 1) ++ quote k ++ ": " ++ prettyAt (depth + 1) v
      ++ prettyFields depth rest ++ newline depth ++ "\x7d"
  | v => render v

def prettyItems (depth : Nat) : List Json → String
  | [] => ""
  | x :: xs => "," ++ newline (depth + 1) ++ prettyAt (depth + 1) x ++ prettyItems depth xs

def prettyFields (depth : Nat) : List (String × Json) → String
  | [] => ""
  | (k, v) :: rest =>
    "," ++ newline (depth + 1) ++ quote k ++ ": " ++ prettyAt (depth + 1) v ++ prettyFields depth rest

end

def renderPretty (v : Json) : String := prettyAt 0 v

/-- What a value is, without its content: for logs that must not show payloads. -/
def outline : Json → String
  | .null => "null"
  | .bool _ => "<bool>"
  | .int _ => "<number>"
  | .float _ => "<number>"
  | .str s => s!"<string len={s.utf8ByteSize}>"
  | .arr items => s!"<array len={items.length}>"
  | .obj fields => s!"<object keys={fields.length}>"

end Json

end Switchboard
