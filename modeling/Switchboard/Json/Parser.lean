import Switchboard.Json.Basic

/-!
# Reading JSON

A text is read from left to right by functions that take a cursor and return what they read together
with the cursor behind it. A failure names its cause and its place. Places count lines from one and,
within a line, the bytes before the place; a failure about the next character is placed behind the
first byte of that character.

Integers from `-2 ^ 63` to `2 ^ 64 - 1` are read exactly. Every other number is a double, formed
from the leading digits that fit into 64 bits and one multiplication or division by a power of ten.
Containers nest at most 127 deep.
-/

namespace Switchboard

attribute [local instance (high)] instPowNat

namespace Json

/-- A place in a text. -/
structure Position where
  line : Nat
  column : Nat
deriving DecidableEq, Repr, Inhabited

/-- Why a text is not JSON. -/
inductive SyntaxError where
  | endInList
  | endInObject
  | endInString
  | endInValue
  | expectedColon
  | expectedListEnd
  | expectedObjectEnd
  | expectedIdent
  | expectedValue
  | invalidEscape
  | invalidNumber
  | numberOutOfRange
  | controlCharacter
  | keyNotString
  | loneSurrogate
  | trailingComma
  | trailingCharacters
  | hexEscapeEnd
  | tooDeep
deriving DecidableEq, Repr, Inhabited

def SyntaxError.message : SyntaxError → String
  | .endInList => "EOF while parsing a list"
  | .endInObject => "EOF while parsing an object"
  | .endInString => "EOF while parsing a string"
  | .endInValue => "EOF while parsing a value"
  | .expectedColon => "expected `:`"
  | .expectedListEnd => "expected `,` or `]`"
  | .expectedObjectEnd => "expected `,` or `\x7d`"
  | .expectedIdent => "expected ident"
  | .expectedValue => "expected value"
  | .invalidEscape => "invalid escape"
  | .invalidNumber => "invalid number"
  | .numberOutOfRange => "number out of range"
  | .controlCharacter => "control character (\\u0000-\\u001F) found while parsing a string"
  | .keyNotString => "key must be a string"
  | .loneSurrogate => "lone leading surrogate in hex escape"
  | .trailingComma => "trailing comma"
  | .trailingCharacters => "trailing characters"
  | .hexEscapeEnd => "unexpected end of hex escape"
  | .tooDeep => "recursion limit exceeded"

/-- A cause and its place. -/
structure ParseError where
  cause : SyntaxError
  place : Position
deriving DecidableEq, Repr, Inhabited

def ParseError.message (e : ParseError) : String :=
  s!"{e.cause.message} at line {e.place.line} column {e.place.column}"

/-- What is left to read, and where it starts. -/
structure Cursor where
  rest : List Char
  pos : Position

namespace Cursor

def ofText (text : String) : Cursor := ⟨text.toList, ⟨1, 0⟩⟩

def after (pos : Position) (c : Char) : Position :=
  if c == '\n' then ⟨pos.line + 1, 0⟩ else ⟨pos.line, pos.column + c.utf8Size⟩

def peekPos (c : Cursor) : Position :=
  match c.rest with
  | [] => c.pos
  | '\n' :: _ => ⟨c.pos.line + 1, 0⟩
  | _ :: _ => ⟨c.pos.line, c.pos.column + 1⟩

def fail {α : Type} (c : Cursor) (cause : SyntaxError) : Except ParseError α := .error ⟨cause, c.pos⟩

def failPeek {α : Type} (c : Cursor) (cause : SyntaxError) : Except ParseError α :=
  .error ⟨cause, c.peekPos⟩

def peek? (c : Cursor) : Option Char := c.rest.head?

def skip (c : Cursor) : Cursor :=
  match c.rest with
  | [] => c
  | x :: xs => ⟨xs, after c.pos x⟩

end Cursor

def isBlank (c : Char) : Bool := c == ' ' || c == '\n' || c == '\t' || c == '\r'

def skipBlanks : List Char → Position → Cursor
  | [], pos => ⟨[], pos⟩
  | x :: xs, pos => if isBlank x then skipBlanks xs (Cursor.after pos x) else ⟨x :: xs, pos⟩

def Cursor.blanks (c : Cursor) : Cursor := skipBlanks c.rest c.pos

def digit? (c : Char) : Option Nat := if c.isDigit then some (c.toNat - '0'.toNat) else none

/-! ## Numbers -/

def significandMax : Nat := 2 ^ (64 : Nat) - 1

def exponentMax : Nat := 2 ^ (31 : Nat) - 1

def skipDigits : List Char → Position → Nat → Nat × Cursor
  | [], pos, n => (n, ⟨[], pos⟩)
  | x :: xs, pos, n =>
    if x.isDigit then skipDigits xs (Cursor.after pos x) (n + 1) else (n, ⟨x :: xs, pos⟩)

/-- Read digits into a significand as long as it stays within `limit`. Returns the significand, how
many digits went into it, and the cursor, which stands before a digit only if that one did not fit. -/
def takeDigits (limit : Nat) : List Char → Position → Nat → Nat → Nat × Nat × Cursor
  | [], pos, sig, n => (sig, n, ⟨[], pos⟩)
  | x :: xs, pos, sig, n =>
    match digit? x with
    | none => (sig, n, ⟨x :: xs, pos⟩)
    | some d =>
      if sig * 10 + d > limit then (sig, n, ⟨x :: xs, pos⟩)
      else takeDigits limit xs (Cursor.after pos x) (sig * 10 + d) (n + 1)

/-- The value `sig * 10 ^ exponent`, by powers of ten up to `10 ^ 308`; `none` is out of range. -/
def scale : Nat → Double → Int → Option Double
  | 0, f, _ => some f
  | fuel + 1, f, exponent =>
    if exponent.natAbs ≤ 308 then
      let power := Double.ofNat (10 ^ exponent.natAbs)
      if exponent ≥ 0 then
        let product := f.mul power
        if product.isFinite then some product else none
      else some (f.div power)
    else if f.isZero then some f
    else if exponent ≥ 0 then none
    else scale fuel (f.div (Double.ofNat (10 ^ (308 : Nat)))) (exponent + 308)

def doubleOfParts (c : Cursor) (positive : Bool) (sig : Nat) (exponent : Int) :
    Except ParseError (Json × Cursor) :=
  match scale 5 (Double.ofNat sig) exponent with
  | none => c.fail .numberOutOfRange
  | some f => .ok (.float (if positive then f else f.neg), c)

def exponentDigits (c : Cursor) (positive positiveExp : Bool) (sig : Nat) (start : Int) (first : Nat) :
    Except ParseError (Json × Cursor) :=
  let (exp, _, c') := takeDigits exponentMax c.rest c.pos first 0
  match c'.peek? with
  | some x =>
    if x.isDigit then
      if sig != 0 && positiveExp then c'.skip.fail .numberOutOfRange
      else
        let zero := Double.zero
        .ok (.float (if positive then zero else zero.neg), (skipDigits c'.rest c'.pos 0).2)
    else doubleOfParts c' positive sig (if positiveExp then start + exp else start - exp)
  | none => doubleOfParts c' positive sig (if positiveExp then start + exp else start - exp)

def exponentPart (c : Cursor) (positive : Bool) (sig : Nat) (start : Int) :
    Except ParseError (Json × Cursor) :=
  let c := c.skip
  let (positiveExp, c) :=
    match c.peek? with
    | some '+' => (true, c.skip)
    | some '-' => (false, c.skip)
    | _ => (true, c)
  match c.peek? with
  | none => c.fail .endInValue
  | some x =>
    match digit? x with
    | none => c.failPeek .invalidNumber
    | some d => exponentDigits c.skip positive positiveExp sig start d

def afterDigits (c : Cursor) (positive : Bool) (sig : Nat) (exponent : Int) :
    Except ParseError (Json × Cursor) :=
  match c.peek? with
  | some 'e' => exponentPart c positive sig exponent
  | some 'E' => exponentPart c positive sig exponent
  | _ => doubleOfParts c positive sig exponent

def fractionPart (c : Cursor) (positive : Bool) (sig : Nat) (before : Int) :
    Except ParseError (Json × Cursor) :=
  let c := c.skip
  let (sig, n, c) := takeDigits significandMax c.rest c.pos sig 0
  let dropped := skipDigits c.rest c.pos 0
  if n == 0 && dropped.1 == 0 then
    c.failPeek (if c.rest.isEmpty then .endInValue else .invalidNumber)
  else afterDigits dropped.2 positive sig (before - n)

/-- The rest of a number whose integer part has been read into `sig`, `before` digits dropped. -/
def numberRest (c : Cursor) (positive : Bool) (sig : Nat) (before : Nat) :
    Except ParseError (Json × Cursor) :=
  match c.peek? with
  | some '.' => fractionPart c positive sig before
  | some 'e' => exponentPart c positive sig before
  | some 'E' => exponentPart c positive sig before
  | _ =>
    if before != 0 then doubleOfParts c positive sig before
    else if positive then .ok (.int sig, c)
    else if sig != 0 && sig ≤ 2 ^ (63 : Nat) then .ok (.int (-(sig : Int)), c)
    else .ok (.float (Double.ofNat sig).neg, c)

def number (c : Cursor) (positive : Bool) : Except ParseError (Json × Cursor) :=
  match c.peek? with
  | none => c.fail .endInValue
  | some '0' =>
    let c := c.skip
    match c.peek? with
    | some x => if x.isDigit then c.failPeek .invalidNumber else numberRest c positive 0 0
    | none => numberRest c positive 0 0
  | some x =>
    if x.isDigit then
      let (sig, _, c) := takeDigits significandMax c.rest c.pos 0 0
      let dropped := skipDigits c.rest c.pos 0
      numberRest dropped.2 positive sig dropped.1
    else c.failPeek .invalidNumber

/-! ## Strings -/

def hexValue? (c : Char) : Option Nat :=
  if c.isDigit then some (c.toNat - '0'.toNat)
  else if 'a' ≤ c && c ≤ 'f' then some (c.toNat - 'a'.toNat + 10)
  else if 'A' ≤ c && c ≤ 'F' then some (c.toNat - 'A'.toNat + 10)
  else none

def endPos (rest : List Char) (pos : Position) : Position := rest.foldl Cursor.after pos

def hasBytes : Nat → List Char → Bool
  | 0, _ => true
  | _ + 1, [] => false
  | n + 1, c :: rest => hasBytes (n + 1 - c.utf8Size) rest

def byteOffset : Nat → List Char → Position → Position
  | 0, _, pos => pos
  | _ + 1, [], pos => pos
  | n + 1, c :: rest, pos =>
    if c.utf8Size ≤ n + 1 then byteOffset (n + 1 - c.utf8Size) rest (Cursor.after pos c)
    else ⟨pos.line, pos.column + (n + 1)⟩

def hexEscape (c : Cursor) : Except ParseError (Nat × Cursor) :=
  match c.rest with
  | a :: b :: d :: e :: rest =>
    match hexValue? a, hexValue? b, hexValue? d, hexValue? e with
    | some a, some b, some d, some e =>
      .ok (a * 4096 + b * 256 + d * 16 + e, ⟨rest, ⟨c.pos.line, c.pos.column + 4⟩⟩)
    | _, _, _, _ => .error ⟨.invalidEscape, byteOffset 4 c.rest c.pos⟩
  | rest =>
    if hasBytes 4 rest then .error ⟨.invalidEscape, byteOffset 4 rest c.pos⟩
    else .error ⟨.endInString, endPos rest c.pos⟩

def expectInPair (c : Cursor) (want : Char) : Except ParseError Cursor :=
  match c.peek? with
  | none => c.fail .endInString
  | some x => if x == want then .ok c.skip else c.failPeek .hexEscapeEnd

/-- A character given by its number, `\u` read. Characters above `0xFFFF` come as two. -/
def unicodeEscape (c : Cursor) : Except ParseError (Char × Cursor) := do
  let (n, c) ← hexEscape c
  if 0xDC00 ≤ n && n ≤ 0xDFFF then c.fail .loneSurrogate
  else if n < 0xD800 || 0xDBFF < n then .ok (Char.ofNat n, c)
  else
    let c ← expectInPair c '\\'
    let c ← expectInPair c 'u'
    let (m, c) ← hexEscape c
    if m < 0xDC00 || 0xDFFF < m then c.fail .loneSurrogate
    else .ok (Char.ofNat ((n - 0xD800) * 1024 + (m - 0xDC00) + 0x10000), c)

def escape (c : Cursor) : Except ParseError (Char × Cursor) :=
  match c.peek? with
  | none => c.fail .endInString
  | some x =>
    match x with
    | '"' => .ok ('"', c.skip)
    | '\\' => .ok ('\\', c.skip)
    | '/' => .ok ('/', c.skip)
    | 'b' => .ok ('\x08', c.skip)
    | 'f' => .ok ('\x0c', c.skip)
    | 'n' => .ok ('\n', c.skip)
    | 'r' => .ok ('\r', c.skip)
    | 't' => .ok ('\t', c.skip)
    | 'u' => unicodeEscape c.skip
    | _ => c.failPeek .invalidEscape

def plainRun : List Char → Position → String → String × Cursor
  | [], pos, acc => (acc, ⟨[], pos⟩)
  | x :: xs, pos, acc =>
    if x == '"' || x == '\\' || x.toNat < 0x20 then (acc, ⟨x :: xs, pos⟩)
    else plainRun xs ⟨pos.line, pos.column + x.utf8Size⟩ (acc.push x)

def stringRest : Nat → Cursor → String → Except ParseError (String × Cursor)
  | 0, c, _ => c.fail .endInString
  | fuel + 1, c, acc =>
    let (acc, c) := plainRun c.rest c.pos acc
    match c.rest with
    | [] => c.fail .endInString
    | '"' :: _ => .ok (acc, c.skip)
    | '\\' :: _ =>
      match escape c.skip with
      | .error e => .error e
      | .ok (x, c) => stringRest fuel c (acc.push x)
    | _ :: _ => c.failPeek .controlCharacter

def string (c : Cursor) : Except ParseError (String × Cursor) := stringRest (c.rest.length + 1) c ""

/-! ## Values -/

def word : List Char → Cursor → Except ParseError Cursor
  | [], c => .ok c
  | w :: ws, c =>
    match c.peek? with
    | none => c.fail .endInValue
    | some x => if x == w then word ws c.skip else c.failPeek .expectedIdent

def literal (c : Cursor) (rest : List Char) (v : Json) : Except ParseError (Json × Cursor) :=
  match word rest c.skip with
  | .error e => .error e
  | .ok c => .ok (v, c)

def depthLimit : Nat := 128

mutual

/-- A value. `depth` counts the containers that may still be opened, plus one. -/
def value : Nat → Nat → Cursor → Except ParseError (Json × Cursor)
  | 0, _, c => c.fail .endInValue
  | fuel + 1, depth, c =>
    let c := c.blanks
    match c.rest with
    | [] => c.failPeek .endInValue
    | x :: _ =>
      match x with
      | 'n' => literal c ['u', 'l', 'l'] .null
      | 't' => literal c ['r', 'u', 'e'] (.bool true)
      | 'f' => literal c ['a', 'l', 's', 'e'] (.bool false)
      | '-' => number c.skip false
      | '"' =>
        match string c.skip with
        | .error e => .error e
        | .ok (s, c) => .ok (.str s, c)
      | '[' => if depth ≤ 1 then c.failPeek .tooDeep else items fuel (depth - 1) c.skip true []
      | '\x7b' => if depth ≤ 1 then c.failPeek .tooDeep else fields fuel (depth - 1) c.skip true []
      | x => if x.isDigit then number c true else c.failPeek .expectedValue

/-- The elements of a list, the last one read first in `acc`, up to its closing bracket. -/
def items : Nat → Nat → Cursor → Bool → List Json → Except ParseError (Json × Cursor)
  | 0, _, c, _, _ => c.fail .endInList
  | fuel + 1, depth, c, first, acc =>
    let c := c.blanks
    match c.rest with
    | [] => c.failPeek .endInList
    | x :: _ =>
      if x == ']' then .ok (.arr acc.reverse, c.skip)
      else if first then
        match value fuel depth c with
        | .error e => .error e
        | .ok (v, c) => items fuel depth c false (v :: acc)
      else if x == ',' then
        let c := c.skip.blanks
        match c.rest with
        | [] => c.failPeek .endInValue
        | ']' :: _ => c.failPeek .trailingComma
        | _ :: _ =>
          match value fuel depth c with
          | .error e => .error e
          | .ok (v, c) => items fuel depth c false (v :: acc)
      else c.failPeek .expectedListEnd

def fields : Nat → Nat → Cursor → Bool → List (String × Json) → Except ParseError (Json × Cursor)
  | 0, _, c, _, _ => c.fail .endInObject
  | fuel + 1, depth, c, first, acc =>
    let c := c.blanks
    match c.rest with
    | [] => c.failPeek .endInObject
    | x :: _ =>
      if x == '\x7d' then .ok (.object acc.reverse, c.skip)
      else if first then member fuel depth c acc
      else if x == ',' then member fuel depth c.skip.blanks acc
      else c.failPeek .expectedObjectEnd

def member : Nat → Nat → Cursor → List (String × Json) → Except ParseError (Json × Cursor)
  | 0, _, c, _ => c.fail .endInObject
  | fuel + 1, depth, c, acc =>
    match c.rest with
    | [] => c.failPeek .endInValue
    | '\x7d' :: _ => c.failPeek .trailingComma
    | '"' :: _ =>
      match string c.skip with
      | .error e => .error e
      | .ok (k, c) =>
        let c := c.blanks
        match c.rest with
        | [] => c.failPeek .endInObject
        | ':' :: _ =>
          match value fuel depth c.skip with
          | .error e => .error e
          | .ok (v, c) => fields fuel depth c false ((k, v) :: acc)
        | _ :: _ => c.failPeek .expectedColon
    | _ :: _ => c.failPeek .keyNotString

end

def parse (text : String) : Except ParseError Json :=
  let c := Cursor.ofText text
  match value (3 * c.rest.length + 3) depthLimit c with
  | .error e => .error e
  | .ok (v, c) =>
    let c := c.blanks
    if c.rest.isEmpty then .ok v else c.failPeek .trailingCharacters

end Json

end Switchboard
