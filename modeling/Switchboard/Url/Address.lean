import Switchboard.Url.Percent

/-!
# Numeric hosts

An address of four bytes may be written with one to four numbers, each decimal, octal (with a leading
zero) or hexadecimal (with a leading `0x`); the last one fills the bytes that are left. An address of
eight 16-bit pieces is written in hexadecimal; `::` stands once for a run of zeros, and the last two
pieces may be written as four decimal bytes.
-/

namespace Switchboard

attribute [local instance (high)] instPowNat

namespace Url

def splitAt (sep : Char) : List Char → List (List Char)
  | [] => [[]]
  | c :: rest =>
    if c == sep then [] :: splitAt sep rest
    else
      match splitAt sep rest with
      | [] => [[c]]
      | part :: parts => (c :: part) :: parts

/-! ## Four bytes -/

def natOfDigits? (radix : Nat) (cs : List Char) : Option Nat :=
  cs.foldl (fun acc c =>
    match acc, hexDigit? c with
    | some n, some d => if d < radix then some (n * radix + d) else none
    | _, _ => none) (some 0)

def ipv4Number? : List Char → Option Nat
  | [] => none
  | '0' :: 'x' :: rest => natOfDigits? 16 rest
  | '0' :: 'X' :: rest => natOfDigits? 16 rest
  | '0' :: c :: rest => natOfDigits? 8 (c :: rest)
  | cs => natOfDigits? 10 cs

def dropEmptyEnd (parts : List (List Char)) : List (List Char) :=
  if parts.getLast? == some [] then parts.dropLast else parts

/-- Whether a domain must be read as a four-byte address: its last part is a number. -/
def endsInNumber (domain : List Char) : Bool :=
  let parts := splitAt '.' domain
  match (if parts.length > 1 then dropEmptyEnd parts else parts).getLast? with
  | none => false
  | some last => (!last.isEmpty && last.all Char.isDigit) || (ipv4Number? last).isSome

def ipv4Numbers? (parts : List (List Char)) : Option (List Nat) := parts.mapM ipv4Number?

def ipv4OfNumbers? (numbers : List Nat) : Option Nat :=
  match numbers.getLast? with
  | none => none
  | some last =>
    let front := numbers.dropLast
    if front.length > 3 || front.any (· > 255) || last ≥ 256 ^ (4 - front.length) then none
    else some (front.zipIdx.foldl (fun sum p => sum + p.1 * 256 ^ (3 - p.2)) last)

def ipv4? (domain : List Char) : Option Nat :=
  let parts := dropEmptyEnd (splitAt '.' domain)
  if parts.length > 4 then none else (ipv4Numbers? parts).bind ipv4OfNumbers?

def ipv4Text (n : Nat) : String :=
  s!"{n / 16777216 % 256}.{n / 65536 % 256}.{n / 256 % 256}.{n % 256}"

/-! ## Eight pieces -/

/-- The state of reading an address of eight pieces: the pieces so far, and how many of them stood
before a `::`. -/
structure PieceReader where
  pieces : List Nat
  gap : Option Nat
deriving Repr

def takeHex : Nat → Nat → List Char → Nat × List Char
  | 0, acc, rest => (acc, rest)
  | _ + 1, acc, [] => (acc, [])
  | n + 1, acc, c :: rest =>
    match hexDigit? c with
    | some d => takeHex n (acc * 16 + d) rest
    | none => (acc, c :: rest)

def decimalByte? (cs : List Char) : Option Nat :=
  match cs with
  | [] => none
  | ['0'] => some 0
  | '0' :: _ => none
  | _ => if cs.all Char.isDigit then (natOfDigits? 10 cs).filter (· < 256) else none

def embeddedIpv4? (cs : List Char) : Option (List Nat) :=
  match (splitAt '.' cs).mapM decimalByte? with
  | some [a, b, c, d] => some [a * 256 + b, c * 256 + d]
  | _ => none

def readPieces : Nat → List Char → PieceReader → Option PieceReader
  | 0, _, _ => none
  | _ + 1, [], s => some s
  | fuel + 1, ':' :: rest, s =>
    -- A second `::`, or a colon where a piece should start, is no address.
    if s.gap.isSome || s.pieces.length ≥ 8 then none
    else readPieces fuel rest { s with gap := some s.pieces.length }
  | fuel + 1, cs, s =>
    if s.pieces.length ≥ 8 then none
    else
      let (value, rest) := takeHex 4 0 cs
      match rest with
      | '.' :: _ =>
        if s.pieces.length > 6 || cs.head? == some '.' then none
        else (embeddedIpv4? cs).map fun two => { s with pieces := s.pieces ++ two }
      | ':' :: [] => none
      | ':' :: more => readPieces fuel more { s with pieces := s.pieces ++ [value] }
      | [] => some { s with pieces := s.pieces ++ [value] }
      | _ => none

def ipv6? (cs : List Char) : Option (List Nat) :=
  let start : Option (List Char × PieceReader) :=
    match cs with
    | ':' :: ':' :: rest => some (rest, ⟨[], some 0⟩)
    | ':' :: _ => none
    | cs => some (cs, ⟨[], none⟩)
  match start with
  | none => none
  | some (rest, s) =>
    match readPieces (rest.length + 1) rest s with
    | none => none
    | some r =>
      match r.gap with
      | none => if r.pieces.length = 8 then some r.pieces else none
      | some g =>
        if r.pieces.length ≥ 8 then none
        else some (r.pieces.take g ++ List.replicate (8 - r.pieces.length) 0 ++ r.pieces.drop g)

def zeroRun (pieces : List Nat) : Nat := (pieces.takeWhile (· == 0)).length

/-- The first longest run of at least two zeros: where it starts and how long it is. -/
def longestZeroRun (pieces : List Nat) : Option (Nat × Nat) :=
  (List.range pieces.length).foldl (fun best i =>
    let n := zeroRun (pieces.drop i)
    let most := match best with
      | some (_, m) => m
      | none => 1
    if n > most then some (i, n) else best) none

def hexText (n : Nat) : String := String.ofList (Nat.toDigits 16 n)

def piecesText (pieces : List Nat) : String :=
  match pieces with
  | [] => ""
  | p :: rest => rest.foldl (fun acc q => acc ++ ":" ++ hexText q) (hexText p)

def ipv6Text (pieces : List Nat) : String :=
  match longestZeroRun pieces with
  | none => "[" ++ piecesText pieces ++ "]"
  | some (start, n) =>
    "[" ++ piecesText (pieces.take start) ++ "::" ++ piecesText (pieces.drop (start + n)) ++ "]"

end Url

end Switchboard
