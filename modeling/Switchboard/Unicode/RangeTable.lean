/-!
# Tables of code points

A property of characters is written as a text: stretches of code points in ascending order, each
with the code points it stands for where the property has such. A stretch is `GN`: it begins `G`, in
capitals, after the end of the one before, and has `N` more code points. `G>C,D` says that the code
point there stands for `C` and then `D`, and `~` takes the place of `>` where that relation is not to be
read backwards; a `G` of 1 is left out. Of `C` and `D` each is left out if it is the same as in the
stretch before, and `+C` is that much more than there. `G/N` goes on with every other code point, `N`
times. Looking a character up is a binary search.
-/

namespace Switchboard

namespace Unicode

/-- A stretch of code points, and what they stand for. -/
structure Stretch where
  first : Nat
  last : Nat
  /-- The code points that the first one stands for. -/
  target : List Nat := []
  /-- Whether the target leads back to the first code point. -/
  reversible : Bool := true
deriving Repr, DecidableEq, Inhabited

def isCapital (c : Char) : Bool := 'A' ≤ c && c ≤ 'Z'

def isArrow (c : Char) : Bool := c == '>' || c == '~'

/-- The value of a digit. Capitals are digits of their own, and any other character counts as nothing. -/
def digit (c : Char) : Nat :=
  if isCapital c then c.toNat - 'A'.toNat
  else if '0' ≤ c ∧ c ≤ '9' then c.toNat - '0'.toNat
  else if 'a' ≤ c ∧ c ≤ 'z' then c.toNat - 'a'.toNat + 10
  else 0

def number (base : Nat) (digits : List Char) : Nat := digits.foldl (fun n c => base * n + digit c) 0

/-- The texts of the stretches. One begins with a capital, or with an arrow after another arrow. -/
def stretches (text : List Char) : List (List Char) :=
  let (done, last) := text.foldl (fun (done, word) c =>
    if isCapital c && !word.head?.all isCapital || isArrow c && word.any isArrow then
      (word.reverse :: done, [c])
    else (done, c :: word)) (([] : List (List Char)), ([] : List Char))
  (last.reverse :: done).reverse

def splitAll (cut : Char → Bool) : List Char → List (List Char)
  | [] => [[]]
  | c :: rest =>
    if cut c then [] :: splitAll cut rest
    else
      match splitAll cut rest with
      | [] => [[c]]
      | word :: words => (c :: word) :: words

def readTarget (before : List Nat) (word : List Char) : List Nat :=
  (splitAll (· == ',') word).mapIdx fun i digits =>
    match digits with
    | [] => before.getD i 0
    | '+' :: more => before.getD i 0 + number 36 more
    | _ => number 36 digits

def Stretch.read (before : Stretch) (word : List Char) : List Stretch :=
  let range := word.takeWhile (!isArrow ·)
  let rest := word.drop range.length
  let gap := range.takeWhile isCapital
  let first := before.last + if gap.isEmpty then 1 else number 26 gap
  let more := number 36 (range.drop gap.length)
  let target := if rest.isEmpty then [] else readTarget before.target rest.tail
  let reversible := rest.head? == some '>'
  if range.contains '/' then
    (List.range (more + 1)).map fun k =>
      { first := first + 2 * k, last := first + 2 * k, target := target.map (· + 2 * k), reversible }
  else [{ first, last := first + more, target, reversible }]

abbrev RangeTable := Array Stretch

namespace RangeTable

def ofLines (lines : List String) : RangeTable :=
  (stretches (lines.flatMap String.toList)).foldl
    (fun t word => t ++ Stretch.read (t.back?.getD { first := 0, last := 0 }) word) #[]

/-- Searches for the stretch that holds `code` among those from `low` up to but not including
`high`. -/
def search (t : RangeTable) (code low high : Nat) : Option Stretch :=
  if low < high then
    let mid := (low + high) / 2
    match t[mid]? with
    | none => none
    | some s =>
      if code < s.first then search t code low mid
      else if s.last < code then search t code (mid + 1) high
      else some s
  else none
termination_by high - low

def find? (t : RangeTable) (c : Char) : Option Stretch := t.search c.toNat 0 t.size

def holds (t : RangeTable) (c : Char) : Bool := (t.find? c).isSome

end RangeTable

end Unicode

end Switchboard
