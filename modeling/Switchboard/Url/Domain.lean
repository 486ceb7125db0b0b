import Switchboard.Unicode.Bidi
import Switchboard.Unicode.DomainMapping
import Switchboard.Unicode.Joining
import Switchboard.Unicode.Mark
import Switchboard.Unicode.Normalization
import Switchboard.Url.Percent
import Switchboard.Url.Punycode

/-!
# Domain names

A domain is brought into its ASCII form before it is compared or shown. Its characters are mapped
and composed, and it falls into labels at its dots; each label must be valid by itself, and where
one is written from right to left all must keep to the rule for such names. A label beyond ASCII is
then written after the mark `xn--`, and a label that comes with this mark must be what a valid label
is written as.
-/

namespace Switchboard

namespace Url

open Unicode (BidiClass JoiningType bidiClass joiningType)

/-- The ASCII characters that no domain may hold, besides blanks and controls. -/
def deniedInDomain : List Char := "%#/:<>?@[\\]^|".toList

def allowedInDomain (c : Char) : Bool :=
  0x20 < c.toNat && c.toNat != 0x7F && !deniedInDomain.contains c

def isAscii (c : Char) : Bool := c.toNat < 0x80

/-! ## Labels -/

def codedMark : List Char := "xn--".toList

def maxUncoded : Nat := 1000

def maxCoded : Nat := 2000

/-- A text in which every character of a domain stands for itself, mapped and composed, or nothing
if one is refused. -/
def mapped? (text : List Char) : Option (List Char) :=
  (text.mapM Unicode.domainChar?).map fun parts => Unicode.compose parts.flatten

/-- Whether what follows an invisible non-joiner joins the character before it. -/
def joinsBefore (after : List Char) : Bool :=
  match after.find? fun c => joiningType c != .transparent with
  | some c => joiningType c == .right || joiningType c == .dual
  | none => false

/-- Whether what stands before an invisible non-joiner, from the last character to the first, joins
the character after it. -/
def joinsAfter (before : List Char) : Bool :=
  match before.find? fun c => joiningType c != .transparent with
  | some c => joiningType c == .left || joiningType c == .dual
  | none => false

/-- Whether the invisible joiners of a label stand where they change how it is written: after a
virama, or, for a non-joiner, between letters that would join. `before` holds what has been passed,
from the last character to the first. -/
def joinersFit (before : List Char) : List Char → Bool
  | [] => true
  | c :: after =>
    let virama := before.head?.any fun b => Unicode.combiningClass b == Unicode.viramaClass
    let fits :=
      if c = '\u200c' then virama || (joinsAfter before && joinsBefore after)
      else if c = '\u200d' then virama
      else true
    fits && joinersFit (c :: before) after

def labelFits (label : List Char) : Bool :=
  label.all (fun c => !isAscii c || allowedInDomain c) &&
    !label.head?.any Unicode.isMark && joinersFit [] label

/-- The label that a label of a mapped domain stands for: it is decoded if it is marked so, and must
then go beyond ASCII and be mapped to itself. -/
def plainLabel? (label : List Char) : Option (List Char) :=
  if codedMark.isPrefixOf label then
    if maxCoded < label.length - codedMark.length then none
    else
      match Punycode.decode? (label.drop codedMark.length) with
      | none => none
      | some plain =>
        if !plain.all isAscii && mapped? plain == some plain && labelFits plain then some plain
        else none
  else if labelFits label then some label
  else none

/-! ## Labels from right to left -/

def turnsDomain (c : Char) : Bool :=
  [.rightToLeft, .arabicLetter, .arabicNumber].contains (bidiClass c)

def neutralClasses : List BidiClass :=
  [.europeanNumber, .europeanSeparator, .commonSeparator, .europeanTerminator, .otherNeutral,
    .boundaryNeutral, .nonspacingMark]

/-- Whether a label keeps to one direction: its first character sets it, the others belong to it or
are neutral, the last but for marks is a letter or a digit, and digits are of one kind only where it
runs from right to left. -/
def directionFits (label : List Char) : Bool :=
  let classes := label.map bidiClass
  let last := (classes.reverse.dropWhile (· == .nonspacingMark)).head?
  match classes with
  | [] => true
  | .leftToRight :: _ =>
    classes.all (fun k => k == .leftToRight || neutralClasses.contains k) &&
      last.any [.leftToRight, .europeanNumber].contains
  | first :: _ =>
    [BidiClass.rightToLeft, .arabicLetter].contains first &&
      classes.all (fun k => [.rightToLeft, .arabicLetter, .arabicNumber].contains k ||
        neutralClasses.contains k) &&
      last.any [.rightToLeft, .arabicLetter, .europeanNumber, .arabicNumber].contains &&
      !(classes.contains .europeanNumber && classes.contains .arabicNumber)

/-! ## Domains -/

def asciiLabel? (label : List Char) : Option (List Char) :=
  if label.all isAscii then some label
  else if maxUncoded < label.length then none
  else some (codedMark ++ Punycode.encode label)

def domainToAscii? (domain : List Char) : Option (List Char) := do
  let text ← mapped? domain
  let labels ← (Unicode.splitAll (· == '.') text).mapM plainLabel?
  if labels.any (·.any turnsDomain) && !labels.all directionFits then none
  let written ← labels.mapM asciiLabel?
  return ['.'].intercalate written

end Url

end Switchboard
