import Switchboard.Permission.Desk
import Switchboard.Text.Blank
import Switchboard.Text.Utf8

/-!
# Asking the operator

A prompt is either answered the same way every time or put to the operator on a terminal: the question
goes out, and one line comes in. Only `y` and `yes` let the client in, in any case of letters and with
blanks around.
-/

namespace Switchboard

/-- A terminal: what the operator will still type, and what has been written. -/
structure Terminal where
  input : List UInt8
  output : String := ""
deriving Inhabited

namespace Terminal

def question (r : PromptRequest) : String :=
  let who :=
    if r.known then s!"\"{r.clientName}\" ({r.origin})"
    else s!"an unknown client {r.clientName} ({r.origin})"
  s!"Allow {who} to use the server? More info: {r.infoLink}\n[y/N]: "

def isYes (answer : String) : Bool :=
  let word := (Text.trim answer.toList).map Char.toLower
  word == ['y'] || word == ['y', 'e', 's']

def writeLine (t : Terminal) (line : String) : Terminal := { t with output := t.output ++ line ++ "\n" }

def cutLine : List UInt8 → List UInt8 × List UInt8
  | [] => ([], [])
  | b :: rest =>
    if b == 0x0A then ([b], rest)
    else
      let (line, others) := cutLine rest
      (b :: line, others)

/-- A line without its end, which is a line feed and perhaps a carriage return before it. -/
def chomp (line : List UInt8) : List UInt8 :=
  match line.reverse with
  | 0x0A :: 0x0D :: rest => rest.reverse
  | 0x0A :: rest => rest.reverse
  | _ => line

/-- The next line typed; none at the end. A line that is no text is skipped and reported. -/
def readLine (t : Terminal) : Terminal × Except Fault (Option String) :=
  match t.input with
  | [] => (t, .ok none)
  | _ =>
    let (line, rest) := cutLine t.input
    let t := { t with input := rest }
    let line := chomp line
    match Text.utf8Flaw? line with
    | some flaw => (t, .error (.io flaw.message))
    | none => (t, .ok (String.fromUTF8? ⟨line.toArray⟩))

def ask (t : Terminal) (r : PromptRequest) : Terminal × Except Fault Bool :=
  match (t.writeLine (question r)).readLine with
  | (t, .error e) => (t, .error e)
  | (t, .ok (some line)) => (t, .ok (isYes line))
  | (t, .ok none) => (t, .error (.other "the terminal was closed before answering"))

def retract (t : Terminal) (origin : String) : Terminal :=
  t.writeLine s!"Client {origin} was allowed by the policy; no answer is needed."

end Terminal

end Switchboard
