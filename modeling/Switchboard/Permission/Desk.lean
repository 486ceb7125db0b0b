import Switchboard.Table
import Switchboard.Permission.AllowList
import Switchboard.Permission.KnownClients
import Switchboard.Storage.Decisions

/-!
# The permission desk

Whether a client may talk to the server is decided in a fixed order: the administrator's list, the
operator's standing approval, the user's stored decision, and at last a prompt to the user.

A check makes progress only when somebody looks at it (`look`). It first waits for the list to be
loaded. When the list does not have the origin, the check joins the inquiry about that origin, of
which there is at most one in the memo; while the inquiry waits for the stored decisions to be read or
for the user, the list is looked at again each time, and an origin that has come onto the list is let
in, its inquiry forgotten and its prompt closed.

What has to happen outside (a prompt shown or closed, a grant to be stored) is returned as a list of
`Errand`s in order.
-/

namespace Switchboard

/-- What a prompt tells the user about a client. -/
structure PromptRequest where
  origin : String
  known : Bool
  clientName : String
  infoLink : String
deriving DecidableEq, Repr, Inhabited

/-- How a prompt ends. -/
inductive Answer where
  | yes
  | no
  | dismissed
deriving DecidableEq, Repr, Inhabited

structure Prompt where
  origin : String
  answer : Option Answer := none
deriving DecidableEq, Repr, Inhabited

inductive InquiryPhase where
  | fresh
  | asking (prompt : Nat)
  | settled (outcome : Except Fault Unit)
deriving Inhabited

/-- An inquiry with the user about an origin. -/
structure Inquiry where
  origin : String
  client : Option KnownClient
  phase : InquiryPhase := .fresh
deriving Inhabited

inductive CheckPhase where
  | start
  | racing (inquiry : Nat)
  | settled (outcome : Except Fault Unit)
deriving Inhabited

/-- A permission check of an origin. -/
structure Check where
  origin : String
  phase : CheckPhase := .start
deriving Inhabited

/-- Something to be done outside. -/
inductive Errand where
  | display (request : PromptRequest)
  | close (origin : String)
  | store (origin : String)
deriving DecidableEq, Repr, Inhabited

/-- The sources of permission with the checks and inquiries under way. -/
structure Desk where
  list : AllowList := .loading
  known : KnownClients := {}
  decisions : Decisions := []
  /-- Reading the stored decisions fails. -/
  unreadable : Bool := false
  /-- Storing a decision fails. -/
  unwritable : Bool := false
  /-- The stored decisions are still being read, as those of a file are for a while. -/
  loading : Bool := false
  /-- The user's answer to every prompt, if it is known beforehand. -/
  standing : Option Answer := none
  read : Option Decisions := none
  /-- The origins with a prompt on show. -/
  pending : List String := []
  /-- The inquiry of each origin. -/
  memo : List (String × Nat) := []
  prompts : Table Prompt := {}
  inquiries : Table Inquiry := {}
  checks : Table Check := {}
deriving Inhabited

namespace Desk

/-! ## Inquiries -/

def deniedByStore (origin : String) : Fault :=
  .permissionDenied origin "rejected due to the stored user selection"

def deniedByUser (origin : String) : Fault := .permissionDenied origin "rejected by the user"

def dismissed (origin : String) : Fault :=
  .permissionDenied origin "the permission prompt was dismissed"

def inquire (d : Desk) (origin : String) : Desk :=
  { d with inquiries := d.inquiries.push { origin := origin, client := d.known.find? origin } }

def setInquiry (d : Desk) (i : Nat) (phase : InquiryPhase) : Desk :=
  { d with inquiries := d.inquiries.modify i fun q => { q with phase := phase } }

def request (q : Inquiry) : PromptRequest :=
  match q.client with
  | some client => ⟨q.origin, true, client.name, Origin.infoLink q.origin⟩
  | none => ⟨q.origin, false, Origin.clientName (some q.origin), Origin.infoLink q.origin⟩

def decisionsRead (d : Desk) : Decisions :=
  d.read.getD (if d.unreadable then [] else d.decisions)

def conclude (d : Desk) (i : Nat) (origin : String) (answer : Answer) :
    Desk × List Errand × Option (Except Fault Unit) :=
  let outcome : Except Fault Unit :=
    match answer with
    | .yes => .ok ()
    | .no => .error (deniedByUser origin)
    | .dismissed => .error (dismissed origin)
  let errands := if answer = .yes then [Errand.store origin] else []
  (({ d with pending := d.pending.filter (· != origin) }).setInquiry i (.settled outcome), errands,
    some outcome)

def ask (d : Desk) (i : Nat) (q : Inquiry) : Desk × List Errand × Option (Except Fault Unit) :=
  let shown : Errand := .display (request q)
  let p := d.prompts.size
  let d := { d with
    pending := if d.pending.contains q.origin then d.pending else d.pending ++ [q.origin]
    prompts := d.prompts.push { origin := q.origin, answer := d.standing } }
  let d := d.setInquiry i (.asking p)
  match d.standing with
  | none => (d, [shown], none)
  | some answer =>
    let (d, errands, outcome) := d.conclude i q.origin answer
    (d, shown :: errands, outcome)

def startInquiry (d : Desk) (i : Nat) (q : Inquiry) :
    Desk × List Errand × Option (Except Fault Unit) :=
  if q.client.any (·.autoapprove) then (d.setInquiry i (.settled (.ok ())), [], some (.ok ()))
  else if d.loading then (d, [], none)
  else
    let decisions := d.decisionsRead
    let d := { d with read := some decisions }
    match decisions.lookup q.origin with
    | some true => (d.setInquiry i (.settled (.ok ())), [], some (.ok ()))
    | some false =>
      let denied : Except Fault Unit := .error (deniedByStore q.origin)
      (d.setInquiry i (.settled denied), [], some denied)
    | none => d.ask i q

def lookInquiry (d : Desk) (i : Nat) : Desk × List Errand × Option (Except Fault Unit) :=
  match d.inquiries.get? i with
  | none => (d, [], none)
  | some q =>
    match q.phase with
    | .settled outcome => (d, [], some outcome)
    | .asking p =>
      match (d.prompts.get? p).bind Prompt.answer with
      | none => (d, [], none)
      | some answer => d.conclude i q.origin answer
    | .fresh => d.startInquiry i q

/-! ## Checks -/

def check (d : Desk) (origin : String) : Desk :=
  { d with checks := d.checks.push { origin := origin } }

def setCheck (d : Desk) (c : Nat) (phase : CheckPhase) : Desk :=
  { d with checks := d.checks.modify c fun k => { k with phase := phase } }

def forget (d : Desk) (origin : String) : Desk × Bool :=
  ({ d with memo := Assoc.erase origin d.memo }, Assoc.has origin d.memo)

def join (d : Desk) (origin : String) : Desk × Nat :=
  match d.memo.lookup origin with
  | some i => (d, i)
  | none =>
    let i := d.inquiries.size
    ({ d.inquire origin with memo := Assoc.set origin i d.memo }, i)

/-- Take an origin's prompt off the list of those on show; whether it was there. -/
def withdrawPrompt (d : Desk) (origin : String) : Desk × Bool :=
  ({ d with pending := d.pending.filter (· != origin) }, d.pending.contains origin)

def closePrompts (d : Desk) (origin : String) : Desk :=
  { d with prompts := ⟨d.prompts.cells.map fun p =>
      if p.origin == origin && p.answer.isNone then { p with answer := some .dismissed } else p⟩ }

/-- Let in an origin that came onto the list while its check was waiting for the user. -/
def admitLate (d : Desk) (c : Nat) (origin : String) :
    Desk × List Errand × Option (Except Fault Unit) :=
  let (d, _) := d.forget origin
  let (d, shown) := d.withdrawPrompt origin
  let d := d.setCheck c (.settled (.ok ()))
  if shown then (d.closePrompts origin, [.close origin], some (.ok ())) else (d, [], some (.ok ()))

def race (d : Desk) (c : Nat) (origin : String) (inquiry : Nat) :
    Desk × List Errand × Option (Except Fault Unit) :=
  if d.list.contains origin then d.admitLate c origin
  else
    match d.lookInquiry inquiry with
    | (d, errands, none) => (d.setCheck c (.racing inquiry), errands, none)
    | (d, errands, some outcome) => (d.setCheck c (.settled outcome), errands, some outcome)

def look (d : Desk) (c : Nat) : Desk × List Errand × Option (Except Fault Unit) :=
  match d.checks.get? c with
  | none => (d, [], none)
  | some k =>
    match k.phase with
    | .settled outcome => (d, [], some outcome)
    | .racing inquiry => d.race c k.origin inquiry
    | .start =>
      if d.list = .loading then (d, [], none)
      else if d.list.contains k.origin then (d.setCheck c (.settled (.ok ())), [], some (.ok ()))
      else
        let (d, inquiry) := d.join k.origin
        d.race c k.origin inquiry

/-! ## The user and the store -/

/-- The stored decisions have been read. -/
def finishLoading (d : Desk) : Desk :=
  if d.loading then { d with loading := false, read := some d.decisionsRead } else d

def openPrompt? (d : Desk) (origin : String) : Option Nat :=
  (d.prompts.entries.find? fun p => p.2.origin == origin && p.2.answer.isNone).map Prod.fst

def answer? (d : Desk) (origin : String) (answer : Answer) : Option Desk :=
  (d.openPrompt? origin).map fun p =>
    { d with prompts := d.prompts.modify p fun q => { q with answer := some answer } }

def storeGrant (d : Desk) (origin : String) : Desk :=
  if d.unwritable then d else { d with decisions := d.decisions.grant origin }

end Desk

end Switchboard
