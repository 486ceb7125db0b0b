import Switchboard.Main
import Switchboard.Proofs.Answers
import Switchboard.Proofs.DeferredService
import Switchboard.Proofs.Disposal
import Switchboard.Proofs.ExactDeadline
import Switchboard.Proofs.Acceptance
import Switchboard.Proofs.Lifecycle
import Switchboard.Proofs.LivePeer
import Switchboard.Proofs.MessageGrammar
import Switchboard.Proofs.Neighbours
import Switchboard.Proofs.Notices
import Switchboard.Proofs.OpenPrompts
import Switchboard.Proofs.OperatorLists
import Switchboard.Proofs.ReplyFate
import Switchboard.Proofs.StoredGrants
import Switchboard.World.Report
