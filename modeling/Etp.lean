import Etp.Example.Handlers
import Etp.Example.Scripted
import Etp.Proofs.Body.Partition
import Etp.Proofs.Handler.Routing
import Etp.Proofs.Message.Announcement
import Etp.Proofs.Message.Arrival
import Etp.Proofs.Message.Delimiting
import Etp.Proofs.Message.Division
import Etp.Proofs.Message.Sequence
import Etp.Proofs.Message.Slicing
import Etp.Proofs.Peer.Renegotiation
import Etp.Proofs.Session.Admission
import Etp.Proofs.Session.Answers
import Etp.Proofs.Session.Ascending
import Etp.Proofs.Session.Authorization
import Etp.Proofs.Session.Capacity
import Etp.Proofs.Session.Closing
import Etp.Proofs.Session.Counters
import Etp.Proofs.Session.Delivery
import Etp.Proofs.Session.Expiry
import Etp.Proofs.Session.Failure
import Etp.Proofs.Session.Handshake
import Etp.Proofs.Session.History
import Etp.Proofs.Session.Independence
import Etp.Proofs.Session.Reports
import Etp.Proofs.Settings.Reloading
import Etp.Session.Pump
import Etp.Settings.Document
