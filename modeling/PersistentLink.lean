import PersistentLink.Scenario.Late
import PersistentLink.Scenario.Served
import PersistentLink.Scenario.Visit
import PersistentLink.Proofs.Ensemble.Delivery
import PersistentLink.Proofs.Ensemble.Exchange
import PersistentLink.Proofs.Ensemble.Limits
import PersistentLink.Proofs.Ensemble.Ownership
import PersistentLink.Proofs.Ensemble.Recoding
import PersistentLink.Proofs.Ensemble.Reports
import PersistentLink.Proofs.Ensemble.Quiescence
import PersistentLink.Proofs.Ensemble.Timeline
import PersistentLink.Proofs.Manager.Books
import PersistentLink.Proofs.Manager.Ledger
import PersistentLink.Proofs.Manager.Answers
import PersistentLink.Proofs.Manager.Retry
import PersistentLink.Proofs.Manager.Story
import PersistentLink.Proofs.Manager.Restart
import PersistentLink.Proofs.Ensemble.Publication
import PersistentLink.Proofs.Ensemble.Shutdown
import PersistentLink.Proofs.Endpoint.Port
import PersistentLink.Proofs.Uri.Authority
import PersistentLink.Proofs.Uri.Reference
import PersistentLink.Proofs.Endpoint.RoundTrip
import PersistentLink.Proofs.Endpoint.HostPort
import PersistentLink.Proofs.Uri.UserInfo
import PersistentLink.Proofs.Endpoint.Spelling
import PersistentLink.Proofs.Ensemble.Records
import PersistentLink.Proofs.Manager.Inspection
import PersistentLink.Proofs.Scenario.Callers
import PersistentLink.Proofs.Scenario.Runs
import PersistentLink.Proofs.LinkReader
import PersistentLink.Proofs.WebSocket.Events
import PersistentLink.Proofs.WebSocket.Client
