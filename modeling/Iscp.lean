import Iscp.Audit
import Iscp.Canonical.Form
import Iscp.Conformance
import Iscp.Descriptor
import Iscp.Envelope.Channel
import Iscp.Envelope.Exchange
import Iscp.Envelope.Nonces
import Iscp.Envelope.Rejection
import Iscp.Queue.Ledger
import Iscp.Queue.Order
import Iscp.RateLimit
import Iscp.Recovery
import Iscp.Relay.Admission
import Iscp.Relay.Counters
import Iscp.Relay.Delivery
import Iscp.Relay.Envelopes
import Iscp.Relay.Leases
import Iscp.Relay.Lockout
import Iscp.Relay.Loss
import Iscp.Relay.Nonces
import Iscp.Relay.Refresh
import Iscp.Relay.Replicas
import Iscp.Relay.Revocation
import Iscp.Relay.Takeover
import Iscp.Relay.Tickets
import Iscp.Service.Identifiers
import Iscp.Service.Stores
import Iscp.Session.Control
import Iscp.Session.Network
import Iscp.Signed.Survives
import Iscp.TrustRoot.Failures
import Iscp.TrustRoot.Feed
import Iscp.TrustRoot.Grants
import Iscp.TrustRoot.Policy
import Iscp.TrustRoot.Polling
import Iscp.TrustRoot.Restarts
import Iscp.TrustRoot.Signer
import Iscp.Relay.Failures
