import DelegatedFetch.Description
import DelegatedFetch.Document
import DelegatedFetch.Fetch.Run
import DelegatedFetch.Main
import DelegatedFetch.Proofs.Crypto.Rsa
import DelegatedFetch.Proofs.Fetch.Alone
import DelegatedFetch.Proofs.Fetch.Bounds
import DelegatedFetch.Proofs.Fetch.CacheHistory
import DelegatedFetch.Proofs.Fetch.CacheKey
import DelegatedFetch.Proofs.Fetch.Continuity
import DelegatedFetch.Proofs.Fetch.Forgotten
import DelegatedFetch.Proofs.Fetch.Frame
import DelegatedFetch.Proofs.Fetch.Gates
import DelegatedFetch.Proofs.Fetch.Generated
import DelegatedFetch.Proofs.Fetch.Handover
import DelegatedFetch.Proofs.Fetch.Latest
import DelegatedFetch.Proofs.Fetch.OneToken
import DelegatedFetch.Proofs.Fetch.Outcome
import DelegatedFetch.Proofs.Fetch.Purged
import DelegatedFetch.Proofs.Fetch.Rejected
import DelegatedFetch.Proofs.Fetch.Safekeeping
import DelegatedFetch.Proofs.Fetch.SharedCache
import DelegatedFetch.Proofs.Fetch.Visitors
import DelegatedFetch.Proofs.Signing.Canonical
import DelegatedFetch.Proofs.Signing.Conserved
import DelegatedFetch.Proofs.Text.Redaction
import DelegatedFetch.Signing.Verify
import DelegatedFetch.Proofs.Text.Alike
import DelegatedFetch.Proofs.Fetch.Trace
import DelegatedFetch.Proofs.Text.Raw
import DelegatedFetch.Proofs.Text.Hidden
import DelegatedFetch.Proofs.Store.Registrations
import DelegatedFetch.Proofs.Store.Loading
import DelegatedFetch.Proofs.Signing.BodyDigest
import DelegatedFetch.Proofs.Fetch.Precedence
import DelegatedFetch.Proofs.Fetch.Expired
import DelegatedFetch.Proofs.Fetch.Reports
import DelegatedFetch.Proofs.Settings.EnvironmentFiles
import DelegatedFetch.Proofs.Signing.ReadBack
