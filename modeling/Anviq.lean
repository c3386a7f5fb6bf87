import Anviq.Harness.HashParity
import Anviq.Harness.Recording
import Anviq.Json.Strings
import Anviq.Lru.Refinement
import Anviq.Proxy.Marshal
import Anviq.Proxy.Reports
import Anviq.Proxy.SessionTrust
import Anviq.Harness.DroppedEvents
import Anviq.Canonical.Ports
import Anviq.Harness.HashChain
import Anviq.Harness.PyValue
import Anviq.Semantic.Isolation
import Anviq.Diff.Description
import Anviq.Proxy.Schemacache
import Anviq.Proxy.Recovery
import Anviq.Control.VerdictCache
import Anviq.Control.RiskClass
import Anviq.Semantic.Coalescing
import Anviq.Diff.References
import Anviq.Diff.Shortcut
import Anviq.Lru.Stack
import Anviq.Lru.WellFormed
import Anviq.Harness.Prefixes
import Anviq.Harness.Reread
import Anviq.Proxy.Writer
import Anviq.Semantic.Candidates
import Anviq.Harness.Emission
import Anviq.Harness.Portable
import Anviq.Harness.Redaction
import Anviq.Harness.Transcript
import Anviq.Harness.Replay
import Anviq.Harness.Acceptance
import Anviq.Harness.NoTrace
import Anviq.Harness.Gate
import Anviq.Diff.Renames
import Anviq.Diff.Termination
import Anviq.Diff.Report
import Anviq.Diff.Pointers
import Anviq.Diff.ShapePaths
import Anviq.Harness.NumberLayout
import Anviq.Semantic.ExactIndex
import Anviq.Harness.Playback
import Anviq.Lru.ThreadSafe
import Anviq.Trust.Cleared
import Anviq.Semantic.Withheld
import Anviq.Semantic.Guards
import Anviq.Proxy.Forwarded
