import Asl3Api.Lib.Transition
import Asl3Api.Lib.Json
import Asl3Api.Vnext.Policy
import Asl3Api.Vnext.Observation
import Asl3Api.Vnext.Ledger
import Asl3Api.Vnext.Service
import Asl3Api.Vnext.Table
import Asl3Api.Vnext.Api
import Asl3Api.Runs.System
import Asl3Api.Runs.Lifecycle
import Asl3Api.Runs.Stretch
import Asl3Api.Runs.Invariant
import Asl3Api.Runs.History
import Asl3Api.Runs.Results
import Asl3Api.Runs.Slot
import Asl3Api.Runs.FailStop
import Asl3Api.Runs.ControlWrite
import Asl3Api.Runs.Recovery
import Asl3Api.Runs.Idempotency
import Asl3Api.Runs.Shutdown
import Asl3Api.Vnext.Evidence
import Asl3Api.Runs.TrafficGate
import Asl3Api.Lib.Interleave
import Asl3Api.Runs.Admission
import Asl3Api.Runs.Permanence
import Asl3Api.Runs.Shared
import Asl3Api.Vnext.Rows
import Asl3Api.Vnext.Snapshot
import Asl3Api.Vnext.Reading
import Asl3Api.Vnext.Capabilities
import Asl3Api.Vnext.Contradiction
import Asl3Api.Vnext.Effect
import Asl3Api.Lib.Wire
import Asl3Api.Vnext.Framing
import Asl3Api.Vnext.Session
import Asl3Api.Runs.Provenance
import Asl3Api.Command
import Asl3Api.Lib.Deadline
import Asl3Api.Vnext.Verify
import Asl3Api.Vnext.Observer
import Asl3Api.Lib.Text
import Asl3Api.Audit
import Asl3Api.Vnext.Credentials
import Asl3Api.Lib.Queue
import Asl3Api.Subscribers
import Asl3Api.Listener
import Asl3Api.EventHandler
import Asl3Api.Vnext.Validation
import Asl3Api.Lib.Numeral
import Asl3Api.Vnext.Alinks
import Asl3Api.NodeCache
import Asl3Api.Lib.EventStream
import Asl3Api.Lib.JsonText
import Asl3Api.AmiClient.Stats
import Asl3Api.AmiClient.View
import Asl3Api.Stream.Generator
import Asl3Api.Stream.Messages
import Asl3Api.Stream.Registry
import Asl3Api.Stream.Snapshots
import Asl3Api.Lib.Flock
import Asl3Api.Runs.Ownership
import Asl3Api.Runs.Processes
import Asl3Api.Lib.Regex
import Asl3Api.Vnext.ReadSession
import Asl3Api.Vnext.Software
import Asl3Api.Vnext.Server
import Asl3Api.Vnext.VersionProbe
import Asl3Api.Vnext.Observe
import Asl3Api.Vnext.Station
import Asl3Api.Lib.Paging
import Asl3Api.Runs.Paging
import Asl3Api.AmiClient.Commands
import Asl3Api.Lib.Coroutine
import Asl3Api.Background
import Asl3Api.Lifespan
import Asl3Api.Runs.Responses
import Asl3Api.Runs.Locations
