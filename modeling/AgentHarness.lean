import AgentHarness.Auth.Concurrent
import AgentHarness.SessionLog.Interleaved
import AgentHarness.Sse.Reference
import AgentHarness.Auth.Replay
import AgentHarness.Auth.Stored
import AgentHarness.SessionLog.Accepted
import AgentHarness.Lib.Alone
import AgentHarness.SessionLog.Inventory
import AgentHarness.SessionLog.Still
import AgentHarness.Sse.Prefix
import AgentHarness.Sse.Messages
import AgentHarness.Lib.Json.Size
import AgentHarness.SessionLog.Sizes
import AgentHarness.Sse.Bounded
import AgentHarness.Cli.Ask
import AgentHarness.SessionLog.Atomic
import AgentHarness.SessionLog.Lifecycle
import AgentHarness.Cli.Render
import AgentHarness.Auth.Deadlines
import AgentHarness.Sse.Reads
import AgentHarness.Sse.Framing
import AgentHarness.Sse.Counts
import AgentHarness.Auth.Callback
import AgentHarness.Auth.CallbackSpec
import AgentHarness.SessionLog.Bounds
import AgentHarness.SessionLog.Faults
import AgentHarness.Lib.LineEnds
import AgentHarness.Lib.Sha256
import AgentHarness.Scripts.Packs
import AgentHarness.Scripts.Rules
import AgentHarness.Scripts.Lock
import AgentHarness.Cli.Shown
import AgentHarness.Cli.Command
import AgentHarness.Model.Ask
import AgentHarness.Cli.RunAsk
import AgentHarness.Auth.RefreshLock
import AgentHarness.Scripts.Order
import AgentHarness.SessionLog.Drawing
import AgentHarness.SessionLog.Memory
import AgentHarness.SessionLog.Listed
import AgentHarness.SessionLog.Twins
import AgentHarness.Auth.Lossless
import AgentHarness.Cli.Sessions
import AgentHarness.SessionLog.Named
import AgentHarness.Cli.Output
import AgentHarness.Auth.Wire
import AgentHarness.Scripts.Manifest
import AgentHarness.Model.Wire
import AgentHarness.Auth.LoginWire
