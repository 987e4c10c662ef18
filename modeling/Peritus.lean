import Peritus.Lease.Headroom
import Peritus.Kernel.PauseResume
import Peritus.Budget.Exposure
import Peritus.Budget.Retries
import Peritus.Patch.Conflicts
import Peritus.Scheduler.Arithmetic
import Peritus.Scheduler.Tampering
import Peritus.Scheduler.Starvation
import Peritus.Scheduler.Queue
import Peritus.Scheduler.Subtree
import Peritus.Collaboration.MessageLog
import Peritus.Collaboration.Spelling
import Peritus.Collaboration.Cancellation
import Peritus.Codec.Primitives
import Peritus.Scheduler.Checkpoint
import Peritus.Agent.Accounting
import Peritus.Agent.Replay
import Peritus.Review.Replay
import Peritus.Review.Oscillation
import Peritus.Review.Commit
import Peritus.Orchestrator.Recovery
import Peritus.Gates.Order
import Peritus.Gates.Lifecycle
import Peritus.ToolProtocol.Compatibility
import Peritus.Context.Supersession
import Peritus.Context.Frame
import Peritus.Context.Freshness
import Peritus.Provider.Chunks
import Peritus.Agent.Endings
import Peritus.Scheduler.History
import Peritus.Collaboration.Replay
