import RollupEngine.Logging.Setup
import RollupEngine.Plant
import RollupEngine.Proofs.Alarms
import RollupEngine.Proofs.Atomicity
import RollupEngine.Proofs.Collecting
import RollupEngine.Proofs.Config.Engine
import RollupEngine.Proofs.Config.Remote
import RollupEngine.Proofs.Correspondence
import RollupEngine.Proofs.Exception
import RollupEngine.Proofs.Fate
import RollupEngine.Proofs.Forks
import RollupEngine.Proofs.History
import RollupEngine.Proofs.Isolation
import RollupEngine.Proofs.Leaks
import RollupEngine.Proofs.Lifecycle
import RollupEngine.Proofs.Loading
import RollupEngine.Proofs.Logging.Configuration
import RollupEngine.Proofs.Modes
import RollupEngine.Proofs.Noninterference
import RollupEngine.Proofs.Ownership
import RollupEngine.Proofs.Protocol
import RollupEngine.Proofs.Reading
import RollupEngine.Proofs.Refinement
import RollupEngine.Proofs.Release
import RollupEngine.Proofs.Retry
import RollupEngine.Proofs.Room
import RollupEngine.Proofs.Scope
import RollupEngine.Proofs.Scripted.Play
import RollupEngine.Proofs.Scripted.Script
import RollupEngine.Proofs.Scripted.Storage
import RollupEngine.Proofs.Scripted.Termination
import RollupEngine.Proofs.Session.Fields
import RollupEngine.Proofs.Session.Lockstep
import RollupEngine.Proofs.Shutdown
import RollupEngine.Proofs.Surfacing
import RollupEngine.Proofs.Text.Utf8
import RollupEngine.Proofs.Transparency
