import RollupEngine.Bytes
import RollupEngine.Logging.Severity
import RollupEngine.Mode
import RollupEngine.Text.ByteLiteral

/-!
# Notices

The engine tells its log what it does. A `Notice` is one such occasion; its severity, its channel
and its text are functions of it, so a statement about what was noticed need not speak of texts.
-/

namespace RollupEngine

open Logging (Severity)

/-- The part of the engine that a notice comes from. -/
inductive Channel where
  | engine | loading | reading | session | transaction
  deriving DecidableEq, Repr

/-- The logger of a channel. -/
def Channel.logger : Channel → String
  | .engine => "rollkernel.engine.kernel"
  | .loading => "rollkernel.composition.factory"
  | .reading => "rollkernel.engine.interpreter"
  | .session => "rollkernel.engine.session"
  | .transaction => "rollkernel.engine.transaction"

/-- Something that the engine tells its log. -/
inductive Notice where
  | directEngine
  | loading (path address : String)
  | undecodableProgress (payload : Bytes)
  | unknownYield (reason : Int)
  | began (mode : Isolation)
  | forkFailed
  | committed (mode : Isolation)
  | releaseFailed
  | rolledBack (mode : Isolation)
  | stored (path : String)
  | shutDown
  | started (kind : InputKind) (size : Nat)
  | cancelled (kind : InputKind)
  | rejected (kind : InputKind)
  | guestException (kind : InputKind) (description : String)
  | violation (kind : InputKind) (description : String)
  | machineFailed (kind : InputKind)
  | rollbackFailed (kind : InputKind)
  | cancelFailed
  deriving DecidableEq, Repr

namespace Notice

/-- Where a notice comes from. -/
def channel : Notice → Channel
  | .directEngine => .engine
  | .loading .. => .loading
  | .undecodableProgress _ | .unknownYield _ => .reading
  | .began _ | .forkFailed | .committed _ | .releaseFailed | .rolledBack _ | .stored _
  | .shutDown => .transaction
  | .started .. | .cancelled _ | .rejected _ | .guestException .. | .violation ..
  | .machineFailed _ | .rollbackFailed _ | .cancelFailed => .session

/-- How serious a notice is. -/
def severity : Notice → Severity
  | .directEngine => .warning
  | .loading .. => .info
  | .undecodableProgress _ | .unknownYield _ => .debug
  | .began _ | .committed _ => .debug
  | .rolledBack .isolated => .debug
  | .rolledBack .direct => .warning
  | .forkFailed | .releaseFailed => .error
  | .stored _ | .shutDown => .info
  | .started .. | .cancelled _ => .debug
  | .rejected _ => .info
  | .guestException .. | .violation .. | .machineFailed _ | .rollbackFailed _
  | .cancelFailed => .error

/-- The text of a notice. Handlers put it together when they show a notice; one that names a yield
reason of more than 4300 digits cannot be shown, and is dropped there without a failure. -/
def text : Notice → String
  | .directEngine => "direct isolation: rejected inputs are not rolled back"
  | .loading path address => "loading machine from " ++ path ++ " (address=" ++ address ++ ")"
  | .undecodableProgress p => "dropping undecodable progress: " ++ ByteLiteral.render p
  | .unknownYield n => "ignoring automatic yield reason: " ++ toString n
  | .began mode => "transaction begin (" ++ Labelled.label mode ++ ")"
  | .forkFailed => "fork failed"
  | .committed .direct => "transaction commit (direct)"
  | .committed .isolated => "transaction commit"
  | .releaseFailed => "failed to release previous canonical machine"
  | .rolledBack .direct => "rollback in direct mode: canonical machine keeps its changes"
  | .rolledBack .isolated => "transaction rollback"
  | .stored path => "stored canonical machine: " ++ path
  | .shutDown => "engine shut down"
  | .started kind size =>
    Labelled.label kind ++ " session started (" ++ toString size ++ " bytes)"
  | .cancelled kind => Labelled.label kind ++ " session cancelled"
  | .rejected kind => Labelled.label kind ++ " input rejected"
  | .guestException kind d => Labelled.label kind ++ " raised guest exception: " ++ d
  | .violation kind d => Labelled.label kind ++ " protocol violation: " ++ d
  | .machineFailed kind => Labelled.label kind ++ " machine error"
  | .rollbackFailed kind => Labelled.label kind ++ " rollback after machine error failed"
  | .cancelFailed => "failed to cancel abandoned session"

end Notice

end RollupEngine
