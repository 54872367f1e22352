import RollupEngine.Datum
import RollupEngine.Mode
import RollupEngine.Text.Numeral

/-!
# Failures

An operation that fails does so with an `Error`, and possibly with a second one that caused it.
The engine's own errors (`EngineError`) have a kind, a message and details; the others (`fault`),
nearly all of them the machine's, have a name. Interrupts are errors from outside the computation.
They are not `ordinary`: no operation of the engine recovers from one, it only finishes what it has
promised to finish in every case.

An error is taken together with its text, which the engine puts into the messages of the errors
that it raises itself. That every error has such a text is an assumption: an error whose text
cannot be had is not among those of `Error`.

The kinds of the engine's errors form a hierarchy of two levels, with `EngineErrorKind.rollups` at
the top.
-/

namespace RollupEngine

/-- The kinds of the engine's own errors. -/
inductive EngineErrorKind where
  | rollups | inputRejected | fatal | closed | busy | transaction
  deriving DecidableEq, Repr

namespace EngineErrorKind

/-- All kinds, the most general first. -/
def all : List EngineErrorKind :=
  [.rollups, .inputRejected, .fatal, .closed, .busy, .transaction]

/-- The code by which a client tells the kinds apart. -/
def code : EngineErrorKind → String
  | .rollups => "ROLLUPS_ERROR"
  | .inputRejected => "INPUT_REJECTED"
  | .fatal => "FATAL"
  | .closed => "CLOSED"
  | .busy => "BUSY"
  | .transaction => "TRANSACTION"

/-- The message of an error that brings none. -/
def defaultMessage : EngineErrorKind → String
  | .rollups => "Rollups engine error"
  | .inputRejected => "Input rejected"
  | .fatal => "Rollups fatal error"
  | .closed => "Rollups engine is shut down"
  | .busy => "A session is already open on this engine"
  | .transaction => "No open transaction"

/-- Whether errors of kind `k` count among those of kind `general`. -/
def isA (k general : EngineErrorKind) : Bool :=
  k = general || general = .rollups

end EngineErrorKind

/-- An error of the engine. -/
structure EngineError where
  kind : EngineErrorKind
  message : String
  details : Mapping
  deriving Repr

namespace EngineError

/-- An error of a kind. An empty message counts as missing, and a missing one is the kind's own. -/
def make (kind : EngineErrorKind) (message : Option String := none) (details : Mapping := []) :
    EngineError where
  kind := kind
  message := match message with
    | none => kind.defaultMessage
    | some s => if s.isEmpty then kind.defaultMessage else s
  details := details

/-- An error as plain data. -/
def toMapping (e : EngineError) : Mapping :=
  [("code", .text e.kind.code), ("message", .text e.message), ("details", .mapping e.details)]

end EngineError

/-- What an operation fails with. -/
inductive Error where
  /-- An error of the engine. -/
  | engine (error : EngineError)
  /-- An error that is none of the engine's own, under its name. -/
  | fault (name message : String)
  /-- A payload that is not a byte string was handed in. -/
  | notBytes (kind : InputKind) (typeName : String)
  /-- An interrupt from outside, under its own name. -/
  | interrupt (name message : String)
  /-- The host has run the machine as often as it is willing to. -/
  | stalled
  deriving Repr

namespace Error

/-- Whether an error belongs to the computation, so that the engine may handle it. -/
def ordinary : Error → Bool
  | .interrupt .. | .stalled => false
  | _ => true

/-- The text of an error, which every error is assumed to have. -/
def message : Error → String
  | .engine e => e.message
  | .fault _ m => m
  | .notBytes kind typeName =>
    Labelled.label kind ++ " payload must be bytes, not " ++ typeName
  | .interrupt _ m => m
  | .stalled => "the machine was run as often as the host allows"

/-- The kind of an error of the engine. -/
def engineKind? : Error → Option EngineErrorKind
  | .engine e => some e.kind
  | _ => none

end Error

/-- An error with the one that caused it, if any. -/
structure Failure where
  error : Error
  cause : Option Error := none
  deriving Repr

namespace Failure

/-- Whether a failure belongs to the computation. -/
def ordinary (f : Failure) : Bool :=
  f.error.ordinary

/-- The failure with an error of the engine and no cause. -/
def ofKind (kind : EngineErrorKind) (message : Option String := none) (details : Mapping := []) :
    Failure where
  error := .engine (.make kind message details)

/-- The details of a fatal error: who brought it about. -/
def source (name : String) : Mapping :=
  [("source", .text name)]

/-- A fatal error that another error brought about. -/
def fatalFrom (text : String) (details : Mapping) (cause : Error) : Failure where
  error := .engine (.make .fatal (some (text ++ cause.message)) details)
  cause := some cause

/-- The failure to write a number with too many digits. -/
def unwritable : Failure where
  error := .fault "value" ("Exceeds the limit (" ++ toString Numeral.maxDigits ++ " digits) for " ++
    "integer string conversion; use sys.set_int_max_str_digits() to increase the limit")

end Failure

end RollupEngine
