import RollupEngine.Code
import RollupEngine.Failure
import RollupEngine.Text.Utf8

/-!
# Programs of scripted machines

A scripted machine does what a list of actions tells it. Between two breaks it may change its
ledger, die, or fail; at a break it comes back to the host, with or without a request to hand over.

`ledgerGuest` is a program that depends on what the machine holds. It keeps a ledger of the inputs
it was sent: an advance appends its payload, yields it as an output, reports the new number of
entries and accepts with the root of the ledger; an inspect reports every entry. Some payloads
make it reject, throw, halt, or break the protocol instead. The machine is one for tests, and it
keeps two things simple: the root of a ledger is the entries themselves and no digest of them, and
what follows the word in a payload that throws is yielded as it stands, text or not.
-/

namespace RollupEngine.Scripted

/-- What a machine answers when asked for its request. -/
inductive Pending where
  /-- It has none. -/
  | absent
  /-- It has an empty one. -/
  | empty
  | request (request : YieldRequest)
  | raises (error : Error)
  deriving Repr

/-- A step of a machine. -/
inductive Action where
  | append (entry : Bytes)
  | die
  | raise (error : Error)
  /-- Come back to the host. -/
  | breakWith (reason : Int) (pending : Pending)
  deriving Repr

/-- A machine that has no action left has halted. -/
def haltedBreak : Int := Coded.code BreakReason.halted

namespace Action

/-- An automatic yield. -/
def automatic (reason : AutomaticReason) (payload : Bytes) : Action :=
  .breakWith (Coded.code BreakReason.yieldedAutomatically)
    (.request ⟨Coded.code YieldCommand.automatic, Coded.code reason, payload⟩)

/-- A manual yield. -/
def manual (reason : ManualReason) (payload : Bytes) : Action :=
  .breakWith (Coded.code BreakReason.yieldedManually)
    (.request ⟨Coded.code YieldCommand.manual, Coded.code reason, payload⟩)

end Action

/-! ## The ledger guest -/

/-- The entries that a machine holds, the oldest first. -/
abbrev Ledger := List Bytes

/-- The root of a ledger: every entry with its length before it. -/
def Ledger.root (l : Ledger) : Bytes :=
  l.flatMap fun entry => Bytes.word32 entry.length ++ entry

/-- What the guest reports after an advance. -/
def Ledger.lengthReport (l : Ledger) : Bytes :=
  Utf8.encode ("len=" ++ toString l.length)

/-- What follows a word at the start of a payload. -/
def after? (word : String) (payload : Bytes) : Option Bytes :=
  if (Utf8.encode word).isPrefixOf payload then some (payload.drop (Utf8.encode word).length)
  else none

/-- What the guest does with an advance. -/
def ledgerAdvance (ledger : Ledger) (payload : Bytes) : List Action :=
  let grown := ledger ++ [payload]
  [.append payload, .automatic .progress (Bytes.word32 0)] ++
    if (after? "reject" payload).isSome then [.manual .rejected []]
    else match after? "raise:" payload with
      | some reason => [.manual .exception reason]
      | none =>
        if payload = Utf8.encode "halt" then [.breakWith haltedBreak .absent]
        else
          [.automatic .output payload, .automatic .report (Ledger.lengthReport grown),
            .automatic .progress (Bytes.word32 100), .manual .accepted (Ledger.root grown)]

/-- What the guest does with an inspect. -/
def ledgerInspect (ledger : Ledger) (query : Bytes) : List Action :=
  [.automatic .progress (Bytes.word32 10)]
    ++ (if query = Utf8.encode "emit-output" then
        [.automatic .output (Utf8.encode "not allowed")] else [])
    ++ ledger.map (.automatic .report)
    ++ [.append (Utf8.encode "inspected"), .manual .accepted []]

/-- The ledger guest. -/
def ledgerGuest (ledger : Ledger) (reason : RequestReason) (payload : Bytes) : List Action :=
  match reason with
  | .advance => ledgerAdvance ledger payload
  | .inspect => ledgerInspect ledger payload

/-- A program. -/
inductive Program where
  | script (actions : List Action)
  | ledger
  deriving Repr

/-- The actions with which a program answers a request. -/
def Program.actions (p : Program) (ledger : Ledger) (reason : RequestReason) (payload : Bytes) :
    List Action :=
  match p with
  | .script actions => actions
  | .ledger => ledgerGuest ledger reason payload

end RollupEngine.Scripted
